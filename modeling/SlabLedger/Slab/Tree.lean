import SlabLedger.Slab.Collection
import SlabLedger.Slab.Node
/-!
# Crit-bit trees

A tree is an info block and a table of nodes, laid out as a collection of 56-byte records. The
info block holds the bump index, the free list's length and head, the root, and the number of
leaves the tree claims to hold; that number can be checked against the leaves of the table.
-/

namespace SlabLedger

/-- The info block of a tree. -/
structure TreeInfo where
  bumpIndex : UInt64
  freeListLen : UInt64
  freeListHead : UInt32
  root : UInt32
  leafCount : UInt64
  deriving DecidableEq, Repr

namespace TreeInfo

/-- The info block of a tree without pages: all zero. -/
def empty : TreeInfo := ⟨0, 0, 0, 0, 0⟩

/-- Reads the 32-byte info block. -/
def read : Decoder TreeInfo := do
  let bumpIndex ← Decoder.u64
  let freeListLen ← Decoder.u64
  let freeListHead ← Decoder.u32
  let root ← Decoder.u32
  let leafCount ← Decoder.u64
  pure { bumpIndex, freeListLen, freeListHead, root, leafCount }

end TreeInfo

/-- A crit-bit tree: its info block and its node table. -/
structure Tree where
  info : TreeInfo
  nodes : Array Node
  deriving DecidableEq, Repr

namespace Tree

/-- Node tables are collections of 56-byte node records. -/
def format : RecordFormat TreeInfo Node :=
  ⟨nodeSize, TreeInfo.read, TreeInfo.empty, fun i bytes => Node.ofRecord bytes i⟩

/-- Decodes the tree a header describes. -/
def decode (h : Header) (pool : PagePool) : Except Fault Tree := do
  let c ← Collection.decode format h pool
  pure ⟨c.info, c.records⟩

/-- The leaves of the table, in table order. -/
def leaves (t : Tree) : List Leaf := t.nodes.toList.filterMap Node.leaf?

/-- The number of leaves in the table. -/
def leafCount (t : Tree) : Nat := t.leaves.length

/-- Whether the info block's leaf count is the number of leaves in the table. -/
def checkLeafCount (t : Tree) : Bool := t.leafCount == t.info.leafCount.toNat

/-- The node at an index of the table. -/
def node (t : Tree) (i : UInt32) : Except Fault Node :=
  match t.nodes[i.toNat]? with
  | some n => .ok n
  | none => .error (.layout (.nodeOutsideTable i t.nodes.size))

end Tree

end SlabLedger
