import SlabLedger.Slab.Decoder
/-!
# Tree nodes

A crit-bit tree stores its nodes as 56-byte records, each starting with a 32-bit tag:

* 0, unused;
* 1, inner: a key, the length of the prefix the subtree shares, and two child indices;
* 2, leaf: the slot of its record in a slot vector, its key and its owner;
* 3, free: the next node of the free list;
* 4, free tail: the last node of the free list.

Any other tag is a fault that names the tag and the node's position in the table.
-/

namespace SlabLedger

/-- Bytes per node record. -/
def nodeSize : Nat := 56

/-- A leaf: the slot of its record, its key and its owner. -/
structure Leaf where
  slot : UInt32
  key : Key
  owner : Address
  deriving DecidableEq, Repr

/-- A node of a crit-bit tree. -/
inductive Node where
  | unused
  /-- An inner node: its key, the prefix length its subtree shares, and its two children. -/
  | inner (key : Key) (prefixLen : UInt32) (left right : UInt32)
  | leaf (l : Leaf)
  /-- A free node and the next node of the free list. -/
  | free (next : UInt32)
  /-- The last node of the free list. -/
  | freeTail (next : UInt32)
  deriving DecidableEq, Repr

namespace Node

/-- The tag that marks a node's kind. -/
def tag : Node → UInt32
  | .unused => 0
  | .inner .. => 1
  | .leaf _ => 2
  | .free _ => 3
  | .freeTail _ => 4

/-- The leaf of a leaf node. -/
def leaf? : Node → Option Leaf
  | .leaf l => some l
  | _ => none

/-- Reads a node record at table position `index`: the tag, then the fields of its kind. -/
def read (index : Nat) : Decoder Node := do
  let tag ← Decoder.u32
  match tag.toNat with
  | 0 => pure .unused
  | 1 =>
    let key ← Decoder.key
    let prefixLen ← Decoder.u32
    let left ← Decoder.u32
    let right ← Decoder.u32
    pure (.inner key prefixLen left right)
  | 2 =>
    let slot ← Decoder.u32
    let key ← Decoder.key
    let owner ← Decoder.address
    pure (.leaf ⟨slot, key, owner⟩)
  | 3 => .free <$> Decoder.u32
  | 4 => .freeTail <$> Decoder.u32
  | _ => throw (.badNodeTag tag index)

/-- The node in a record at table position `index`. -/
def ofRecord (record : Bytes) (index : Nat) : Except Fault Node :=
  Decoder.parse (read index) record

end Node

end SlabLedger
