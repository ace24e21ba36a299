import SlabLedger.Slab.Tree
/-!
# Walks through a tree

Two walks follow the links of a node table.

The ordered walk starts at the root and visits an inner node's left subtree before its right
one, collecting the leaves: in a crit-bit tree that is key order. Every node it reaches must be
in the table, an inner node or a leaf, and reached once. A table without leaves gives no
leaves, whatever its root.

The free list starts at its head and follows `next` through free nodes to a free tail. It is
empty when the info block says its length is zero, and it never holds more entries than the
table has nodes.
-/

namespace SlabLedger

namespace Tree

/-- Visits the subtree at `i`: the node must be in the table and not yet seen; an inner node's
left subtree comes before its right one. Each call below the root has one less `depth`; since
the nodes on a path are distinct, `depth` one more than the table size never runs out. -/
def visit (t : Tree) : (depth : Nat) → UInt32 → Array Bool × Array Leaf →
    Except Fault (Array Bool × Array Leaf)
  | 0, i, _ => .error (.layout (.nodeReachedTwice i))
  | d + 1, i, (seen, out) => do
    let node ← t.node i
    if seen[i.toNat]?.getD false then throw (.layout (.nodeReachedTwice i))
    let seen := seen.setIfInBounds i.toNat true
    match node with
    | .inner _ _ left right =>
      let s ← t.visit d left (seen, out)
      t.visit d right s
    | .leaf l => pure (seen, out.push l)
    | other => throw (.layout (.reachableTag i other.tag))

/-- The leaves reached from the root, left subtrees first; none when the table has no leaf. -/
def orderedLeaves (t : Tree) : Except Fault (List Leaf) :=
  if t.leaves.isEmpty then .ok []
  else do
    let (_, out) ← t.visit (t.nodes.size + 1) t.info.root
      (Array.replicate t.nodes.size false, #[])
    pure out.toList

/-- Follows the free list from `i`, with room for `budget` more entries. -/
def freeListFrom (t : Tree) : (budget : Nat) → UInt32 → Array UInt32 →
    Except Fault (Array UInt32)
  | 0, _, _ => .error (.layout .freeListEndless)
  | b + 1, i, acc => do
    let acc := acc.push i
    match ← t.node i with
    | .free next => t.freeListFrom b next acc
    | .freeTail _ => pure acc
    | other => throw (.layout (.freeListTag i other.tag))

/-- The indices of the free list, from its head to its tail. -/
def freeList (t : Tree) : Except Fault (List UInt32) :=
  if t.info.freeListLen = 0 then .ok []
  else (·.toList) <$> t.freeListFrom t.nodes.size t.info.freeListHead #[]

end Tree

end SlabLedger
