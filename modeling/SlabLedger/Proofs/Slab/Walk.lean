import Mathlib.Data.List.Forall2
import Mathlib.Data.List.Nodup
import Mathlib.Data.List.Perm.Subperm
import SlabLedger.Proofs.Decoder
import SlabLedger.Slab.Tree.Walk

/-!
# The ordered walk of a node table

The ordered walk starts at the root, goes down through inner nodes, left child first, and
collects the leaves it meets. A node is reached by a path of child choices (`Tree.follow`). The
walk succeeds exactly when every node reached from the root lies in the table, is an inner node
or a leaf, and is reached by one path only (`Tree.WalkableFrom`): cycles, shared children,
`children [x, x]` and edges back to the root all give a node two paths. It then gives the leaves
of the tree in order, the left subtree before the right one (`Tree.InOrder`).

The walk keeps a mark per table position and a bound on its depth. `Tree.Spans i ns ls` says the
subtree at `i` is a finite tree on the positions `ns` with the leaves `ls`; it follows the walk's
recursion, and the walk succeeds on unmarked positions exactly when it holds
(`visit_sound`, `visit_complete`). The depth bound never decides the result: a node reached by
one path only lies on no path longer than the table.
-/

namespace SlabLedger

/-! ## Marks -/

/-- Whether position `j` is marked. -/
def marked (seen : Array Bool) (j : Nat) : Bool := seen[j]?.getD false

/-- The marks with the positions `ns` added. -/
def markAll (seen : Array Bool) (ns : List Nat) : Array Bool :=
  ns.foldl (fun s j => s.setIfInBounds j true) seen

@[simp]
theorem size_markAll (seen : Array Bool) (ns : List Nat) : (markAll seen ns).size = seen.size := by
  induction ns generalizing seen with
  | nil => rfl
  | cons j ns ih => rw [markAll, List.foldl_cons, ← markAll, ih, Array.size_setIfInBounds]

theorem marked_setIfInBounds (seen : Array Bool) {j : Nat} (hj : j < seen.size) (k : Nat) :
    marked (seen.setIfInBounds j true) k = (decide (k = j) || marked seen k) := by
  unfold marked
  rw [Array.getElem?_setIfInBounds]
  by_cases hkj : k = j
  · subst hkj
    simp [hj]
  · simp [hkj, Ne.symm hkj]

theorem marked_markAll (seen : Array Bool) (ns : List Nat) (hns : ∀ j ∈ ns, j < seen.size)
    (k : Nat) : marked (markAll seen ns) k = (decide (k ∈ ns) || marked seen k) := by
  induction ns generalizing seen with
  | nil => simp [markAll]
  | cons j ns ih =>
    have hj : j < seen.size := hns j List.mem_cons_self
    rw [markAll, List.foldl_cons, ← markAll,
      ih _ fun i hi => by rw [Array.size_setIfInBounds]; exact hns i (List.mem_cons_of_mem j hi),
      marked_setIfInBounds seen hj]
    by_cases hkj : k = j <;> simp [hkj]

@[simp]
theorem markAll_nil (seen : Array Bool) : markAll seen [] = seen := rfl

@[simp]
theorem markAll_cons (seen : Array Bool) (j : Nat) (ns : List Nat) :
    markAll seen (j :: ns) = markAll (seen.setIfInBounds j true) ns := rfl

theorem markAll_append (seen : Array Bool) (ns ms : List Nat) :
    markAll seen (ns ++ ms) = markAll (markAll seen ns) ms := by
  simp [markAll, List.foldl_append]

/-- The marks an inner node's walk finds are those of a tree: the node itself is unmarked, the
left walk finds its positions unmarked once the node is marked, and the right walk finds its
positions unmarked once the left ones are marked, exactly when all the positions are unmarked at
the start, and the node and the two sides' positions are distinct. -/
theorem unmarked_inner_iff {seen : Array Bool} {i : Nat} {ns ms : List Nat} (hi : i < seen.size)
    (hns : ∀ x ∈ ns, x < seen.size) :
    (marked seen i = false ∧ (∀ x ∈ ns, marked (seen.setIfInBounds i true) x = false) ∧
        ∀ x ∈ ms, marked (markAll (seen.setIfInBounds i true) ns) x = false) ↔
      (∀ x ∈ i :: (ns ++ ms), marked seen x = false) ∧ i ∉ ns ++ ms ∧ ns.Disjoint ms := by
  have hns' : ∀ x ∈ ns, x < (seen.setIfInBounds i true).size := by
    simpa [Array.size_setIfInBounds] using hns
  simp only [marked_markAll _ _ hns', marked_setIfInBounds _ hi, Bool.or_eq_false_iff,
    decide_eq_false_iff_not]
  constructor
  · rintro ⟨hmi, hmn, hmm⟩
    refine ⟨?_, ?_, fun x hxn hxm => (hmm x hxm).1 hxn⟩
    · intro x hx
      rcases List.mem_cons.1 hx with rfl | hx
      · exact hmi
      · rcases List.mem_append.1 hx with hx | hx
        exacts [(hmn x hx).2, (hmm x hx).2.2]
    · intro hmem
      rcases List.mem_append.1 hmem with hx | hx
      exacts [(hmn i hx).1 rfl, (hmm i hx).2.1 rfl]
  · rintro ⟨hm, hnot, hdisj⟩
    have hne : ∀ x ∈ ns ++ ms, x ≠ i := fun x hx hxi => hnot (hxi ▸ hx)
    refine ⟨hm i List.mem_cons_self, fun x hx => ?_, fun x hx => ?_⟩
    · exact ⟨hne x (List.mem_append_left _ hx),
        hm x (List.mem_cons_of_mem _ (List.mem_append_left _ hx))⟩
    · exact ⟨fun hxn => hdisj hxn hx, hne x (List.mem_append_right _ hx),
        hm x (List.mem_cons_of_mem _ (List.mem_append_right _ hx))⟩

/-- Whether the ordered walk passes a node: an inner node or a leaf. -/
def Node.onWalk : Node → Bool
  | .inner .. => true
  | .leaf _ => true
  | _ => false

namespace Tree

variable {t : Tree}

/-! ## Paths, trees and leaves in order -/

/-- The node reached from `i` by a path of child choices, `false` the left child and `true` the
right one, going down through inner nodes only; the index reached need not be in the table. -/
def follow (t : Tree) : UInt32 → List Bool → Option UInt32
  | i, [] => some i
  | i, c :: p =>
    match t.nodes[i.toNat]? with
    | some (.inner _ _ left right) => t.follow (if c then right else left) p
    | _ => none

/-- What the ordered walk from `root` asks of the nodes reached through inner nodes. -/
structure WalkableFrom (t : Tree) (root : UInt32) : Prop where
  /-- Every node reached is in the table. -/
  inTable : ∀ p j, t.follow root p = some j → j.toNat < t.nodes.size
  /-- Every node reached is an inner node or a leaf. -/
  onWalk : ∀ p j n, t.follow root p = some j → t.nodes[j.toNat]? = some n → n.onWalk = true
  /-- No node is reached by two paths. -/
  reachedOnce : ∀ p q j, t.follow root p = some j → t.follow root q = some j → p = q

/-- The leaves below `i` in order, the left subtree's before the right one's. -/
inductive InOrder (t : Tree) : UInt32 → List Leaf → Prop
  | leaf {i : UInt32} {l : Leaf} : t.nodes[i.toNat]? = some (.leaf l) → InOrder t i [l]
  | inner {i left right : UInt32} {key : Key} {prefixLen : UInt32} {ls rs : List Leaf} :
      t.nodes[i.toNat]? = some (.inner key prefixLen left right) →
      InOrder t left ls → InOrder t right rs → InOrder t i (ls ++ rs)

/-- The subtree at `i` is a tree on the table positions `ns`, listed in walk order, whose leaves
in order are `ls`: an inner node's two subtrees share no position and do not hold it. -/
inductive Spans (t : Tree) : UInt32 → List Nat → List Leaf → Prop
  | leaf {i : UInt32} {l : Leaf} : t.nodes[i.toNat]? = some (.leaf l) → Spans t i [i.toNat] [l]
  | inner {i left right : UInt32} {key : Key} {prefixLen : UInt32} {ns ms : List Nat}
      {ls rs : List Leaf} :
      t.nodes[i.toNat]? = some (.inner key prefixLen left right) →
      Spans t left ns ls → Spans t right ms rs → i.toNat ∉ ns ++ ms → ns.Disjoint ms →
      Spans t i (i.toNat :: (ns ++ ms)) (ls ++ rs)

/-- What the walk collects at table position `j`: the leaf there, if there is one. -/
def leafAt (t : Tree) (j : Nat) : Option Leaf := t.nodes[j]?.bind Node.leaf?

/-- Below `i` lies a leaf `l`. -/
def LeafBelow (t : Tree) (i : UInt32) (l : Leaf) : Prop :=
  ∃ p j, t.follow i p = some j ∧ t.nodes[j.toNat]? = some (.leaf l)

/-- Every inner node reached from `i` splits the keys: each leaf below its left child has a key
less than each leaf below its right child. -/
def KeysSplit (t : Tree) (i : UInt32) : Prop :=
  ∀ p j key prefixLen left right, t.follow i p = some j →
    t.nodes[j.toNat]? = some (.inner key prefixLen left right) →
    ∀ x y, t.LeafBelow left x → t.LeafBelow right y → x.key.value < y.key.value

/-! ## Paths -/

@[simp]
theorem follow_nil (i : UInt32) : t.follow i [] = some i := rfl

theorem follow_cons_of_inner {i left right : UInt32} {key : Key} {prefixLen : UInt32}
    (h : t.nodes[i.toNat]? = some (.inner key prefixLen left right)) (c : Bool) (p : List Bool) :
    t.follow i (c :: p) = t.follow (if c then right else left) p := by
  rw [follow, h]

theorem follow_cons_of_leaf {i : UInt32} {l : Leaf} (h : t.nodes[i.toNat]? = some (.leaf l))
    (c : Bool) (p : List Bool) : t.follow i (c :: p) = none := by
  rw [follow, h]

theorem follow_append (i : UInt32) (p q : List Bool) :
    t.follow i (p ++ q) = (t.follow i p).bind (t.follow · q) := by
  induction p generalizing i with
  | nil => rfl
  | cons c p ih =>
    rw [List.cons_append, follow, follow]
    split
    · exact ih _
    · rfl

/-- Every prefix of a path that reaches a node reaches a node. -/
theorem follow_take_isSome {i j : UInt32} {p : List Bool} (h : t.follow i p = some j) (k : Nat) :
    (t.follow i (p.take k)).isSome := by
  have hsplit : t.follow i (p.take k ++ p.drop k) = _ := follow_append i _ _
  rw [List.take_append_drop, h] at hsplit
  cases hk : t.follow i (p.take k) with
  | none => rw [hk] at hsplit; cases hsplit
  | some _ => rfl

/-! ## One step of the walk -/

theorem node_eq_ok {i : UInt32} {n : Node} : t.node i = .ok n ↔ t.nodes[i.toNat]? = some n := by
  unfold node
  split <;> simp_all

theorem visit_succ_of_node_error {d : Nat} {i : UInt32} {seen : Array Bool} {out : Array Leaf}
    {e : Fault} (h : t.node i = .error e) : t.visit (d + 1) i (seen, out) = .error e := by
  rw [visit, h]
  rfl

theorem visit_succ_of_marked {d : Nat} {i : UInt32} {seen : Array Bool} {out : Array Leaf}
    {n : Node} (h : t.node i = .ok n) (hm : marked seen i.toNat = true) :
    t.visit (d + 1) i (seen, out) = .error (.layout (.nodeReachedTwice i)) := by
  unfold marked at hm
  simp only [visit, h, hm, bind, Except.bind]
  rfl

theorem visit_succ_inner {d : Nat} {i left right : UInt32} {key : Key} {prefixLen : UInt32}
    {seen : Array Bool} {out : Array Leaf} (h : t.node i = .ok (.inner key prefixLen left right))
    (hm : marked seen i.toNat = false) :
    t.visit (d + 1) i (seen, out) =
      (t.visit d left (seen.setIfInBounds i.toNat true, out) >>= t.visit d right) := by
  unfold marked at hm
  simp only [visit, h, hm, bind, Except.bind]
  rfl

theorem visit_succ_leaf {d : Nat} {i : UInt32} {l : Leaf} {seen : Array Bool}
    {out : Array Leaf} (h : t.node i = .ok (.leaf l)) (hm : marked seen i.toNat = false) :
    t.visit (d + 1) i (seen, out) = .ok (seen.setIfInBounds i.toNat true, out.push l) := by
  unfold marked at hm
  simp only [visit, h, hm, bind, Except.bind]
  rfl

theorem visit_succ_off_walk {d : Nat} {i : UInt32} {n : Node} {seen : Array Bool}
    {out : Array Leaf} (h : t.node i = .ok n) (hm : marked seen i.toNat = false)
    (hn : n.onWalk = false) :
    t.visit (d + 1) i (seen, out) = .error (.layout (.reachableTag i n.tag)) := by
  unfold marked at hm
  cases n <;> simp_all [visit, Node.onWalk, bind, Except.bind] <;> rfl

/-- What a successful step of the walk did: the node was in the table and unmarked, and it was a
leaf, or an inner node whose left and then right subtree were walked. -/
theorem visit_succ_eq_ok {d : Nat} {i : UInt32} {seen : Array Bool} {out : Array Leaf}
    {r : Array Bool × Array Leaf} (h : t.visit (d + 1) i (seen, out) = .ok r) :
    marked seen i.toNat = false ∧
      ((∃ l, t.nodes[i.toNat]? = some (.leaf l) ∧
          r = (seen.setIfInBounds i.toNat true, out.push l)) ∨
        ∃ key prefixLen left right s,
          t.nodes[i.toNat]? = some (.inner key prefixLen left right) ∧
          t.visit d left (seen.setIfInBounds i.toNat true, out) = .ok s ∧
          t.visit d right s = .ok r) := by
  cases hn : t.node i with
  | error e => rw [visit_succ_of_node_error hn] at h; cases h
  | ok n =>
    cases hm : marked seen i.toNat with
    | true => rw [visit_succ_of_marked hn hm] at h; cases h
    | false =>
      refine ⟨rfl, ?_⟩
      have hi := node_eq_ok.1 hn
      cases n with
      | inner key prefixLen left right =>
        rw [visit_succ_inner hn hm] at h
        obtain ⟨s, hs, hr⟩ := Except.exists_of_bind_eq_ok h
        exact .inr ⟨key, prefixLen, left, right, s, hi, hs, hr⟩
      | leaf l =>
        rw [visit_succ_leaf hn hm] at h
        exact .inl ⟨l, hi, (Except.ok.inj h).symm⟩
      | unused | free _ | freeTail _ => rw [visit_succ_off_walk hn hm rfl] at h; cases h

theorem lt_size_of_getElem? {j : Nat} {n : Node} (h : t.nodes[j]? = some n) : j < t.nodes.size :=
  (Array.getElem?_eq_some_iff.1 h).1

/-! ## Trees on table positions -/

namespace Spans

variable {i : UInt32} {ns : List Nat} {ls : List Leaf}

theorem lt_size (h : t.Spans i ns ls) : ∀ x ∈ ns, x < t.nodes.size := by
  induction h with
  | leaf hl =>
    intro x hx
    rw [List.mem_singleton.1 hx]
    exact lt_size_of_getElem? hl
  | inner hi _ _ _ _ iha ihb =>
    intro x hx
    rcases List.mem_cons.1 hx with rfl | hx
    · exact lt_size_of_getElem? hi
    · rcases List.mem_append.1 hx with hx | hx
      exacts [iha x hx, ihb x hx]

theorem nodup (h : t.Spans i ns ls) : ns.Nodup := by
  induction h with
  | leaf => simp
  | inner _ _ _ hnot hdisj iha ihb =>
    refine List.nodup_cons.2 ⟨hnot, List.nodup_append.2 ⟨iha, ihb, ?_⟩⟩
    intro _ ha _ hb hab
    exact hdisj ha (hab ▸ hb)

/-- A tree on table positions has at most as many nodes as the table. -/
theorem length_le (h : t.Spans i ns ls) : ns.length ≤ t.nodes.size := by
  have hsub : ns ⊆ List.range t.nodes.size := fun x hx => List.mem_range.2 (h.lt_size x hx)
  simpa using h.nodup.length_le_of_subset hsub

/-- Every position of the tree is reached from its root. -/
theorem exists_follow_of_mem (h : t.Spans i ns ls) :
    ∀ x ∈ ns, ∃ p k, t.follow i p = some k ∧ k.toNat = x := by
  induction h with
  | leaf _ =>
    intro x hx
    exact ⟨[], _, rfl, (List.mem_singleton.1 hx).symm⟩
  | inner hi _ _ _ _ ihl ihr =>
    intro x hx
    rcases List.mem_cons.1 hx with rfl | hx
    · exact ⟨[], _, rfl, rfl⟩
    · rcases List.mem_append.1 hx with hx | hx
      · obtain ⟨p, k, hp, rfl⟩ := ihl x hx
        exact ⟨false :: p, k, (follow_cons_of_inner hi false p).trans hp, rfl⟩
      · obtain ⟨p, k, hp, rfl⟩ := ihr x hx
        exact ⟨true :: p, k, (follow_cons_of_inner hi true p).trans hp, rfl⟩

/-- Every node reached from the root is a position of the tree. -/
theorem mem_of_follow (h : t.Spans i ns ls) {p : List Bool} {k : UInt32}
    (hp : t.follow i p = some k) : k.toNat ∈ ns := by
  induction h generalizing p with
  | leaf hl =>
    cases p with
    | nil => cases hp; exact List.mem_singleton_self _
    | cons c p => rw [follow_cons_of_leaf hl] at hp; cases hp
  | inner hi _ _ _ _ ihl ihr =>
    cases p with
    | nil => cases hp; exact List.mem_cons_self
    | cons c p =>
      rw [follow_cons_of_inner hi] at hp
      cases c
      · exact List.mem_cons_of_mem _ (List.mem_append_left _ (ihl hp))
      · exact List.mem_cons_of_mem _ (List.mem_append_right _ (ihr hp))

theorem onWalk_of_follow (h : t.Spans i ns ls) {p : List Bool} {k : UInt32} {n : Node}
    (hp : t.follow i p = some k) (hn : t.nodes[k.toNat]? = some n) : n.onWalk = true := by
  induction h generalizing p with
  | leaf hl =>
    cases p with
    | nil => cases hp; rw [hl] at hn; cases hn; rfl
    | cons c p => rw [follow_cons_of_leaf hl] at hp; cases hp
  | inner hi _ _ _ _ ihl ihr =>
    cases p with
    | nil => cases hp; rw [hi] at hn; cases hn; rfl
    | cons c p =>
      rw [follow_cons_of_inner hi] at hp
      cases c
      exacts [ihl hp, ihr hp]

/-- In a tree every node is reached by one path. -/
theorem eq_of_follow (h : t.Spans i ns ls) {p q : List Bool} {k : UInt32}
    (hp : t.follow i p = some k) (hq : t.follow i q = some k) : p = q := by
  induction h generalizing p q with
  | leaf hl =>
    cases p with
    | cons c p => rw [follow_cons_of_leaf hl] at hp; cases hp
    | nil =>
      cases q with
      | nil => rfl
      | cons c q => rw [follow_cons_of_leaf hl] at hq; cases hq
  | @inner i left right key prefixLen ns ms ls rs hi hsl hsr hnot hdisj ihl ihr =>
    have hside : ∀ c p k, t.follow i (c :: p) = some k → k.toNat ∈ ns ++ ms := by
      intro c p k hp
      rw [follow_cons_of_inner hi] at hp
      cases c
      exacts [List.mem_append_left _ (hsl.mem_of_follow hp),
        List.mem_append_right _ (hsr.mem_of_follow hp)]
    cases p with
    | nil =>
      cases q with
      | nil => rfl
      | cons c q => cases hp; exact absurd (hside c q _ hq) hnot
    | cons c p =>
      cases q with
      | nil => cases hq; exact absurd (hside c p _ hp) hnot
      | cons c' q =>
        rw [follow_cons_of_inner hi] at hp hq
        cases c <;> cases c'
        · exact congrArg _ (ihl hp hq)
        · exact absurd (hsr.mem_of_follow hq) (hdisj (hsl.mem_of_follow hp))
        · exact absurd (hsr.mem_of_follow hp) (hdisj (hsl.mem_of_follow hq))
        · exact congrArg _ (ihr hp hq)

/-- The positions of a tree are those reached from its root. -/
theorem mem_iff (h : t.Spans i ns ls) (x : Nat) :
    x ∈ ns ↔ ∃ p k, t.follow i p = some k ∧ k.toNat = x := by
  constructor
  · exact h.exists_follow_of_mem x
  · rintro ⟨p, k, hp, rfl⟩
    exact h.mem_of_follow hp

theorem walkableFrom (h : t.Spans i ns ls) : t.WalkableFrom i where
  inTable _ _ hp := h.lt_size _ (h.mem_of_follow hp)
  onWalk _ _ _ hp hn := h.onWalk_of_follow hp hn
  reachedOnce _ _ _ hp hq := h.eq_of_follow hp hq

theorem inOrder (h : t.Spans i ns ls) : t.InOrder i ls := by
  induction h with
  | leaf hl => exact .leaf hl
  | inner hi _ _ _ _ ihl ihr => exact .inner hi ihl ihr

end Spans

/-- The leaves below a node are determined by the table. -/
theorem InOrder.eq {i : UInt32} {ls ls' : List Leaf} (h : t.InOrder i ls) (h' : t.InOrder i ls') :
    ls = ls' := by
  induction h generalizing ls' with
  | leaf hl =>
    cases h' with
    | leaf hl' => rw [hl] at hl'; cases hl'; rfl
    | inner hi' _ _ => rw [hl] at hi'; cases hi'
  | inner hi _ _ ihl ihr =>
    cases h' with
    | leaf hl' => rw [hi] at hl'; cases hl'
    | inner hi' hl' hr' =>
      rw [hi] at hi'
      cases hi'
      rw [ihl hl', ihr hr']

namespace WalkableFrom

variable {i : UInt32}

theorem child (hw : t.WalkableFrom i) {key : Key} {prefixLen left right : UInt32}
    (hi : t.nodes[i.toNat]? = some (.inner key prefixLen left right)) (c : Bool) :
    t.WalkableFrom (if c then right else left) where
  inTable p j hp := hw.inTable (c :: p) j ((follow_cons_of_inner hi c p).trans hp)
  onWalk p j n hp := hw.onWalk (c :: p) j n ((follow_cons_of_inner hi c p).trans hp)
  reachedOnce p q j hp hq := List.cons_injective
    (hw.reachedOnce (c :: p) (c :: q) j ((follow_cons_of_inner hi c p).trans hp)
      ((follow_cons_of_inner hi c q).trans hq))

/-- No path from a walkable root is as long as the table: its prefixes reach distinct positions
of the table. -/
theorem length_lt (hw : t.WalkableFrom i) {p : List Bool} {j : UInt32}
    (hp : t.follow i p = some j) : p.length < t.nodes.size := by
  let node : Nat → UInt32 := fun k => (t.follow i (p.take k)).get (follow_take_isSome hp k)
  have hnode : ∀ k, t.follow i (p.take k) = some (node k) := fun k => (Option.some_get _).symm
  let pos : Nat → Nat := fun k => (node k).toNat
  have hinj : ∀ a ∈ List.range (p.length + 1), ∀ b ∈ List.range (p.length + 1),
      pos a = pos b → a = b := by
    intro a ha b hb hab
    have htake : p.take a = p.take b :=
      hw.reachedOnce _ _ _ (hnode a) ((UInt32.toNat_inj.1 hab).symm ▸ hnode b)
    have hlen := congrArg List.length htake
    simp only [List.length_take] at hlen
    simp only [List.mem_range] at ha hb
    omega
  have hnodup : ((List.range (p.length + 1)).map pos).Nodup :=
    List.Nodup.map_on hinj List.nodup_range
  have hsub : (List.range (p.length + 1)).map pos ⊆ List.range t.nodes.size := by
    intro x hx
    obtain ⟨k, -, rfl⟩ := List.mem_map.1 hx
    exact List.mem_range.2 (hw.inTable _ _ (hnode k))
  have hle := hnodup.length_le_of_subset hsub
  simp only [List.length_map, List.length_range] at hle
  omega

/-- A walkable root whose paths are shorter than `H` is the root of a tree on table positions;
by induction on `H`. -/
theorem exists_spans_of_lt (H : Nat) :
    ∀ {i : UInt32}, t.WalkableFrom i → (∀ p j, t.follow i p = some j → p.length < H) →
      ∃ ns ls, t.Spans i ns ls := by
  induction H with
  | zero => intro i _ hH; exact absurd (hH [] i rfl) (Nat.not_lt_zero 0)
  | succ H ih =>
    intro i hw hH
    obtain ⟨n, hn⟩ : ∃ n, t.nodes[i.toNat]? = some n :=
      ⟨_, Array.getElem?_eq_getElem (hw.inTable [] i rfl)⟩
    have hon := hw.onWalk [] i n rfl hn
    cases n with
    | leaf l => exact ⟨_, _, .leaf hn⟩
    | inner key prefixLen left right =>
      have hside : ∀ c : Bool, ∃ ns ls, t.Spans (if c then right else left) ns ls := fun c =>
        ih (hw.child hn c) fun p j hp => by
          have hlt := hH (c :: p) j ((follow_cons_of_inner hn c p).trans hp)
          simp only [List.length_cons] at hlt
          omega
      have hbelow : ∀ (c : Bool) ns ls, t.Spans (if c then right else left) ns ls →
          i.toNat ∉ ns := by
        intro c ns ls hs hx
        obtain ⟨p, k, hp, hk⟩ := hs.exists_follow_of_mem _ hx
        rw [UInt32.toNat_inj.1 hk] at hp
        cases hw.reachedOnce (c :: p) [] i ((follow_cons_of_inner hn c p).trans hp) rfl
      obtain ⟨ns, ls, hsl⟩ := hside false
      obtain ⟨ms, rs, hsr⟩ := hside true
      refine ⟨_, _, .inner hn hsl hsr ?_ ?_⟩
      · intro hmem
        rcases List.mem_append.1 hmem with hx | hx
        exacts [hbelow false _ _ hsl hx, hbelow true _ _ hsr hx]
      · intro x hx hx'
        obtain ⟨p, k, hp, rfl⟩ := hsl.exists_follow_of_mem _ hx
        obtain ⟨q, k', hq, hkk⟩ := hsr.exists_follow_of_mem _ hx'
        rw [UInt32.toNat_inj.1 hkk] at hq
        cases hw.reachedOnce (false :: p) (true :: q) k
          ((follow_cons_of_inner hn false p).trans hp) ((follow_cons_of_inner hn true q).trans hq)
    | unused | free _ | freeTail _ => simp [Node.onWalk] at hon

theorem exists_spans (hw : t.WalkableFrom i) : ∃ ns ls, t.Spans i ns ls :=
  exists_spans_of_lt _ hw fun _ _ hp => hw.length_lt hp

end WalkableFrom

/-! ## Leaves by position -/

theorem leafAt_eq_some_iff {j : Nat} {l : Leaf} :
    t.leafAt j = some l ↔ t.nodes[j]? = some (.leaf l) := by
  unfold leafAt
  cases t.nodes[j]? with
  | none => simp
  | some n => cases n <;> simp [Node.leaf?]

theorem filterMap_leaf?_eq_range (nodes : List Node) :
    nodes.filterMap Node.leaf? =
      (List.range nodes.length).filterMap fun j => nodes[j]?.bind Node.leaf? := by
  induction nodes with
  | nil => rfl
  | cons n nodes ih =>
    rw [List.length_cons, List.range_succ_eq_map, List.filterMap_cons, List.filterMap_cons,
      List.filterMap_map, ih]
    rfl

/-- The leaves of the table are those at its positions, in order. -/
theorem leaves_eq_filterMap_range :
    t.leaves = (List.range t.nodes.size).filterMap t.leafAt := by
  rw [leaves, filterMap_leaf?_eq_range, Array.length_toList]
  simp only [Array.getElem?_toList]
  rfl

theorem mem_leaves_of_getElem? {j : Nat} {l : Leaf} (h : t.nodes[j]? = some (.leaf l)) :
    l ∈ t.leaves := by
  rw [leaves_eq_filterMap_range, List.mem_filterMap]
  exact ⟨j, List.mem_range.2 (lt_size_of_getElem? h), leafAt_eq_some_iff.2 h⟩

namespace Spans

variable {i : UInt32} {ns : List Nat} {ls : List Leaf}

/-- The leaves of a tree are those at its positions, in walk order. -/
theorem leaves_eq (h : t.Spans i ns ls) : ls = ns.filterMap t.leafAt := by
  induction h with
  | leaf hl => simp [leafAt, hl, Node.leaf?]
  | inner hi _ _ _ _ ihl ihr => simp [leafAt, hi, Node.leaf?, ihl, ihr]

/-- Each leaf of a tree comes from its own table position. -/
theorem exists_positions (h : t.Spans i ns ls) :
    ∃ idx, idx.Sublist ns ∧
      List.Forall₂ (fun j l => t.nodes[j]? = some (.leaf l)) idx ls := by
  induction h with
  | leaf hl => exact ⟨_, List.Sublist.refl _, .cons hl .nil⟩
  | inner _ _ _ _ _ ihl ihr =>
    obtain ⟨il, hsubl, hl⟩ := ihl
    obtain ⟨ir, hsubr, hr⟩ := ihr
    exact ⟨il ++ ir, (hsubl.append hsubr).cons _, List.rel_append hl hr⟩

theorem subperm_leaves (h : t.Spans i ns ls) : ls.Subperm t.leaves := by
  rw [h.leaves_eq, leaves_eq_filterMap_range]
  obtain ⟨l, hperm, hsub⟩ :=
    List.subperm_of_subset h.nodup fun x hx => List.mem_range.2 (h.lt_size x hx)
  exact ⟨l.filterMap t.leafAt, hperm.filterMap _, hsub.filterMap _⟩

/-- A tree holds all the leaves of the table exactly when it holds every position of a leaf. -/
theorem perm_leaves_iff (h : t.Spans i ns ls) :
    ls.Perm t.leaves ↔ ∀ j l, t.nodes[j]? = some (.leaf l) → j ∈ ns := by
  constructor
  · intro hperm j l hj
    by_contra hjn
    have hlt : j < t.nodes.size := lt_size_of_getElem? hj
    have hsub : ns.Subperm ((List.range t.nodes.size).erase j) := by
      refine List.subperm_of_subset h.nodup fun x hx => ?_
      have hxj : x ≠ j := fun hxj => hjn (hxj ▸ hx)
      exact (List.mem_erase_of_ne hxj).2 (List.mem_range.2 (h.lt_size x hx))
    obtain ⟨r, hr, hsr⟩ := hsub
    have hle : ls.length ≤ (((List.range t.nodes.size).erase j).filterMap t.leafAt).length := by
      rw [h.leaves_eq, ← (hr.filterMap t.leafAt).length_eq]
      exact (hsr.filterMap _).length_le
    have hcount : t.leaves.length =
        (((List.range t.nodes.size).erase j).filterMap t.leafAt).length + 1 := by
      rw [leaves_eq_filterMap_range,
        ((List.perm_cons_erase (List.mem_range.2 hlt)).filterMap t.leafAt).length_eq,
        List.filterMap_cons_some (leafAt_eq_some_iff.2 hj), List.length_cons]
    have := hperm.length_eq
    omega
  · intro hall
    refine (h.subperm_leaves).antisymm ?_
    have hpos : ((List.range t.nodes.size).filter fun j => (t.leafAt j).isSome).Subperm ns := by
      refine List.subperm_of_subset (List.nodup_range.filter _) fun j hj => ?_
      obtain ⟨l, hl⟩ := Option.isSome_iff_exists.1 (List.mem_filter.1 hj).2
      exact hall j l (leafAt_eq_some_iff.1 hl)
    obtain ⟨r, hr, hsr⟩ := hpos
    have hfilter : ((List.range t.nodes.size).filter fun j => (t.leafAt j).isSome).filterMap
        t.leafAt = t.leaves := by
      rw [List.filterMap_filter, leaves_eq_filterMap_range]
      congr 1
      funext j
      cases t.leafAt j <;> rfl
    rw [← hfilter, h.leaves_eq]
    exact ⟨r.filterMap t.leafAt, hr.filterMap _, hsr.filterMap _⟩

end Spans

/-! ## Keys in order -/

namespace InOrder

variable {i : UInt32} {ls : List Leaf}

theorem leafBelow (h : t.InOrder i ls) : ∀ l ∈ ls, t.LeafBelow i l := by
  induction h with
  | leaf hl =>
    intro l hl'
    rw [List.mem_singleton.1 hl']
    exact ⟨[], _, rfl, hl⟩
  | inner hi _ _ ihl ihr =>
    intro l hl
    rcases List.mem_append.1 hl with hl | hl
    · obtain ⟨p, j, hp, hj⟩ := ihl l hl
      exact ⟨false :: p, j, (follow_cons_of_inner hi false p).trans hp, hj⟩
    · obtain ⟨p, j, hp, hj⟩ := ihr l hl
      exact ⟨true :: p, j, (follow_cons_of_inner hi true p).trans hp, hj⟩

/-- Where every inner node splits the keys, the leaves in order have strictly increasing keys. -/
theorem pairwise_key_lt (h : t.InOrder i ls) (hk : t.KeysSplit i) :
    ls.Pairwise fun x y => x.key.value < y.key.value := by
  induction h with
  | leaf => exact List.pairwise_singleton _ _
  | @inner i left right key prefixLen ls rs hi hl hr ihl ihr =>
    have hchild : ∀ c : Bool, t.KeysSplit (if c then right else left) :=
      fun c p j k n a b hp => hk (c :: p) j k n a b ((follow_cons_of_inner hi c p).trans hp)
    refine List.pairwise_append.2 ⟨ihl (hchild false), ihr (hchild true), fun x hx y hy => ?_⟩
    exact hk [] i key prefixLen left right rfl hi x y (hl.leafBelow x hx) (hr.leafBelow y hy)

end InOrder

/-! ## The walk builds the tree -/

/-- A walk that succeeds went through a tree on positions that were unmarked, marked them, and
appended the tree's leaves in order. -/
theorem spans_of_visit {d : Nat} {i : UInt32} {seen : Array Bool} {out : Array Leaf}
    {r : Array Bool × Array Leaf} (hsize : seen.size = t.nodes.size)
    (h : t.visit d i (seen, out) = .ok r) :
    ∃ ns ls, t.Spans i ns ls ∧ (∀ x ∈ ns, marked seen x = false) ∧
      r = (markAll seen ns, out ++ ls.toArray) := by
  induction d generalizing i seen out r with
  | zero => rw [visit] at h; cases h
  | succ d ih =>
    obtain ⟨hm, ⟨l, hl, rfl⟩ | ⟨key, prefixLen, left, right, s, hi, ha, hb⟩⟩ :=
      visit_succ_eq_ok h
    · exact ⟨[i.toNat], [l], .leaf hl, by simpa using hm, by simp⟩
    · have hlt : i.toNat < seen.size := hsize ▸ lt_size_of_getElem? hi
      obtain ⟨ns, ls, hsl, hml, rfl⟩ := ih (by simp [hsize]) ha
      obtain ⟨ms, rs, hsr, hmr, rfl⟩ := ih (by simp [hsize]) hb
      obtain ⟨hm', hnot, hdisj⟩ :=
        (unmarked_inner_iff hlt fun x hx => hsize ▸ hsl.lt_size x hx).1 ⟨hm, hml, hmr⟩
      exact ⟨_, _, .inner hi hsl hsr hnot hdisj, hm', by simp [markAll_append]⟩

/-- On a tree whose positions are unmarked, with depth to spare, the walk succeeds: it marks the
positions and appends the leaves in order. -/
theorem visit_of_spans {i : UInt32} {ns : List Nat} {ls : List Leaf} (h : t.Spans i ns ls)
    {d : Nat} {seen : Array Bool} {out : Array Leaf} (hsize : seen.size = t.nodes.size)
    (hm : ∀ x ∈ ns, marked seen x = false) (hd : ns.length ≤ d) :
    t.visit d i (seen, out) = .ok (markAll seen ns, out ++ ls.toArray) := by
  induction h generalizing d seen out with
  | leaf hl =>
    obtain ⟨d, rfl⟩ : ∃ d', d = d' + 1 := Nat.exists_eq_add_one.2 (by simp at hd; omega)
    rw [visit_succ_leaf (node_eq_ok.2 hl) (hm _ List.mem_cons_self)]
    simp
  | @inner i left right key prefixLen ns ms ls rs hi hsl hsr hnot hdisj ihl ihr =>
    obtain ⟨d, rfl⟩ : ∃ d', d = d' + 1 := Nat.exists_eq_add_one.2 (by simp at hd; omega)
    have hlt : i.toNat < seen.size := hsize ▸ lt_size_of_getElem? hi
    obtain ⟨hmi, hml, hmr⟩ :=
      (unmarked_inner_iff hlt fun x hx => hsize ▸ hsl.lt_size x hx).2 ⟨hm, hnot, hdisj⟩
    have hlen : ns.length + ms.length + 1 ≤ d + 1 := by simpa [Nat.add_comm] using hd
    rw [visit_succ_inner (node_eq_ok.2 hi) hmi, ihl (by simp [hsize]) hml (by omega)]
    show t.visit d right _ = _
    rw [ihr (by simp [hsize]) hmr (by omega)]
    simp [markAll_append]

/-! ## The ordered walk -/

theorem orderedLeaves_of_leaves_eq_nil (h : t.leaves = []) : t.orderedLeaves = .ok [] := by
  simp [orderedLeaves, h]

theorem marked_replicate_false (n x : Nat) : marked (Array.replicate n false) x = false := by
  rw [marked, Array.getElem?_replicate]
  split <;> rfl

/-- On a table with a leaf, the ordered walk gives `ls` exactly when the subtree at the root is
a tree whose leaves in order are `ls`. -/
theorem orderedLeaves_eq_ok_iff_spans {ls : List Leaf} (h : t.leaves ≠ []) :
    t.orderedLeaves = .ok ls ↔ ∃ ns, t.Spans t.info.root ns ls := by
  have hstart : (Array.replicate t.nodes.size false).size = t.nodes.size := Array.size_replicate
  have hne : t.leaves.isEmpty = false := by simpa using h
  rw [orderedLeaves, hne, if_neg Bool.false_ne_true]
  constructor
  · intro hok
    obtain ⟨r, hr, hout⟩ := Except.exists_of_bind_eq_ok hok
    obtain ⟨ns, ls', hs, -, rfl⟩ := spans_of_visit hstart hr
    have hpure : (pure ls' : Except Fault (List Leaf)) = .ok ls := by simpa using hout
    have hls : ls' = ls := Except.ok.inj hpure
    exact ⟨ns, hls ▸ hs⟩
  · rintro ⟨ns, hs⟩
    have hd : ns.length ≤ t.nodes.size + 1 := Nat.le_succ_of_le hs.length_le
    rw [visit_of_spans hs hstart (fun x _ => marked_replicate_false _ x) hd]
    simp

/-- On a table with a leaf, the ordered walk gives `ls` exactly when the root is walkable and
`ls` are the leaves below it in order. -/
theorem orderedLeaves_eq_ok_iff {ls : List Leaf} (h : t.leaves ≠ []) :
    t.orderedLeaves = .ok ls ↔ t.WalkableFrom t.info.root ∧ t.InOrder t.info.root ls := by
  rw [orderedLeaves_eq_ok_iff_spans h]
  constructor
  · rintro ⟨ns, hs⟩
    exact ⟨hs.walkableFrom, hs.inOrder⟩
  · rintro ⟨hw, hord⟩
    obtain ⟨ns, ls', hs⟩ := hw.exists_spans
    exact ⟨ns, hs.inOrder.eq hord ▸ hs⟩

theorem getElem?_ne_leaf_of_leaves_eq_nil (h : t.leaves = []) (j : Nat) (l : Leaf) :
    t.nodes[j]? ≠ some (.leaf l) := fun hj => by
  simpa [h] using mem_leaves_of_getElem? hj

/-! ## The ordered walk, in full -/

/-- The ordered walk. A table without a leaf gives no leaves, whatever its root. Otherwise the
walk succeeds exactly when the root is walkable, and it then gives the leaves below the root in
order. Those leaves come from distinct table positions, are no more than the table's leaves, are
all of them exactly when every leaf's position is reached from the root, and have strictly
increasing keys when every inner node reached splits the keys. -/
theorem orderedLeaves_spec (t : Tree) :
    (t.leaves = [] → t.orderedLeaves = .ok []) ∧
    (t.leaves ≠ [] →
      ((∃ ls, t.orderedLeaves = .ok ls) ↔ t.WalkableFrom t.info.root) ∧
      ∀ ls, t.orderedLeaves = .ok ls ↔
        t.WalkableFrom t.info.root ∧ t.InOrder t.info.root ls) ∧
    ∀ ls, t.orderedLeaves = .ok ls →
      (∃ idx : List Nat, idx.Nodup ∧
        List.Forall₂ (fun j l => t.nodes[j]? = some (.leaf l)) idx ls) ∧
      ls.length ≤ t.leafCount ∧
      (ls.Perm t.leaves ↔ ∀ j l, t.nodes[j]? = some (.leaf l) →
        ∃ p i, t.follow t.info.root p = some i ∧ i.toNat = j) ∧
      (t.KeysSplit t.info.root → ls.Pairwise fun x y => x.key.value < y.key.value) := by
  refine ⟨orderedLeaves_of_leaves_eq_nil,
    fun hne => ⟨?_, fun ls => orderedLeaves_eq_ok_iff hne⟩, fun ls hls => ?_⟩
  · constructor
    · rintro ⟨ls, hls⟩
      exact ((orderedLeaves_eq_ok_iff hne).1 hls).1
    · intro hw
      obtain ⟨ns, ls, hs⟩ := hw.exists_spans
      exact ⟨ls, (orderedLeaves_eq_ok_iff hne).2 ⟨hw, hs.inOrder⟩⟩
  · by_cases hne : t.leaves = []
    · rw [orderedLeaves_of_leaves_eq_nil hne] at hls
      cases hls
      refine ⟨⟨[], List.nodup_nil, .nil⟩, Nat.zero_le _, ?_, fun _ => List.Pairwise.nil⟩
      exact iff_of_true (hne ▸ List.Perm.refl _) fun j l hj =>
        absurd hj (getElem?_ne_leaf_of_leaves_eq_nil hne j l)
    · obtain ⟨ns, hs⟩ := (orderedLeaves_eq_ok_iff_spans hne).1 hls
      obtain ⟨idx, hsub, hpos⟩ := hs.exists_positions
      refine ⟨⟨idx, hs.nodup.sublist hsub, hpos⟩, hs.subperm_leaves.length_le, ?_,
        hs.inOrder.pairwise_key_lt⟩
      rw [hs.perm_leaves_iff]
      simp only [hs.mem_iff]

end Tree

end SlabLedger
