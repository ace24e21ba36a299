import Mathlib.Data.List.Nodup
import Mathlib.Data.List.Infix
import SlabLedger.Proofs.Slab.Walk

/-!
# The free list of a node table

The free list starts at the head the info block names and follows the `next` field of free
nodes until it meets a free tail. `Tree.FreeChain t i l` says that the list from `i` is `l`:
free nodes of the table, each linking to the next, ending in a free tail.

The walk keeps no marks. It stops a list that grows longer than the table instead, and that
bound never cuts a list short: a node's link is fixed by the node, so a list that ends in a free
tail meets no node twice (`FreeChain.nodup`), and distinct positions of the table are no more
than the table holds. A list that comes back to a node never reaches a free tail and runs into
the bound.

The main result, `freeList_follows_links`, states the walk over the sequence of nodes reached
from the head by following links.
-/

namespace SlabLedger

namespace Tree

variable {t : Tree}

/-- The node that the node at `i` links to on the free list: the `next` of a free node or of a
free tail. Any other node, and a position outside the table, links to itself. -/
def freeLink (t : Tree) (i : UInt32) : UInt32 :=
  match t.nodes[i.toNat]? with
  | some (.free next) => next
  | some (.freeTail next) => next
  | _ => i

/-- The `k`-th node reached from the free list's head by following links. -/
def freeAt (t : Tree) (k : Nat) : UInt32 := t.freeLink^[k] t.info.freeListHead

/-- The free list from `i` is `l`: free nodes of the table, each linking to the next, up to a free
tail. -/
inductive FreeChain (t : Tree) : UInt32 → List UInt32 → Prop
  | tail {i next : UInt32} : t.nodes[i.toNat]? = some (.freeTail next) → FreeChain t i [i]
  | free {i next : UInt32} {l : List UInt32} :
      t.nodes[i.toNat]? = some (.free next) → FreeChain t next l → FreeChain t i (i :: l)

theorem freeLink_of_free {i next : UInt32} (h : t.nodes[i.toNat]? = some (.free next)) :
    t.freeLink i = next := by
  rw [freeLink, h]

theorem iterate_freeLink_of_free {i next : UInt32} (h : t.nodes[i.toNat]? = some (.free next))
    (k : Nat) : t.freeLink^[k + 1] i = t.freeLink^[k] next := by
  rw [Function.iterate_succ_apply, freeLink_of_free h]

/-! ## Lists that end in a free tail -/

namespace FreeChain

variable {i : UInt32} {l : List UInt32}

theorem lt_size (h : t.FreeChain i l) : ∀ j ∈ l, j.toNat < t.nodes.size := by
  induction h with
  | tail hi =>
    intro j hj
    rw [List.mem_singleton.1 hj]
    exact lt_size_of_getElem? hi
  | free hi _ ih =>
    intro j hj
    rcases List.mem_cons.1 hj with rfl | hj
    · exact lt_size_of_getElem? hi
    · exact ih j hj

/-- A node's link is fixed by the node, so the list from a node is too. -/
theorem unique (h : t.FreeChain i l) {l' : List UInt32} (h' : t.FreeChain i l') : l = l' := by
  induction h generalizing l' with
  | tail hi =>
    cases h' with
    | tail _ => rfl
    | free hi' _ => rw [hi] at hi'; cases hi'
  | free hi _ ih =>
    cases h' with
    | tail hi' => rw [hi] at hi'; cases hi'
    | free hi' hrest =>
      rw [hi] at hi'
      cases hi'
      rw [ih hrest]

/-- The list from a node of a list is what follows that node there. -/
theorem suffix_of_mem (h : t.FreeChain i l) {j : UInt32} (hj : j ∈ l) :
    ∃ l', t.FreeChain j l' ∧ l' <:+ l := by
  induction h with
  | tail hi =>
    rw [List.mem_singleton.1 hj]
    exact ⟨_, .tail hi, List.suffix_refl _⟩
  | free hi hrest ih =>
    rcases List.mem_cons.1 hj with rfl | hj
    · exact ⟨_, .free hi hrest, List.suffix_refl _⟩
    · obtain ⟨l', hl', hsuf⟩ := ih hj
      exact ⟨l', hl', hsuf.trans (List.suffix_cons _ _)⟩

/-- A list that ends in a free tail meets no node twice. -/
theorem nodup (h : t.FreeChain i l) : l.Nodup := by
  induction h with
  | tail => exact List.nodup_singleton _
  | free hi hrest ih =>
    refine List.nodup_cons.2 ⟨fun hmem => ?_, ih⟩
    obtain ⟨l', hl', hsuf⟩ := hrest.suffix_of_mem hmem
    have hsame := (FreeChain.free hi hrest).unique hl'
    have hlen := hsuf.length_le
    rw [← hsame, List.length_cons] at hlen
    omega

/-- A list that ends in a free tail is no longer than the table. -/
theorem length_le (h : t.FreeChain i l) : l.length ≤ t.nodes.size := by
  have hnodup : (l.map UInt32.toNat).Nodup :=
    h.nodup.map fun _ _ hab => UInt32.toNat_inj.1 hab
  have hsub : l.map UInt32.toNat ⊆ List.range t.nodes.size := by
    intro x hx
    obtain ⟨j, hj, rfl⟩ := List.mem_map.1 hx
    exact List.mem_range.2 (h.lt_size j hj)
  simpa using hnodup.length_le_of_subset hsub

/-- The list from `i` read off the links from `i`: the first `m` nodes reached are free and the
next one is a free tail. -/
theorem iff_links {i : UInt32} {l : List UInt32} :
    t.FreeChain i l ↔
      ∃ m, (∀ k < m, ∃ next, t.nodes[(t.freeLink^[k] i).toNat]? = some (.free next)) ∧
        (∃ next, t.nodes[(t.freeLink^[m] i).toNat]? = some (.freeTail next)) ∧
        l = (List.range (m + 1)).map fun k => t.freeLink^[k] i := by
  constructor
  · intro h
    induction h with
    | tail hi => exact ⟨0, fun _ hk => absurd hk (Nat.not_lt_zero _), ⟨_, hi⟩, rfl⟩
    | @free i next l hi _ ih =>
      obtain ⟨m, hfree, htail, rfl⟩ := ih
      refine ⟨m + 1, fun k hk => ?_, ?_, ?_⟩
      · cases k with
        | zero => exact ⟨next, hi⟩
        | succ k =>
          rw [iterate_freeLink_of_free hi]
          exact hfree k (by omega)
      · rw [iterate_freeLink_of_free hi]
        exact htail
      · conv_rhs => rw [List.range_succ_eq_map, List.map_cons, List.map_map]
        congr 1
        exact List.map_congr_left fun k _ => (iterate_freeLink_of_free hi k).symm
  · rintro ⟨m, hfree, htail, rfl⟩
    induction m generalizing i with
    | zero =>
      obtain ⟨next, hi⟩ := htail
      exact .tail hi
    | succ m ih =>
      obtain ⟨next, hi⟩ := hfree 0 (Nat.succ_pos m)
      have hrest : t.FreeChain next ((List.range (m + 1)).map fun k => t.freeLink^[k] next) := by
        refine ih (fun k hk => ?_) ?_
        · rw [← iterate_freeLink_of_free hi]
          exact hfree (k + 1) (by omega)
        · rw [← iterate_freeLink_of_free hi]
          exact htail
      rw [List.range_succ_eq_map, List.map_cons, List.map_map]
      have hmap : ((fun k => t.freeLink^[k] i) ∘ Nat.succ) = fun k => t.freeLink^[k] next := by
        funext k
        exact iterate_freeLink_of_free hi k
      rw [hmap]
      exact .free hi hrest

end FreeChain

/-! ## The walk -/

theorem freeListFrom_succ_free {b : Nat} {i next : UInt32} {acc : Array UInt32}
    (h : t.nodes[i.toNat]? = some (.free next)) :
    t.freeListFrom (b + 1) i acc = t.freeListFrom b next (acc.push i) := by
  rw [freeListFrom, node_eq_ok.2 h]
  rfl

theorem freeListFrom_succ_tail {b : Nat} {i next : UInt32} {acc : Array UInt32}
    (h : t.nodes[i.toNat]? = some (.freeTail next)) :
    t.freeListFrom (b + 1) i acc = .ok (acc.push i) := by
  rw [freeListFrom, node_eq_ok.2 h]
  rfl

/-- What a successful step of the walk did: the node was a free tail, which ends the list, or a
free node, after which the walk went on from its link. -/
theorem freeListFrom_succ_eq_ok {b : Nat} {i : UInt32} {acc r : Array UInt32}
    (h : t.freeListFrom (b + 1) i acc = .ok r) :
    (∃ next, t.nodes[i.toNat]? = some (.freeTail next) ∧ r = acc.push i) ∨
      ∃ next, t.nodes[i.toNat]? = some (.free next) ∧
        t.freeListFrom b next (acc.push i) = .ok r := by
  cases hn : t.node i with
  | error e =>
    rw [freeListFrom, hn] at h
    cases h
  | ok n =>
    have hi := node_eq_ok.1 hn
    cases n with
    | free next => exact .inr ⟨next, hi, by rw [← freeListFrom_succ_free hi]; exact h⟩
    | freeTail next =>
      rw [freeListFrom_succ_tail hi] at h
      exact .inl ⟨next, hi, (Except.ok.inj h).symm⟩
    | unused | inner _ _ _ _ | leaf _ =>
      rw [freeListFrom, hn] at h
      cases h

/-- A walk that succeeds has followed a list to its free tail. -/
theorem freeChain_of_freeListFrom :
    ∀ {b : Nat} {i : UInt32} {acc r : Array UInt32}, t.freeListFrom b i acc = .ok r →
      ∃ l, t.FreeChain i l ∧ r = acc ++ l.toArray
  | 0, _, _, _, h => by cases h
  | b + 1, i, acc, r, h => by
    rcases freeListFrom_succ_eq_ok h with ⟨next, hi, rfl⟩ | ⟨next, hi, hrest⟩
    · exact ⟨[i], .tail hi, by simp⟩
    · obtain ⟨l, hl, rfl⟩ := freeChain_of_freeListFrom hrest
      exact ⟨i :: l, .free hi hl, by simp⟩

/-- A walk with room for a whole list takes it. -/
theorem freeListFrom_of_freeChain {i : UInt32} {l : List UInt32} (h : t.FreeChain i l) :
    ∀ {b : Nat} (acc : Array UInt32), l.length ≤ b →
      t.freeListFrom b i acc = .ok (acc ++ l.toArray) := by
  induction h with
  | tail hi =>
    intro b acc hb
    obtain ⟨b, rfl⟩ : ∃ b', b = b' + 1 := ⟨b - 1, by simp at hb; omega⟩
    rw [freeListFrom_succ_tail hi]
    simp
  | @free j next l hi _ ih =>
    intro b acc hb
    obtain ⟨b, rfl⟩ : ∃ b', b = b' + 1 := ⟨b - 1, by simp at hb; omega⟩
    rw [freeListFrom_succ_free hi, ih (acc.push j) (by simp at hb; omega)]
    simp

/-- The walk reads only the node table, not the info block. -/
theorem freeListFrom_setInfo (info : TreeInfo) :
    ∀ (b : Nat) (i : UInt32) (acc : Array UInt32),
      ({ t with info } : Tree).freeListFrom b i acc = t.freeListFrom b i acc
  | 0, _, _ => rfl
  | b + 1, i, acc => by
    simp only [freeListFrom, node, freeListFrom_setInfo info b]

/-- With a non-zero length, the free list succeeds exactly on a list from the head to a free
tail. -/
theorem freeList_eq_ok_iff (hlen : t.info.freeListLen ≠ 0) {l : List UInt32} :
    t.freeList = .ok l ↔ t.FreeChain t.info.freeListHead l := by
  rw [freeList, if_neg hlen]
  constructor
  · intro h
    cases hr : t.freeListFrom t.nodes.size t.info.freeListHead #[] with
    | error e => rw [hr] at h; cases h
    | ok r =>
      rw [hr] at h
      cases h
      obtain ⟨l, hl, rfl⟩ := freeChain_of_freeListFrom hr
      simpa using hl
  · intro h
    rw [freeListFrom_of_freeChain h #[] h.length_le]
    simp

/-- The free list of a table. When the info block gives length zero it is empty. Otherwise let
`i₀` be the head and `iₖ₊₁` the link of `iₖ`: the walk succeeds exactly when some `iₘ` is a free
tail of the table and `i₀, …, iₘ₋₁` are free nodes of the table, and then gives `[i₀, …, iₘ]`.
Such a list has distinct entries and is no longer than the table, so the walk's bound never
rejects it; and which non-zero length the info block gives changes nothing. -/
theorem freeList_follows_links (t : Tree) :
    (t.info.freeListLen = 0 → t.freeList = .ok []) ∧
    (t.info.freeListLen ≠ 0 → ∀ l, t.freeList = .ok l ↔
      ∃ m, (∀ k < m, ∃ next, t.nodes[(t.freeAt k).toNat]? = some (.free next)) ∧
        (∃ next, t.nodes[(t.freeAt m).toNat]? = some (.freeTail next)) ∧
        l = (List.range (m + 1)).map t.freeAt) ∧
    (∀ l, t.freeList = .ok l → l.Nodup ∧ l.length ≤ t.nodes.size) ∧
    ∀ len : UInt64, len ≠ 0 → t.info.freeListLen ≠ 0 →
      ({ t with info := { t.info with freeListLen := len } } : Tree).freeList = t.freeList := by
  refine ⟨fun hlen => by rw [freeList, if_pos hlen], fun hlen l => ?_, fun l hl => ?_, ?_⟩
  · rw [freeList_eq_ok_iff hlen, FreeChain.iff_links]
    rfl
  · by_cases hlen : t.info.freeListLen = 0
    · rw [freeList, if_pos hlen] at hl
      cases hl
      exact ⟨List.nodup_nil, Nat.zero_le _⟩
    · have hchain := (freeList_eq_ok_iff hlen).1 hl
      exact ⟨hchain.nodup, hchain.length_le⟩
  · intro len hlen' hlen
    rw [freeList, freeList, if_neg hlen', if_neg hlen]
    congr 1
    exact freeListFrom_setInfo _ _ _ _

example : freeList ⟨⟨0, 2, 2, 0, 0⟩, #[.unused, .freeTail 0, .free 1]⟩ = .ok [2, 1] := by decide

example : freeList ⟨⟨0, 2, 0, 0, 0⟩, #[.free 1, .free 0]⟩ = .error (.layout .freeListEndless) := by
  decide

end Tree

end SlabLedger
