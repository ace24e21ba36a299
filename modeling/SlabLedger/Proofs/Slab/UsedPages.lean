import Mathlib.Data.List.Nodup
import SlabLedger.Proofs.Slab.PageEnds

/-!
# The pages a header uses

A header names up to 16 pages, but only as many count as its items need. The records per page
come from what the header and the offset leave of a page; the pages needed are the items divided
by that, rounded up; those first page indices must each name one of the six pages of the region,
and none twice.

`usedPages_eq_ok_iff_fits` says exactly when the used indices are found, and what follows when they
are: the header and offset fit in a 64-bit sum, at most six pages are used, the pages used are the
fewest that hold the items, and the pool gives those pages in the header's order.
-/

namespace SlabLedger

namespace Header

variable {h : Header} {r : Nat}

/-- The check of page indices passes exactly when each names a page of the region, none was seen
before the list, and none repeats within it. -/
theorem checkIndices_eq_ok_iff :
    ∀ {p : Nat} {seen l : List UInt16}, checkIndices p seen l = .ok () ↔
      (∀ i ∈ l, i.toNat < regionPages) ∧ (∀ i ∈ l, i ∉ seen) ∧ l.Nodup
  | _, _, [] => by simp [checkIndices]
  | p, seen, i :: rest => by
    unfold checkIndices
    split
    · next hout =>
      refine iff_of_false (fun hc => by cases hc) fun hall => ?_
      exact absurd (hall.1 i List.mem_cons_self) (by omega)
    split
    · next hseen =>
      refine iff_of_false (fun hc => by cases hc) fun hall => ?_
      exact hall.2.1 i List.mem_cons_self hseen
    · next hin hnew =>
      rw [checkIndices_eq_ok_iff]
      simp only [List.forall_mem_cons, List.mem_append, List.mem_singleton, not_or,
        List.nodup_cons]
      constructor
      · rintro ⟨hlt, hfresh, hnodup⟩
        exact ⟨⟨by omega, hlt⟩, ⟨hnew, fun j hj => (hfresh j hj).1⟩,
          fun hmem => (hfresh i hmem).2 rfl, hnodup⟩
      · rintro ⟨⟨-, hlt⟩, ⟨-, hfresh⟩, hnotin, hnodup⟩
        exact ⟨hlt, fun j hj => ⟨hfresh j hj, fun hji => hnotin (hji ▸ hj)⟩, hnodup⟩

theorem usedPages_eq_ok_iff {u : List UInt16} :
    h.usedPages r = .ok u ↔ ∃ t, h.totalPages r = .ok t ∧
      (∀ i ∈ h.pageIndices.take t, i.toNat < regionPages) ∧ (h.pageIndices.take t).Nodup ∧
      u = h.pageIndices.take t := by
  unfold usedPages
  cases ht : h.totalPages r with
  | error e =>
    constructor
    · intro hu
      cases hu
    · rintro ⟨t, ht', -⟩
      cases ht'
  | ok t =>
    rw [Except.ok_bind]
    dsimp only
    cases hc : checkIndices 0 [] (h.pageIndices.take t) with
    | error e =>
      refine iff_of_false (fun hu => by cases hu) ?_
      rintro ⟨t', ht', hin, hnodup, -⟩
      cases ht'
      have hok : checkIndices 0 [] (h.pageIndices.take t) = .ok () :=
        checkIndices_eq_ok_iff.2 ⟨hin, fun _ _ => List.not_mem_nil, hnodup⟩
      rw [hc] at hok
      cases hok
    | ok _ =>
      obtain ⟨hin, -, hnodup⟩ := checkIndices_eq_ok_iff.1 hc
      rw [Except.ok_bind]
      constructor
      · intro hu
        cases hu
        exact ⟨t, rfl, hin, hnodup, rfl⟩
      · rintro ⟨t', ht', -, -, rfl⟩
        cases ht'
        rfl

/-- Distinct pages of the region are at most the region's six. -/
theorem length_le_regionPages {l : List UInt16} (hin : ∀ i ∈ l, i.toNat < regionPages)
    (hnodup : l.Nodup) : l.length ≤ regionPages := by
  have hmap : (l.map UInt16.toNat).Nodup := hnodup.map fun _ _ hab => UInt16.toNat_inj.1 hab
  have hsub : l.map UInt16.toNat ⊆ List.range regionPages := by
    intro x hx
    obtain ⟨i, hi, rfl⟩ := List.mem_map.1 hx
    exact List.mem_range.2 (hin i hi)
  simpa using hmap.length_le_of_subset hsub

/-- Rounded up, `n` items of `P` to a page fill their pages with room for fewer than `P` more. -/
theorem ceil_mul_bounds {P : Nat} (hP : 0 < P) (n : Nat) :
    n ≤ (n + P - 1) / P * P ∧ (n + P - 1) / P * P < n + P := by
  have hfloor := Nat.div_mul_le_self (n + P - 1) P
  have hceil : n + P - 1 < (n + P - 1) / P * P + P := Nat.lt_div_mul_add hP
  omega

/-- Rounded up, `n` items of `P` to a page need pages for all of them and not one more. -/
theorem pages_needed_bounds {n P : Nat} (hP : 0 < P) (hn : 0 < n) :
    ((n + P - 1) / P - 1) * P < n ∧ n ≤ (n + P - 1) / P * P := by
  obtain ⟨hle, hlt⟩ := ceil_mul_bounds hP n
  rw [Nat.sub_one_mul]
  omega

/-- The used indices found, in terms of the header's fields: the reserved bytes leave room, a
record fits, the items need at most 16 pages, and that many first indices are distinct pages of
the region. -/
theorem usedPages_eq_ok_iff_sizes {u : List UInt16} :
    h.usedPages r = .ok u ↔
      ∃ P t, h.headerSize.toNat + h.offsetSize.toNat < pageSize ∧
        P = (pageSize - (h.headerSize.toNat + h.offsetSize.toNat)) / max r 1 ∧ 1 ≤ P ∧
        t = (h.itemCount.toNat + P - 1) / P ∧ t ≤ maxCollectionPages ∧
        (∀ i ∈ h.pageIndices.take t, i.toNat < regionPages) ∧ (h.pageIndices.take t).Nodup ∧
        u = h.pageIndices.take t := by
  rw [usedPages_eq_ok_iff]
  constructor
  · rintro ⟨t, ht, hin, hnodup, rfl⟩
    obtain ⟨P, hP, rfl, hle⟩ := totalPages_eq_ok_iff.1 ht
    obtain ⟨hfit, rfl, hpos⟩ := itemsPerPage_eq_ok_iff.1 hP
    exact ⟨_, _, hfit, rfl, hpos, rfl, hle, hin, hnodup, rfl⟩
  · rintro ⟨P, t, hfit, rfl, hpos, rfl, hle, hin, hnodup, rfl⟩
    refine ⟨_, totalPages_eq_ok_iff.2 ⟨_, ?_, rfl, hle⟩, hin, hnodup, rfl⟩
    exact itemsPerPage_eq_ok_iff.2 ⟨hfit, rfl, hpos⟩

/-- What the used indices give: the header and offset add up within 64 bits, at most six pages
are used, and they are the fewest that hold the items. -/
theorem usedPages_sizes {u : List UInt16} (hu : h.usedPages r = .ok u) :
    (h.headerSize + h.offsetSize).toNat = h.headerSize.toNat + h.offsetSize.toNat ∧
      u.length ≤ regionPages ∧
      ∃ P, h.itemsPerPage r = .ok P ∧ 1 ≤ P ∧
        (0 < h.itemCount.toNat →
          (u.length - 1) * P < h.itemCount.toNat ∧ h.itemCount.toNat ≤ u.length * P) ∧
        (h.itemCount.toNat = 0 → u = []) := by
  obtain ⟨P, t, hfit, hPdef, hpos, rfl, hle, hin, hnodup, rfl⟩ := usedPages_eq_ok_iff_sizes.1 hu
  have hlen : (h.pageIndices.take ((h.itemCount.toNat + P - 1) / P)).length =
      (h.itemCount.toNat + P - 1) / P := by
    rw [List.length_take, h.pageIndices_length]
    exact Nat.min_eq_left hle
  refine ⟨toNat_add_of_fits hfit, length_le_regionPages hin hnodup, P,
    itemsPerPage_eq_ok_iff.2 ⟨hfit, hPdef, hpos⟩, hpos, fun hn => ?_, fun hn => ?_⟩
  · rw [hlen]
    exact pages_needed_bounds hpos hn
  · have hzero : (h.itemCount.toNat + P - 1) / P = 0 := by
      rw [hn, Nat.zero_add]
      exact Nat.div_eq_of_lt (by omega)
    rw [hzero, List.take_zero]

end Header

/-- The pool gives the pages a header uses in the header's order, and fails only where the used
indices do. -/
theorem PagePool.select_eq_map (pool : PagePool) (h : Header) (r : Nat) :
    pool.select h r =
      (fun u => u.map fun i => pool.pages.getD i.toNat []) <$> h.usedPages r := by
  unfold select
  cases hu : h.usedPages r with
  | error e => rfl
  | ok u =>
    obtain ⟨-, -, -, hin⟩ := Header.usedPages_ok hu
    rw [Except.ok_bind, pool.mapM_page hin]
    rfl

/-- The used page indices of a header, for records of `r` bytes. They are found exactly when the
header and offset leave room on a page, at least one record fits in what is left, the items need
no more than 16 pages, and that many first page indices name distinct pages of the region; they
are then those first indices. Then the sum of header and offset does not pass 64 bits, at most six
pages are used, the pages used are the fewest that hold the items (none for no items), and the pool
selects exactly those pages in order. -/
theorem usedPages_eq_ok_iff_fits (h : Header) (r : Nat) (u : List UInt16) :
    (h.usedPages r = .ok u ↔
      ∃ P t, h.headerSize.toNat + h.offsetSize.toNat < pageSize ∧
        P = (pageSize - (h.headerSize.toNat + h.offsetSize.toNat)) / max r 1 ∧ 1 ≤ P ∧
        t = (h.itemCount.toNat + P - 1) / P ∧ t ≤ maxCollectionPages ∧
        (∀ i ∈ h.pageIndices.take t, i.toNat < regionPages) ∧ (h.pageIndices.take t).Nodup ∧
        u = h.pageIndices.take t) ∧
    (h.usedPages r = .ok u →
      (h.headerSize + h.offsetSize).toNat = h.headerSize.toNat + h.offsetSize.toNat ∧
      u.length ≤ regionPages ∧
      ∃ P, h.itemsPerPage r = .ok P ∧ 1 ≤ P ∧
        (0 < h.itemCount.toNat →
          (u.length - 1) * P < h.itemCount.toNat ∧ h.itemCount.toNat ≤ u.length * P) ∧
        (h.itemCount.toNat = 0 → u = [])) ∧
    ∀ pool : PagePool, pool.select h r =
      (fun u => u.map fun i => pool.pages.getD i.toNat []) <$> h.usedPages r :=
  ⟨Header.usedPages_eq_ok_iff_sizes, Header.usedPages_sizes, fun pool => pool.select_eq_map h r⟩

end SlabLedger
