import SlabLedger.Slab.Header
/-!
# Page pools

The region after an account's headers is cut into six pages of 16384 bytes; bytes past the
sixth page are ignored. A collection takes its pages from the pool in the order its header
names them.
-/

namespace SlabLedger

/-- The six pages of a region, in region order, each of them whole. -/
structure PagePool where
  pages : List Bytes
  pages_length : pages.length = regionPages
  page_length : ∀ p ∈ pages, p.length = pageSize

namespace PagePool

/-- The pages cut from a region of at least six pages are whole: page `i` ends at
`(i + 1) * pageSize`, inside the region. -/
theorem length_of_mem_cut {region : Bytes}
    (h : Bytes.hasAtLeast (regionPages * pageSize) region = true) :
    ∀ p ∈ (List.range regionPages).map (fun i => (region.drop (i * pageSize)).take pageSize),
      p.length = pageSize := by
  intro p hp
  obtain ⟨i, hi, rfl⟩ := List.mem_map.1 hp
  rw [List.mem_range] at hi
  rw [Bytes.hasAtLeast_eq, decide_eq_true_eq] at h
  have hend : (i + 1) * pageSize ≤ regionPages * pageSize := Nat.mul_le_mul_right _ hi
  rw [Nat.succ_mul] at hend
  rw [List.length_take, List.length_drop]
  omega

/-- Cuts a region into its six pages; it must hold at least six pages. -/
def ofRegion (region : Bytes) : Except Fault PagePool :=
  if h : Bytes.hasAtLeast (regionPages * pageSize) region then
    .ok ⟨(List.range regionPages).map fun i => (region.drop (i * pageSize)).take pageSize,
      by simp, length_of_mem_cut h⟩
  else .error (.layout (.shortRegion region.length))

/-- The page of an index. -/
def page (pool : PagePool) (i : UInt16) : Except Fault Bytes :=
  match pool.pages[i.toNat]? with
  | some p => .ok p
  | none => .error (.layout (.poolIndexOutOfRange i))

/-- The pages a collection uses, in the order its header names them. -/
def select (pool : PagePool) (h : Header) (recordSize : Nat) : Except Fault (List Bytes) := do
  let used ← h.usedPages recordSize
  used.mapM pool.page

end PagePool

end SlabLedger
