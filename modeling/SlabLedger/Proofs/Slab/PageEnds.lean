import SlabLedger.Proofs.Slab.Faults
import SlabLedger.Proofs.Slab.Placement

/-!
# Reads that stay inside their pages

A page holds `P = (16384 - header_size - offset_size) / S` records of `S` bytes, so the records
of a page and the offset before them fill at most `16384 - header_size` bytes
(`Header.reserved_add_perPage_le`). Every page skips only the offset, and the first page also
holds the info block of `M` bytes: on a page after the first the records end inside the page,
while on the first they may run past its end by `M - header_size` bytes.

Every page of a pool is whole (`PagePool.page_length`), so a collection decoder fails only in
the header's checks, in reading a record from its own bytes (a bad node tag), or at a record of
the first page whose window runs past the page's end (`Collection.placed_fault`); and when
`header_size` is at least `M`, never the last way (`Header.not_firstPageOverrun`). `slab_reads_stay_in_pages` states this for node
tables and both kinds of slot vector.
-/

namespace SlabLedger

namespace Header

variable {h : Header} {S P : Nat}

/-! ### The header's page arithmetic -/

/-- The reserved bytes are the plain sum of header and offset, found when it leaves room. -/
theorem reserved_eq_ok_iff {x : Nat} :
    h.reserved = .ok x ↔ h.headerSize.toNat + h.offsetSize.toNat < pageSize ∧
      x = h.headerSize.toNat + h.offsetSize.toNat := by
  unfold reserved
  dsimp only
  split
  · next hlt =>
    constructor
    · intro hx
      exact ⟨hlt, (Except.ok.inj hx).symm⟩
    · rintro ⟨-, rfl⟩
      rfl
  · next hge =>
    constructor
    · intro hx
      cases hx
    · rintro ⟨hlt, -⟩
      exact absurd hlt hge

/-- The records per page are what header and offset leave, divided by the record size, and at
least one. -/
theorem itemsPerPage_eq_ok_iff {P : Nat} :
    h.itemsPerPage S = .ok P ↔ h.headerSize.toNat + h.offsetSize.toNat < pageSize ∧
      P = (pageSize - (h.headerSize.toNat + h.offsetSize.toNat)) / max S 1 ∧ 0 < P := by
  by_cases hfit : h.headerSize.toNat + h.offsetSize.toNat < pageSize
  · rw [itemsPerPage, reserved_eq_ok_iff.2 ⟨hfit, rfl⟩, Except.ok_bind]
    dsimp only
    split
    · next hzero =>
      constructor
      · intro hP
        cases hP
      · rintro ⟨-, rfl, hpos⟩
        omega
    · next hpos =>
      constructor
      · intro hP
        cases hP
        exact ⟨hfit, rfl, Nat.pos_of_ne_zero hpos⟩
      · rintro ⟨-, rfl, -⟩
        rfl
  · constructor
    · intro hP
      obtain ⟨x, hx, -⟩ := Except.exists_of_bind_eq_ok hP
      exact absurd (reserved_eq_ok_iff.1 hx).1 hfit
    · rintro ⟨hlt, -⟩
      exact absurd hlt hfit

/-- The pages needed are the items divided by the records per page, rounded up, and at most
sixteen. -/
theorem totalPages_eq_ok_iff {t : Nat} :
    h.totalPages S = .ok t ↔ ∃ P, h.itemsPerPage S = .ok P ∧
      t = (h.itemCount.toNat + P - 1) / P ∧ t ≤ maxCollectionPages := by
  unfold totalPages
  cases hper : h.itemsPerPage S with
  | error e =>
    constructor
    · intro ht
      cases ht
    · rintro ⟨P, hP, -⟩
      cases hP
  | ok P =>
    rw [Except.ok_bind]
    dsimp only
    split
    · next hmany =>
      constructor
      · intro ht
        cases ht
      · rintro ⟨P', hP', rfl, hle⟩
        cases hP'
        omega
    · next hfew =>
      constructor
      · intro ht
        cases ht
        exact ⟨P, rfl, rfl, by omega⟩
      · rintro ⟨P', hP', rfl, -⟩
        cases hP'
        rfl

/-- Header and offset that leave room on a page add up without passing 64 bits. -/
theorem toNat_add_of_fits (hfit : h.headerSize.toNat + h.offsetSize.toNat < pageSize) :
    (h.headerSize + h.offsetSize).toNat = h.headerSize.toNat + h.offsetSize.toNat := by
  rw [UInt64.toNat_add]
  exact Nat.mod_eq_of_lt (by unfold pageSize at hfit; omega)

/-- The header, the offset and the records of a page fill no more than the page, a record of no
bytes counting as one. -/
theorem reserved_add_perPage_le_max (hper : h.itemsPerPage S = .ok P) :
    h.headerSize.toNat + h.offsetSize.toNat + P * max S 1 ≤ pageSize := by
  obtain ⟨hfit, rfl, -⟩ := itemsPerPage_eq_ok_iff.1 hper
  have hdiv := Nat.div_mul_le_self (pageSize - (h.headerSize.toNat + h.offsetSize.toNat))
    (max S 1)
  omega

/-- The header, the offset and the records of a page fill no more than the page. -/
theorem reserved_add_perPage_le (hper : h.itemsPerPage S = .ok P) :
    h.headerSize.toNat + h.offsetSize.toNat + P * S ≤ pageSize :=
  Nat.le_trans (Nat.add_le_add_left (Nat.mul_le_mul_left P (Nat.le_max_left S 1)) _)
    (reserved_add_perPage_le_max hper)

/-- A read of the first page cut short: record `i`, one of the first page's records and of the
collection's items, whose window after the offset and the `infoSize` bytes of the info block
runs past the page's end; the fault gives the record's size and what is left of the page. -/
def FirstPageOverrun (h : Header) (infoSize recordSize : Nat) (e : Fault) : Prop :=
  ∃ P i, h.itemsPerPage recordSize = .ok P ∧ i < P ∧ i < h.itemCount.toNat ∧
    pageSize < h.offsetSize.toNat + infoSize + (i + 1) * recordSize ∧
    e = .truncated recordSize (pageSize - (h.offsetSize.toNat + infoSize + i * recordSize))

/-- With a header at least as long as the info block, no record of the first page runs past
its end. -/
theorem not_firstPageOverrun {M : Nat} (hM : M ≤ h.headerSize.toNat) (e : Fault) :
    ¬h.FirstPageOverrun M S e := by
  rintro ⟨P, i, hper, hi, -, hover, -⟩
  have hfill := reserved_add_perPage_le hper
  have hrecords : (i + 1) * S ≤ P * S := Nat.mul_le_mul_right S hi
  omega

end Header

theorem window_eq_ok_of_le {p : Bytes} {start len : Nat} (h : start + len ≤ p.length) :
    window p start len = .ok ((p.drop start).take len) := by
  rw [window, if_pos h]

namespace Collection

variable {ι α : Type} {fmt : RecordFormat ι α} {M P off : Nat}

/-- A record of a page after the first ends inside the page when the page's records fit. -/
theorem recordStart_add_le_of_later (hpos : 0 < P) (hP : P ≤ i)
    (hfill : off + P * fmt.size ≤ pageSize) :
    recordStart fmt M P off i + fmt.size ≤ pageSize := by
  have hmod : i % P + 1 ≤ P := Nat.mod_lt i hpos
  have hrecords : (i % P + 1) * fmt.size ≤ P * fmt.size := Nat.mul_le_mul_right _ hmod
  rw [recordStart, if_neg (by omega), Nat.add_zero]
  rw [Nat.succ_mul] at hrecords
  omega

/-- A window of a whole page read as a record fails only in reading its bytes, or because the
window runs past the page's end. -/
theorem window_bind_fault {p : Bytes} (hp : p.length = pageSize) {start len : Nat}
    {read : Bytes → Except Fault α} {e : Fault} (h : (window p start len >>= read) = .error e) :
    (∃ bytes, bytes.length = len ∧ read bytes = .error e) ∨
      pageSize < start + len ∧ e = .truncated len (pageSize - start) := by
  by_cases hfit : start + len ≤ pageSize
  · left
    rw [window_eq_ok_of_le (by rw [hp]; exact hfit), Except.ok_bind] at h
    refine ⟨_, ?_, h⟩
    rw [List.length_take, List.length_drop, hp]
    omega
  · right
    rw [window, if_neg (by rw [hp]; exact hfit), Except.error_bind] at h
    cases h
    exact ⟨by omega, by rw [hp]⟩

/-- On whole pages, a record read at its place fails only in reading its own bytes, or because
its window runs past the page's end. -/
theorem placeRecord_fault {page : Nat → Bytes} (hpage : ∀ i, (page i).length = pageSize)
    (hoff : off ≤ pageSize) {i : Nat} {e : Fault}
    (h : placeRecord fmt M P off page i = .error e) :
    (∃ bytes, bytes.length = fmt.size ∧ fmt.readRecord i bytes = .error e) ∨
      pageSize < recordStart fmt M P off i + fmt.size ∧
        e = .truncated fmt.size (pageSize - recordStart fmt M P off i) := by
  unfold placeRecord at h
  dsimp only at h
  split at h
  · rw [window_eq_ok_of_le (by rw [hpage]; omega), Except.discard_ok, Except.ok_bind] at h
    exact window_bind_fault (hpage i) h
  · exact window_bind_fault (hpage i) h

/-- The placed reads of a pool fail only in the header's checks, in reading a record from its own
bytes, or at a record of the first page whose window runs past the page's end. The offset and the
info block always fit, because at least one record does. -/
theorem placed_fault (hinfo : fmt.readInfo.Reads M) (hM : M ≤ fmt.size) {pool : PagePool}
    {h : Header} {e : Fault} (he : placed fmt M h pool = .error e) :
    h.usedPages fmt.size = .error e ∨
      (∃ i bytes, bytes.length = fmt.size ∧ fmt.readRecord i bytes = .error e) ∨
      h.FirstPageOverrun M fmt.size e := by
  unfold placed at he
  cases hu : h.usedPages fmt.size with
  | error e' =>
    rw [hu] at he
    cases he
    exact .inl rfl
  | ok used =>
    obtain ⟨P, hper, -, hlt⟩ := Header.usedPages_ok hu
    have hP := Header.itemsPerPage_pos hper
    have hfill := Header.reserved_add_perPage_le hper
    have hone : fmt.size ≤ P * fmt.size := Nat.le_mul_of_pos_left _ hP
    have hpage : ∀ i, (pool.pages.getD (used.getD (i / P) 0).toNat []).length = pageSize := by
      intro i
      have hidx : (used.getD (i / P) 0).toNat < pool.pages.length := by
        rw [pool.pages_length, List.getD_eq_getElem?_getD]
        cases hget : used[i / P]? with
        | none => decide
        | some u => exact hlt u (List.mem_of_getElem? hget)
      rw [List.getD_eq_getElem?_getD, List.getElem?_eq_getElem hidx, Option.getD_some]
      exact pool.page_length _ (List.getElem_mem hidx)
    rw [hu, Except.ok_bind, hper, Except.ok_bind] at he
    dsimp only at he
    split at he
    · cases he
    · rename_i hn
      rw [window_eq_ok_of_le (by rw [hpage]; omega), Except.discard_ok, Except.ok_bind] at he
      obtain ⟨info, hrun, -⟩ := hinfo.run_of_le (show M ≤ ((pool.pages.getD
        (used.getD (0 / P) 0).toNat []).drop h.offsetSize.toNat).length by
          rw [List.length_drop, hpage]; omega)
      rw [Decoder.parse_of_run hrun, Except.ok_bind] at he
      cases hrecords : (List.range h.itemCount.toNat).mapM
          (placeRecord fmt M P h.offsetSize.toNat fun i =>
            pool.pages.getD (used.getD (i / P) 0).toNat []) with
      | ok records =>
        rw [hrecords] at he
        cases he
      | error e' =>
        rw [hrecords] at he
        cases he
        obtain ⟨i, hi, hrec⟩ := exists_of_mapM_eq_error hrecords
        rcases placeRecord_fault hpage (by omega) hrec with hread | ⟨hover, rfl⟩
        · exact .inr (.inl ⟨i, hread⟩)
        · have hfirst : i < P := by
            refine Nat.lt_of_not_le fun hge => ?_
            have hlater : recordStart fmt M P h.offsetSize.toNat i + fmt.size ≤ pageSize :=
              recordStart_add_le_of_later hP hge (by omega)
            omega
          refine .inr (.inr ⟨P, i, hper, hfirst, List.mem_range.1 hi, ?_, ?_⟩)
          · rw [recordStart, if_pos hfirst, Nat.mod_eq_of_lt hfirst] at hover
            rw [Nat.succ_mul]
            omega
          · rw [recordStart, if_pos hfirst, Nat.mod_eq_of_lt hfirst]

end Collection

/-! ## Node records and slot records -/

/-- A node record of 56 bytes is read whole or fails with the tag of no kind; each kind reads
at most 52 bytes after its tag. -/
theorem Node.ofRecord_fault {bytes : Bytes} (hlen : bytes.length = nodeSize) {i : Nat} {e : Fault}
    (h : Node.ofRecord bytes i = .error e) : ∃ tag, e = .badNodeTag tag i := by
  obtain ⟨tag, htag, -⟩ := Decoder.u32_reads.run_of_le (show 4 ≤ bytes.length by
    rw [hlen]; decide)
  have hrest : 52 ≤ (bytes.drop 4).length := by
    rw [List.length_drop, hlen]
    decide
  unfold Node.ofRecord Decoder.parse at h
  rw [Node.read, StateT.run_bind, htag, Except.ok_bind] at h
  dsimp only at h
  split at h
  · cases h
  · obtain ⟨x, hx, -⟩ := (Decoder.key_reads.bind fun _ => Decoder.u32_reads.bind fun _ =>
      Decoder.u32_reads.bind fun _ => Decoder.u32_reads.bind fun _ =>
        Decoder.pure_reads (Node.inner _ _ _ _)).run_of_le (Nat.le_trans (by decide) hrest)
    rw [hx] at h
    cases h
  · obtain ⟨x, hx, -⟩ := (Decoder.u32_reads.bind fun _ => Decoder.key_reads.bind fun _ =>
      Decoder.address_reads.bind fun _ => Decoder.pure_reads (Node.leaf ⟨_, _, _⟩)).run_of_le
        (Nat.le_trans (by decide) hrest)
    rw [hx] at h
    cases h
  · obtain ⟨x, hx, -⟩ := (Decoder.u32_reads.map Node.free).run_of_le
      (Nat.le_trans (by decide) hrest)
    rw [hx] at h
    cases h
  · obtain ⟨x, hx, -⟩ := (Decoder.u32_reads.map Node.freeTail).run_of_le
      (Nat.le_trans (by decide) hrest)
    rw [hx] at h
    cases h
  · cases h
    exact ⟨tag, rfl⟩

/-- A slot record read from the front of its bytes never fails on a window of its size. -/
theorem slotFormat_readRecord_ok {β : Type} {size w : Nat} {read : Decoder β}
    (hread : read.Reads w) (hw : w ≤ size) (i : Nat) {bytes : Bytes}
    (hlen : bytes.length = size) :
    ∃ x, (slotFormat size read).readRecord i bytes = .ok x := by
  obtain ⟨x, hx, -⟩ := hread.run_of_le (show w ≤ bytes.length by omega)
  exact ⟨x, Decoder.parse_of_run hx⟩

/-! ## Faults of the header's checks -/

namespace Header

variable {h : Header} {S : Nat} {e : Fault}

theorem reserved_error_layout (hr : h.reserved = .error e) : ∃ f, e = .layout f := by
  unfold reserved at hr
  dsimp only at hr
  split at hr <;> cases hr
  exact ⟨_, rfl⟩

theorem itemsPerPage_error_layout (hper : h.itemsPerPage S = .error e) : ∃ f, e = .layout f := by
  unfold itemsPerPage at hper
  cases hr : h.reserved with
  | error e' =>
    rw [hr] at hper
    cases hper
    exact reserved_error_layout hr
  | ok r =>
    rw [hr, Except.ok_bind] at hper
    dsimp only at hper
    split at hper <;> cases hper
    exact ⟨_, rfl⟩

theorem totalPages_error_layout (ht : h.totalPages S = .error e) : ∃ f, e = .layout f := by
  unfold totalPages at ht
  cases hper : h.itemsPerPage S with
  | error e' =>
    rw [hper] at ht
    cases ht
    exact itemsPerPage_error_layout hper
  | ok P =>
    rw [hper, Except.ok_bind] at ht
    dsimp only at ht
    split at ht <;> cases ht
    exact ⟨_, rfl⟩

theorem checkIndices_error_layout :
    ∀ {p : Nat} {seen l : List UInt16}, checkIndices p seen l = .error e → ∃ f, e = .layout f
  | _, _, [], hc => by cases hc
  | p, seen, i :: rest, hc => by
    unfold checkIndices at hc
    split at hc
    · cases hc
      exact ⟨_, rfl⟩
    · split at hc
      · cases hc
        exact ⟨_, rfl⟩
      · exact checkIndices_error_layout hc

/-- The header's checks fail only with layout faults. -/
theorem usedPages_error_layout (hu : h.usedPages S = .error e) : ∃ f, e = .layout f := by
  unfold usedPages at hu
  cases ht : h.totalPages S with
  | error e' =>
    rw [ht] at hu
    cases hu
    exact totalPages_error_layout ht
  | ok t =>
    rw [ht, Except.ok_bind] at hu
    dsimp only at hu
    cases hc : checkIndices 0 [] (h.pageIndices.take t) with
    | error e' =>
      rw [hc] at hu
      cases hu
      exact checkIndices_error_layout hc
    | ok u =>
      rw [hc] at hu
      cases hu

end Header

/-! ## Node tables and slot vectors -/

section Decoders

variable {pool : PagePool} {h : Header} {e : Fault}

/-- A node table fails only in the header's checks, on a node tag of no kind, or at a node of the
first page whose record runs past the page's end. -/
theorem Tree.decode_fault (he : Tree.decode h pool = .error e) :
    h.usedPages nodeSize = .error e ∨ (∃ tag i, e = .badNodeTag tag i) ∨
      h.FirstPageOverrun 32 nodeSize e := by
  have hplaced : Collection.placed Tree.format 32 h pool = .error e := by
    rw [← Collection.decode_eq_placed (by decide) TreeInfo.read_reads.consumes]
    exact Except.eq_error_of_bind_pure he
  rcases Collection.placed_fault TreeInfo.read_reads (by decide) hplaced with
    hu | ⟨i, bytes, hlen, hread⟩ | hover
  · exact .inl hu
  · obtain ⟨tag, rfl⟩ := Node.ofRecord_fault hlen hread
    exact .inr (.inl ⟨tag, i, rfl⟩)
  · exact .inr (.inr hover)

/-- A slot vector fails only in the header's checks, or at a slot of the first page whose record
runs past the page's end: a slot record never fails on its own bytes. -/
theorem SlotVector.decode_slot_fault {β : Type} {size w : Nat} {read : Decoder β}
    (hread : read.Reads w) (hw : w ≤ size) (hinfo : 8 ≤ size)
    (he : SlotVector.decode (slotFormat size read) h pool = .error e) :
    h.usedPages size = .error e ∨ h.FirstPageOverrun 8 size e := by
  have hplaced : Collection.placed (slotFormat size read) 8 h pool = .error e := by
    rw [← Collection.decode_eq_placed (by show 0 < size; omega) VectorInfo.read_reads.consumes]
    exact Except.eq_error_of_bind_pure he
  rcases Collection.placed_fault VectorInfo.read_reads hinfo hplaced with
    hu | ⟨i, bytes, hlen, hread'⟩ | hover
  · exact .inl hu
  · obtain ⟨x, hx⟩ := slotFormat_readRecord_ok hread hw i hlen
    rw [hx] at hread'
    cases hread'
  · exact .inr hover

/-- With a header at least as long as the info block of 8 bytes, a slot vector fails only in
the header's checks. -/
theorem SlotVector.decode_slot_fault_of_header {β : Type} {size w : Nat} {read : Decoder β}
    (hread : read.Reads w) (hw : w ≤ size) (hinfo : 8 ≤ size) (hM : 8 ≤ h.headerSize.toNat)
    (he : SlotVector.decode (slotFormat size read) h pool = .error e) :
    h.usedPages size = .error e :=
  (SlotVector.decode_slot_fault hread hw hinfo he).resolve_right
    (Header.not_firstPageOverrun hM e)

end Decoders

/-- What the collection decoders read of a pool, for one header: the bounds of a page's records,
and the faults each decoder can give. -/
structure SlabReadBounds (pool : PagePool) (h : Header) : Prop where
  /-- A page's records and the offset before them fill at most what the header leaves. -/
  perPage_fill : ∀ S P, h.itemsPerPage S = .ok P →
    h.offsetSize.toNat + P * S ≤ pageSize - h.headerSize.toNat
  /-- A node table fails in the header's checks, on a bad node tag, or at a node of the first
  page; never at a node of a later page. -/
  tree_faults : ∀ e, Tree.decode h pool = .error e →
    h.usedPages nodeSize = .error e ∨ (∃ tag i, e = .badNodeTag tag i) ∨
      h.FirstPageOverrun 32 nodeSize e
  orders_faults : ∀ e, SlotVector.decode OrderSlot.format h pool = .error e →
    h.usedPages 32 = .error e ∨ h.FirstPageOverrun 8 32 e
  balances_faults : ∀ e, SlotVector.decode BalanceSlot.format h pool = .error e →
    h.usedPages 24 = .error e ∨ h.FirstPageOverrun 8 24 e
  /-- The header's checks fail only with layout faults. -/
  checks_layout : ∀ S e, h.usedPages S = .error e → ∃ f, e = .layout f
  /-- With a header of at least 32 bytes, nothing of a node table is cut short. -/
  tree_in_pages : 32 ≤ h.headerSize.toNat → ∀ e, Tree.decode h pool = .error e →
    h.usedPages nodeSize = .error e ∨ ∃ tag i, e = .badNodeTag tag i
  /-- With a header of at least 8 bytes, a slot vector fails only in the header's checks. -/
  slots_in_pages : 8 ≤ h.headerSize.toNat → ∀ e,
    (SlotVector.decode OrderSlot.format h pool = .error e → h.usedPages 32 = .error e) ∧
    (SlotVector.decode BalanceSlot.format h pool = .error e → h.usedPages 24 = .error e)

/-- The node tables and slot vectors of every pool read inside their pages. For every
header, a page's records and the offset before them fill at most `16384 - header_size` bytes, so
a read cut short is one of a record of the first page and never of a later page; node tables
fail otherwise only in the header's checks or on a bad node tag, slot vectors only in the
header's checks, and those fail only with layout faults. When `header_size` is at least the info
block (32 bytes for node tables, 8 for slot vectors), nothing is cut short. -/
theorem slab_reads_stay_in_pages (pool : PagePool) (h : Header) : SlabReadBounds pool h where
  perPage_fill S P hper := by
    have hfill := Header.reserved_add_perPage_le hper
    omega
  tree_faults _ he := Tree.decode_fault he
  orders_faults _ he := SlotVector.decode_slot_fault OrderSlot.read_reads (by decide) (by decide) he
  balances_faults _ he :=
    SlotVector.decode_slot_fault BalanceSlot.read_reads (by decide) (by decide) he
  checks_layout _ _ hu := Header.usedPages_error_layout hu
  tree_in_pages hM e he :=
    (Tree.decode_fault he).imp_right (Or.resolve_right · (Header.not_firstPageOverrun hM e))
  slots_in_pages hM _ :=
    ⟨SlotVector.decode_slot_fault_of_header OrderSlot.read_reads (by decide) (by decide) hM,
      SlotVector.decode_slot_fault_of_header BalanceSlot.read_reads (by decide) (by decide) hM⟩

end SlabLedger
