import SlabLedger.Proofs.Slab.Faults
import SlabLedger.Slab.Tree
import SlabLedger.Slab.Vector

/-!
# Where the records of a collection lie

A collection is decoded page by page with a cursor: on each page the offset is passed, the
first page then gives the info block, and records are read one after the other until the page
holds no more or the item count is reached. This file places every read at a position of its
own instead.

With `P` records to a page, record `i` lies on the `i / P`-th page the header names, at
`offset + (infoSize if i < P) + (i % P) * size`; the info block lies at `offset` of the first
page. `Collection.placed` reads each of these windows in turn, page by page, so that its first
fault is the first fault of the cursor. The main result, `decode_eq_placed`, is that the cursor
and the placed reads agree for every header and every pool, whenever the info block is read in
exactly `infoSize` bytes: on every success, with the same records, and on every failure, with
the same fault. `slab_decoders_eq_placed` applies it to node tables and to both kinds of slot
vector.
-/

namespace SlabLedger

/-- The `len` bytes of a page from `start` on; a page too short for them gives the fault of a
read of `len` bytes from what is left of the page. -/
def window (page : Bytes) (start len : Nat) : Except Fault Bytes :=
  if start + len ≤ page.length then .ok ((page.drop start).take len)
  else .error (.truncated len (page.length - start))

theorem mapM_congr_mem {ε β γ : Type} {f g : β → Except ε γ} :
    ∀ {l : List β}, (∀ x ∈ l, f x = g x) → l.mapM f = l.mapM g
  | [], _ => rfl
  | a :: l, h => by
    have htail : l.mapM f = l.mapM g :=
      mapM_congr_mem fun x hx => h x (List.mem_cons_of_mem a hx)
    rw [List.mapM_cons, List.mapM_cons, h a List.mem_cons_self, htail]

theorem length_of_mapM_ok {ε β γ : Type} {f : β → Except ε γ} :
    ∀ {l : List β} {xs : List γ}, l.mapM f = .ok xs → xs.length = l.length
  | [], xs, h => by
    cases h
    rfl
  | a :: l, xs, h => by
    rw [List.mapM_cons] at h
    cases ha : f a with
    | error e => rw [ha] at h; cases h
    | ok y =>
      cases hl : l.mapM f with
      | error e => rw [ha, hl] at h; cases h
      | ok ys =>
        rw [ha, hl] at h
        cases h
        rw [List.length_cons, List.length_cons, length_of_mapM_ok hl]

namespace Collection

variable {ι α : Type}

/-- Where record `i` starts on its page: after the offset, after the info block on the first
page, and after the records before it on the same page. -/
def recordStart (fmt : RecordFormat ι α) (infoSize perPage offset i : Nat) : Nat :=
  offset + (if i < perPage then infoSize else 0) + i % perPage * fmt.size

/-- Reads record `i` at its place. Before the first record of every page but the first, the
offset of that page is passed. -/
def placeRecord (fmt : RecordFormat ι α) (infoSize perPage offset : Nat)
    (page : Nat → Bytes) (i : Nat) : Except Fault α := do
  if 0 < i ∧ i % perPage = 0 then discard (window (page i) 0 offset)
  let bytes ← window (page i) (recordStart fmt infoSize perPage offset i) fmt.size
  fmt.readRecord i bytes

/-- Records `base`, `base + 1`, ... read one after the other from the bytes of a page, the first
at `start`. -/
def pageRecords (fmt : RecordFormat ι α) (p : Bytes) (start base m : Nat) :
    Except Fault (List α) :=
  (List.range m).mapM fun j =>
    window p (start + j * fmt.size) fmt.size >>= fmt.readRecord (base + j)

/-- The collection a header describes, each read at its place: the offset and the info block of
the first page, then every record in table order. -/
def placed (fmt : RecordFormat ι α) (infoSize : Nat) (h : Header) (pool : PagePool) :
    Except Fault (Collection ι α) := do
  let used ← h.usedPages fmt.size
  let perPage ← h.itemsPerPage fmt.size
  let offset := h.offsetSize.toNat
  let page (i : Nat) : Bytes := pool.pages.getD (used.getD (i / perPage) 0).toNat []
  if h.itemCount.toNat = 0 then return ⟨fmt.emptyInfo, #[]⟩
  discard (window (page 0) 0 offset)
  let info ← fmt.readInfo.parse ((page 0).drop offset)
  let records ← (List.range h.itemCount.toNat).mapM
    (placeRecord fmt infoSize perPage offset page)
  return ⟨info, records.toArray⟩

/-! ## Windows and the cursor -/

theorem window_drop {len : Nat} (hlen : 0 < len) (p : Bytes) (a d : Nat) :
    window (p.drop a) d len = window p (a + d) len := by
  unfold window
  simp only [List.length_drop, List.drop_drop, Nat.sub_sub]
  by_cases hfit : a + d + len ≤ p.length
  · rw [if_pos (by omega), if_pos hfit]
  · rw [if_neg (by omega), if_neg hfit]

/-- Taking `len` bytes at the cursor reads the window where the cursor stands. -/
theorem take_run_drop {len : Nat} (hlen : 0 < len) (p : Bytes) (a : Nat) :
    (Decoder.take len).run (p.drop a) =
      (fun b => (b, p.drop (a + len))) <$> window p a len := by
  rw [Decoder.take_run, window]
  by_cases hfit : a + len ≤ p.length
  · rw [if_pos (by simp; omega), if_pos hfit, List.drop_drop]
    rfl
  · rw [if_neg (by simp; omega), if_neg hfit]
    simp [Functor.map, Except.map]

theorem skip_run_eq (p : Bytes) (n : Nat) :
    (Decoder.skip n).run p = (fun _ => ((), p.drop n)) <$> window p 0 n := by
  rw [Decoder.skip_run, window]
  by_cases hfit : n ≤ p.length
  · rw [if_pos hfit, if_pos (by omega)]
    rfl
  · rw [if_neg hfit, if_neg (by omega)]
    simp [Functor.map, Except.map]

theorem pageRecords_drop {fmt : RecordFormat ι α} (hS : 0 < fmt.size) (p : Bytes)
    (a start base m : Nat) :
    pageRecords fmt (p.drop a) start base m = pageRecords fmt p (a + start) base m := by
  simp only [pageRecords, window_drop hS, Nat.add_assoc]

theorem readRecords_succ_run {fmt : RecordFormat ι α} {count k : Nat} {acc : Array α}
    (hlt : acc.size < count) (r : Bytes) :
    (readRecords fmt count (k + 1) acc).run r =
      (Decoder.take fmt.size).run r >>= fun p =>
        fmt.readRecord acc.size p.1 >>= fun x =>
          (readRecords fmt count k (acc.push x)).run p.2 := by
  rw [readRecords, if_neg (Nat.ne_of_lt hlt)]
  simp only [StateT.run_bind, StateT.run_monadLift, monadLift_self, bind_pure_comp,
    bind_map_left]

/-- The cursor reads the records that are still missing, up to `k` of them, one window after the
other from the front of its input. -/
theorem readRecords_run {fmt : RecordFormat ι α} (hS : 0 < fmt.size) {count : Nat} (k : Nat)
    (acc : Array α) (hacc : acc.size ≤ count) (r : Bytes) :
    (readRecords fmt count k acc).run r =
      (fun rs => (acc ++ rs.toArray, r.drop (min k (count - acc.size) * fmt.size))) <$>
        pageRecords fmt r 0 acc.size (min k (count - acc.size)) := by
  induction k generalizing acc r with
  | zero => simp [readRecords, pageRecords]
  | succ k ih =>
    by_cases hfull : acc.size = count
    · rw [readRecords, if_pos hfull]
      simp [hfull, pageRecords]
    have hlt : acc.size < count := by omega
    have hm : min (k + 1) (count - acc.size) = min k (count - (acc.size + 1)) + 1 := by omega
    have htake := take_run_drop hS r 0
    rw [List.drop_zero, Nat.zero_add] at htake
    rw [readRecords_succ_run hlt, hm, pageRecords, List.range_succ_eq_map, List.mapM_cons,
      List.mapM_map, htake, Nat.zero_mul, Nat.add_zero]
    cases hw : window r 0 fmt.size with
    | error e => simp
    | ok b =>
      cases hx : fmt.readRecord acc.size b with
      | error e => simp [hx]
      | ok x =>
        have hrest : (fun j => window (r.drop fmt.size) (0 + j * fmt.size) fmt.size >>=
              fmt.readRecord ((acc.push x).size + j)) =
            (fun j => window r (0 + j * fmt.size) fmt.size >>= fmt.readRecord (acc.size + j)) ∘
              Nat.succ := by
          funext j
          rw [Function.comp_apply, window_drop hS, Array.size_push, Nat.succ_mul,
            Nat.zero_add, Nat.zero_add, Nat.add_comm fmt.size, Nat.add_assoc, Nat.add_comm 1 j]
        simp only [Except.map_ok, Except.ok_bind, Nat.add_zero, hx]
        rw [ih (acc.push x) (by rw [Array.size_push]; omega), pageRecords, hrest,
          Array.size_push, bind_pure_comp, Functor.map_map]
        congr 1
        funext rs
        simp only [List.drop_drop, Nat.succ_mul, Nat.add_comm fmt.size]
        simp

/-- One page read by the cursor: the offset is passed, the info block read on the first page,
and then the page's records, each in its window. -/
theorem readPage_parse {fmt : RecordFormat ι α} {M : Nat} (hS : 0 < fmt.size)
    (hinfo : fmt.readInfo.Consumes M) (L : PageLayout) (first : Bool) (info : ι)
    (acc : Array α) (hacc : acc.size ≤ L.count) (p : Bytes) :
    Decoder.parse (readPage fmt L first info acc) p =
      window p 0 L.offset >>= fun _ =>
        (if first then fmt.readInfo.parse (p.drop L.offset) else pure info) >>= fun info' =>
          (fun rs => (info', acc ++ rs.toArray)) <$>
            pageRecords fmt p (L.offset + if first then M else 0) acc.size
              (min L.perPage (L.count - acc.size)) := by
  unfold readPage Decoder.parse
  simp only [StateT.run_bind, skip_run_eq]
  cases hw : window p 0 L.offset with
  | error e => simp
  | ok u =>
    simp only [Except.map_ok, Except.ok_bind]
    cases first with
    | false =>
      simp only [Bool.false_eq_true, if_false, pure_bind, StateT.run_bind,
        readRecords_run hS _ acc hacc, pageRecords_drop hS, Nat.add_zero]
      generalize (pageRecords _ _ _ _ _ : Except Fault (List α)) = records
      cases records <;> rfl
    | true =>
      simp only [if_true, StateT.run_bind]
      cases hrun : fmt.readInfo.run (p.drop L.offset) with
      | error e => rfl
      | ok q =>
        obtain ⟨info', r⟩ := q
        have hr : r = p.drop (L.offset + M) := by
          rw [hinfo _ _ _ hrun, List.drop_drop]
        subst hr
        simp only [Except.map_ok, Except.ok_bind, readRecords_run hS _ acc hacc,
          pageRecords_drop hS, Nat.add_zero]
        generalize (pageRecords _ _ _ _ _ : Except Fault (List α)) = records
        cases records <;> rfl

/-! ## The placed reads page by page -/

section Blocks

variable {fmt : RecordFormat ι α} {M P off : Nat} (q : Nat → Bytes)

/-- Record `j` of the `k`-th page, as the placed reads see it. -/
theorem placeRecord_block (hP : 0 < P) (k j : Nat) (hj : j < P) :
    placeRecord fmt M P off (fun i => q (i / P)) (k * P + j) =
      (if 0 < k ∧ j = 0 then discard (window (q k) 0 off) else pure ()) >>= fun _ =>
        window (q k) (off + (if k = 0 then M else 0) + j * fmt.size) fmt.size >>=
          fmt.readRecord (k * P + j) := by
  have hdiv : (k * P + j) / P = k := by
    rw [Nat.add_comm, Nat.add_mul_div_right _ _ hP, Nat.div_eq_of_lt hj, Nat.zero_add]
  have hmod : (k * P + j) % P = j := by
    rw [Nat.add_comm, Nat.add_mul_mod_self_right, Nat.mod_eq_of_lt hj]
  have hfirst : k * P + j < P ↔ k = 0 := by
    rcases k with _ | k
    · simp [hj]
    · simp only [Nat.succ_mul, Nat.add_one_ne_zero, iff_false]
      omega
  have hpass : 0 < k * P + j ∧ j = 0 ↔ 0 < k ∧ j = 0 := by
    constructor
    · rintro ⟨hpos, rfl⟩
      refine ⟨Nat.pos_of_ne_zero ?_, rfl⟩
      rintro rfl
      simp at hpos
    · rintro ⟨hk, rfl⟩
      exact ⟨Nat.mul_pos hk hP, rfl⟩
  simp only [placeRecord, recordStart, hdiv, hmod, hfirst, hpass]
  by_cases hc : 0 < k ∧ j = 0
  · simp only [hc, and_self, if_true]
  · simp only [hc, if_false, pure_bind]

/-- The placed reads of a whole page: on a page after the first, the offset of the page is
checked before its first record. -/
theorem mapM_placeRecord_block (hP : 0 < P) (k m : Nat) (hm : m ≤ P) :
    (List.range' (k * P) m).mapM (placeRecord fmt M P off (fun i => q (i / P))) =
      (if 0 < k ∧ 0 < m then discard (window (q k) 0 off) else pure ()) >>= fun _ =>
        pageRecords fmt (q k) (off + if k = 0 then M else 0) (k * P) m := by
  cases m with
  | zero => simp [pageRecords]
  | succ m =>
    have hblock : ∀ j ∈ List.range (m + 1),
        (placeRecord fmt M P off (fun i => q (i / P)) ∘ (k * P + ·)) j =
          (if 0 < k ∧ j = 0 then discard (window (q k) 0 off) else pure ()) >>= fun _ =>
            window (q k) (off + (if k = 0 then M else 0) + j * fmt.size) fmt.size >>=
              fmt.readRecord (k * P + j) := by
      intro j hj
      rw [List.mem_range] at hj
      exact placeRecord_block q hP k j (by omega)
    rw [List.range'_eq_map_range, List.mapM_map, mapM_congr_mem hblock, pageRecords,
      List.range_succ_eq_map, List.mapM_cons, List.mapM_cons, List.mapM_map, List.mapM_map]
    by_cases hk : 0 < k
    · simp [hk, Function.comp_def]
    · simp [hk]

/-- The cursor over the pages after the first, `t` of them from the `k`-th page on, reads the
records from the `k`-th page on as the placed reads do. -/
theorem readPages_later (hS : 0 < fmt.size) (hinfo : fmt.readInfo.Consumes M) (hP : 0 < P)
    (n : Nat) (info : ι) (t : Nat) :
    ∀ k (acc : Array α), 0 < k → acc.size = k * P → k * P ≤ n →
      n - k * P ≤ t * P → t * P < n - k * P + P →
      readPages fmt ⟨P, off, n⟩ false ((List.range' k t).map q) (info, acc) =
        (fun rs => (info, acc ++ rs.toArray)) <$>
          (List.range' (k * P) (n - k * P)).mapM
            (placeRecord fmt M P off (fun i => q (i / P))) := by
  induction t with
  | zero =>
    intro k acc hk hacc hkn hle hlt
    have hend : n - k * P = 0 := by omega
    simp [readPages, hend]
    rfl
  | succ t ih =>
    intro k acc hk hacc hkn hle hlt
    rw [Nat.succ_mul] at hle hlt
    obtain ⟨m, hm⟩ : ∃ m, m = min P (n - k * P) := ⟨_, rfl⟩
    have hsplit : List.range' (k * P) (n - k * P) =
        List.range' (k * P) m ++ List.range' (k * P + m) (n - k * P - m) := by
      rw [List.range'_append_1]
      congr 1
      omega
    rw [List.range'_succ, List.map_cons, readPages,
      readPage_parse hS hinfo _ false info acc (by dsimp only; omega), hsplit, List.mapM_append,
      mapM_placeRecord_block q hP k m (by omega)]
    have hpass : 0 < k ∧ 0 < m := ⟨hk, by omega⟩
    have hk0 : k ≠ 0 := by omega
    simp only [Bool.false_eq_true, if_false, Nat.add_zero, pure_bind, hacc, ← hm, hpass,
      and_self, if_true, hk0]
    cases hw : window (q k) 0 off with
    | error e => rfl
    | ok u =>
      cases hr : pageRecords fmt (q k) off (k * P) m with
      | error e => simp
      | ok rs =>
        simp only [Except.ok_bind, Except.map_ok, Except.discard_ok]
        rcases t with _ | t
        · have hrest : n - k * P - m = 0 := by omega
          simp [hrest, readPages]
          rfl
        · rw [Nat.succ_mul] at hle hlt
          have hfull : m = P := by omega
          have hlen : rs.length = m := by
            rw [length_of_mapM_ok hr, List.length_range]
          have hnext := ih (k + 1) (acc ++ rs.toArray) (Nat.succ_pos k)
            (by rw [Array.size_append, hacc, List.size_toArray, hlen, hfull, Nat.succ_mul])
            (by simp only [Nat.succ_mul]; omega) (by simp only [Nat.succ_mul]; omega)
            (by simp only [Nat.succ_mul]; omega)
          rw [hnext, hfull, ← Nat.succ_mul, Nat.sub_sub, ← Nat.succ_mul]
          generalize (List.mapM _ _ : Except Fault (List α)) = rest
          cases rest <;> simp

/-- The cursor over all the pages, from the first. -/
theorem readPages_first (hS : 0 < fmt.size) (hinfo : fmt.readInfo.Consumes M) (hP : 0 < P)
    (n t : Nat) (hn : 0 < n) (hle : n ≤ t * P) (hlt : t * P < n + P) :
    readPages fmt ⟨P, off, n⟩ true ((List.range t).map q) (fmt.emptyInfo, #[]) =
      window (q 0) 0 off >>= fun _ =>
        fmt.readInfo.parse ((q 0).drop off) >>= fun info =>
          (fun rs => (info, rs.toArray)) <$>
            (List.range n).mapM (placeRecord fmt M P off (fun i => q (i / P))) := by
  obtain ⟨t, rfl⟩ : ∃ t', t = t' + 1 := ⟨t - 1, by rcases t with _ | t <;> simp at hle ⊢; omega⟩
  rw [Nat.succ_mul] at hle hlt
  obtain ⟨m, hm⟩ : ∃ m, m = min P n := ⟨_, rfl⟩
  have hsplit : List.range n = List.range' (0 * P) m ++ List.range' (0 * P + m) (n - m) := by
    rw [List.range'_append_1, Nat.zero_mul, List.range_eq_range']
    congr 1
    omega
  rw [List.range_eq_range', List.range'_succ, List.map_cons, readPages,
    readPage_parse hS hinfo _ true _ #[] (Nat.zero_le _), hsplit, List.mapM_append,
    mapM_placeRecord_block q hP 0 m (by omega)]
  simp only [if_true, Array.size_empty, Nat.sub_zero, Array.empty_append, Nat.zero_mul,
    Nat.lt_irrefl, false_and, if_false, pure_bind, ← hm, Nat.zero_add]
  cases hw : window (q 0) 0 off with
  | error e => rfl
  | ok u =>
    cases hi : fmt.readInfo.parse ((q 0).drop off) with
    | error e => rfl
    | ok info =>
      cases hr : pageRecords fmt (q 0) (off + M) 0 m with
      | error e => simp
      | ok rs =>
        simp only [Except.ok_bind, Except.map_ok]
        rcases t with _ | t
        · have hrest : n - m = 0 := by omega
          simp [hrest, readPages]
          rfl
        · rw [Nat.succ_mul] at hle hlt
          have hfull : m = P := by omega
          have hlen : rs.length = m := by
            rw [length_of_mapM_ok hr, List.length_range]
          rw [readPages_later q hS hinfo hP n info (t + 1) 1 rs.toArray Nat.one_pos
            (by rw [List.size_toArray, hlen, hfull, Nat.one_mul])
            (by omega) (by simp only [Nat.succ_mul]; omega) (by simp only [Nat.succ_mul]; omega),
            Nat.one_mul, hfull]
          generalize (List.mapM _ _ : Except Fault (List α)) = rest
          cases rest <;> simp

end Blocks

end Collection

/-! ## What a valid header gives -/

namespace Header

variable {h : Header} {S P : Nat}

theorem itemsPerPage_pos (hper : h.itemsPerPage S = .ok P) : 0 < P := by
  unfold itemsPerPage at hper
  cases hr : h.reserved with
  | error e => rw [hr] at hper; cases hper
  | ok r =>
    rw [hr, Except.ok_bind] at hper
    dsimp only at hper
    split at hper
    · cases hper
    · rename_i hper_ne
      cases hper
      exact Nat.pos_of_ne_zero hper_ne

/-- A header that leaves room for a record has an offset within the page. -/
theorem pagePrefix_of_itemsPerPage (hper : h.itemsPerPage S = .ok P) :
    h.pagePrefix = .ok h.offsetSize.toNat := by
  unfold itemsPerPage at hper
  cases hr : h.reserved with
  | error e => rw [hr] at hper; cases hper
  | ok r =>
    unfold reserved at hr
    dsimp only at hr
    split at hr
    · rw [pagePrefix, if_pos (by omega)]
    · cases hr

theorem checkIndices_lt : ∀ {p : Nat} {seen : List UInt16} {l : List UInt16},
    checkIndices p seen l = .ok () → ∀ u ∈ l, u.toNat < regionPages
  | _, _, [], _ => by simp
  | p, seen, i :: rest, hc => by
    unfold checkIndices at hc
    split at hc
    · cases hc
    split at hc
    · cases hc
    intro u hu
    rcases List.mem_cons.mp hu with rfl | hu
    · omega
    · exact checkIndices_lt hc u hu

/-- The pages a header uses: as many as its items need, each one of the region's. -/
theorem usedPages_ok {used : List UInt16} (hu : h.usedPages S = .ok used) :
    ∃ P, h.itemsPerPage S = .ok P ∧ used.length = (h.itemCount.toNat + P - 1) / P ∧
      ∀ u ∈ used, u.toNat < regionPages := by
  unfold usedPages totalPages at hu
  cases hper : h.itemsPerPage S with
  | error e => rw [hper] at hu; cases hu
  | ok P =>
    rw [hper, Except.ok_bind] at hu
    dsimp only at hu
    split at hu
    · cases hu
    rename_i hfit
    rw [pure_bind] at hu
    cases hc : checkIndices 0 [] (h.pageIndices.take ((h.itemCount.toNat + P - 1) / P)) with
    | error e => rw [hc] at hu; cases hu
    | ok u =>
      rw [hc, Except.ok_bind] at hu
      cases hu
      refine ⟨P, rfl, ?_, checkIndices_lt hc⟩
      rw [List.length_take, h.pageIndices_length]
      omega

end Header

theorem PagePool.mapM_page (pool : PagePool) :
    ∀ {l : List UInt16}, (∀ u ∈ l, u.toNat < regionPages) →
      l.mapM pool.page = .ok (l.map fun u => pool.pages.getD u.toNat [])
  | [], _ => rfl
  | u :: l, hl => by
    have hu : u.toNat < pool.pages.length := by
      rw [pool.pages_length]
      exact hl u List.mem_cons_self
    have hpage : pool.page u = .ok (pool.pages.getD u.toNat []) := by
      rw [PagePool.page, List.getD_eq_getElem?_getD, List.getElem?_eq_getElem hu]
      rfl
    rw [List.mapM_cons, hpage, mapM_page pool fun v hv => hl v (List.mem_cons_of_mem u hv)]
    rfl

end SlabLedger

namespace SlabLedger

/-! ## The cursor reads the placed windows -/

namespace Collection

variable {ι α : Type}

/-- The cursor and the placed reads agree on every header and every pool, for every format whose
records take some bytes and whose info block is read in exactly `infoSize` bytes. -/
theorem decode_eq_placed {fmt : RecordFormat ι α} {M : Nat} (hS : 0 < fmt.size)
    (hinfo : fmt.readInfo.Consumes M) (h : Header) (pool : PagePool) :
    decode fmt h pool = placed fmt M h pool := by
  unfold decode placed PagePool.select
  cases hu : h.usedPages fmt.size with
  | error e => rfl
  | ok used =>
    obtain ⟨P, hper, hlen, hlt⟩ := Header.usedPages_ok hu
    have hP := Header.itemsPerPage_pos hper
    let q (k : Nat) : Bytes := pool.pages.getD (used.getD k 0).toNat []
    have hpages : used.map (fun u => pool.pages.getD u.toNat []) =
        (List.range used.length).map q := by
      apply List.ext_getElem (by simp)
      intro i h₁ h₂
      simp [q, List.getD_eq_getElem?_getD, List.getElem?_eq_getElem (by simpa using h₁)]
    have hfill : used.length * P ≤ h.itemCount.toNat + P - 1 := by
      rw [hlen]
      exact Nat.div_mul_le_self _ _
    have hcover : h.itemCount.toNat + P - 1 < used.length * P + P := by
      rw [hlen]
      exact Nat.lt_div_mul_add hP
    simp only [hper, Header.pagePrefix_of_itemsPerPage hper, PagePool.mapM_page pool hlt, hpages,
      Except.ok_bind]
    by_cases hn : h.itemCount.toNat = 0
    · have hnone : used.length = 0 := by
        rw [hlen, hn, Nat.zero_add]
        exact Nat.div_eq_of_lt (Nat.sub_lt hP Nat.one_pos)
      rw [if_pos hn, hnone, hn]
      rfl
    · rw [if_neg hn,
        readPages_first q hS hinfo hP _ _ (Nat.pos_of_ne_zero hn) (by omega) (by omega)]
      simp only [q, Nat.zero_div]
      generalize window _ 0 h.offsetSize.toNat = offsetCheck
      generalize fmt.readInfo.parse _ = info
      generalize (List.mapM _ _ : Except Fault (List α)) = records
      cases offsetCheck <;> cases info <;> cases records <;> rfl

/-- A placed collection holds exactly as many records as its header counts. -/
theorem placed_records_size {fmt : RecordFormat ι α} {M : Nat} {h : Header} {pool : PagePool}
    {c : Collection ι α} (hc : placed fmt M h pool = .ok c) :
    c.records.size = h.itemCount.toNat := by
  unfold placed at hc
  cases hu : h.usedPages fmt.size with
  | error e => rw [hu] at hc; cases hc
  | ok used =>
    cases hper : h.itemsPerPage fmt.size with
    | error e => rw [hu, Except.ok_bind, hper] at hc; cases hc
    | ok P =>
      rw [hu, Except.ok_bind, hper, Except.ok_bind] at hc
      by_cases hn : h.itemCount.toNat = 0
      · rw [if_pos hn] at hc
        cases hc
        rw [hn]
        rfl
      · rw [if_neg hn] at hc
        generalize window _ 0 _ = offsetCheck at hc
        generalize fmt.readInfo.parse _ = info at hc
        generalize hrecords : (List.mapM _ _ : Except Fault (List α)) = records at hc
        cases offsetCheck <;> cases info <;> cases records <;> cases hc
        rw [List.size_toArray, length_of_mapM_ok hrecords, List.length_range]

/-- A value made of a placed collection holds exactly as many records as its header counts. -/
theorem size_of_map_placed {fmt : RecordFormat ι α} {M : Nat} {h : Header} {pool : PagePool}
    {β : Type} {g : Collection ι α → β} (size : β → Nat) (hg : ∀ c, size (g c) = c.records.size)
    {b : β} (hb : g <$> placed fmt M h pool = .ok b) : size b = h.itemCount.toNat := by
  cases hc : placed fmt M h pool with
  | error e => rw [hc] at hb; cases hb
  | ok c =>
    rw [hc] at hb
    cases hb
    rw [hg, placed_records_size hc]

end Collection

/-- Node tables and slot vectors are read at their places: a tree's info block takes 32 bytes
and its nodes 56, a slot vector's info block takes 8 bytes, its order slots 32 and its balance
slots 24. What is read holds exactly as many records as the header counts. -/
theorem slab_decoders_eq_placed (h : Header) (pool : PagePool) :
    Tree.decode h pool =
        (fun c => ⟨c.info, c.records⟩) <$> Collection.placed Tree.format 32 h pool ∧
      SlotVector.decode OrderSlot.format h pool =
        (fun c => ⟨c.info, c.records⟩) <$> Collection.placed OrderSlot.format 8 h pool ∧
      SlotVector.decode BalanceSlot.format h pool =
        (fun c => ⟨c.info, c.records⟩) <$> Collection.placed BalanceSlot.format 8 h pool ∧
      (∀ t, Tree.decode h pool = .ok t → t.nodes.size = h.itemCount.toNat) ∧
      (∀ v, SlotVector.decode OrderSlot.format h pool = .ok v →
        v.records.size = h.itemCount.toNat) ∧
      (∀ v, SlotVector.decode BalanceSlot.format h pool = .ok v →
        v.records.size = h.itemCount.toNat) := by
  have htree : Tree.decode h pool =
      (fun c => ⟨c.info, c.records⟩) <$> Collection.placed Tree.format 32 h pool := by
    rw [Tree.decode, Collection.decode_eq_placed (by decide) TreeInfo.read_reads.consumes,
      bind_pure_comp]
  have horders : SlotVector.decode OrderSlot.format h pool =
      (fun c => ⟨c.info, c.records⟩) <$> Collection.placed OrderSlot.format 8 h pool := by
    rw [SlotVector.decode, Collection.decode_eq_placed (by decide) VectorInfo.read_reads.consumes,
      bind_pure_comp]
  have hbalances : SlotVector.decode BalanceSlot.format h pool =
      (fun c => ⟨c.info, c.records⟩) <$> Collection.placed BalanceSlot.format 8 h pool := by
    rw [SlotVector.decode, Collection.decode_eq_placed (by decide) VectorInfo.read_reads.consumes,
      bind_pure_comp]
  refine ⟨htree, horders, hbalances, fun t ht => ?_, fun v hv => ?_, fun v hv => ?_⟩
  · rw [htree] at ht
    exact Collection.size_of_map_placed (fun t : Tree => t.nodes.size) (fun _ => rfl) ht
  · rw [horders] at hv
    exact Collection.size_of_map_placed (fun v : SlotVector OrderSlot => v.records.size)
      (fun _ => rfl) hv
  · rw [hbalances] at hv
    exact Collection.size_of_map_placed (fun v : SlotVector BalanceSlot => v.records.size)
      (fun _ => rfl) hv

end SlabLedger
