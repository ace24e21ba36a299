import SlabLedger.Proofs.Slab.Faults
import SlabLedger.Market.Book
import SlabLedger.Market.Settlement

/-!
# The bytes an account decode reads

An order book account is a version and four headers, 226 bytes, then six pages; a settlement log
account is three addresses, six reserved bytes and as many headers as the configuration says,
then six pages. Nothing else is read. The front is read field by field at fixed places
(`Decoder.Reads`), and the region is cut into its six pages with the bytes after them ignored
(`PagePool.ofRegion_take`). So a decode depends only on a fixed prefix of its blob
(`BookSlab.decode_take`, `LogSlab.decode_take`), and bytes appended to a blob that holds the
whole prefix change nothing.

A shorter blob fails: as a record cut short while its front is read, or else with a page region
of fewer than six pages. On a blob long enough, the decode is stated by places: the headers are
read at fixed offsets and the pages start right after them.
-/

namespace SlabLedger

/-! ## Pages -/

namespace PagePool

/-- Only the first six pages of a region are read. -/
theorem ofRegion_take (region : Bytes) :
    ofRegion (region.take (regionPages * pageSize)) = ofRegion region := by
  by_cases hlen : regionPages * pageSize ≤ region.length
  · have hlong : Bytes.hasAtLeast (regionPages * pageSize)
        (region.take (regionPages * pageSize)) = true := by simp; omega
    unfold ofRegion
    rw [dif_pos hlong, dif_pos (by simpa using hlen)]
    congr 2
    refine List.map_congr_left fun k hk => ?_
    rw [List.mem_range] at hk
    have hend : pageSize ≤ regionPages * pageSize - k * pageSize := by
      unfold regionPages pageSize at *
      omega
    rw [List.drop_take, List.take_take, Nat.min_eq_left hend]
  · rw [List.take_of_length_le (by omega)]

theorem ofRegion_of_le {region : Bytes} (h : regionPages * pageSize ≤ region.length) :
    ∃ pool, ofRegion region = .ok pool ∧
      pool.pages =
        (List.range regionPages).map fun k => (region.drop (k * pageSize)).take pageSize :=
  ⟨_, dif_pos (by simpa using h), rfl⟩

theorem ofRegion_of_lt {region : Bytes} (h : region.length < regionPages * pageSize) :
    ofRegion region = .error (.layout (.shortRegion region.length)) :=
  dif_neg (by simpa using h)

end PagePool

/-! ## Fronts -/

namespace DecoderConfig

theorem validate_ok_iff (c : DecoderConfig) :
    c.validate = .ok () ↔
      2 ≤ c.settlementHeaderSlots ∧ c.settlementHeaderSlots ≤ 16 ∧ 0 < c.maxChainLen := by
  unfold validate
  split
  · next hslots => simp only [reduceCtorEq, false_iff]; omega
  · next hslots =>
    split
    · next hlimit => simp only [reduceCtorEq, false_iff]; omega
    · next hlimit => simp only [true_iff]; omega

end DecoderConfig

namespace BookSlab

theorem readFront_reads : readFront.Reads 226 :=
  Decoder.u16_reads.bind fun _ => Header.read_reads.bind fun _ => Header.read_reads.bind fun _ =>
    Header.read_reads.bind fun _ => Header.read_reads.bind fun _ => Decoder.pure_reads _

/-- The front of a book: the version, then the four headers one after the other. -/
theorem readFront_run {blob : Bytes} (h : 226 ≤ blob.length) :
    ∃ version hBidTree hAskTree hBidOrders hAskOrders,
      readFront.run blob =
          .ok ((version, hBidTree, hAskTree, hBidOrders, hAskOrders), blob.drop 226) ∧
        Decoder.u16.parse blob = .ok version ∧
        (List.range 4).mapM (fun i => Header.read.parse (blob.drop (2 + 56 * i))) =
          .ok [hBidTree, hAskTree, hBidOrders, hAskOrders] := by
  obtain ⟨version, hv, -⟩ := Decoder.u16_reads.run_of_le (show 2 ≤ blob.length by omega)
  obtain ⟨h₀, hh₀, -⟩ := Header.read_reads.run_of_le
    (show 56 ≤ (blob.drop 2).length by simp; omega)
  obtain ⟨h₁, hh₁, -⟩ := Header.read_reads.run_of_le
    (show 56 ≤ (blob.drop 58).length by simp; omega)
  obtain ⟨h₂, hh₂, -⟩ := Header.read_reads.run_of_le
    (show 56 ≤ (blob.drop 114).length by simp; omega)
  obtain ⟨h₃, hh₃, -⟩ := Header.read_reads.run_of_le
    (show 56 ≤ (blob.drop 170).length by simp; omega)
  simp only [List.drop_drop, Nat.reduceAdd] at hh₀ hh₁ hh₂ hh₃
  refine ⟨version, h₀, h₁, h₂, h₃, ?_, Decoder.parse_of_run hv, ?_⟩
  · simp only [readFront, StateT.run_bind, hv, hh₀, hh₁, hh₂, hh₃, Except.ok_bind]
    rfl
  · simp only [List.range_succ, List.range_zero, List.nil_append, List.cons_append,
      List.mapM_cons, List.mapM_nil, Nat.mul_zero, Nat.mul_one, Nat.reduceMul, Nat.reduceAdd,
      Decoder.parse_of_run hh₀, Decoder.parse_of_run hh₁, Decoder.parse_of_run hh₂,
      Decoder.parse_of_run hh₃, Except.ok_bind]
    rfl

/-- A book account reads no byte past its front and six pages. -/
theorem decode_take (blob : Bytes) :
    decode (blob.take (226 + regionPages * pageSize)) = decode blob := by
  by_cases hfront : 226 ≤ blob.length
  · obtain ⟨front, hrun, hpre⟩ := readFront_reads.run_of_le hfront
    have hcut : blob.take (226 + regionPages * pageSize) =
        blob.take 226 ++ (blob.drop 226).take (regionPages * pageSize) := List.take_add
    obtain ⟨version, hBidTree, hAskTree, hBidOrders, hAskOrders⟩ := front
    simp only [decode, hcut, hpre, hrun, Except.ok_bind, PagePool.ofRegion_take]
  · rw [List.take_of_length_le (by omega)]

theorem decode_append {blob : Bytes} (h : 226 + regionPages * pageSize ≤ blob.length)
    (rest : Bytes) : decode (blob ++ rest) = decode blob := by
  rw [← decode_take (blob ++ rest), List.take_append_of_le_length h, decode_take]

/-- A blob shorter than the front is cut short while the front is read. -/
theorem decode_of_lt_front {blob : Bytes} (h : blob.length < 226) :
    ∃ n r, decode blob = .error (.truncated n r) := by
  obtain ⟨n, r, hshort⟩ := readFront_reads.short blob h
  exact ⟨n, r, by simp only [decode, hshort, Except.error_bind]⟩

/-- A blob that holds the front but not six pages after it has too short a page region. -/
theorem decode_of_lt_region {blob : Bytes} (h₁ : 226 ≤ blob.length)
    (h₂ : blob.length < 226 + regionPages * pageSize) :
    decode blob = .error (.layout (.shortRegion (blob.length - 226))) := by
  obtain ⟨front, hrun, -⟩ := readFront_reads.run_of_le h₁
  obtain ⟨version, hBidTree, hAskTree, hBidOrders, hAskOrders⟩ := front
  have hregion : (blob.drop 226).length < regionPages * pageSize := by
    rw [List.length_drop]
    omega
  simp only [decode, hrun, Except.ok_bind, PagePool.ofRegion_of_lt hregion, List.length_drop,
    Except.error_bind]

/-- One side of a book read on its own: its tree, then its order slots. -/
def readSide (hTree hOrders : Header) (pool : PagePool) :
    Except Fault (Tree × SlotVector OrderSlot) := do
  let tree ← Tree.decode hTree pool
  let orders ← SlotVector.decode OrderSlot.format hOrders pool
  pure (tree, orders)

/-- The two sides of a book read apart and then joined; when both fail, the bid side's fault is
the one given. -/
def joinSides (version : UInt16) (hBidTree hAskTree hBidOrders hAskOrders : Header) :
    Except Fault (Tree × SlotVector OrderSlot) → Except Fault (Tree × SlotVector OrderSlot) →
      Except Fault BookSlab
  | .error e, _ => .error e
  | .ok _, .error e => .error e
  | .ok (bidTree, bidOrders), .ok (askTree, askOrders) =>
    .ok { version, bidTreeHeader := hBidTree, askTreeHeader := hAskTree,
          bidOrdersHeader := hBidOrders, askOrdersHeader := hAskOrders,
          bidTree, askTree, bidOrders, askOrders }

/-- On a blob that holds the front and six pages, the version is read at byte 0, the headers at
bytes 2, 58, 114 and 170, the pages from byte 226 on, and the book is the bid side (tree of
header 0, order slots of header 2) joined with the ask side (headers 1 and 3). -/
theorem decode_eq_joinSides {blob : Bytes} (h : 226 + regionPages * pageSize ≤ blob.length) :
    ∃ version hBidTree hAskTree hBidOrders hAskOrders pool,
      Decoder.u16.parse blob = .ok version ∧
      (List.range 4).mapM (fun i => Header.read.parse (blob.drop (2 + 56 * i))) =
        .ok [hBidTree, hAskTree, hBidOrders, hAskOrders] ∧
      pool.pages = (List.range regionPages).map
        (fun k => (blob.drop (226 + k * pageSize)).take pageSize) ∧
      decode blob = joinSides version hBidTree hAskTree hBidOrders hAskOrders
        (readSide hBidTree hBidOrders pool) (readSide hAskTree hAskOrders pool) := by
  obtain ⟨version, hBidTree, hAskTree, hBidOrders, hAskOrders, hrun, hversion, hheaders⟩ :=
    readFront_run (show 226 ≤ blob.length by omega)
  obtain ⟨pool, hpool, hpages⟩ :=
    PagePool.ofRegion_of_le (show regionPages * pageSize ≤ (blob.drop 226).length by
      rw [List.length_drop]
      omega)
  refine ⟨version, hBidTree, hAskTree, hBidOrders, hAskOrders, pool, hversion, hheaders, ?_, ?_⟩
  · simp only [hpages, List.drop_drop]
  · simp only [decode, hrun, Except.ok_bind, hpool, readSide]
    cases Tree.decode hBidTree pool with
    | error e => rfl
    | ok bidTree =>
      cases SlotVector.decode OrderSlot.format hBidOrders pool with
      | error e => rfl
      | ok bidOrders =>
        cases Tree.decode hAskTree pool with
        | error e => rfl
        | ok askTree =>
          cases SlotVector.decode OrderSlot.format hAskOrders pool with
          | error e => rfl
          | ok askOrders => rfl

end BookSlab

namespace LogSlab

theorem readFront_reads {slots : Nat} (h : 2 ≤ slots) :
    (readFront slots).Reads (102 + 56 * slots) :=
  (Decoder.address_reads.bind fun _ => Decoder.address_reads.bind fun _ =>
    Decoder.address_reads.bind fun _ => (Decoder.skip_reads 6).bind fun _ =>
      Header.read_reads.bind fun _ => Header.read_reads.bind fun _ =>
        (Header.readTable_reads (slots - 2)).bind fun _ => Decoder.pure_reads _).of_eq
    (by omega)

/-- The front of a settlement log: three addresses, six reserved bytes, then the table of
`slots` headers one after the other. -/
theorem readFront_run {slots : Nat} {blob : Bytes} (hslots : 2 ≤ slots)
    (h : 102 + 56 * slots ≤ blob.length) :
    ∃ market prev next hTree hBalances more,
      (readFront slots).run blob =
          .ok ((market, prev, next, hTree, hBalances, more), blob.drop (102 + 56 * slots)) ∧
        Decoder.address.parse blob = .ok market ∧
        Decoder.address.parse (blob.drop 32) = .ok prev ∧
        Decoder.address.parse (blob.drop 64) = .ok next ∧
        (List.range slots).mapM (fun i => Header.read.parse (blob.drop (102 + 56 * i))) =
          .ok (hTree :: hBalances :: more) := by
  obtain ⟨market, hm, -⟩ := Decoder.address_reads.run_of_le (show 32 ≤ blob.length by omega)
  obtain ⟨prev, hp, -⟩ := Decoder.address_reads.run_of_le
    (show 32 ≤ (blob.drop 32).length by simp; omega)
  obtain ⟨next, hn, -⟩ := Decoder.address_reads.run_of_le
    (show 32 ≤ (blob.drop 64).length by simp; omega)
  have hskip : (Decoder.skip 6).run (blob.drop 96) = .ok ((), blob.drop 102) := by
    rw [Decoder.skip_run, if_pos (by simp; omega), List.drop_drop]
  obtain ⟨hTree, ht, -⟩ := Header.read_reads.run_of_le
    (show 56 ≤ (blob.drop 102).length by simp; omega)
  obtain ⟨hBalances, hb, -⟩ := Header.read_reads.run_of_le
    (show 56 ≤ (blob.drop 158).length by simp; omega)
  obtain ⟨more, hmore, hmap⟩ := Decoder.replicate_run Header.read_reads (slots - 2)
    (show (slots - 2) * 56 ≤ (blob.drop 214).length by simp; omega)
  simp only [List.drop_drop, Nat.reduceAdd] at hp hn ht hb hmore
  refine ⟨market, prev, next, hTree, hBalances, more.1, ?_, Decoder.parse_of_run hm,
    Decoder.parse_of_run hp, Decoder.parse_of_run hn, ?_⟩
  · have hwidth : 214 + (slots - 2) * 56 = 102 + 56 * slots := by omega
    simp only [readFront, StateT.run_bind, hm, hp, hn, hskip, ht, hb, Header.readTable,
      StateT.run_map, hmore, Except.ok_bind, hwidth]
    rfl
  · have hrest :
        ((fun i => Header.read.parse (blob.drop (102 + 56 * i))) ∘ Nat.succ ∘ Nat.succ) =
        fun i => Header.read.parse ((blob.drop 214).drop (56 * i)) := by
      funext i
      rw [Function.comp_apply, Function.comp_apply, List.drop_drop]
      congr 2
      omega
    have hrange : List.range slots = List.range (slots - 2 + 2) := by
      rw [Nat.sub_add_cancel hslots]
    rw [hrange, List.range_succ_eq_map, List.range_succ_eq_map,
      List.map_cons, List.map_map, List.mapM_cons, List.mapM_cons, List.mapM_map, hrest, hmap]
    simp only [Nat.mul_zero, Nat.add_zero, Nat.succ_eq_add_one, Nat.zero_add, Nat.mul_one,
      Nat.reduceAdd, Decoder.parse_of_run ht, Decoder.parse_of_run hb, Except.ok_bind]
    rfl

/-- A settlement log under an invalid configuration fails with the configuration's fault,
whatever its bytes. -/
theorem decode_of_invalid {config : DecoderConfig} {e : Fault} (h : config.validate = .error e)
    (blob : Bytes) : decode blob config = .error e := by
  simp only [decode, h, Except.error_bind]

/-- The leaf-count setting plays no part in reading a settlement log. -/
theorem decode_checkLeafCount (blob : Bytes) (config : DecoderConfig) (flag : Bool) :
    decode blob { config with checkLeafCount := flag } = decode blob config :=
  rfl

/-- Under a valid configuration, a settlement log reads no byte past its header table and six
pages. -/
theorem decode_take {config : DecoderConfig} (hvalid : config.validate = .ok ()) (blob : Bytes) :
    decode (blob.take (102 + 56 * config.settlementHeaderSlots + regionPages * pageSize)) config =
      decode blob config := by
  have hslots : 2 ≤ config.settlementHeaderSlots := ((config.validate_ok_iff).mp hvalid).1
  by_cases hfront : 102 + 56 * config.settlementHeaderSlots ≤ blob.length
  · obtain ⟨front, hrun, hpre⟩ := (readFront_reads hslots).run_of_le hfront
    have hcut : blob.take (102 + 56 * config.settlementHeaderSlots + regionPages * pageSize) =
        blob.take (102 + 56 * config.settlementHeaderSlots) ++
          (blob.drop (102 + 56 * config.settlementHeaderSlots)).take (regionPages * pageSize) :=
      List.take_add
    obtain ⟨market, prev, next, hTree, hBalances, more⟩ := front
    simp only [decode, hvalid, hcut, hpre, hrun, Except.ok_bind, PagePool.ofRegion_take]
  · rw [List.take_of_length_le (by omega)]

/-- On a blob that holds the header table and six pages, the addresses are read at bytes 0, 32
and 64, the headers at `102 + 56 * i`, the pages right after the whole table, and the log is the
tree of the first header and the balances of the second. -/
theorem decode_eq_of_places {config : DecoderConfig} (hvalid : config.validate = .ok ())
    {blob : Bytes}
    (h : 102 + 56 * config.settlementHeaderSlots + regionPages * pageSize ≤ blob.length) :
    ∃ market prev next hTree hBalances more pool,
      Decoder.address.parse blob = .ok market ∧
      Decoder.address.parse (blob.drop 32) = .ok prev ∧
      Decoder.address.parse (blob.drop 64) = .ok next ∧
      (List.range config.settlementHeaderSlots).mapM
          (fun i => Header.read.parse (blob.drop (102 + 56 * i))) =
        .ok (hTree :: hBalances :: more) ∧
      pool.pages = (List.range regionPages).map (fun k =>
        (blob.drop (102 + 56 * config.settlementHeaderSlots + k * pageSize)).take pageSize) ∧
      decode blob config =
        (Tree.decode hTree pool >>= fun tree =>
          SlotVector.decode BalanceSlot.format hBalances pool >>= fun balances =>
            pure ⟨market, prev, next, hTree :: hBalances :: more, tree, balances⟩) := by
  have hslots : 2 ≤ config.settlementHeaderSlots := ((config.validate_ok_iff).mp hvalid).1
  obtain ⟨market, prev, next, hTree, hBalances, more, hrun, hm, hp, hn, hheaders⟩ :=
    readFront_run hslots (show 102 + 56 * config.settlementHeaderSlots ≤ blob.length by omega)
  obtain ⟨pool, hpool, hpages⟩ := PagePool.ofRegion_of_le
    (show regionPages * pageSize ≤ (blob.drop (102 + 56 * config.settlementHeaderSlots)).length by
      rw [List.length_drop]
      omega)
  refine ⟨market, prev, next, hTree, hBalances, more, pool, hm, hp, hn, hheaders, ?_, ?_⟩
  · simp only [hpages, List.drop_drop]
  · simp only [decode, hvalid, hrun, hpool, Except.ok_bind]

end LogSlab

/-! ## Faults of an account -/

theorem PagePool.ofRegion_blobFaults (region : Bytes) : BlobFaults (PagePool.ofRegion region) := by
  unfold PagePool.ofRegion
  split
  · exact BlobFaults.ok _
  · exact BlobFaults.layout _

/-- An order book account fails only on its bytes. -/
theorem BookSlab.decode_blobFaults (blob : Bytes) : BlobFaults (BookSlab.decode blob) := by
  refine BlobFaults.bind (BookSlab.readFront_reads.blobFaults blob) fun front => ?_
  obtain ⟨⟨version, hBidTree, hAskTree, hBidOrders, hAskOrders⟩, region⟩ := front
  exact BlobFaults.bind (PagePool.ofRegion_blobFaults region) fun _ =>
    BlobFaults.bind (Tree.decode_blobFaults _ _) fun _ =>
      BlobFaults.bind (SlotVector.decode_slot_blobFaults OrderSlot.read_reads _ _) fun _ =>
        BlobFaults.bind (Tree.decode_blobFaults _ _) fun _ =>
          BlobFaults.bind (SlotVector.decode_slot_blobFaults OrderSlot.read_reads _ _) fun _ =>
            BlobFaults.ok _

/-- Under a valid configuration, a settlement log account fails only on its bytes. -/
theorem LogSlab.decode_blobFaults {config : DecoderConfig} (hvalid : config.validate = .ok ())
    (blob : Bytes) : BlobFaults (LogSlab.decode blob config) := by
  have hslots : 2 ≤ config.settlementHeaderSlots := ((config.validate_ok_iff).mp hvalid).1
  rw [LogSlab.decode, hvalid, Except.ok_bind]
  refine BlobFaults.bind ((LogSlab.readFront_reads hslots).blobFaults blob) fun front => ?_
  obtain ⟨⟨market, prev, next, hTree, hBalances, more⟩, region⟩ := front
  exact BlobFaults.bind (PagePool.ofRegion_blobFaults region) fun _ =>
    BlobFaults.bind (Tree.decode_blobFaults _ _) fun _ =>
      BlobFaults.bind (SlotVector.decode_slot_blobFaults BalanceSlot.read_reads _ _) fun _ =>
        BlobFaults.ok _

/-- A settlement log fails with a configuration fault exactly when its configuration is not
valid, whatever its bytes. -/
theorem LogSlab.config_fault_iff (blob : Bytes) (config : DecoderConfig) :
    (∃ f, LogSlab.decode blob config = .error (.config f)) ↔
      ∃ e, config.validate = .error e := by
  constructor
  · rintro ⟨f, hf⟩
    cases hvalid : config.validate with
    | error e => exact ⟨e, rfl⟩
    | ok u =>
      exact absurd (LogSlab.decode_blobFaults hvalid blob _ hf) id
  · rintro ⟨e, he⟩
    have hconfig : ∃ f, e = .config f := by
      unfold DecoderConfig.validate at he
      split at he
      · cases he
        exact ⟨_, rfl⟩
      · split at he
        · cases he
          exact ⟨_, rfl⟩
        · cases he
    obtain ⟨f, rfl⟩ := hconfig
    exact ⟨f, LogSlab.decode_of_invalid he blob⟩

/-! ## What an account decode reads -/

/-- An order book account is decided by its first `2 + 4 * 56 + 6 * 16384` bytes: bytes after
them change nothing, a shorter blob fails (cut short in its front, or else with a short page
region), and on a blob long enough the headers and pages lie at fixed places and the bid side's
fault comes before the ask side's, each side's tree before its slots. A settlement log fails with
a configuration fault exactly when its configuration is not valid; under a valid one it is decided
by its first `102 + 56 * slots + 6 * 16384` bytes, read at fixed places, with the tree of the
first header and the balances of the second over the pages after the whole table. Neither
decode looks at the leaf-count setting: the book decoder takes no configuration at all. -/
theorem account_decodes_read_prefix :
    (∀ blob rest : Bytes, 2 + 4 * 56 + 6 * 16384 ≤ blob.length →
      BookSlab.decode (blob ++ rest) = BookSlab.decode blob) ∧
    (∀ blob : Bytes, blob.length < 2 + 4 * 56 →
      ∃ n r, BookSlab.decode blob = .error (.truncated n r)) ∧
    (∀ blob : Bytes, 2 + 4 * 56 ≤ blob.length → blob.length < 2 + 4 * 56 + 6 * 16384 →
      BookSlab.decode blob = .error (.layout (.shortRegion (blob.length - 226)))) ∧
    (∀ blob : Bytes, 2 + 4 * 56 + 6 * 16384 ≤ blob.length →
      ∃ version hBidTree hAskTree hBidOrders hAskOrders pool,
        Decoder.u16.parse blob = .ok version ∧
        (List.range 4).mapM (fun i => Header.read.parse (blob.drop (2 + 56 * i))) =
          .ok [hBidTree, hAskTree, hBidOrders, hAskOrders] ∧
        pool.pages = (List.range 6).map (fun k => (blob.drop (226 + k * 16384)).take 16384) ∧
        BookSlab.decode blob = BookSlab.joinSides version hBidTree hAskTree hBidOrders hAskOrders
          (BookSlab.readSide hBidTree hBidOrders pool)
          (BookSlab.readSide hAskTree hAskOrders pool)) ∧
    (∀ (blob : Bytes) (config : DecoderConfig),
      (∃ f, LogSlab.decode blob config = .error (.config f)) ↔
        ∃ e, config.validate = .error e) ∧
    (∀ (blob : Bytes) (config : DecoderConfig) (e : Fault), config.validate = .error e →
      LogSlab.decode blob config = .error e) ∧
    (∀ config : DecoderConfig, config.validate = .ok () → ∀ blob blob' : Bytes,
      blob.take (102 + 56 * config.settlementHeaderSlots + 6 * 16384) =
          blob'.take (102 + 56 * config.settlementHeaderSlots + 6 * 16384) →
        LogSlab.decode blob config = LogSlab.decode blob' config) ∧
    (∀ config : DecoderConfig, config.validate = .ok () → ∀ blob : Bytes,
      102 + 56 * config.settlementHeaderSlots + 6 * 16384 ≤ blob.length →
      ∃ market prev next hTree hBalances more pool,
        Decoder.address.parse blob = .ok market ∧
        Decoder.address.parse (blob.drop 32) = .ok prev ∧
        Decoder.address.parse (blob.drop 64) = .ok next ∧
        (List.range config.settlementHeaderSlots).mapM
            (fun i => Header.read.parse (blob.drop (102 + 56 * i))) =
          .ok (hTree :: hBalances :: more) ∧
        pool.pages = (List.range 6).map (fun k =>
          (blob.drop (102 + 56 * config.settlementHeaderSlots + k * 16384)).take 16384) ∧
        LogSlab.decode blob config =
          (Tree.decode hTree pool >>= fun tree =>
            SlotVector.decode BalanceSlot.format hBalances pool >>= fun balances =>
              pure ⟨market, prev, next, hTree :: hBalances :: more, tree, balances⟩)) ∧
    (∀ (blob : Bytes) (config : DecoderConfig) (flag : Bool),
      LogSlab.decode blob { config with checkLeafCount := flag } = LogSlab.decode blob config) := by
  refine ⟨fun blob rest h => BookSlab.decode_append h rest, fun _ h => BookSlab.decode_of_lt_front h,
    fun _ h₁ h₂ => BookSlab.decode_of_lt_region h₁ h₂, fun _ h => BookSlab.decode_eq_joinSides h,
    LogSlab.config_fault_iff, fun blob _ _ h => LogSlab.decode_of_invalid h blob, ?_,
    fun _ hvalid _ h => LogSlab.decode_eq_of_places hvalid h, LogSlab.decode_checkLeafCount⟩
  intro config hvalid blob blob' hprefix
  rw [← LogSlab.decode_take hvalid blob, ← LogSlab.decode_take hvalid blob']
  exact congrArg (LogSlab.decode · config) hprefix

end SlabLedger
