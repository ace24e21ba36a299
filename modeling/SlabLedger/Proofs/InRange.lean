import SlabLedger.Proofs.Market.Prefix
import SlabLedger.Proofs.Slab.UsedPages
import SlabLedger.Proofs.Slab.Walk
import SlabLedger.Proofs.Text.Base58
import SlabLedger.Proofs.Text.Crockford

/-!
# Positions and sizes in range

The decoders cut pages out of a region, take the first page indices of a header, subtract the
reserved bytes from a page and divide by the records per page, pick the first two headers of a
settlement log, read and set the marks of the ordered walk, and run the codecs' 32-bit
accumulators. Each of these steps is kept in range by a check made earlier, often in another
function, or by an invariant of a loop. This module states what the checks and invariants give
where each step is taken, for every input.

* A region is cut into whole slices that end inside it (`PagePool.getElem?_pages`).
* A header's page count comes out of a 64-bit sum that does not wrap, a subtraction from the page
  size that is not cut off at zero and a division by a positive number, and the indices it takes
  are among the header's sixteen (`Header.totalPages_in_range`).
* A settlement log's header table is read only after its configuration is checked, and then holds
  the configured number of headers, at least two (`LogSlab.headers_in_range`).
* The ordered walk is the walk whose marks are a vector of the table's size, read and set only at
  a node found in the table (`Tree.visit_eq_visitChecked`).
* Every step of a Base58 carry loop adds below `58 * 256` (`Base58.CarriesInRange`), at every
  state the loops reach; every state of a Crockford loop keeps fewer bits pending than a group,
  with nothing above them (`Crockford.BitLoop.Fits`), so no shift loses a bit.

`guarded_steps_in_range` gathers these as the fields of `GuardedSteps`.
-/

namespace SlabLedger

/-! ## Pages of a region -/

namespace PagePool

/-- A region is cut into pages exactly when it holds six of them. -/
theorem ofRegion_ok_iff (region : Bytes) :
    (∃ pool, ofRegion region = .ok pool) ↔ regionPages * pageSize ≤ region.length := by
  constructor
  · rintro ⟨pool, h⟩
    by_contra hshort
    rw [ofRegion_of_lt (by omega)] at h
    cases h
  · intro hlen
    obtain ⟨pool, hok, -⟩ := ofRegion_of_le hlen
    exact ⟨pool, hok⟩

/-- Page `k` of a region is its slice from `k * pageSize` to `(k + 1) * pageSize`, and that slice
ends inside the region. -/
theorem getElem?_pages {region : Bytes} {pool : PagePool} (h : ofRegion region = .ok pool)
    {k : Nat} (hk : k < regionPages) :
    (k + 1) * pageSize ≤ region.length ∧
      pool.pages[k]? = some ((region.drop (k * pageSize)).take pageSize) := by
  have hlen : regionPages * pageSize ≤ region.length := (ofRegion_ok_iff region).1 ⟨pool, h⟩
  obtain ⟨pool', hok, hpages⟩ := ofRegion_of_le hlen
  rw [hok] at h
  cases h
  refine ⟨le_trans (Nat.mul_le_mul_right pageSize hk) hlen, ?_⟩
  rw [hpages, List.getElem?_map, List.getElem?_range hk]
  rfl

end PagePool

/-! ## A header's page arithmetic -/

namespace Header

/-- Whenever a header's page count is found, every step of its arithmetic was in range: header
and offset add up within 64 bits, and with the records of a page within the page, so their
subtraction from the page size is exact; at least one record fits, so the rounded-up division is
by a positive number; the pages counted hold the items with room for fewer than a page's worth
more; and taking that many of the sixteen page indices takes exactly that many. -/
theorem totalPages_in_range {h : Header} {S t : Nat} (ht : h.totalPages S = .ok t) :
    ∃ P, 0 < P ∧
      (h.headerSize + h.offsetSize).toNat = h.headerSize.toNat + h.offsetSize.toNat ∧
      h.headerSize.toNat + h.offsetSize.toNat + P * max S 1 ≤ pageSize ∧
      h.itemCount.toNat ≤ t * P ∧ t * P < h.itemCount.toNat + P ∧
      (h.pageIndices.take t).length = t := by
  obtain ⟨P, hP, rfl, hle⟩ := totalPages_eq_ok_iff.1 ht
  obtain ⟨hfit, -, hpos⟩ := itemsPerPage_eq_ok_iff.1 hP
  obtain ⟨hcover, hroom⟩ := ceil_mul_bounds hpos h.itemCount.toNat
  refine ⟨P, hpos, toNat_add_of_fits hfit, reserved_add_perPage_le_max hP, hcover, hroom, ?_⟩
  rw [List.length_take, h.pageIndices_length]
  exact Nat.min_eq_left hle

theorem length_of_readTable_run {n : Nat} {bs rest : Bytes} {hs : List Header}
    (h : (readTable n).run bs = .ok (hs, rest)) : hs.length = n := by
  unfold readTable at h
  rw [StateT.run_map] at h
  cases hr : (Decoder.replicate read n).run bs with
  | error e => rw [hr] at h; cases h
  | ok p =>
    rw [hr] at h
    cases h
    exact p.1.2

end Header

/-! ## The headers of a settlement log -/

namespace LogSlab

theorem length_of_readFront_run {slots : Nat} {bs rest : Bytes}
    {front : Address × Address × Address × Header × Header × List Header}
    (h : (readFront slots).run bs = .ok (front, rest)) : front.2.2.2.2.2.length = slots - 2 := by
  simp only [readFront, StateT.run_bind] at h
  obtain ⟨⟨market, s₁⟩, -, h⟩ := Except.exists_of_bind_eq_ok h
  obtain ⟨⟨prev, s₂⟩, -, h⟩ := Except.exists_of_bind_eq_ok h
  obtain ⟨⟨next, s₃⟩, -, h⟩ := Except.exists_of_bind_eq_ok h
  obtain ⟨⟨u, s₄⟩, -, h⟩ := Except.exists_of_bind_eq_ok h
  obtain ⟨⟨hTree, s₅⟩, -, h⟩ := Except.exists_of_bind_eq_ok h
  obtain ⟨⟨hBalances, s₆⟩, -, h⟩ := Except.exists_of_bind_eq_ok h
  obtain ⟨⟨more, s₇⟩, hmore, h⟩ := Except.exists_of_bind_eq_ok h
  cases h
  exact Header.length_of_readTable_run hmore

/-- A log read under a configuration of at least two header slots has that many headers: the
tree's, the balances', and the rest of the table. -/
theorem length_headers_of_decode {blob : Bytes} {config : DecoderConfig} {s : LogSlab}
    (hslots : 2 ≤ config.settlementHeaderSlots) (h : decode blob config = .ok s) :
    s.headers.length = config.settlementHeaderSlots := by
  unfold decode at h
  obtain ⟨u, -, h⟩ := Except.exists_of_bind_eq_ok h
  obtain ⟨⟨⟨market, prev, next, hTree, hBalances, more⟩, region⟩, hfront, h⟩ :=
    Except.exists_of_bind_eq_ok h
  have hmore : more.length = config.settlementHeaderSlots - 2 := length_of_readFront_run hfront
  obtain ⟨pool, -, h⟩ := Except.exists_of_bind_eq_ok h
  obtain ⟨tree, -, h⟩ := Except.exists_of_bind_eq_ok h
  obtain ⟨balances, -, h⟩ := Except.exists_of_bind_eq_ok h
  cases h
  simp only [List.length_cons, hmore]
  omega

/-- The header table of a settlement log is read only under a checked configuration: either the
check fails, and the decode with it, or there are at least two header slots and a log read has
exactly that many headers. -/
theorem headers_in_range (blob : Bytes) (config : DecoderConfig) :
    (∃ e, config.validate = .error e ∧ decode blob config = .error e) ∨
      2 ≤ config.settlementHeaderSlots ∧
        ∀ s, decode blob config = .ok s → s.headers.length = config.settlementHeaderSlots := by
  cases hvalid : config.validate with
  | error e => exact .inl ⟨e, rfl, decode_of_invalid hvalid blob⟩
  | ok u =>
    have hslots := (config.validate_ok_iff.1 hvalid).1
    exact .inr ⟨hslots, fun s hs => length_headers_of_decode hslots hs⟩

end LogSlab

/-! ## The marks of the ordered walk -/

namespace Tree

theorem lt_size_of_node {t : Tree} {i : UInt32} {n : Node} (h : t.node i = .ok n) :
    i.toNat < t.nodes.size :=
  lt_size_of_getElem? (node_eq_ok.1 h)

/-- The ordered walk over marks that are a vector of the table's size: the mark of a node is read
and set only once the node is found in the table, by an index proved inside the marks. -/
def visitChecked (t : Tree) : (depth : Nat) → UInt32 → Vector Bool t.nodes.size × Array Leaf →
    Except Fault (Vector Bool t.nodes.size × Array Leaf)
  | 0, i, _ => .error (.layout (.nodeReachedTwice i))
  | d + 1, i, (seen, out) =>
    match hn : t.node i with
    | .error e => .error e
    | .ok node =>
      have hi : i.toNat < t.nodes.size := lt_size_of_node hn
      if seen[i.toNat] then .error (.layout (.nodeReachedTwice i))
      else
        let seen := seen.set i.toNat true
        match node with
        | .inner _ _ left right => do
          let s ← t.visitChecked d left (seen, out)
          t.visitChecked d right s
        | .leaf l => .ok (seen, out.push l)
        | other => .error (.layout (.reachableTag i other.tag))

theorem marked_toArray {n j : Nat} (seen : Vector Bool n) (hj : j < n) :
    marked seen.toArray j = seen[j] := by
  unfold marked
  rw [Array.getElem?_eq_getElem (by simpa using hj)]
  rfl

theorem setIfInBounds_toArray {n j : Nat} (seen : Vector Bool n) (hj : j < n) (b : Bool) :
    seen.toArray.setIfInBounds j b = (seen.set j b).toArray := by
  rw [Vector.toArray_set]
  simp [Array.setIfInBounds, hj]

/-- Every mark the walk reads or sets is inside the marks: over marks of the table's size, the
walk is the one whose marks are a vector of that size. By induction on the depth, each step
reading the mark of a node only after finding the node in the table. -/
theorem visit_eq_visitChecked (t : Tree) : ∀ (d : Nat) (i : UInt32)
    (seen : Vector Bool t.nodes.size) (out : Array Leaf),
    t.visit d i (seen.toArray, out) =
      (fun r => (r.1.toArray, r.2)) <$> t.visitChecked d i (seen, out)
  | 0, _, _, _ => rfl
  | d + 1, i, seen, out => by
    rw [visitChecked]
    split
    · next e hn => rw [visit_succ_of_node_error hn]; rfl
    · next node hn =>
      have hi := lt_size_of_node hn
      have hmark := marked_toArray seen hi
      dsimp only
      split
      · next hseen =>
        rw [visit_succ_of_marked hn (hmark.trans hseen)]
        rfl
      · next hseen =>
        have hm : marked seen.toArray i.toNat = false := hmark.trans (Bool.eq_false_iff.2 hseen)
        cases node with
        | inner key prefixLen left right =>
          rw [visit_succ_inner hn hm, setIfInBounds_toArray seen hi,
            visit_eq_visitChecked t d left]
          dsimp only
          cases t.visitChecked d left (seen.set i.toNat true, out) with
          | error e => rfl
          | ok s => exact visit_eq_visitChecked t d right s.1 s.2
        | leaf l =>
          rw [visit_succ_leaf hn hm, setIfInBounds_toArray seen hi]
          rfl
        | unused | free _ | freeTail _ => rw [visit_succ_off_walk hn hm rfl]; rfl

/-- The ordered leaves come from the checked walk, started from no node marked. -/
theorem orderedLeaves_eq_checked (t : Tree) :
    t.orderedLeaves =
      if t.leaves.isEmpty then .ok []
      else (fun r => r.2.toList) <$>
        t.visitChecked (t.nodes.size + 1) t.info.root (Vector.replicate t.nodes.size false, #[]) := by
  unfold orderedLeaves
  split
  · rfl
  · rw [← Vector.toArray_replicate, visit_eq_visitChecked]
    cases t.visitChecked (t.nodes.size + 1) t.info.root
      (Vector.replicate t.nodes.size false, #[]) <;> rfl

end Tree

/-! ## The Base58 carries -/

namespace Base58

/-- Every step of a carry pass adds without wrapping: the carry plus the digit times `mult` is
below `58 * 256`, and the 32-bit sum is that number. -/
def CarriesInRange (r : Radix) : List UInt8 → UInt32 → Prop
  | [], _ => True
  | d :: ds, c =>
    c.toNat + d.toNat * r.mult.toNat < 58 * 256 ∧
      (c + d.toUInt32 * r.mult).toNat = c.toNat + d.toNat * r.mult.toNat ∧
      CarriesInRange r ds ((c + d.toUInt32 * r.mult) / r.base)

/-- A pass starting from a carry below `mult` over digits below `base` stays in range: by
induction on the digits, each step passing on a carry below `mult` again. -/
theorem carriesInRange_of_lt {r : Radix} (hr : r.Sound)
    (hspan : r.base.toNat * r.mult.toNat = 58 * 256) :
    ∀ (ds : List UInt8) (c : UInt32), c.toNat < r.mult.toNat →
      (∀ d ∈ ds, d.toNat < r.base.toNat) → CarriesInRange r ds c
  | [], _, _, _ => trivial
  | d :: ds, c, hc, hds => by
    obtain ⟨hsum, hlt, hcarry⟩ := carry_step hr hc (hds d List.mem_cons_self)
    exact ⟨hlt.trans_eq hspan, hsum, carriesInRange_of_lt hr hspan ds _ hcarry
      fun d' hd' => hds d' (List.mem_cons_of_mem d hd')⟩

/-- Every pass of the writing loop stays in range: the digits built from the bytes before are
base-58 digits, and the byte is a carry below 256. -/
theorem write_carriesInRange (bs : Bytes) (k : Nat) (hk : k < bs.length) :
    CarriesInRange Radix.write
      ((bs.take k).foldl (fun ds b => carryIn Radix.write ds b.toUInt32) []) bs[k].toUInt32 := by
  have hdigits := foldl_carryIn_write (bs.take k)
  refine carriesInRange_of_lt Radix.write_sound rfl _ _ ?_ fun d hd => ?_
  · rw [UInt8.toNat_toUInt32]
    exact bs[k].toNat_lt
  · have hmem : d.toNat ∈ Nat.digits 58 (Bytes.beValue (bs.take k)) :=
      hdigits ▸ List.mem_map_of_mem hd
    show d.toNat < 58
    exact Nat.digits_lt_base (by norm_num) hmem

/-- Every pass of the reading loop stays in range: a digit's value is a carry below 58, over any
bytes. -/
theorem read_carriesInRange (ds : List UInt8) {b : UInt8} {v : Nat}
    (hv : digitValue? b = some v) : CarriesInRange Radix.read ds v.toUInt32 := by
  refine carriesInRange_of_lt Radix.read_sound rfl ds _ ?_ fun d _ => d.toNat_lt
  rw [toNat_toUInt32_of_digitValue? hv]
  exact lt_of_digitValue? hv

/-- Every digit the writing loop builds is a place of the alphabet. -/
theorem lt_length_alphabet_of_mem_write (bs : Bytes) {d : UInt8}
    (hd : d ∈ bs.foldl (fun ds b => carryIn Radix.write ds b.toUInt32) []) :
    d.toNat < alphabet.length := by
  have hmem : d.toNat ∈ Nat.digits 58 (Bytes.beValue bs) :=
    foldl_carryIn_write bs ▸ List.mem_map_of_mem hd
  rw [length_alphabet]
  exact Nat.digits_lt_base (by norm_num) hmem

end Base58

/-! ## The Crockford accumulators -/

namespace Crockford

/-- Every state the writing loop reaches keeps fewer than five bits pending, above nothing. -/
theorem fits_of_take_pushByte (bs : Bytes) (k : Nat) :
    ((bs.take k).foldl pushByte ⟨[], 0, 0⟩).Fits 5 :=
  (foldl_pushByte (bs.take k)).1

/-- Every state the reading loop reaches keeps fewer than eight bits pending, above nothing. -/
theorem fits_of_take_readChar {text : String} {k : Nat} {s : BitLoop UInt8}
    (hs : (text.toList.take k).foldlM readChar ⟨[], 0, 0⟩ = .ok s) : s.Fits 8 := by
  rw [foldlM_readChar] at hs
  cases hvs : symbolValues (text.toList.take k) with
  | error e =>
    rw [hvs] at hs
    cases hs
  | ok vs =>
    rw [hvs] at hs
    rw [← Except.ok.inj hs]
    exact (foldl_pushSymbol (lt_of_symbolValues hvs)).1

/-- A symbol read from a text shifts into a fitting accumulator without loss, and a byte it
completes is below 256 before it is cut to eight bits. -/
theorem pushSymbol_in_range {s : BitLoop UInt8} (hs : s.Fits 8) {c : Char} {v : Nat}
    (hv : symbolValue? c = some v) :
    ((s.acc <<< 5) ||| v.toUInt32).toNat = s.acc.toNat * 2 ^ 5 + v ∧
      s.acc.toNat * 2 ^ 5 + v < 2 ^ 12 ∧
      (8 ≤ s.bits.toNat + 5 → (((s.acc <<< 5) ||| v.toUInt32) >>> (s.bits + 5 - 8)).toNat < 256) := by
  have hval := toNat_toUInt32_of_lt (lt_of_symbolValue? hv)
  have hlt : v.toUInt32.toNat < 32 := by
    rw [hval]
    exact lt_of_symbolValue? hv
  obtain ⟨hshift, hbound⟩ := pushSymbol_shift hs hlt
  rw [hval] at hshift hbound
  exact ⟨hshift, hbound, pushSymbol_byte_lt hs hlt⟩

theorem toNat_and_31_lt_length_alphabet (x : UInt32) : (x &&& 0x1f).toNat < alphabet.length := by
  rw [toNat_and_31, length_alphabet]
  exact Nat.mod_lt _ (by decide)

end Crockford

/-! ## All of them -/

/-- What the checks and loop invariants of the decoders and codecs give where each guarded step is
taken, for every input. -/
structure GuardedSteps : Prop where
  /-- A region is cut into pages exactly when it holds six, and page `k` is then its slice from
  `k * pageSize` to `(k + 1) * pageSize`, which ends inside the region. -/
  pages : ∀ region : Bytes,
    ((∃ pool, PagePool.ofRegion region = .ok pool) ↔ regionPages * pageSize ≤ region.length) ∧
    ∀ pool, PagePool.ofRegion region = .ok pool → ∀ k < regionPages,
      (k + 1) * pageSize ≤ region.length ∧
        pool.pages[k]? = some ((region.drop (k * pageSize)).take pageSize)
  /-- A header's page count is found only by a 64-bit sum that does not wrap, a page that holds
  the header, the offset and at least one record, a division by that positive number of records
  rounded up to cover the items, and a count of page indices the header has. -/
  header : ∀ (h : Header) (S t : Nat), h.totalPages S = .ok t →
    ∃ P, 0 < P ∧
      (h.headerSize + h.offsetSize).toNat = h.headerSize.toNat + h.offsetSize.toNat ∧
      h.headerSize.toNat + h.offsetSize.toNat + P * max S 1 ≤ pageSize ∧
      h.itemCount.toNat ≤ t * P ∧ t * P < h.itemCount.toNat + P ∧
      (h.pageIndices.take t).length = t
  /-- A settlement log either fails its configuration check before any header is read, or has
  at least two header slots and exactly as many headers. -/
  settlementHeaders : ∀ (blob : Bytes) (config : DecoderConfig),
    (∃ e, config.validate = .error e ∧ LogSlab.decode blob config = .error e) ∨
      2 ≤ config.settlementHeaderSlots ∧
        ∀ s, LogSlab.decode blob config = .ok s → s.headers.length = config.settlementHeaderSlots
  /-- The walk reads and sets marks only at nodes of the table. -/
  walkMarks : ∀ (t : Tree) (d : Nat) (i : UInt32) (seen : Vector Bool t.nodes.size)
    (out : Array Leaf),
    t.visit d i (seen.toArray, out) =
      (fun r => (r.1.toArray, r.2)) <$> t.visitChecked d i (seen, out)
  /-- The ordered leaves are walked from marks of the table's size. -/
  orderedWalk : ∀ t : Tree,
    t.orderedLeaves =
      if t.leaves.isEmpty then .ok []
      else (fun r => r.2.toList) <$>
        t.visitChecked (t.nodes.size + 1) t.info.root (Vector.replicate t.nodes.size false, #[])
  /-- Every pass of the Base58 writing loop adds below `58 * 256`. -/
  base58Writes : ∀ (bs : Bytes) (k : Nat) (hk : k < bs.length),
    Base58.CarriesInRange Base58.Radix.write
      ((bs.take k).foldl (fun ds b => Base58.carryIn Base58.Radix.write ds b.toUInt32) [])
      bs[k].toUInt32
  /-- Every pass of the Base58 reading loop adds below `58 * 256`. -/
  base58Reads : ∀ (ds : List UInt8) (b : UInt8) (v : Nat), Base58.digitValue? b = some v →
    Base58.CarriesInRange Base58.Radix.read ds v.toUInt32
  /-- Every Base58 digit written is a place of the alphabet. -/
  base58Symbols : ∀ bs : Bytes,
    ∀ d ∈ bs.foldl (fun ds b => Base58.carryIn Base58.Radix.write ds b.toUInt32) [],
      d.toNat < Base58.alphabet.length
  /-- Every state of the Crockford writing loop fits five-bit groups. -/
  crockfordWrites : ∀ (bs : Bytes) (k : Nat),
    ((bs.take k).foldl Crockford.pushByte ⟨[], 0, 0⟩).Fits 5
  /-- A byte shifts into a fitting writer's accumulator without loss. -/
  crockfordByteShift : ∀ s : Crockford.BitLoop Char, s.Fits 5 → ∀ byte : UInt8,
    ((s.acc <<< 8) ||| byte.toUInt32).toNat = s.acc.toNat * 2 ^ 8 + byte.toNat ∧
      s.acc.toNat * 2 ^ 8 + byte.toNat < 2 ^ 13
  /-- The last symbol of a fitting writer is its pending bits filled with zero bits to five. -/
  crockfordFill : ∀ s : Crockford.BitLoop Char, s.Fits 5 →
    ((s.acc <<< (5 - s.bits)) &&& 0x1f).toNat =
      Crockford.ofBits (s.pending ++ List.replicate (5 - s.bits.toNat) false)
  /-- Every state of the Crockford reading loop fits bytes. -/
  crockfordReads : ∀ (text : String) (k : Nat) (s : Crockford.BitLoop UInt8),
    (text.toList.take k).foldlM Crockford.readChar ⟨[], 0, 0⟩ = .ok s → s.Fits 8
  /-- A symbol shifts into a fitting reader's accumulator without loss, and a byte it completes
  is below 256. -/
  crockfordSymbolShift : ∀ s : Crockford.BitLoop UInt8, s.Fits 8 → ∀ (c : Char) (v : Nat),
    Crockford.symbolValue? c = some v →
      ((s.acc <<< 5) ||| v.toUInt32).toNat = s.acc.toNat * 2 ^ 5 + v ∧
        s.acc.toNat * 2 ^ 5 + v < 2 ^ 12 ∧
        (8 ≤ s.bits.toNat + 5 →
          (((s.acc <<< 5) ||| v.toUInt32) >>> (s.bits + 5 - 8)).toNat < 256)
  /-- Every five bits a Crockford writer looks up are a place of the alphabet. -/
  crockfordSymbols : ∀ x : UInt32, (x &&& 0x1f).toNat < Crockford.alphabet.length

/-- Every guarded step of the decoders and codecs is in range, whatever the input. -/
theorem guarded_steps_in_range : GuardedSteps where
  pages region :=
    ⟨PagePool.ofRegion_ok_iff region, fun _ h _ hk => PagePool.getElem?_pages h hk⟩
  header _ _ _ ht := Header.totalPages_in_range ht
  settlementHeaders := LogSlab.headers_in_range
  walkMarks := Tree.visit_eq_visitChecked
  orderedWalk := Tree.orderedLeaves_eq_checked
  base58Writes := Base58.write_carriesInRange
  base58Reads ds _ _ hv := Base58.read_carriesInRange ds hv
  base58Symbols bs _ hd := Base58.lt_length_alphabet_of_mem_write bs hd
  crockfordWrites := Crockford.fits_of_take_pushByte
  crockfordByteShift _ hs := Crockford.pushByte_shift hs
  crockfordFill _ hs := Crockford.fill_symbol hs
  crockfordReads _ _ _ hs := Crockford.fits_of_take_readChar hs
  crockfordSymbolShift _ hs _ _ hv := Crockford.pushSymbol_in_range hs hv
  crockfordSymbols := Crockford.toNat_and_31_lt_length_alphabet

end SlabLedger
