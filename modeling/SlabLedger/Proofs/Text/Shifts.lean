import SlabLedger.Proofs.Text.Bits
import SlabLedger.Text.Crockford

/-!
# The Crockford loops

Writing and reading keep the bits not yet written in the low bits of a 32-bit accumulator, and
both keep one invariant (`BitLoop.Fits g`, with `g` the size of the groups they write): fewer
than `g` bits are pending and the accumulator holds nothing above them, `acc < 2 ^ bits`. Under
it no shift loses a bit: a byte shifted in gives `acc * 2 ^ 8 + byte < 2 ^ 13`
(`pushByte_shift`), the five bits of a symbol `acc * 2 ^ 5 + value < 2 ^ 12`
(`pushSymbol_shift`), and a byte written is below 256 before it is cut to eight bits
(`pushSymbol_byte_lt`).

As lists, the pending bits are `bitsOf bits acc` (`BitLoop.pending`). Each step appends the bits
it reads and cuts the whole groups off the front (`pushByte_step`, `pushSymbol_step`); cutting
whole groups chunk by chunk is cutting them off the whole stream (`fullGroups_append`), so a run
of either loop is its whole stream cut once (`BitLoop.foldl_regroup`). The loops therefore
compute the bit-list forms: `encode_eq`, the pieces of the bits filled with zero bits, and
`decode_eq_readBits`, the symbols' bits read back as whole bytes.
-/

namespace SlabLedger.Crockford

/-! ## Words -/

theorem toNat_shiftLeft_or {acc v w : UInt32} (hw : w.toNat < 32) (hv : v.toNat < 2 ^ w.toNat)
    (hacc : acc.toNat * 2 ^ w.toNat < 2 ^ 32) :
    ((acc <<< w) ||| v).toNat = acc.toNat * 2 ^ w.toNat + v.toNat := by
  rw [UInt32.toNat_or, UInt32.toNat_shiftLeft, Nat.mod_eq_of_lt hw, Nat.shiftLeft_eq,
    Nat.mod_eq_of_lt hacc, ← Nat.shiftLeft_eq, ← Nat.shiftLeft_add_eq_or_of_lt hv,
    Nat.shiftLeft_eq]

theorem toNat_shiftRight_of_lt {x b : UInt32} (hb : b.toNat < 32) :
    (x >>> b).toNat = x.toNat / 2 ^ b.toNat := by
  rw [UInt32.toNat_shiftRight, Nat.mod_eq_of_lt hb, Nat.shiftRight_eq_div_pow]

theorem toNat_and_31 (x : UInt32) : (x &&& 0x1f).toNat = x.toNat % 2 ^ 5 := by
  rw [UInt32.toNat_and, show (0x1f : UInt32).toNat = 2 ^ 5 - 1 from rfl,
    Nat.and_two_pow_sub_one_eq_mod]

theorem toNat_and_mask {x b : UInt32} (hb : b.toNat < 32) :
    (x &&& ((1 <<< b) - 1)).toNat = x.toNat % 2 ^ b.toNat := by
  have hpow : ((1 : UInt32) <<< b).toNat = 2 ^ b.toNat := by
    rw [UInt32.toNat_shiftLeft, UInt32.toNat_one, Nat.mod_eq_of_lt hb, Nat.shiftLeft_eq,
      Nat.one_mul]
    exact Nat.mod_eq_of_lt (Nat.pow_lt_pow_right (by decide) hb)
  have hone : (1 : UInt32) ≤ 1 <<< b := by
    rw [UInt32.le_iff_toNat_le, hpow, UInt32.toNat_one]
    exact Nat.one_le_two_pow
  rw [UInt32.toNat_and, UInt32.toNat_sub_of_le _ _ hone, hpow, UInt32.toNat_one,
    Nat.and_two_pow_sub_one_eq_mod]

theorem toNat_add_of_lt {a b : UInt32} (h : a.toNat + b.toNat < 2 ^ 32) :
    (a + b).toNat = a.toNat + b.toNat := by
  rw [UInt32.toNat_add, Nat.mod_eq_of_lt h]

theorem toNat_five : (5 : UInt32).toNat = 5 := rfl

theorem toNat_eight : (8 : UInt32).toNat = 8 := rfl

/-- `w` bits shifted in below an accumulator of `b` bits make `b + w` bits. -/
theorem shift_in_lt {a v b w : Nat} (ha : a < 2 ^ b) (hv : v < 2 ^ w) :
    a * 2 ^ w + v < 2 ^ (b + w) :=
  calc a * 2 ^ w + v < (a + 1) * 2 ^ w := by rw [Nat.succ_mul]; omega
    _ ≤ 2 ^ b * 2 ^ w := Nat.mul_le_mul_right _ ha
    _ = 2 ^ (b + w) := (Nat.pow_add 2 b w).symm

/-! ## Streams cut into groups -/

/-- The bits of `a` shifted up past `w` bits of `v`: the bits of `a`, then those of `v`. -/
theorem bitsOf_mul_add {k w a v : Nat} (hv : v < 2 ^ w) :
    bitsOf (k + w) (a * 2 ^ w + v) = bitsOf k a ++ bitsOf w v := by
  have hdiv : (a * 2 ^ w + v) / 2 ^ w = a := by
    rw [Nat.add_comm, Nat.add_mul_div_right _ _ (Nat.two_pow_pos w), Nat.div_eq_of_lt hv,
      Nat.zero_add]
  have hmod : (a * 2 ^ w + v) % 2 ^ w = v := by
    rw [Nat.add_comm, Nat.add_mul_mod_self_right, Nat.mod_eq_of_lt hv]
  rw [Nat.add_comm k w, bitsOf_add, hdiv, ← bitsOf_mod w, hmod]

/-- The bits of a stream that fill whole groups of `g`, from the front. -/
def fullGroups (g : Nat) (A : List Bool) : List Bool := A.take (A.length / g * g)

/-- The bits of a stream after its whole groups of `g`. -/
def leftBits (g : Nat) (A : List Bool) : List Bool := A.drop (A.length / g * g)

theorem length_fullGroups (g : Nat) (A : List Bool) :
    (fullGroups g A).length = A.length / g * g := by
  rw [fullGroups, List.length_take, Nat.min_eq_left (Nat.div_mul_le_self _ _)]

theorem length_leftBits (g : Nat) (A : List Bool) : (leftBits g A).length = A.length % g := by
  have hsplit := Nat.mod_add_div A.length g
  rw [leftBits, List.length_drop, Nat.mul_comm]
  omega

theorem fullGroups_append_leftBits (g : Nat) (A : List Bool) :
    fullGroups g A ++ leftBits g A = A :=
  List.take_append_drop _ _

theorem fullGroups_of_lt {g : Nat} {A : List Bool} (h : A.length < g) : fullGroups g A = [] := by
  rw [fullGroups, Nat.div_eq_of_lt h, Nat.zero_mul, List.take_zero]

theorem leftBits_of_lt {g : Nat} {A : List Bool} (h : A.length < g) : leftBits g A = A := by
  rw [leftBits, Nat.div_eq_of_lt h, Nat.zero_mul, List.drop_zero]

theorem div_mul_add_div_mul {g : Nat} (hg : 0 < g) (x t : Nat) :
    x / g * g + (x % g + t) / g * g = (x + t) / g * g := by
  have hx : x + t = (x % g + t) + g * (x / g) := by
    have := Nat.mod_add_div x g
    omega
  rw [hx, Nat.add_mul_div_left _ _ hg, Nat.add_mul, Nat.add_comm]

/-- Cutting whole groups chunk by chunk cuts them off the whole stream: the groups of `A`, then
those of what is left of `A` followed by `T`, are the groups of `A ++ T`, and the same bits are
left. -/
theorem fullGroups_append {g : Nat} (hg : 0 < g) (A T : List Bool) :
    pieces g hg (fullGroups g A) ++ pieces g hg (fullGroups g (leftBits g A ++ T)) =
        pieces g hg (fullGroups g (A ++ T)) ∧
      leftBits g (leftBits g A ++ T) = leftBits g (A ++ T) := by
  have hlen : (leftBits g A ++ T).length = A.length % g + T.length := by
    rw [List.length_append, length_leftBits]
  have hcut : (A ++ T).length / g * g =
      (fullGroups g A).length + (leftBits g A ++ T).length / g * g := by
    rw [length_fullGroups, hlen, div_mul_add_div_mul hg, List.length_append]
  have hstream : A ++ T = fullGroups g A ++ (leftBits g A ++ T) := by
    rw [← List.append_assoc, fullGroups_append_leftBits]
  have hdvd : (fullGroups g A).length % g = 0 := by
    rw [length_fullGroups, Nat.mul_mod_left]
  constructor
  · rw [← pieces_append_of_dvd hdvd]
    conv_rhs => rw [fullGroups, hcut, hstream, List.take_append, List.take_of_length_le (by omega),
      Nat.add_sub_cancel_left]
    rfl
  · conv_rhs => rw [leftBits, hcut, hstream, List.drop_append,
      List.drop_of_length_le (by omega), Nat.add_sub_cancel_left, List.nil_append]
    rfl

/-! ## The invariant of the loops -/

namespace BitLoop

variable {α : Type}

/-- The invariant of a loop that writes groups of `g` bits: fewer than `g` bits are pending, and
the accumulator holds nothing above them. -/
def Fits (g : Nat) (s : BitLoop α) : Prop :=
  s.bits.toNat < g ∧ s.acc.toNat < 2 ^ s.bits.toNat

/-- The bits pending in a loop, first bits first. -/
def pending (s : BitLoop α) : List Bool := bitsOf s.bits.toNat s.acc.toNat

theorem length_pending (s : BitLoop α) : s.pending.length = s.bits.toNat :=
  length_bitsOf _ _

theorem fits_start {g : Nat} (hg : 0 < g) : (⟨[], 0, 0⟩ : BitLoop α).Fits g :=
  ⟨hg, Nat.one_pos⟩

theorem pending_start : (⟨[], 0, 0⟩ : BitLoop α).pending = [] := rfl

/-- Fewer than `g` pending bits and `k` more are counted without wrapping. -/
theorem Fits.toNat_bits_add {g : Nat} {s : BitLoop α} (hs : s.Fits g) {k : UInt32}
    (hk : g + k.toNat ≤ 2 ^ 32) : (s.bits + k).toNat = s.bits.toNat + k.toNat :=
  toNat_add_of_lt (by have := hs.1; omega)

/-- The pending bits are the accumulator's value. -/
theorem ofBits_pending {g : Nat} {s : BitLoop α} (hs : s.Fits g) : ofBits s.pending = s.acc.toNat := by
  rw [pending, ofBits_bitsOf, Nat.mod_eq_of_lt hs.2]

/-- A run of a loop whose every step cuts the whole groups of `g` off the pending bits and the
bits it reads is its whole stream cut once: by induction on the input, each step's groups joined
to the run's rest by `fullGroups_append`. -/
theorem foldl_regroup {β γ : Type} {g : Nat} (hg : 0 < g) {step : BitLoop γ → β → BitLoop γ}
    (valid : β → Prop) {chunk : β → List Bool} {f : List Bool → γ}
    (hstep : ∀ s b, s.Fits g → valid b → (step s b).Fits g ∧
      (step s b).out = s.out ++ (pieces g hg (fullGroups g (s.pending ++ chunk b))).map f ∧
      (step s b).pending = leftBits g (s.pending ++ chunk b)) :
    ∀ (bs : List β) (s : BitLoop γ), s.Fits g → (∀ b ∈ bs, valid b) →
      (bs.foldl step s).Fits g ∧
      (bs.foldl step s).out =
        s.out ++ (pieces g hg (fullGroups g (s.pending ++ bs.flatMap chunk))).map f ∧
      (bs.foldl step s).pending = leftBits g (s.pending ++ bs.flatMap chunk)
  | [], s, hs, _ => by
    have hshort : s.pending.length < g := by rw [length_pending]; exact hs.1
    rw [List.foldl_nil, List.flatMap_nil, List.append_nil, fullGroups_of_lt hshort,
      leftBits_of_lt hshort, pieces_nil, List.map_nil, List.append_nil]
    exact ⟨hs, rfl, rfl⟩
  | b :: bs, s, hs, hvalid => by
    obtain ⟨hs', hout, hpend⟩ := hstep s b hs (hvalid b List.mem_cons_self)
    obtain ⟨hfits, hout', hpend'⟩ :=
      foldl_regroup hg valid hstep bs (step s b) hs' fun b' hb' =>
        hvalid b' (List.mem_cons_of_mem b hb')
    obtain ⟨hgroups, hleft⟩ := fullGroups_append hg (s.pending ++ chunk b) (bs.flatMap chunk)
    rw [List.foldl_cons, List.flatMap_cons, ← List.append_assoc]
    refine ⟨hfits, ?_, ?_⟩
    · rw [hout', hout, hpend, List.append_assoc, ← List.map_append, hgroups]
    · rw [hpend', hpend, hleft]

end BitLoop

/-! ## Writing -/

/-- The groups of five written while at least five bits are pending are the whole groups of the
pending bits, and what is left is fewer than five. -/
theorem drainGroups_spec (acc : UInt32) (out : List Char) (bits : UInt32) (hbits : bits.toNat < 32) :
    (drainGroups acc out bits).1 =
        out ++ (pieces 5 (by decide) (fullGroups 5 (bitsOf bits.toNat acc.toNat))).map
          (fun g => symbol (ofBits g)) ∧
      (drainGroups acc out bits).2.toNat = bits.toNat % 5 := by
  fun_induction drainGroups acc out bits with
  | case1 out bits h ih =>
    have h5 : 5 ≤ bits.toNat := toNat_five ▸ UInt32.le_iff_toNat_le.1 h
    have hsub : (bits - 5).toNat = bits.toNat - 5 := by
      rw [UInt32.toNat_sub_of_le _ _ h, toNat_five]
    obtain ⟨ih₁, ih₂⟩ := ih (by omega)
    have hsplit : bitsOf bits.toNat acc.toNat =
        bitsOf 5 (acc.toNat / 2 ^ (bits.toNat - 5)) ++ bitsOf (bits.toNat - 5) acc.toNat := by
      rw [← bitsOf_add]
      congr 1
      omega
    have hgroups : fullGroups 5 (bitsOf bits.toNat acc.toNat) =
        bitsOf 5 (acc.toNat / 2 ^ (bits.toNat - 5)) ++
          fullGroups 5 (bitsOf (bits.toNat - 5) acc.toNat) := by
      rw [fullGroups, fullGroups, length_bitsOf, length_bitsOf, hsplit, List.take_append,
        List.take_of_length_le (by rw [length_bitsOf]; omega), length_bitsOf]
      congr 2
      omega
    have hsymbol : ((acc >>> (bits - 5)) &&& 0x1f).toNat = ofBits (bitsOf 5 (acc.toNat / 2 ^ (bits.toNat - 5))) := by
      rw [toNat_and_31, toNat_shiftRight_of_lt (by omega), hsub, ofBits_bitsOf]
    refine ⟨?_, ?_⟩
    · rw [ih₁, hsub, hgroups, pieces_append_of_length (length_bitsOf 5 _), List.map_cons, hsymbol,
        List.append_assoc, List.singleton_append]
    · rw [ih₂, hsub]
      omega
  | case2 out bits h =>
    have hlt : bits.toNat < 5 := by
      have := UInt32.le_iff_toNat_le.not.1 h
      rw [toNat_five] at this
      omega
    rw [fullGroups_of_lt (by rw [length_bitsOf]; exact hlt), pieces_nil, List.map_nil,
      List.append_nil, Nat.mod_eq_of_lt hlt]
    exact ⟨rfl, rfl⟩

/-- A byte shifted in below fewer than five pending bits loses none of them. -/
theorem pushByte_shift {s : BitLoop Char} (hs : s.Fits 5) (byte : UInt8) :
    ((s.acc <<< 8) ||| byte.toUInt32).toNat = s.acc.toNat * 2 ^ 8 + byte.toNat ∧
      s.acc.toNat * 2 ^ 8 + byte.toNat < 2 ^ 13 := by
  obtain ⟨hbits, hacc⟩ := hs
  have hacc5 : s.acc.toNat < 2 ^ 5 :=
    lt_of_lt_of_le hacc (Nat.pow_le_pow_right (by decide) (by omega))
  have hbyte := byte.toNat_lt
  refine ⟨?_, by omega⟩
  rw [toNat_shiftLeft_or (by rw [toNat_eight]; decide)
    (by rw [UInt8.toNat_toUInt32, toNat_eight]; exact hbyte) (by rw [toNat_eight]; omega),
    UInt8.toNat_toUInt32, toNat_eight]

/-- One byte keeps the invariant, writes the whole groups of five of the pending bits followed by
the byte's bits, and leaves the rest pending. -/
theorem pushByte_step {s : BitLoop Char} (hs : s.Fits 5) (byte : UInt8) :
    (pushByte s byte).Fits 5 ∧
      (pushByte s byte).out = s.out ++
        (pieces 5 (by decide) (fullGroups 5 (s.pending ++ bitsOf 8 byte.toNat))).map
          (fun g => symbol (ofBits g)) ∧
      (pushByte s byte).pending = leftBits 5 (s.pending ++ bitsOf 8 byte.toNat) := by
  obtain ⟨hshift, -⟩ := pushByte_shift hs byte
  set acc := (s.acc <<< 8) ||| byte.toUInt32 with hacc
  set drained := drainGroups acc s.out (s.bits + 8) with hdrained
  have hbits : (s.bits + 8).toNat = s.bits.toNat + 8 := hs.toNat_bits_add (by decide)
  have hstream : bitsOf (s.bits.toNat + 8) acc.toNat = s.pending ++ bitsOf 8 byte.toNat := by
    rw [hshift, bitsOf_mul_add byte.toNat_lt]
    rfl
  have hlen : (s.pending ++ bitsOf 8 byte.toNat).length = s.bits.toNat + 8 := by
    rw [List.length_append, BitLoop.length_pending, length_bitsOf]
  obtain ⟨hout, hleft⟩ := drainGroups_spec acc s.out (s.bits + 8) (by have := hs.1; omega)
  rw [hbits, hstream] at hout
  rw [hbits] at hleft
  have hmask : (acc &&& ((1 <<< drained.2) - 1)).toNat = acc.toNat % 2 ^ drained.2.toNat :=
    toNat_and_mask (by rw [hleft]; omega)
  refine ⟨⟨?_, ?_⟩, hout, ?_⟩
  · show drained.2.toNat < 5
    rw [hleft]
    omega
  · show (acc &&& ((1 <<< drained.2) - 1)).toNat < 2 ^ drained.2.toNat
    rw [hmask]
    exact Nat.mod_lt _ (Nat.two_pow_pos _)
  · show bitsOf drained.2.toNat (acc &&& ((1 <<< drained.2) - 1)).toNat = _
    rw [hmask, bitsOf_mod, leftBits, hlen, ← hstream, hleft,
      ← drop_bitsOf (show (s.bits.toNat + 8) % 5 ≤ s.bits.toNat + 8 by omega)]
    congr 1
    omega

/-- The bits of a byte string filled with zero bits to a whole number of symbols. -/
def filledBits (bs : Bytes) : List Bool :=
  toBits bs ++ List.replicate ((5 - 8 * bs.length % 5) % 5) false

theorem foldl_pushByte (bs : Bytes) :
    (bs.foldl pushByte ⟨[], 0, 0⟩).Fits 5 ∧
      (bs.foldl pushByte ⟨[], 0, 0⟩).out =
        (pieces 5 (by decide) (fullGroups 5 (toBits bs))).map (fun g => symbol (ofBits g)) ∧
      (bs.foldl pushByte ⟨[], 0, 0⟩).pending = leftBits 5 (toBits bs) := by
  have hrun := BitLoop.foldl_regroup (by decide) (fun _ => True)
    (fun s b hs _ => pushByte_step hs b) bs ⟨[], 0, 0⟩ (BitLoop.fits_start (by decide))
    (fun _ _ => trivial)
  rwa [BitLoop.pending_start, List.nil_append, List.nil_append] at hrun

/-- The last symbol: fewer than five pending bits shifted up to five, the gap filled with zero
bits. -/
theorem fill_symbol {s : BitLoop Char} (hs : s.Fits 5) :
    ((s.acc <<< (5 - s.bits)) &&& 0x1f).toNat =
      ofBits (s.pending ++ List.replicate (5 - s.bits.toNat) false) := by
  obtain ⟨hbits, hacc⟩ := hs
  have hsub : (5 - s.bits).toNat = 5 - s.bits.toNat :=
    UInt32.toNat_sub_of_le _ _ (UInt32.le_iff_toNat_le.2 (by rw [toNat_five]; omega))
  have hfilled : s.acc.toNat * 2 ^ (5 - s.bits.toNat) < 2 ^ 5 :=
    calc s.acc.toNat * 2 ^ (5 - s.bits.toNat)
        < 2 ^ s.bits.toNat * 2 ^ (5 - s.bits.toNat) :=
          Nat.mul_lt_mul_of_pos_right hacc (Nat.two_pow_pos _)
      _ = 2 ^ 5 := by rw [← Nat.pow_add, Nat.add_sub_cancel' (Nat.le_of_lt hbits)]
  have hshl : (s.acc <<< (5 - s.bits)).toNat = s.acc.toNat * 2 ^ (5 - s.bits.toNat) := by
    rw [UInt32.toNat_shiftLeft, hsub, Nat.mod_eq_of_lt (show 5 - s.bits.toNat < 32 by omega),
      Nat.shiftLeft_eq, Nat.mod_eq_of_lt (lt_trans hfilled (by decide))]
  rw [toNat_and_31, hshl, Nat.mod_eq_of_lt hfilled, ofBits_append,
    BitLoop.ofBits_pending ⟨hbits, hacc⟩, List.length_replicate,
    ofBits_eq_zero_iff.2 fun b hb => List.eq_of_mem_replicate hb, Nat.add_zero]

/-- Every symbol the loop writes stands for five bits of the filled bits. -/
theorem encode_eq (bs : Bytes) :
    encode bs =
      String.ofList ((pieces 5 (by decide) (filledBits bs)).map fun g => symbol (ofBits g)) := by
  obtain ⟨hfits, hout, hpend⟩ := foldl_pushByte bs
  set s := bs.foldl pushByte ⟨[], 0, 0⟩ with hs
  have hlen : s.bits.toNat = 8 * bs.length % 5 := by
    rw [← BitLoop.length_pending, hpend, length_leftBits, length_toBits]
  have hdvd : (fullGroups 5 (toBits bs)).length % 5 = 0 := by
    rw [length_fullGroups, Nat.mul_mod_left]
  show String.ofList (if 0 < s.bits then
    s.out ++ [symbol ((s.acc <<< (5 - s.bits)) &&& 0x1f).toNat] else s.out) = _
  congr 1
  by_cases hpos : 0 < s.bits
  · have hpos' : 0 < s.bits.toNat := UInt32.lt_iff_toNat_lt.1 hpos
    have hfill : filledBits bs =
        fullGroups 5 (toBits bs) ++ (s.pending ++ List.replicate (5 - s.bits.toNat) false) := by
      rw [filledBits, hpend, ← List.append_assoc, fullGroups_append_leftBits, hlen]
      congr 2
      omega
    have hlast : (s.pending ++ List.replicate (5 - s.bits.toNat) false).length = 5 := by
      rw [List.length_append, BitLoop.length_pending, List.length_replicate]
      have := hfits.1
      omega
    rw [if_pos hpos, hfill, pieces_append_of_dvd hdvd, pieces_of_length hlast, List.map_append,
      List.map_cons, List.map_nil, hout, fill_symbol hfits]
  · have hzero : s.bits.toNat = 0 := by
      have := UInt32.lt_iff_toNat_lt.not.1 hpos
      rw [UInt32.toNat_zero] at this
      omega
    have hfill : filledBits bs = fullGroups 5 (toBits bs) := by
      rw [filledBits, fullGroups, length_toBits, Nat.div_mul_cancel (Nat.dvd_of_mod_eq_zero
        (by omega)), List.take_of_length_le (by rw [length_toBits]),
        show (5 - 8 * bs.length % 5) % 5 = 0 by omega, List.replicate_zero, List.append_nil]
    rw [if_neg hpos, hout, hfill]

/-! ## Reading -/

/-- The values of the symbols of a text, dashes left out; the first other character fails. -/
def symbolValues : List Char → Except KeyTextFault (List Nat)
  | [] => pure []
  | c :: rest =>
    if c = '-' then symbolValues rest
    else match symbolValue? c with
      | some v => do pure (v :: (← symbolValues rest))
      | none => .error (.badSymbol c)

/-- Bytes are read eight bits at a time. -/
theorem byteBits_pos : 0 < 8 := by decide

/-- What a text's symbols give once their values are known: the bits, five to a symbol, read as
whole bytes from the front, with fewer than five bits left over and all of them zero. -/
def readBits (bits : List Bool) : Except KeyTextFault Bytes := do
  let whole := bits.length / 8 * 8
  let left := bits.drop whole
  if 5 ≤ left.length then throw .trailingSymbol
  if left.any id then throw .paddingBits
  pure ((pieces 8 byteBits_pos (bits.take whole)).map fun byte => (ofBits byte).toUInt8)

theorem readBits_eq (bits : List Bool) :
    readBits bits =
      if 5 ≤ bits.length % 8 then .error .trailingSymbol
      else if (bits.drop (bits.length / 8 * 8)).any id then .error .paddingBits
      else .ok ((pieces 8 (by decide) (bits.take (bits.length / 8 * 8))).map
        fun byte => (ofBits byte).toUInt8) := by
  have hleft : (bits.drop (bits.length / 8 * 8)).length = bits.length % 8 := by
    rw [List.length_drop]
    omega
  unfold readBits
  simp only [hleft]
  by_cases htrail : 5 ≤ bits.length % 8
  · rw [if_pos htrail, if_pos htrail]
    rfl
  · rw [if_neg htrail, if_neg htrail]
    by_cases hpad : (bits.drop (bits.length / 8 * 8)).any id = true
    · rw [if_pos hpad, if_pos hpad]
      rfl
    · rw [if_neg hpad, if_neg hpad]
      rfl

theorem lt_of_symbolValue? {c : Char} {v : Nat} (h : symbolValue? c = some v) : v < 32 := by
  unfold symbolValue? at h
  dsimp only at h
  split at h
  · cases h
    decide
  · split at h
    · cases h
      decide
    · have hlt := (List.idxOf?_eq_some_iff.1 h).1
      rwa [List.length_map, show alphabet.length = 32 by decide +kernel] at hlt

theorem lt_of_symbolValues {l : List Char} {vs : List Nat} (h : symbolValues l = .ok vs) :
    ∀ v ∈ vs, v < 32 := by
  induction l generalizing vs with
  | nil =>
    cases h
    simp
  | cons c l ih =>
    unfold symbolValues at h
    split at h
    · exact ih h
    · split at h
      · next v hv =>
        cases hrest : symbolValues l with
        | error e => rw [hrest] at h; cases h
        | ok ws =>
          rw [hrest] at h
          cases h
          intro w hw
          rcases List.mem_cons.1 hw with rfl | hw
          · exact lt_of_symbolValue? hv
          · exact ih hrest w hw
      · cases h

theorem toNat_toUInt32_of_lt {v : Nat} (hv : v < 32) : v.toUInt32.toNat = v := by
  rw [Nat.toUInt32_eq, UInt32.toNat_ofNat_of_lt' (Nat.lt_of_lt_of_le hv (by decide))]

/-- The five bits of a symbol shifted in below fewer than eight pending bits lose none of
them. -/
theorem pushSymbol_shift {s : BitLoop UInt8} (hs : s.Fits 8) {value : UInt32}
    (hv : value.toNat < 32) :
    ((s.acc <<< 5) ||| value).toNat = s.acc.toNat * 2 ^ 5 + value.toNat ∧
      s.acc.toNat * 2 ^ 5 + value.toNat < 2 ^ 12 := by
  obtain ⟨hbits, hacc⟩ := hs
  have hacc7 : s.acc.toNat < 2 ^ 7 :=
    lt_of_lt_of_le hacc (Nat.pow_le_pow_right (by decide) (by omega))
  refine ⟨?_, by omega⟩
  rw [toNat_shiftLeft_or (by rw [toNat_five]; decide) (by rw [toNat_five]; exact hv)
    (by rw [toNat_five]; omega), toNat_five]

theorem toNat_bits_add_five {s : BitLoop UInt8} (hs : s.Fits 8) :
    (s.bits + 5).toNat = s.bits.toNat + 5 :=
  hs.toNat_bits_add (by decide)

/-- Once eight bits are pending after a symbol, the bits left after the byte are counted
exactly. -/
theorem toNat_bits_sub_eight {s : BitLoop UInt8} (hs : s.Fits 8) (h8 : 8 ≤ s.bits.toNat + 5) :
    (s.bits + 5 - 8).toNat = s.bits.toNat + 5 - 8 := by
  have hadd := toNat_bits_add_five hs
  rw [UInt32.toNat_sub_of_le _ _ (UInt32.le_iff_toNat_le.2 (by rw [hadd, toNat_eight]; exact h8)),
    hadd, toNat_eight]

theorem pushSymbol_eq (s : BitLoop UInt8) (value : UInt32) :
    pushSymbol s value =
      if 8 ≤ s.bits + 5 then
        ⟨s.out ++ [(((s.acc <<< 5) ||| value) >>> (s.bits + 5 - 8)).toUInt8],
          ((s.acc <<< 5) ||| value) &&& ((1 <<< (s.bits + 5 - 8)) - 1), s.bits + 5 - 8⟩
      else ⟨s.out, (s.acc <<< 5) ||| value, s.bits + 5⟩ :=
  rfl

/-- A byte is written once eight bits are pending, and it is below 256 before it is cut to eight
bits. -/
theorem pushSymbol_byte_lt {s : BitLoop UInt8} (hs : s.Fits 8) {value : UInt32}
    (hv : value.toNat < 32) (h8 : 8 ≤ s.bits.toNat + 5) :
    (((s.acc <<< 5) ||| value) >>> (s.bits + 5 - 8)).toNat < 256 := by
  obtain ⟨hshift, -⟩ := pushSymbol_shift hs hv
  have hbits := toNat_bits_sub_eight hs h8
  rw [toNat_shiftRight_of_lt (by rw [hbits]; have := hs.1; omega), hbits, hshift,
    Nat.div_lt_iff_lt_mul (Nat.two_pow_pos _)]
  calc s.acc.toNat * 2 ^ 5 + value.toNat
      < 2 ^ (s.bits.toNat + 5) := shift_in_lt hs.2 hv
    _ = 256 * 2 ^ (s.bits.toNat + 5 - 8) := by
      rw [show (256 : Nat) = 2 ^ 8 from rfl, ← Nat.pow_add]
      congr 1
      omega

/-- One symbol keeps the invariant, writes the whole byte of the pending bits followed by the
symbol's bits if there is one, and leaves the rest pending. -/
theorem pushSymbol_step {s : BitLoop UInt8} (hs : s.Fits 8) {value : UInt32}
    (hv : value.toNat < 32) :
    (pushSymbol s value).Fits 8 ∧
      (pushSymbol s value).out = s.out ++
        (pieces 8 (by decide) (fullGroups 8 (s.pending ++ bitsOf 5 value.toNat))).map
          (fun g => (ofBits g).toUInt8) ∧
      (pushSymbol s value).pending = leftBits 8 (s.pending ++ bitsOf 5 value.toNat) := by
  obtain ⟨hshift, -⟩ := pushSymbol_shift hs hv
  have hbits := toNat_bits_add_five hs
  have hstream : bitsOf (s.bits.toNat + 5) ((s.acc <<< 5) ||| value).toNat =
      s.pending ++ bitsOf 5 value.toNat := by
    rw [hshift, bitsOf_mul_add hv]
    rfl
  have hlen : (s.pending ++ bitsOf 5 value.toNat).length = s.bits.toNat + 5 := by
    rw [List.length_append, BitLoop.length_pending, length_bitsOf]
  rw [pushSymbol_eq]
  by_cases h8 : 8 ≤ s.bits.toNat + 5
  · have h8' : (8 : UInt32) ≤ s.bits + 5 :=
      UInt32.le_iff_toNat_le.2 (by rw [hbits, toNat_eight]; exact h8)
    have hsub := toNat_bits_sub_eight hs h8
    have hsplit : s.pending ++ bitsOf 5 value.toNat =
        bitsOf 8 (((s.acc <<< 5) ||| value).toNat / 2 ^ (s.bits.toNat + 5 - 8)) ++
          bitsOf (s.bits.toNat + 5 - 8) ((s.acc <<< 5) ||| value).toNat := by
      rw [← hstream, ← bitsOf_add]
      congr 1
      omega
    have hcut : (s.pending ++ bitsOf 5 value.toNat).length / 8 * 8 = 8 := by
      rw [hlen]
      have := hs.1
      omega
    have hbyte : (((s.acc <<< 5) ||| value) >>> (s.bits + 5 - 8)).toUInt8 =
        (ofBits (bitsOf 8 (((s.acc <<< 5) ||| value).toNat / 2 ^ (s.bits.toNat + 5 - 8)))).toUInt8 := by
      apply UInt8.toNat_inj.1
      rw [UInt32.toNat_toUInt8, toNat_shiftRight_of_lt (by rw [hsub]; have := hs.1; omega), hsub,
        ofBits_bitsOf, Nat.toUInt8_eq, UInt8.toNat_ofNat', Nat.mod_mod]
    rw [if_pos h8']
    refine ⟨⟨?_, ?_⟩, ?_, ?_⟩
    · show (s.bits + 5 - 8).toNat < 8
      rw [hsub]
      omega
    · show (((s.acc <<< 5) ||| value) &&& ((1 <<< (s.bits + 5 - 8)) - 1)).toNat <
        2 ^ (s.bits + 5 - 8).toNat
      rw [toNat_and_mask (by rw [hsub]; omega)]
      exact Nat.mod_lt _ (Nat.two_pow_pos _)
    · show s.out ++ [_] = _
      rw [fullGroups, hcut, hsplit, List.take_append, List.take_of_length_le (by rw [length_bitsOf]),
        length_bitsOf, Nat.sub_self, List.take_zero, List.append_nil,
        pieces_of_length (length_bitsOf 8 _), List.map_cons, List.map_nil, hbyte]
    · show bitsOf (s.bits + 5 - 8).toNat
        (((s.acc <<< 5) ||| value) &&& ((1 <<< (s.bits + 5 - 8)) - 1)).toNat = _
      rw [toNat_and_mask (by rw [hsub]; omega), hsub, bitsOf_mod, leftBits, hcut, hsplit,
        List.drop_left' (length_bitsOf 8 _)]
  · have h8' : ¬(8 : UInt32) ≤ s.bits + 5 := by
      rw [UInt32.le_iff_toNat_le, hbits, toNat_eight]
      exact h8
    rw [if_neg h8']
    refine ⟨⟨?_, ?_⟩, ?_, ?_⟩
    · show (s.bits + 5).toNat < 8
      omega
    · show ((s.acc <<< 5) ||| value).toNat < 2 ^ (s.bits + 5).toNat
      rw [hshift, hbits]
      exact shift_in_lt hs.2 hv
    · show s.out = _
      rw [fullGroups_of_lt (by omega), pieces_nil, List.map_nil, List.append_nil]
    · show bitsOf (s.bits + 5).toNat ((s.acc <<< 5) ||| value).toNat = _
      rw [leftBits_of_lt (by omega), hbits, hstream]

/-- Reading the characters of a text: their symbols' values are read first, and the loop runs
over them. -/
theorem foldlM_readChar (cs : List Char) (s : BitLoop UInt8) :
    cs.foldlM readChar s =
      symbolValues cs >>= fun vs => .ok (vs.foldl (fun s v => pushSymbol s v.toUInt32) s) := by
  induction cs generalizing s with
  | nil => rfl
  | cons c cs ih =>
    rw [List.foldlM_cons, symbolValues]
    by_cases hdash : c = '-'
    · rw [if_pos hdash, readChar, if_pos hdash]
      exact ih s
    · rw [if_neg hdash, readChar, if_neg hdash]
      cases hv : symbolValue? c with
      | none => rfl
      | some v =>
        show List.foldlM readChar (pushSymbol s v.toUInt32) cs = _
        rw [ih]
        cases symbolValues cs <;> rfl

theorem foldl_pushSymbol {vs : List Nat} (hvs : ∀ v ∈ vs, v < 32) :
    (vs.foldl (fun s v => pushSymbol s v.toUInt32) ⟨[], 0, 0⟩).Fits 8 ∧
      (vs.foldl (fun s v => pushSymbol s v.toUInt32) ⟨[], 0, 0⟩).out =
        (pieces 8 (by decide) (fullGroups 8 (vs.flatMap (bitsOf 5)))).map
          (fun g => (ofBits g).toUInt8) ∧
      (vs.foldl (fun s v => pushSymbol s v.toUInt32) ⟨[], 0, 0⟩).pending =
        leftBits 8 (vs.flatMap (bitsOf 5)) := by
  have hstep : ∀ (s : BitLoop UInt8) (v : Nat), s.Fits 8 → v < 32 →
      (pushSymbol s v.toUInt32).Fits 8 ∧
      (pushSymbol s v.toUInt32).out = s.out ++
        (pieces 8 (by decide) (fullGroups 8 (s.pending ++ bitsOf 5 v))).map
          (fun g => (ofBits g).toUInt8) ∧
      (pushSymbol s v.toUInt32).pending = leftBits 8 (s.pending ++ bitsOf 5 v) := by
    intro s v hs hv
    have hval := toNat_toUInt32_of_lt hv
    have := pushSymbol_step hs (show v.toUInt32.toNat < 32 by rw [hval]; exact hv)
    rwa [hval] at this
  have hrun := BitLoop.foldl_regroup (by decide) (fun v => v < 32) hstep vs ⟨[], 0, 0⟩
    (BitLoop.fits_start (by decide)) hvs
  rwa [BitLoop.pending_start, List.nil_append, List.nil_append] at hrun

/-- The loop reads a text through the bits of its symbols' values. -/
theorem decode_eq_readBits (text : String) :
    decode text =
      symbolValues text.toList >>= fun values => readBits (values.flatMap (bitsOf 5)) := by
  unfold decode
  rw [foldlM_readChar]
  cases hvs : symbolValues text.toList with
  | error e => rfl
  | ok vs =>
    obtain ⟨hfits, hout, hpend⟩ := foldl_pushSymbol (lt_of_symbolValues hvs)
    set s := vs.foldl (fun s v => pushSymbol s v.toUInt32) ⟨[], 0, 0⟩ with hs
    have hlen : s.bits.toNat = (vs.flatMap (bitsOf 5)).length % 8 := by
      rw [← BitLoop.length_pending, hpend, length_leftBits]
    have hacc : s.acc.toNat = ofBits (leftBits 8 (vs.flatMap (bitsOf 5))) := by
      rw [← hpend, BitLoop.ofBits_pending hfits]
    show (do
      if 5 ≤ s.bits then throw KeyTextFault.trailingSymbol
      if s.acc ≠ 0 then throw KeyTextFault.paddingBits
      pure s.out : Except KeyTextFault Bytes) = readBits (vs.flatMap (bitsOf 5))
    rw [readBits_eq]
    by_cases htrail : 5 ≤ (vs.flatMap (bitsOf 5)).length % 8
    · have h5 : (5 : UInt32) ≤ s.bits := by
        rw [UInt32.le_iff_toNat_le, hlen]
        exact htrail
      rw [if_pos htrail, if_pos h5]
      rfl
    · have h5 : ¬(5 : UInt32) ≤ s.bits := by
        rw [UInt32.le_iff_toNat_le, hlen]
        exact htrail
      rw [if_neg htrail, if_neg h5]
      have hpad_iff : (leftBits 8 (vs.flatMap (bitsOf 5))).any id = true ↔ s.acc ≠ 0 := by
        rw [Ne, ← UInt32.toNat_inj, hacc, UInt32.toNat_zero,
          ofBits_eq_zero_iff, List.any_eq_true]
        constructor
        · rintro ⟨b, hb, hbt⟩ hzero
          rw [hzero b hb] at hbt
          cases hbt
        · intro hne
          by_contra hnone
          exact hne fun b hb => by
            cases hbv : b
            · rfl
            · exact absurd ⟨b, hb, by rw [hbv]; rfl⟩ hnone
      by_cases hpad : (leftBits 8 (vs.flatMap (bitsOf 5))).any id = true
      · rw [show (List.drop ((vs.flatMap (bitsOf 5)).length / 8 * 8) (vs.flatMap (bitsOf 5))).any id
          = true from hpad, if_pos rfl, if_pos (hpad_iff.1 hpad)]
        rfl
      · rw [show (List.drop ((vs.flatMap (bitsOf 5)).length / 8 * 8) (vs.flatMap (bitsOf 5))).any id
          = false from Bool.eq_false_iff.2 hpad, if_neg Bool.false_ne_true,
          if_neg (mt hpad_iff.2 hpad), hout]
        rfl

end SlabLedger.Crockford
