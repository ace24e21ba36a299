import Mathlib.Data.Nat.Digits.Lemmas
import SlabLedger.Text.Base58

/-!
# The base-58 carry loops

Both conversions of `Base58` run one carry loop (`carryIn`): the digits built so far, least
significant first, are multiplied by the radix's `mult` and a new value is added, the carry going
from each digit to the next and the carry left at the end pushed as new digits. For writing the
digits are base 58 and each byte multiplies them by 256 (`Radix.write`); for reading they are
bytes and each digit multiplies them by 58 (`Radix.read`).

The carry is below `mult` at the head of every step and below `base * mult = 58 * 256` inside it,
so each 32-bit sum is exact (`carry_step`). From there a pass turns the digits of `v` into the
digits of `v * mult + carry` (`carryIn_digits`, by induction on the digits), and a run of the
loop gives the digits of the value of its whole input: the base-58 digits of the bytes' value
when writing (`foldl_carryIn_write`), the bytes of the digits' value when reading
(`foldlM_readDigit`). `digits` and `valueOf` are those values' closed forms.
-/

namespace SlabLedger.Base58

/-! ## Digits and values -/

/-- The base-58 digits of `n`, most significant first; none for zero. -/
def digits (n : Nat) : List Nat :=
  if n = 0 then [] else digits (n / 58) ++ [n % 58]
decreasing_by omega

/-- The value of the digit bytes, most significant first; the first other byte fails. -/
def valueOf : Nat → Bytes → Except UInt8 Nat
  | acc, [] => .ok acc
  | acc, b :: rest =>
    match digitValue? b with
    | some v => valueOf (58 * acc + v) rest
    | none => .error b

theorem length_alphabet : alphabet.length = 58 := by
  decide +kernel

theorem lt_of_digitValue? {b : UInt8} {v : Nat} (h : digitValue? b = some v) : v < 58 := by
  have hlt := (List.idxOf?_eq_some_iff.1 h).1
  rwa [length_alphabet] at hlt

theorem toNat_toUInt32_of_digitValue? {b : UInt8} {v : Nat} (h : digitValue? b = some v) :
    v.toUInt32.toNat = v := by
  rw [Nat.toUInt32_eq, UInt32.toNat_ofNat_of_lt'
    (Nat.lt_of_lt_of_le (lt_of_digitValue? h) (by decide))]

/-! ## Radices -/

/-- What the carry loop needs of a radix: its digits fit a byte, it multiplies by a positive
number, and a digit times the multiplier plus a carry below the multiplier fits 32 bits. -/
structure Radix.Sound (r : Radix) : Prop where
  base_le : r.base.toNat ≤ 256
  mult_pos : 0 < r.mult.toNat
  fits : r.base.toNat * r.mult.toNat ≤ 2 ^ 32

theorem Radix.write_sound : Radix.write.Sound :=
  ⟨by decide, by decide, by decide⟩

theorem Radix.read_sound : Radix.read.Sound :=
  ⟨by decide, by decide, by decide⟩

@[simp] theorem Radix.read_base : Radix.read.base.toNat = 256 := rfl

@[simp] theorem Radix.read_mult : Radix.read.mult.toNat = 58 := rfl

theorem Radix.one_lt_base_toNat (r : Radix) : 1 < r.base.toNat :=
  UInt32.lt_iff_toNat_lt.1 r.one_lt_base

/-! ## One pass -/

variable {r : Radix}

/-- One step of a pass: with the carry below `mult` and the digit below `base`, the 32-bit sum is
exact and below `base * mult`, and the carry passed on is again below `mult`. -/
theorem carry_step (hr : r.Sound) {c : UInt32} {d : UInt8} (hc : c.toNat < r.mult.toNat)
    (hd : d.toNat < r.base.toNat) :
    (c + d.toUInt32 * r.mult).toNat = c.toNat + d.toNat * r.mult.toNat ∧
      c.toNat + d.toNat * r.mult.toNat < r.base.toNat * r.mult.toNat ∧
      ((c + d.toUInt32 * r.mult) / r.base).toNat < r.mult.toNat := by
  have hsum : c.toNat + d.toNat * r.mult.toNat < r.base.toNat * r.mult.toNat :=
    calc c.toNat + d.toNat * r.mult.toNat
        < r.mult.toNat + d.toNat * r.mult.toNat := by omega
      _ = (d.toNat + 1) * r.mult.toNat := by rw [Nat.succ_mul, Nat.add_comm]
      _ ≤ r.base.toNat * r.mult.toNat := Nat.mul_le_mul_right _ hd
  have hfits := hr.fits
  have hmul : (d.toUInt32 * r.mult).toNat = d.toNat * r.mult.toNat := by
    rw [UInt32.toNat_mul, UInt8.toNat_toUInt32, Nat.mod_eq_of_lt (by omega)]
  have hadd : (c + d.toUInt32 * r.mult).toNat = c.toNat + d.toNat * r.mult.toNat := by
    rw [UInt32.toNat_add, hmul, Nat.mod_eq_of_lt (by omega)]
  refine ⟨hadd, hsum, ?_⟩
  rw [UInt32.toNat_div, hadd, Nat.div_lt_iff_lt_mul (by have := r.one_lt_base_toNat; omega),
    Nat.mul_comm r.mult.toNat]
  exact hsum

theorem carryIn_nil (r : Radix) (c : UInt32) : carryIn r [] c = spill r c :=
  rfl

theorem carryIn_cons (r : Radix) (d : UInt8) (ds : List UInt8) (c : UInt32) :
    carryIn r (d :: ds) c =
      ((c + d.toUInt32 * r.mult) % r.base).toUInt8 ::
        carryIn r ds ((c + d.toUInt32 * r.mult) / r.base) :=
  rfl

theorem toNat_toUInt8_mod (hr : r.Sound) (x : UInt32) :
    (x % r.base).toUInt8.toNat = x.toNat % r.base.toNat := by
  have hlt : x.toNat % r.base.toNat < 2 ^ 8 :=
    lt_of_lt_of_le (Nat.mod_lt _ (by have := r.one_lt_base_toNat; omega)) hr.base_le
  rw [UInt32.toNat_toUInt8, UInt32.toNat_mod, Nat.mod_eq_of_lt hlt]

/-- The carry left over is pushed as its own digits. -/
theorem spill_digits (hr : r.Sound) (c : UInt32) :
    (spill r c).map UInt8.toNat = Nat.digits r.base.toNat c.toNat := by
  fun_induction spill r c with
  | case1 => exact (Nat.digits_zero _).symm
  | case2 c h ih =>
    have hpos : 0 < c.toNat := Nat.pos_of_ne_zero fun h0 => h (UInt32.toNat_inj.1 h0)
    rw [List.map_cons, ih, UInt32.toNat_div, toNat_toUInt8_mod hr,
      Nat.digits_def' r.one_lt_base_toNat hpos]

/-- A pass over the digits of `v` with a carry below `mult` gives the digits of
`v * mult + carry`: by induction on the digits, each step keeping the carry below `mult`. -/
theorem carryIn_digits (hr : r.Sound) :
    ∀ (ds : List UInt8) (v : Nat) (c : UInt32), c.toNat < r.mult.toNat →
      ds.map UInt8.toNat = Nat.digits r.base.toNat v →
      (carryIn r ds c).map UInt8.toNat = Nat.digits r.base.toNat (v * r.mult.toNat + c.toNat)
  | [], v, c, _, hds => by
    have hv : v = 0 := Nat.digits_eq_nil_iff_eq_zero.1 hds.symm
    rw [carryIn_nil, spill_digits hr, hv, Nat.zero_mul, Nat.zero_add]
  | d :: ds, v, c, hc, hds => by
    have hb := r.one_lt_base_toNat
    have hv : 0 < v := Nat.pos_of_ne_zero fun h0 => by
      rw [h0, Nat.digits_zero] at hds
      cases hds
    rw [Nat.digits_def' hb hv, List.map_cons, List.cons.injEq] at hds
    obtain ⟨hd, hrest⟩ := hds
    obtain ⟨hsum, -, hcarry⟩ := carry_step hr hc (hd ▸ Nat.mod_lt _ (by omega))
    have hvalue : v * r.mult.toNat + c.toNat =
        (c.toNat + d.toNat * r.mult.toNat) + r.base.toNat * (v / r.base.toNat * r.mult.toNat) := by
      rw [hd]
      conv_lhs => rw [← Nat.mod_add_div v r.base.toNat]
      ring
    have hpos : 0 < v * r.mult.toNat + c.toNat :=
      Nat.lt_of_lt_of_le (Nat.mul_pos hv hr.mult_pos) (Nat.le_add_right _ _)
    rw [carryIn_cons, List.map_cons, carryIn_digits hr ds (v / r.base.toNat) _ hcarry hrest,
      toNat_toUInt8_mod hr, UInt32.toNat_div, hsum, Nat.digits_def' hb hpos, hvalue,
      Nat.add_mul_mod_self_left, Nat.add_mul_div_left _ _ (by omega), Nat.add_comm (_ / _)]

/-! ## Runs -/

theorem leValue_append_singleton (l : Bytes) (b : UInt8) :
    Bytes.leValue (l ++ [b]) = Bytes.leValue l + 256 ^ l.length * b.toNat := by
  induction l with
  | nil => simp [Bytes.leValue]
  | cons x l ih =>
    rw [List.cons_append, Bytes.leValue, Bytes.leValue, ih, List.length_cons, Nat.pow_succ]
    ring

theorem foldl_value (bs : Bytes) (v : Nat) :
    bs.foldl (fun v b => v * 256 + b.toNat) v = v * 256 ^ bs.length + Bytes.beValue bs := by
  induction bs generalizing v with
  | nil => simp [Bytes.beValue, Bytes.leValue]
  | cons b bs ih =>
    rw [List.foldl_cons, ih, Bytes.beValue, Bytes.beValue, List.reverse_cons,
      leValue_append_singleton, List.length_reverse, List.length_cons, Nat.pow_succ]
    ring

/-- Each byte multiplies the digits built so far by 256 and adds itself: by induction on the
bytes, the digits stay the base-58 digits of the value read so far. -/
theorem foldl_carryIn_digits (bs : Bytes) :
    ∀ (ds : List UInt8) (v : Nat), ds.map UInt8.toNat = Nat.digits 58 v →
      (bs.foldl (fun ds b => carryIn Radix.write ds b.toUInt32) ds).map UInt8.toNat =
        Nat.digits 58 (bs.foldl (fun v b => v * 256 + b.toNat) v) := by
  induction bs with
  | nil => exact fun _ _ h => h
  | cons b bs ih =>
    intro ds v hds
    have hb : b.toUInt32.toNat < Radix.write.mult.toNat := by
      rw [UInt8.toNat_toUInt32]
      exact b.toNat_lt
    have hstep := carryIn_digits Radix.write_sound ds v b.toUInt32 hb hds
    rw [UInt8.toNat_toUInt32] at hstep
    exact ih _ _ hstep

/-- Writing: the digits built from a byte string are the base-58 digits of its value. -/
theorem foldl_carryIn_write (bs : Bytes) :
    (bs.foldl (fun ds b => carryIn Radix.write ds b.toUInt32) []).map UInt8.toNat =
      Nat.digits 58 (Bytes.beValue bs) := by
  rw [foldl_carryIn_digits bs [] 0 rfl, foldl_value, Nat.zero_mul, Nat.zero_add]

theorem map_toUInt8_digits (n : Nat) :
    ((Nat.digits 256 n).map Nat.toUInt8).map UInt8.toNat = Nat.digits 256 n := by
  rw [List.map_map]
  refine (List.map_congr_left fun d hd => ?_).trans (List.map_id _)
  exact UInt8.toNat_ofNat_of_lt' (Nat.digits_lt_base (by norm_num) hd)

theorem eq_map_toUInt8_of_map_toNat {l : List UInt8} {ds : List Nat} (h : l.map UInt8.toNat = ds) :
    l = ds.map Nat.toUInt8 := by
  rw [← h, List.map_map]
  exact ((List.map_congr_left fun b _ => UInt8.ofNat_toNat).trans (List.map_id _)).symm

/-- Reading: the bytes built from digit bytes are the bytes of their value, and the first byte
that is no digit fails the run. -/
theorem foldlM_readDigit (bytes : Bytes) (acc : Nat) :
    bytes.foldlM readDigit ((Nat.digits 256 acc).map Nat.toUInt8) =
      (fun v => (Nat.digits 256 v).map Nat.toUInt8) <$> valueOf acc bytes := by
  induction bytes generalizing acc with
  | nil => rfl
  | cons b bytes ih =>
    rw [List.foldlM_cons, valueOf]
    cases hv : digitValue? b with
    | none =>
      rw [readDigit, hv]
      rfl
    | some v =>
      have hvv := toNat_toUInt32_of_digitValue? hv
      have hlt : v.toUInt32.toNat < Radix.read.mult.toNat := by
        rw [hvv]
        exact lt_of_digitValue? hv
      have hstep := carryIn_digits Radix.read_sound _ acc v.toUInt32 hlt (map_toUInt8_digits acc)
      rw [hvv, Radix.read_base, Radix.read_mult, Nat.mul_comm acc] at hstep
      rw [readDigit, hv]
      show List.foldlM readDigit (carryIn Radix.read _ v.toUInt32) bytes = _
      rw [eq_map_toUInt8_of_map_toNat hstep, ih]

end SlabLedger.Base58
