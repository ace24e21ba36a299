import SlabLedger.Key
import SlabLedger.Proofs.Text.Crockford

/-!
# Order ids sort like their keys

An order id writes the sixteen bytes of a key from the most significant on, five bits to a
symbol, with two zero bits after the last of the 128. Every id therefore has 26 symbols, and the
symbols of the alphabet `0123456789abcdefghjkmnpqrstvwxyz` stand in ascending character order.
Comparing two ids character by character compares their bits group by group from the most
significant, so ids compare as their keys do (`Key.compare_orderId`).

The argument is over bits: the bytes of a key in reverse are its 128 bits from the top
(`toBits_reverse_leBytes`), the value of bits written one after the other splits at the seam
(`ofBits_append`), and texts written from equally many bits compare as the numbers those bits
spell (`symbols_lt_iff`).
-/

namespace SlabLedger

namespace Crockford

/-! ## Bits of a number, high part first -/

/-- The bytes of a number's `w` little-endian bytes, in reverse, are its low `8 * w` bits from
the top. -/
theorem toBits_reverse_leBytes (n w : Nat) :
    toBits (Bytes.leBytes n w).reverse = bitsOf (8 * w) n := by
  induction w generalizing n with
  | zero => rfl
  | succ w ih =>
    have hlow : bitsOf 8 ((n % 256).toUInt8.toNat) = bitsOf 8 n := by
      have hbyte : (n % 256).toUInt8.toNat = n % 2 ^ 8 := by simp [Nat.toUInt8]
      rw [hbyte, bitsOf_mod]
    rw [Bytes.leBytes, List.reverse_cons, toBits, List.flatMap_append, ← toBits, ih,
      List.flatMap_singleton, hlow, Nat.mul_succ, Nat.add_comm, bitsOf_add 8]
    rfl

/-! ## Symbols in character order -/

theorem symbol_lt_succ : ∀ v < 31, symbol v < symbol (v + 1) := by
  decide +kernel

theorem symbol_lt_of_lt {v w : Nat} (hvw : v < w) (hw : w < 32) : symbol v < symbol w := by
  induction w, hvw using Nat.le_induction with
  | base => exact symbol_lt_succ v (by omega)
  | succ w _ ih => exact Char.lt_trans (ih (by omega)) (symbol_lt_succ w (by omega))

theorem symbol_inj {v w : Nat} (hv : v < 32) (hw : w < 32) (h : symbol v = symbol w) : v = w := by
  rw [← (symbol_table v hv).2.1, ← (symbol_table w hw).2.1, h]

theorem symbol_lt_symbol_iff {v w : Nat} (hv : v < 32) (hw : w < 32) :
    symbol v < symbol w ↔ v < w := by
  refine ⟨fun h => ?_, fun h => symbol_lt_of_lt h hw⟩
  rcases Nat.lt_trichotomy v w with hlt | rfl | hgt
  · exact hlt
  · exact absurd h (Char.lt_irrefl _)
  · exact absurd (Char.lt_trans h (symbol_lt_of_lt hgt hv)) (Char.lt_irrefl _)

/-! ## Texts of equally many symbols -/

/-- Two numbers written with a high part above a low part below `m` compare by their high parts
first. -/
theorem mul_add_lt_mul_add_iff {m a b c d : Nat} (hb : b < m) (hd : d < m) :
    a * m + b < c * m + d ↔ a < c ∨ a = c ∧ b < d := by
  constructor
  · intro h
    rcases Nat.lt_trichotomy a c with hac | rfl | hca
    · exact .inl hac
    · exact .inr ⟨rfl, by omega⟩
    · have hle : (c + 1) * m ≤ a * m := Nat.mul_le_mul_right m hca
      rw [Nat.succ_mul] at hle
      omega
  · rintro (hac | ⟨rfl, hbd⟩)
    · have hle : (a + 1) * m ≤ c * m := Nat.mul_le_mul_right m hac
      rw [Nat.succ_mul] at hle
      omega
    · omega

/-- Texts written from equally many bits, five to a symbol, compare as the numbers the bits
spell. -/
theorem symbols_lt_iff {n : Nat} {X Y : List Bool} (hX : X.length = 5 * n)
    (hY : Y.length = 5 * n) :
    ((pieces 5 (by decide) X).map fun g => symbol (ofBits g)) <
        (pieces 5 (by decide) Y).map (fun g => symbol (ofBits g)) ↔ ofBits X < ofBits Y := by
  induction n generalizing X Y with
  | zero =>
    rw [List.length_eq_zero_iff.1 hX, List.length_eq_zero_iff.1 hY]
    simp [ofBits]
  | succ n ih =>
    obtain ⟨g, X', hg, hX', rfl⟩ :
        ∃ g X', g.length = 5 ∧ X'.length = 5 * n ∧ X = g ++ X' :=
      ⟨X.take 5, X.drop 5, by simp; omega, by simp; omega, (List.take_append_drop 5 X).symm⟩
    obtain ⟨h, Y', hh, hY', rfl⟩ :
        ∃ h Y', h.length = 5 ∧ Y'.length = 5 * n ∧ Y = h ++ Y' :=
      ⟨Y.take 5, Y.drop 5, by simp; omega, by simp; omega, (List.take_append_drop 5 Y).symm⟩
    have hglt : ofBits g < 32 := by simpa [hg] using ofBits_lt g
    have hhlt : ofBits h < 32 := by simpa [hh] using ofBits_lt h
    have hhead : symbol (ofBits g) = symbol (ofBits h) ↔ ofBits g = ofBits h :=
      ⟨symbol_inj hglt hhlt, congrArg symbol⟩
    rw [pieces_append_of_length hg, pieces_append_of_length hh, List.map_cons, List.map_cons,
      List.cons_lt_cons_iff, symbol_lt_symbol_iff hglt hhlt, hhead, ih hX' hY',
      ofBits_append, ofBits_append, hX', hY']
    have hX'lt : ofBits X' < 2 ^ (5 * n) := by simpa [hX'] using ofBits_lt X'
    have hY'lt : ofBits Y' < 2 ^ (5 * n) := by simpa [hY'] using ofBits_lt Y'
    exact (mul_add_lt_mul_add_iff hX'lt hY'lt).symm

end Crockford

namespace Key

open Crockford

/-- An order id is the symbols of the key's 128 bits from the top and two zero bits, five bits
to a symbol. -/
theorem orderId_eq (k : Key) :
    k.orderId = String.ofList ((pieces 5 (by decide) (bitsOf 128 k.value ++ [false, false])).map
      fun g => symbol (ofBits g)) := by
  rw [orderId, encode_eq, filledBits, toBytes, toBits_reverse_leBytes, List.length_reverse,
    Bytes.length_leBytes]
  rfl

theorem ofBits_orderId_bits (k : Key) :
    ofBits (bitsOf 128 k.value ++ [false, false]) = 4 * k.value := by
  rw [ofBits_append, ofBits_bitsOf, Nat.mod_eq_of_lt (show k.value < 2 ^ 128 from k.value_lt)]
  simp [ofBits]
  omega

theorem orderId_lt_iff (a b : Key) : a.orderId < b.orderId ↔ a.value < b.value := by
  show a.orderId.toList < b.orderId.toList ↔ _
  rw [orderId_eq, orderId_eq, String.toList_ofList, String.toList_ofList,
    symbols_lt_iff (n := 26) (by simp) (by simp), ofBits_orderId_bits, ofBits_orderId_bits]
  omega

theorem orderId_inj {a b : Key} (h : a.orderId = b.orderId) : a = b := by
  have hvalue : a.value = b.value := by
    rcases Nat.lt_trichotomy a.value b.value with hlt | heq | hgt
    · exact absurd ((orderId_lt_iff a b).2 hlt) (h ▸ String.lt_irrefl _)
    · exact heq
    · exact absurd ((orderId_lt_iff b a).2 hgt) (h ▸ String.lt_irrefl _)
  cases a
  cases b
  cases hvalue
  rfl

/-- Order ids compare as the keys they are written from. -/
theorem compare_orderId (a b : Key) : compare a.orderId b.orderId = compare a.value b.value := by
  have heq : a.orderId = b.orderId ↔ a.value = b.value :=
    ⟨fun h => congrArg value (orderId_inj h), fun h => by
      cases a
      cases b
      cases h
      rfl⟩
  have hlt := orderId_lt_iff a b
  generalize a.orderId = x at hlt heq ⊢
  generalize b.orderId = y at hlt heq ⊢
  show (if x < y then _ else if x = y then _ else _) =
    (if a.value < b.value then _ else if a.value = b.value then _ else _)
  simp only [hlt, heq]

theorem length_orderId (k : Key) : k.orderId.length = 26 := by
  rw [orderId, length_encode, List.length_reverse, toBytes, Bytes.length_leBytes]

/-- Order ids compare, character by character, as the 128-bit keys they are written from, and
every order id has 26 characters. -/
theorem orderId_compares_like_value (a b : Key) :
    compare a.orderId b.orderId = compare a.value b.value ∧ a.orderId.length = 26 :=
  ⟨compare_orderId a b, length_orderId a⟩

end Key

end SlabLedger
