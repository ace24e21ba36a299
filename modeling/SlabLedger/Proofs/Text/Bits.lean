import Mathlib.Tactic.Ring
import SlabLedger.Bytes

/-!
# Bits of numbers and byte strings

`bitsOf w n` lists the low `w` bits of `n` from the top, `ofBits` reads a list of bits back as a
number, `toBits` lists the bits of a byte string, and `pieces` cuts a list into groups of one
size. `bitsOf` and `ofBits` are inverse on lists of one length (`ofBits_bitsOf`,
`bitsOf_ofBits`); the bits of a number split at any place into the bits above and below it
(`bitsOf_add`), and the value of bits written one after the other splits the same way
(`ofBits_append`); `pieces` cuts a list into groups that `flatten` joins again
(`flatten_pieces`), and a list whose front is whole groups is cut there
(`pieces_append_of_dvd`).
-/

namespace SlabLedger.Crockford

/-! ## Bits -/

/-- The bits of a number below `2 ^ width`, most significant first. -/
def bitsOf (width n : Nat) : List Bool :=
  (List.range width).reverse.map n.testBit

/-- The number whose bits are listed, most significant first. -/
def ofBits (bits : List Bool) : Nat :=
  bits.foldl (fun acc b => 2 * acc + b.toNat) 0

/-- The bits of a byte string, most significant bit of the first byte first. -/
def toBits (bs : Bytes) : List Bool :=
  bs.flatMap fun b => bitsOf 8 b.toNat

@[simp]
theorem length_bitsOf (w n : Nat) : (bitsOf w n).length = w := by
  simp [bitsOf]

theorem bitsOf_succ (w n : Nat) : bitsOf (w + 1) n = n.testBit w :: bitsOf w n := by
  simp [bitsOf, List.range_succ]

theorem foldl_ofBits (acc : Nat) (l : List Bool) :
    l.foldl (fun acc b => 2 * acc + b.toNat) acc = acc * 2 ^ l.length + ofBits l := by
  induction l generalizing acc with
  | nil => simp [ofBits]
  | cons b l ih =>
    have hhead : ofBits (b :: l) = b.toNat * 2 ^ l.length + ofBits l := by
      rw [ofBits, List.foldl_cons, Nat.mul_zero, Nat.zero_add, ih]
    rw [List.foldl_cons, ih, hhead, List.length_cons, Nat.pow_succ]
    ring

theorem ofBits_cons (b : Bool) (l : List Bool) :
    ofBits (b :: l) = b.toNat * 2 ^ l.length + ofBits l := by
  rw [ofBits, List.foldl_cons, foldl_ofBits, Nat.mul_zero, Nat.zero_add]

theorem ofBits_lt (l : List Bool) : ofBits l < 2 ^ l.length := by
  induction l with
  | nil => simp [ofBits]
  | cons b l ih =>
    rw [ofBits_cons, List.length_cons, Nat.pow_succ]
    cases b <;> simp <;> omega

theorem ofBits_bitsOf (w n : Nat) : ofBits (bitsOf w n) = n % 2 ^ w := by
  induction w with
  | zero => simp [bitsOf, ofBits, Nat.mod_one]
  | succ w ih =>
    rw [bitsOf_succ, ofBits_cons, ih, length_bitsOf, Nat.mod_pow_succ, Nat.toNat_testBit]
    ring

/-- Lists of bits of one length are told apart by their values. -/
theorem ofBits_inj : ∀ {l₁ l₂ : List Bool}, l₁.length = l₂.length → ofBits l₁ = ofBits l₂ →
    l₁ = l₂
  | [], [], _, _ => rfl
  | b₁ :: l₁, b₂ :: l₂, hlen, hval => by
    rw [List.length_cons, List.length_cons, Nat.add_right_cancel_iff] at hlen
    rw [ofBits_cons, ofBits_cons, hlen] at hval
    have hlt₁ := ofBits_lt l₁
    have hlt₂ := ofBits_lt l₂
    rw [hlen] at hlt₁
    have hhead : b₁ = b₂ := by
      cases b₁ <;> cases b₂ <;> simp at hval ⊢ <;> omega
    subst hhead
    rw [ofBits_inj hlen (by omega)]
  | [], _ :: _, hlen, _ => by simp at hlen
  | _ :: _, [], hlen, _ => by simp at hlen

theorem bitsOf_ofBits (l : List Bool) : bitsOf l.length (ofBits l) = l :=
  ofBits_inj (length_bitsOf _ _) (by rw [ofBits_bitsOf, Nat.mod_eq_of_lt (ofBits_lt l)])

theorem ofBits_eq_zero_iff {l : List Bool} : ofBits l = 0 ↔ ∀ b ∈ l, b = false := by
  induction l with
  | nil => simp [ofBits]
  | cons b l ih =>
    rw [ofBits_cons, List.forall_mem_cons, ← ih]
    cases b <;> simp


/-- The last `r` of the `w` bits of a number are its own `r` bits. -/
theorem drop_bitsOf {r w : Nat} (hr : r ≤ w) (n : Nat) :
    (bitsOf w n).drop (w - r) = bitsOf r n := by
  obtain ⟨k, rfl⟩ := Nat.exists_eq_add_of_le hr
  induction k with
  | zero => simp
  | succ k ih =>
    have hdrop : r + (k + 1) - r = r + k - r + 1 := by omega
    rw [hdrop, ← Nat.add_assoc, bitsOf_succ, List.drop_succ_cons]
    exact ih (Nat.le_add_right r k)

/-- The `w + k` bits of a number are the `k` bits above its low `w`, then the low `w`. -/
theorem bitsOf_add (w k n : Nat) : bitsOf (w + k) n = bitsOf k (n / 2 ^ w) ++ bitsOf w n := by
  simp [bitsOf, List.range_add, Nat.testBit_div_two_pow, Nat.add_comm]

theorem bitsOf_mod (w n : Nat) : bitsOf w (n % 2 ^ w) = bitsOf w n := by
  simp only [bitsOf, List.map_inj_left, List.mem_reverse, List.mem_range]
  intro i hi
  simp [Nat.testBit_mod_two_pow, hi]

/-- The value of bits written one after the other: the first weigh as many places as the second
have. -/
theorem ofBits_append (l₁ l₂ : List Bool) :
    ofBits (l₁ ++ l₂) = ofBits l₁ * 2 ^ l₂.length + ofBits l₂ := by
  rw [ofBits, List.foldl_append, foldl_ofBits]
  rfl

theorem length_toBits (bs : Bytes) : (toBits bs).length = 8 * bs.length := by
  simp [toBits, List.length_flatMap, List.map_const', Nat.mul_comm]

/-! ## Pieces -/

/-- A list cut into pieces of `size` elements; the last piece may be shorter. -/
def pieces {α : Type} (size : Nat) (h : 0 < size) (l : List α) : List (List α) :=
  if l.isEmpty then [] else l.take size :: pieces size h (l.drop size)
termination_by l.length
decreasing_by
  simp only [List.isEmpty_iff] at *
  have : l.length ≠ 0 := by simpa using ‹¬l = []›
  simp only [List.length_drop]
  omega

section Pieces

variable {α : Type} {k : Nat} {hk : 0 < k}

@[simp]
theorem pieces_nil : pieces k hk ([] : List α) = [] := by
  rw [pieces]
  rfl

theorem pieces_of_ne_nil {l : List α} (hl : l ≠ []) :
    pieces k hk l = l.take k :: pieces k hk (l.drop k) := by
  rw [pieces, if_neg (by simpa using hl)]

theorem pieces_append_of_length {l₁ l₂ : List α} (h₁ : l₁.length = k) :
    pieces k hk (l₁ ++ l₂) = l₁ :: pieces k hk l₂ := by
  have hne : l₁ ++ l₂ ≠ [] := by
    intro hnil
    have := congrArg List.length hnil
    simp only [List.length_append, List.length_nil] at this
    omega
  rw [pieces_of_ne_nil hne, List.take_left' h₁, List.drop_left' h₁]

/-- A list whose front is whole groups is cut at the end of the front. -/
theorem pieces_of_length {l : List α} (h : l.length = k) : pieces k hk l = [l] := by
  conv_lhs => rw [← List.append_nil l]
  rw [pieces_append_of_length h, pieces_nil]

theorem pieces_append_of_dvd {l₁ l₂ : List α} (h₁ : l₁.length % k = 0) :
    pieces k hk (l₁ ++ l₂) = pieces k hk l₁ ++ pieces k hk l₂ := by
  fun_induction pieces k hk l₁ with
  | case1 l hl => rw [List.isEmpty_iff.mp hl, List.nil_append, List.nil_append]
  | case2 l hl ih =>
    have hne : l ≠ [] := by simpa using hl
    have hfull : k ≤ l.length := by
      rcases Nat.lt_or_ge l.length k with hlt | hge
      · rw [Nat.mod_eq_of_lt hlt] at h₁
        exact absurd (List.length_eq_zero_iff.mp h₁) hne
      · exact hge
    have htake : (l.take k).length = k := by simp [hfull]
    have hrest : (l.drop k).length % k = 0 := by
      rw [List.length_drop, ← Nat.mod_eq_sub_mod hfull]
      exact h₁
    conv_lhs => rw [← List.take_append_drop k l, List.append_assoc]
    rw [pieces_append_of_length htake, ih hrest, List.cons_append]

/-- Pieces of a list of whole groups are the groups. -/
theorem pieces_flatten {gs : List (List α)} (hgs : ∀ g ∈ gs, g.length = k) :
    pieces k hk gs.flatten = gs := by
  induction gs with
  | nil => exact pieces_nil
  | cons g gs ih =>
    rw [List.flatten_cons, pieces_append_of_length (hgs g List.mem_cons_self),
      ih fun g' hg' => hgs g' (List.mem_cons_of_mem g hg')]

theorem flatten_pieces (l : List α) : (pieces k hk l).flatten = l := by
  fun_induction pieces k hk l with
  | case1 l hl => simpa using hl
  | case2 l hl ih => rw [List.flatten_cons, ih, List.take_append_drop]

theorem length_pieces (l : List α) : (pieces k hk l).length = (l.length + k - 1) / k := by
  fun_induction pieces k hk l with
  | case1 l hl =>
    rw [List.isEmpty_iff.mp hl, List.length_nil, List.length_nil, Nat.zero_add]
    exact (Nat.div_eq_of_lt (by omega)).symm
  | case2 l hl ih =>
    have hpos : 0 < l.length := List.length_pos_iff.mpr (by simpa using hl)
    rw [List.length_cons, ih, List.length_drop]
    by_cases hfull : k ≤ l.length
    · have hsplit : l.length + k - 1 = l.length - k + k - 1 + k := by omega
      rw [hsplit, Nat.add_div_right _ hk]
    · have hlast : l.length - k + k - 1 = k - 1 := by omega
      rw [hlast, Nat.div_eq_of_lt (by omega), Nat.zero_add]
      exact (Nat.div_eq_of_lt_le (by omega) (by omega)).symm

/-- The pieces of a list of bits, each filled with zero bits to a whole group, are the pieces of
the list filled with zero bits to a whole number of groups. -/
theorem pieces_pad (l : List Bool) :
    (pieces k hk l).map (fun g => g ++ List.replicate (k - g.length) false) =
      pieces k hk (l ++ List.replicate ((k - l.length % k) % k) false) := by
  fun_induction pieces k hk l with
  | case1 l hl =>
    rw [List.isEmpty_iff.mp hl, List.length_nil, Nat.zero_mod, Nat.sub_zero, Nat.mod_self,
      List.replicate_zero, List.nil_append, pieces_nil, List.map_nil]
  | case2 l hl ih =>
    rw [List.map_cons]
    by_cases hfull : k ≤ l.length
    · have htake : (l.take k).length = k := by simp [hfull]
      have hmod : (l.drop k).length % k = l.length % k := by
        rw [List.length_drop, Nat.mod_eq_sub_mod hfull]
      rw [ih, htake, Nat.sub_self, List.replicate_zero, List.append_nil, hmod,
        ← pieces_append_of_length htake, ← List.append_assoc, List.take_append_drop]
    · have hpos : 0 < l.length := List.length_pos_iff.mpr (by simpa using hl)
      have hmod : (k - l.length % k) % k = k - l.length := by
        rw [Nat.mod_eq_of_lt (by omega : l.length < k)]
        exact Nat.mod_eq_of_lt (by omega)
      have hlast : (l ++ List.replicate (k - l.length) false).length = k := by simp; omega
      rw [List.take_of_length_le (by omega), List.drop_of_length_le (by omega), pieces_nil,
        List.map_nil, hmod, ← List.append_nil (l ++ _), pieces_append_of_length hlast, pieces_nil,
        List.append_nil]

end Pieces

end SlabLedger.Crockford
