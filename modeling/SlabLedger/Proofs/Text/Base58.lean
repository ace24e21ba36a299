import Mathlib.Data.List.TakeWhile
import Mathlib.Data.Nat.Digits.Lemmas
import SlabLedger.Address
import SlabLedger.Proofs.Text.Carry

/-!
# Base-58 texts: round trip and the texts that are read

`Base58.encode` writes one `1` per leading zero byte and then the base-58 digits of the value of
the other bytes; `Base58.decode` reads the leading `1`s back as zero bytes and the other digits
as the fewest big-endian bytes of their value. Reading undoes writing for every byte string
(`decode_encode`), and what is read writes back to the text it was read from
(`encode_of_decode`): a text is accepted only in its written form. An address is 32 bytes, so
its text is read exactly when its characters are digits and the leading `1`s together with the
bytes of the value of the other digits make 32 (`parse_ok_iff`).

Both directions go through Mathlib's `Nat.digits`: the carry loops compute the base-58 digits of
the value when writing and its base-256 digits when reading (`encode_eq`, `decode_eq`, from the
run lemmas of `Proofs.Text.Carry`), neither has a leading zero (`Nat.getLast_digit_ne_zero`), and
that is why the two conversions undo each other.
-/

namespace SlabLedger

/-! ## Big-endian values -/

namespace Bytes

theorem leValue_eq_ofDigits (bs : Bytes) : leValue bs = Nat.ofDigits 256 (bs.map UInt8.toNat) := by
  induction bs with
  | nil => rfl
  | cons b rest ih => rw [leValue, ih, List.map_cons, Nat.ofDigits_cons]

theorem beValue_eq_ofDigits (bs : Bytes) :
    beValue bs = Nat.ofDigits 256 (bs.reverse.map UInt8.toNat) :=
  leValue_eq_ofDigits bs.reverse

theorem minimalBe_eq_digits (n : Nat) :
    minimalBe n = ((Nat.digits 256 n).map Nat.toUInt8).reverse := by
  induction n using Nat.strong_induction_on with
  | _ n ih =>
    rw [minimalBe]
    split
    · next hzero => rw [hzero, Nat.digits_zero, List.map_nil, List.reverse_nil]
    · next hpos =>
      rw [ih (n / 256) (by omega), Nat.digits_def' (by norm_num) (show 0 < n by omega),
        List.map_cons, List.reverse_cons]

theorem length_minimalBe (n : Nat) : (minimalBe n).length = (Nat.digits 256 n).length := by
  rw [minimalBe_eq_digits, List.length_reverse, List.length_map]

theorem beValue_minimalBe (n : Nat) : beValue (minimalBe n) = n := by
  rw [beValue_eq_ofDigits, minimalBe_eq_digits, List.reverse_reverse, List.map_map]
  have hback : ∀ d ∈ Nat.digits 256 n, (UInt8.toNat ∘ Nat.toUInt8) d = d := by
    intro d hd
    exact UInt8.toNat_ofNat_of_lt' (Nat.digits_lt_base (by norm_num) hd)
  rw [List.map_congr_left hback, List.map_id', Nat.ofDigits_digits]

/-- The fewest bytes of a number never start with a zero byte. -/
theorem head?_minimalBe_ne_zero (n : Nat) : (minimalBe n).head? ≠ some 0 := by
  rw [minimalBe_eq_digits, List.head?_reverse]
  intro hlast
  have hn : n ≠ 0 := by
    rintro rfl
    cases hlast
  have hne : Nat.digits 256 n ≠ [] := Nat.digits_ne_nil_iff_ne_zero.mpr hn
  rw [List.getLast?_eq_some_getLast (by simpa using hne), List.getLast_map, Option.some_inj]
    at hlast
  have hlt : (Nat.digits 256 n).getLast hne < 256 :=
    Nat.digits_lt_base (by norm_num) (List.getLast_mem hne)
  have hzero := congrArg UInt8.toNat hlast
  rw [Nat.toUInt8_eq, UInt8.toNat_ofNat_of_lt' hlt] at hzero
  exact Nat.getLast_digit_ne_zero 256 hn hzero

/-- A byte string that does not start with a zero byte is the fewest bytes of its value. -/
theorem minimalBe_beValue {bs : Bytes} (h : bs.head? ≠ some 0) : minimalBe (beValue bs) = bs := by
  rw [beValue_eq_ofDigits, minimalBe_eq_digits, Nat.digits_ofDigits 256 (by norm_num)]
  · rw [List.map_map]
    have hback : ∀ b ∈ bs.reverse, (Nat.toUInt8 ∘ UInt8.toNat) b = b := fun b _ =>
      UInt8.ofNat_toNat
    rw [List.map_congr_left hback, List.map_id', List.reverse_reverse]
  · intro d hd
    obtain ⟨b, -, rfl⟩ := List.mem_map.mp hd
    exact b.toNat_lt
  · intro hne
    rw [List.getLast_map, List.getLast_reverse]
    intro hzero
    have hbs : bs ≠ [] := by
      rintro rfl
      simp at hne
    apply h
    rw [List.head?_eq_some_head hbs]
    exact congrArg some (UInt8.toNat_inj.mp hzero)

end Bytes

/-! ## Lists -/

theorem idxOf?_eq_some_idxOf {α : Type} [BEq α] [LawfulBEq α] {l : List α} {a : α}
    (h : a ∈ l) : l.idxOf? a = some (l.idxOf a) := by
  induction l with
  | nil => cases h
  | cons x l ih =>
    rw [List.idxOf?_cons, List.idxOf_cons]
    by_cases hx : x = a
    · simp [hx]
    · have hmem : a ∈ l := (List.mem_cons.mp h).resolve_left (Ne.symm hx)
      have hbeq : (x == a) = false := beq_false_of_ne hx
      simp [hbeq, ih hmem]

theorem drop_length_takeWhile {α : Type} (p : α → Bool) (l : List α) :
    l.drop (l.takeWhile p).length = l.dropWhile p := by
  calc l.drop (l.takeWhile p).length
      = (l.takeWhile p ++ l.dropWhile p).drop (l.takeWhile p).length := by
        rw [List.takeWhile_append_dropWhile]
    _ = l.dropWhile p := List.drop_left

/-- The run of `a`s at the front of a list. -/
theorem takeWhile_beq_eq_replicate {α : Type} [BEq α] [LawfulBEq α] (a : α) (l : List α) :
    l.takeWhile (· == a) = List.replicate (l.takeWhile (· == a)).length a := by
  rw [List.eq_replicate_iff]
  refine ⟨rfl, fun b hb => ?_⟩
  simpa using List.mem_takeWhile_imp hb

/-- What is left after the run of `a`s does not start with `a`. -/
theorem head?_dropWhile_beq {α : Type} [BEq α] [LawfulBEq α] (a : α) (l : List α) :
    (l.dropWhile (· == a)).head? ≠ some a := by
  intro hhead
  have hne : l.dropWhile (· == a) ≠ [] := by
    intro hnil
    rw [hnil] at hhead
    cases hhead
  have hstop := List.head_dropWhile_not (· == a) hne
  rw [List.head?_eq_some_head hne, Option.some_inj] at hhead
  simp [hhead] at hstop

/-- A run of `a`s followed by a list that does not start with `a`. -/
theorem takeWhile_replicate_append {α : Type} [BEq α] [LawfulBEq α] (a : α) (n : Nat)
    {l : List α} (hl : l.head? ≠ some a) :
    (List.replicate n a ++ l).takeWhile (· == a) = List.replicate n a := by
  rw [List.takeWhile_append_of_pos (by simp)]
  cases l with
  | nil => simp
  | cons x l =>
    have hx : x ≠ a := fun hxa => hl (by rw [hxa]; rfl)
    simp [hx]

/-! ## UTF-8 bytes of ASCII text -/

theorem utf8EncodeChar_of_lt {c : Char} (h : c.toNat < 128) :
    String.utf8EncodeChar c = [UInt8.ofNat c.toNat] := by
  have hval : c.val.toNat ≤ 127 := by
    change c.toNat ≤ 127
    omega
  simp only [String.utf8EncodeChar, if_pos hval]
  rfl

/-- A character past ASCII is written with a first byte past ASCII. -/
theorem exists_high_byte {c : Char} (h : 128 ≤ c.toNat) :
    ∃ b ∈ String.utf8EncodeChar c, 128 ≤ b.toNat := by
  have hval : 127 < c.val.toNat := by
    change 127 < c.toNat
    omega
  unfold String.utf8EncodeChar
  simp only [if_neg (Nat.not_le.mpr hval)]
  split_ifs
  all_goals
    refine ⟨_, List.mem_cons_self, ?_⟩
    rw [UInt8.toNat_ofNat_of_lt' (by simp [UInt8.size]; omega)]
    omega

/-- Text of ASCII characters is written one byte per character. -/
theorem ofText_ofList_of_ascii {cs : List Char} (h : ∀ c ∈ cs, c.toNat < 128) :
    Bytes.ofText (String.ofList cs) = cs.map fun c => UInt8.ofNat c.toNat := by
  rw [Bytes.ofText, String.toList_ofList]
  induction cs with
  | nil => rfl
  | cons c cs ih =>
    rw [List.flatMap_cons, utf8EncodeChar_of_lt (h c List.mem_cons_self),
      ih fun d hd => h d (List.mem_cons_of_mem c hd)]
    rfl

/-- Text whose bytes are all ASCII is the characters of those bytes. -/
theorem toList_of_ascii {s : String} (h : ∀ b ∈ Bytes.ofText s, b.toNat < 128) :
    s.toList = (Bytes.ofText s).map fun b => Char.ofNat b.toNat := by
  rw [Bytes.ofText] at h ⊢
  generalize s.toList = cs at h ⊢
  induction cs with
  | nil => rfl
  | cons c cs ih =>
    rw [List.flatMap_cons] at h
    have hc : c.toNat < 128 := by
      refine Nat.lt_of_not_le fun hhigh => ?_
      obtain ⟨b, hb, hlt⟩ := exists_high_byte hhigh
      have := h b (List.mem_append_left _ hb)
      omega
    rw [List.flatMap_cons, utf8EncodeChar_of_lt hc, List.singleton_append, List.map_cons,
      UInt8.toNat_ofNat_of_lt' (by simp [UInt8.size]; omega), Char.ofNat_toNat]
    exact congrArg (c :: ·) (ih fun b hb => h b (List.mem_append_right _ hb))

/-! ## The alphabet -/

namespace Base58

/-- The symbol of a digit, as `encode` writes it. -/
def symbol (d : Nat) : Char := alphabet.getD d '1'

/-- The byte of a digit's symbol. -/
def symbolByte (d : Nat) : UInt8 := UInt8.ofNat (symbol d).toNat

/-- The digit a byte stands for: the place of its character in the alphabet. -/
def byteDigit (b : UInt8) : Nat := alphabet.idxOf (Char.ofNat b.toNat)

/-- Each digit is written as one ASCII byte that is read back as the digit; only the digit zero
is written `1`. -/
theorem symbol_table : ∀ d < 58,
    Char.ofNat (symbolByte d).toNat = symbol d ∧ (symbol d).toNat < 128 ∧
      symbol d ∈ alphabet ∧ byteDigit (symbolByte d) = d ∧
      ((symbolByte d == 49) = (d == 0)) := by
  decide +kernel

/-- The bytes that are digits are ASCII, and only `1` stands for zero. -/
theorem byte_table : ∀ n < 256, Char.ofNat n ∈ alphabet →
    n < 128 ∧ (alphabet.idxOf (Char.ofNat n) = 0 ↔ n = 49) := by
  decide +kernel

theorem one_mem_alphabet : Char.ofNat (49 : UInt8).toNat ∈ alphabet := by
  decide +kernel

/-- A digit byte: below 58, written back as its own character, zero only for `1`. -/
theorem byteDigit_spec {b : UInt8} (h : Char.ofNat b.toNat ∈ alphabet) :
    byteDigit b < 58 ∧ symbol (byteDigit b) = Char.ofNat b.toNat ∧ b.toNat < 128 ∧
      (byteDigit b = 0 ↔ b = 49) := by
  have hlt : byteDigit b < alphabet.length := List.idxOf_lt_length_of_mem h
  have hsymbol : symbol (byteDigit b) = Char.ofNat b.toNat := by
    rw [symbol, List.getD_eq_getElem?_getD, List.getElem?_eq_getElem hlt, Option.getD_some]
    exact List.getElem_idxOf hlt
  obtain ⟨hascii, hzero⟩ := byte_table b.toNat b.toNat_lt h
  refine ⟨length_alphabet ▸ hlt, hsymbol, hascii, ?_⟩
  rw [byteDigit, hzero, ← UInt8.toNat_inj]
  rfl

theorem digitValue?_of_mem {b : UInt8} (h : Char.ofNat b.toNat ∈ alphabet) :
    digitValue? b = some (byteDigit b) :=
  idxOf?_eq_some_idxOf h

theorem digitValue?_of_not_mem {b : UInt8} (h : Char.ofNat b.toNat ∉ alphabet) :
    digitValue? b = none :=
  List.idxOf?_eq_none_iff.mpr h

/-! ## Digits -/

theorem digits_eq (n : Nat) : digits n = (Nat.digits 58 n).reverse := by
  induction n using Nat.strong_induction_on with
  | _ n ih =>
    rw [digits]
    split
    · next hzero => rw [hzero, Nat.digits_zero, List.reverse_nil]
    · next hpos =>
      rw [ih (n / 58) (by omega), Nat.digits_def' (by norm_num) (show 0 < n by omega),
        List.reverse_cons]

theorem lt_of_mem_digits {n d : Nat} (h : d ∈ digits n) : d < 58 := by
  rw [digits_eq, List.mem_reverse] at h
  exact Nat.digits_lt_base (by norm_num) h

/-- The leading digit of a number is not zero. -/
theorem head?_digits_ne_zero (n : Nat) : (digits n).head? ≠ some 0 := by
  rw [digits_eq, List.head?_reverse]
  intro hlast
  have hn : n ≠ 0 := by
    rintro rfl
    cases hlast
  have hne : Nat.digits 58 n ≠ [] := Nat.digits_ne_nil_iff_ne_zero.mpr hn
  rw [List.getLast?_eq_some_getLast hne, Option.some_inj] at hlast
  exact Nat.getLast_digit_ne_zero 58 hn hlast

/-- Digits without a leading zero are the digits of their value. -/
theorem digits_ofDigits {ds : List Nat} (hlt : ∀ d ∈ ds, d < 58) (hhead : ds.head? ≠ some 0) :
    digits (Nat.ofDigits 58 ds.reverse) = ds := by
  rw [digits_eq, Nat.digits_ofDigits 58 (by norm_num), List.reverse_reverse]
  · intro d hd
    exact hlt d (List.mem_reverse.mp hd)
  · intro hne
    rw [List.getLast_reverse]
    intro hzero
    exact hhead (by rw [List.head?_eq_some_head (by simpa using hne), hzero])

/-- The loop writes a `1` per leading zero byte, then the base-58 digits of the value of the
other bytes. -/
theorem encode_eq (bs : Bytes) :
    encode bs = String.ofList (List.replicate (bs.takeWhile (· == 0)).length '1' ++
      (digits (Bytes.beValue (bs.drop (bs.takeWhile (· == 0)).length))).map fun d =>
        alphabet.getD d '1') := by
  have hloop := foldl_carryIn_write (bs.drop (bs.takeWhile (· == 0)).length)
  unfold encode
  rw [digits_eq, ← hloop, ← List.map_reverse, List.map_map]
  rfl

/-! ## Reading digits -/

/-- Digit bytes are read most significant first onto what was read before. -/
theorem valueOf_of_mem {bs : Bytes} (h : ∀ b ∈ bs, Char.ofNat b.toNat ∈ alphabet)
    (acc : Nat) :
    valueOf acc bs = .ok (acc * 58 ^ bs.length + Nat.ofDigits 58 (bs.map byteDigit).reverse) := by
  induction bs generalizing acc with
  | nil => simp [valueOf]
  | cons b bs ih =>
    rw [valueOf, digitValue?_of_mem (h b List.mem_cons_self)]
    simp only
    rw [ih (fun c hc => h c (List.mem_cons_of_mem b hc)), List.map_cons,
      Nat.ofDigits_reverse_cons, List.length_map, List.length_cons, Nat.pow_succ]
    congr 1
    ring

/-- Reading fails at a byte that is no digit. -/
theorem valueOf_error_of_not_mem {bs : Bytes} (h : ∃ b ∈ bs, Char.ofNat b.toNat ∉ alphabet)
    (acc : Nat) : ∃ e, valueOf acc bs = .error e := by
  induction bs generalizing acc with
  | nil => simp at h
  | cons b bs ih =>
    rw [valueOf]
    by_cases hb : Char.ofNat b.toNat ∈ alphabet
    · rw [digitValue?_of_mem hb]
      have hrest : ∃ c ∈ bs, Char.ofNat c.toNat ∉ alphabet := by
        obtain ⟨c, hc, hnot⟩ := h
        rcases List.mem_cons.mp hc with rfl | hc
        · exact absurd hb hnot
        · exact ⟨c, hc, hnot⟩
      exact ih hrest _
    · rw [digitValue?_of_not_mem hb]
      exact ⟨b, rfl⟩

/-- The number of leading `1` bytes of a text. -/
def ones (raw : Bytes) : Nat := (raw.takeWhile (· == 49)).length

/-- The loop reads a text as its leading `1`s, as zero bytes, then the fewest bytes of the value
of the other digits. -/
theorem decode_eq (s : String) :
    decode s = (fun v => List.replicate (ones (Bytes.ofText s)) 0 ++ Bytes.minimalBe v) <$>
      valueOf 0 ((Bytes.ofText s).drop (ones (Bytes.ofText s))) := by
  have hloop := foldlM_readDigit ((Bytes.ofText s).drop (ones (Bytes.ofText s))) 0
  rw [Nat.digits_zero, List.map_nil] at hloop
  simp only [decode, ones] at hloop ⊢
  rw [hloop]
  cases valueOf 0 _ with
  | error e => rfl
  | ok v =>
    show Except.ok (_ ++ ((Nat.digits 256 v).map Nat.toUInt8).reverse) =
      Except.ok (_ ++ Bytes.minimalBe v)
    rw [Bytes.minimalBe_eq_digits]

/-- Reading a text: the leading `1`s are zero bytes, the other digits the fewest bytes of their
value. -/
theorem decode_of_mem {s : String} (h : ∀ b ∈ Bytes.ofText s, Char.ofNat b.toNat ∈ alphabet) :
    decode s = .ok (List.replicate (ones (Bytes.ofText s)) 0 ++
      Bytes.minimalBe (Nat.ofDigits 58
        (((Bytes.ofText s).drop (ones (Bytes.ofText s))).map byteDigit).reverse)) := by
  have hrest : ∀ b ∈ (Bytes.ofText s).drop (ones (Bytes.ofText s)),
      Char.ofNat b.toNat ∈ alphabet := fun b hb => h b (List.mem_of_mem_drop hb)
  rw [decode_eq, valueOf_of_mem hrest, Nat.zero_mul, Nat.zero_add]
  rfl

theorem decode_error_of_not_mem {s : String}
    (h : ∃ b ∈ Bytes.ofText s, Char.ofNat b.toNat ∉ alphabet) :
    ∃ e, decode s = .error e := by
  obtain ⟨b, hb, hnot⟩ := h
  have hrest : ∃ c ∈ (Bytes.ofText s).drop (ones (Bytes.ofText s)),
      Char.ofNat c.toNat ∉ alphabet := by
    refine ⟨b, ?_, hnot⟩
    rw [ones, drop_length_takeWhile]
    rw [← @List.takeWhile_append_dropWhile _ (· == 49) (Bytes.ofText s)] at hb
    rcases List.mem_append.mp hb with htake | hdrop
    · have h49 : b = 49 := by simpa using List.mem_takeWhile_imp htake
      exact absurd (h49 ▸ one_mem_alphabet) hnot
    · exact hdrop
  obtain ⟨e, he⟩ := valueOf_error_of_not_mem hrest 0
  refine ⟨e, ?_⟩
  rw [decode_eq, he]
  rfl

/-! ## Writing -/

theorem symbol_of_mem_digits {n d : Nat} (h : d ∈ digits n) :
    Char.ofNat (symbolByte d).toNat = symbol d ∧ (symbol d).toNat < 128 ∧
      byteDigit (symbolByte d) = d := by
  obtain ⟨hchar, hascii, -, hdigit, -⟩ := symbol_table d (lt_of_mem_digits h)
  exact ⟨hchar, hascii, hdigit⟩

/-- The bytes of a written text: a `1` per leading zero byte, then a byte per digit. -/
theorem ofText_encode (bs : Bytes) :
    Bytes.ofText (encode bs) = List.replicate (bs.takeWhile (· == 0)).length 49 ++
      (digits (Bytes.beValue (bs.drop (bs.takeWhile (· == 0)).length))).map symbolByte := by
  have hascii : ∀ c ∈ List.replicate (bs.takeWhile (· == 0)).length '1' ++
      (digits (Bytes.beValue (bs.drop (bs.takeWhile (· == 0)).length))).map symbol,
      c.toNat < 128 := by
    intro c hc
    rcases List.mem_append.mp hc with hone | hdigit
    · rw [List.eq_of_mem_replicate hone]
      decide
    · obtain ⟨d, hd, rfl⟩ := List.mem_map.mp hdigit
      exact (symbol_of_mem_digits hd).2.1
  rw [encode_eq]
  change Bytes.ofText (String.ofList (_ ++ List.map symbol _)) = _
  rw [ofText_ofList_of_ascii hascii, List.map_append, List.map_replicate, List.map_map]
  rfl

/-- The leading digit of a number is not written `1`. -/
theorem head?_map_symbolByte (n : Nat) : ((digits n).map symbolByte).head? ≠ some 49 := by
  rw [List.head?_map]
  intro hhead
  obtain ⟨d, hd, hbyte⟩ := Option.map_eq_some_iff.mp hhead
  have hzero : (symbolByte d == 49) = (d == 0) :=
    (symbol_table d (lt_of_mem_digits (List.mem_of_head? hd))).2.2.2.2
  rw [hbyte] at hzero
  have hd0 : d = 0 := by simpa using hzero.symm
  exact head?_digits_ne_zero n (hd0 ▸ hd)

/-- Reading undoes writing, for every byte string. -/
theorem decode_encode (bs : Bytes) : decode (encode bs) = .ok bs := by
  have hraw := ofText_encode bs
  set z := (bs.takeWhile (· == 0)).length with hz
  set v := Bytes.beValue (bs.drop z) with hv
  have hdigits : ∀ b ∈ Bytes.ofText (encode bs), Char.ofNat b.toNat ∈ alphabet := by
    intro b hb
    rw [hraw] at hb
    rcases List.mem_append.mp hb with hone | hdigit
    · rw [List.eq_of_mem_replicate hone]
      exact one_mem_alphabet
    · obtain ⟨d, hd, rfl⟩ := List.mem_map.mp hdigit
      rw [(symbol_of_mem_digits hd).1]
      exact (symbol_table d (lt_of_mem_digits hd)).2.2.1
  have hones : ones (Bytes.ofText (encode bs)) = z := by
    rw [ones, hraw, takeWhile_replicate_append _ _ (head?_map_symbolByte v),
      List.length_replicate]
  have hvalue : Nat.ofDigits 58 (((digits v).map symbolByte).map byteDigit).reverse = v := by
    have hback : ∀ d ∈ digits v, (byteDigit ∘ symbolByte) d = d := fun d hd =>
      (symbol_of_mem_digits hd).2.2
    rw [List.map_map, List.map_congr_left hback, List.map_id', digits_eq, List.reverse_reverse,
      Nat.ofDigits_digits]
  have hrest : (bs.drop z).head? ≠ some 0 := by
    rw [hz, drop_length_takeWhile]
    exact head?_dropWhile_beq 0 bs
  rw [decode_of_mem hdigits, hones, hraw, List.drop_left' (List.length_replicate ..), hvalue,
    hv, Bytes.minimalBe_beValue hrest, hz, ← takeWhile_beq_eq_replicate, drop_length_takeWhile,
    List.takeWhile_append_dropWhile]

/-- What is read writes back to the text it was read from. -/
theorem encode_of_decode {s : String} {bs : Bytes} (h : decode s = .ok bs) : encode bs = s := by
  have hmem : ∀ b ∈ Bytes.ofText s, Char.ofNat b.toNat ∈ alphabet := by
    intro b hb
    by_contra hnot
    obtain ⟨e, he⟩ := decode_error_of_not_mem ⟨b, hb, hnot⟩
    rw [he] at h
    cases h
  rw [decode_of_mem hmem] at h
  cases h
  set raw := Bytes.ofText s with hraw
  set rest := raw.drop (ones raw) with hrest
  set v := Nat.ofDigits 58 (rest.map byteDigit).reverse with hv
  have hrestMem : ∀ b ∈ rest, Char.ofNat b.toNat ∈ alphabet := fun b hb =>
    hmem b (List.mem_of_mem_drop hb)
  have hrestHead : rest.head? ≠ some 49 := by
    rw [hrest, ones, drop_length_takeWhile]
    exact head?_dropWhile_beq 49 raw
  have hds : digits v = rest.map byteDigit := by
    refine digits_ofDigits (fun d hd => ?_) ?_
    · obtain ⟨b, hb, rfl⟩ := List.mem_map.mp hd
      exact (byteDigit_spec (hrestMem b hb)).1
    · rw [List.head?_map]
      intro hhead
      obtain ⟨b, hb, hzero⟩ := Option.map_eq_some_iff.mp hhead
      have h49 := (byteDigit_spec (hrestMem b (List.mem_of_head? hb))).2.2.2.mp hzero
      exact hrestHead (h49 ▸ hb)
  have hzeros : ((List.replicate (ones raw) 0 ++ Bytes.minimalBe v).takeWhile (· == 0)).length =
      ones raw := by
    rw [takeWhile_replicate_append _ _ (Bytes.head?_minimalBe_ne_zero v), List.length_replicate]
  have hascii : ∀ b ∈ raw, b.toNat < 128 := fun b hb => (byteDigit_spec (hmem b hb)).2.2.1
  have hchars : List.replicate (ones raw) '1' ++ (rest.map byteDigit).map symbol = s.toList := by
    rw [toList_of_ascii hascii, ← hraw]
    conv_rhs => rw [← @List.takeWhile_append_dropWhile _ (· == 49) raw,
      takeWhile_beq_eq_replicate, ← drop_length_takeWhile]
    rw [List.map_append, List.map_replicate, List.map_map]
    congr 1
    exact List.map_congr_left fun b hb => (byteDigit_spec (hrestMem b hb)).2.1
  rw [encode_eq]
  change String.ofList (List.replicate _ '1' ++ List.map symbol _) = s
  rw [hzeros, List.drop_left' (List.length_replicate ..), Bytes.beValue_minimalBe, hds, hchars,
    String.ofList_toList]

end Base58

/-! ## Addresses -/

namespace Address

theorem parse_of_decode {s : String} {bs : Bytes} (h : Base58.decode s = .ok bs) :
    parse s =
      if hlen : bs.length = 32 then .ok ⟨bs, hlen⟩ else .error (.wrongLength s bs.length) := by
  rw [parse, h]

theorem parse_toText (a : Address) : parse a.toText = .ok a := by
  rw [toText, parse_of_decode (Base58.decode_encode a.bytes), dif_pos a.length_eq]

theorem toText_of_parse {s : String} {a : Address} (h : parse s = .ok a) : a.toText = s := by
  unfold parse at h
  split at h
  · cases h
  · next bs hbs =>
    split at h
    · cases h
      exact Base58.encode_of_decode hbs
    · cases h

/-- A text is an address exactly when its bytes are digits and its leading `1`s together with
the fewest bytes of the value of the other digits make 32 bytes. -/
theorem parse_ok_iff (s : String) :
    (∃ a, parse s = .ok a) ↔
      (∀ b ∈ Bytes.ofText s, Char.ofNat b.toNat ∈ Base58.alphabet) ∧
        Base58.ones (Bytes.ofText s) + (Nat.digits 256 (Nat.ofDigits 58
          (((Bytes.ofText s).drop (Base58.ones (Bytes.ofText s))).map
            Base58.byteDigit).reverse)).length = 32 := by
  by_cases hmem : ∀ b ∈ Bytes.ofText s, Char.ofNat b.toNat ∈ Base58.alphabet
  · have hdecode := Base58.decode_of_mem hmem
    set raw := Bytes.ofText s
    set v := Nat.ofDigits 58 ((raw.drop (Base58.ones raw)).map Base58.byteDigit).reverse
    have hlen : (List.replicate (Base58.ones raw) 0 ++ Bytes.minimalBe v).length =
        Base58.ones raw + (Nat.digits 256 v).length := by
      rw [List.length_append, List.length_replicate, Bytes.length_minimalBe]
    rw [← hlen, parse_of_decode hdecode, and_iff_right hmem]
    constructor
    · rintro ⟨a, ha⟩
      by_contra hne
      rw [dif_neg hne] at ha
      cases ha
    · intro h32
      exact ⟨_, dif_pos h32⟩
  · obtain ⟨b, hb, hnot⟩ :
        ∃ b ∈ Bytes.ofText s, Char.ofNat b.toNat ∉ Base58.alphabet := by
      simpa using hmem
    obtain ⟨e, he⟩ := Base58.decode_error_of_not_mem ⟨b, hb, hnot⟩
    simp only [hmem, false_and, iff_false, not_exists]
    intro a ha
    rw [parse, he] at ha
    cases ha

/-- Addresses and their texts: every address is read back from its text, a text is read only as
the address that writes it, and which texts are read; so writing is a bijection from addresses
onto the texts that are read. -/
theorem parse_toText_bijection :
    (∀ a : Address, parse a.toText = .ok a) ∧
    (∀ (s : String) (a : Address), parse s = .ok a → a.toText = s) ∧
    (∀ s : String, (∃ a, parse s = .ok a) ↔
      (∀ b ∈ Bytes.ofText s, Char.ofNat b.toNat ∈ Base58.alphabet) ∧
        Base58.ones (Bytes.ofText s) + (Nat.digits 256 (Nat.ofDigits 58
          (((Bytes.ofText s).drop (Base58.ones (Bytes.ofText s))).map
            Base58.byteDigit).reverse)).length = 32) ∧
    Function.Bijective fun a : Address =>
      (⟨a.toText, a, parse_toText a⟩ : { s : String // ∃ a, parse s = .ok a }) := by
  refine ⟨parse_toText, fun _ _ => toText_of_parse, parse_ok_iff, ?_, ?_⟩
  · intro a₁ a₂ htext
    have hsame := congrArg (fun t : { s : String // ∃ a, parse s = .ok a } => parse t.1) htext
    simp only [parse_toText] at hsame
    exact Except.ok.inj hsame
  · rintro ⟨s, a, ha⟩
    exact ⟨a, Subtype.ext (toText_of_parse ha)⟩

end Address

end SlabLedger
