import SlabLedger.Proofs.Text.Shifts

/-!
# Crockford base-32: round trip and canonical form

`encode` writes the bits of a byte string five to a symbol, the last group filled with zero bits;
`decode` reads the symbols back, passing over dashes and taking either case and the aliases `o`,
`i` and `l`. Reading undoes writing (`decode_encode`); a text is read exactly when its symbols
leave fewer than five bits over whole bytes and those bits are zero (`decode_ok_iff`); and the
written form is canonical: a text is read as a byte string exactly when its normal form, dashes
dropped, in lower case and with the aliases replaced, is that byte string's encoding
(`decode_eq_ok_iff`).

The proofs go through the bits. The loops compute the bit-list forms (`encode_eq`,
`decode_eq_readBits`, from the loop invariants of `Proofs.Text.Shifts`): `bitsOf` and `ofBits`
are inverse on lists of one length, `pieces` cuts a list into groups that `flatten` joins again,
and filling each group with zero bits is filling the whole list (`pieces_pad`). Which characters
are symbols is read off the alphabet (`symbolValue?_eq`).
-/

namespace SlabLedger.Crockford

/-! ## Symbols -/

/-- A character as the normal form writes it: in lower case, with `o` written `0` and `i`, `l`
written `1`. -/
def normChar (c : Char) : Char :=
  match c.toLower with
  | 'o' => '0'
  | 'i' | 'l' => '1'
  | d => d

/-- The normal form of a text: dashes left out and every other character in normal form. -/
def normalize (s : String) : String :=
  String.ofList ((s.toList.filter (· != '-')).map normChar)

/-- The symbol of each value below 32: a letter or digit of the alphabet, at that place, in its
own normal form. -/
theorem symbol_table : ∀ v < 32,
    symbol v ∈ alphabet ∧ alphabet.idxOf (symbol v) = v ∧ alphabet.idxOf? (symbol v) = some v ∧
      normChar (symbol v) = symbol v ∧ (symbol v).toNat < 128 ∧ (symbol v).toUpper.toNat < 128 := by
  decide +kernel

theorem length_alphabet : alphabet.length = 32 := by
  decide +kernel

theorem symbol_idxOf {c : Char} (hc : c ∈ alphabet) :
    alphabet.idxOf c < 32 ∧ symbol (alphabet.idxOf c) = c := by
  have hlt : alphabet.idxOf c < alphabet.length := List.idxOf_lt_length_of_mem hc
  refine ⟨length_alphabet ▸ hlt, ?_⟩
  rw [symbol, List.getD_eq_getElem?_getD, List.getElem?_eq_getElem hlt, Option.getD_some,
    List.getElem_idxOf hlt]

theorem alphabet_table : ∀ c ∈ alphabet,
    normChar c = c ∧ symbol (alphabet.idxOf c) = c ∧ alphabet.idxOf? c = some (alphabet.idxOf c) ∧
      alphabet.idxOf c < 32 := by
  intro c hc
  obtain ⟨hlt, hsym⟩ := symbol_idxOf hc
  obtain ⟨-, -, hidx, hnorm, -, -⟩ := symbol_table _ hlt
  rw [hsym] at hidx hnorm
  exact ⟨hnorm, hsym, hidx, hlt⟩

theorem alphabet_ascii : ∀ c ∈ alphabet ++ alphabet.map Char.toUpper, c.toNat < 128 := by
  intro c hc
  rcases List.mem_append.mp hc with hc | hc
  · obtain ⟨hlt, hsym⟩ := symbol_idxOf hc
    rw [← hsym]
    exact (symbol_table _ hlt).2.2.2.2.1
  · obtain ⟨d, hd, rfl⟩ := List.mem_map.mp hc
    obtain ⟨hlt, hsym⟩ := symbol_idxOf hd
    rw [← hsym]
    exact (symbol_table _ hlt).2.2.2.2.2

/-- On the ASCII characters, reading a symbol is looking its normal form up in the alphabet. -/
theorem ascii_symbolValue? : ∀ n < 128,
    symbolValue? (Char.ofNat n) = alphabet.idxOf? (normChar (Char.ofNat n)) := by
  decide +kernel

theorem toUpper_of_not_ascii {c : Char} (hc : 128 ≤ c.toNat) : c.toUpper = c := by
  unfold Char.toUpper
  rw [dif_neg]
  rintro ⟨-, hz⟩
  have hz' : c.val.toNat ≤ 'z'.val.toNat := UInt32.le_iff_toNat_le.mp hz
  have hval : c.toNat = c.val.toNat := rfl
  have hzv : 'z'.val.toNat = 122 := rfl
  omega

theorem toLower_of_not_ascii {c : Char} (hc : 128 ≤ c.toNat) : c.toLower = c := by
  unfold Char.toLower
  rw [dif_neg]
  rintro ⟨-, hz⟩
  have hz' : c.val.toNat ≤ 'Z'.val.toNat := UInt32.le_iff_toNat_le.mp hz
  have hval : c.toNat = c.val.toNat := rfl
  have hzv : 'Z'.val.toNat = 90 := rfl
  omega

/-- Reading a symbol is looking its normal form up in the alphabet: the symbols are the
characters whose normal form is in the alphabet. -/
theorem symbolValue?_eq (c : Char) : symbolValue? c = alphabet.idxOf? (normChar c) := by
  by_cases hc : c.toNat < 128
  · have := ascii_symbolValue? c.toNat hc
    rwa [Char.ofNat_toNat] at this
  · have hc' : 128 ≤ c.toNat := by omega
    have hne : ∀ d : Char, d.toNat < 128 → c ≠ d := by
      rintro d hd rfl
      omega
    have hnot : c ∉ alphabet := fun hmem =>
      hne c (alphabet_ascii c (List.mem_append_left _ hmem)) rfl
    have hnotUpper : c ∉ alphabet.map Char.toUpper := fun hmem =>
      hne c (alphabet_ascii c (List.mem_append_right _ hmem)) rfl
    simp only [symbolValue?, normChar, toUpper_of_not_ascii hc', toLower_of_not_ascii hc']
    rw [if_neg (hne 'O' (by decide)), if_neg (by rintro (h | h) <;> exact hne _ (by decide) h),
      List.idxOf?_eq_none_iff.mpr hnotUpper]
    split
    · exact absurd hc' (by decide)
    · exact absurd hc' (by decide)
    · exact absurd hc' (by decide)
    · exact (List.idxOf?_eq_none_iff.mpr hnot).symm

theorem symbolValue?_of_mem {c : Char} (h : normChar c ∈ alphabet) :
    symbolValue? c = some (alphabet.idxOf (normChar c)) := by
  rw [symbolValue?_eq, (alphabet_table _ h).2.2.1]

theorem symbolValue?_of_not_mem {c : Char} (h : normChar c ∉ alphabet) : symbolValue? c = none := by
  rw [symbolValue?_eq, List.idxOf?_eq_none_iff.mpr h]

/-- A text whose characters are all dashes or symbols gives the values of its symbols. -/
theorem symbolValues_eq_ok {l : List Char} (h : ∀ c ∈ l, c ≠ '-' → normChar c ∈ alphabet) :
    symbolValues l = .ok ((l.filter (· != '-')).map fun c => alphabet.idxOf (normChar c)) := by
  induction l with
  | nil => rfl
  | cons c l ih =>
    have hrest := ih fun d hd => h d (List.mem_cons_of_mem c hd)
    by_cases hdash : c = '-'
    · rw [symbolValues, if_pos hdash, hrest, List.filter_cons_of_neg (by simp [hdash])]
    · rw [symbolValues, if_neg hdash, symbolValue?_of_mem (h c List.mem_cons_self hdash), hrest,
        List.filter_cons_of_pos (by simpa using hdash)]
      rfl

theorem symbols_of_symbolValues_ok {l : List Char} {vs : List Nat}
    (hvs : symbolValues l = .ok vs) : ∀ c ∈ l, c ≠ '-' → normChar c ∈ alphabet := by
  induction l generalizing vs with
  | nil => simp
  | cons c l ih =>
    intro d hd hdash
    by_cases hc : c = '-'
    · rw [symbolValues, if_pos hc] at hvs
      rcases List.mem_cons.mp hd with rfl | hd
      · exact absurd hc hdash
      · exact ih hvs d hd hdash
    · rw [symbolValues, if_neg hc] at hvs
      cases hv : symbolValue? c with
      | none => rw [hv] at hvs; cases hvs
      | some v =>
        rw [hv] at hvs
        cases hrest : symbolValues l with
        | error e => rw [hrest] at hvs; cases hvs
        | ok rest =>
          rcases List.mem_cons.mp hd with rfl | hd
          · by_contra hnot
            rw [symbolValue?_of_not_mem hnot] at hv
            cases hv
          · exact ih hrest d hd hdash

/-! ## Bytes and their bits -/

theorem length_mem_pieces {α : Type} {k : Nat} {hk : 0 < k} {l : List α}
    (hl : l.length % k = 0) : ∀ g ∈ pieces k hk l, g.length = k := by
  fun_induction pieces k hk l with
  | case1 l hl' => simp
  | case2 l hl' ih =>
    have hpos : 0 < l.length := List.length_pos_iff.mpr (by simpa using hl')
    have hfull : k ≤ l.length := by
      rcases Nat.lt_or_ge l.length k with hlt | hge
      · rw [Nat.mod_eq_of_lt hlt] at hl
        omega
      · exact hge
    intro g hg
    rcases List.mem_cons.mp hg with rfl | hg
    · simp [hfull]
    · exact ih (by rw [List.length_drop, ← Nat.mod_eq_sub_mod hfull]; exact hl) g hg

theorem pieces_toBits (bs : Bytes) :
    pieces 8 (by decide) (toBits bs) = bs.map fun b => bitsOf 8 b.toNat := by
  rw [toBits, List.flatMap_def, pieces_flatten]
  intro g hg
  obtain ⟨b, -, rfl⟩ := List.mem_map.mp hg
  exact length_bitsOf 8 b.toNat

theorem toUInt8_ofBits_bitsOf (b : UInt8) : (ofBits (bitsOf 8 b.toNat)).toUInt8 = b := by
  rw [ofBits_bitsOf, Nat.mod_eq_of_lt b.toNat_lt]
  exact UInt8.ofNat_toNat

/-- Bytes read from whole groups of eight bits give those bits back. -/
theorem toBits_ofPieces {bits : List Bool} (hbits : bits.length % 8 = 0) :
    toBits ((pieces 8 (by decide) bits).map fun byte => (ofBits byte).toUInt8) = bits := by
  have hgroups : ∀ g ∈ pieces 8 (by decide) bits, g.length = 8 := length_mem_pieces hbits
  have hback : ∀ g ∈ pieces 8 (by decide) bits, bitsOf 8 ((ofBits g).toUInt8.toNat) = g := by
    intro g hg
    have hlt : ofBits g < 256 := by
      have := ofBits_lt g
      rwa [hgroups g hg] at this
    have hbyte : (ofBits g).toUInt8.toNat = ofBits g := by
      simp [Nat.toUInt8, Nat.mod_eq_of_lt hlt]
    rw [hbyte, ← hgroups g hg, bitsOf_ofBits]
  rw [toBits, List.flatMap_map, List.flatMap_def, List.map_congr_left hback, List.map_id',
    flatten_pieces]

/-- The bits of a byte string, with fewer than five zero bits after them, are read back as the
byte string. -/
theorem readBits_toBits (bs : Bytes) {r : Nat} (hr : r < 5) :
    readBits (toBits bs ++ List.replicate r false) = .ok bs := by
  have hlen : (toBits bs ++ List.replicate r false).length = 8 * bs.length + r := by
    rw [List.length_append, length_toBits, List.length_replicate]
  have hwhole : (8 * bs.length + r) / 8 * 8 = (toBits bs).length := by
    rw [length_toBits]
    omega
  rw [readBits_eq, hlen, if_neg (by omega), hwhole, List.drop_left, List.take_left]
  have hpad : ¬(List.replicate r false).any id = true := by simp
  rw [if_neg hpad, pieces_toBits, List.map_map]
  congr 1
  exact List.map_congr_left (fun b _ => toUInt8_ofBits_bitsOf b) |>.trans (List.map_id' bs)

theorem not_any_id_iff {l : List Bool} : ¬l.any id = true ↔ ∀ x ∈ l, x = false := by
  simp

theorem readBits_ok_iff {bits : List Bool} :
    (∃ bs, readBits bits = .ok bs) ↔
      bits.length % 8 < 5 ∧ ∀ x ∈ bits.drop (bits.length / 8 * 8), x = false := by
  rw [readBits_eq]
  constructor
  · rintro ⟨bs, h⟩
    by_cases htrail : 5 ≤ bits.length % 8
    · rw [if_pos htrail] at h
      cases h
    by_cases hpad : (bits.drop (bits.length / 8 * 8)).any id = true
    · rw [if_neg htrail, if_pos hpad] at h
      cases h
    exact ⟨by omega, not_any_id_iff.mp hpad⟩
  · rintro ⟨htrail, hzero⟩
    rw [if_neg (by omega), if_neg (not_any_id_iff.mpr hzero)]
    exact ⟨_, rfl⟩

/-- A stream of bits read as bytes is their bits, then fewer than five zero bits. -/
theorem eq_toBits_of_readBits {bits : List Bool} {bs : Bytes} (h : readBits bits = .ok bs) :
    bits.length % 8 < 5 ∧ bits = toBits bs ++ List.replicate (bits.length % 8) false := by
  obtain ⟨htrail, hzero⟩ := readBits_ok_iff.mp ⟨bs, h⟩
  rw [readBits_eq, if_neg (by omega), if_neg (not_any_id_iff.mpr hzero)] at h
  cases h
  refine ⟨htrail, ?_⟩
  have hwhole : (bits.take (bits.length / 8 * 8)).length % 8 = 0 := by
    rw [List.length_take]
    omega
  have hleft : bits.drop (bits.length / 8 * 8) = List.replicate (bits.length % 8) false :=
    List.eq_replicate_iff.mpr ⟨by rw [List.length_drop]; omega, hzero⟩
  rw [toBits_ofPieces hwhole, ← hleft, List.take_append_drop]

/-- A text of dashes and symbols is read through the bits of its symbols' values. -/
theorem decode_of_symbols {s : String} (hsym : ∀ c ∈ s.toList, c ≠ '-' → normChar c ∈ alphabet) :
    decode s = readBits
      (((s.toList.filter (· != '-')).map fun c => alphabet.idxOf (normChar c)).flatMap
        (bitsOf 5)) := by
  rw [decode_eq_readBits, symbolValues_eq_ok hsym]
  rfl

theorem symbols_of_decode_ok {s : String} {bs : Bytes} (h : decode s = .ok bs) :
    ∀ c ∈ s.toList, c ≠ '-' → normChar c ∈ alphabet := by
  rw [decode_eq_readBits] at h
  cases hvs : symbolValues s.toList with
  | error e => rw [hvs] at h; cases h
  | ok vs => exact symbols_of_symbolValues_ok hvs

/-! ## Encoding -/

theorem length_filledBits (bs : Bytes) :
    (filledBits bs).length = 5 * ((8 * bs.length + 4) / 5) := by
  rw [filledBits, List.length_append, length_toBits, List.length_replicate]
  omega

theorem length_mem_pieces_filledBits {bs : Bytes} :
    ∀ g ∈ pieces 5 (by decide) (filledBits bs), g.length = 5 :=
  length_mem_pieces (by rw [length_filledBits]; omega)

theorem ofBits_lt_of_mem_pieces {bs : Bytes} {g : List Bool}
    (hg : g ∈ pieces 5 (by decide) (filledBits bs)) : ofBits g < 32 := by
  have := ofBits_lt g
  rwa [length_mem_pieces_filledBits g hg] at this

theorem mem_alphabet_of_mem_encode {bs : Bytes} {c : Char} (hc : c ∈ (encode bs).toList) :
    c ∈ alphabet := by
  rw [encode_eq, String.toList_ofList] at hc
  obtain ⟨g, hg, rfl⟩ := List.mem_map.mp hc
  exact (symbol_table _ (ofBits_lt_of_mem_pieces hg)).1

theorem length_encode (bs : Bytes) : (encode bs).length = (8 * bs.length + 4) / 5 := by
  rw [encode_eq, String.length_ofList, List.length_map, length_pieces, length_filledBits]
  omega

/-- The symbols of an encoding, five bits each, are the filled bits. -/
theorem flatMap_values_encode (bs : Bytes) :
    (encode bs).toList.flatMap (fun c => bitsOf 5 (alphabet.idxOf c)) = filledBits bs := by
  rw [← List.flatMap_map, encode_eq, String.toList_ofList, List.map_map, List.flatMap_def,
    List.map_map]
  have hback : ∀ g ∈ pieces 5 (by decide) (filledBits bs),
      (bitsOf 5 ∘ (fun c => alphabet.idxOf c) ∘ fun g => symbol (ofBits g)) g = g := by
    intro g hg
    rw [Function.comp_apply, Function.comp_apply,
      (symbol_table _ (ofBits_lt_of_mem_pieces hg)).2.1, ← length_mem_pieces_filledBits g hg,
      bitsOf_ofBits]
  rw [List.map_congr_left hback, List.map_id', flatten_pieces]

theorem symbolValues_encode (bs : Bytes) :
    symbolValues (encode bs).toList = .ok ((encode bs).toList.map alphabet.idxOf) := by
  have hsymbols : ∀ c ∈ (encode bs).toList, c ≠ '-' → normChar c ∈ alphabet := by
    intro c hc _
    rw [(alphabet_table c (mem_alphabet_of_mem_encode hc)).1]
    exact mem_alphabet_of_mem_encode hc
  rw [symbolValues_eq_ok hsymbols, List.filter_eq_self.mpr]
  · congr 1
    apply List.map_congr_left
    intro c hc
    rw [(alphabet_table c (mem_alphabet_of_mem_encode hc)).1]
  · intro c hc
    have hdash : c ≠ '-' := by
      rintro rfl
      exact absurd (mem_alphabet_of_mem_encode hc) (by decide)
    simpa using hdash

/-! ## Decoding -/

theorem decode_encode (bs : Bytes) : decode (encode bs) = .ok bs := by
  rw [decode_eq_readBits, symbolValues_encode]
  change readBits _ = _
  rw [List.flatMap_map, flatMap_values_encode, filledBits]
  exact readBits_toBits bs (by omega)

/-- The last `r` bits of the symbols are the last `r` bits of the last symbol. -/
theorem drop_flatMap_bitsOf (init : List Nat) (v : Nat) {r : Nat} (hr : r ≤ 5) :
    ((init ++ [v]).flatMap (bitsOf 5)).drop (5 * (init ++ [v]).length - r) = bitsOf r v := by
  have hinit : (init.flatMap (bitsOf 5)).length = 5 * init.length := by
    simp [List.length_flatMap, List.map_const', Nat.mul_comm]
  have hpos : 5 * (init ++ [v]).length - r = (init.flatMap (bitsOf 5)).length + (5 - r) := by
    rw [hinit, List.length_append, List.length_singleton]
    omega
  rw [hpos, List.flatMap_append, List.drop_append, Nat.add_sub_cancel_left,
    List.drop_eq_nil_of_le (by omega), List.nil_append, List.flatMap_singleton, drop_bitsOf hr]

/-- With fewer than five bits over, they are all zero exactly when the last symbol's value
ends in as many zero bits. -/
theorem tail_zero_iff (vs : List Nat) (h : 5 * vs.length % 8 < 5) :
    (∀ x ∈ (vs.flatMap (bitsOf 5)).drop (5 * vs.length / 8 * 8), x = false) ↔
      ∀ v ∈ vs.getLast?, v % 2 ^ (5 * vs.length % 8) = 0 := by
  rcases List.eq_nil_or_concat vs with rfl | ⟨init, v, rfl⟩
  · simp
  · rw [List.concat_eq_append] at h ⊢
    have hdrop : 5 * (init ++ [v]).length / 8 * 8 =
        5 * (init ++ [v]).length - 5 * (init ++ [v]).length % 8 := by
      omega
    rw [hdrop, drop_flatMap_bitsOf init v (by omega), List.getLast?_concat, ← ofBits_eq_zero_iff,
      ofBits_bitsOf]
    simp

theorem length_flatMap_bitsOf (vs : List Nat) : (vs.flatMap (bitsOf 5)).length = 5 * vs.length := by
  simp [List.length_flatMap, List.map_const', Nat.mul_comm]

/-- The values of some symbols are read as bytes exactly when they leave fewer than five bits
over whole bytes and the last value ends in that many zero bits. -/
theorem readBits_values_ok_iff (vs : List Nat) :
    (∃ bs, readBits (vs.flatMap (bitsOf 5)) = .ok bs) ↔
      5 * vs.length % 8 < 5 ∧ ∀ v ∈ vs.getLast?, v % 2 ^ (5 * vs.length % 8) = 0 := by
  rw [readBits_ok_iff, length_flatMap_bitsOf]
  constructor
  · rintro ⟨htrail, hzero⟩
    exact ⟨htrail, (tail_zero_iff vs htrail).mp hzero⟩
  · rintro ⟨htrail, hlast⟩
    exact ⟨htrail, (tail_zero_iff vs htrail).mpr hlast⟩

theorem symbol_idxOf_normChar {c : Char} (hc : normChar c ∈ alphabet) :
    symbol (ofBits (bitsOf 5 (alphabet.idxOf (normChar c)))) = normChar c := by
  obtain ⟨-, hsymbol, -, hlt⟩ := alphabet_table _ hc
  rw [ofBits_bitsOf, Nat.mod_eq_of_lt (by simpa using hlt), hsymbol]

/-- What a text decodes to encodes back to the text's normal form. -/
theorem encode_of_decode {s : String} {bs : Bytes} (h : decode s = .ok bs) :
    encode bs = normalize s := by
  have hsym := symbols_of_decode_ok h
  obtain ⟨vs, hvs⟩ :
      ∃ vs, vs = (s.toList.filter (· != '-')).map fun c => alphabet.idxOf (normChar c) :=
    ⟨_, rfl⟩
  rw [decode_of_symbols hsym, ← hvs] at h
  obtain ⟨htrail, hbits⟩ := eq_toBits_of_readBits h
  have hfill : vs.flatMap (bitsOf 5) = filledBits bs := by
    have hlen := congrArg List.length hbits
    rw [List.length_append, length_toBits, List.length_replicate] at hlen
    have hfive := length_flatMap_bitsOf vs
    have hpad : (vs.flatMap (bitsOf 5)).length % 8 = (5 - 8 * bs.length % 5) % 5 := by
      omega
    rw [filledBits, ← hpad]
    exact hbits
  have hgroups : ∀ g ∈ vs.map (bitsOf 5), g.length = 5 := by
    intro g hg
    obtain ⟨v, -, rfl⟩ := List.mem_map.mp hg
    exact length_bitsOf 5 v
  rw [encode_eq, ← hfill, List.flatMap_def, pieces_flatten hgroups, List.map_map, hvs,
    List.map_map, normalize]
  congr 1
  apply List.map_congr_left
  intro c hc
  obtain ⟨hmem, hdash⟩ := List.mem_filter.mp hc
  exact symbol_idxOf_normChar (hsym c hmem (by simpa using hdash))

/-- A text whose normal form is an encoding decodes to the encoded bytes. -/
theorem decode_of_normalize {s : String} {bs : Bytes} (h : normalize s = encode bs) :
    decode s = .ok bs := by
  have hchars : (s.toList.filter (· != '-')).map normChar = (encode bs).toList := by
    rw [← h, normalize, String.toList_ofList]
  have hsym : ∀ c ∈ s.toList, c ≠ '-' → normChar c ∈ alphabet := by
    intro c hc hdash
    apply mem_alphabet_of_mem_encode
    rw [← hchars]
    exact List.mem_map_of_mem (List.mem_filter.mpr ⟨hc, by simpa using hdash⟩)
  have hvalues : symbolValues s.toList = symbolValues (encode bs).toList := by
    rw [symbolValues_eq_ok hsym, symbolValues_encode, ← hchars, List.map_map]
    rfl
  rw [decode_eq_readBits, hvalues, ← decode_eq_readBits, decode_encode]

theorem decode_eq_ok_iff {s : String} {bs : Bytes} : decode s = .ok bs ↔ normalize s = encode bs :=
  ⟨fun h => (encode_of_decode h).symm, decode_of_normalize⟩

/-- A text is read exactly when its characters other than dashes are symbols, the bits they
give leave fewer than five over a whole number of bytes, and those bits are zero. -/
theorem decode_ok_iff (s : String) :
    (∃ bs, decode s = .ok bs) ↔
      (∀ c ∈ s.toList, c ≠ '-' → normChar c ∈ alphabet) ∧
        5 * (s.toList.filter (· != '-')).length % 8 < 5 ∧
        ∀ c ∈ (s.toList.filter (· != '-')).getLast?,
          alphabet.idxOf (normChar c) % 2 ^ (5 * (s.toList.filter (· != '-')).length % 8) = 0 := by
  constructor
  · rintro ⟨bs, h⟩
    have hsym := symbols_of_decode_ok h
    rw [decode_of_symbols hsym] at h
    obtain ⟨htrail, hlast⟩ := (readBits_values_ok_iff _).mp ⟨bs, h⟩
    rw [List.length_map] at htrail hlast
    rw [List.getLast?_map] at hlast
    exact ⟨hsym, htrail, fun c hc => hlast _ (Option.mem_map_of_mem _ hc)⟩
  · rintro ⟨hsym, htrail, hlast⟩
    rw [decode_of_symbols hsym]
    apply (readBits_values_ok_iff _).mpr
    rw [List.length_map, List.getLast?_map]
    refine ⟨htrail, fun v hv => ?_⟩
    obtain ⟨c, hc, rfl⟩ := Option.mem_map.mp hv
    exact hlast c hc

/-- Crockford base-32 reads back every byte string it writes; it writes one lower-case symbol for
each five of the byte string's bits, the last five filled with zero bits; it reads a text exactly
when the text's characters other than dashes are symbols, their bits leave fewer than five over
whole bytes, and those are zero; and the texts it reads as a byte string are those whose normal
form is that byte string's encoding. -/
theorem codec_round_trip_canonical :
    (∀ bs : Bytes, decode (encode bs) = .ok bs) ∧
    (∀ bs : Bytes, (encode bs).length = (8 * bs.length + 4) / 5 ∧
      (∀ c ∈ (encode bs).toList, c ∈ alphabet) ∧
      (encode bs).toList.flatMap (fun c => bitsOf 5 (alphabet.idxOf c)) = filledBits bs) ∧
    (∀ s : String, (∃ bs, decode s = .ok bs) ↔
      (∀ c ∈ s.toList, c ≠ '-' → normChar c ∈ alphabet) ∧
        5 * (s.toList.filter (· != '-')).length % 8 < 5 ∧
        ∀ c ∈ (s.toList.filter (· != '-')).getLast?,
          alphabet.idxOf (normChar c) % 2 ^ (5 * (s.toList.filter (· != '-')).length % 8) = 0) ∧
    (∀ (s : String) (bs : Bytes), decode s = .ok bs ↔ normalize s = encode bs) := by
  refine ⟨decode_encode, fun bs => ?_, decode_ok_iff, fun _ _ => decode_eq_ok_iff⟩
  exact ⟨length_encode bs, fun _ hc => mem_alphabet_of_mem_encode hc, flatMap_values_encode bs⟩

end SlabLedger.Crockford
