import Mathlib.Algebra.GroupWithZero.Nat
import SlabLedger.Proofs.Cursor
import SlabLedger.Market.Account

/-!
# Packed account records

A market account and a market state account are an eight-byte tag followed by fields packed one
after another, each read as a window of its width. `Decoder.Packed x ws V` says that `x` reads
fields of the widths `ws` in that way and gives `V` of the bytes it starts at. Such a decoder
succeeds exactly when the input holds all the fields, looks at nothing after them, and otherwise
fails at the field that crosses the end of the input, as a read of that field's width from that
field's offset.

`PackedLaw` gathers what this gives for a record behind a tag: the decode succeeds exactly on
inputs long enough that start with the tag, with every field read at its offset; the tag is
checked before any field, and a short input fails at its first field that does not fit.
`market_records_decode_packed` is that law for both account records, with their field widths in
declaration order and their sizes of 385 and 193 bytes.
-/

namespace SlabLedger

/-- The `w` bytes of `d` from offset `o` on. -/
def Bytes.slice (d : Bytes) (o w : Nat) : Bytes := (d.drop o).take w

namespace Decoder

/-- `x` reads fields of the widths `ws` one after another, each a read of a window, and gives `V`
of the bytes it starts at. -/
inductive Packed : {α : Type} → Decoder α → List Nat → (Bytes → α) → Prop
  | done {α : Type} (a : α) : Packed (pure a) [] fun _ => a
  | field {α β : Type} {x : Decoder β} {g : β → Decoder α} {w : Nat} {ws : List Nat}
      {f : Bytes → β} {V : β → Bytes → α} :
      x.ReadsWindow w f → (∀ b, Packed (g b) ws (V b)) →
      Packed (x >>= g) (w :: ws) fun bs => V (f (bs.take w)) (bs.drop w)

namespace Packed

variable {α : Type} {x : Decoder α} {ws : List Nat} {V : Bytes → α}

/-- With room for every field, the fields are read and the cursor moves past them all. -/
theorem run_of_le (hx : x.Packed ws V) :
    ∀ rest : Bytes, ws.sum ≤ rest.length → x.run rest = .ok (V rest, rest.drop ws.sum) := by
  induction hx with
  | done a =>
    intro rest _
    rfl
  | @field β x g w ws f V hread _ ih =>
    intro rest hlen
    rw [List.sum_cons] at hlen
    have hrest : ws.sum ≤ (rest.drop w).length := by
      rw [List.length_drop]
      omega
    rw [StateT.run_bind, hread rest, if_pos (by omega), Except.ok_bind, ih _ _ hrest,
      List.drop_drop, List.sum_cons]

/-- A field that starts within the input and ends past it fails the read, as a read of its width
with what is left after its offset; the fields before it all fit. -/
theorem run_of_crossing (hx : x.Packed ws V) :
    ∀ (rest : Bytes) (i : Nat) (hi : i < ws.length), (ws.take i).sum ≤ rest.length →
      rest.length < (ws.take i).sum + ws[i] →
      x.run rest = .error (.truncated ws[i] (rest.length - (ws.take i).sum)) := by
  induction hx with
  | done a =>
    intro rest i hi
    cases hi
  | @field β x g w ws f V hread _ ih =>
    intro rest i hi hstart hend
    cases i with
    | zero =>
      simp only [List.take_zero, List.sum_nil, Nat.zero_add, List.getElem_cons_zero] at hend ⊢
      rw [StateT.run_bind, hread rest, if_neg (by omega), Nat.sub_zero]
      rfl
    | succ i =>
      simp only [List.take_succ_cons, List.sum_cons, List.getElem_cons_succ] at hstart hend ⊢
      have hcross := ih (f (rest.take w)) (rest.drop w) i (by simpa using hi)
        (by rw [List.length_drop]; omega) (by rw [List.length_drop]; omega)
      rw [StateT.run_bind, hread rest, if_pos (by omega), Except.ok_bind, hcross,
        List.length_drop, Nat.sub_sub]

/-- The value reads only the bytes of the fields. -/
theorem value_append (hx : x.Packed ws V) :
    ∀ bs t : Bytes, ws.sum ≤ bs.length → V (bs ++ t) = V bs := by
  induction hx with
  | done a =>
    intro bs t _
    rfl
  | @field β x g w ws f V _ _ ih =>
    intro bs t hlen
    rw [List.sum_cons] at hlen
    show V (f ((bs ++ t).take w)) ((bs ++ t).drop w) = V (f (bs.take w)) (bs.drop w)
    rw [List.take_append_of_le_length (by omega), List.drop_append_of_le_length (by omega)]
    exact ih _ _ _ (by rw [List.length_drop]; omega)

end Packed

/-- An input too short for all of `ws` ends inside one of the fields: one starts within it and
ends past it. -/
theorem exists_crossing :
    ∀ (ws : List Nat) (n : Nat), n < ws.sum →
      ∃ i, ∃ hi : i < ws.length, (ws.take i).sum ≤ n ∧ n < (ws.take i).sum + ws[i]
  | [], n, hn => absurd hn (Nat.not_lt_zero n)
  | w :: ws, n, hn => by
    by_cases hw : n < w
    · exact ⟨0, by simp, by simp, by simpa using hw⟩
    · rw [List.sum_cons] at hn
      obtain ⟨i, hi, hstart, hend⟩ := exists_crossing ws (n - w) (by omega)
      refine ⟨i + 1, by simpa using hi, ?_, ?_⟩
      · simp only [List.take_succ_cons, List.sum_cons]
        omega
      · simp only [List.take_succ_cons, List.sum_cons, List.getElem_cons_succ]
        omega

theorem expectTag_bind_run {α : Type} (tag : Bytes) (g : Unit → Decoder α) (rest : Bytes) :
    (expectTag tag >>= g).run rest =
      if 8 ≤ rest.length then
        if rest.take 8 = tag then (g ()).run (rest.drop 8) else .error .wrongDiscriminator
      else .error (.truncated 8 rest.length) := by
  unfold expectTag
  rw [StateT.run_bind, StateT.run_bind, take_run]
  by_cases hlen : 8 ≤ rest.length
  · rw [if_pos hlen, if_pos hlen, Except.ok_bind]
    by_cases htag : rest.take 8 = tag
    · rw [if_pos htag, if_pos htag]
      rfl
    · rw [if_neg htag, if_neg htag]
      rfl
  · rw [if_neg hlen, if_neg hlen]
    rfl

section Tagged

/-! ## A record behind a tag -/

variable {α : Type} {tag : Bytes} {ws : List Nat} {V : Bytes → α} {k : Unit → Decoder α}
  {d : Bytes}

theorem parse_tagged_of_short (hlen : d.length < 8) :
    parse (expectTag tag >>= k) d = .error (.truncated 8 d.length) := by
  rw [parse, expectTag_bind_run, if_neg (by omega)]
  rfl

theorem parse_tagged_of_wrong_tag (hlen : 8 ≤ d.length) (htag : d.take 8 ≠ tag) :
    parse (expectTag tag >>= k) d = .error .wrongDiscriminator := by
  rw [parse, expectTag_bind_run, if_pos hlen, if_neg htag]
  rfl

theorem parse_tagged_of_fit (hk : ∀ u, (k u).Packed ws V) (hfit : 8 + ws.sum ≤ d.length)
    (htag : d.take 8 = tag) : parse (expectTag tag >>= k) d = .ok (V (d.drop 8)) := by
  rw [parse, expectTag_bind_run, if_pos (by omega), if_pos htag,
    (hk ()).run_of_le _ (by rw [List.length_drop]; omega)]
  rfl

theorem parse_tagged_of_crossing (hk : ∀ u, (k u).Packed ws V) (hlen : 8 ≤ d.length)
    (htag : d.take 8 = tag) {i : Nat} (hi : i < ws.length)
    (hstart : 8 + (ws.take i).sum ≤ d.length) (hend : d.length < 8 + (ws.take i).sum + ws[i]) :
    parse (expectTag tag >>= k) d =
      .error (.truncated ws[i] (d.length - (8 + (ws.take i).sum))) := by
  rw [parse, expectTag_bind_run, if_pos hlen, if_pos htag,
    (hk ()).run_of_crossing _ i hi (by rw [List.length_drop]; omega)
      (by rw [List.length_drop]; omega), List.length_drop, Nat.sub_sub]
  rfl

end Tagged

end Decoder

/-- What a record behind an eight-byte tag, with packed fields of widths `ws`, decodes to. -/
structure PackedLaw {α : Type} (decode : Bytes → Except Fault α) (tag : Bytes) (ws : List Nat)
    (value : Bytes → α) : Prop where
  /-- The decode succeeds exactly on inputs that hold every field and start with the tag, and
  gives the fields read at their offsets. -/
  ok_iff : ∀ d m, decode d = .ok m ↔ 8 + ws.sum ≤ d.length ∧ d.take 8 = tag ∧ m = value d
  /-- Bytes after a record change nothing. -/
  append : ∀ d t m, decode d = .ok m → decode (d ++ t) = .ok m
  /-- An input shorter than the tag fails as a read of the tag. -/
  short_tag : ∀ d, d.length < 8 → decode d = .error (.truncated 8 d.length)
  /-- A wrong tag fails before any field is read. -/
  wrong_tag : ∀ d, 8 ≤ d.length → d.take 8 ≠ tag → decode d = .error .wrongDiscriminator
  /-- Otherwise a short input fails at the field that crosses its end: as a read of that field's
  width, with what is left after that field's offset. -/
  crossing : ∀ d, 8 ≤ d.length → d.take 8 = tag → d.length < 8 + ws.sum →
    ∃ i, ∃ hi : i < ws.length, 8 + (ws.take i).sum ≤ d.length ∧
      d.length < 8 + (ws.take i).sum + ws[i] ∧
      decode d = .error (.truncated ws[i] (d.length - (8 + (ws.take i).sum)))

/-- A decoder that checks an eight-byte tag and then reads packed fields obeys the law of packed
records. -/
theorem packedLaw_of_tagged {α : Type} {tag : Bytes} {ws : List Nat} {V : Bytes → α}
    {value : Bytes → α} {read : Decoder α} {k : Unit → Decoder α}
    (hread : read = Decoder.expectTag tag >>= k) (hk : ∀ u, (k u).Packed ws V)
    (hvalue : ∀ d, V (d.drop 8) = value d) :
    PackedLaw (Decoder.parse read) tag ws value := by
  subst hread
  have hcross : ∀ d, 8 ≤ d.length → d.take 8 = tag → d.length < 8 + ws.sum →
      ∃ i, ∃ hi : i < ws.length, 8 + (ws.take i).sum ≤ d.length ∧
        d.length < 8 + (ws.take i).sum + ws[i] ∧
        Decoder.parse (Decoder.expectTag tag >>= k) d =
          .error (.truncated ws[i] (d.length - (8 + (ws.take i).sum))) := by
    intro d hlen htag hshort
    obtain ⟨i, hi, hstart, hend⟩ := Decoder.exists_crossing ws (d.length - 8) (by omega)
    exact ⟨i, hi, by omega, by omega,
      Decoder.parse_tagged_of_crossing hk hlen htag hi (by omega) (by omega)⟩
  have hok_iff : ∀ d m, Decoder.parse (Decoder.expectTag tag >>= k) d = .ok m ↔
      8 + ws.sum ≤ d.length ∧ d.take 8 = tag ∧ m = value d := by
    intro d m
    constructor
    · intro hm
      by_cases hlen : 8 ≤ d.length
      · by_cases htag : d.take 8 = tag
        · by_cases hfit : 8 + ws.sum ≤ d.length
          · rw [Decoder.parse_tagged_of_fit hk hfit htag, hvalue] at hm
            exact ⟨hfit, htag, (Except.ok.inj hm).symm⟩
          · obtain ⟨i, hi, -, -, herr⟩ := hcross d hlen htag (by omega)
            rw [herr] at hm
            cases hm
        · rw [Decoder.parse_tagged_of_wrong_tag hlen htag] at hm
          cases hm
      · rw [Decoder.parse_tagged_of_short (by omega)] at hm
        cases hm
    · rintro ⟨hfit, htag, rfl⟩
      rw [Decoder.parse_tagged_of_fit hk hfit htag, hvalue]
  refine ⟨hok_iff, fun d t m hm => ?_, fun _ => Decoder.parse_tagged_of_short,
    fun _ => Decoder.parse_tagged_of_wrong_tag, hcross⟩
  obtain ⟨hfit, htag, rfl⟩ := (hok_iff d m).1 hm
  have hfit' : 8 + ws.sum ≤ (d ++ t).length := by
    rw [List.length_append]
    omega
  have htag' : (d ++ t).take 8 = tag := by
    rw [List.take_append_of_le_length (by omega), htag]
  rw [Decoder.parse_tagged_of_fit hk hfit' htag', ← hvalue,
    List.drop_append_of_le_length (by omega),
    (hk ()).value_append _ _ (by rw [List.length_drop]; omega)]

/-! ## The two account records -/

namespace MarketAccount

/-- The widths of a market account's fields, in declaration order. -/
def fieldWidths : List Nat :=
  [1, 1, 1, 8, 8, 1, 8, 8, 8, 4, 4, 32, 32, 32, 1, 32, 32, 32, 1, 1, 32, 32, 1, 1, 32, 32]

/-- The market account whose fields are read at their packed offsets in `d`, after the tag: a
boolean is whether its byte is not zero, a word its bytes little-endian. -/
def atOffsets (d : Bytes) : MarketAccount where
  active := decide (Bytes.leValue (d.slice 8 1) ≠ 0)
  managerActions := decide (Bytes.leValue (d.slice 9 1) ≠ 0)
  expireEnable := decide (Bytes.leValue (d.slice 10 1) ≠ 0)
  expireMin := Int64.ofNat (Bytes.leValue (d.slice 11 8))
  minQuantity := UInt64.ofNat (Bytes.leValue (d.slice 19 8))
  tickDecimals := UInt8.ofNat (Bytes.leValue (d.slice 27 1))
  logFee := UInt64.ofNat (Bytes.leValue (d.slice 28 8))
  logRebate := UInt64.ofNat (Bytes.leValue (d.slice 36 8))
  logReimburse := UInt64.ofNat (Bytes.leValue (d.slice 44 8))
  takerFee := UInt32.ofNat (Bytes.leValue (d.slice 52 4))
  makerRebate := UInt32.ofNat (Bytes.leValue (d.slice 56 4))
  state := (Address.ofBytes? (d.slice 60 32)).getD .zero
  tradeLog := (Address.ofBytes? (d.slice 92 32)).getD .zero
  agent := (Address.ofBytes? (d.slice 124 32)).getD .zero
  agentNonce := UInt8.ofNat (Bytes.leValue (d.slice 156 1))
  manager := (Address.ofBytes? (d.slice 157 32)).getD .zero
  mktMint := (Address.ofBytes? (d.slice 189 32)).getD .zero
  mktVault := (Address.ofBytes? (d.slice 221 32)).getD .zero
  mktDecimals := UInt8.ofNat (Bytes.leValue (d.slice 253 1))
  mktMintType := UInt8.ofNat (Bytes.leValue (d.slice 254 1))
  prcMint := (Address.ofBytes? (d.slice 255 32)).getD .zero
  prcVault := (Address.ofBytes? (d.slice 287 32)).getD .zero
  prcDecimals := UInt8.ofNat (Bytes.leValue (d.slice 319 1))
  prcMintType := UInt8.ofNat (Bytes.leValue (d.slice 320 1))
  orders := (Address.ofBytes? (d.slice 321 32)).getD .zero
  settle0 := (Address.ofBytes? (d.slice 353 32)).getD .zero

theorem read_packed : ∃ (k : Unit → Decoder MarketAccount) (V : Bytes → MarketAccount),
    read = Decoder.expectTag marketTag >>= k ∧ (∀ u, (k u).Packed fieldWidths V) ∧
      ∀ d, V (d.drop 8) = atOffsets d := by
  refine ⟨_, _, rfl, fun _ => by
    unfold fieldWidths
    repeat
      first
      | exact .done _
      | (apply Decoder.Packed.field Decoder.bool_readsWindow; intro _)
      | (apply Decoder.Packed.field Decoder.u8_readsWindow; intro _)
      | (apply Decoder.Packed.field Decoder.u32_readsWindow; intro _)
      | (apply Decoder.Packed.field Decoder.u64_readsWindow; intro _)
      | (apply Decoder.Packed.field Decoder.i64_readsWindow; intro _)
      | (apply Decoder.Packed.field Decoder.address_readsWindow; intro _),
    fun d => by simp only [atOffsets, Bytes.slice, List.drop_drop, Nat.reduceAdd]; rfl⟩

end MarketAccount

namespace MarketState

/-- The widths of a market state's fields, in declaration order. -/
def fieldWidths : List Nat :=
  [32, 32, 1, 8, 8, 8, 4, 4, 8, 8, 8, 8, 8, 8, 8, 8, 8, 8, 8]

/-- The market state whose fields are read at their packed offsets in `d`, after the tag. -/
def atOffsets (d : Bytes) : MarketState where
  settleA := (Address.ofBytes? (d.slice 8 32)).getD .zero
  settleB := (Address.ofBytes? (d.slice 40 32)).getD .zero
  logRollover := decide (Bytes.leValue (d.slice 72 1) ≠ 0)
  logDepositBalance := UInt64.ofNat (Bytes.leValue (d.slice 73 8))
  actionCounter := UInt64.ofNat (Bytes.leValue (d.slice 81 8))
  orderCounter := UInt64.ofNat (Bytes.leValue (d.slice 89 8))
  activeBid := UInt32.ofNat (Bytes.leValue (d.slice 97 4))
  activeAsk := UInt32.ofNat (Bytes.leValue (d.slice 101 4))
  mktVaultBalance := UInt64.ofNat (Bytes.leValue (d.slice 105 8))
  mktOrderBalance := UInt64.ofNat (Bytes.leValue (d.slice 113 8))
  mktUserVaultBalance := UInt64.ofNat (Bytes.leValue (d.slice 121 8))
  mktLogBalance := UInt64.ofNat (Bytes.leValue (d.slice 129 8))
  prcVaultBalance := UInt64.ofNat (Bytes.leValue (d.slice 137 8))
  prcOrderBalance := UInt64.ofNat (Bytes.leValue (d.slice 145 8))
  prcUserVaultBalance := UInt64.ofNat (Bytes.leValue (d.slice 153 8))
  prcLogBalance := UInt64.ofNat (Bytes.leValue (d.slice 161 8))
  prcFeesBalance := UInt64.ofNat (Bytes.leValue (d.slice 169 8))
  lastTs := Int64.ofNat (Bytes.leValue (d.slice 177 8))
  lastPrice := UInt64.ofNat (Bytes.leValue (d.slice 185 8))

theorem read_packed : ∃ (k : Unit → Decoder MarketState) (V : Bytes → MarketState),
    read = Decoder.expectTag marketStateTag >>= k ∧ (∀ u, (k u).Packed fieldWidths V) ∧
      ∀ d, V (d.drop 8) = atOffsets d := by
  refine ⟨_, _, rfl, fun _ => by
    unfold fieldWidths
    repeat
      first
      | exact .done _
      | (apply Decoder.Packed.field Decoder.bool_readsWindow; intro _)
      | (apply Decoder.Packed.field Decoder.u32_readsWindow; intro _)
      | (apply Decoder.Packed.field Decoder.u64_readsWindow; intro _)
      | (apply Decoder.Packed.field Decoder.i64_readsWindow; intro _)
      | (apply Decoder.Packed.field Decoder.address_readsWindow; intro _),
    fun d => by simp only [atOffsets, Bytes.slice, List.drop_drop, Nat.reduceAdd]; rfl⟩

end MarketState

/-- Both account records obey the law of packed records behind their tags: a market account of
385 bytes and a market state of 193, each field little-endian at its offset in declaration
order, the tag checked first, and a short input failing at the field that crosses its end. -/
theorem market_records_decode_packed :
    PackedLaw MarketAccount.decode marketTag MarketAccount.fieldWidths MarketAccount.atOffsets ∧
      8 + MarketAccount.fieldWidths.sum = 385 ∧
    PackedLaw MarketState.decode marketStateTag MarketState.fieldWidths MarketState.atOffsets ∧
      8 + MarketState.fieldWidths.sum = 193 := by
  obtain ⟨k, V, hread, hk, hvalue⟩ := MarketAccount.read_packed
  obtain ⟨k', V', hread', hk', hvalue'⟩ := MarketState.read_packed
  exact ⟨packedLaw_of_tagged hread hk hvalue, rfl, packedLaw_of_tagged hread' hk' hvalue', rfl⟩

end SlabLedger
