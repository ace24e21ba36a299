import Mathlib.Control.Monad.Basic
import Mathlib.Data.List.Forall2
import SlabLedger.Slab.Decoder

/-!
# Reads of a known width

Most reads of a decoder take a fixed number of bytes: a word of its width, or a block of fields
read one after the other. Three properties say so, each weaker than the one before.

`Decoder.ReadsWindow x w f` says all of what a primitive read does: with `w` bytes left it gives
`f` of them and moves past them, otherwise it fails as a read of `w` bytes cut short. Every
primitive of the reader has it.

`Decoder.Reads d w` keeps only the width: on any input that starts with `w` given bytes `d`
succeeds with a value fixed by those bytes and leaves the rest unread, and on any shorter input
it fails as a record cut short. A read of a window has it (`ReadsWindow.reads`), and a block of
such reads is such a read, so the front of an account (a version or addresses, then headers)
reads exactly its width.

`Decoder.Consumes d w` keeps only the move: when `d` succeeds it has read exactly `w` bytes from
the front of its input (`Reads.consumes`).

A list of results (`List.mapM` in `Except`) succeeds with the outputs of its inputs, each at its
place, and otherwise fails with the fault of its first input that fails.
-/
namespace SlabLedger

@[simp]
theorem Except.ok_bind {ε α β : Type} (a : α) (f : α → Except ε β) :
    (Except.ok a >>= f) = f a := rfl

@[simp]
theorem Except.error_bind {ε α β : Type} (e : ε) (f : α → Except ε β) :
    (Except.error e >>= f) = .error e := rfl

/-- A bind that succeeds ran its first step to a value. -/
theorem Except.exists_of_bind_eq_ok {ε α β : Type} {x : Except ε α} {f : α → Except ε β} {r : β}
    (h : (x >>= f) = .ok r) : ∃ a, x = .ok a ∧ f a = .ok r := by
  cases x with
  | error e => cases h
  | ok a => exact ⟨a, rfl, h⟩

/-- A result repackaged after a step fails only as the step did. -/
theorem Except.eq_error_of_bind_pure {ε α β : Type} {x : Except ε α} {g : α → β} {e : ε}
    (h : (x >>= fun a => pure (g a)) = .error e) : x = .error e := by
  cases x with
  | error e' =>
    cases h
    rfl
  | ok a => cases h

@[simp]
theorem Except.discard_ok {ε α : Type} (a : α) : discard (Except.ok a : Except ε α) = .ok () := rfl

@[simp]
theorem Except.discard_error {ε α : Type} (e : ε) :
    discard (Except.error e : Except ε α) = .error e := rfl

/-! ## Lists of results -/

section MapM

variable {ε β γ : Type} {f : β → Except ε γ}

/-- A list of results succeeds with the outputs that its inputs give, each at its place. -/
theorem mapM_eq_ok_iff_forall₂ {l : List β} {ys : List γ} :
    l.mapM f = .ok ys ↔ List.Forall₂ (fun x y => f x = .ok y) l ys := by
  induction l generalizing ys with
  | nil =>
    cases ys with
    | nil => exact iff_of_true rfl .nil
    | cons y ys => exact iff_of_false (by simp [pure, Except.pure]) (by simp)
  | cons x l ih =>
    rw [List.mapM_cons, List.forall₂_cons_left_iff]
    cases hx : f x with
    | error e =>
      refine iff_of_false (by simp) ?_
      rintro ⟨y, ys', hy, -, -⟩
      cases hy
    | ok y =>
      cases hl : l.mapM f with
      | error e =>
        refine iff_of_false (by simp) ?_
        rintro ⟨y', ys', -, hrest, -⟩
        rw [← ih, hl] at hrest
        cases hrest
      | ok ys' =>
        show Except.ok (y :: ys') = Except.ok ys ↔ _
        constructor
        · intro h
          cases h
          exact ⟨y, ys', rfl, ih.1 hl, rfl⟩
        · rintro ⟨y', ys'', hy, hrest, rfl⟩
          cases hy
          rw [← ih, hl] at hrest
          cases hrest
          rfl

/-- A list of results succeeds exactly when each of its inputs does. -/
theorem exists_mapM_eq_ok_iff {l : List β} :
    (∃ ys, l.mapM f = .ok ys) ↔ ∀ x ∈ l, ∃ y, f x = .ok y := by
  induction l with
  | nil => exact iff_of_true ⟨[], rfl⟩ (by simp)
  | cons x l ih =>
    rw [List.forall_mem_cons, ← ih, List.mapM_cons]
    cases hx : f x with
    | error e => simp
    | ok y =>
      cases hl : l.mapM f with
      | error e => simp
      | ok ys => simp

/-- A list of results fails with the fault of the first input that fails. -/
theorem mapM_eq_error_of_first {pre post : List β} {x : β} {e : ε}
    (hpre : ∀ y ∈ pre, ∃ z, f y = .ok z) (hx : f x = .error e) :
    (pre ++ x :: post).mapM f = .error e := by
  induction pre with
  | nil => rw [List.nil_append, List.mapM_cons, hx]; rfl
  | cons y pre ih =>
    obtain ⟨z, hz⟩ := hpre y List.mem_cons_self
    rw [List.cons_append, List.mapM_cons, hz, Except.ok_bind,
      ih fun y' hy' => hpre y' (List.mem_cons_of_mem y hy')]
    rfl

/-- A list of results that fails, fails with the fault of one of its inputs. -/
theorem exists_of_mapM_eq_error {l : List β} {e : ε} (h : l.mapM f = .error e) :
    ∃ x ∈ l, f x = .error e := by
  induction l with
  | nil => cases h
  | cons x l ih =>
    rw [List.mapM_cons] at h
    cases hx : f x with
    | error e' =>
      rw [hx] at h
      cases h
      exact ⟨x, List.mem_cons_self, hx⟩
    | ok y =>
      rw [hx, Except.ok_bind] at h
      cases hl : l.mapM f with
      | error e' =>
        rw [hl] at h
        cases h
        obtain ⟨x', hx', he⟩ := ih hl
        exact ⟨x', List.mem_cons_of_mem x hx', he⟩
      | ok ys => rw [hl] at h; cases h

end MapM

namespace Decoder

variable {α β : Type}

theorem take_run (n : Nat) (bs : Bytes) :
    (take n).run bs =
      if n ≤ bs.length then .ok (bs.take n, bs.drop n)
      else .error (.truncated n bs.length) := by
  simp [take, shortBy, StateT.run]

theorem skip_run (n : Nat) (bs : Bytes) :
    (skip n).run bs =
      if n ≤ bs.length then .ok ((), bs.drop n) else .error (.truncated n bs.length) := by
  simp [skip, shortBy, StateT.run]

/-! ## Reads of a window -/

/-- `x` reads the next `w` bytes and gives `f` of them: with `w` bytes left it succeeds and moves
past them, otherwise it fails as a read of `w` bytes cut short. -/
def ReadsWindow (x : Decoder α) (w : Nat) (f : Bytes → α) : Prop :=
  ∀ rest, x.run rest = if w ≤ rest.length then .ok (f (rest.take w), rest.drop w)
    else .error (.truncated w rest.length)

theorem take_readsWindow (n : Nat) : (take n).ReadsWindow n id :=
  take_run n

theorem skip_readsWindow (n : Nat) : (skip n).ReadsWindow n fun _ => () :=
  skip_run n

theorem ReadsWindow.map {x : Decoder α} {w : Nat} {f : Bytes → α} (hx : x.ReadsWindow w f)
    (g : α → β) : (g <$> x).ReadsWindow w (g ∘ f) := by
  intro rest
  rw [StateT.run_map, hx rest]
  split <;> rfl

/-- Only what `f` gives on windows of the read's width counts. -/
theorem ReadsWindow.congr {x : Decoder α} {w : Nat} {f g : Bytes → α} (hx : x.ReadsWindow w f)
    (hfg : ∀ b, b.length = w → f b = g b) : x.ReadsWindow w g := by
  intro rest
  rw [hx rest]
  split
  · next hw => rw [hfg _ (by rw [List.length_take]; omega)]
  · rfl

theorem word_readsWindow (w : Nat) : (word w).ReadsWindow w Bytes.leValue :=
  (take_readsWindow w).map _

theorem u8_readsWindow : u8.ReadsWindow 1 fun b => UInt8.ofNat (Bytes.leValue b) :=
  (word_readsWindow 1).map _

theorem u16_readsWindow : u16.ReadsWindow 2 fun b => UInt16.ofNat (Bytes.leValue b) :=
  (word_readsWindow 2).map _

theorem u32_readsWindow : u32.ReadsWindow 4 fun b => UInt32.ofNat (Bytes.leValue b) :=
  (word_readsWindow 4).map _

theorem u64_readsWindow : u64.ReadsWindow 8 fun b => UInt64.ofNat (Bytes.leValue b) :=
  (word_readsWindow 8).map _

/-- A signed word is its eight bytes read in two's complement. -/
theorem i64_readsWindow : i64.ReadsWindow 8 fun b => Int64.ofNat (Bytes.leValue b) :=
  (word_readsWindow 8).map _

/-- A boolean is whether its byte is not zero. -/
theorem bool_readsWindow : bool.ReadsWindow 1 fun b => decide (Bytes.leValue b ≠ 0) := by
  refine (u8_readsWindow.map _).congr fun b hb => ?_
  match b, hb with
  | [x], _ =>
    simp only [Function.comp_apply, Bytes.leValue, Nat.mul_zero, Nat.add_zero, UInt8.ofNat_toNat]
    by_cases hx : x = 0
    · simp [hx]
    · have hnat : x.toNat ≠ 0 := fun h => hx (UInt8.toNat_inj.1 h)
      simp [hx, hnat]

theorem key_readsWindow : key.ReadsWindow 16 Key.ofBytes :=
  (take_readsWindow 16).map _

theorem address_readsWindow :
    address.ReadsWindow 32 fun b => (Address.ofBytes? b).getD Address.zero := by
  intro rest
  show (if h : Bytes.hasAtLeast 32 rest = true then _ else _) = _
  by_cases h : 32 ≤ rest.length
  · have hat : Bytes.hasAtLeast 32 rest = true := by
      rw [Bytes.hasAtLeast_eq]
      exact decide_eq_true h
    rw [dif_pos hat, if_pos h]
    simp only [Address.ofBytes?, Bytes.length_take_of_hasAtLeast hat, dite_true, Option.getD_some]
  · have hat : ¬Bytes.hasAtLeast 32 rest = true := by
      rw [Bytes.hasAtLeast_eq, decide_eq_true_eq]
      exact h
    rw [dif_neg hat, if_neg h]
    rfl

/-! ## Reads of a fixed width that fail only when cut short -/

/-- `d` reads exactly the first `w` bytes of its input and nothing else decides its result. -/
structure Reads (d : Decoder α) (w : Nat) : Prop where
  /-- On input that starts with `w` given bytes, the value is fixed by them and the rest is
  left unread. -/
  ok : ∀ pre, pre.length = w → ∃ x, ∀ rest, d.run (pre ++ rest) = .ok (x, rest)
  /-- On shorter input the read fails as a record cut short. -/
  short : ∀ bs, bs.length < w → ∃ n r, d.run bs = .error (.truncated n r)

/-- A read of a window has the window's width, whatever it makes of the bytes. -/
theorem ReadsWindow.reads {x : Decoder α} {w : Nat} {f : Bytes → α} (hx : x.ReadsWindow w f) :
    x.Reads w := by
  constructor
  · intro pre hpre
    refine ⟨f pre, fun rest => ?_⟩
    rw [hx, if_pos (by simp; omega), List.take_left' hpre, List.drop_left' hpre]
  · intro bs hbs
    exact ⟨w, bs.length, by rw [hx, if_neg (by omega)]⟩

theorem pure_reads (x : α) : (pure x : Decoder α).Reads 0 := by
  constructor
  · intro pre hpre
    rw [List.length_eq_zero_iff] at hpre
    exact ⟨x, fun rest => by rw [hpre]; rfl⟩
  · intro bs hbs
    omega

theorem Reads.map {d : Decoder α} {w : Nat} (hd : d.Reads w) (f : α → β) :
    (f <$> d).Reads w := by
  constructor
  · intro pre hpre
    obtain ⟨x, hx⟩ := hd.ok pre hpre
    exact ⟨f x, fun rest => by rw [StateT.run_map, hx rest]; rfl⟩
  · intro bs hbs
    obtain ⟨n, r, h⟩ := hd.short bs hbs
    exact ⟨n, r, by rw [StateT.run_map, h]; rfl⟩

theorem Reads.bind {d : Decoder α} {g : α → Decoder β} {w₁ w₂ : Nat}
    (hd : d.Reads w₁) (hg : ∀ a, (g a).Reads w₂) : (d >>= g).Reads (w₁ + w₂) := by
  constructor
  · intro pre hpre
    obtain ⟨x, hx⟩ := hd.ok (pre.take w₁) (by simp; omega)
    obtain ⟨y, hy⟩ := (hg x).ok (pre.drop w₁) (by simp; omega)
    refine ⟨y, fun rest => ?_⟩
    rw [← List.take_append_drop w₁ pre, List.append_assoc, StateT.run_bind, hx, Except.ok_bind,
      hy]
  · intro bs hbs
    by_cases hfirst : bs.length < w₁
    · obtain ⟨n, r, h⟩ := hd.short bs hfirst
      exact ⟨n, r, by rw [StateT.run_bind, h]; rfl⟩
    · obtain ⟨x, hx⟩ := hd.ok (bs.take w₁) (by simp; omega)
      obtain ⟨n, r, h⟩ := (hg x).short (bs.drop w₁) (by simp; omega)
      refine ⟨n, r, ?_⟩
      rw [← List.take_append_drop w₁ bs, StateT.run_bind, hx, Except.ok_bind, h]

/-- On input of at least `w` bytes a read of width `w` succeeds, leaves what follows the first
`w` bytes, and reads the same value from those bytes followed by anything. -/
theorem Reads.run_of_le {d : Decoder α} {w : Nat} (hd : d.Reads w) {bs : Bytes}
    (h : w ≤ bs.length) :
    ∃ x, d.run bs = .ok (x, bs.drop w) ∧
      ∀ rest, d.run (bs.take w ++ rest) = .ok (x, rest) := by
  obtain ⟨x, hx⟩ := hd.ok (bs.take w) (by simp; omega)
  refine ⟨x, ?_, hx⟩
  rw [← hx, List.take_append_drop]

theorem parse_of_run {d : Decoder α} {bs : Bytes} {x : α} {rest : Bytes}
    (h : d.run bs = .ok (x, rest)) : d.parse bs = .ok x := by
  rw [parse, h]
  rfl

theorem replicate_reads {d : Decoder α} {w : Nat} (hd : d.Reads w) :
    ∀ n, (replicate d n).Reads (n * w)
  | 0 => by
    rw [Nat.zero_mul, replicate]
    exact pure_reads _
  | n + 1 => by
    have hwidth : (n + 1) * w = w + (n * w + 0) := by
      rw [Nat.add_zero, Nat.succ_mul, Nat.add_comm]
      rfl
    rw [hwidth, replicate]
    exact hd.bind fun _ => (replicate_reads hd n).bind fun _ => pure_reads _

theorem Reads.of_eq {d : Decoder α} {w w' : Nat} (hd : d.Reads w) (hw : w = w') : d.Reads w' :=
  hw ▸ hd

/-- `n` reads of width `w` in a row: the `i`-th is read `w * i` bytes on. -/
theorem replicate_run {d : Decoder α} {w : Nat} (hd : d.Reads w) :
    ∀ (n : Nat) {bs : Bytes}, n * w ≤ bs.length →
      ∃ l, (replicate d n).run bs = .ok (l, bs.drop (n * w)) ∧
        (List.range n).mapM (fun i => d.parse (bs.drop (w * i))) = .ok l.1
  | 0, bs, _ => ⟨⟨[], rfl⟩, by simp [replicate]; rfl, rfl⟩
  | n + 1, bs, hlen => by
    obtain ⟨x, hx, -⟩ := hd.run_of_le (show w ≤ bs.length by rw [Nat.succ_mul] at hlen; omega)
    obtain ⟨l, hl, hmap⟩ := replicate_run hd n
      (show n * w ≤ (bs.drop w).length by rw [List.length_drop, Nat.succ_mul] at *; omega)
    refine ⟨⟨x :: l.1, by simp [l.2]⟩, ?_, ?_⟩
    · rw [replicate, StateT.run_bind, hx, Except.ok_bind, StateT.run_bind, hl, Except.ok_bind,
        List.drop_drop, Nat.succ_mul, Nat.add_comm (n * w)]
      rfl
    · have hrest : ((fun i => d.parse (bs.drop (w * i))) ∘ Nat.succ) =
          fun i => d.parse ((bs.drop w).drop (w * i)) := by
        funext i
        rw [Function.comp_apply, List.drop_drop, Nat.mul_succ, Nat.add_comm (w * i)]
      rw [List.range_succ_eq_map, List.mapM_cons, List.mapM_map, hrest, hmap, Nat.mul_zero,
        List.drop_zero, parse_of_run hx]
      rfl

theorem take_reads (n : Nat) : (take n).Reads n :=
  (take_readsWindow n).reads

theorem skip_reads (n : Nat) : (skip n).Reads n :=
  (skip_readsWindow n).reads

theorem u16_reads : u16.Reads 2 :=
  u16_readsWindow.reads

theorem u32_reads : u32.Reads 4 :=
  u32_readsWindow.reads

theorem u64_reads : u64.Reads 8 :=
  u64_readsWindow.reads

theorem i64_reads : i64.Reads 8 :=
  i64_readsWindow.reads

theorem key_reads : key.Reads 16 :=
  key_readsWindow.reads

theorem address_reads : address.Reads 32 :=
  address_readsWindow.reads

/-! ## Reads that move by their width -/

/-- On success, `d` has read exactly `w` bytes from the front of its input. -/
def Consumes (d : Decoder α) (w : Nat) : Prop :=
  ∀ bs x r, d.run bs = .ok (x, r) → r = bs.drop w

/-- A read of a fixed width moves by that width whenever it succeeds. -/
theorem Reads.consumes {d : Decoder α} {w : Nat} (hd : d.Reads w) : d.Consumes w := by
  intro bs x r h
  by_cases hw : w ≤ bs.length
  · obtain ⟨y, hy, -⟩ := hd.run_of_le hw
    rw [hy] at h
    cases h
    rfl
  · obtain ⟨n, m, hshort⟩ := hd.short bs (by omega)
    rw [hshort] at h
    cases h

end Decoder
end SlabLedger
