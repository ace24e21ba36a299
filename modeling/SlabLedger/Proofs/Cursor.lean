import SlabLedger.Proofs.Decoder

/-!
# The reader as an offset

A decoder's state is the unread rest of its input. Seen from the whole input `d`, that rest is
`d.drop p` for an offset `p`, and the decoder's reads move `p` as a cursor into `d`. A read of `w`
bytes at `p` succeeds exactly when `p + w ≤ d.length`: it gives the value of the bytes from `p` to
`p + w`, little-endian, and moves to `p + w`. Otherwise it fails as a record cut short, with `w`
bytes needed and `d.length - p` remaining, and the cursor stays at `p`.

`readAt` is that rule, `ReadOp` lists the reader's operations and `ReadOp.step` says what each one
does to the offset. `Decoder.attempt` runs a read and keeps its failure as a value, so that reads
can go on after one fails. The main result, `reader_moves_as_offset`, is that every operation, and
every sequence of operations attempted one after another, leaves the decoder exactly where `step`
leaves the offset, with the same results.
-/

namespace SlabLedger

/-- A read of `w` bytes at offset `p` of `d`, giving `f` of them: its result and the offset it
leaves. -/
def readAt {α : Type} (d : Bytes) (p w : Nat) (f : Bytes → α) : Except Fault α × Nat :=
  if p + w ≤ d.length then (.ok (f ((d.drop p).take w)), p + w)
  else (.error (.truncated w (d.length - p)), p)

theorem readAt_le {α : Type} {d : Bytes} {p : Nat} (hp : p ≤ d.length) (w : Nat)
    (f : Bytes → α) :
    (readAt d p w f).2 ≤ d.length := by
  unfold readAt
  split
  · next hw => exact hw
  · exact hp

namespace Decoder

variable {α β : Type}

/-- Runs `x` and keeps its failure as a value; a failed read leaves the unread bytes as they
were. -/
def attempt (x : Decoder α) : Decoder (Except Fault α) :=
  tryCatch (Except.ok <$> x) fun e => pure (.error e)

theorem attempt_run (x : Decoder α) (s : Bytes) :
    x.attempt.run s = match x.run s with
      | .ok (a, s') => .ok (.ok a, s')
      | .error e => .ok (.error e, s) := by
  have hmap : ((Except.ok : α → Except Fault α) <$> x).run s =
      (fun p => (Except.ok p.1, p.2)) <$> x.run s :=
    StateT.run_map _ _ _
  show Except.tryCatch (((Except.ok : α → Except Fault α) <$> x).run s) _ = _
  rw [hmap]
  cases x.run s <;> rfl

/-- At offset `p` of `d`, an attempted read of a window does what `readAt` says. -/
theorem ReadsWindow.attempt_run_drop {x : Decoder α} {w : Nat} {f : Bytes → α}
    (hx : x.ReadsWindow w f) {d : Bytes} {p : Nat} (hp : p ≤ d.length) :
    x.attempt.run (d.drop p) = .ok ((readAt d p w f).1, d.drop (readAt d p w f).2) := by
  rw [attempt_run, hx, readAt, List.length_drop]
  by_cases hw : p + w ≤ d.length
  · rw [if_pos (by omega), if_pos hw, List.drop_drop]
  · rw [if_neg (by omega), if_neg hw]

end Decoder

/-! ## Operations of the reader -/

/-- An operation of the reader. -/
inductive ReadOp where
  | u8
  | u16
  | u32
  | u64
  | i64
  | bool
  /-- The next `n` bytes, as a block or as an array of that size. -/
  | take (n : Nat)
  | skip (n : Nat)
  | remaining
  | rest
  deriving DecidableEq, Repr

namespace ReadOp

/-- What an operation gives. -/
def Out : ReadOp → Type
  | u8 => UInt8
  | u16 => UInt16
  | u32 => UInt32
  | u64 => UInt64
  | i64 => Int64
  | bool => Bool
  | take _ => Bytes
  | skip _ => Unit
  | remaining => Nat
  | rest => Bytes

/-- The decoder that performs an operation. -/
def decoder : (op : ReadOp) → Decoder op.Out
  | u8 => Decoder.u8
  | u16 => Decoder.u16
  | u32 => Decoder.u32
  | u64 => Decoder.u64
  | i64 => Decoder.i64
  | bool => Decoder.bool
  | take n => Decoder.take n
  | skip n => Decoder.skip n
  | remaining => Decoder.remaining
  | rest => Decoder.peekRest

/-- What an operation does at offset `p` of `d`. A read gives the little-endian value of the bytes
of its width there (a boolean: whether its byte is not zero; a block: the bytes themselves);
`remaining` gives the number of bytes after `p` and `rest` those bytes, and neither moves. -/
def step (d : Bytes) (p : Nat) : (op : ReadOp) → Except Fault op.Out × Nat
  | u8 => readAt d p 1 fun b => UInt8.ofNat (Bytes.leValue b)
  | u16 => readAt d p 2 fun b => UInt16.ofNat (Bytes.leValue b)
  | u32 => readAt d p 4 fun b => UInt32.ofNat (Bytes.leValue b)
  | u64 => readAt d p 8 fun b => UInt64.ofNat (Bytes.leValue b)
  | i64 => readAt d p 8 fun b => Int64.ofNat (Bytes.leValue b)
  | bool => readAt d p 1 fun b => decide (Bytes.leValue b ≠ 0)
  | take n => readAt d p n id
  | skip n => readAt d p n fun _ => ()
  | remaining => (.ok (d.length - p), p)
  | rest => (.ok (d.drop p), p)

/-- Runs operations one after another, each attempted: a failure is recorded and the next
operation starts where the failed one did. -/
def runAll (ops : List ReadOp) : Decoder (List (Σ op : ReadOp, Except Fault op.Out)) :=
  ops.mapM fun op => (fun r => ⟨op, r⟩) <$> op.decoder.attempt

/-- The same operations on the offset: their results, and the offset after the last. -/
def stepAll (d : Bytes) : List ReadOp → Nat → List (Σ op : ReadOp, Except Fault op.Out) × Nat
  | [], p => ([], p)
  | op :: ops, p =>
    let (rs, q) := stepAll d ops (step d p op).2
    (⟨op, (step d p op).1⟩ :: rs, q)

variable {d : Bytes} {p : Nat}

theorem step_le (op : ReadOp) (hp : p ≤ d.length) : (step d p op).2 ≤ d.length := by
  cases op with
  | remaining | rest => exact hp
  | _ => exact readAt_le hp _ _

/-- One operation from offset `p`: the decoder's rest follows the offset. -/
theorem attempt_run_drop (op : ReadOp) (hp : p ≤ d.length) :
    op.decoder.attempt.run (d.drop p) = .ok ((step d p op).1, d.drop (step d p op).2) := by
  cases op with
  | u8 => exact Decoder.u8_readsWindow.attempt_run_drop hp
  | u16 => exact Decoder.u16_readsWindow.attempt_run_drop hp
  | u32 => exact Decoder.u32_readsWindow.attempt_run_drop hp
  | u64 => exact Decoder.u64_readsWindow.attempt_run_drop hp
  | i64 => exact Decoder.i64_readsWindow.attempt_run_drop hp
  | bool => exact Decoder.bool_readsWindow.attempt_run_drop hp
  | take n => exact (Decoder.take_readsWindow n).attempt_run_drop hp
  | skip n => exact (Decoder.skip_readsWindow n).attempt_run_drop hp
  | remaining =>
    rw [Decoder.attempt_run]
    show Except.ok (Except.ok (d.drop p).length, d.drop p) = _
    rw [List.length_drop]
    rfl
  | rest =>
    rw [Decoder.attempt_run]
    rfl

/-- A sequence of operations from offset `p`: by induction on the sequence, each step keeping the
rest equal to `d.drop` of an offset within `d`. -/
theorem runAll_run_drop (ops : List ReadOp) (hp : p ≤ d.length) :
    (runAll ops).run (d.drop p) = .ok ((stepAll d ops p).1, d.drop (stepAll d ops p).2) := by
  induction ops generalizing p with
  | nil => rfl
  | cons op ops ih =>
    have hstep := attempt_run_drop op hp
    have hrest := ih (step_le op hp)
    unfold runAll at hrest ⊢
    rw [List.mapM_cons, StateT.run_bind, StateT.run_map, hstep]
    simp only [Except.map_ok, Except.ok_bind]
    rw [StateT.run_bind, hrest]
    rfl

end ReadOp

/-- The reader is an offset into its input. From `d.drop p`, for any offset `p` within `d`, every
operation returns what the offset rule `ReadOp.step` gives and leaves `d.drop q` for the offset `q`
it gives, which is again within `d`; a read of `w` bytes succeeds exactly when `p + w ≤ d.length`,
and a failed one returns the fault and leaves `p`. So does every sequence of operations, each
attempted where the one before left the cursor. -/
theorem reader_moves_as_offset (d : Bytes) :
    (∀ (op : ReadOp) (p : Nat), p ≤ d.length →
      op.decoder.attempt.run (d.drop p) =
        .ok ((ReadOp.step d p op).1, d.drop (ReadOp.step d p op).2) ∧
      (ReadOp.step d p op).2 ≤ d.length) ∧
    ∀ (ops : List ReadOp) (p : Nat), p ≤ d.length →
      (ReadOp.runAll ops).run (d.drop p) =
        .ok ((ReadOp.stepAll d ops p).1, d.drop (ReadOp.stepAll d ops p).2) :=
  ⟨fun op _ hp => ⟨ReadOp.attempt_run_drop op hp, ReadOp.step_le op hp⟩,
    fun ops _ hp => ReadOp.runAll_run_drop ops hp⟩

example : (ReadOp.runAll [.u64, .remaining, .u16]).run ([0, 0, 0, 0, 0, 0] : Bytes) =
    .ok ([⟨.u64, .error (.truncated 8 6)⟩, ⟨.remaining, .ok (6 : Nat)⟩,
      ⟨.u16, .ok (0 : UInt16)⟩], [0, 0, 0, 0]) :=
  rfl

end SlabLedger
