import SlabLedger.Bytes
/-!
# UTF-8 text

Reading bytes as UTF-8 accepts exactly the shortest encodings of Unicode scalar values. A fault
names where the valid text ends and either how many bytes form the bad sequence, or that the
input ends inside a sequence.
-/

namespace SlabLedger.Utf8

/-- Why bytes are not UTF-8 text. -/
inductive Utf8Fault where
  /-- A bad sequence of `length` bytes starts at `index`. -/
  | invalid (index length : Nat)
  /-- The bytes end inside the sequence that starts at `index`. -/
  | incomplete (index : Nat)
  deriving DecidableEq, Repr

/-- The text of a UTF-8 fault. -/
def Utf8Fault.message : Utf8Fault → String
  | .invalid i n => "invalid utf-8 sequence of " ++ toString n ++ " bytes from index " ++ toString i
  | .incomplete i => "incomplete utf-8 byte sequence from index " ++ toString i

/-- Whether a byte continues a sequence. -/
def isCont (b : UInt8) : Bool := 0x80 ≤ b.toNat && b.toNat ≤ 0xbf

/-- The range the second byte of a sequence must lie in, given its first byte. -/
def secondRange (first : Nat) : Nat × Nat :=
  if first = 0xe0 then (0xa0, 0xbf)
  else if first = 0xed then (0x80, 0x9f)
  else if first = 0xf0 then (0x90, 0xbf)
  else if first = 0xf4 then (0x80, 0x8f)
  else (0x80, 0xbf)

/-- The bytes a sequence takes, from its first byte; zero for a byte that starts none. -/
def width (first : Nat) : Nat :=
  if first < 0x80 then 1
  else if 0xc2 ≤ first ∧ first ≤ 0xdf then 2
  else if 0xe0 ≤ first ∧ first ≤ 0xef then 3
  else if 0xf0 ≤ first ∧ first ≤ 0xf4 then 4
  else 0

/-- Checks the `k` bytes after the first of a sequence, the first of them in `range`; gives the
number of good ones, or none if the input ends first. -/
def goodTail (range : Nat × Nat) : Nat → Nat → Bytes → Option Nat
  | _, 0, _ => some 0
  | _, _ + 1, [] => none
  | i, k + 1, b :: rest =>
    let ok := if i = 0 then range.1 ≤ b.toNat && b.toNat ≤ range.2 else isCont b
    if ok then (goodTail range (i + 1) k rest).map (· + 1) else some 0

/-- The characters of UTF-8 bytes from `index` on, after `acc` (reversed). -/
def decodeFrom (index : Nat) (acc : List Char) : Bytes → Except Utf8Fault (List Char)
  | [] => .ok acc.reverse
  | b :: rest =>
    let w := width b.toNat
    if w = 0 then .error (.invalid index 1)
    else if w = 1 then decodeFrom (index + 1) (Char.ofNat b.toNat :: acc) rest
    else
      match goodTail (secondRange b.toNat) 0 (w - 1) rest with
      | none => .error (.incomplete index)
      | some good =>
        if good < w - 1 then .error (.invalid index (good + 1))
        else
          let tail := rest.take (w - 1)
          let lead := b.toNat % Nat.pow 2 (7 - w)
          let code := tail.foldl (fun v c => 64 * v + c.toNat % 64) lead
          decodeFrom (index + w) (Char.ofNat code :: acc) (rest.drop (w - 1))
termination_by bs => bs.length
decreasing_by all_goals simp only [List.length_cons, List.length_drop]; omega

/-- Reads UTF-8 bytes as text. -/
def decode (bs : Bytes) : Except Utf8Fault String :=
  String.ofList <$> decodeFrom 0 [] bs

end SlabLedger.Utf8
