/-!
# Terminal escape sequences

A writer that is not attached to a terminal drops the escape sequences and the control
characters of what it writes and keeps the rest. Sequences are read as a VT500 terminal reads
them:

* an escape character starts a sequence, and a final character ends it;
* a control sequence (escape, `[`) takes parameters and intermediates and ends at a character
  from `@` to `~`;
* an operating-system command (escape, `]`) runs to BEL;
* a device-control string (escape, `P`) and the other strings (escape, then `X`, `^` or `_`)
  run to the string terminator;
* CAN and SUB cancel any sequence, and an escape starts a new one wherever it stands.

Of the control characters only tab, line feed, form feed and carriage return are kept, and DEL
is dropped as well.

The writer works in runs. It drops characters until one can be shown; from there it shows every
character that is printable outside a sequence, and it stops at the first one that is not. The
sequence it was reading is left as it was during a run. So a line feed inside an unfinished
sequence is shown, and the characters after it are shown too. The unfinished sequence counts
again from the next character that cannot be shown.

The writer works on the UTF-8 bytes of the text. A character outside ASCII is shown when no
sequence is open and dropped inside one. Inside a string, the byte `9C` (the string terminator)
ends the string even as part of a longer character.
-/

namespace SlabLedger.Text

/-- What a terminal is reading: plain text (`ground`) or a part of an escape sequence. -/
inductive Sequence where
  | ground
  | escape
  | escapeIntermediate
  | csiEntry
  | csiParam
  | csiIntermediate
  | csiIgnore
  | dcsEntry
  | dcsParam
  | dcsIntermediate
  | dcsIgnore
  | dcsPassthrough
  /-- A start-of-string, privacy-message or application-program-command string. -/
  | string
  | osc
  deriving DecidableEq, Repr

namespace Sequence

/-- Whether an ASCII code is a control character that the writer keeps: tab, line feed, form
feed or carriage return. -/
def isKeptControl (b : Nat) : Bool :=
  b = 0x09 || b = 0x0A || b = 0x0C || b = 0x0D

/-- Where a control sequence goes on an ASCII code that is neither a control character nor DEL:
it stays on a parameter or an intermediate, moves on to a later part, or ends. -/
def csiNext (s : Sequence) (b : Nat) : Sequence :=
  if b ≥ 0x40 then .ground
  else if b < 0x30 then
    (if s = .csiIgnore then .csiIgnore else .csiIntermediate)
  else if s = .csiEntry then .csiParam
  else if s = .csiParam then (if b < 0x3C then .csiParam else .csiIgnore)
  else .csiIgnore

/-- Where a device-control string goes on an ASCII code that is neither a control character nor
DEL, before its data starts. -/
def dcsNext (s : Sequence) (b : Nat) : Sequence :=
  if b ≥ 0x40 then .dcsPassthrough
  else if b < 0x30 then .dcsIntermediate
  else if s = .dcsEntry then .dcsParam
  else if s = .dcsParam then (if b < 0x3C then .dcsParam else .dcsIgnore)
  else .dcsIgnore

/-- Where an escape goes on the ASCII code after it: an intermediate, the start of a control
sequence, a command, a string, or the end of a two-character sequence. -/
def escapeNext (b : Nat) : Sequence :=
  if b < 0x30 then .escapeIntermediate
  else if b = 0x5B then .csiEntry
  else if b = 0x5D then .osc
  else if b = 0x50 then .dcsEntry
  else if b = 0x58 || b = 0x5E || b = 0x5F then .string
  else .ground

/-- Reading one ASCII code: the sequence after it, and whether the writer may show the code
here. CAN and SUB end any sequence and escape starts one; a control character is shown only
where a terminal would act on it (outside strings), and only if it is kept. -/
def readAscii (s : Sequence) (b : Nat) : Sequence × Bool :=
  if b = 0x18 || b = 0x1A then (.ground, false)
  else if b = 0x1B then (.escape, false)
  else if b < 0x20 then
    match s with
    | .ground | .escape | .escapeIntermediate | .csiEntry | .csiParam | .csiIntermediate
    | .csiIgnore => (s, isKeptControl b)
    | .osc => (if b = 0x07 then .ground else .osc, false)
    | _ => (s, false)
  else if b = 0x7F then (s, false)
  else
    match s with
    | .ground => (.ground, true)
    | .escape => (escapeNext b, false)
    | .escapeIntermediate => (if b < 0x30 then .escapeIntermediate else .ground, false)
    | .csiEntry | .csiParam | .csiIntermediate | .csiIgnore => (csiNext s b, false)
    | .dcsEntry | .dcsParam | .dcsIntermediate | .dcsIgnore =>
      (if s = .dcsIgnore then .dcsIgnore else dcsNext s b, false)
    | .dcsPassthrough | .string | .osc => (s, false)

/-- Whether a code point outside ASCII has the byte `9C` in its UTF-8 form: one of its
continuation bytes carries the six bits `011100`. -/
def hasTerminatorByte (n : Nat) : Bool :=
  n % 64 = 28 || (n ≥ 0x800 && n / 64 % 64 = 28) || (n ≥ 0x10000 && n / 4096 % 64 = 28)

/-- Reading one character: the sequence after it, and whether the writer may show it here.
Outside ASCII a character is shown only outside a sequence; a string ends where a byte of it is
the string terminator. -/
def read (s : Sequence) (c : Char) : Sequence × Bool :=
  if c.toNat < 0x80 then s.readAscii c.toNat
  else
    match s with
    | .ground => (.ground, true)
    | .dcsIgnore | .dcsPassthrough | .string =>
      (if hasTerminatorByte c.toNat then .ground else s, false)
    | _ => (s, false)

end Sequence

/-- Whether a character is shown by a writer that is in the middle of a run: printable ASCII,
a kept control character, or any character outside ASCII. -/
def showsInRun (c : Char) : Bool :=
  c.toNat ≥ 0x80 || (c.toNat ≥ 0x20 && c.toNat ≠ 0x7F) || Sequence.isKeptControl c.toNat

/-- The state of a writer that drops escape sequences: the sequence it is reading, and whether it
is in the middle of a run of shown characters. -/
structure Scanner where
  sequence : Sequence := .ground
  showing : Bool := false
  deriving DecidableEq, Repr

namespace Scanner

/-- One character through the writer: its next state and whether the character is shown. In a
run a character that shows goes out as it is; any other character is read against the open
sequence, which may start a new run. A character outside ASCII always leaves the writer outside
any sequence once it is shown. -/
def step (sc : Scanner) (c : Char) : Scanner × Bool :=
  if sc.showing && showsInRun c then
    ({ sc with sequence := if c.toNat ≥ 0x80 then .ground else sc.sequence }, true)
  else
    let (next, shown) := sc.sequence.read c
    ({ sequence := next, showing := shown }, shown)

/-- The characters the writer shows of a list of characters, in order. -/
def run : Scanner → List Char → List Char
  | _, [] => []
  | sc, c :: cs =>
    let (next, shown) := sc.step c
    if shown then c :: next.run cs else next.run cs

/-- The writer only drops characters: what it shows is a sublist of what it was given. -/
theorem run_sublist (sc : Scanner) (cs : List Char) : (sc.run cs).Sublist cs := by
  induction cs generalizing sc with
  | nil => simp [run]
  | cons c cs ih =>
    simp only [run]
    split
    · exact (ih _).cons_cons c
    · exact (ih _).cons c

end Scanner

/-- What a writer without a terminal shows of a text that it writes outside any sequence. -/
def plainText (text : String) : String :=
  String.ofList (({} : Scanner).run text.toList)

end SlabLedger.Text
