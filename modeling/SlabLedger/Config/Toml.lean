import SlabLedger.Config
/-!
# Configuration text

A configuration is written in TOML. The only document that gives a configuration is one whose
top-level table holds nothing but the three known keys, each at most once: the two counts as
non-negative integers, the leaf-count switch as a boolean. So the reader accepts, line by line:

* blank lines and comments (`#` up to the end of the line, no control character but tab);
* `key = value`, optionally indented and followed by a comment, where the key is bare
  (letters, digits, `_`, `-`) or quoted (`"…"` with escapes, or `'…'`), and the value is
  `true`, `false`, or an integer: decimal with an optional sign and no leading zero, or `0x`,
  `0o`, `0b` digits, with single underscores between digits, within 64-bit signed range.

Lines end in a line feed, optionally after a carriage return; blanks are spaces and tabs.
Every other text fails, and so does every text that TOML would read into some other table:
tables, dotted keys, other keys, other kinds of values and repeated keys.
-/

namespace SlabLedger

namespace Toml

/-- A value the configuration can take. -/
inductive Value where
  | int (n : Int)
  | bool (b : Bool)
  deriving DecidableEq, Repr

/-- Blanks inside a line: space and tab. -/
def isBlank (c : Char) : Bool := c = ' ' || c = '\t'

/-- Characters allowed in a comment: tab, printable ASCII, and anything past ASCII. -/
def isCommentChar (c : Char) : Bool :=
  c = '\t' || (0x20 ≤ c.toNat && c.toNat ≤ 0x7e) || 0x80 ≤ c.toNat

/-- Characters of a bare key. -/
def isBareKeyChar (c : Char) : Bool := c.isAlphanum || c = '_' || c = '-'

/-- What may end a line after its content: nothing, or a comment. -/
def isLineEnd : List Char → Bool
  | [] => true
  | '#' :: rest => rest.all isCommentChar
  | _ => false

/-- The value of a digit in a base up to 16. -/
def digitIn (base : Nat) (c : Char) : Option Nat :=
  let v := if c.isDigit then some (c.toNat - 48)
    else if 'a' ≤ c ∧ c ≤ 'f' then some (c.toNat - 87)
    else if 'A' ≤ c ∧ c ≤ 'F' then some (c.toNat - 55)
    else none
  v.bind fun d => if d < base then some d else none

/-- Digits of a base with single underscores between them, at least one digit. -/
def digitsIn (base : Nat) (acc : Nat) : (lastDigit : Bool) → List Char → Option Nat
  | true, [] => some acc
  | false, [] => none
  | last, '_' :: rest => if last then digitsIn base acc false rest else none
  | _, c :: rest => (digitIn base c).bind fun d => digitsIn base (base * acc + d) true rest

/-- An unsigned decimal: `0`, or digits without a leading zero. -/
def decimal : List Char → Option Nat
  | ['0'] => some 0
  | '0' :: _ => none
  | cs => digitsIn 10 0 false cs

/-- The first integer past the signed 64-bit range, `2 ^ 63`; its negation is the least one in
range. -/
def integerBound : Int := 9223372036854775808

/-- An integer literal, within 64-bit signed range. -/
def integer (cs : List Char) : Option Int :=
  let n : Option Int := match cs with
    | '0' :: 'x' :: rest => (digitsIn 16 0 false rest).map Int.ofNat
    | '0' :: 'o' :: rest => (digitsIn 8 0 false rest).map Int.ofNat
    | '0' :: 'b' :: rest => (digitsIn 2 0 false rest).map Int.ofNat
    | '+' :: rest => (decimal rest).map Int.ofNat
    | '-' :: rest => (decimal rest).map fun m => -Int.ofNat m
    | _ => (decimal cs).map Int.ofNat
  n.bind fun v => if -integerBound ≤ v ∧ v < integerBound then some v else none

/-- A value: a boolean or an integer, followed by the end of the line. -/
def value (cs : List Char) : Option Value :=
  let token := cs.takeWhile fun c => c.isAlphanum || c = '_' || c = '+' || c = '-'
  let after := (cs.drop token.length).dropWhile isBlank
  if !isLineEnd after then none
  else if token = "true".toList then some (.bool true)
  else if token = "false".toList then some (.bool false)
  else (integer token).map .int

/-- The character of a `\u` or `\U` escape: its hexadecimal digits, a scalar value. -/
def escapedChar (digits : List Char) : Option Char :=
  (digitsIn 16 0 false digits).bind fun n =>
    if digits.all (· ≠ '_') ∧ (n < 0xd800 ∨ (0xdfff < n ∧ n < 0x110000)) then
      some (Char.ofNat n)
    else none

/-- The rest of a double-quoted key after its opening quote: the key read so far and what
follows the closing quote. -/
def basicKey (acc : List Char) : List Char → Option (List Char × List Char)
  | [] => none
  | '\x22' :: rest => some (acc.reverse, rest)
  | '\\' :: c :: rest =>
    match c with
    | 'b' => basicKey ('\x08' :: acc) rest
    | 't' => basicKey ('\t' :: acc) rest
    | 'n' => basicKey ('\n' :: acc) rest
    | 'f' => basicKey ('\x0c' :: acc) rest
    | 'r' => basicKey ('\r' :: acc) rest
    | '\x22' => basicKey ('\x22' :: acc) rest
    | '\\' => basicKey ('\\' :: acc) rest
    | 'u' => (escapedChar (rest.take 4)).bind fun e =>
        if (rest.take 4).length = 4 then basicKey (e :: acc) (rest.drop 4) else none
    | 'U' => (escapedChar (rest.take 8)).bind fun e =>
        if (rest.take 8).length = 8 then basicKey (e :: acc) (rest.drop 8) else none
    | _ => none
  | c :: rest =>
    if c = '\t' || (0x20 ≤ c.toNat && c.toNat ≤ 0x7e && c ≠ '\\') || 0x80 ≤ c.toNat then
      basicKey (c :: acc) rest
    else none
termination_by cs => cs.length
decreasing_by all_goals simp only [List.length_cons, List.length_drop]; omega

/-- The rest of a single-quoted key after its opening quote. -/
def literalKey (acc : List Char) : List Char → Option (List Char × List Char)
  | [] => none
  | '\x27' :: rest => some (acc.reverse, rest)
  | c :: rest =>
    if c = '\t' || (0x20 ≤ c.toNat && c.toNat ≤ 0x7e) || 0x80 ≤ c.toNat then
      literalKey (c :: acc) rest
    else none

/-- A key at the start of `cs`, and what follows it. -/
def key (cs : List Char) : Option (List Char × List Char) :=
  match cs with
  | '\x22' :: rest => basicKey [] rest
  | '\x27' :: rest => literalKey [] rest
  | _ =>
    let bare := cs.takeWhile isBareKeyChar
    if bare.isEmpty then none else some (bare, cs.drop bare.length)

/-- One line: nothing, a comment, or a key with its value. -/
def line (cs : List Char) : Option (Option (String × Value)) :=
  let cs := cs.dropWhile isBlank
  if isLineEnd cs then some none
  else do
    let (k, rest) ← key cs
    match rest.dropWhile isBlank with
    | '=' :: rest => do
      let v ← value (rest.dropWhile isBlank)
      pure (some (String.ofList k, v))
    | _ => none

/-- The lines of a text: split at line feeds, a carriage return before one dropped. -/
def lines (text : List Char) : List (List Char) :=
  (text.splitOn '\n').map fun l => if l.getLast? = some '\r' then l.dropLast else l

/-- The key-value pairs of a configuration text, in order, or nothing if it is not one. -/
def parse (text : String) : Option (List (String × Value)) :=
  let cs := match text.toList with
    | '\uFEFF' :: rest => rest
    | cs => cs
  let last := (cs.splitOn '\n').getLast?.getD []
  if last.getLast? = some '\r' then none
  else (lines cs).filterMapM line

end Toml

namespace DecoderConfig

/-- Sets one known key of a configuration to a value of its kind. -/
def setKey (c : DecoderConfig) : String × Toml.Value → Option DecoderConfig
  | ("settlement_header_slots", .int n) =>
    if 0 ≤ n then some { c with settlementHeaderSlots := n.toNat } else none
  | ("max_chain_len", .int n) => if 0 ≤ n then some { c with maxChainLen := n.toNat } else none
  | ("check_leaf_count", .bool b) => some { c with checkLeafCount := b }
  | _ => none

/-- Reads a configuration text: keys not given keep their defaults; the result is validated. -/
def ofToml (text : String) : Except Fault DecoderConfig := do
  let unparsable : Fault := .config .unparsable
  match Toml.parse text with
  | none => throw unparsable
  | some pairs =>
    if !decide (pairs.map (·.1)).Nodup then throw unparsable
    match pairs.foldlM setKey {} with
    | none => throw unparsable
    | some c =>
      c.validate
      pure c

end DecoderConfig

end SlabLedger
