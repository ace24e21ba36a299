/-!
# Reports

The command line prints its results as JSON documents. A report is such a document; it is
printed indented by two spaces per level, one member or element per line, a space after each
colon, and empty arrays and objects as `[]` and `{}`. Strings escape the quote, the backslash
and control characters (the common ones by letter, the rest as `\u00` and two lowercase hex
digits); all other characters stand as they are.
-/

namespace SlabLedger

/-- A JSON document. Objects keep their members in the order given. -/
inductive Report where
  | null
  | bool (b : Bool)
  | num (n : Int)
  | str (s : String)
  | arr (items : List Report)
  | obj (members : List (String × Report))
  deriving Repr

namespace Report

/-- A string in quotes, escaped. -/
def quote (s : String) : String :=
  let hex (n : Nat) : Char := if n < 10 then Char.ofNat (48 + n) else Char.ofNat (87 + n)
  let escape (c : Char) : List Char :=
    if c = '\x22' then ['\\', '\x22']
    else if c = '\\' then ['\\', '\\']
    else if c = '\n' then ['\\', 'n']
    else if c = '\r' then ['\\', 'r']
    else if c = '\t' then ['\\', 't']
    else if c = '\x08' then ['\\', 'b']
    else if c = '\x0c' then ['\\', 'f']
    else if c.toNat < 0x20 then ['\\', 'u', '0', '0', hex (c.toNat / 16), hex (c.toNat % 16)]
    else [c]
  String.ofList ('\x22' :: s.toList.flatMap escape ++ ['\x22'])

/-- A number in decimal, with a minus sign if negative. -/
def number (n : Int) : String :=
  if n < 0 then "-" ++ toString n.natAbs else toString n.natAbs

mutual

/-- The printed form of a report whose first line stands at `depth` levels of indentation. -/
def pretty (depth : Nat) : Report → String
  | .null => "null"
  | .bool b => if b then "true" else "false"
  | .num n => number n
  | .str s => quote s
  | .arr [] => "[]"
  | .arr items => "[\n" ++ prettyItems (depth + 1) items ++ "\n" ++ indent depth ++ "]"
  | .obj [] => "\x7b\x7d"
  | .obj members =>
    "\x7b\n" ++ prettyMembers (depth + 1) members ++ "\n" ++ indent depth ++ "\x7d"

/-- Array elements, one per line, separated by commas. -/
def prettyItems (depth : Nat) : List Report → String
  | [] => ""
  | [r] => indent depth ++ pretty depth r
  | r :: rest => indent depth ++ pretty depth r ++ ",\n" ++ prettyItems depth rest

/-- Object members, one per line, separated by commas. -/
def prettyMembers (depth : Nat) : List (String × Report) → String
  | [] => ""
  | [(k, v)] => indent depth ++ quote k ++ ": " ++ pretty depth v
  | (k, v) :: rest =>
    indent depth ++ quote k ++ ": " ++ pretty depth v ++ ",\n" ++ prettyMembers depth rest

/-- Two spaces per level. -/
def indent (depth : Nat) : String := String.ofList (List.replicate (2 * depth) ' ')

end

/-- The printed form of a report. -/
def render (r : Report) : String := pretty 0 r

end Report

end SlabLedger
