import SlabLedger.Text.GraphemeExtend
import SlabLedger.Text.Printable
/-!
# Quoted characters and texts

Messages show a character between single quotes and a text between double quotes. Inside the
quotes a character stands for itself unless it is one of these:

* NUL, tab, carriage return, line feed and the backslash take a backslash escape (`\0`, `\t`,
  `\r`, `\n`, `\\`), and so does the quote mark in use;
* a grapheme extender, or a character that is not printable, is written as a backslash, `u`,
  and its code point in lowercase hexadecimal without leading zeros, in braces.

The other quote mark is left as it is.
-/

namespace SlabLedger.Text

/-- The mark around a quoted form: single for a character, double for a text. -/
inductive QuoteMark where
  | single
  | double
  deriving DecidableEq, Repr

/-- The character of a quote mark. -/
def QuoteMark.char : QuoteMark → Char
  | .single => '\x27'
  | .double => '\x22'

/-- The escape of a code point: backslash, `u`, then its lowercase hexadecimal in braces. -/
def unicodeEscape (c : Char) : List Char :=
  ['\\', 'u', '\x7b'] ++ Nat.toDigits 16 c.toNat ++ ['\x7d']

/-- How one character is written inside quotes of the given mark. -/
def escapeChar (mark : QuoteMark) (c : Char) : List Char :=
  if c = '\x00' then ['\\', '0']
  else if c = '\t' then ['\\', 't']
  else if c = '\r' then ['\\', 'r']
  else if c = '\n' then ['\\', 'n']
  else if c = '\\' then ['\\', '\\']
  else if c = mark.char then ['\\', c]
  else if isGraphemeExtend c || !isPrintable c then unicodeEscape c
  else [c]

/-- A character between single quotes, escaped. -/
def quoteChar (c : Char) : String :=
  String.ofList (QuoteMark.single.char :: escapeChar .single c ++ [QuoteMark.single.char])

/-- A text between double quotes, each character escaped. -/
def quoteText (s : String) : String :=
  String.ofList
    (QuoteMark.double.char :: s.toList.flatMap (escapeChar .double) ++ [QuoteMark.double.char])

end SlabLedger.Text
