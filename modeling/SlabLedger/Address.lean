import SlabLedger.Text.Base58
import SlabLedger.Text.Quote
/-!
# Addresses

An address names an account: 32 bytes, written in base 58. The address of 32 zero bytes is the
sentinel that marks "no account", for instance the missing neighbour at the end of a chain.
Reading an address names the first byte that is no base-58 digit, or the number of bytes that
a well-formed text gave when that is not 32.
-/

namespace SlabLedger

/-- An account address: exactly 32 bytes. -/
structure Address where
  bytes : Bytes
  length_eq : bytes.length = 32
  deriving DecidableEq, Repr

/-- Why a text is not an address. -/
inductive AddressFault where
  /-- A byte of the text's UTF-8 form that is no base-58 digit. -/
  | badByte (b : UInt8)
  /-- The text is base 58 but gives this many bytes instead of 32. -/
  | wrongLength (text : String) (n : Nat)
  deriving DecidableEq, Repr

/-- The text of an address fault; a bad byte is shown as the character of that code. -/
def AddressFault.message : AddressFault → String
  | .badByte b => "invalid base58 character " ++ Text.quoteChar (Char.ofNat b.toNat)
  | .wrongLength s n => s ++ " decodes to " ++ toString n ++ " bytes, expected 32"

namespace Address

/-- The sentinel: 32 zero bytes. -/
def zero : Address := ⟨List.replicate 32 0, by simp⟩

/-- Whether the address is the sentinel. -/
def isSentinel (a : Address) : Bool := a.bytes.all (· == 0)

/-- The address itself unless it is the sentinel. -/
def nonSentinel (a : Address) : Option Address :=
  if a.isSentinel then none else some a

/-- An address from exactly 32 bytes. -/
def ofBytes? (bs : Bytes) : Option Address :=
  if h : bs.length = 32 then some ⟨bs, h⟩ else none

/-- The base-58 text of the address. -/
def toText (a : Address) : String := Base58.encode a.bytes

/-- Reads the base-58 text of an address. -/
def parse (s : String) : Except AddressFault Address :=
  match Base58.decode s with
  | .error b => .error (.badByte b)
  | .ok bs => if h : bs.length = 32 then .ok ⟨bs, h⟩ else .error (.wrongLength s bs.length)

end Address

end SlabLedger
