import SlabLedger.Fault
/-!
# Decoder configuration

Three settings steer decoding: how many collection headers a settlement log carries (2 to 16,
by default 2), how many logs a chain may visit (at least 1, by default 1024), and whether the
stored leaf count of a tree is compared with its leaves (by default yes).
-/

namespace SlabLedger

/-- The settings of a decode. A value may be out of range until it is validated. -/
structure DecoderConfig where
  settlementHeaderSlots : Nat := 2
  maxChainLen : Nat := 1024
  checkLeafCount : Bool := true
  deriving DecidableEq, Repr

namespace DecoderConfig

/-- Accepts a configuration whose header slots lie in 2 to 16 and whose chain limit is
positive; the slot count is checked first. -/
def validate (c : DecoderConfig) : Except Fault Unit :=
  if c.settlementHeaderSlots < 2 ∨ 16 < c.settlementHeaderSlots then
    .error (.config (.headerSlots c.settlementHeaderSlots))
  else if c.maxChainLen = 0 then .error (.config .chainLimitZero)
  else .ok ()

end DecoderConfig

end SlabLedger
