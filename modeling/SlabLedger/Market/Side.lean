/-!
# Sides of a book

An order rests on the bid side (buying) or the ask side (selling).
-/

namespace SlabLedger

/-- The side of an order book. -/
inductive Side where
  | bid
  | ask
  deriving DecidableEq, Repr

/-- The lowercase name of a side. -/
def Side.name : Side → String
  | .bid => "bid"
  | .ask => "ask"

end SlabLedger
