import SlabLedger.Slab.Tree
import SlabLedger.Slab.Vector
/-!
# Order books

An order book account holds a 16-bit version, four collection headers (bid tree, ask tree, bid
order slots, ask order slots) and a region of six pages. Each side is a crit-bit tree whose
leaves name order slots; joining every leaf with its slot gives the side's orders, in the order
of the node table. The bid side is decoded first, its tree before its slots, and the first
fault wins.

Sorting puts the highest bid and the lowest ask first, ties broken by ascending order id, and
keeps the table order of orders that compare equal. The best bid is the last order of the
highest price in table order, the best ask the first order of the lowest.
-/

namespace SlabLedger

/-- An order of the book. -/
structure Order where
  side : Side
  orderId : String
  key : Key
  price : Nat
  owner : Address
  amount : UInt64
  expiry : Int64
  deriving DecidableEq, Repr

/-- The collections of an order book account, as stored. -/
structure BookSlab where
  version : UInt16
  bidTreeHeader : Header
  askTreeHeader : Header
  bidOrdersHeader : Header
  askOrdersHeader : Header
  bidTree : Tree
  askTree : Tree
  bidOrders : SlotVector OrderSlot
  askOrders : SlotVector OrderSlot
  deriving DecidableEq, Repr

/-- The orders of a book, each side in its own order. -/
structure Book where
  bids : List Order
  asks : List Order
  deriving DecidableEq, Repr

/-- The orders of one side: each leaf joined with the order slot it names, in table order. -/
def assembleSide (side : Side) (tree : Tree) (orders : SlotVector OrderSlot) :
    Except Fault (List Order) :=
  tree.leaves.mapM fun leaf =>
    match orders.get? leaf.slot with
    | some s => .ok {
        side, orderId := leaf.key.orderId, key := leaf.key, price := leaf.key.price,
        owner := leaf.owner, amount := s.amount, expiry := s.expiry }
    | none => .error (.layout (.orderSlotMissing side leaf.slot orders.size))

namespace BookSlab

/-- The headers in stored order: bid tree, ask tree, bid orders, ask orders. -/
def headers (s : BookSlab) : List Header :=
  [s.bidTreeHeader, s.askTreeHeader, s.bidOrdersHeader, s.askOrdersHeader]

/-- Reads the version and the four headers at the front of the account. -/
def readFront : Decoder (UInt16 × Header × Header × Header × Header) := do
  let version ← Decoder.u16
  let bidTree ← Header.read
  let askTree ← Header.read
  let bidOrders ← Header.read
  let askOrders ← Header.read
  pure (version, bidTree, askTree, bidOrders, askOrders)

/-- Decodes an order book account: front, page region, then bid tree, bid orders, ask tree and
ask orders. -/
def decode (blob : Bytes) : Except Fault BookSlab := do
  let ((version, hBidTree, hAskTree, hBidOrders, hAskOrders), region) ← readFront.run blob
  let pool ← PagePool.ofRegion region
  let bidTree ← Tree.decode hBidTree pool
  let bidOrders ← SlotVector.decode OrderSlot.format hBidOrders pool
  let askTree ← Tree.decode hAskTree pool
  let askOrders ← SlotVector.decode OrderSlot.format hAskOrders pool
  pure {
    version, bidTreeHeader := hBidTree, askTreeHeader := hAskTree,
    bidOrdersHeader := hBidOrders, askOrdersHeader := hAskOrders,
    bidTree, askTree, bidOrders, askOrders }

/-- The book: bids, then asks, each leaf joined with its order slot. -/
def assemble (s : BookSlab) : Except Fault Book := do
  let bids ← assembleSide .bid s.bidTree s.bidOrders
  let asks ← assembleSide .ask s.askTree s.askOrders
  pure ⟨bids, asks⟩

end BookSlab

namespace Book

/-- Decodes an order book account and joins its sides. -/
def decode (blob : Bytes) : Except Fault Book :=
  BookSlab.decode blob >>= BookSlab.assemble

/-- A bid comes before another at a higher price, or at the same price with a smaller id. -/
def bidBefore (a b : Order) : Bool :=
  b.price < a.price || (a.price == b.price && decide (a.orderId ≤ b.orderId))

/-- An ask comes before another at a lower price, or at the same price with a smaller id. -/
def askBefore (a b : Order) : Bool :=
  a.price < b.price || (a.price == b.price && decide (a.orderId ≤ b.orderId))

/-- The book with each side sorted; orders that compare equal keep their order. -/
def sorted (b : Book) : Book :=
  ⟨b.bids.mergeSort bidBefore, b.asks.mergeSort askBefore⟩

/-- The bid of the highest price; of several, the last. -/
def bestBid (b : Book) : Option Order :=
  b.bids.foldl (fun best o => match best with
    | some x => if x.price ≤ o.price then some o else some x
    | none => some o) none

/-- The ask of the lowest price; of several, the first. -/
def bestAsk (b : Book) : Option Order :=
  b.asks.foldl (fun best o => match best with
    | some x => if o.price < x.price then some o else some x
    | none => some o) none

/-- The orders of an owner: bids, then asks. -/
def ordersFor (b : Book) (owner : Address) : List Order :=
  (b.bids ++ b.asks).filter (·.owner == owner)

/-- The number of orders on both sides. -/
def size (b : Book) : Nat := b.bids.length + b.asks.length

/-- Whether both sides are empty. -/
def isEmpty (b : Book) : Bool := b.bids.isEmpty && b.asks.isEmpty

end Book

end SlabLedger
