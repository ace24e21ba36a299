import SlabLedger.Report
import SlabLedger.Market.Book
import SlabLedger.Market.Settlement
import SlabLedger.Market.Account
/-!
# Printed results

The JSON reports the command line prints: an order book as its bids and asks (orders without
their raw keys), the raw collections of a book account, a settlement log, the entries of a
chain, and the market records. Members stand in the order of the record's fields; a tree node
names its kind first.
-/

namespace SlabLedger.Cli

/-- A word of up to 64 bits. -/
def natR (n : Nat) : Report := .num n

/-- An address as its base-58 text. -/
def addressR (a : Address) : Report := .str a.toText

/-- An order without its raw key. -/
def orderR (o : Order) : Report := .obj [
  ("side", .str o.side.name), ("order_id", .str o.orderId), ("price", natR o.price),
  ("owner", addressR o.owner), ("amount", natR o.amount.toNat), ("expiry", .num o.expiry.toInt)]

/-- A book: bids, then asks. -/
def bookR (b : Book) : Report :=
  .obj [("bids", .arr (b.bids.map orderR)), ("asks", .arr (b.asks.map orderR))]

/-- A collection header. -/
def headerR (h : Header) : Report := .obj [
  ("header_size", natR h.headerSize.toNat), ("offset_size", natR h.offsetSize.toNat),
  ("item_count", natR h.itemCount.toNat),
  ("page_indices", .arr (h.pageIndices.map fun i => natR i.toNat))]

/-- A tree node: its kind, then its fields without keys. -/
def nodeR : Node → Report
  | .unused => .obj [("kind", .str "unused")]
  | .inner _ p l r => .obj [("kind", .str "inner"), ("prefix_len", natR p.toNat),
      ("children", .arr [natR l.toNat, natR r.toNat])]
  | .leaf l => .obj [("kind", .str "leaf"), ("slot", natR l.slot.toNat),
      ("owner", addressR l.owner)]
  | .free n => .obj [("kind", .str "free"), ("next", natR n.toNat)]
  | .freeTail n => .obj [("kind", .str "free_tail"), ("next", natR n.toNat)]

/-- A tree: its info block and node table. -/
def treeR (t : Tree) : Report := .obj [
  ("meta", .obj [("bump_index", natR t.info.bumpIndex.toNat),
    ("free_list_len", natR t.info.freeListLen.toNat),
    ("free_list_head", natR t.info.freeListHead.toNat), ("root_node", natR t.info.root.toNat),
    ("leaf_count", natR t.info.leafCount.toNat)]),
  ("nodes", .arr (t.nodes.toList.map nodeR))]

/-- A vector of order slots: its info block and records. -/
def ordersR (v : SlotVector OrderSlot) : Report := .obj [
  ("meta", .obj [("free_top", natR v.info.freeTop.toNat),
    ("next_index", natR v.info.nextIndex.toNat)]),
  ("records", .arr (v.records.toList.map fun s =>
    .obj [("amount", natR s.amount.toNat), ("expiry", .num s.expiry.toInt)]))]

/-- The raw collections of a book account. -/
def rawBookR (s : BookSlab) : Report := .obj [
  ("version", natR s.version.toNat), ("headers", .arr (s.headers.map headerR)),
  ("bid_tree", treeR s.bidTree), ("ask_tree", treeR s.askTree),
  ("bid_orders", ordersR s.bidOrders), ("ask_orders", ordersR s.askOrders)]

/-- A settlement entry. -/
def entryR (e : Entry) : Report := .obj [
  ("owner", addressR e.owner), ("mkt_balance", natR e.mktBalance.toNat),
  ("prc_balance", natR e.prcBalance.toNat), ("updated_at", .num e.updatedAt.toInt)]

/-- A settlement log. -/
def logR (l : SettlementLog) : Report := .obj [
  ("market", addressR l.market), ("prev", addressR l.prev), ("next", addressR l.next),
  ("entries", .arr (l.entries.map entryR))]

/-- A market account. -/
def marketR (m : MarketAccount) : Report := .obj [
  ("active", .bool m.active), ("manager_actions", .bool m.managerActions),
  ("expire_enable", .bool m.expireEnable), ("expire_min", .num m.expireMin.toInt),
  ("min_quantity", natR m.minQuantity.toNat), ("tick_decimals", natR m.tickDecimals.toNat),
  ("log_fee", natR m.logFee.toNat), ("log_rebate", natR m.logRebate.toNat),
  ("log_reimburse", natR m.logReimburse.toNat), ("taker_fee", natR m.takerFee.toNat),
  ("maker_rebate", natR m.makerRebate.toNat), ("state", addressR m.state),
  ("trade_log", addressR m.tradeLog), ("agent", addressR m.agent),
  ("agent_nonce", natR m.agentNonce.toNat), ("manager", addressR m.manager),
  ("mkt_mint", addressR m.mktMint), ("mkt_vault", addressR m.mktVault),
  ("mkt_decimals", natR m.mktDecimals.toNat), ("mkt_mint_type", natR m.mktMintType.toNat),
  ("prc_mint", addressR m.prcMint), ("prc_vault", addressR m.prcVault),
  ("prc_decimals", natR m.prcDecimals.toNat), ("prc_mint_type", natR m.prcMintType.toNat),
  ("orders", addressR m.orders), ("settle0", addressR m.settle0)]

/-- A market state. -/
def marketStateR (m : MarketState) : Report := .obj [
  ("settle_a", addressR m.settleA), ("settle_b", addressR m.settleB),
  ("log_rollover", .bool m.logRollover), ("log_deposit_balance", natR m.logDepositBalance.toNat),
  ("action_counter", natR m.actionCounter.toNat), ("order_counter", natR m.orderCounter.toNat),
  ("active_bid", natR m.activeBid.toNat), ("active_ask", natR m.activeAsk.toNat),
  ("mkt_vault_balance", natR m.mktVaultBalance.toNat),
  ("mkt_order_balance", natR m.mktOrderBalance.toNat),
  ("mkt_user_vault_balance", natR m.mktUserVaultBalance.toNat),
  ("mkt_log_balance", natR m.mktLogBalance.toNat),
  ("prc_vault_balance", natR m.prcVaultBalance.toNat),
  ("prc_order_balance", natR m.prcOrderBalance.toNat),
  ("prc_user_vault_balance", natR m.prcUserVaultBalance.toNat),
  ("prc_log_balance", natR m.prcLogBalance.toNat),
  ("prc_fees_balance", natR m.prcFeesBalance.toNat), ("last_ts", .num m.lastTs.toInt),
  ("last_price", natR m.lastPrice.toNat)]

end SlabLedger.Cli
