import SlabLedger.Slab.Decoder
/-!
# Market accounts

A market account and a market state account each start with an eight-byte tag that names
their kind, followed by their fields packed in order with no padding: booleans as one byte,
words little-endian, addresses as 32 bytes. A market account takes 385 bytes, a market state
193; bytes after them are ignored. An account shorter than the tag fails as a short read; a
tag that does not match fails before any field is read.
-/

namespace SlabLedger

/-- The tag of a market account. -/
def marketTag : Bytes := [0xdb, 0xbe, 0xd5, 0x37, 0x00, 0xe3, 0xc6, 0x9a]

/-- The tag of a market state account. -/
def marketStateTag : Bytes := [0x00, 0x7d, 0x7b, 0xd7, 0x5f, 0x60, 0xa4, 0xc2]

/-- Reads the eight-byte tag and checks it. -/
def Decoder.expectTag (tag : Bytes) : Decoder Unit := do
  let found ← Decoder.take 8
  if found = tag then pure () else throw .wrongDiscriminator

/-- The settings and accounts of a market. -/
structure MarketAccount where
  active : Bool
  managerActions : Bool
  expireEnable : Bool
  expireMin : Int64
  minQuantity : UInt64
  tickDecimals : UInt8
  logFee : UInt64
  logRebate : UInt64
  logReimburse : UInt64
  takerFee : UInt32
  makerRebate : UInt32
  state : Address
  tradeLog : Address
  agent : Address
  agentNonce : UInt8
  manager : Address
  mktMint : Address
  mktVault : Address
  mktDecimals : UInt8
  mktMintType : UInt8
  prcMint : Address
  prcVault : Address
  prcDecimals : UInt8
  prcMintType : UInt8
  orders : Address
  settle0 : Address
  deriving DecidableEq, Repr

/-- Reads a market account: the tag, then its fields in order. -/
def MarketAccount.read : Decoder MarketAccount := do
  Decoder.expectTag marketTag
  let active ← Decoder.bool
  let managerActions ← Decoder.bool
  let expireEnable ← Decoder.bool
  let expireMin ← Decoder.i64
  let minQuantity ← Decoder.u64
  let tickDecimals ← Decoder.u8
  let logFee ← Decoder.u64
  let logRebate ← Decoder.u64
  let logReimburse ← Decoder.u64
  let takerFee ← Decoder.u32
  let makerRebate ← Decoder.u32
  let state ← Decoder.address
  let tradeLog ← Decoder.address
  let agent ← Decoder.address
  let agentNonce ← Decoder.u8
  let manager ← Decoder.address
  let mktMint ← Decoder.address
  let mktVault ← Decoder.address
  let mktDecimals ← Decoder.u8
  let mktMintType ← Decoder.u8
  let prcMint ← Decoder.address
  let prcVault ← Decoder.address
  let prcDecimals ← Decoder.u8
  let prcMintType ← Decoder.u8
  let orders ← Decoder.address
  let settle0 ← Decoder.address
  pure {
    active, managerActions, expireEnable, expireMin, minQuantity, tickDecimals, logFee,
    logRebate, logReimburse, takerFee, makerRebate, state, tradeLog, agent, agentNonce, manager,
    mktMint, mktVault, mktDecimals, mktMintType, prcMint, prcVault, prcDecimals, prcMintType,
    orders, settle0 }

/-- Decodes a market account. -/
def MarketAccount.decode (data : Bytes) : Except Fault MarketAccount :=
  Decoder.parse MarketAccount.read data

/-- The running totals and balances of a market. -/
structure MarketState where
  settleA : Address
  settleB : Address
  logRollover : Bool
  logDepositBalance : UInt64
  actionCounter : UInt64
  orderCounter : UInt64
  activeBid : UInt32
  activeAsk : UInt32
  mktVaultBalance : UInt64
  mktOrderBalance : UInt64
  mktUserVaultBalance : UInt64
  mktLogBalance : UInt64
  prcVaultBalance : UInt64
  prcOrderBalance : UInt64
  prcUserVaultBalance : UInt64
  prcLogBalance : UInt64
  prcFeesBalance : UInt64
  lastTs : Int64
  lastPrice : UInt64
  deriving DecidableEq, Repr

/-- Reads a market state account: the tag, then its fields in order. -/
def MarketState.read : Decoder MarketState := do
  Decoder.expectTag marketStateTag
  let settleA ← Decoder.address
  let settleB ← Decoder.address
  let logRollover ← Decoder.bool
  let logDepositBalance ← Decoder.u64
  let actionCounter ← Decoder.u64
  let orderCounter ← Decoder.u64
  let activeBid ← Decoder.u32
  let activeAsk ← Decoder.u32
  let mktVaultBalance ← Decoder.u64
  let mktOrderBalance ← Decoder.u64
  let mktUserVaultBalance ← Decoder.u64
  let mktLogBalance ← Decoder.u64
  let prcVaultBalance ← Decoder.u64
  let prcOrderBalance ← Decoder.u64
  let prcUserVaultBalance ← Decoder.u64
  let prcLogBalance ← Decoder.u64
  let prcFeesBalance ← Decoder.u64
  let lastTs ← Decoder.i64
  let lastPrice ← Decoder.u64
  pure {
    settleA, settleB, logRollover, logDepositBalance, actionCounter, orderCounter, activeBid,
    activeAsk, mktVaultBalance, mktOrderBalance, mktUserVaultBalance, mktLogBalance,
    prcVaultBalance, prcOrderBalance, prcUserVaultBalance, prcLogBalance, prcFeesBalance,
    lastTs, lastPrice }

/-- Decodes a market state account. -/
def MarketState.decode (data : Bytes) : Except Fault MarketState :=
  Decoder.parse MarketState.read data

end SlabLedger
