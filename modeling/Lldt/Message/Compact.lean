import Lldt.Message.Frame

namespace Lldt.Msg.Compact

/-! The records of the Compact profile. -/

def kBtcUsdtInstrument : UInt16 := 0

def kFlagAggressorSell : UInt8 := (1 : UInt8) <<< 0
def kFlagSnapshot : UInt8 := (1 : UInt8) <<< 4
def kTickDirectionShift : UInt8 := 5

def kBookDepth : Nat := 5

structure Trade where
  header : CompactHeader
  tradeId : UInt64
  priceTicks : UInt32
  quantityLots : UInt32
  cumulativeQuantityLots : UInt64
  cumulativeNotionalTickLots : UInt64
  cumulativeTradeCount : UInt64
  deriving DecidableEq

structure Bbo where
  header : CompactHeader
  updateId : UInt64
  bidPriceTicks : UInt32
  spreadTicks : UInt16
  bidSizeLots : UInt16
  askSizeLots : UInt16
  bidOrderCount : UInt16
  askOrderCount : UInt16
  reserved : UInt16
  deriving DecidableEq

/-- One side of the book.  `priceOffsetTicks` holds the levels below the top. -/
structure Side where
  topPriceTicks : UInt32
  priceOffsetTicks : Vector UInt16 (kBookDepth - 1)
  sizeLots : Vector UInt16 kBookDepth
  orderCount : Vector UInt16 kBookDepth
  deriving DecidableEq

structure OrderBook where
  header : CompactHeader
  updateId : UInt64
  bids : Side
  asks : Side
  deriving DecidableEq

inductive Message where
  | trade (record : Trade)
  | bbo (record : Bbo)
  | orderBook (record : OrderBook)

def Message.trade? : Message → Option Trade
  | .trade record => some record
  | .bbo _ | .orderBook _ => none

def exchangeTsNs (header : CompactHeader) : UInt64 :=
  if 0 ≤ header.exchangeTsDeltaNs then
    header.sendTsNs - header.exchangeTsDeltaNs.toUInt32.toUInt64
  else
    -- the magnitude is taken in 64 bits, where the least delta has one
    header.sendTsNs + (-header.exchangeTsDeltaNs.toInt64).toUInt64.toUInt32.toUInt64

end Lldt.Msg.Compact
