import Lldt.Data.Transition
import Lldt.Message.Compact

namespace Lldt.Harness

open Lldt.Data.Transition
open Lldt.Msg
open Lldt.Msg.Compact

/-! The producer of the harness in the Compact profile: what it builds, frame
after frame, from the source sequence and the clock. -/

inductive Kind where
  | trade
  | bbo
  | book
  | mixed
  deriving DecidableEq, Repr

structure CompactTradeState where
  cumulativeQuantityLots : UInt64 := 0
  cumulativeNotionalTickLots : UInt64 := 0
  cumulativeTradeCount : UInt64 := 0
  deriving DecidableEq, Repr

/-- The two readings of `util::now_ns` a frame takes: the exchange timestamp
first, the send timestamp as late as possible. -/
structure ClockReadings where
  exchangeTsNs : UInt64
  sendTsNs : UInt64
  deriving DecidableEq, Repr

def fillHeader (seq : UInt64) (type flags : UInt8) (clock : ClockReadings) : CompactHeader :=
  let diff : Int64 := clock.sendTsNs.toInt64 - clock.exchangeTsNs.toInt64
  { seqId := seq
    instrument := kBtcUsdtInstrument
    type := type
    flags := flags
    sendTsNs := clock.sendTsNs
    exchangeTsDeltaNs := diff.toInt32 }

def tradePriceTicks (seq : UInt64) : UInt32 := (6500000 + seq % 500 * 50).toUInt32

def tradeQuantityLots (seq : UInt64) : UInt32 := (1 + seq % 100 * 10).toUInt32

def tradeFlags (seq : UInt64) : UInt8 :=
  let flags : UInt8 := ((seq % 4) <<< kTickDirectionShift.toUInt64).toUInt8
  if seq &&& 1 ≠ 0 then flags ||| kFlagAggressorSell else flags

example : tradeFlags 1 = 0x21 ∧ tradeFlags 6 = 0x40 := by decide

def buildTrade (state : CompactTradeState) (seq : UInt64) (clock : ClockReadings) :
    CompactTradeState × Trade :=
  let priceTicks := tradePriceTicks seq
  let quantityLots := tradeQuantityLots seq
  let state := {
    cumulativeQuantityLots := state.cumulativeQuantityLots + quantityLots.toUInt64
    cumulativeNotionalTickLots :=
      state.cumulativeNotionalTickLots + priceTicks.toUInt64 * quantityLots.toUInt64
    cumulativeTradeCount := state.cumulativeTradeCount + 1 }
  (state, {
    header := fillHeader seq typeTrade (tradeFlags seq) clock
    tradeId := 100000 + seq
    priceTicks := priceTicks
    quantityLots := quantityLots
    cumulativeQuantityLots := state.cumulativeQuantityLots
    cumulativeNotionalTickLots := state.cumulativeNotionalTickLots
    cumulativeTradeCount := state.cumulativeTradeCount })

def buildBbo (seq : UInt64) (clock : ClockReadings) : Bbo :=
  let midPriceTicks : UInt32 := 6500000 + (seq % 500).toUInt32 * 50
  { header := fillHeader seq typeBbo 0 clock
    updateId := 900000 + seq
    bidPriceTicks := midPriceTicks - 50
    spreadTicks := 100
    bidSizeLots := (1500 + seq % 50 * 100).toUInt16
    askSizeLots := (1500 + (seq + 7) % 50 * 100).toUInt16
    bidOrderCount := (3 + seq % 10).toUInt16
    askOrderCount := (3 + (seq + 3) % 10).toUInt16
    reserved := 0 }

/-- One side of the book.  The asks are computed five steps of the sequence ahead
of the bids. -/
def buildSide (topPriceTicks : UInt32) (seq ahead : UInt64) : Side where
  topPriceTicks := topPriceTicks
  priceOffsetTicks := Vector.ofFn fun level => (UInt32.ofNat (level.val + 1) * 100).toUInt16
  sizeLots := Vector.ofFn fun level =>
    (1000 + (seq + UInt64.ofNat level.val + ahead) % 40 * 100).toUInt16
  orderCount := Vector.ofFn fun level =>
    (2 + (seq + UInt64.ofNat level.val + ahead) % 8).toUInt16

def buildBook (seq : UInt64) (clock : ClockReadings) : OrderBook :=
  let midPriceTicks : UInt32 := (6500000 + seq % 500 * 50).toUInt32
  { header := fillHeader seq typeOrderBook kFlagSnapshot clock
    updateId := 900000 + seq
    bids := buildSide (midPriceTicks - 50) seq 0
    asks := buildSide (midPriceTicks + 50) seq 5 }

/-- The kind `build` settles on: in mixed mode the sequence chooses. -/
def Kind.select (kind : Kind) (seq : UInt64) : Kind :=
  if kind = .mixed then
    if seq % 3 = 0 then .trade else if seq % 3 = 1 then .bbo else .book
  else kind

def build (kind : Kind) (state : CompactTradeState) (seq : UInt64) (clock : ClockReadings) :
    CompactTradeState × Message :=
  match kind.select seq with
  | .trade =>
      let (state, trade) := buildTrade state seq clock
      (state, .trade trade)
  | .bbo => (state, .bbo (buildBbo seq clock))
  | .book | .mixed => (state, .orderBook (buildBook seq clock))

structure ProducerConfig where
  count : UInt64
  kind : Kind

/-- The producer's loop: its variables and the frames it has built so far. -/
structure ProducerLoop where
  seq : UInt64
  compactTradeState : CompactTradeState
  built : List Message

namespace ProducerLoop

def start : ProducerLoop where
  seq := 0
  compactTradeState := {}
  built := []

def trades (loop : ProducerLoop) : List Trade := loop.built.filterMap Message.trade?

def step (config : ProducerConfig) (loop : ProducerLoop) (clock : ClockReadings) :
    Option ProducerLoop :=
  if config.count = 0 ∨ loop.seq < config.count then
    let seq := loop.seq + 1
    let (state, message) := build config.kind loop.compactTradeState seq clock
    some { seq := seq, compactTradeState := state, built := loop.built ++ [message] }
  else none

def Step (config : ProducerConfig) (loop : ProducerLoop) (clock : ClockReadings)
    (next : ProducerLoop) : Prop :=
  loop.step config clock = some next

variable {config : ProducerConfig} {loop next : ProducerLoop} {clock : ClockReadings}

/-- One frame goes by: a Trade frame carries the running sums on, any other one
leaves them. -/
theorem step_cases (stepped : Step config loop clock next) :
    next.seq = loop.seq + 1 ∧
      ((config.kind.select next.seq = .trade ∧
          next.compactTradeState = (buildTrade loop.compactTradeState next.seq clock).1 ∧
          next.trades =
            loop.trades ++ [(buildTrade loop.compactTradeState next.seq clock).2]) ∨
        (config.kind.select next.seq ≠ .trade ∧
          next.compactTradeState = loop.compactTradeState ∧ next.trades = loop.trades)) := by
  unfold Step step at stepped
  split at stepped
  · cases stepped
    refine ⟨rfl, ?_⟩
    simp only [trades, List.filterMap_append]
    cases config.kind.select (loop.seq + 1) with
    | trade => exact .inl ⟨rfl, rfl, rfl⟩
    | bbo | book | mixed =>
        exact .inr ⟨nofun, rfl, by simp [Message.trade?]⟩
  · contradiction

theorem built_of_step (stepped : Step config loop clock next) :
    next.built =
      loop.built ++ [(build config.kind loop.compactTradeState (loop.seq + 1) clock).2] := by
  unfold Step step at stepped
  split at stepped
  · cases stepped
    rfl
  · contradiction

theorem seq_of_run {clocks : List ClockReadings}
    (run : Run (Step config) start clocks loop) : loop.seq = UInt64.ofNat clocks.length := by
  induction run with
  | nil => rfl
  | snoc run step ih =>
      rw [(step_cases step).1, ih, List.length_append, List.length_singleton, UInt64.ofNat_add]
      rfl

/-- Without a count the producer can go on for ever. -/
theorem exists_run (kind : Kind) (clocks : List ClockReadings) :
    ∃ loop, Run (Step ⟨0, kind⟩) start clocks loop := by
  induction clocks using List.reverseRecOn with
  | nil => exact ⟨start, .nil⟩
  | append_singleton clocks clock ih =>
      obtain ⟨loop, run⟩ := ih
      have stepped : ∃ next, Step ⟨0, kind⟩ loop clock next := by
        simp [Step, step]
      obtain ⟨next, stepped⟩ := stepped
      exact ⟨next, .snoc run stepped⟩

end ProducerLoop

end Lldt.Harness
