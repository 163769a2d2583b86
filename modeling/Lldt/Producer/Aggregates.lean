import Lldt.Data.RunningTotal
import Lldt.Producer.Build

namespace Lldt.Harness

open Lldt.Data.RunningTotal
open Lldt.Data.Transition
open Lldt.Msg
open Lldt.Msg.Compact

/-! The running aggregates of the Trade frames.  They are kept in 64 bits, and the
notional is the first of them to leave that range. -/

def lots (trade : Trade) : Nat := trade.quantityLots.toNat

def tickLots (trade : Trade) : Nat := trade.priceTicks.toNat * trade.quantityLots.toNat

def single (_ : Trade) : Nat := 1

/-- In every Trade frame the cumulative fields are the sums over the Trade frames
so far, itself included. -/
structure AggregatesExact (trades : List Trade) : Prop where
  quantity : Exact lots (fun trade => trade.cumulativeQuantityLots.toNat) trades
  notional : Exact tickLots (fun trade => trade.cumulativeNotionalTickLots.toNat) trades
  count : Exact single (fun trade => trade.cumulativeTradeCount.toNat) trades

/-- Of any two Trade frames the later one shows by how much the fields have grown
since the earlier one. -/
def DifferencesExact (trades : List Trade) : Prop :=
  ∀ before first between last after,
    trades = before ++ first :: (between ++ last :: after) →
      (last.cumulativeQuantityLots - first.cumulativeQuantityLots).toNat =
        total lots (between ++ [last]) ∧
      (last.cumulativeNotionalTickLots - first.cumulativeNotionalTickLots).toNat =
        total tickLots (between ++ [last]) ∧
      (last.cumulativeTradeCount - first.cumulativeTradeCount).toNat = between.length + 1

theorem toNat_tradePriceTicks (seq : UInt64) :
    (tradePriceTicks seq).toNat = 6500000 + seq.toNat % 500 * 50 := by
  simp only [tradePriceTicks, UInt64.toNat_toUInt32, UInt64.toNat_add, UInt64.toNat_mul,
    UInt64.toNat_mod, UInt64.reduceToNat]
  omega

theorem toNat_tradeQuantityLots (seq : UInt64) :
    (tradeQuantityLots seq).toNat = 1 + seq.toNat % 100 * 10 := by
  simp only [tradeQuantityLots, UInt64.toNat_toUInt32, UInt64.toNat_add, UInt64.toNat_mul,
    UInt64.toNat_mod, UInt64.reduceToNat]
  omega

/-! What a frame adds to the notional, by its number in the stream. -/

def notionalOf (kind : Kind) (seq : UInt64) : Nat :=
  if kind.select seq = .trade then
    (tradePriceTicks seq).toNat * (tradeQuantityLots seq).toNat
  else 0

def notionalAt (kind : Kind) (number : Nat) : Nat :=
  if kind = .trade ∨ (kind = .mixed ∧ number % 3 = 0) then
    (6500000 + number % 500 * 50) * (1 + number % 100 * 10)
  else 0

theorem notionalOf_eq (kind : Kind) (seq : UInt64) :
    notionalOf kind seq = notionalAt kind seq.toNat := by
  have third : seq % 3 = 0 ↔ seq.toNat % 3 = 0 := by
    rw [← UInt64.toNat_inj, UInt64.toNat_mod]
    rfl
  unfold notionalOf notionalAt
  rw [toNat_tradePriceTicks, toNat_tradeQuantityLots]
  congr 1
  cases kind with
  | trade => simp [Kind.select]
  | bbo | book => simp [Kind.select]
  | mixed =>
      simp only [Kind.select, if_true, reduceCtorEq, false_or, true_and, ← third]
      by_cases zero : seq % 3 = 0
      · simp [zero]
      · simp only [zero, if_false]
        split <;> simp

theorem periodic_notionalAt (kind : Kind) :
    Function.Periodic (fun i => notionalAt kind (i + 1)) 1500 := by
  intro i
  simp only [notionalAt]
  rw [show (i + 1500 + 1) % 3 = (i + 1) % 3 by omega,
    show (i + 1500 + 1) % 500 = (i + 1) % 500 by omega,
    show (i + 1500 + 1) % 100 = (i + 1) % 100 by omega]

/-- The notional of the Trade frames among the first frames of the stream. -/
def notionalThrough (kind : Kind) (frames : Nat) : Nat :=
  ∑ i ∈ Finset.range frames, notionalOf kind (UInt64.ofNat (i + 1))

theorem notionalThrough_mono (kind : Kind) : Monotone (notionalThrough kind) := by
  intro fewer more le
  exact Finset.sum_le_sum_of_subset (Finset.range_mono le)

theorem notionalThrough_laps (kind : Kind) {laps rest : Nat}
    (small : laps * 1500 + rest < 2 ^ 64) :
    notionalThrough kind (laps * 1500 + rest) =
      laps * ∑ i ∈ Finset.range 1500, notionalAt kind (i + 1) +
        ∑ i ∈ Finset.range rest, notionalAt kind (i + 1) := by
  rw [← sum_range_of_periodic (periodic_notionalAt kind)]
  apply Finset.sum_congr rfl
  intro i member
  have inside := Finset.mem_range.mp member
  rw [notionalOf_eq, UInt64.toNat_ofNat_of_lt' (show i + 1 < 2 ^ 64 by omega)]

/-- The frames the producer can build before the notional leaves its 64 bits. -/
def WithinRange (kind : Kind) (frames : Nat) : Prop :=
  match kind with
  | .trade => frames ≤ 5709998151
  | .mixed => frames ≤ 17129994389
  | .bbo | .book => True

instance (frames : Nat) : (kind : Kind) → Decidable (WithinRange kind frames)
  | .trade => inferInstanceAs (Decidable (frames ≤ 5709998151))
  | .mixed => inferInstanceAs (Decidable (frames ≤ 17129994389))
  | .bbo | .book => .isTrue trivial

theorem notionalThrough_lt_iff (kind : Kind) (frames : Nat) :
    notionalThrough kind frames < 2 ^ 64 ↔ WithinRange kind frames := by
  cases kind with
  | trade =>
      refine lt_iff_le_of_monotone (notionalThrough_mono .trade) ?_ ?_ frames
      · rw [show 5709998151 = 3806665 * 1500 + 651 from rfl, notionalThrough_laps _ (by decide)]
        decide +kernel
      · rw [show 5709998151 + 1 = 3806665 * 1500 + 652 from rfl,
          notionalThrough_laps _ (by decide)]
        decide +kernel
  | mixed =>
      refine lt_iff_le_of_monotone (notionalThrough_mono .mixed) ?_ ?_ frames
      · rw [show 17129994389 = 11419996 * 1500 + 389 from rfl,
          notionalThrough_laps _ (by decide)]
        decide +kernel
      · rw [show 17129994389 + 1 = 11419996 * 1500 + 390 from rfl,
          notionalThrough_laps _ (by decide)]
        decide +kernel
  | bbo | book =>
      refine iff_of_true ?_ trivial
      simp [notionalThrough, notionalOf, Kind.select]

/-! The loop keeps three registers. -/

/-- What the registers and the Trade frames hold after some frames. -/
structure Tallied (kind : Kind) (frames : Nat) (loop : ProducerLoop) : Prop where
  quantity : Register (2 ^ 64) lots (fun trade => trade.cumulativeQuantityLots.toNat)
    loop.trades loop.compactTradeState.cumulativeQuantityLots.toNat
  notional : Register (2 ^ 64) tickLots (fun trade => trade.cumulativeNotionalTickLots.toNat)
    loop.trades loop.compactTradeState.cumulativeNotionalTickLots.toNat
  count : Register (2 ^ 64) single (fun trade => trade.cumulativeTradeCount.toNat)
    loop.trades loop.compactTradeState.cumulativeTradeCount.toNat
  positive : ∀ trade ∈ loop.trades, 0 < trade.priceTicks.toNat ∧ 0 < trade.quantityLots.toNat
  through : total tickLots loop.trades = notionalThrough kind frames

theorem tallied_start (kind : Kind) : Tallied kind 0 .start where
  quantity := register_nil
  notional := register_nil
  count := register_nil
  positive := nofun
  through := rfl

theorem tickLots_buildTrade (state : CompactTradeState) (seq : UInt64) (clock : ClockReadings) :
    tickLots (buildTrade state seq clock).2 =
      (tradePriceTicks seq).toNat * (tradeQuantityLots seq).toNat := rfl

theorem Tallied.step {config : ProducerConfig} {frames : Nat} {loop next : ProducerLoop}
    {clock : ClockReadings} (tallied : Tallied config.kind frames loop)
    (seq : loop.seq = UInt64.ofNat frames)
    (stepped : ProducerLoop.Step config loop clock next) :
    Tallied config.kind (frames + 1) next := by
  obtain ⟨nextSeq, ⟨isTrade, state, trades⟩ | ⟨other, state, trades⟩⟩ :=
    ProducerLoop.step_cases stepped
  all_goals
    have here : next.seq = UInt64.ofNat (frames + 1) := by
      rw [nextSeq, seq, UInt64.ofNat_add]
      rfl
    have through : notionalThrough config.kind (frames + 1) =
        notionalThrough config.kind frames + notionalOf config.kind next.seq := by
      rw [notionalThrough, Finset.sum_range_succ, here, notionalThrough]
  · have added : notionalOf config.kind next.seq =
        tickLots (buildTrade loop.compactTradeState next.seq clock).2 := by
      rw [notionalOf, if_pos isTrade, tickLots_buildTrade]
    refine ⟨?_, ?_, ?_, ?_, ?_⟩
    · rw [trades, state]
      refine tallied.quantity.add ?_ rfl
      simp only [buildTrade, lots, UInt64.toNat_add, UInt32.toNat_toUInt64]
    · rw [trades, state]
      refine tallied.notional.add ?_ rfl
      simp only [buildTrade, tickLots, UInt64.toNat_add, UInt64.toNat_mul,
        UInt32.toNat_toUInt64, Nat.add_mod_mod]
    · rw [trades, state]
      refine tallied.count.add ?_ rfl
      simp only [buildTrade, single, UInt64.toNat_add, UInt64.toNat_one]
    · intro trade member
      rw [trades] at member
      rcases List.mem_append.mp member with earlier | last
      · exact tallied.positive trade earlier
      · rw [List.mem_singleton.mp last]
        simp only [buildTrade, toNat_tradePriceTicks, toNat_tradeQuantityLots]
        omega
    · rw [trades, total_append, total_singleton, tallied.through, through, added]
  · rw [notionalOf, if_neg other, Nat.add_zero] at through
    obtain ⟨quantity, notional, count, positive, sum⟩ := tallied
    rw [← state, ← trades] at quantity notional count
    rw [← trades] at positive sum
    exact ⟨quantity, notional, count, positive, sum.trans through.symm⟩

theorem tallied_of_run {config : ProducerConfig} {clocks : List ClockReadings}
    {loop : ProducerLoop} (run : Run (ProducerLoop.Step config) .start clocks loop) :
    Tallied config.kind clocks.length loop := by
  induction run with
  | nil => exact tallied_start config.kind
  | snoc run step ih =>
      rw [List.length_append, List.length_singleton]
      exact ih.step (ProducerLoop.seq_of_run run) step

/-- The notional bounds the other two sums, so it decides. -/
theorem Tallied.exact_iff {kind : Kind} {frames : Nat} {loop : ProducerLoop}
    (tallied : Tallied kind frames loop) :
    AggregatesExact loop.trades ↔ WithinRange kind frames := by
  have quantityLe : total lots loop.trades ≤ total tickLots loop.trades :=
    total_le_total fun trade member =>
      Nat.le_mul_of_pos_left _ (tallied.positive trade member).1
  have countLe : total single loop.trades ≤ total tickLots loop.trades :=
    total_le_total fun trade member =>
      Nat.mul_pos (tallied.positive trade member).1 (tallied.positive trade member).2
  rw [← notionalThrough_lt_iff, ← tallied.through,
    ← tallied.notional.readings.exact_iff (by decide)]
  constructor
  · intro exact
    exact exact.notional
  · intro exact
    have small := (tallied.notional.readings.exact_iff (by decide)).mp exact
    exact ⟨(tallied.quantity.readings.exact_iff (by decide)).mpr (by omega), exact,
      (tallied.count.readings.exact_iff (by decide)).mpr (by omega)⟩

theorem total_single (trades : List Trade) : total single trades = trades.length := by
  have unit : ∀ trade, single trade = 1 := fun _ => rfl
  exact total_eq_length unit trades

theorem toNat_sub_of_eq_add {first last : UInt64} {growth : Nat}
    (grown : last.toNat = first.toNat + growth) : (last - first).toNat = growth := by
  rw [UInt64.toNat_sub_of_le _ _ (UInt64.le_iff_toNat_le.mpr (by omega))]
  omega

theorem AggregatesExact.differences {trades : List Trade} (exact : AggregatesExact trades) :
    DifferencesExact trades := by
  intro before first between last after split
  refine ⟨?_, ?_, ?_⟩
  · exact toNat_sub_of_eq_add (exact.quantity.difference split)
  · exact toNat_sub_of_eq_add (exact.notional.difference split)
  · apply toNat_sub_of_eq_add
    rw [exact.count.difference split, total_single, List.length_append, List.length_singleton]

/-! Beyond that range the fields wrap, and their differences still show what lies
between two trades. -/

theorem toNat_sub_of_eq_add_mod {first last : UInt64} {growth : Nat}
    (grown : last.toNat = (first.toNat + growth) % 2 ^ 64) :
    (last - first).toNat = growth % 2 ^ 64 := by
  have below := first.toNat_lt
  rw [UInt64.toNat_sub, grown]
  omega

theorem Tallied.differences {kind : Kind} {frames : Nat} {loop : ProducerLoop}
    (tallied : Tallied kind frames loop) {first last : Trade} {before between after : List Trade}
    (split : loop.trades = before ++ first :: (between ++ last :: after)) :
    (last.cumulativeQuantityLots - first.cumulativeQuantityLots).toNat =
      total lots (between ++ [last]) % 2 ^ 64 ∧
    (last.cumulativeNotionalTickLots - first.cumulativeNotionalTickLots).toNat =
      total tickLots (between ++ [last]) % 2 ^ 64 ∧
    (last.cumulativeTradeCount - first.cumulativeTradeCount).toNat =
      (between.length + 1) % 2 ^ 64 := by
  refine ⟨?_, ?_, ?_⟩
  · exact toNat_sub_of_eq_add_mod (tallied.quantity.readings.difference split)
  · exact toNat_sub_of_eq_add_mod (tallied.notional.readings.difference split)
  · have length : total single (between ++ [last]) = between.length + 1 := by
      rw [total_single, List.length_append, List.length_singleton]
    rw [← length]
    exact toNat_sub_of_eq_add_mod (tallied.count.readings.difference split)

/-- What a single trade adds to the quantity and to the notional. -/
theorem weights_buildTrade (state : CompactTradeState) (seq : UInt64) (clock : ClockReadings) :
    lots (buildTrade state seq clock).2 ≤ 991 ∧
      tickLots (buildTrade state seq clock).2 ≤ 6524950 * 991 := by
  have quantity : (tradeQuantityLots seq).toNat ≤ 991 := by
    rw [toNat_tradeQuantityLots]
    omega
  have price : (tradePriceTicks seq).toNat ≤ 6524950 := by
    rw [toNat_tradePriceTicks]
    omega
  rw [tickLots_buildTrade]
  exact ⟨quantity, Nat.mul_le_mul price quantity⟩

theorem weights_of_run {config : ProducerConfig} {clocks : List ClockReadings}
    {loop : ProducerLoop} (run : Run (ProducerLoop.Step config) .start clocks loop) :
    ∀ trade ∈ loop.trades, lots trade ≤ 991 ∧ tickLots trade ≤ 6524950 * 991 := by
  induction run with
  | nil => exact nofun
  | snoc run step ih =>
      obtain ⟨-, ⟨-, -, trades⟩ | ⟨-, -, trades⟩⟩ := ProducerLoop.step_cases step
      · intro trade member
        rw [trades] at member
        rcases List.mem_append.mp member with earlier | last
        · exact ih trade earlier
        · rw [List.mem_singleton.mp last]
          exact weights_buildTrade _ _ _
      · rwa [trades]

/-- The aggregates are exact in every run of the producer up to the frame that
takes the notional out of its 64 bits, and in no run beyond it. -/
theorem aggregates_exact {config : ProducerConfig} {clocks : List ClockReadings}
    {loop : ProducerLoop} (run : Run (ProducerLoop.Step config) .start clocks loop) :
    (AggregatesExact loop.trades ∧ DifferencesExact loop.trades) ↔
      WithinRange config.kind clocks.length := by
  rw [← (tallied_of_run run).exact_iff]
  exact and_iff_left_of_imp AggregatesExact.differences

theorem aggregates_can_wrap :
    ¬∀ (config : ProducerConfig) (clocks : List ClockReadings) (loop : ProducerLoop),
      Run (ProducerLoop.Step config) .start clocks loop → AggregatesExact loop.trades := by
  intro always
  obtain ⟨loop, run⟩ := ProducerLoop.exists_run .trade (List.replicate 5709998152 ⟨0, 0⟩)
  have within := (tallied_of_run run).exact_iff.mp (always _ _ loop run)
  rw [List.length_replicate] at within
  exact absurd within (by decide)

theorem aggregates_exact_mixed :
    ∃ loop : ProducerLoop, loop.trades.map (fun trade => trade.header.seqId) = [3, 6] ∧
      AggregatesExact loop.trades ∧ DifferencesExact loop.trades := by
  have executed : ((List.replicate 7 ⟨5, 9⟩).foldlM (ProducerLoop.step ⟨0, .mixed⟩)
      .start).map (fun loop => loop.trades.map fun trade => trade.header.seqId) =
        some [3, 6] := by
    decide +kernel
  obtain ⟨loop, reached, trades⟩ := Option.map_eq_some_iff.mp executed
  have within : WithinRange .mixed (List.replicate 7 (⟨5, 9⟩ : ClockReadings)).length := by
    decide
  exact ⟨loop, trades, (aggregates_exact (.of_foldlM reached)).mpr within⟩

end Lldt.Harness
