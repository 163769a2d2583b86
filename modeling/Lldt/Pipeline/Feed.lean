import Lldt.Message.Records
import Lldt.Pipeline.Losses
import Lldt.Producer.Aggregates
import Lldt.Producer.Quotes

namespace Lldt.Pipeline

open Lldt.Data.RunningTotal
open Lldt.Data.Transition
open Lldt.Dpdk
open Lldt.Harness
open Lldt.Msg
open Lldt.Msg.Compact
open Lldt.Shm
open Lldt.Transport

/-! The pipeline with the producer of the harness at its head: the frames that go
in are the ones its loop builds, and the consumer can read the messages out of the
frames it has. -/

theorem typed_build (kind : Kind) (state : CompactTradeState) (seq : UInt64)
    (clock : ClockReadings) :
    (build kind state seq clock).2.header.type = (build kind state seq clock).2.type := by
  unfold build
  cases kind.select seq <;> rfl

theorem seqId_build (kind : Kind) (state : CompactTradeState) (seq : UInt64)
    (clock : ClockReadings) : (build kind state seq clock).2.header.seqId = seq := by
  unfold build
  cases kind.select seq <;> rfl

/-- The message that the next turn of the producer's loop publishes. -/
def nextMessage (config : ProducerConfig) (loop : ProducerLoop) (clock : ClockReadings) :
    TypedMessage where
  message := (build config.kind loop.compactTradeState (loop.seq + 1) clock).2
  typed := typed_build _ _ _ _

/-- The frames an act puts into the source ring. -/
def Act.inserted {profile : Profile} : Act profile → List (List UInt8)
  | .produce frame => [frame.bytes]
  | _ => []

theorem Act.inserted_eq_nil {profile : Profile} {act : Act profile}
    (other : act.produces = false) : act.inserted = [] := by
  cases act with
  | produce frame => contradiction
  | startSender | sender event | receiver event => rfl
  | startConsumer frame now | consumer now => rfl

structure Fed (sourceSlots destinationSlots : SlotCount) where
  producer : ProducerLoop
  system : System .compact sourceSlots destinationSlots

inductive FedAct where
  | build (clock : ClockReadings)
  | other (act : Act .compact)

/-- The messages in the frames the consumer has read. -/
def messages (consumer : ConsumerLoop) : List Message :=
  consumer.frames.filterMap Message.load?

def trades (consumer : ConsumerLoop) : List Trade :=
  (messages consumer).filterMap Message.trade?

namespace Fed

variable {sourceSlots destinationSlots : SlotCount} (config : ProducerConfig)
  (deployment : Deployment)

def start (sourceMemory : Ring sourceSlots) (destinationMemory : Ring destinationSlots) :
    Fed sourceSlots destinationSlots where
  producer := .start
  system := .start sourceMemory destinationMemory

def step (state : Fed sourceSlots destinationSlots) :
    FedAct → Option (Fed sourceSlots destinationSlots)
  | .build clock =>
      (state.producer.step config clock).bind fun producer =>
        (state.system.step deployment
          (.produce (nextMessage config state.producer clock).frame)).map fun system =>
            ⟨producer, system⟩
  | .other act =>
      if act.produces then none
      else (state.system.step deployment act).map fun system => { state with system := system }

def Step (state : Fed sourceSlots destinationSlots) (act : FedAct)
    (next : Fed sourceSlots destinationSlots) : Prop :=
  state.step config deployment act = some next

/-- What the pipeline holds is what the loop has built. -/
structure Inv (sourceMemory : Ring sourceSlots) (destinationMemory : Ring destinationSlots)
    (state : Fed sourceSlots destinationSlots) : Prop where
  producer : ∃ clocks, Run (ProducerLoop.Step config) .start clocks state.producer ∧
    clocks.length = state.producer.built.length
  system : ∃ acts, Run (System.Step deployment) (.start sourceMemory destinationMemory) acts
    state.system
  history : state.system.history = state.producer.built.map Message.image
  typed : ∀ message ∈ state.producer.built, message.header.type = message.type

variable {config deployment} {state next : Fed sourceSlots destinationSlots}
  {sourceMemory : Ring sourceSlots} {destinationMemory : Ring destinationSlots}

theorem inv_start : Inv config deployment sourceMemory destinationMemory
    (.start sourceMemory destinationMemory) where
  producer := ⟨[], .nil, rfl⟩
  system := ⟨[], .nil⟩
  history := rfl
  typed := nofun

/-- The producer's count is the number the pipeline expects next. -/
theorem Inv.numbered (inv : Inv config deployment sourceMemory destinationMemory state)
    (clock : ClockReadings) :
    (nextMessage config state.producer clock).frame.seqId =
      UInt64.ofNat (state.system.produced.length + 1) := by
  obtain ⟨clocks, run, length⟩ := inv.producer
  have produced := state.system.length_history
  rw [inv.history, List.length_map, ← length] at produced
  rw [TypedMessage.seqId_frame, nextMessage, seqId_build, ProducerLoop.seq_of_run run,
    ← produced, UInt64.ofNat_add]
  rfl

theorem step_cases {act : FedAct} (stepped : Step config deployment state act next) :
    (∃ clock, act = .build clock ∧
      ProducerLoop.Step config state.producer clock next.producer ∧
      System.Step deployment state.system
        (.produce (nextMessage config state.producer clock).frame) next.system) ∨
    (∃ other, act = .other other ∧ other.produces = false ∧
      next.producer = state.producer ∧
      System.Step deployment state.system other next.system) := by
  cases act with
  | build clock =>
      obtain ⟨producer, built, stepped⟩ := Option.bind_eq_some_iff.mp stepped
      obtain ⟨system, taken, rfl⟩ := Option.map_eq_some_iff.mp stepped
      exact .inl ⟨clock, rfl, built, taken⟩
  | other act =>
      simp only [Step, step] at stepped
      split at stepped
      · contradiction
      · rename_i other
        obtain ⟨system, moved, rfl⟩ := Option.map_eq_some_iff.mp stepped
        exact .inr ⟨act, rfl, Bool.eq_false_iff.mpr other, rfl, moved⟩

theorem history_of_step {act : Act .compact}
    {system after : System .compact sourceSlots destinationSlots}
    (stepped : System.Step deployment system act after) :
    after.history = system.history ++ act.inserted := by
  obtain ⟨frame, rfl, -, rfl⟩ | ⟨rfl, -, rfl⟩ | ⟨_, _, _, rfl, -, -, -, rfl⟩ |
    ⟨_, _, rfl, -, -, rfl⟩ | ⟨_, _, rfl, -, rfl⟩ | ⟨_, _, _, rfl, -, -, rfl⟩ :=
      System.step_cases stepped
  · rw [System.history, List.map_append]
    rfl
  all_goals exact (List.append_nil _).symm

theorem Inv.step {act : FedAct}
    (inv : Inv config deployment sourceMemory destinationMemory state)
    (stepped : Step config deployment state act next) :
    Inv config deployment sourceMemory destinationMemory next := by
  obtain ⟨clocks, run, length⟩ := inv.producer
  obtain ⟨acts, acted⟩ := inv.system
  obtain ⟨clock, rfl, built, taken⟩ | ⟨act, rfl, other, idle, moved⟩ := step_cases stepped
  · have grown := ProducerLoop.built_of_step built
    refine ⟨⟨_, .snoc run built, ?_⟩, ⟨_, .snoc acted taken⟩, ?_, ?_⟩
    · rw [grown, List.length_append, List.length_append, length]
      rfl
    · rw [history_of_step taken, inv.history, grown, List.map_append]
      rfl
    · intro message member
      rw [grown] at member
      rcases List.mem_append.mp member with earlier | last
      · exact inv.typed message earlier
      · rw [List.mem_singleton.mp last]
        exact typed_build _ _ _ _
  · rw [← idle] at run length
    refine ⟨⟨clocks, run, length⟩, ⟨_, .snoc acted moved⟩, ?_, ?_⟩
    · rw [history_of_step moved, Act.inserted_eq_nil other, List.append_nil, idle]
      exact inv.history
    · rw [idle]
      exact inv.typed

theorem inv_of_run {acts : List FedAct}
    (run : Run (Step config deployment) (start sourceMemory destinationMemory) acts state) :
    Inv config deployment sourceMemory destinationMemory state :=
  run.invariant (fun inv stepped => inv.step stepped) inv_start

/-- What the consumer has read are the images of messages from the loop, and it reads
these messages back out of them. -/
theorem Inv.consumed (inv : Inv config deployment sourceMemory destinationMemory state)
    (documented : deployment.setup.rte.Documented)
    (fewer : state.producer.built.length < 2 ^ 64 - 1) {consumer : ConsumerLoop}
    (present : state.system.consumer = some consumer) :
    (messages consumer).Sublist state.producer.built ∧
      consumer.frames = (messages consumer).map Message.image ∧
      consumer.recorded.map Sample.seqId =
        (messages consumer).map fun message => message.header.seqId := by
  have length := congrArg List.length inv.history
  rw [System.length_history, List.length_map] at length
  obtain ⟨acts, run⟩ := inv.system
  have pipeline := System.inv_of_run documented run (by omega)
  obtain ⟨follows, recorded⟩ := pipeline.consumer consumer present
  have read := follows.sublist.trans (pipeline.published_sublist (by omega))
  rw [inv.history] at read
  obtain ⟨seen, sublist, frames⟩ := List.sublist_map_iff.mp read
  have typed : ∀ message ∈ seen, message.header.type = message.type :=
    fun message member => inv.typed message (sublist.subset member)
  have loaded : ∀ message ∈ seen, (Message.load? ∘ Message.image) message = some message :=
    fun message member => (⟨message, typed message member⟩ : TypedMessage).load?_image
  have same : messages consumer = seen := by
    rw [messages, frames, List.filterMap_map, List.filterMap_congr loaded, List.filterMap_some]
  rw [same]
  refine ⟨sublist, frames, ?_⟩
  rw [recorded, frames, List.map_map]
  apply List.map_congr_left
  intro message member
  exact (⟨message, typed message member⟩ : TypedMessage).loadU64_image

/-- The five trades of a producer, read off its loop. -/
def clock : ClockReadings := ⟨5, 9⟩

def fiveTrades : ProducerConfig := ⟨5, .trade⟩

def builtTrades : List Message :=
  (((List.replicate 5 clock).foldlM (ProducerLoop.step fiveTrades) .start).map
    ProducerLoop.built).getD []

def readTrade (number : Nat) : FedAct :=
  .other (.sender (.read (.kOk 64 ((builtTrades.map Message.image).getD number []))))

/-- The sender is sent past the second and the third trade. -/
def lappedFeed : List FedAct :=
  [.other .startSender, .build clock, .other (.sender (.poll false)), readTrade 0] ++
    ([.alloc (some SenderLoop.freshMbuf), .poll false, .read .kEmpty, .transmit true].map
      fun event => .other (.sender event)) ++
    [.build clock, .build clock, .build clock, .build clock] ++
    ([.poll false, .read (.kLapped 3 []), .poll false].map fun event => .other (.sender event)) ++
    [readTrade 3, .other (.sender (.alloc (some SenderLoop.freshMbuf))),
      .other (.sender (.poll false)), readTrade 4] ++
    ([.poll false, .read .kEmpty, .transmit true].map fun event => .other (.sender event))

theorem fed_lapped :
    ∃ (acts : List FedAct) (state : Fed ⟨2, 1, by decide⟩ ⟨2, 1, by decide⟩)
      (consumer : ConsumerLoop),
      Run (Step fiveTrades System.littleEndianDeployment)
        (start ⟨9, fun _ => ⟨3, 0, fun _ => 0⟩⟩ ⟨9, fun _ => ⟨3, 0, fun _ => 0⟩⟩) acts state ∧
      state.producer.built.length = 5 ∧ state.system.consumer = some consumer ∧
      (trades consumer).map (fun trade => trade.header.seqId) = [1, 4, 5] := by
  let initial : Fed ⟨2, 1, by decide⟩ ⟨2, 1, by decide⟩ :=
    start ⟨9, fun _ => ⟨3, 0, fun _ => 0⟩⟩ ⟨9, fun _ => ⟨3, 0, fun _ => 0⟩⟩
  have executed : ((lappedFeed.foldlM (step fiveTrades System.littleEndianDeployment)
      initial).bind fun sent =>
        (((System.takingActs sent.system.network).map FedAct.other).foldlM
          (step fiveTrades System.littleEndianDeployment) sent).bind fun state =>
            state.system.consumer.map fun consumer =>
              (state.producer.built.length,
                (trades consumer).map fun trade => trade.header.seqId)) =
                  some (5, [1, 4, 5]) := by
    decide +kernel
  obtain ⟨sent, sending, executed⟩ := Option.bind_eq_some_iff.mp executed
  obtain ⟨state, taking, executed⟩ := Option.bind_eq_some_iff.mp executed
  obtain ⟨consumer, present, observed⟩ := Option.map_eq_some_iff.mp executed
  obtain ⟨five, read⟩ := Prod.mk.inj observed
  exact ⟨_, state, consumer, Run.trans (.of_foldlM sending) (.of_foldlM taking), five, present,
    read⟩

theorem length_between_le {loop : ProducerLoop} {first last : Trade} {between : List Trade}
    (part : (first :: between ++ [last]) <:+: loop.trades) :
    between.length + 2 ≤ loop.built.length := by
  have trades := part.length_le
  rw [List.length_append, List.length_cons] at trades
  exact trades.trans (List.length_filterMap_le _ _)

/-- Whatever trades the consumer has missed between two it has, the cumulative fields
of the two say how many the producer built from the one to the other, and in 64 bits
what quantity and notional they add up to.  Fewer than `2 ^ 31` missed trades do not
add up to more than that. -/
theorem volume_recovered (documented : deployment.setup.rte.Documented)
    {acts : List FedAct}
    (run : Run (Step config deployment) (start sourceMemory destinationMemory) acts state)
    (fewer : state.producer.built.length < 2 ^ 64 - 1) {consumer : ConsumerLoop}
    (present : state.system.consumer = some consumer) {first last : Trade}
    (ordered : [first, last].Sublist (trades consumer)) :
    ∃ between, (first :: between ++ [last]) <:+: state.producer.trades ∧
      (last.cumulativeTradeCount - first.cumulativeTradeCount).toNat = between.length + 1 ∧
      (last.cumulativeQuantityLots - first.cumulativeQuantityLots).toNat =
        total lots (between ++ [last]) % 2 ^ 64 ∧
      (last.cumulativeNotionalTickLots - first.cumulativeNotionalTickLots).toNat =
        total tickLots (between ++ [last]) % 2 ^ 64 ∧
      (between.length < 2 ^ 31 →
        total lots (between ++ [last]) < 2 ^ 64 ∧ total tickLots (between ++ [last]) < 2 ^ 64) := by
  have inv := inv_of_run run
  obtain ⟨sublist, -, -⟩ := inv.consumed documented fewer present
  obtain ⟨clocks, built, -⟩ := inv.producer
  obtain ⟨before, between, after, split⟩ :=
    exists_between (ordered.trans (sublist.filterMap Message.trade?))
  have split : state.producer.trades = before ++ first :: (between ++ last :: after) := split
  obtain ⟨quantity, notional, count⟩ := (tallied_of_run built).differences split
  have part : (first :: between ++ [last]) <:+: state.producer.trades :=
    ⟨before, after, by rw [split]; simp⟩
  have most := length_between_le part
  rw [Nat.mod_eq_of_lt (by omega)] at count
  refine ⟨between, part, count, quantity, notional, fun missed => ?_⟩
  have weights : ∀ trade ∈ between ++ [last], lots trade ≤ 991 ∧ tickLots trade ≤ 6524950 * 991 :=
    fun trade member => weights_of_run built trade
      (part.subset (List.mem_append.mpr ((List.mem_append.mp member).imp_left
        (List.mem_cons_of_mem _))))
  have lotsMost := total_le_mul fun trade member => (weights trade member).1
  have tickLotsMost := total_le_mul fun trade member => (weights trade member).2
  rw [List.length_append, List.length_singleton] at lotsMost tickLotsMost
  omega

theorem volume_recovered_lapped :
    ∃ (state : Fed ⟨2, 1, by decide⟩ ⟨2, 1, by decide⟩) (first last : Trade)
      (between : List Trade), first.header.seqId = 1 ∧ last.header.seqId = 4 ∧
        (first :: between ++ [last]) <:+: state.producer.trades ∧
        (last.cumulativeTradeCount - first.cumulativeTradeCount).toNat = between.length + 1 ∧
        (last.cumulativeQuantityLots - first.cumulativeQuantityLots).toNat =
          total lots (between ++ [last]) := by
  obtain ⟨acts, state, consumer, run, five, present, read⟩ := fed_lapped
  obtain ⟨first, rest, same, firstSeq, read⟩ := List.map_eq_cons_iff.mp read
  obtain ⟨last, rest, rfl, lastSeq, -⟩ := List.map_eq_cons_iff.mp read
  have ordered : [first, last].Sublist (trades consumer) := by
    rw [same]
    exact (List.nil_sublist rest).cons_cons last |>.cons_cons first
  obtain ⟨between, part, count, quantity, -, small⟩ :=
    volume_recovered (show System.littleEndianDeployment.setup.rte.Documented from
      Rte.littleEndianHost_documented) run (by omega) present ordered
  have most := length_between_le part
  rw [Nat.mod_eq_of_lt (small (by omega)).1] at quantity
  exact ⟨state, first, last, between, firstSeq, lastSeq, part, count, quantity⟩

/-! What the messages say of the market. -/

end Fed

end Lldt.Pipeline
