import Lldt.Sender.Stream

namespace Lldt.Transport

open Lldt.Data.Transition
open Lldt.Dpdk
open Lldt.Msg

/-! The counters of the sender loop and the ownership of its mbufs. -/

variable {profile : Profile}

/-! What a completed packet adds to the counters. -/

section Completed

variable {packet : OpenPacket} {dataSeq : UInt64} {records : List (List UInt8)}
  {frames : List (ValidFrame profile)}

theorem OpenPacket.Filled.recordCount (filled : packet.Filled dataSeq records frames) :
    packet.builder.finalize.recordCount.toUInt64 = UInt64.ofNat records.length := by
  have count := filled.carries.finalize.1.recordCount
  have small := packet.builder.finalize.recordCount.toNat_lt
  apply UInt64.toNat_inj.mp
  rw [UInt16.toNat_toUInt64, filled.records, List.length_map, ← count,
    UInt64.toNat_ofNat_of_lt' (show _ < 2 ^ 64 by omega)]

theorem OpenPacket.Filled.payloadBytes (filled : packet.Filled dataSeq records frames) :
    packet.builder.finalize.packetSize - RawDataPacketBuilder.dataHeaderSize.toUInt64 =
      UInt64.ofNat records.flatten.length := by
  have size := filled.carries.finalize.1.packetSize
  have bound := packet.builder.finalize.packetSize.toNat_lt
  have header : RawDataPacketBuilder.dataHeaderSize.toUInt64.toNat =
      RawDataPacketBuilder.dataHeaderSize.toNat := rfl
  have enough : RawDataPacketBuilder.dataHeaderSize.toUInt64 ≤
      packet.builder.finalize.packetSize := by
    rw [UInt64.le_iff_toNat_le, header, size]
    exact Nat.le_add_right _ _
  apply UInt64.toNat_inj.mp
  rw [UInt64.toNat_sub_of_le _ _ enough, header, size, Nat.add_sub_cancel_left,
    filled.records, ← payload_eq_flatten, UInt64.toNat_ofNat_of_lt' (show _ < 2 ^ 64 by omega)]

end Completed

namespace SenderLoop

def carryCount (state : SenderLoop) : Nat :=
  if state.carryFrame.isSome then 1 else 0

/-- How many admitted frames are neither counted as packetized nor as lost to an
allocation. -/
def inFlight (state : SenderLoop) : Nat :=
  match state.phase with
  | .head => state.carryCount
  | .readFirst => 0
  | .allocate _ => 1
  | .batch _ | .readNext _ => state.log.records.length
  | .finish _ => state.log.records.length + state.carryCount
  | .exited => if state.err = 0 then 0 else 1

def owned (state : SenderLoop) : List Nat :=
  match state.phase with
  | .batch _ | .readNext _ | .finish _ => [state.log.inHand]
  | _ => []

structure Counted (state : SenderLoop) : Prop where
  packetized : state.dataCounters.framesPacketized = UInt64.ofNat state.finished.length
  payloadBytes : state.dataCounters.dataPayloadBytes =
    UInt64.ofNat state.finished.flatten.length
  built : state.dataCounters.dataPacketsBuilt = UInt64.ofNat state.log.built.length
  consumed : state.dataCounters.dataSequencesConsumed = UInt64.ofNat state.log.built.length
  handed : state.dataCounters.txPacketsEnqueued + state.dataCounters.txPacketsUnsent =
    UInt64.ofNat state.log.built.length

/-- Every frame that was read and not rejected is accounted for. -/
structure Balanced (state : SenderLoop) : Prop where
  offered : state.dataCounters.framesOfferedToPacketization =
    state.reader.counters.framesRead - state.reader.counters.invalidFrames
  shared : state.dataCounters.framesOfferedToPacketization =
    state.dataCounters.framesPacketized + state.dataCounters.mbufAllocFailures +
      UInt64.ofNat state.inFlight
  running : state.phase ≠ .exited → state.err = 0

/-- Every allocated mbuf has been sent, has been freed or is still owned. -/
def Ledger (state : SenderLoop) : Prop :=
  (state.log.sent ++ state.log.freed ++ state.owned).Perm (List.range state.log.allocated)

theorem counted_start (profile : Profile) (liveEdge : UInt64) :
    (start profile liveEdge).Counted :=
  ⟨rfl, rfl, rfl, rfl, by simp [start]⟩

theorem balanced_start (profile : Profile) (liveEdge : UInt64) :
    (start profile liveEdge).Balanced :=
  ⟨by simp [start, SenderShmReader.attached], by simp [start, inFlight, carryCount],
    fun _ => rfl⟩

theorem ledger_start (profile : Profile) (liveEdge : UInt64) :
    (start profile liveEdge).Ledger :=
  .refl _

section Preservation

variable {setup : SenderSetup} {state next : SenderLoop} {event : SenderEvent}

theorem finish_finished (packet : OpenPacket) (enqueued : Bool) :
    (state.finish setup packet enqueued).finished = state.finished ++ state.log.records := by
  rw [finished, finish_built, List.flatMap_append, List.flatMap_singleton]
  rfl

theorem Counted.move (counted : state.Counted) (stream : state.Stream profile setup.rte)
    (move : Move profile setup state event next) : next.Counted := by
  cases move with
  | @complete packet enqueued phase =>
      have placed := stream.placed
      simp only [Placed, phase] at placed
      obtain ⟨⟨frames, filled⟩, -⟩ := placed
      have recordCount := filled.recordCount
      have payloadBytes := filled.payloadBytes
      refine ⟨?_, ?_, ?_, ?_, ?_⟩
      · rw [finish_finished, List.length_append, UInt64.ofNat_add, ← recordCount,
          ← counted.packetized]
        cases enqueued <;> rfl
      · rw [finish_finished, List.flatten_append, List.length_append, UInt64.ofNat_add,
          ← payloadBytes, ← counted.payloadBytes]
        cases enqueued <;> rfl
      · rw [finish_built, List.length_append, UInt64.ofNat_add, ← counted.built]
        cases enqueued <;> rfl
      · rw [finish_built, List.length_append, UInt64.ofNat_add, ← counted.consumed]
        cases enqueued <;> rfl
      · rw [finish_built, List.length_append, UInt64.ofNat_add, ← counted.handed]
        cases enqueued with
        | true =>
            show state.dataCounters.txPacketsEnqueued + 1 +
              state.dataCounters.txPacketsUnsent = _ + _ + 1
            grind
        | false => exact (UInt64.add_assoc _ _ _).symm
  | _ =>
      exact ⟨counted.packetized, counted.payloadBytes, counted.built, counted.consumed,
        counted.handed⟩

theorem Move.not_exited (move : Move profile setup state event next) :
    state.phase ≠ .exited := by
  cases move <;> simp [*]

theorem Balanced.move (balanced : state.Balanced) (stream : state.Stream profile setup.rte)
    (move : Move profile setup state event next) : next.Balanced := by
  obtain ⟨offered, shared, running⟩ := balanced
  have fine := running move.not_exited
  have placed := stream.placed
  cases move with
  | leave phase empty stop =>
      refine ⟨offered, ?_, by simp⟩
      simpa [inFlight, phase, carryCount, empty, fine] using shared
  | pass phase empty go =>
      refine ⟨offered, ?_, fun _ => fine⟩
      simpa [inFlight, phase, carryCount, empty] using shared
  | resume phase held =>
      refine ⟨offered, ?_, fun _ => fine⟩
      simpa [inFlight, phase, carryCount, held] using shared
  | refuse phase reserve =>
      refine ⟨offered, ?_, by simp⟩
      simpa [inFlight, phase] using shared
  | reserve phase reserve opened =>
      simp only [Placed, phase] at placed
      refine ⟨offered, ?_, fun _ => fine⟩
      by_cases batching : setup.batchingEnabled <;>
        simpa [inFlight, phase, batching, carryCount, placed.1] using shared
  | stop phase =>
      simp only [Placed, phase] at placed
      refine ⟨offered, ?_, fun _ => fine⟩
      simpa [inFlight, phase, carryCount, placed.1] using shared
  | more phase =>
      refine ⟨offered, ?_, fun _ => fine⟩
      simpa [inFlight, phase] using shared
  | idle phase notOk | drain phase notOk =>
      simp only [Placed, phase] at placed
      have kept := (state.reader.tryRead_not_ok profile notOk).1
      refine ⟨offered.trans kept.symm, ?_, fun _ => fine⟩
      simpa [inFlight, phase, carryCount, placed.1] using shared
  | take phase ok | carry phase ok | append phase ok =>
      -- one more frame has been read, and it is in flight
      simp only [Placed, phase] at placed
      have admits := state.reader.admits_of_tryRead profile ok
      simp only [inFlight, phase] at shared
      refine ⟨?_, ?_, fun _ => fine⟩
      · simp only [SenderLoop.offered, admits.framesRead, admits.invalidFrames, offered]
        grind
      · simp [SenderLoop.offered, inFlight, carryCount, shared, UInt64.add_assoc]
  | starve phase =>
      simp only [Placed, phase] at placed
      refine ⟨offered, ?_, fun _ => fine⟩
      simpa [inFlight, phase, allocate, carryCount, placed.1, UInt64.add_assoc] using shared
  | @complete packet enqueued phase =>
      simp only [Placed, phase] at placed
      obtain ⟨⟨frames, filled⟩, -⟩ := placed
      have recordCount := filled.recordCount
      simp only [inFlight, phase, UInt64.ofNat_add, ← recordCount] at shared
      have moved : state.dataCounters.framesOfferedToPacketization =
          state.dataCounters.framesPacketized +
            packet.builder.finalize.recordCount.toUInt64 +
            state.dataCounters.mbufAllocFailures + UInt64.ofNat state.carryCount := by
        rw [shared]
        grind
      cases enqueued <;> exact ⟨offered, moved, fun _ => fine⟩

theorem Ledger.move (ledger : state.Ledger) (move : Move profile setup state event next) :
    next.Ledger := by
  unfold Ledger at ledger ⊢
  cases move with
  | refuse phase reserve =>
      simp only [owned, phase, List.append_nil] at ledger
      simp only [owned, List.append_nil, List.range_succ, ← List.append_assoc]
      exact ledger.append_right _
  | reserve phase reserve opened =>
      simp only [owned, phase, List.append_nil] at ledger
      by_cases batching : setup.batchingEnabled
      · simp only [owned, if_pos batching, List.range_succ]
        exact ledger.append_right _
      · simp only [owned, if_neg batching, List.range_succ]
        exact ledger.append_right _
  | @complete _ enqueued phase =>
      simp only [owned, phase] at ledger
      cases enqueued with
      | true =>
          simp only [owned, finish, if_pos, List.append_nil]
          refine List.Perm.trans ?_ ledger
          rw [List.append_assoc, List.append_assoc]
          exact List.perm_append_comm.append_left _
      | false =>
          simp only [owned, finish, Bool.false_eq_true, if_false, List.append_nil,
            ← List.append_assoc]
          exact ledger
  | leave phase | pass phase | resume phase | idle phase | take phase | starve phase
  | stop phase | more phase | drain phase | carry phase | append phase =>
      simpa only [owned, phase, offered, allocate] using ledger

theorem balances_of_run (documented : setup.rte.Documented) {liveEdge : UInt64}
    {events : List SenderEvent}
    (run : Run (Step profile setup) (start profile liveEdge) events state) :
    state.Counted ∧ state.Balanced ∧ state.Ledger := by
  have all : state.Stream profile setup.rte ∧ state.Counted ∧ state.Balanced ∧
      state.Ledger := by
    induction run with
    | nil =>
        exact ⟨stream_start _ _, counted_start _ _, balanced_start _ _, ledger_start _ _⟩
    | snoc run step ih =>
        obtain ⟨stream, counted, balanced, ledger⟩ := ih
        have move := move_of_step step
        exact ⟨stream.move documented move, counted.move stream move,
          balanced.move stream move, ledger.move move⟩
  exact all.2

end Preservation

def ReserveFailed (setup : SenderSetup) (events : List SenderEvent) : Prop :=
  ∃ fresh, events.getLast? = some (.alloc (some fresh)) ∧
    tryReserveDataPacket setup.rte fresh.mbuf = none

theorem err_of_exited {setup : SenderSetup} (documented : setup.rte.Documented)
    {liveEdge : UInt64} {events : List SenderEvent} {state : SenderLoop}
    (run : Run (Step profile setup) (start profile liveEdge) events state)
    (exited : state.phase = .exited) : state.err = 0 ↔ ¬ReserveFailed setup events := by
  cases run with
  | nil => contradiction
  | snoc run step =>
      have fine := (balances_of_run documented run).2.1.running
      have move := move_of_step step
      have running := fine move.not_exited
      cases move with
      | leave phase empty stop => simp [running, ReserveFailed]
      | refuse phase reserve => simp [ReserveFailed, reserve]
      | reserve phase reserve opened =>
          dsimp only at exited
          split at exited <;> contradiction
      | complete phase => simp at exited
      | _ => contradiction

/-- Every counter of the sender at the loop head and on exit, the sequence numbers
of the packets and the fate of the mbufs. -/
theorem conservation {setup : SenderSetup} (documented : setup.rte.Documented)
    {liveEdge : UInt64} {events : List SenderEvent} {state : SenderLoop}
    (run : Run (Step profile setup) (start profile liveEdge) events state) :
    let counters := state.dataCounters
    let input := state.reader.counters
    (state.phase = .head ∨ state.phase = .exited →
      counters.framesOfferedToPacketization = input.framesRead - input.invalidFrames ∧
      counters.dataPacketsBuilt = counters.dataSequencesConsumed ∧
      counters.dataSequencesConsumed = state.nextDataSeq ∧
      state.nextDataSeq = counters.txPacketsEnqueued + counters.txPacketsUnsent ∧
      state.nextDataSeq = UInt64.ofNat state.log.built.length ∧
      (∀ number packet, state.log.built[number]? = some packet →
        packet.canonical.dataSeq = UInt64.ofNat number) ∧
      counters.framesPacketized = UInt64.ofNat state.finished.length ∧
      counters.dataPayloadBytes = UInt64.ofNat (state.finished.map List.length).sum ∧
      (state.log.sent ++ state.log.freed).Perm (List.range state.log.allocated)) ∧
    (state.phase = .head →
      counters.framesOfferedToPacketization =
        counters.framesPacketized + counters.mbufAllocFailures +
          (if state.carryFrame.isSome then 1 else 0)) ∧
    (state.phase = .exited →
      state.carryFrame = none ∧
      (ReserveFailed setup events → counters.framesOfferedToPacketization =
        counters.framesPacketized + counters.mbufAllocFailures + 1) ∧
      (¬ReserveFailed setup events → counters.framesOfferedToPacketization =
        counters.framesPacketized + counters.mbufAllocFailures)) := by
  have stream := stream_of_run documented run
  have placed := stream.placed
  obtain ⟨counted, balanced, ledger⟩ := balances_of_run documented run
  have shared := balanced.shared
  refine ⟨?_, ?_, ?_⟩
  · intro atRest
    have none : state.owned = [] := by
      rcases atRest with phase | phase <;> simp only [owned, phase]
    unfold Ledger at ledger
    rw [none, List.append_nil] at ledger
    exact ⟨balanced.offered, counted.built.trans counted.consumed.symm,
      counted.consumed.trans stream.nextDataSeq.symm,
      stream.nextDataSeq.trans counted.handed.symm, stream.nextDataSeq, stream.sequence,
      counted.packetized, by rw [counted.payloadBytes, List.length_flatten], ledger⟩
  · intro phase
    simp only [inFlight, phase, carryCount] at shared
    rw [shared]
    split <;> rfl
  · intro phase
    simp only [Placed, phase] at placed
    have err := err_of_exited documented run phase
    simp only [inFlight, phase] at shared
    refine ⟨placed.1, ?_, ?_⟩
    · intro failed
      rw [if_neg (fun fine => err.mp fine failed)] at shared
      exact shared
    · intro notFailed
      rw [if_pos (err.mpr notFailed)] at shared
      simpa using shared

theorem conservation_unbatched :
    ∃ state : SenderLoop, state.phase = .exited ∧ state.nextDataSeq = 2 ∧
      state.dataCounters.dataPacketsBuilt = state.dataCounters.dataSequencesConsumed ∧
      (state.log.sent ++ state.log.freed).Perm [0, 1] := by
  have executed : (unbatched.foldlM (step .compact (littleEndianSetup false))
      (start .compact 0)).map (fun state =>
        (state.hasExited, state.nextDataSeq, state.log.allocated)) = some (true, 2, 2) := by
    decide +kernel
  obtain ⟨state, reached, observed⟩ := Option.map_eq_some_iff.mp executed
  obtain ⟨exited, sequence, allocated⟩ := by simpa only [Prod.mk.injEq] using observed
  have phase := exited_of_hasExited exited
  obtain ⟨-, consumed, -, -, -, -, -, -, ledger⟩ :=
    (conservation Rte.littleEndianHost_documented (Run.of_foldlM reached)).1 (.inr phase)
  rw [allocated] at ledger
  exact ⟨state, phase, sequence, consumed, ledger⟩

end SenderLoop

end Lldt.Transport
