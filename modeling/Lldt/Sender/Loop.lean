import Lldt.Data.Transition
import Lldt.Dpdk.Materializer
import Lldt.Packet.Builder

namespace Lldt.Transport

open Lldt.Data.Bytes
open Lldt.Dpdk
open Lldt.Msg
open Lldt.Shm

/-! The loop of `run_sender`, one call into its surroundings at a time: a look at
`stop_requested`, a read of the source ring, an mbuf allocation, a TX burst. -/

structure SenderDataCounters where
  framesOfferedToPacketization : UInt64 := 0
  mbufAllocFailures : UInt64 := 0
  framesPacketized : UInt64 := 0
  dataPacketsBuilt : UInt64 := 0
  dataPayloadBytes : UInt64 := 0
  dataSequencesConsumed : UInt64 := 0
  txPacketsEnqueued : UInt64 := 0
  txPacketsUnsent : UInt64 := 0
  deriving DecidableEq, Repr

structure OpenPacket where
  mbuf : Mbuf
  canonicalOutput : Nat
  builder : RawDataPacketBuilder

inductive SenderPhase where
  | head
  | readFirst
  | allocate (firstFrame : ValidatedSourceFrameView)
  | batch (packet : OpenPacket)
  | readNext (packet : OpenPacket)
  | finish (packet : OpenPacket)
  | exited

inductive SenderEvent where
  | poll (stopRequested : Bool)
  | read (result : ReadResult)
  | alloc (mbuf : Option FreshMbuf)
  | transmit (enqueued : Bool)

/-- A packet handed to TX: its canonical view, its mbuf and the frames that were
copied into it. -/
structure BuiltPacket where
  canonical : CanonicalDataPacketView
  mbuf : Mbuf
  records : List (List UInt8)

/-- What an observer of the loop writes down.  Admitted frames and allocated
mbufs are numbered in order; `first`, `carried` and `inHand` are the numbers of
the frames in `first_frame` and `carry_frame` and of the mbuf in `mbuf`. -/
structure SenderLog where
  admitted : List (List UInt8) := []
  lost : List Nat := []
  records : List (List UInt8) := []
  built : List BuiltPacket := []
  allocated : Nat := 0
  sent : List Nat := []
  freed : List Nat := []
  first : Nat := 0
  carried : Nat := 0
  inHand : Nat := 0

structure SenderLoop where
  phase : SenderPhase
  reader : SenderShmReader
  carryFrame : Option ValidatedSourceFrameView
  stopping : Bool
  nextDataSeq : UInt64
  dataCounters : SenderDataCounters
  err : Int
  log : SenderLog

structure SenderSetup where
  rte : Rte
  dst : PreparedDestination
  batchingEnabled : Bool

namespace SenderLoop

variable (profile : Profile) (setup : SenderSetup)

def start (liveEdge : UInt64) : SenderLoop where
  phase := .head
  reader := .attached profile liveEdge
  carryFrame := none
  stopping := false
  nextDataSeq := 0
  dataCounters := {}
  err := 0
  log := {}

/-- The bytes a view shows: those the reader's buffer holds now. -/
def bytes (state : SenderLoop) (view : ValidatedSourceFrameView) : List UInt8 :=
  slice state.reader.buffer 0 view.frameSize.toNat

def enter (state : SenderLoop) (stopRequested : Bool) : SenderLoop :=
  let stopping := state.stopping || stopRequested
  match state.carryFrame with
  | none =>
      if stopping then { state with stopping := stopping, phase := .exited }
      else { state with stopping := stopping, phase := .readFirst }
  | some firstFrame => { state with
      stopping := stopping
      carryFrame := none
      phase := .allocate firstFrame
      log := { state.log with first := state.log.carried } }

def offered (state : SenderLoop) (reader : SenderShmReader)
    (view : ValidatedSourceFrameView) : SenderLoop :=
  { state with
    reader := reader
    dataCounters := { state.dataCounters with
      framesOfferedToPacketization :=
        state.dataCounters.framesOfferedToPacketization + 1 }
    log := { state.log with
      admitted := state.log.admitted ++ [slice reader.buffer 0 view.frameSize.toNat] } }

def offer (state : SenderLoop) (result : ReadResult) : SenderReaderResult × SenderLoop :=
  match state.reader.tryRead profile result with
  | (.ok view, reader) => (.ok view, state.offered reader view)
  | (answer, reader) => (answer, { state with reader := reader })

def readFirst (state : SenderLoop) (result : ReadResult) : SenderLoop :=
  match state.offer profile result with
  | (.ok firstFrame, next) => { next with
      phase := .allocate firstFrame
      log := { next.log with first := state.log.admitted.length } }
  | (_, next) => { next with phase := .head }

def allocate (state : SenderLoop) (firstFrame : ValidatedSourceFrameView)
    (allocated : Option FreshMbuf) : SenderLoop :=
  match allocated with
  | none => { state with
      phase := .head
      dataCounters := { state.dataCounters with
        mbufAllocFailures := state.dataCounters.mbufAllocFailures + 1 }
      log := { state.log with lost := state.log.lost ++ [state.log.first] } }
  | some fresh =>
      let log := { state.log with
        allocated := state.log.allocated + 1
        inHand := state.log.allocated }
      match tryReserveDataPacket setup.rte fresh.mbuf with
      | none => { state with
          phase := .exited
          err := 1
          log := { log with
            freed := log.freed ++ [log.inHand]
            lost := log.lost ++ [log.first] } }
      | some (output, mbuf) =>
          let packet : OpenPacket := {
            mbuf := mbuf
            canonicalOutput := output
            builder := .new (mbuf.buffer.drop output) dataPacketCanonicalCapacity
              state.nextDataSeq state.reader.buffer firstFrame }
          { state with
            phase := if setup.batchingEnabled then .batch packet else .finish packet
            log := { log with records := [state.bytes firstFrame] } }

def batch (state : SenderLoop) (packet : OpenPacket) (stopRequested : Bool) : SenderLoop :=
  if stopRequested then { state with stopping := true, phase := .finish packet }
  else { state with phase := .readNext packet }

def readNext (state : SenderLoop) (packet : OpenPacket) (result : ReadResult) : SenderLoop :=
  match state.offer profile result with
  | (.ok frame, next) =>
      let carry (packet : OpenPacket) : SenderLoop := { next with
        carryFrame := some frame
        phase := .finish packet
        log := { next.log with carried := state.log.admitted.length } }
      if frame.beginsAfterSourceGap then carry packet
      else
        match packet.builder.tryAppend next.reader.buffer frame with
        | (.ok, builder) => { next with
            phase := .batch { packet with builder := builder }
            log := { next.log with records := next.log.records ++ [next.bytes frame] } }
        | (.outputTooSmall, builder) => carry { packet with builder := builder }
  | (_, next) => { next with phase := .finish packet }

def finish (state : SenderLoop) (packet : OpenPacket) (enqueued : Bool) : SenderLoop :=
  let canonicalData := packet.builder.finalize
  let mbuf := finalizeDataPacket setup.rte
    (packet.mbuf.store packet.canonicalOutput canonicalData.data) setup.dst
    canonicalData.packetSize
  let dataCounters := { state.dataCounters with
    framesPacketized :=
      state.dataCounters.framesPacketized + canonicalData.recordCount.toUInt64
    dataPacketsBuilt := state.dataCounters.dataPacketsBuilt + 1
    dataPayloadBytes := state.dataCounters.dataPayloadBytes +
      (canonicalData.packetSize - RawDataPacketBuilder.dataHeaderSize.toUInt64)
    dataSequencesConsumed := state.dataCounters.dataSequencesConsumed + 1 }
  let built : BuiltPacket := {
    canonical := canonicalData
    mbuf := mbuf
    records := state.log.records }
  let log := { state.log with
    records := []
    built := state.log.built ++ [built] }
  let next := { state with nextDataSeq := state.nextDataSeq + 1, phase := .head }
  if enqueued then { next with
    dataCounters := { dataCounters with
      txPacketsEnqueued := dataCounters.txPacketsEnqueued + 1 }
    log := { log with sent := log.sent ++ [log.inHand] } }
  else { next with
    dataCounters := { dataCounters with
      txPacketsUnsent := dataCounters.txPacketsUnsent + 1 }
    log := { log with freed := log.freed ++ [log.inHand] } }

def step (state : SenderLoop) (event : SenderEvent) : Option SenderLoop :=
  match state.phase, event with
  | .head, .poll stopRequested => some (state.enter stopRequested)
  | .readFirst, .read result => some (state.readFirst profile result)
  | .allocate firstFrame, .alloc mbuf => some (state.allocate setup firstFrame mbuf)
  | .batch packet, .poll stopRequested => some (state.batch packet stopRequested)
  | .readNext packet, .read result => some (state.readNext profile packet result)
  | .finish packet, .transmit enqueued => some (state.finish setup packet enqueued)
  | _, _ => none

def Step (state : SenderLoop) (event : SenderEvent) (next : SenderLoop) : Prop :=
  state.step profile setup event = some next

/-- The ways the loop can move, one for each path through its body. -/
inductive Move : SenderLoop → SenderEvent → SenderLoop → Prop
  | leave {state : SenderLoop} {stopRequested : Bool} (phase : state.phase = .head)
      (empty : state.carryFrame = none)
      (stop : (state.stopping || stopRequested) = true) :
      Move state (.poll stopRequested) { state with stopping := true, phase := .exited }
  | pass {state : SenderLoop} {stopRequested : Bool} (phase : state.phase = .head)
      (empty : state.carryFrame = none)
      (go : (state.stopping || stopRequested) = false) :
      Move state (.poll stopRequested) { state with stopping := false, phase := .readFirst }
  | resume {state : SenderLoop} {stopRequested : Bool}
      {firstFrame : ValidatedSourceFrameView} (phase : state.phase = .head)
      (held : state.carryFrame = some firstFrame) :
      Move state (.poll stopRequested) { state with
        stopping := state.stopping || stopRequested
        carryFrame := none
        phase := .allocate firstFrame
        log := { state.log with first := state.log.carried } }
  | idle {state : SenderLoop} {result : ReadResult} (phase : state.phase = .readFirst)
      (notOk : ∀ view, (state.reader.tryRead profile result).1 ≠ .ok view) :
      Move state (.read result) { state with
        reader := (state.reader.tryRead profile result).2
        phase := .head }
  | take {state : SenderLoop} {result : ReadResult} {view : ValidatedSourceFrameView}
      {reader : SenderShmReader} (phase : state.phase = .readFirst)
      (ok : state.reader.tryRead profile result = (.ok view, reader)) :
      Move state (.read result) { state.offered reader view with
        phase := .allocate view
        log := { (state.offered reader view).log with first := state.log.admitted.length } }
  | starve {state : SenderLoop} {firstFrame : ValidatedSourceFrameView}
      (phase : state.phase = .allocate firstFrame) :
      Move state (.alloc none) (state.allocate setup firstFrame none)
  | refuse {state : SenderLoop} {firstFrame : ValidatedSourceFrameView} {fresh : FreshMbuf}
      (phase : state.phase = .allocate firstFrame)
      (reserve : tryReserveDataPacket setup.rte fresh.mbuf = none) :
      Move state (.alloc (some fresh)) { state with
        phase := .exited
        err := 1
        log := { state.log with
          allocated := state.log.allocated + 1
          inHand := state.log.allocated
          freed := state.log.freed ++ [state.log.allocated]
          lost := state.log.lost ++ [state.log.first] } }
  | reserve {state : SenderLoop} {firstFrame : ValidatedSourceFrameView} {fresh : FreshMbuf}
      {output : Nat} {mbuf : Mbuf} {packet : OpenPacket}
      (phase : state.phase = .allocate firstFrame)
      (reserve : tryReserveDataPacket setup.rte fresh.mbuf = some (output, mbuf))
      (opened : packet = ⟨mbuf, output, .new (mbuf.buffer.drop output)
        dataPacketCanonicalCapacity state.nextDataSeq state.reader.buffer firstFrame⟩) :
      Move state (.alloc (some fresh)) { state with
        phase := if setup.batchingEnabled then .batch packet else .finish packet
        log := { state.log with
          allocated := state.log.allocated + 1
          inHand := state.log.allocated
          records := [state.bytes firstFrame] } }
  | stop {state : SenderLoop} {packet : OpenPacket} (phase : state.phase = .batch packet) :
      Move state (.poll true) { state with stopping := true, phase := .finish packet }
  | more {state : SenderLoop} {packet : OpenPacket} (phase : state.phase = .batch packet) :
      Move state (.poll false) { state with phase := .readNext packet }
  | drain {state : SenderLoop} {packet : OpenPacket} {result : ReadResult}
      (phase : state.phase = .readNext packet)
      (notOk : ∀ view, (state.reader.tryRead profile result).1 ≠ .ok view) :
      Move state (.read result) { state with
        reader := (state.reader.tryRead profile result).2
        phase := .finish packet }
  | carry {state : SenderLoop} {packet : OpenPacket} {result : ReadResult}
      {view : ValidatedSourceFrameView} {reader : SenderShmReader}
      (phase : state.phase = .readNext packet)
      (ok : state.reader.tryRead profile result = (.ok view, reader))
      (blocked : view.beginsAfterSourceGap = true ∨
        (packet.builder.tryAppend reader.buffer view).1 = .outputTooSmall) :
      Move state (.read result) { state.offered reader view with
        carryFrame := some view
        phase := .finish packet
        log := { (state.offered reader view).log with carried := state.log.admitted.length } }
  | append {state : SenderLoop} {packet : OpenPacket} {result : ReadResult}
      {view : ValidatedSourceFrameView} {reader : SenderShmReader}
      {builder : RawDataPacketBuilder} (phase : state.phase = .readNext packet)
      (ok : state.reader.tryRead profile result = (.ok view, reader))
      (unflagged : view.beginsAfterSourceGap = false)
      (appended : packet.builder.tryAppend reader.buffer view = (.ok, builder)) :
      Move state (.read result) { state.offered reader view with
        phase := .batch { packet with builder := builder }
        log := { (state.offered reader view).log with
          records := state.log.records ++ [slice reader.buffer 0 view.frameSize.toNat] } }
  | complete {state : SenderLoop} {packet : OpenPacket} {enqueued : Bool}
      (phase : state.phase = .finish packet) :
      Move state (.transmit enqueued) (state.finish setup packet enqueued)

/-! What the end of an iteration leaves alone, and what it writes down. -/

section Finish

variable (state : SenderLoop) (packet : OpenPacket) (enqueued : Bool)

def builtPacket (state : SenderLoop) (packet : OpenPacket) : BuiltPacket where
  canonical := packet.builder.finalize
  mbuf := finalizeDataPacket setup.rte
    (packet.mbuf.store packet.canonicalOutput packet.builder.finalize.data) setup.dst
    packet.builder.finalize.packetSize
  records := state.log.records

@[simp] theorem finish_phase : (state.finish setup packet enqueued).phase = .head := by
  cases enqueued <;> rfl

@[simp] theorem finish_reader :
    (state.finish setup packet enqueued).reader = state.reader := by
  cases enqueued <;> rfl

@[simp] theorem finish_carryFrame :
    (state.finish setup packet enqueued).carryFrame = state.carryFrame := by
  cases enqueued <;> rfl

@[simp] theorem finish_nextDataSeq :
    (state.finish setup packet enqueued).nextDataSeq = state.nextDataSeq + 1 := by
  cases enqueued <;> rfl

@[simp] theorem finish_admitted :
    (state.finish setup packet enqueued).log.admitted = state.log.admitted := by
  cases enqueued <;> rfl

@[simp] theorem finish_lost :
    (state.finish setup packet enqueued).log.lost = state.log.lost := by
  cases enqueued <;> rfl

@[simp] theorem finish_carried :
    (state.finish setup packet enqueued).log.carried = state.log.carried := by
  cases enqueued <;> rfl

@[simp] theorem finish_records :
    (state.finish setup packet enqueued).log.records = [] := by
  cases enqueued <;> rfl

@[simp] theorem finish_built :
    (state.finish setup packet enqueued).log.built =
      state.log.built ++ [state.builtPacket setup packet] := by
  cases enqueued <;> rfl

theorem mem_built_finish {other : BuiltPacket}
    (member : other ∈ (state.finish setup packet enqueued).log.built) :
    other ∈ state.log.built ∨ other = state.builtPacket setup packet := by
  rw [finish_built] at member
  exact (List.mem_append.mp member).imp_right List.mem_singleton.mp

end Finish

section Moves

variable {profile : Profile} {setup : SenderSetup} {state next : SenderLoop}

theorem offer_cases (state : SenderLoop) (result : ReadResult) :
    (∃ view reader, state.reader.tryRead profile result = (.ok view, reader) ∧
      state.offer profile result = (.ok view, state.offered reader view)) ∨
    ((∀ view, (state.reader.tryRead profile result).1 ≠ .ok view) ∧
      state.offer profile result = ((state.reader.tryRead profile result).1,
        { state with reader := (state.reader.tryRead profile result).2 })) := by
  unfold offer
  rcases state.reader.tryRead profile result with ⟨view | _ | _ | _, reader⟩
  · exact .inl ⟨view, reader, rfl, rfl⟩
  all_goals exact .inr ⟨nofun, rfl⟩

theorem move_enter {stopRequested : Bool} (phase : state.phase = .head) :
    Move profile setup state (.poll stopRequested) (state.enter stopRequested) := by
  unfold enter
  cases held : state.carryFrame with
  | none =>
      dsimp only
      split
      · rename_i stop
        rw [stop]
        have leave : Move profile setup state (.poll stopRequested) _ :=
          .leave phase held stop
        rwa [held] at leave
      · rename_i go
        rw [Bool.not_eq_true] at go
        rw [go]
        have pass : Move profile setup state (.poll stopRequested) _ := .pass phase held go
        rwa [held] at pass
  | some firstFrame =>
      exact .resume phase held

theorem move_readFirst {result : ReadResult} (phase : state.phase = .readFirst) :
    Move profile setup state (.read result) (state.readFirst profile result) := by
  unfold readFirst
  rcases @offer_cases profile state result with
    ⟨view, reader, ok, offered⟩ | ⟨notOk, offered⟩
  · rw [offered]
    exact .take phase ok
  · rw [offered]
    split
    · rename_i view _ same
      exact absurd (congrArg Prod.fst same) (notOk view)
    · rename_i same
      rw [Prod.mk.injEq] at same
      rw [← same.2]
      exact .idle phase notOk

theorem move_allocate {firstFrame : ValidatedSourceFrameView} {allocated : Option FreshMbuf}
    (phase : state.phase = .allocate firstFrame) :
    Move profile setup state (.alloc allocated)
      (state.allocate setup firstFrame allocated) := by
  cases allocated with
  | none => exact .starve phase
  | some fresh =>
      simp only [allocate]
      split
      · rename_i reserve
        exact .refuse phase reserve
      · rename_i output mbuf reserve
        exact .reserve phase reserve rfl

theorem move_batch {packet : OpenPacket} {stopRequested : Bool}
    (phase : state.phase = .batch packet) :
    Move profile setup state (.poll stopRequested) (state.batch packet stopRequested) := by
  cases stopRequested with
  | true => exact .stop phase
  | false => exact .more phase

theorem move_readNext {packet : OpenPacket} {result : ReadResult}
    (phase : state.phase = .readNext packet) :
    Move profile setup state (.read result) (state.readNext profile packet result) := by
  unfold readNext
  rcases @offer_cases profile state result with
    ⟨view, reader, ok, offered⟩ | ⟨notOk, offered⟩
  · rw [offered]
    dsimp only
    split
    · rename_i flagged
      exact .carry phase ok (.inl flagged)
    · rename_i unflagged
      rw [Bool.not_eq_true] at unflagged
      split
      · rename_i builder appended
        exact .append phase ok unflagged appended
      · rename_i builder refused
        have kept : builder = packet.builder := by
          have same := RawDataPacketBuilder.tryAppend_tooSmall (congrArg Prod.fst refused)
          rwa [refused] at same
        subst kept
        exact .carry phase ok (.inr (congrArg Prod.fst refused))
  · rw [offered]
    split
    · rename_i view _ same
      exact absurd (congrArg Prod.fst same) (notOk view)
    · rename_i same
      rw [Prod.mk.injEq] at same
      rw [← same.2]
      exact .drain phase notOk

theorem move_of_step {event : SenderEvent} (stepped : Step profile setup state event next) :
    Move profile setup state event next := by
  unfold Step step at stepped
  split at stepped
  all_goals rename_i phase
  all_goals cases stepped
  · exact move_enter phase
  · exact move_readFirst phase
  · exact move_allocate phase
  · exact move_batch phase
  · exact move_readNext phase
  · exact .complete phase

end Moves

end SenderLoop

end Lldt.Transport
