import Lldt.Sender.Stream

namespace Lldt.Transport

open Lldt.Data.Selection
open Lldt.Data.Transition
open Lldt.Dpdk
open Lldt.Msg

/-! The batching loop always ends, and once `stop_requested` stays set the sender
packs what it has read and leaves. -/

variable {profile : Profile}

/-- The flag stays set: every look at it finds it set. -/
def SenderEvent.keepsStop : SenderEvent → Bool
  | .poll stopRequested => stopRequested
  | _ => true

def SenderEvent.isRead : SenderEvent → Bool
  | .read _ => true
  | _ => false

namespace SenderPhase

def packet : SenderPhase → Option OpenPacket
  | .batch packet | .readNext packet | .finish packet => some packet
  | _ => none

def isBatching : SenderPhase → Bool
  | .batch _ | .readNext _ => true
  | _ => false

/-- The call the loop makes next, whatever its outcome. -/
def Awaits : SenderPhase → SenderEvent → Prop
  | .head, .poll _ | .batch _, .poll _ => True
  | .readFirst, .read _ | .readNext _, .read _ => True
  | .allocate _, .alloc _ | .finish _, .transmit _ => True
  | _, _ => False

theorem exists_awaits {phase : SenderPhase} (running : phase ≠ .exited) :
    ∃ event : SenderEvent, event.keepsStop = true ∧ phase.Awaits event := by
  cases phase with
  | head | batch packet => exact ⟨.poll true, rfl, trivial⟩
  | readFirst | readNext packet => exact ⟨.read .kEmpty, rfl, trivial⟩
  | allocate firstFrame => exact ⟨.alloc none, rfl, trivial⟩
  | finish packet => exact ⟨.transmit true, rfl, trivial⟩
  | exited => contradiction

end SenderPhase

/-- A packet has room for sixty of the smallest frames. -/
theorem OpenPacket.Filled.records_le {packet : OpenPacket} {dataSeq : UInt64}
    {records : List (List UInt8)} {frames : List (ValidFrame profile)}
    (filled : packet.Filled dataSeq records frames) :
    packet.builder.recordCount.toNat = records.length ∧ records.length ≤ 60 := by
  have count := filled.carries.recordCount
  have fits := filled.carries.fits
  have least : 24 * frames.length ≤ _ := length_le_payload frames
  have capacity : dataPacketCanonicalCapacity.toNat = 1472 := rfl
  have header := RawDataPacketBuilder.toNat_dataHeaderSize
  have same : records.length = frames.length := by rw [filled.records, List.length_map]
  omega

namespace SenderLoop

variable {setup : SenderSetup} {state next : SenderLoop} {event : SenderEvent}

theorem Stream.filled {rte : Rte} {packet : OpenPacket}
    (stream : state.Stream profile rte) (held : state.phase.packet = some packet) :
    ∃ frames : List (ValidFrame profile),
      packet.Filled state.nextDataSeq state.log.records frames := by
  have placed := stream.placed
  unfold Placed at placed
  cases phase : state.phase with
  | batch opened | readNext opened =>
      rw [phase] at placed held
      cases held
      exact placed.2.1
  | finish opened =>
      rw [phase] at placed held
      cases held
      exact placed.1
  | _ =>
      rw [phase] at held
      contradiction

theorem step_iff_awaits :
    (∃ next, Step profile setup state event next) ↔ state.phase.Awaits event := by
  unfold Step step
  cases phase : state.phase <;> cases event <;> simp [SenderPhase.Awaits]

/-! Each record takes at least a header's room, so the batching loop runs out. -/

def batchBound (state : SenderLoop) : Nat :=
  match state.phase with
  | .batch _ => 2 * (60 - state.log.records.length) + 2
  | .readNext _ => 2 * (60 - state.log.records.length) + 1
  | _ => 0

theorem Stream.batchBound_le {rte : Rte} (stream : state.Stream profile rte) :
    state.batchBound ≤ 120 := by
  unfold batchBound
  cases phase : state.phase with
  | batch packet | readNext packet =>
      obtain ⟨frames, filled⟩ := @stream.filled _ _ _ packet (by rw [phase]; rfl)
      have some := List.length_pos_iff.mpr filled.nonempty
      have same := congrArg List.length filled.records
      rw [List.length_map] at same
      dsimp only
      omega
  | _ => exact Nat.zero_le _

theorem Move.batchBound_lt (documented : setup.rte.Documented)
    (stream : state.Stream profile setup.rte) (batching : state.phase.isBatching = true)
    (move : Move profile setup state event next) : next.batchBound < state.batchBound := by
  have after := stream.move documented move
  cases move with
  | stop phase | more phase | drain phase _ | carry phase _ _ =>
      simp only [batchBound, phase]
      omega
  | append phase ok unflagged appended =>
      obtain ⟨frames, filled⟩ := after.filled rfl
      have room := filled.records_le.2
      simp only [batchBound, phase, List.length_append, List.length_singleton] at room ⊢
      omega
  | leave phase _ _ | pass phase _ _ | resume phase _ | idle phase _ | take phase _
  | starve phase | refuse phase _ | reserve phase _ _ | complete phase =>
      rw [phase] at batching
      contradiction

/-! What the loop can still do once the flag stays set. -/

structure Remaining where
  steps : Nat
  reads : Nat
  packets : Nat

def remaining (state : SenderLoop) : Remaining :=
  match state.phase, state.carryFrame with
  | .exited, _ => ⟨0, 0, 0⟩
  | .head, none => ⟨1, 0, 0⟩
  | .finish _, none => ⟨2, 0, 1⟩
  | .batch _, _ => ⟨3, 0, 1⟩
  | .allocate _, _ => ⟨4, 0, 1⟩
  | .head, some _ => ⟨5, 0, 1⟩
  | .readFirst, _ => ⟨5, 1, 1⟩
  | .finish _, some _ => ⟨6, 0, 2⟩
  -- the read may still bring a frame that has to go into a packet of its own
  | .readNext _, _ => ⟨7, 1, 2⟩

theorem remaining_le (state : SenderLoop) :
    state.remaining.steps ≤ 7 ∧ state.remaining.reads ≤ 1 ∧ state.remaining.packets ≤ 2 := by
  unfold remaining
  split <;> decide

structure Spends (state : SenderLoop) (event : SenderEvent) (next : SenderLoop) : Prop where
  steps : next.remaining.steps + 1 ≤ state.remaining.steps
  reads : next.remaining.reads + (if event.isRead then 1 else 0) ≤ state.remaining.reads
  packets : next.log.built.length + next.remaining.packets ≤
    state.log.built.length + state.remaining.packets

theorem Stream.carryFrame_eq_none {rte : Rte} (stream : state.Stream profile rte)
    (head : state.phase ≠ .head) (finish : ∀ packet, state.phase ≠ .finish packet) :
    state.carryFrame = none := by
  have placed := stream.placed
  unfold Placed at placed
  cases phase : state.phase with
  | head => exact absurd phase head
  | finish packet => exact absurd phase (finish packet)
  | _ =>
      rw [phase] at placed
      exact placed.1

theorem Move.spends (stream : state.Stream profile setup.rte)
    (stopped : event.keepsStop = true) (move : Move profile setup state event next) :
    state.Spends event next := by
  have empty := stream.carryFrame_eq_none
  cases move with
  | pass phase none go =>
      rw [SenderEvent.keepsStop] at stopped
      rw [stopped, Bool.or_true] at go
      contradiction
  | more phase =>
      contradiction
  | leave phase held stop | resume phase held =>
      constructor <;> simp [remaining, phase, held, SenderEvent.isRead]
  | idle phase notOk | take phase ok | starve phase | refuse phase reserve | stop phase
  | drain phase notOk | carry phase ok blocked | append phase ok unflagged appended =>
      have none : state.carryFrame = none := empty (by simp [phase]) (by simp [phase])
      constructor <;> simp [remaining, phase, none, offered, allocate, SenderEvent.isRead]
  | reserve phase reserve opened =>
      have none : state.carryFrame = none := empty (by simp [phase]) (by simp [phase])
      cases batching : setup.batchingEnabled with
      | true | false =>
          constructor <;> simp [remaining, phase, none, SenderEvent.isRead]
  | complete phase =>
      cases held : state.carryFrame with
      | none | some _ =>
          constructor <;>
            simp [remaining, phase, held, SenderEvent.isRead, Nat.add_assoc]

section Runs

variable {liveEdge : UInt64} {events : List SenderEvent}

theorem built_records_le (documented : setup.rte.Documented)
    (run : Run (Step profile setup) (start profile liveEdge) events state) :
    ∀ packet ∈ state.log.built, packet.records.length ≤ 60 := by
  induction run with
  | nil => exact nofun
  | snoc run step ih =>
      cases move_of_step step with
      | complete phase =>
          obtain ⟨frames, filled⟩ :=
            (stream_of_run documented run).filled (by rw [phase]; rfl)
          intro packet member
          rcases mem_built_finish _ _ _ _ member with earlier | rfl
          · exact ih packet earlier
          · exact filled.records_le.2
      | _ => exact ih

/-- The loop left nothing behind: a frame that was admitted is in a finished packet,
or it is one of those that a failed allocation or reserve cost. -/
structure Complete (rte : Rte) (events : List SenderEvent) (state : SenderLoop) : Prop where
  carryFrame : state.carryFrame = none
  finished : state.finished = without state.log.admitted state.log.lost
  lost : state.log.lost.length = events.countP (SenderEvent.fails rte)

theorem complete_of_exited (documented : setup.rte.Documented)
    (run : Run (Step profile setup) (start profile liveEdge) events state)
    (exited : state.phase = .exited) : state.Complete setup.rte events := by
  have placed := (stream_of_run documented run).placed
  simp only [Placed, exited] at placed
  exact ⟨placed.1, placed.2.2.symm, lost_length_of_run run⟩

theorem Stream.batching_length_le (documented : setup.rte.Documented)
    (stream : state.Stream profile setup.rte)
    (run : Run (Guarded (fun state _ => state.phase.isBatching = true) (Step profile setup))
      state events next) : events.length ≤ 120 := by
  have spent := run.budget batchBound (fun _ => true)
    (fun kept step => kept.move documented (move_of_step step.2))
    (fun kept step => (move_of_step step.2).batchBound_lt documented kept step.1) stream
  have enough := stream.batchBound_le
  rw [List.countP_true] at spent
  omega

theorem Stream.shutdown_le (documented : setup.rte.Documented)
    (stream : state.Stream profile setup.rte)
    (run : Run (Guarded (fun _ event => event.keepsStop = true) (Step profile setup))
      state events next) :
    events.length ≤ 7 ∧ events.countP SenderEvent.isRead ≤ 1 ∧
      next.log.built.length ≤ state.log.built.length + 2 := by
  have kept : ∀ {state event next}, Stream profile setup.rte state →
      Guarded (fun _ event => event.keepsStop = true) (Step profile setup) state event next →
      Stream profile setup.rte next :=
    fun kept step => kept.move documented (move_of_step step.2)
  have spends : ∀ {state event next}, Stream profile setup.rte state →
      Guarded (fun _ event => event.keepsStop = true) (Step profile setup) state event next →
      Spends state event next :=
    fun kept step => (move_of_step step.2).spends kept step.1
  have steps := run.budget (fun state : SenderLoop => state.remaining.steps) (fun _ => true) @kept
    (fun kept step => (spends kept step).steps) stream
  have reads := run.budget (fun state : SenderLoop => state.remaining.reads) SenderEvent.isRead
    @kept (fun kept step => (spends kept step).reads) stream
  have packets := run.budget
    (fun state : SenderLoop => state.log.built.length + state.remaining.packets)
    (fun _ => false) @kept
    (fun kept step => (spends kept step).packets) stream
  obtain ⟨mostSteps, mostReads, mostPackets⟩ := state.remaining_le
  rw [List.countP_true] at steps
  rw [List.countP_false] at packets
  omega

end Runs

/-- A packet has at most sixty records and the batching loop ends.  From whatever
point of the loop the stop flag stays set, the loop reads at most once more, finishes
at most two packets more and leaves, with every frame it read in a packet or lost
with the mbuf for it. -/
theorem bounded_shutdown {setup : SenderSetup} (documented : setup.rte.Documented)
    {liveEdge : UInt64} {events : List SenderEvent} {state : SenderLoop}
    (run : Run (Step profile setup) (start profile liveEdge) events state) :
    (∀ packet, state.phase.packet = some packet → packet.builder.recordCount.toNat ≤ 60) ∧
    (∀ packet ∈ state.log.built, packet.canonical.recordCount.toNat ≤ 60) ∧
    (∀ inner next,
      Run (Guarded (fun state _ => state.phase.isBatching = true) (Step profile setup))
        state inner next →
      inner.length ≤ 120 ∧
      ∀ event, next.phase.Awaits event → ∃ after, Step profile setup next event after) ∧
    (∀ later next,
      Run (Guarded (fun _ event => event.keepsStop = true) (Step profile setup))
        state later next →
      later.countP SenderEvent.isRead ≤ 1 ∧
      next.log.built.length ≤ state.log.built.length + 2 ∧
      later.length ≤ 7 ∧
      (∀ event, next.phase.Awaits event → ∃ after, Step profile setup next event after) ∧
      (next.phase ≠ .exited → ∃ event, event.keepsStop = true ∧ next.phase.Awaits event) ∧
      (next.phase = .exited → next.Complete setup.rte (events ++ later))) := by
  have stream := stream_of_run documented run
  refine ⟨?_, ?_, ?_, ?_⟩
  · intro packet held
    obtain ⟨frames, filled⟩ := stream.filled held
    have most := filled.records_le
    omega
  · intro packet member
    obtain ⟨frames, sound⟩ := stream.built packet member
    have same := congrArg List.length sound.records
    rw [List.length_map, ← sound.encodes.recordCount] at same
    exact same ▸ built_records_le documented run packet member
  · intro inner next inside
    exact ⟨stream.batching_length_le documented inside, fun _ => step_iff_awaits.mpr⟩
  · intro later next stopped
    obtain ⟨steps, reads, packets⟩ := stream.shutdown_le documented stopped
    exact ⟨reads, packets, steps, fun _ => step_iff_awaits.mpr, SenderPhase.exists_awaits,
      complete_of_exited documented (run.trans stopped.of_guarded)⟩

theorem bounded_shutdown_batching :
    ∃ (state next : SenderLoop) (packet : OpenPacket), state.phase.packet = some packet ∧
      packet.builder.recordCount.toNat ≤ 60 ∧ next.phase = .exited ∧
      next.log.built.length ≤ state.log.built.length + 2 ∧ next.carryFrame = none := by
  have executed : ([.poll false, tradeRead 1, .alloc (some freshMbuf), .poll false].foldlM
      (step .compact (littleEndianSetup true)) (start .compact 0)).bind (fun state =>
        ([tradeRead 2, .poll true, .transmit true, .poll true].foldlM
          (fun (state : SenderLoop) (event : SenderEvent) =>
            if event.keepsStop then state.step .compact (littleEndianSetup true) event
            else none) state).map
          fun next : SenderLoop => (state.phase.packet.isSome, next.hasExited)) =
      some (true, true) := by
    decide +kernel
  obtain ⟨state, reached, executed⟩ := Option.bind_eq_some_iff.mp executed
  obtain ⟨next, drained, observed⟩ := Option.map_eq_some_iff.mp executed
  obtain ⟨held, exited⟩ := by simpa only [Prod.mk.injEq] using observed
  obtain ⟨packet, held⟩ := Option.isSome_iff_exists.mp held
  have phase := exited_of_hasExited exited
  obtain ⟨records, -, -, shutdown⟩ :=
    bounded_shutdown Rte.littleEndianHost_documented (Run.of_foldlM reached)
  obtain ⟨-, built, -, -, -, complete⟩ := shutdown _ next (Run.guarded_of_foldlM drained)
  exact ⟨state, next, packet, held, records packet held, phase, built,
    (complete phase).carryFrame⟩

end SenderLoop

end Lldt.Transport
