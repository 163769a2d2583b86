import Lldt.Pipeline.Stages
import Lldt.Pipeline.System

namespace Lldt.Pipeline

open Lldt.Data.Bytes
open Lldt.Data.RetainedLog
open Lldt.Data.Transition
open Lldt.Dpdk
open Lldt.Harness
open Lldt.Msg
open Lldt.Shm
open Lldt.Transport

/-! Order, uniqueness and integrity from the producer to the consumer. -/

/-! What the producer's numbering says about the frames it has produced. -/

section Numbering

variable {profile : Profile} {produced : List (ValidFrame profile)}

theorem seqId_toNat (numbered : ∀ number frame, produced[number]? = some frame →
    frame.seqId = UInt64.ofNat (number + 1)) (fewer : produced.length < 2 ^ 64 - 1)
    {number : Nat} {frame : ValidFrame profile} (found : produced[number]? = some frame) :
    frame.seqId.toNat = number + 1 := by
  obtain ⟨inside, -⟩ := List.getElem?_eq_some_iff.mp found
  rw [numbered number frame found]
  exact UInt64.toNat_ofNat_of_lt' (show _ < 2 ^ 64 by omega)

theorem increasing_of_numbered (numbered : ∀ number frame, produced[number]? = some frame →
    frame.seqId = UInt64.ofNat (number + 1)) (fewer : produced.length < 2 ^ 64 - 1) :
    ((produced.map fun frame => frame.bytes).map fun bytes => loadU64 bytes 0).Pairwise
      (· < ·) := by
  rw [List.map_map, List.pairwise_map, List.pairwise_iff_getElem]
  intro first second insideFirst insideSecond less
  simp only [Function.comp_apply, ← ValidFrame.seqId_eq]
  rw [UInt64.lt_iff_toNat_lt,
    seqId_toNat numbered fewer (List.getElem?_eq_getElem insideFirst),
    seqId_toNat numbered fewer (List.getElem?_eq_getElem insideSecond)]
  omega

theorem eq_of_seqId (numbered : ∀ number frame, produced[number]? = some frame →
    frame.seqId = UInt64.ofNat (number + 1)) (fewer : produced.length < 2 ^ 64 - 1)
    {first second : ValidFrame profile} (memberFirst : first ∈ produced)
    (memberSecond : second ∈ produced) (same : first.seqId = second.seqId) :
    first = second := by
  obtain ⟨left, foundFirst⟩ := List.mem_iff_getElem?.mp memberFirst
  obtain ⟨right, foundSecond⟩ := List.mem_iff_getElem?.mp memberSecond
  have leftNumber := seqId_toNat numbered fewer foundFirst
  have rightNumber := seqId_toNat numbered fewer foundSecond
  rw [same, rightNumber] at leftNumber
  have numbers : right = left := by omega
  rw [numbers, foundFirst] at foundSecond
  exact Option.some.inj foundSecond

/-- A consumer that has read some of the produced frames in order, and recorded the
sequence id of each, has them in order and whole. -/
theorem delivered_of_sublist (numbered : ∀ number frame, produced[number]? = some frame →
    frame.seqId = UInt64.ofNat (number + 1)) (fewer : produced.length < 2 ^ 64 - 1)
    {consumer : ConsumerLoop}
    (read : consumer.frames.Sublist (produced.map fun frame => frame.bytes))
    (recorded : consumer.recorded.map Sample.seqId =
      consumer.frames.map fun frame => loadU64 frame 0) :
    (consumer.recorded.map Sample.seqId).Pairwise (· < ·) ∧
    consumer.frames.length = consumer.recorded.length ∧
    ∀ sample bytes, (sample, bytes) ∈ consumer.recorded.zip consumer.frames →
      (∃ frame ∈ produced, frame.seqId = sample.seqId) ∧
      ∀ frame ∈ produced, frame.seqId = sample.seqId → bytes = frame.bytes := by
  refine ⟨?_, ?_, ?_⟩
  · rw [recorded]
    exact (increasing_of_numbered numbered fewer).sublist (read.map _)
  · have lengths := congrArg List.length recorded
    rw [List.length_map, List.length_map] at lengths
    exact lengths.symm
  · intro sample bytes member
    obtain ⟨number, found⟩ := List.mem_iff_getElem?.mp member
    obtain ⟨sampled, framed⟩ := List.getElem?_zip_eq_some.mp found
    have seqId : sample.seqId = loadU64 bytes 0 := by
      have same := congrArg (·[number]?) recorded
      simp only [List.getElem?_map, sampled, framed, Option.map_some, Option.some.injEq] at same
      exact same
    obtain ⟨frame, made, rfl⟩ := List.mem_map.mp (read.subset (List.mem_of_getElem? framed))
    rw [← frame.seqId_eq] at seqId
    refine ⟨⟨frame, made, seqId.symm⟩, ?_⟩
    intro other alsoMade same
    rw [eq_of_seqId numbered fewer alsoMade made (same.trans seqId)]

end Numbering

namespace System

variable {profile : Profile} {sourceSlots destinationSlots : SlotCount}
  {deployment : Deployment} {destinationMemory : Ring destinationSlots}

section State

variable (state : System profile sourceSlots destinationSlots)

def history : List (List UInt8) := state.produced.map fun frame => frame.bytes

def published : List (List UInt8) := state.receiver.loop.writer.published

/-- The sender.  One that has not started has done as little as one in front of
its loop. -/
def sending : SenderLoop := state.sender.getD (.start profile 0)

end State

/-- What holds between the stages: each follows the one before it. -/
structure Inv (deployment : Deployment) (destinationMemory : Ring destinationSlots)
    (state : System profile sourceSlots destinationSlots) : Prop where
  source : state.source.Holds state.history
  numbered : ∀ number frame, state.produced[number]? = some frame →
    frame.seqId = UInt64.ofNat (number + 1)
  stream : state.sending.Stream profile deployment.setup.rte
  follows : Follows state.history state.sending.reader.readIndex.toNat
    state.sending.log.admitted
  network : ∀ mbuf ∈ state.network, ∃ packet ∈ state.sending.log.built, packet.mbuf = mbuf
  bursts : ∀ burst ∈ state.receiver.bursts, ∀ mbuf ∈ burst.items,
    Deliverable deployment.setup.rte state.sending.log.built mbuf
  intact : state.receiver.Intact profile deployment.setup.rte
  drained : state.receiver.drained profile deployment.setup.rte =
    (ReceiverLoop.start (.attached destinationMemory)).run deployment.setup.rte
      (ReceiverShmWriter.write profile) state.receiver.bursts
  destination : state.destination.Holds state.published
  consumer : ∀ consumer ∈ state.consumer, consumer.Reads state.published

theorem inv_start (sourceMemory : Ring sourceSlots) (destinationMemory : Ring destinationSlots) :
    (start sourceMemory destinationMemory : System profile _ _).Inv deployment
      destinationMemory where
  source := Ring.holds_attach sourceMemory
  numbered := nofun
  stream := SenderLoop.stream_start _ 0
  follows := .start (Nat.zero_le _)
  network := nofun
  bursts := nofun
  intact := ⟨nofun, nofun⟩
  drained := rfl
  destination := Ring.holds_attach destinationMemory
  consumer := nofun

variable {state next : System profile sourceSlots destinationSlots}

/-! The stages in a row. -/

theorem sending_eq {sender : SenderLoop} (present : state.sender = some sender) :
    state.sending = sender := by
  rw [sending, present]
  rfl

theorem length_history (state : System profile sourceSlots destinationSlots) :
    state.history.length = state.produced.length := List.length_map _

theorem valid_history (state : System profile sourceSlots destinationSlots) :
    ∀ bytes ∈ state.history, ∃ frame : ValidFrame profile, frame.bytes = bytes := by
  intro bytes member
  obtain ⟨frame, -, same⟩ := List.mem_map.mp member
  exact ⟨frame, same⟩

theorem Inv.finished_sublist (inv : state.Inv deployment destinationMemory) :
    state.sending.finished.Sublist state.history :=
  inv.stream.finished_sublist.trans inv.follows.sublist

theorem Inv.built_lt (inv : state.Inv deployment destinationMemory)
    (fewer : state.produced.length < 2 ^ 64 - 1) :
    state.sending.log.built.length < 2 ^ 64 - 1 := by
  have packets := inv.stream.length_built_le
  have frames := inv.finished_sublist.length_le
  rw [state.length_history] at frames
  omega

theorem Inv.published_sublist (inv : state.Inv deployment destinationMemory)
    (fewer : state.produced.length < 2 ^ 64 - 1) :
    state.published.Sublist state.history :=
  (inv.stream.published_sublist (inv.built_lt fewer) inv.drained inv.bursts).trans
    inv.finished_sublist

theorem Inv.published_lt (inv : state.Inv deployment destinationMemory)
    (fewer : state.produced.length < 2 ^ 64 - 1) : state.published.length < 2 ^ 64 - 1 := by
  have frames := (inv.published_sublist fewer).length_le
  rw [state.length_history] at frames
  omega

/-! Each party's steps. -/

theorem Inv.produce (inv : state.Inv deployment destinationMemory) {frame : ValidFrame profile}
    (numbered : frame.seqId = UInt64.ofNat (state.produced.length + 1))
    (fewer : state.produced.length + 1 < 2 ^ 64 - 1) :
    ({ state with
      source := state.source.publish frame.bytes frame.len
      produced := state.produced ++ [frame] } : System profile _ _).Inv deployment
        destinationMemory := by
  obtain ⟨source, numbers, stream, follows, network, bursts, intact, drained, destination,
    consumer⟩ := inv
  have grown : (state.produced ++ [frame]).map (fun frame => frame.bytes) =
      state.history ++ [frame.bytes] := List.map_append
  refine ⟨?_, ?_, stream, ?_, network, bursts, intact, drained, destination, consumer⟩
  · rw [history, grown]
    exact source.publish frame.toNat_len (by rw [length_history]; omega)
  · intro number other found
    rcases getElem?_append_singleton_cases found with earlier | ⟨rfl, rfl⟩
    · exact numbers number other earlier
    · exact numbered
  · rw [history, grown]
    exact follows.append [frame.bytes]

theorem Inv.startSender (inv : state.Inv deployment destinationMemory)
    (absent : state.sender = none) :
    ({ state with sender := some (.start profile state.source.liveEdge) } :
      System profile _ _).Inv deployment destinationMemory := by
  obtain ⟨source, numbered, stream, follows, network, bursts, intact, drained, destination,
    consumer⟩ := inv
  rw [sending, absent] at network bursts
  exact ⟨source, numbered, SenderLoop.stream_start _ _, .start (Nat.le_of_eq source.edge),
    network, bursts, intact, drained, destination, consumer⟩

section Sender

variable {sender after : SenderLoop} {event : SenderEvent} {setup : SenderSetup}
  {source : Ring sourceSlots} {log : List (List UInt8)}

theorem built_grows (move : SenderLoop.Move profile setup sender event after) :
    sender.log.built <+: after.log.built := by
  cases move with
  | complete phase =>
      rw [SenderLoop.finish_built]
      exact List.prefix_append _ _
  | starve phase => exact List.prefix_refl _
  | _ => exact List.prefix_refl _

theorem mem_built_of_transmitted (move : SenderLoop.Move profile setup sender event after) :
    ∀ mbuf ∈ transmitted setup sender event, ∃ packet ∈ after.log.built, packet.mbuf = mbuf := by
  intro mbuf member
  unfold transmitted at member
  split at member
  · rename_i packet phase
    cases move with
    | complete finishing =>
        rw [phase] at finishing
        cases finishing
        rw [List.mem_singleton.mp member, SenderLoop.finish_built]
        exact ⟨_, List.mem_append_right _ (List.mem_singleton_self _), rfl⟩
  · contradiction

theorem follows_of_move (follows : Follows log sender.reader.readIndex.toNat sender.log.admitted)
    (holds : source.Holds log) (room : log.length < 2 ^ 64 - 1)
    (valid : ∀ bytes ∈ log, ∃ frame : ValidFrame profile, frame.bytes = bytes)
    (answered : Answered source sender event)
    (move : SenderLoop.Move profile setup sender event after) :
    Follows log after.reader.readIndex.toNat after.log.admitted := by
  have readings := move.readings
  cases event with
  | read result =>
      cases answered
      have followed := follows_admitNext follows holds room valid
      rw [show (SenderLoop.admitNext profile (sender.reader, sender.log.admitted)
        (source.read sender.reader.readIndex)) = (after.reader, after.log.admitted)
        from readings.symm] at followed
      exact followed
  | poll _ | alloc _ | transmit _ =>
      obtain ⟨reader, admitted⟩ := Prod.mk.inj readings
      rw [reader, admitted]
      exact follows

end Sender

theorem Inv.sender {sender after : SenderLoop} {event : SenderEvent}
    (inv : state.Inv deployment destinationMemory)
    (documented : deployment.setup.rte.Documented) (present : state.sender = some sender)
    (fewer : state.produced.length < 2 ^ 64 - 1) (answered : Answered state.source sender event)
    (stepped : SenderLoop.Step profile deployment.setup sender event after) :
    ({ state with
      sender := some after
      network := state.network ++ transmitted deployment.setup sender event } :
        System profile _ _).Inv deployment destinationMemory := by
  obtain ⟨source, numbered, stream, follows, network, bursts, intact, drained, destination,
    consumer⟩ := inv
  have move := SenderLoop.move_of_step stepped
  have grown := (built_grows move).subset
  have sending : state.sending = sender := by
    rw [System.sending, present]
    rfl
  rw [sending] at stream follows network bursts
  refine ⟨source, numbered, stream.move documented move, ?_, ?_, ?_, intact, drained,
    destination, consumer⟩
  · exact follows_of_move follows source (by rwa [length_history]) state.valid_history answered
      move
  · intro mbuf member
    rcases List.mem_append.mp member with earlier | new
    · obtain ⟨packet, inside, same⟩ := network mbuf earlier
      exact ⟨packet, grown inside, same⟩
    · exact mem_built_of_transmitted move mbuf new
  · intro burst member mbuf inside
    rcases bursts burst member mbuf inside with ⟨sent, built, receives⟩ | rejects
    · exact .inl ⟨sent, grown built, receives⟩
    · exact .inr rejects

theorem holds_publishFrame {writer : ReceiverShmWriter destinationSlots}
    (holds : writer.ring.Holds writer.published) (frame : ValidFrame profile)
    (room : writer.published.length + 1 < 2 ^ 64) :
    (writer.publishFrame frame).ring.Holds (writer.publishFrame frame).published :=
  holds.publish frame.toNat_len room

theorem Inv.receiver {after : RunningReceiver destinationSlots} {event : ReceiverEvent}
    (inv : state.Inv deployment destinationMemory)
    (fewer : state.produced.length < 2 ^ 64 - 1)
    (delivered : Delivered deployment.setup.rte state.network event)
    (stepped : RunningReceiver.Step profile deployment.setup.rte state.receiver event after) :
    ({ state with receiver := after } : System profile _ _).Inv deployment
      destinationMemory := by
  have few := inv.built_lt fewer
  have finished := inv.finished_sublist.length_le
  rw [length_history] at finished
  obtain ⟨source, numbered, stream, follows, network, bursts, intact, drained, destination,
    consumer⟩ := inv
  have arrived : ∀ burst, event = .burst burst → ∀ mbuf ∈ burst.items,
      Deliverable deployment.setup.rte state.sending.log.built mbuf := by
    rintro burst rfl mbuf inside
    rcases delivered mbuf inside with ⟨sent, isSent, receives⟩ | rejects
    · obtain ⟨packet, built, rfl⟩ := network sent isSent
      exact .inl ⟨packet, built, receives⟩
    · exact .inr rejects
  obtain ⟨afterIntact, writer⟩ := intact.step
    (fun burst same mbuf inside => stream.holdsFrames (arrived burst same mbuf inside)) stepped
  have afterBursts : ∀ burst ∈ after.bursts, ∀ mbuf ∈ burst.items,
      Deliverable deployment.setup.rte state.sending.log.built mbuf := by
    obtain ⟨burst, received, same, -⟩ | ⟨same, -⟩ :=
      RunningReceiver.drained_of_step stepped
    · rw [same]
      intro other member
      rcases List.mem_append.mp member with earlier | last
      · exact bursts other earlier
      · rw [List.mem_singleton.mp last]
        exact arrived burst received
    · rwa [same]
  have afterDrained : after.drained profile deployment.setup.rte =
      (ReceiverLoop.start (.attached destinationMemory)).run deployment.setup.rte
        (ReceiverShmWriter.write profile) after.bursts := by
    obtain ⟨burst, -, same, drains⟩ | ⟨same, drains⟩ := RunningReceiver.drained_of_step stepped
    · rw [drains, same, drained, ReceiverLoop.run, ReceiverLoop.run, List.foldl_append]
      rfl
    · rw [drains, same, drained]
  have published := (stream.published_sublist few afterDrained afterBursts).length_le
  refine ⟨source, numbered, stream, follows, network, afterBursts, afterIntact, afterDrained,
    ?_, ?_⟩
  · rcases writer with same | ⟨frame, same⟩
    · simpa only [System.destination, System.published, same] using destination
    · rw [same] at published
      simp only [System.destination, System.published, same]
      exact holds_publishFrame destination frame (by
        have grown : (state.receiver.loop.writer.publishFrame frame).published.length =
          state.receiver.loop.writer.published.length + 1 := List.length_append
        omega)
  · intro reading present
    rcases writer with same | ⟨frame, same⟩
    · simpa only [System.published, same] using consumer reading present
    · simp only [System.published, same]
      exact (consumer reading present).append [frame.bytes]

theorem Inv.startConsumer (inv : state.Inv deployment destinationMemory)
    (frame : FrameArea profile) (now : UInt64) :
    ({ state with
      consumer := some (.start deployment.config state.destination frame now) } :
        System profile _ _).Inv deployment destinationMemory := by
  obtain ⟨source, numbered, stream, follows, network, bursts, intact, drained, destination,
    -⟩ := inv
  refine ⟨source, numbered, stream, follows, network, bursts, intact, drained, destination, ?_⟩
  rintro consumer ⟨⟩
  exact ConsumerLoop.reads_start destination frame now

theorem Inv.consume {consumer after : ConsumerLoop} {now : UInt64}
    (inv : state.Inv deployment destinationMemory) (present : state.consumer = some consumer)
    (fewer : state.produced.length < 2 ^ 64 - 1)
    (stepped : consumer.step deployment.config state.destination now = some after) :
    ({ state with consumer := some after } : System profile _ _).Inv deployment
      destinationMemory := by
  have reads := inv.consumer consumer present
  have valid : ∀ bytes ∈ state.published, ∃ frame : ValidFrame profile, frame.bytes = bytes :=
    fun bytes member => state.valid_history bytes ((inv.published_sublist fewer).subset member)
  have read := reads.step inv.destination (inv.published_lt fewer) valid stepped
  obtain ⟨source, numbered, stream, follows, network, bursts, intact, drained, destination,
    -⟩ := inv
  refine ⟨source, numbered, stream, follows, network, bursts, intact, drained, destination, ?_⟩
  rintro consumer ⟨⟩
  exact read

theorem produced_mono {act : Act profile} (stepped : Step deployment state act next) :
    state.produced.length ≤ next.produced.length := by
  obtain ⟨frame, rfl, numbered, rfl⟩ | ⟨rfl, absent, rfl⟩ |
    ⟨event, sender, after, rfl, present, answered, moved, rfl⟩ |
    ⟨event, after, rfl, delivered, moved, rfl⟩ | ⟨frame, now, rfl, absent, rfl⟩ |
    ⟨now, consumer, after, rfl, present, moved, rfl⟩ := step_cases stepped
  · simp
  all_goals exact Nat.le_refl _

theorem Inv.step {act : Act profile} (inv : state.Inv deployment destinationMemory)
    (documented : deployment.setup.rte.Documented)
    (fewer : next.produced.length < 2 ^ 64 - 1) (stepped : Step deployment state act next) :
    next.Inv deployment destinationMemory := by
  have few := Nat.lt_of_le_of_lt (produced_mono stepped) fewer
  obtain ⟨frame, rfl, numbered, rfl⟩ | ⟨rfl, absent, rfl⟩ |
    ⟨event, sender, after, rfl, present, answered, moved, rfl⟩ |
    ⟨event, after, rfl, delivered, moved, rfl⟩ | ⟨frame, now, rfl, absent, rfl⟩ |
    ⟨now, consumer, after, rfl, present, moved, rfl⟩ := step_cases stepped
  · exact inv.produce numbered (by simpa using fewer)
  · exact inv.startSender absent
  · exact inv.sender documented present few answered moved
  · exact inv.receiver few delivered moved
  · exact inv.startConsumer frame now
  · exact inv.consume present few moved

theorem inv_of_run (documented : deployment.setup.rte.Documented)
    {sourceMemory : Ring sourceSlots} {acts : List (Act profile)}
    (run : Run (Step deployment) (start sourceMemory destinationMemory) acts state)
    (fewer : state.produced.length < 2 ^ 64 - 1) : state.Inv deployment destinationMemory :=
  run.invariant_below (fun state => state.produced.length) _ produced_mono
    (fun inv fewer stepped => inv.step documented fewer stepped) fewer
    (inv_start sourceMemory destinationMemory)

theorem Inv.seqId_eq (inv : state.Inv deployment destinationMemory)
    (fewer : state.produced.length < 2 ^ 64 - 1) {number : Nat} {frame : ValidFrame profile}
    (found : state.produced[number]? = some frame) : frame.seqId.toNat = number + 1 :=
  seqId_toNat inv.numbered fewer found

theorem Inv.history_increasing (inv : state.Inv deployment destinationMemory)
    (fewer : state.produced.length < 2 ^ 64 - 1) :
    (state.history.map fun bytes => loadU64 bytes 0).Pairwise (· < ·) :=
  increasing_of_numbered inv.numbered fewer

/-- In every reachable state the consumer has recorded strictly increasing
sequence ids, and what it read under each is the frame the producer published
under it. -/
theorem consumed_in_order (documented : deployment.setup.rte.Documented)
    {sourceMemory : Ring sourceSlots} {acts : List (Act profile)}
    (run : Run (Step deployment) (start sourceMemory destinationMemory) acts state)
    (fewer : state.produced.length < 2 ^ 64 - 1) {consumer : ConsumerLoop}
    (present : state.consumer = some consumer) :
    (consumer.recorded.map Sample.seqId).Pairwise (· < ·) ∧
    consumer.frames.length = consumer.recorded.length ∧
    ∀ sample bytes, (sample, bytes) ∈ consumer.recorded.zip consumer.frames →
      (∃ frame ∈ state.produced, frame.seqId = sample.seqId) ∧
      ∀ frame ∈ state.produced, frame.seqId = sample.seqId → bytes = frame.bytes := by
  have inv := inv_of_run documented run fewer
  obtain ⟨follows, recorded⟩ := inv.consumer consumer present
  have read : consumer.frames.Sublist state.history :=
    follows.sublist.trans (inv.published_sublist fewer)
  exact delivered_of_sublist inv.numbered fewer read recorded

def tradeFrame (seqId : UInt8) : ValidFrame .compact where
  bytes := SenderLoop.tradeBytes seqId
  fits := by simp [SenderLoop.tradeBytes, kMaxFrame, Compact.sizeofOrderBook]
  hasHeader := by simp [SenderLoop.tradeBytes, sizeofHeader]
  sized := by rfl

def littleEndianDeployment : Deployment where
  setup := SenderLoop.littleEndianSetup true
  config := ⟨0, false, 2000⟩

def sendingActs : List (Act .compact) :=
  [.produce (tradeFrame 1), .startSender, .produce (tradeFrame 2), .produce (tradeFrame 3)] ++
    ([.poll false, SenderLoop.tradeRead 2, .alloc (some SenderLoop.freshMbuf), .poll false,
      SenderLoop.tradeRead 3, .poll false, .read .kEmpty, .transmit true].map .sender)

/-- The packet arrives twice; the consumer reads between its two publishes. -/
def receivingActs (network : List Mbuf) : List (Act .compact) :=
  [.receiver (.burst ⟨(network ++ network).take rxBurstSize, by simp⟩),
    .startConsumer ⟨List.replicate 96 0, rfl⟩ 5, .receiver .next, .receiver .publish,
    .consumer 6, .receiver .publish, .receiver .finish, .receiver .next, .consumer 7,
    .consumer 8]

theorem consumed_in_order_duplicated :
    ∃ (state : System .compact ⟨4, 2, by decide⟩ ⟨2, 1, by decide⟩) (consumer : ConsumerLoop),
      state.consumer = some consumer ∧ consumer.recorded.map Sample.seqId = [2, 3] ∧
        (consumer.recorded.map Sample.seqId).Pairwise (· < ·) := by
  let initial : System .compact ⟨4, 2, by decide⟩ ⟨2, 1, by decide⟩ :=
    start ⟨9, fun _ => ⟨3, 0, fun _ => 0⟩⟩ ⟨9, fun _ => ⟨3, 0, fun _ => 0⟩⟩
  have executed : ((sendingActs.foldlM (step littleEndianDeployment) initial).bind fun sent =>
      ((receivingActs sent.network).foldlM (step littleEndianDeployment) sent).bind fun state =>
        state.consumer.map fun consumer =>
          (state.produced.length, consumer.recorded.map Sample.seqId)) =
            some (3, [2, 3]) := by
    decide +kernel
  obtain ⟨sent, sending, executed⟩ := Option.bind_eq_some_iff.mp executed
  obtain ⟨state, receiving, executed⟩ := Option.bind_eq_some_iff.mp executed
  obtain ⟨consumer, present, observed⟩ := Option.map_eq_some_iff.mp executed
  obtain ⟨three, recorded⟩ := Prod.mk.inj observed
  have run : Run (Step littleEndianDeployment) initial _ state :=
    Run.trans (.of_foldlM sending) (.of_foldlM receiving)
  exact ⟨state, consumer, present, recorded,
    (consumed_in_order (show littleEndianDeployment.setup.rte.Documented from
      Rte.littleEndianHost_documented) run (by omega) present).1⟩

end System

end Lldt.Pipeline
