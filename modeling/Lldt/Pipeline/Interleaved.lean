import Lldt.Consumer.Tailing
import Lldt.Pipeline.Losses
import Lldt.Sender.Cursor
import Lldt.Sender.Shutdown

namespace Lldt.Pipeline

open Lldt.Data.Bytes
open Lldt.Data.RetainedLog
open Lldt.Data.Transition
open Lldt.Dpdk
open Lldt.Harness
open Lldt.Msg
open Lldt.Shm
open Lldt.Transport

/-! The whole pipeline on interleaved rings: each publish and each read is taken
apart into its loads and stores, and all parties move between any two of them. -/

/-- `produced` are the frames handed to `publish` at the source; `reading` is where
the sender stands inside `ring_.read`.  The destination ring is that of `tail`. -/
structure Interleaved (profile : Profile) (sourceSlots destinationSlots : SlotCount) where
  source : Shared profile sourceSlots
  produced : List (ValidFrame profile)
  reading : ReadPc
  sender : Option SenderLoop
  network : List Mbuf
  receiver : RunningReceiver destinationSlots
  tail : Tailing profile destinationSlots

inductive InterleavedAct (profile : Profile) where
  | produce (frame : ValidFrame profile)
  | producerStore (store : PublishAct profile)
  | startSender
  | sender (event : SenderEvent)
  | senderLoad (load : ReadAct)
  | receiver (event : ReceiverEvent)
  | publish (frame : Frame profile)
  | tail (act : TailAct profile)

def isCall {profile : Profile} : PublishAct profile → Bool
  | .call _ => true
  | _ => false

def isTailCall {profile : Profile} : TailAct profile → Bool
  | .publish act => isCall act
  | _ => false

def isIdle {profile : Profile} : PublishPc profile → Bool
  | .idle => true
  | _ => false

def isReading : SenderPhase → Bool
  | .readFirst | .readNext _ => true
  | _ => false

def isPublish : ReceiverEvent → Bool
  | .publish => true
  | _ => false

namespace Interleaved

variable {profile : Profile} {sourceSlots destinationSlots : SlotCount}
  (deployment : Deployment)

def begin_ (sourceMemory : Ring sourceSlots) (destinationMemory : Ring destinationSlots) :
    Interleaved profile sourceSlots destinationSlots where
  source := .start sourceMemory
  produced := []
  reading := .idle
  sender := none
  network := []
  receiver := .start destinationMemory
  tail := .begin_ destinationMemory

/-- The end of one load of the sender: where `ring_.read` returns, its loop goes on. -/
def loaded (state : Interleaved profile sourceSlots destinationSlots) (sender : SenderLoop)
    (pc : ReadPc) :
    Option (UInt64 × ReadResult) → Option (Interleaved profile sourceSlots destinationSlots)
  | none => some { state with reading := pc }
  | some (_, result) =>
      (sender.step profile deployment.setup (.read result)).map fun next =>
        { state with reading := pc, sender := some next }

def step (state : Interleaved profile sourceSlots destinationSlots)
    (act : InterleavedAct profile) :
    Option (Interleaved profile sourceSlots destinationSlots) :=
  match act, state.sender with
  | .produce frame, _ =>
      if frame.seqId = UInt64.ofNat (state.produced.length + 1) then
        (state.source.step (.call frame.toFrame)).map fun source => { state with
          source := source
          produced := state.produced ++ [frame] }
      else none
  | .producerStore store, _ =>
      if isCall store then none
      else (state.source.step store).map fun source => { state with source := source }
  | .startSender, none =>
      some { state with sender := some (.start profile state.source.ring.liveEdge) }
  | .sender event, some sender =>
      if event.isRead then none
      else (sender.step profile deployment.setup event).map fun next => { state with
        sender := some next
        network := state.network ++ transmitted deployment.setup sender event }
  | .senderLoad load, some sender =>
      if isReading sender.phase = true ∧ ReadAct.At sender.reader load then
        (state.reading.step state.source.ring load).bind fun (pc, returned) =>
          state.loaded deployment sender pc returned
      else none
  | .receiver event, _ =>
      -- a publish of the receiver ends before its loop goes on
      if isPublish event = false ∧ isIdle state.tail.shared.pc = true ∧
          Delivered deployment.setup.rte state.network event then
        (state.receiver.step profile deployment.setup.rte event).map fun next =>
          { state with receiver := next }
      else none
  | .publish frame, _ =>
      (state.receiver.step profile deployment.setup.rte .publish).bind fun next =>
        if next.loop.writer.published = state.receiver.loop.writer.published ++ [frame.bytes] then
          (state.tail.step deployment.config (.publish (.call frame))).map fun tail =>
            { state with receiver := next, tail := tail }
        else none
  | .tail act, _ =>
      if isTailCall act then none
      else (state.tail.step deployment.config act).map fun tail => { state with tail := tail }
  | _, _ => none

def Step (state : Interleaved profile sourceSlots destinationSlots)
    (act : InterleavedAct profile) (next : Interleaved profile sourceSlots destinationSlots) :
    Prop :=
  state.step deployment act = some next

variable {deployment} {state next : Interleaved profile sourceSlots destinationSlots}
  {act : InterleavedAct profile}

theorem step_cases (stepped : Step deployment state act next) :
    (∃ frame source, act = .produce frame ∧
      frame.seqId = UInt64.ofNat (state.produced.length + 1) ∧
      state.source.step (.call frame.toFrame) = some source ∧ next = { state with
        source := source
        produced := state.produced ++ [frame] }) ∨
    (∃ store source, act = .producerStore store ∧ isCall store = false ∧
      state.source.step store = some source ∧ next = { state with source := source }) ∨
    (act = .startSender ∧ state.sender = none ∧ next = { state with
      sender := some (.start profile state.source.ring.liveEdge) }) ∨
    (∃ event sender after, act = .sender event ∧ state.sender = some sender ∧
      event.isRead = false ∧ SenderLoop.Step profile deployment.setup sender event after ∧
      next = { state with
        sender := some after
        network := state.network ++ transmitted deployment.setup sender event }) ∨
    (∃ load sender pc returned, act = .senderLoad load ∧ state.sender = some sender ∧
      ReadAct.At sender.reader load ∧
      state.reading.step state.source.ring load = some (pc, returned) ∧
      state.loaded deployment sender pc returned = some next) ∨
    (∃ event after, act = .receiver event ∧ isPublish event = false ∧
      Delivered deployment.setup.rte state.network event ∧
      RunningReceiver.Step profile deployment.setup.rte state.receiver event after ∧
      next = { state with receiver := after }) ∨
    (∃ frame after tail, act = .publish frame ∧
      RunningReceiver.Step profile deployment.setup.rte state.receiver .publish after ∧
      after.loop.writer.published = state.receiver.loop.writer.published ++ [frame.bytes] ∧
      Tailing.Step deployment.config state.tail (.publish (.call frame)) tail ∧
      next = { state with receiver := after, tail := tail }) ∨
    (∃ tailAct tail, act = .tail tailAct ∧ isTailCall tailAct = false ∧
      Tailing.Step deployment.config state.tail tailAct tail ∧
      next = { state with tail := tail }) := by
  unfold Step step at stepped
  split at stepped
  · rename_i frame
    split at stepped
    · rename_i numbered
      obtain ⟨source, moved, rfl⟩ := Option.map_eq_some_iff.mp stepped
      exact .inl ⟨frame, source, rfl, numbered, moved, rfl⟩
    · contradiction
  · rename_i store
    split at stepped
    · contradiction
    · rename_i stores
      obtain ⟨source, moved, rfl⟩ := Option.map_eq_some_iff.mp stepped
      exact .inr (.inl ⟨store, source, rfl, Bool.eq_false_iff.mpr stores, moved, rfl⟩)
  · rename_i absent
    exact .inr (.inr (.inl ⟨rfl, absent, (Option.some.inj stepped).symm⟩))
  · rename_i event sender present
    split at stepped
    · contradiction
    · rename_i other
      obtain ⟨after, moved, rfl⟩ := Option.map_eq_some_iff.mp stepped
      exact .inr (.inr (.inr (.inl ⟨event, sender, after, rfl, present,
        Bool.eq_false_iff.mpr other, moved, rfl⟩)))
  · rename_i load sender present
    split at stepped
    · rename_i asks
      obtain ⟨⟨pc, returned⟩, moved, answered⟩ := Option.bind_eq_some_iff.mp stepped
      exact .inr (.inr (.inr (.inr (.inl ⟨load, sender, pc, returned, rfl, present, asks.2,
        moved, answered⟩))))
    · contradiction
  · rename_i event
    split at stepped
    · rename_i ready
      obtain ⟨after, moved, rfl⟩ := Option.map_eq_some_iff.mp stepped
      exact .inr (.inr (.inr (.inr (.inr (.inl ⟨event, after, rfl, ready.1, ready.2.2, moved,
        rfl⟩)))))
    · contradiction
  · rename_i frame
    obtain ⟨after, moved, stepped⟩ := Option.bind_eq_some_iff.mp stepped
    split at stepped
    · rename_i record
      obtain ⟨tail, stored, rfl⟩ := Option.map_eq_some_iff.mp stepped
      exact .inr (.inr (.inr (.inr (.inr (.inr (.inl ⟨frame, after, tail, rfl, moved, record,
        stored, rfl⟩))))))
    · contradiction
  · rename_i tailAct
    split at stepped
    · contradiction
    · rename_i other
      obtain ⟨tail, moved, rfl⟩ := Option.map_eq_some_iff.mp stepped
      exact .inr (.inr (.inr (.inr (.inr (.inr (.inr ⟨tailAct, tail, rfl,
        Bool.eq_false_iff.mpr other, moved, rfl⟩))))))
  · contradiction

/-- The sender at its ring, as far as its loads go. -/
def senderView (state : Interleaved profile sourceSlots destinationSlots) :
    Tailing profile sourceSlots where
  shared := state.source
  pc := state.reading
  consumer := none
  entered := 0

/-- When a read takes a frame, nobody has begun to overwrite it. -/
def InLap (state : Interleaved profile sourceSlots destinationSlots) :
    InterleavedAct profile → Prop
  | .senderLoad load => state.senderView.InLap (.load load 0)
  | .tail act => state.tail.InLap act
  | _ => True

instance (state : Interleaved profile sourceSlots destinationSlots) : DecidablePred state.InLap
  | .senderLoad load => inferInstanceAs (Decidable (state.senderView.InLap (.load load 0)))
  | .tail act => inferInstanceAs (Decidable (state.tail.InLap act))
  | .produce _ | .producerStore _ | .startSender | .sender _ | .receiver _
  | .publish _ => .isTrue trivial

/-! What an atomic read would not have done, but does no harm. -/

section Harmless

variable {system : System profile sourceSlots destinationSlots}
  {destinationMemory : Ring destinationSlots}

/-- The sender attaches while the index of the last publish is not yet stored. -/
theorem attach_early (inv : system.Inv deployment destinationMemory)
    (absent : system.sender = none) {edge : UInt64}
    (within : edge.toNat ≤ system.history.length) :
    ({ system with sender := some (.start profile edge) } : System profile _ _).Inv deployment
      destinationMemory := by
  obtain ⟨source, numbered, stream, follows, network, bursts, intact, drained, destination,
    consumer⟩ := inv
  rw [System.sending, absent] at network bursts
  exact ⟨source, numbered, SenderLoop.stream_start _ _, .start within, network, bursts, intact,
    drained, destination, consumer⟩

theorem follows_forward {log seen : List (List UInt8)} {index resume : Nat}
    (follows : Follows log index seen) (forward : index ≤ resume) (within : resume ≤ log.length) :
    Follows log resume seen :=
  ⟨within, follows.ordered.trans (List.take_prefix_take_left forward).sublist⟩

/-- The sender is lapped and resumes wherever that is, but not further back. -/
theorem lapped_anywhere (inv : system.Inv deployment destinationMemory)
    (documented : deployment.setup.rte.Documented) {sender after : SenderLoop}
    (present : system.sender = some sender) {resume : UInt64} {out : List UInt8}
    (stepped : SenderLoop.Step profile deployment.setup sender (.read (.kLapped resume out)) after)
    (forward : sender.reader.readIndex.toNat ≤ resume.toNat)
    (within : resume.toNat ≤ system.history.length) :
    ({ system with sender := some after } : System profile _ _).Inv deployment
      destinationMemory := by
  obtain ⟨source, numbered, stream, follows, network, bursts, intact, drained, destination,
    consumer⟩ := inv
  have move := SenderLoop.move_of_step stepped
  have grown := (System.built_grows move).subset
  have sending : system.sending = sender := by
    rw [System.sending, present]
    rfl
  rw [sending] at stream follows network bursts
  obtain ⟨reader, admitted⟩ := Prod.mk.inj move.readings
  have index : after.reader.readIndex = resume := congrArg SenderShmReader.readIndex reader
  refine ⟨source, numbered, stream.move documented move, ?_, ?_, ?_, intact, drained,
    destination, consumer⟩
  · show Follows _ after.reader.readIndex.toNat after.log.admitted
    rw [index, admitted]
    exact follows_forward follows forward within
  · intro mbuf member
    obtain ⟨packet, inside, same⟩ := network mbuf member
    exact ⟨packet, grown inside, same⟩
  · intro burst member mbuf inside
    rcases bursts burst member mbuf inside with ⟨sent, built, receives⟩ | rejects
    · exact .inl ⟨sent, grown built, receives⟩
    · exact .inr rejects

theorem eq_of_agrees {interleaved atomic : ReadResult}
    (agrees : Reading.Agrees interleaved atomic) (taken : interleaved.status ≠ .kLapped) :
    interleaved = atomic := by
  cases interleaved with
  | kLapped resume out => contradiction
  | kEmpty =>
      cases atomic with
      | kEmpty => rfl
      | kOk len frame | kLapped resume out => exact agrees.elim
  | kOk outLen out =>
      cases atomic with
      | kOk len frame =>
          obtain ⟨rfl, rfl⟩ := agrees
          rfl
      | kEmpty | kLapped resume out => exact agrees.elim

theorem transmitted_read (setup : SenderSetup) (sender : SenderLoop) (result : ReadResult) :
    transmitted setup sender (.read result) = [] := by
  unfold transmitted
  split
  · contradiction
  · rfl

end Harmless

/-! What the stores of a publish do not change. -/

theorem calls_of_store {slots : SlotCount} {shared after : Shared profile slots}
    {store : PublishAct profile} (stores : isCall store = false)
    (stepped : shared.step store = some after) :
    after.calls = shared.calls ∧
      (after.seqStores = shared.seqStores ∨ after.seqStores = shared.seqStores + 1) := by
  cases store with
  | call frame => contradiction
  | storeLen | storeByte offset | storeSeq | storeIndex =>
      obtain ⟨frame, pc, rfl⟩ | ⟨idx, frame, pc, rfl⟩ |
        ⟨idx, frame, todo, offset, pc, member, rfl⟩ | ⟨idx, frame, pc, rfl⟩ |
        ⟨idx, pc, rfl⟩ := Shared.step_cases stepped
      · simp [Shared.step, pc] at stepped
      · exact ⟨rfl, .inl rfl⟩
      · exact ⟨rfl, .inl rfl⟩
      · exact ⟨rfl, .inr rfl⟩
      · exact ⟨rfl, .inl rfl⟩

theorem calls_of_call {slots : SlotCount} {shared after : Shared profile slots}
    {frame : Frame profile} (stepped : shared.step (.call frame) = some after) :
    after.calls = shared.calls ++ [frame] ∧ after.seqStores = shared.seqStores := by
  unfold Shared.step at stepped
  split at stepped
  · rename_i called
    cases called
    cases stepped
    exact ⟨rfl, rfl⟩
  all_goals contradiction

theorem calls_of_tail {config : ConsumerConfig} {tail after : Tailing profile destinationSlots}
    {tailAct : TailAct profile} (other : isTailCall tailAct = false)
    (stepped : Tailing.Step config tail tailAct after) :
    after.shared.calls = tail.shared.calls := by
  obtain ⟨publish, shared, rfl, moved, rfl⟩ | ⟨frame, now, rfl, absent, rfl⟩ |
    ⟨load, now, consumer, pc, returned, rfl, present, asks, moved, rfl⟩ :=
    Tailing.step_cases stepped
  · exact (calls_of_store other moved).1
  · rfl
  · rfl

/-! Up to the destination ring the pipeline is an atomic one, in which a frame is
published when its slot sequence is stored. -/

def atomic (ring : Ring sourceSlots) (state : Interleaved profile sourceSlots destinationSlots) :
    System profile sourceSlots destinationSlots where
  source := ring
  produced := state.produced.take state.source.seqStores
  sender := state.sender
  network := state.network
  receiver := state.receiver
  consumer := none

theorem sending_atomic (ring : Ring sourceSlots) {sender : SenderLoop}
    (present : state.sender = some sender) : (state.atomic ring).sending = sender := by
  show state.sender.getD _ = sender
  rw [present]
  rfl

structure Inv (deployment : Deployment) (destinationMemory : Ring destinationSlots)
    (state : Interleaved profile sourceSlots destinationSlots) : Prop where
  source : state.source.Inv
  called : state.source.calls = state.produced.map ValidFrame.toFrame
  numbered : ∀ number frame, state.produced[number]? = some frame →
    frame.seqId = UInt64.ofNat (number + 1)
  grounded : Reading.Grounded state.source state.reading
  idle : state.sender = none → state.reading = .idle
  aimed : ∀ index, Tailing.target state.reading = some index →
    ∃ sender, state.sender = some sender ∧ index = sender.reader.readIndex
  upstream : ∃ ring, (state.atomic ring).Inv deployment destinationMemory
  written : state.tail.shared.calls.map Frame.bytes = state.receiver.loop.writer.published
  tail : ∃ acts, Tailing.Inv acts state.tail

variable {destinationMemory : Ring destinationSlots}

theorem inv_begin (sourceMemory : Ring sourceSlots) (destinationMemory : Ring destinationSlots) :
    (begin_ sourceMemory destinationMemory : Interleaved profile _ _).Inv deployment
      destinationMemory where
  source := Shared.inv_start sourceMemory
  called := rfl
  numbered := nofun
  grounded := trivial
  idle := fun _ => rfl
  aimed := nofun
  upstream := ⟨sourceMemory.attach true, System.inv_start sourceMemory destinationMemory⟩
  written := rfl
  tail := ⟨0, Tailing.inv_begin destinationMemory⟩

theorem Inv.length_calls (inv : state.Inv deployment destinationMemory) :
    state.source.calls.length = state.produced.length := by
  rw [inv.called, List.length_map]

theorem Inv.stores_le (inv : state.Inv deployment destinationMemory) :
    state.source.seqStores ≤ state.produced.length := by
  rw [← inv.length_calls]
  exact inv.source.seqStores_le

theorem Inv.length_history (inv : state.Inv deployment destinationMemory)
    (ring : Ring sourceSlots) : (state.atomic ring).history.length = state.source.seqStores := by
  rw [System.length_history, atomic, List.length_take, Nat.min_eq_left inv.stores_le]

theorem Inv.history_eq (inv : state.Inv deployment destinationMemory) (ring : Ring sourceSlots) :
    (state.source.calls.take state.source.seqStores).map Frame.bytes =
      (state.atomic ring).history := by
  rw [inv.called, ← List.map_take, List.map_map]
  rfl

theorem Inv.few (inv : state.Inv deployment destinationMemory) (ring : Ring sourceSlots)
    (fewer : state.produced.length < 2 ^ 64 - 1) :
    (state.atomic ring).produced.length < 2 ^ 64 - 1 := by
  rw [← System.length_history, inv.length_history]
  exact Nat.lt_of_le_of_lt inv.stores_le fewer

/-! Each party's steps. -/

theorem Inv.produce (inv : state.Inv deployment destinationMemory) {frame : ValidFrame profile}
    {source : Shared profile sourceSlots}
    (numbered : frame.seqId = UInt64.ofNat (state.produced.length + 1))
    (fewer : state.produced.length + 1 < 2 ^ 64 - 1)
    (stepped : state.source.step (.call frame.toFrame) = some source) :
    Inv deployment destinationMemory
      { state with source := source, produced := state.produced ++ [frame] } := by
  obtain ⟨called, stores⟩ := calls_of_call stepped
  have length := inv.length_calls
  have within := inv.stores_le
  obtain ⟨ring, upstream⟩ := inv.upstream
  refine ⟨inv.source.step stepped ?_, ?_, ?_, inv.grounded.publish stepped, inv.idle, inv.aimed,
    ⟨ring, ?_⟩, inv.written, inv.tail⟩
  · rw [called, List.length_append, List.length_singleton]
    omega
  · rw [called, inv.called, List.map_append]
    rfl
  · intro number other found
    rcases getElem?_append_singleton_cases found with earlier | ⟨rfl, rfl⟩
    · exact inv.numbered number other earlier
    · exact numbered
  · simp only [atomic, stores, List.take_append_of_le_length within]
    exact upstream

theorem Inv.producerStore (inv : state.Inv deployment destinationMemory)
    {store : PublishAct profile} {source : Shared profile sourceSlots}
    (stores : isCall store = false) (fewer : state.produced.length < 2 ^ 64 - 1)
    (stepped : state.source.step store = some source) :
    Inv deployment destinationMemory { state with source := source } := by
  obtain ⟨called, stored⟩ := calls_of_store stores stepped
  have length := inv.length_calls
  obtain ⟨ring, upstream⟩ := inv.upstream
  have after := inv.source.step stepped (by rw [called]; omega)
  refine ⟨after, by rw [called, inv.called], inv.numbered, inv.grounded.publish stepped,
    inv.idle, inv.aimed, ?_, inv.written, inv.tail⟩
  rcases stored with same | next
  · refine ⟨ring, ?_⟩
    simp only [atomic, same]
    exact upstream
  · have inside : state.source.seqStores < state.produced.length := by
      have bound := after.seqStores_le
      rw [called] at bound
      omega
    obtain ⟨frame, found⟩ : ∃ frame, state.produced[state.source.seqStores]? = some frame :=
      ⟨_, List.getElem?_eq_getElem inside⟩
    have count := inv.length_history ring
    rw [System.length_history] at count
    have numbered : frame.seqId = UInt64.ofNat ((state.atomic ring).produced.length + 1) := by
      rw [count]
      exact inv.numbered _ frame found
    have published := upstream.produce numbered (by omega)
    refine ⟨ring.publish frame.bytes frame.len, ?_⟩
    simp only [atomic, next, List.take_add_one, found]
    exact published

theorem Inv.startSender (inv : state.Inv deployment destinationMemory)
    (absent : state.sender = none) :
    Inv deployment destinationMemory
      { state with sender := some (.start profile state.source.ring.liveEdge) } := by
  have idle := inv.idle absent
  obtain ⟨ring, upstream⟩ := inv.upstream
  refine ⟨inv.source, inv.called, inv.numbered, inv.grounded, nofun, ?_, ⟨ring, ?_⟩,
    inv.written, inv.tail⟩
  · intro index aimed
    rw [idle] at aimed
    contradiction
  · refine attach_early upstream absent ?_
    rw [inv.length_history]
    exact inv.source.writeIndex_bounds.1

/-- A step of the sender's loop that is no read. -/
theorem Inv.sender (inv : state.Inv deployment destinationMemory)
    (documented : deployment.setup.rte.Documented) (fewer : state.produced.length < 2 ^ 64 - 1)
    {sender after : SenderLoop} {event : SenderEvent} (present : state.sender = some sender)
    (other : event.isRead = false)
    (stepped : SenderLoop.Step profile deployment.setup sender event after) :
    Inv deployment destinationMemory { state with
      sender := some after
      network := state.network ++ transmitted deployment.setup sender event } := by
  obtain ⟨ring, upstream⟩ := inv.upstream
  have answered : Answered ring sender event := by
    cases event with
    | read result => contradiction
    | poll _ | alloc _ | transmit _ => trivial
  have readings := (SenderLoop.move_of_step stepped).readings
  refine ⟨inv.source, inv.called, inv.numbered, inv.grounded, nofun, ?_,
    ⟨ring, upstream.sender documented present (inv.few ring fewer) answered stepped⟩,
    inv.written, inv.tail⟩
  intro index aimed
  obtain ⟨same, here, reads⟩ := inv.aimed index aimed
  rw [present] at here
  cases here
  refine ⟨after, rfl, ?_⟩
  have kept : after.reader = sender.reader := by
    cases event with
    | read result => contradiction
    | poll _ | alloc _ | transmit _ => exact (Prod.mk.inj readings).1
  rw [reads, kept]

/-- Where the sender's read returns, its loop goes on as after an atomic read. -/
theorem Inv.answered (inv : state.Inv deployment destinationMemory)
    (documented : deployment.setup.rte.Documented) (fewer : state.produced.length < 2 ^ 64 - 1)
    {sender after : SenderLoop} (present : state.sender = some sender) {result : ReadResult}
    (outcome : Reading.Outcome state.source sender.reader.readIndex result)
    (near : result.status = .kOk →
      state.source.calls.length ≤ sender.reader.readIndex.toNat + sourceSlots.size)
    (stepped : SenderLoop.Step profile deployment.setup sender (.read result) after)
    (ring : Ring sourceSlots) (upstream : (state.atomic ring).Inv deployment destinationMemory) :
    ({ state.atomic ring with sender := some after } : System profile _ _).Inv deployment
      destinationMemory := by
  have length := inv.length_calls
  have within := inv.stores_le
  have edge := inv.source.writeIndex_bounds
  have asAtomic (taken : result.status ≠ .kLapped) :
      ({ state.atomic ring with sender := some after } : System profile _ _).Inv deployment
        destinationMemory := by
    have behind := upstream.follows.bound
    have holds := upstream.source
    rw [← inv.history_eq] at holds
    rw [inv.length_history, sending_atomic ring present] at behind
    have answered : Answered ring sender (.read result) :=
      eq_of_agrees (outcome.agrees inv.source (by omega) (by omega) holds near) taken
    have moved := upstream.sender documented present (inv.few ring fewer) answered stepped
    rw [transmitted_read, List.append_nil] at moved
    exact moved
  cases result with
  | kEmpty | kOk len out => exact asAtomic nofun
  | kLapped resume out =>
      obtain ⟨beyond, target⟩ := outcome
      refine lapped_anywhere upstream documented present stepped (by omega) ?_
      rw [inv.length_history]
      omega

theorem Inv.senderLoad (inv : state.Inv deployment destinationMemory)
    (documented : deployment.setup.rte.Documented) (fewer : state.produced.length < 2 ^ 64 - 1)
    {sender : SenderLoop} {load : ReadAct} {pc : ReadPc}
    {returned : Option (UInt64 × ReadResult)} (present : state.sender = some sender)
    (at_ : ReadAct.At sender.reader load) (inLap : state.InLap (.senderLoad load))
    (stepped : state.reading.step state.source.ring load = some (pc, returned))
    (ends : state.loaded deployment sender pc returned = some next) :
    next.Inv deployment destinationMemory := by
  obtain ⟨ring, upstream⟩ := inv.upstream
  have length := inv.length_calls
  have within := inv.stores_le
  have behind := upstream.follows.bound
  rw [inv.length_history, sending_atomic ring present] at behind
  obtain ⟨keeps, answers⟩ := Tailing.target_of_step stepped
  have mine {index : UInt64}
      (own : load = .loadSeq index ∨ Tailing.target state.reading = some index) :
      index = sender.reader.readIndex := by
    rcases own with rfl | aimed
    · exact at_
    · obtain ⟨other, same, here⟩ := inv.aimed index aimed
      rw [present] at same
      cases same
      exact here
  obtain ⟨grounded, outcomes⟩ := inv.grounded.load inv.source (by omega) (by
    rintro index rfl
    rw [show index = sender.reader.readIndex from at_]
    omega) stepped
  cases returned with
  | none =>
      cases ends
      refine ⟨inv.source, inv.called, inv.numbered, grounded, ?_, ?_, inv.upstream, inv.written,
        inv.tail⟩
      · intro absent
        rw [present] at absent
        contradiction
      · intro index aimed
        exact ⟨sender, present, mine (keeps index aimed)⟩
  | some answer =>
      obtain ⟨index, result⟩ := answer
      obtain ⟨after, moved, rfl⟩ := Option.map_eq_some_iff.mp ends
      obtain ⟨rfl, own⟩ := answers index result rfl
      obtain ⟨-, outcome⟩ := outcomes index result rfl
      obtain rfl := mine own
      have near := @Tailing.near_of_inLap _ _ state.senderView load 0 _ .idle result inLap stepped
      exact ⟨inv.source, inv.called, inv.numbered, grounded, nofun, nofun,
        ⟨ring, inv.answered documented fewer present outcome near moved ring upstream⟩,
        inv.written, inv.tail⟩

theorem Inv.receiver (inv : state.Inv deployment destinationMemory)
    (fewer : state.produced.length < 2 ^ 64 - 1)
    {after : RunningReceiver destinationSlots} {event : ReceiverEvent}
    (other : isPublish event = false)
    (delivered : Delivered deployment.setup.rte state.network event)
    (stepped : RunningReceiver.Step profile deployment.setup.rte state.receiver event after) :
    Inv deployment destinationMemory { state with receiver := after } := by
  obtain ⟨ring, upstream⟩ := inv.upstream
  obtain ⟨more, published, count⟩ := System.published_of_step stepped
  have none : more.length = 0 := by
    cases event with
    | publish => contradiction
    | burst burst | next | finish => exact count
  rw [List.eq_nil_of_length_eq_zero none, List.append_nil] at published
  refine ⟨inv.source, inv.called, inv.numbered, inv.grounded, inv.idle, inv.aimed,
    ⟨ring, upstream.receiver (inv.few ring fewer) delivered stepped⟩, ?_, inv.tail⟩
  rw [inv.written, published]

theorem Inv.published_le (inv : state.Inv deployment destinationMemory)
    (fewer : state.produced.length < 2 ^ 64 - 1) :
    state.receiver.loop.writer.published.length ≤ state.produced.length := by
  obtain ⟨ring, upstream⟩ := inv.upstream
  have least := (upstream.published_sublist (inv.few ring fewer)).length_le
  rw [inv.length_history] at least
  exact least.trans inv.stores_le

theorem Inv.publish (inv : state.Inv deployment destinationMemory)
    (fewer : state.produced.length < 2 ^ 64 - 1)
    {after : RunningReceiver destinationSlots} {frame : Frame profile}
    {tail : Tailing profile destinationSlots}
    (moved : RunningReceiver.Step profile deployment.setup.rte state.receiver .publish after)
    (record : after.loop.writer.published =
      state.receiver.loop.writer.published ++ [frame.bytes])
    (stepped : Tailing.Step deployment.config state.tail (.publish (.call frame)) tail) :
    Inv deployment destinationMemory { state with receiver := after, tail := tail } := by
  obtain ⟨ring, upstream⟩ := inv.upstream
  obtain ⟨acts, tailInv⟩ := inv.tail
  have delivered : Delivered deployment.setup.rte state.network .publish := trivial
  have inLap : state.tail.InLap (.publish (.call frame)) := trivial
  have received := upstream.receiver (inv.few ring fewer) delivered moved
  obtain ⟨shared, called, rfl⟩ := Option.map_eq_some_iff.mp stepped
  have calls := (calls_of_call called).1
  have written : shared.calls.map Frame.bytes = after.loop.writer.published := by
    rw [calls, List.map_append, inv.written, record]
    rfl
  have room : shared.calls.length ≤ state.produced.length := by
    have least := (received.published_sublist (inv.few ring fewer)).length_le
    rw [← List.length_map (f := Frame.bytes), written]
    refine least.trans ?_
    rw [System.history, List.length_map]
    exact List.length_take_le' _ _
  exact ⟨inv.source, inv.called, inv.numbered, inv.grounded, inv.idle, inv.aimed,
    ⟨ring, received⟩, written, ⟨_, tailInv.step (Nat.lt_of_le_of_lt room fewer) inLap stepped⟩⟩

theorem Inv.tailStep (inv : state.Inv deployment destinationMemory)
    (fewer : state.produced.length < 2 ^ 64 - 1) {tailAct : TailAct profile}
    {tail : Tailing profile destinationSlots} (other : isTailCall tailAct = false)
    (inLap : state.tail.InLap tailAct)
    (stepped : Tailing.Step deployment.config state.tail tailAct tail) :
    Inv deployment destinationMemory { state with tail := tail } := by
  obtain ⟨acts, tailInv⟩ := inv.tail
  have calls := calls_of_tail other stepped
  have room : tail.shared.calls.length < 2 ^ 64 - 1 := by
    rw [calls, ← List.length_map (f := Frame.bytes), inv.written]
    exact Nat.lt_of_le_of_lt (inv.published_le fewer) fewer
  refine ⟨inv.source, inv.called, inv.numbered, inv.grounded, inv.idle, inv.aimed, inv.upstream,
    ?_, ⟨_, tailInv.step room inLap stepped⟩⟩
  rw [calls, inv.written]

theorem produced_mono (stepped : Step deployment state act next) :
    state.produced.length ≤ next.produced.length := by
  obtain ⟨frame, source, rfl, numbered, moved, rfl⟩ | ⟨store, source, rfl, stores, moved, rfl⟩ |
    ⟨rfl, absent, rfl⟩ | ⟨event, sender, after, rfl, present, other, moved, rfl⟩ |
    ⟨load, sender, pc, returned, rfl, present, at_, moved, ends⟩ |
    ⟨event, after, rfl, other, delivered, moved, rfl⟩ |
    ⟨frame, after, tail, rfl, moved, record, stored, rfl⟩ |
    ⟨tailAct, tail, rfl, other, moved, rfl⟩ := step_cases stepped
  · simp
  case inr.inr.inr.inr.inl =>
    cases returned with
    | none =>
        cases ends
        exact Nat.le_refl _
    | some answer =>
        obtain ⟨after, moved, rfl⟩ := Option.map_eq_some_iff.mp ends
        exact Nat.le_refl _
  all_goals exact Nat.le_refl _

theorem Inv.step (inv : state.Inv deployment destinationMemory)
    (documented : deployment.setup.rte.Documented) (fewer : next.produced.length < 2 ^ 64 - 1)
    (inLap : state.InLap act) (stepped : Step deployment state act next) :
    next.Inv deployment destinationMemory := by
  have few := Nat.lt_of_le_of_lt (produced_mono stepped) fewer
  obtain ⟨frame, source, rfl, numbered, moved, rfl⟩ | ⟨store, source, rfl, stores, moved, rfl⟩ |
    ⟨rfl, absent, rfl⟩ | ⟨event, sender, after, rfl, present, other, moved, rfl⟩ |
    ⟨load, sender, pc, returned, rfl, present, at_, moved, ends⟩ |
    ⟨event, after, rfl, other, delivered, moved, rfl⟩ |
    ⟨frame, after, tail, rfl, moved, record, stored, rfl⟩ |
    ⟨tailAct, tail, rfl, other, moved, rfl⟩ := step_cases stepped
  · exact inv.produce numbered (by simpa using fewer) moved
  · exact inv.producerStore stores few moved
  · exact inv.startSender absent
  · exact inv.sender documented few present other moved
  · exact inv.senderLoad documented few present at_ inLap moved ends
  · exact inv.receiver few other delivered moved
  · exact inv.publish few moved record stored
  · exact inv.tailStep few other inLap moved

theorem inv_of_run (documented : deployment.setup.rte.Documented)
    {sourceMemory : Ring sourceSlots} {acts : List (InterleavedAct profile)}
    (run : Run (Guarded InLap (Step deployment)) (begin_ sourceMemory destinationMemory) acts
      state) (fewer : state.produced.length < 2 ^ 64 - 1) :
    state.Inv deployment destinationMemory :=
  run.invariant_below (fun state => state.produced.length) _ (fun step => produced_mono step.2)
    (fun inv fewer step => inv.step documented fewer step.1 step.2) fewer
    (inv_begin sourceMemory destinationMemory)

/-! What the consumer has read, in terms of what was handed to `publish`. -/

/-- The consumer has read a part of the frames whose slot sequence is stored, in
their order. -/
theorem Inv.read_sublist (inv : state.Inv deployment destinationMemory)
    (fewer : state.produced.length < 2 ^ 64 - 1) {ring : Ring sourceSlots}
    (upstream : (state.atomic ring).Inv deployment destinationMemory) {consumer : ConsumerLoop}
    (present : state.tail.consumer = some consumer) :
    consumer.frames.Sublist (state.atomic ring).history := by
  obtain ⟨acts, tail⟩ := inv.tail
  obtain ⟨skipped, covers, -⟩ := (tail.shows consumer present).covers
  have read := covers.ordered.trans ((List.drop_sublist _ _).trans (List.take_sublist _ _))
  rw [inv.written] at read
  exact read.trans (upstream.published_sublist (inv.few ring fewer))

theorem Inv.recorded_eq (inv : state.Inv deployment destinationMemory)
    (fewer : state.produced.length < 2 ^ 64 - 1) {consumer : ConsumerLoop}
    (present : state.tail.consumer = some consumer) :
    consumer.recorded.map Sample.seqId = consumer.frames.map fun frame => loadU64 frame 0 := by
  obtain ⟨ring, upstream⟩ := inv.upstream
  obtain ⟨acts, tail⟩ := inv.tail
  refine (tail.shows consumer present).recorded fun frame called => ?_
  have written : frame.bytes ∈ state.receiver.loop.writer.published := by
    rw [← inv.written]
    exact List.mem_map_of_mem called
  obtain ⟨valid, same⟩ := System.valid_history _ _
    ((upstream.published_sublist (inv.few ring fewer)).subset written)
  rw [← same]
  exact valid.hasHeader

/-- All loads and stores of both rings interleaved, as long as no reader is
overtaken by a whole lap while it copies: the consumer has recorded strictly
increasing sequence ids, and under each the frame published under it. -/
theorem interleaved_in_order (documented : deployment.setup.rte.Documented)
    {sourceMemory : Ring sourceSlots} {acts : List (InterleavedAct profile)}
    (run : Run (Guarded InLap (Step deployment)) (begin_ sourceMemory destinationMemory) acts
      state) (fewer : state.produced.length < 2 ^ 64 - 1) {consumer : ConsumerLoop}
    (present : state.tail.consumer = some consumer) :
    (consumer.recorded.map Sample.seqId).Pairwise (· < ·) ∧
    consumer.frames.length = consumer.recorded.length ∧
    ∀ sample bytes, (sample, bytes) ∈ consumer.recorded.zip consumer.frames →
      (∃ frame ∈ state.produced, frame.seqId = sample.seqId) ∧
      ∀ frame ∈ state.produced, frame.seqId = sample.seqId → bytes = frame.bytes := by
  have inv := inv_of_run documented run fewer
  obtain ⟨ring, upstream⟩ := inv.upstream
  have stored := inv.read_sublist fewer upstream present
  have read : consumer.frames.Sublist (state.produced.map fun frame => frame.bytes) :=
    stored.trans ((List.take_sublist _ _).map _)
  exact delivered_of_sublist inv.numbered fewer read (inv.recorded_eq fewer present)

/-- A header of the Raw profile alone. -/
def rawFrame (seqId : UInt8) : ValidFrame .raw where
  bytes := seqId :: List.replicate 19 0 ++ [24, 0, 0, 0]
  fits := by simp [kMaxFrame, Raw.sizeofOrderBook]
  hasHeader := by simp [sizeofHeader]
  sized := by rfl

def bytes (first count : Nat) : List (PublishAct .raw) :=
  (List.range' first count).map .storeByte

def copied (first count : Nat) : List ReadAct := (List.range' first count).map .loadByte

def storing (stores : List (PublishAct .raw)) : List (InterleavedAct .raw) :=
  stores.map .producerStore

def loading (loads : List ReadAct) : List (InterleavedAct .raw) := loads.map .senderLoad

def writing (stores : List (PublishAct .raw)) : List (InterleavedAct .raw) :=
  stores.map fun store => .tail (.publish store)

def copying (loads : List ReadAct) : List (InterleavedAct .raw) :=
  loads.map fun load => .tail (.load load 5)

/-- The second frame is published while the sender copies the first one, and read before
its index is stored. -/
def sendingActs : List (InterleavedAct .raw) :=
  List.flatten [
    [.startSender, .produce (rawFrame 1)],
    storing (.storeLen :: bytes 0 24),
    [.producerStore .storeSeq, .sender (.poll false)],
    loading (.loadSeq 0 :: .loadLen :: copied 0 12),
    [.producerStore .storeIndex, .produce (rawFrame 2)],
    storing (.storeLen :: bytes 0 20),
    loading (copied 12 12),
    [.senderLoad .reloadSeq, .sender (.alloc (some SenderLoop.freshMbuf)),
      .sender (.poll false)],
    storing (bytes 20 4),
    [.producerStore .storeSeq],
    loading (.loadSeq 1 :: .loadLen :: copied 0 24),
    [.senderLoad .reloadSeq, .producerStore .storeIndex, .sender (.poll false),
      .senderLoad (.loadSeq 2), .sender (.transmit true)]]

/-- The consumer copies the first frame while the receiver publishes the second one. -/
def receivingActs (network : List Mbuf) : List (InterleavedAct .raw) :=
  List.flatten [
    [.receiver (.burst ⟨network.take rxBurstSize, List.length_take_le _ _⟩), .receiver .next,
      .tail (.start ⟨List.replicate 576 0, List.length_replicate⟩ 4),
      .publish (rawFrame 1).toFrame, .tail (.load (.loadSeq 0) 5)],
    writing (.storeLen :: bytes 0 24),
    [.tail (.publish .storeSeq)],
    copying (.loadSeq 0 :: .loadLen :: copied 0 12),
    [.tail (.publish .storeIndex), .publish (rawFrame 2).toFrame],
    writing (.storeLen :: bytes 0 20),
    copying (copied 12 12),
    [.tail (.load .reloadSeq 5)],
    writing (bytes 20 4),
    [.tail (.publish .storeSeq), .tail (.publish .storeIndex)],
    copying (.loadSeq 1 :: .loadLen :: copied 0 24),
    [.tail (.load .reloadSeq 5)]]

theorem interleaved_in_order_overlapping :
    ∃ (state : Interleaved .raw ⟨2, 1, by decide⟩ ⟨2, 1, by decide⟩) (consumer : ConsumerLoop),
      consumer.recorded.map Sample.seqId = [1, 2] ∧
      (consumer.recorded.map Sample.seqId).Pairwise (· < ·) ∧ consumer.frames.length = 2 ∧
      ∀ sample bytes, (sample, bytes) ∈ consumer.recorded.zip consumer.frames →
        ∃ frame ∈ state.produced, frame.seqId = sample.seqId ∧ bytes = frame.bytes := by
  let initial : Interleaved .raw ⟨2, 1, by decide⟩ ⟨2, 1, by decide⟩ :=
    begin_ ⟨9, fun _ => ⟨3, 0, fun _ => 0⟩⟩ ⟨9, fun _ => ⟨3, 0, fun _ => 0⟩⟩
  let inLap (state : Interleaved .raw ⟨2, 1, by decide⟩ ⟨2, 1, by decide⟩)
      (act : InterleavedAct .raw) :=
    if state.InLap act then state.step System.littleEndianDeployment act else none
  have executed : ((sendingActs.foldlM inLap initial).bind fun sent =>
      ((receivingActs sent.network).foldlM inLap sent).bind fun state =>
        state.tail.consumer.map fun consumer =>
          (state.produced.length, consumer.recorded.map Sample.seqId)) = some (2, [1, 2]) := by
    decide +kernel
  obtain ⟨sent, sending, executed⟩ := Option.bind_eq_some_iff.mp executed
  obtain ⟨state, receiving, executed⟩ := Option.bind_eq_some_iff.mp executed
  obtain ⟨consumer, present, observed⟩ := Option.map_eq_some_iff.mp executed
  obtain ⟨two, recorded⟩ := Prod.mk.inj observed
  have run : Run (Guarded InLap (Step System.littleEndianDeployment)) initial _ state :=
    Run.trans (Run.guarded_of_foldlM sending) (Run.guarded_of_foldlM receiving)
  obtain ⟨increasing, lengths, whole⟩ :=
    interleaved_in_order (show System.littleEndianDeployment.setup.rte.Documented from
      Rte.littleEndianHost_documented) run (by omega) present
  have count := congrArg List.length recorded
  rw [List.length_map] at count
  refine ⟨state, consumer, recorded, increasing, lengths.trans count, ?_⟩
  intro sample bytes member
  obtain ⟨⟨frame, produced, same⟩, only⟩ := whole sample bytes member
  exact ⟨frame, produced, same, only frame produced same⟩

end Interleaved

end Lldt.Pipeline
