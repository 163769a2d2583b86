import Lldt.Consumer.Loop
import Lldt.Receiver.Stepwise
import Lldt.Sender.Loop

namespace Lldt.Pipeline

open Lldt.Dpdk
open Lldt.Harness
open Lldt.Msg
open Lldt.Shm
open Lldt.Transport

/-! The whole pipeline: the producer, the sender, the network, the receiver and
the consumer take steps in any order.  A publish or a read of a ring is one step. -/

structure Deployment where
  setup : SenderSetup
  config : ConsumerConfig

/-- The parties and what they share.  The sender and the consumer attach when
they start; `network` holds the mbufs TX has accepted. -/
structure System (profile : Profile) (sourceSlots destinationSlots : SlotCount) where
  source : Ring sourceSlots
  produced : List (ValidFrame profile)
  sender : Option SenderLoop
  network : List Mbuf
  receiver : RunningReceiver destinationSlots
  consumer : Option ConsumerLoop

inductive Act (profile : Profile) where
  | produce (frame : ValidFrame profile)
  | startSender
  | sender (event : SenderEvent)
  | receiver (event : ReceiverEvent)
  | startConsumer (frame : FrameArea profile) (now : UInt64)
  | consumer (now : UInt64)

section Guards

variable {slots : SlotCount}

def Answered (source : Ring slots) (sender : SenderLoop) : SenderEvent → Prop
  | .read result => result = source.read sender.reader.readIndex
  | _ => True

instance (source : Ring slots) (sender : SenderLoop) : DecidablePred (Answered source sender)
  | .read result => inferInstanceAs (Decidable (result = source.read sender.reader.readIndex))
  | .poll _ | .alloc _ | .transmit _ => .isTrue trivial

/-- RX yields packets the network holds, any of them, in any order and any number
of times, and other traffic that is no Data packet. -/
def Arrives (rte : Rte) (network : List Mbuf) (mbuf : Mbuf) : Prop :=
  (∃ sent ∈ network, mbuf.Receives sent) ∨ tryParseCanonicalDataPacket rte mbuf = none

instance (rte : Rte) (network : List Mbuf) : DecidablePred (Arrives rte network) :=
  fun mbuf => inferInstanceAs (Decidable ((∃ sent ∈ network, mbuf.Receives sent) ∨ _))

def Delivered (rte : Rte) (network : List Mbuf) : ReceiverEvent → Prop
  | .burst burst => ∀ mbuf ∈ burst.items, Arrives rte network mbuf
  | _ => True

instance (rte : Rte) (network : List Mbuf) : DecidablePred (Delivered rte network)
  | .burst burst => inferInstanceAs (Decidable (∀ mbuf ∈ burst.items, Arrives rte network mbuf))
  | .next | .publish | .finish => .isTrue trivial

def transmitted (setup : SenderSetup) (sender : SenderLoop) (event : SenderEvent) : List Mbuf :=
  match sender.phase, event with
  | .finish packet, .transmit true => [(sender.builtPacket setup packet).mbuf]
  | _, _ => []

end Guards

namespace System

variable {profile : Profile} {sourceSlots destinationSlots : SlotCount}
  (deployment : Deployment)

def start (sourceMemory : Ring sourceSlots) (destinationMemory : Ring destinationSlots) :
    System profile sourceSlots destinationSlots where
  source := sourceMemory.attach true
  produced := []
  sender := none
  network := []
  receiver := .start destinationMemory
  consumer := none

def destination (state : System profile sourceSlots destinationSlots) : Ring destinationSlots :=
  state.receiver.loop.writer.ring

def step (state : System profile sourceSlots destinationSlots) (act : Act profile) :
    Option (System profile sourceSlots destinationSlots) :=
  match act, state.sender, state.consumer with
  | .produce frame, _, _ =>
      -- the producer numbers its frames from one
      if frame.seqId = UInt64.ofNat (state.produced.length + 1) then some { state with
        source := state.source.publish frame.bytes frame.len
        produced := state.produced ++ [frame] }
      else none
  | .startSender, none, _ =>
      some { state with sender := some (.start profile state.source.liveEdge) }
  | .sender event, some sender, _ =>
      if Answered state.source sender event then
        (sender.step profile deployment.setup event).map fun next => { state with
          sender := some next
          network := state.network ++ transmitted deployment.setup sender event }
      else none
  | .receiver event, _, _ =>
      if Delivered deployment.setup.rte state.network event then
        (state.receiver.step profile deployment.setup.rte event).map fun next =>
          { state with receiver := next }
      else none
  | .startConsumer frame now, _, none =>
      some { state with
        consumer := some (.start deployment.config state.destination frame now) }
  | .consumer now, _, some consumer =>
      (consumer.step deployment.config state.destination now).map fun next =>
        { state with consumer := some next }
  | _, _, _ => none

def Step (state : System profile sourceSlots destinationSlots) (act : Act profile)
    (next : System profile sourceSlots destinationSlots) : Prop :=
  state.step deployment act = some next

variable {deployment} {state next : System profile sourceSlots destinationSlots}
  {act : Act profile}

theorem step_cases (stepped : Step deployment state act next) :
    (∃ frame, act = .produce frame ∧
      frame.seqId = UInt64.ofNat (state.produced.length + 1) ∧ next = { state with
        source := state.source.publish frame.bytes frame.len
        produced := state.produced ++ [frame] }) ∨
    (act = .startSender ∧ state.sender = none ∧
      next = { state with sender := some (.start profile state.source.liveEdge) }) ∨
    (∃ event sender after, act = .sender event ∧ state.sender = some sender ∧
      Answered state.source sender event ∧
      SenderLoop.Step profile deployment.setup sender event after ∧ next = { state with
        sender := some after
        network := state.network ++ transmitted deployment.setup sender event }) ∨
    (∃ event after, act = .receiver event ∧
      Delivered deployment.setup.rte state.network event ∧
      RunningReceiver.Step profile deployment.setup.rte state.receiver event after ∧
      next = { state with receiver := after }) ∨
    (∃ frame now, act = .startConsumer frame now ∧ state.consumer = none ∧ next = { state with
      consumer := some (.start deployment.config state.destination frame now) }) ∨
    (∃ now consumer after, act = .consumer now ∧ state.consumer = some consumer ∧
      consumer.step deployment.config state.destination now = some after ∧
      next = { state with consumer := some after }) := by
  unfold Step step at stepped
  split at stepped
  · rename_i frame
    split at stepped
    · rename_i numbered
      exact .inl ⟨frame, rfl, numbered, (Option.some.inj stepped).symm⟩
    · contradiction
  · rename_i absent
    exact .inr (.inl ⟨rfl, absent, (Option.some.inj stepped).symm⟩)
  · rename_i event sender present
    split at stepped
    · rename_i answered
      obtain ⟨after, moved, rfl⟩ := Option.map_eq_some_iff.mp stepped
      exact .inr (.inr (.inl ⟨event, sender, after, rfl, present, answered, moved, rfl⟩))
    · contradiction
  · rename_i event
    split at stepped
    · rename_i delivered
      obtain ⟨after, moved, rfl⟩ := Option.map_eq_some_iff.mp stepped
      exact .inr (.inr (.inr (.inl ⟨event, after, rfl, delivered, moved, rfl⟩)))
    · contradiction
  · rename_i frame now absent
    exact .inr (.inr (.inr (.inr (.inl ⟨frame, now, rfl, absent,
      (Option.some.inj stepped).symm⟩))))
  · rename_i now consumer present
    obtain ⟨after, moved, rfl⟩ := Option.map_eq_some_iff.mp stepped
    exact .inr (.inr (.inr (.inr (.inr ⟨now, consumer, after, rfl, present, moved, rfl⟩))))
  · contradiction

end System

end Lldt.Pipeline
