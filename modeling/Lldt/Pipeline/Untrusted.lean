import Lldt.Consumer.Loop
import Lldt.Receiver.Stepwise

namespace Lldt.Pipeline

open Lldt.Data.Bytes
open Lldt.Data.Transition
open Lldt.Dpdk
open Lldt.Harness
open Lldt.Msg
open Lldt.Shm
open Lldt.Transport

/-! The receiver before a network it cannot trust, and a consumer at its ring.  The
parser looks at the prefix of a packet only, and so the lengths that reach the ring are
whatever the records state. -/

/-- Published slots state lengths for which the frame area has room, and none of them is
ahead of the write index. -/
structure Contained {slots : SlotCount} (profile : Profile) (ring : Ring slots) : Prop where
  fits : ∀ cell, (ring.slotAt cell).seq ≠ 0 → (ring.slotAt cell).frameLen ≤ kFrameCap profile
  behind : ∀ cell, (ring.slotAt cell).seq ≤ ring.writeIndex

section Ring

variable {profile : Profile} {slots : SlotCount} {ring : Ring slots}

theorem contained_attach (memory : Ring slots) : Contained profile (memory.attach true) where
  fits _ published := absurd rfl published
  behind _ := UInt64.zero_le

theorem Contained.publish (contained : Contained profile ring) {frame : List UInt8} {len : UInt32}
    (fits : len ≤ kFrameCap profile) (room : ring.writeIndex.toNat + 1 < 2 ^ 64) :
    Contained profile (ring.publish frame len) := by
  have next : ring.writeIndex ≤ ring.writeIndex + 1 := by
    rw [UInt64.le_iff_toNat_le, toNat_succ room]
    exact Nat.le_succ _
  constructor
  · intro cell published
    rw [Ring.publish_slotAt] at published ⊢
    split
    · exact fits
    · rename_i other
      rw [if_neg other] at published
      exact contained.fits cell published
  · intro cell
    rw [Ring.publish_slotAt, Ring.publish_writeIndex]
    split
    · exact UInt64.le_refl _
    · exact UInt64.le_trans (contained.behind cell) next

/-- A read in front of the write index copies no more than a frame area holds, and it
leads to an index that is not beyond the write index. -/
theorem Contained.read (contained : Contained profile ring) {index : UInt64}
    (within : index ≤ ring.writeIndex) (room : ring.writeIndex.toNat < 2 ^ 64 - 1) :
    (∀ len out, ring.read index = .kOk len out →
      out.length ≤ (kFrameCap profile).toNat ∧ index + 1 ≤ ring.writeIndex) ∧
    ∀ resume out, ring.read index = .kLapped resume out →
      out = [] ∧ resume ≤ ring.writeIndex := by
  have want : (index + 1).toNat = index.toNat + 1 := by
    rw [UInt64.le_iff_toNat_le] at within
    exact toNat_succ (by omega)
  have behind := contained.behind (slots.slot index)
  have fits := contained.fits (slots.slot index)
  unfold Ring.read
  dsimp only
  split
  · exact ⟨nofun, nofun⟩
  · rename_i notEarly
    split
    · rename_i late
      refine ⟨nofun, ?_⟩
      rintro resume out ⟨⟩
      refine ⟨rfl, ?_⟩
      rw [UInt64.le_iff_toNat_le, Ring.toNat_resumePoint]
      exact Nat.sub_le _ _
    · rename_i notLate
      have same : (ring.slotAt (slots.slot index)).seq = index + 1 :=
        UInt64.le_antisymm (UInt64.not_lt.mp notLate) (UInt64.not_lt.mp notEarly)
      rw [if_neg (not_not_intro same)]
      refine ⟨?_, nofun⟩
      rintro len out ⟨⟩
      have published : (ring.slotAt (slots.slot index)).seq ≠ 0 := by
        rw [same, ne_eq, ← UInt64.toNat_inj, want]
        exact Nat.succ_ne_zero _
      refine ⟨?_, same ▸ behind⟩
      rw [Slot.copyOut, List.length_map, List.length_range]
      exact UInt32.le_iff_toNat_le.mp (fits published)

end Ring

/-- A receiver and a consumer of its ring. -/
structure Exposed (slots : SlotCount) where
  receiver : RunningReceiver slots
  consumer : Option ConsumerLoop

inductive ExposedAct (profile : Profile) where
  | receiver (event : ReceiverEvent)
  | startConsumer (frame : FrameArea profile) (now : UInt64)
  | consumer (now : UInt64)

namespace Exposed

variable {profile : Profile} {slots : SlotCount} (rte : Rte) (config : ConsumerConfig)

def start (memory : Ring slots) : Exposed slots where
  receiver := .start memory
  consumer := none

def ring (state : Exposed slots) : Ring slots := state.receiver.loop.writer.ring

def published (state : Exposed slots) : List (List UInt8) := state.receiver.loop.writer.published

def step (state : Exposed slots) (act : ExposedAct profile) : Option (Exposed slots) :=
  match act, state.consumer with
  | .receiver event, _ =>
      (state.receiver.step profile rte event).map fun next => { state with receiver := next }
  | .startConsumer frame now, none =>
      some { state with consumer := some (.start config state.ring frame now) }
  | .consumer now, some consumer =>
      (consumer.step config state.ring now).map fun next => { state with consumer := some next }
  | _, _ => none

def Step (state : Exposed slots) (act : ExposedAct profile) (next : Exposed slots) : Prop :=
  state.step rte config act = some next

variable {rte config} {state next : Exposed slots} {act : ExposedAct profile}

theorem step_cases (stepped : Step rte config state act next) :
    (∃ event after, act = .receiver event ∧
      RunningReceiver.Step profile rte state.receiver event after ∧
      next = { state with receiver := after }) ∨
    (∃ frame now, act = .startConsumer frame now ∧ next = { state with
      consumer := some (.start config state.ring frame now) }) ∨
    (∃ now consumer after, act = .consumer now ∧ state.consumer = some consumer ∧
      consumer.step config state.ring now = some after ∧
      next = { state with consumer := some after }) := by
  unfold Step step at stepped
  split at stepped
  · rename_i event
    obtain ⟨after, moved, rfl⟩ := Option.map_eq_some_iff.mp stepped
    exact .inl ⟨event, after, rfl, moved, rfl⟩
  · rename_i frame now absent
    exact .inr (.inl ⟨frame, now, rfl, (Option.some.inj stepped).symm⟩)
  · rename_i now consumer present
    obtain ⟨after, moved, rfl⟩ := Option.map_eq_some_iff.mp stepped
    exact .inr (.inr ⟨now, consumer, after, rfl, present, moved, rfl⟩)
  · contradiction

/-- What the receiver does to the ring in one step: nothing, or one publish of the length
that the record at the cursor states. -/
theorem writer_of_step {receiver after : RunningReceiver slots} {event : ReceiverEvent}
    (stepped : RunningReceiver.Step profile rte receiver event after) :
    after.loop.writer = receiver.loop.writer ∨
      ∃ (image frame : List UInt8), after.loop.writer =
        receiver.loop.writer.publish frame (Header.load profile image).frameSize := by
  obtain ⟨burst, rfl, -, -, rfl⟩ | ⟨mbuf, rest, rfl, -, -, rfl⟩ |
    ⟨packet, frame, remaining, rfl, -, rfl⟩ | ⟨packet, frame, rfl, -, rfl⟩ :=
    RunningReceiver.step_cases stepped
  · unfold RunningReceiver.receiveBurst
    dsimp only
    split <;> exact .inl rfl
  · unfold RunningReceiver.begin
    cases parses : tryParseCanonicalDataPacket rte mbuf with
    | none => exact .inl rfl
    | some packet =>
        have kept := ReceiverLoop.establish_writer (receiver.loop.receive mbuf) packet
        dsimp only
        split
        · exact .inl kept
        · refine .inl ?_
          rw [ReceiverLoop.countGap_writer]
          exact kept
  · exact .inr ⟨_, _, rfl⟩
  · exact .inl rfl

/-- The ring is contained and the consumer's frame buffer has kept its size. -/
structure Inv (profile : Profile) (state : Exposed slots) : Prop where
  contained : Contained profile state.ring
  counted : state.ring.writeIndex = UInt64.ofNat state.published.length
  consumer : ∀ consumer ∈ state.consumer, consumer.readIndex ≤ state.ring.writeIndex ∧
    consumer.frame.length = (kFrameCap profile).toNat

theorem inv_start (memory : Ring slots) : Inv profile (start memory) where
  contained := contained_attach memory
  counted := rfl
  consumer := nofun

/-- A record of the Compact profile has the size of its type, if it has any. -/
theorem frameSize_le (image : List UInt8) :
    (Header.load .compact image).frameSize ≤ kFrameCap .compact := by
  change Compact.frameSize _ ≤ Compact.sizeofOrderBook
  unfold Compact.frameSize
  split
  · decide
  · split
    · decide
    · split <;> decide

theorem published_grows (stepped : Step rte config state act next) :
    state.published.length ≤ next.published.length := by
  obtain ⟨event, after, rfl, moved, rfl⟩ | ⟨frame, now, rfl, rfl⟩ |
    ⟨now, consumer, after, rfl, -, -, rfl⟩ := step_cases stepped
  · obtain same | ⟨image, frame, publish⟩ := writer_of_step moved
    · exact Nat.le_of_eq (by rw [published, published, same])
    · rw [published, published, publish, ReceiverShmWriter.publish, List.length_append]
      exact Nat.le_add_right _ _
  · exact Nat.le_refl _
  · exact Nat.le_refl _

theorem Inv.receive (inv : Inv .compact state) {event : ReceiverEvent}
    {after : RunningReceiver slots}
    (fewer : after.loop.writer.published.length < 2 ^ 64 - 1)
    (moved : RunningReceiver.Step .compact rte state.receiver event after) :
    Inv .compact { state with receiver := after } := by
  obtain ⟨contained, counted, consumers⟩ := inv
  obtain same | ⟨image, frame, publish⟩ := writer_of_step moved
  · have ring : ({ state with receiver := after } : Exposed slots).ring = state.ring := by
      rw [Exposed.ring, same, Exposed.ring]
    refine ⟨?_, ?_, ?_⟩
    · rwa [ring]
    · rw [ring, counted, published, published, same]
    · rwa [ring]
  · have more : after.loop.writer.published.length = state.published.length + 1 := by
      rw [publish, ReceiverShmWriter.publish, List.length_append]
      rfl
    have edge : state.ring.writeIndex.toNat = state.published.length := by
      rw [counted, UInt64.toNat_ofNat_of_lt' (show _ < 2 ^ 64 by omega)]
    have ring : ({ state with receiver := after } : Exposed slots).ring =
        state.ring.publish frame (Header.load .compact image).frameSize := by
      rw [Exposed.ring, publish]
      rfl
    refine ⟨?_, ?_, ?_⟩
    · rw [ring]
      exact contained.publish (frameSize_le image) (by omega)
    · rw [ring, Ring.publish_writeIndex, counted]
      change _ = UInt64.ofNat after.loop.writer.published.length
      rw [more, UInt64.ofNat_add]
      rfl
    · intro consumer present
      obtain ⟨within, size⟩ := consumers consumer present
      refine ⟨?_, size⟩
      rw [ring, Ring.publish_writeIndex, UInt64.le_iff_toNat_le, toNat_succ (by omega)]
      exact Nat.le_succ_of_le (UInt64.le_iff_toNat_le.mp within)

theorem Inv.consume (inv : Inv profile state) (fewer : state.published.length < 2 ^ 64 - 1)
    {consumer after : ConsumerLoop} {now : UInt64} (present : state.consumer = some consumer)
    (stepped : consumer.step config state.ring now = some after) :
    Inv profile { state with consumer := some after } := by
  obtain ⟨within, size⟩ := inv.consumer consumer present
  have edge : state.ring.writeIndex.toNat = state.published.length := by
    rw [inv.counted, UInt64.toNat_ofNat_of_lt' (show _ < 2 ^ 64 by omega)]
  obtain ⟨ok, lapped⟩ := inv.contained.read within (by omega)
  refine ⟨inv.contained, inv.counted, ?_⟩
  rintro _ ⟨⟩
  unfold ConsumerLoop.step at stepped
  split at stepped
  · cases stepped
    cases read : state.ring.read consumer.readIndex with
    | kOk len out =>
        obtain ⟨copied, next⟩ := ok len out read
        refine ⟨next, ?_⟩
        rw [ConsumerLoop.body, length_overwrite (by omega)]
        exact size
    | kLapped resume out =>
        obtain ⟨rfl, next⟩ := lapped resume out read
        refine ⟨next, ?_⟩
        rw [ConsumerLoop.body, length_overwrite (Nat.zero_le _)]
        exact size
    | kEmpty =>
        rw [ConsumerLoop.body]
        split <;> exact ⟨within, size⟩
  · contradiction

theorem Inv.step {act : ExposedAct .compact} (inv : Inv .compact state)
    (fewer : next.published.length < 2 ^ 64 - 1) (stepped : Step rte config state act next) :
    Inv .compact next := by
  obtain ⟨event, after, rfl, moved, rfl⟩ | ⟨frame, now, rfl, rfl⟩ |
    ⟨now, consumer, after, rfl, present, moved, rfl⟩ := step_cases stepped
  · exact inv.receive fewer moved
  · refine ⟨inv.contained, inv.counted, ?_⟩
    rintro _ ⟨⟩
    refine ⟨?_, frame.size⟩
    unfold ConsumerLoop.start
    dsimp only
    split
    · exact UInt64.le_refl _
    · exact UInt64.zero_le
  · exact inv.consume fewer present moved

/-- In the Compact profile nothing the network brings makes a read of the destination ring
run over the consumer's frame buffer: in every reachable state the next copy fits. -/
theorem untrusted_contained {memory : Ring slots} {acts : List (ExposedAct .compact)}
    (run : Run (Step rte config) (start memory) acts state)
    (fewer : state.published.length < 2 ^ 64 - 1) {consumer : ConsumerLoop}
    (present : state.consumer = some consumer) :
    consumer.frame.length = (kFrameCap .compact).toNat ∧
    ∀ len out, state.ring.read consumer.readIndex = .kOk len out →
      out.length ≤ consumer.frame.length := by
  have inv : Inv .compact state :=
    run.invariant_below (fun state => state.published.length) (2 ^ 64 - 1)
      (fun stepped => published_grows stepped) (fun inv below stepped => inv.step below stepped)
      fewer (inv_start memory)
  obtain ⟨within, size⟩ := inv.consumer consumer present
  have edge : state.ring.writeIndex.toNat = state.published.length := by
    rw [inv.counted, UInt64.toNat_ofNat_of_lt' (show _ < 2 ^ 64 by omega)]
  refine ⟨size, fun len out read => ?_⟩
  rw [size]
  exact ((inv.contained.read within (by omega)).1 len out read).1

/-- An mbuf with one record.  To Compact it is an order book that the packet has no room
for, to Raw a message of 600 bytes. -/
def forged : Mbuf where
  buffer := List.replicate 42 0 ++ DATA_PREFIX ++ List.replicate 9 0 ++ [1] ++
    List.replicate 5 0 ++ List.replicate 18 0 ++ [3, 0, 0x58, 2, 0, 0]
  dataLen := 88

def forgedActs (profile : Profile) (frame : FrameArea profile) : List (ExposedAct profile) :=
  [.startConsumer frame 5, .receiver (.burst ⟨[forged].take rxBurstSize, List.length_take_le _ _⟩),
    .receiver .next, .receiver .publish]

theorem length_blank (count : Nat) : (List.replicate count (0 : UInt8)).length = count :=
  List.length_replicate

theorem untrusted_contained_forged :
    ∃ (state : Exposed ⟨2, 1, by decide⟩) (consumer : ConsumerLoop) (out : List UInt8),
      state.ring.read consumer.readIndex = .kOk 96 out ∧ out.length ≤ consumer.frame.length := by
  let initial : Exposed ⟨2, 1, by decide⟩ := start ⟨9, fun _ => ⟨3, 0, fun _ => 0⟩⟩
  have executed : (((forgedActs .compact ⟨List.replicate 96 0, length_blank 96⟩).foldlM
      (step Rte.littleEndianHost ⟨0, false, 2000⟩) initial).bind fun state =>
        state.consumer.map fun consumer =>
          (state.published.length, state.ring.read consumer.readIndex)) =
            some (1, .kOk 96 (List.replicate 18 0 ++ [3, 0, 0x58, 2] ++ List.replicate 74 0)) := by
    decide +kernel
  obtain ⟨state, executed, observed⟩ := Option.bind_eq_some_iff.mp executed
  obtain ⟨consumer, present, observed⟩ := Option.map_eq_some_iff.mp observed
  obtain ⟨one, read⟩ := Prod.mk.inj observed
  obtain ⟨-, fits⟩ := untrusted_contained (.of_foldlM executed) (by omega) present
  exact ⟨state, consumer, _, read, fits _ _ read⟩

/-- In the Raw profile a record states its own length, and one packet is enough. -/
theorem raw_uncontained :
    ∃ (acts : List (ExposedAct .raw)) (state : Exposed ⟨2, 1, by decide⟩)
      (consumer : ConsumerLoop) (out : List UInt8),
      Run (Step Rte.littleEndianHost ⟨0, false, 2000⟩) (start ⟨9, fun _ => ⟨3, 0, fun _ => 0⟩⟩)
        acts state ∧ state.consumer = some consumer ∧
      state.ring.read consumer.readIndex = .kOk 600 out ∧ consumer.frame.length < out.length := by
  let initial : Exposed ⟨2, 1, by decide⟩ := start ⟨9, fun _ => ⟨3, 0, fun _ => 0⟩⟩
  have executed : (((forgedActs .raw ⟨List.replicate 576 0, length_blank 576⟩).foldlM
      (step Rte.littleEndianHost ⟨0, false, 2000⟩) initial).bind fun state =>
        state.consumer.map fun consumer =>
          (state.ring.read consumer.readIndex, consumer.frame.length)) =
            some (.kOk 600 (List.replicate 18 0 ++ [3, 0, 0x58, 2] ++ List.replicate 578 0),
              576) := by
    decide +kernel
  obtain ⟨state, executed, observed⟩ := Option.bind_eq_some_iff.mp executed
  obtain ⟨consumer, present, observed⟩ := Option.map_eq_some_iff.mp observed
  obtain ⟨read, size⟩ := Prod.mk.inj observed
  refine ⟨_, state, consumer, _, .of_foldlM executed, present, read, ?_⟩
  rw [size, List.length_append, List.length_append, List.length_replicate, List.length_replicate]
  decide

end Exposed

end Lldt.Pipeline
