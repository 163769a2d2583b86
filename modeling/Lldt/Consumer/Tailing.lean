import Lldt.Consumer.Loop
import Lldt.Ring.Linearize

namespace Lldt.Harness

open Lldt.Data.Bytes
open Lldt.Data.RetainedLog
open Lldt.Data.Transition
open Lldt.Msg
open Lldt.Shm

/-! The consumer's loop on the interleaved ring: the producer moves between any two
loads of its reads. -/

/-- The shared region, where the consumer stands inside `ring.read`, its loop once it
has started, and the index it started from. -/
structure Tailing (profile : Profile) (slots : SlotCount) where
  shared : Shared profile slots
  pc : ReadPc
  consumer : Option ConsumerLoop
  entered : Nat

inductive TailAct (profile : Profile) where
  | publish (act : PublishAct profile)
  | start (frame : FrameArea profile) (now : UInt64)
  | load (load : ReadAct) (now : UInt64)

namespace Tailing

variable {profile : Profile} {slots : SlotCount} (config : ConsumerConfig)

def begin_ (memory : Ring slots) : Tailing profile slots where
  shared := .start memory
  pc := .idle
  consumer := none
  entered := 0

/-- The loop reads at its read index as long as its conditions hold. -/
def Asks (consumer : ConsumerLoop) (load : ReadAct) : Prop :=
  (∀ index, load = .loadSeq index → index = consumer.readIndex) ∧
    consumer.stopped = false ∧ (config.count = 0 ∨ consumer.received < config.count)

instance (consumer : ConsumerLoop) : (load : ReadAct) → Decidable (Asks config consumer load)
  | .loadSeq index => decidable_of_iff (index = consumer.readIndex ∧
      consumer.stopped = false ∧ (config.count = 0 ∨ consumer.received < config.count))
      (by simp [Asks])
  | .loadLen | .loadByte _ | .reloadSeq | .loadEdge => decidable_of_iff
      (consumer.stopped = false ∧ (config.count = 0 ∨ consumer.received < config.count))
      (by simp [Asks])

def step (state : Tailing profile slots) (act : TailAct profile) :
    Option (Tailing profile slots) :=
  match act, state.consumer with
  | .publish act, _ =>
      (state.shared.step act).map fun shared => { state with shared := shared }
  | .start frame now, none =>
      let consumer := ConsumerLoop.start config state.shared.ring frame now
      some { state with consumer := some consumer, entered := consumer.readIndex.toNat }
  | .load load now, some consumer =>
      if Asks config consumer load then
        (state.pc.step state.shared.ring load).map fun (pc, returned) => { state with
          pc := pc
          consumer := some (returned.elim consumer fun (_, result) =>
            consumer.body config result now) }
      else none
  | _, _ => none

def Step (state : Tailing profile slots) (act : TailAct profile)
    (next : Tailing profile slots) : Prop :=
  state.step config act = some next

variable {config} {state next : Tailing profile slots} {act : TailAct profile}

theorem step_cases (stepped : Step config state act next) :
    (∃ publish shared, act = .publish publish ∧ state.shared.step publish = some shared ∧
      next = { state with shared := shared }) ∨
    (∃ frame now, act = .start frame now ∧ state.consumer = none ∧ next = { state with
      consumer := some (ConsumerLoop.start config state.shared.ring frame now)
      entered := (ConsumerLoop.start config state.shared.ring frame now).readIndex.toNat }) ∨
    (∃ load now consumer pc returned, act = .load load now ∧
      state.consumer = some consumer ∧ Asks config consumer load ∧
      state.pc.step state.shared.ring load = some (pc, returned) ∧ next = { state with
        pc := pc
        consumer := some (returned.elim consumer fun (_, result) =>
          consumer.body config result now) }) := by
  unfold Step step at stepped
  split at stepped
  · rename_i publish
    obtain ⟨shared, moved, rfl⟩ := Option.map_eq_some_iff.mp stepped
    exact .inl ⟨publish, shared, rfl, moved, rfl⟩
  · rename_i frame now absent
    exact .inr (.inl ⟨frame, now, rfl, absent, (Option.some.inj stepped).symm⟩)
  · rename_i load now consumer present
    split at stepped
    · rename_i asks
      obtain ⟨⟨pc, returned⟩, moved, rfl⟩ := Option.map_eq_some_iff.mp stepped
      exact .inr (.inr ⟨load, now, consumer, pc, returned, rfl, present, asks, moved, rfl⟩)
    · contradiction
  · contradiction

theorem step_calls (stepped : Step config state act next) :
    state.shared.calls <+: next.shared.calls := by
  obtain ⟨publish, shared, rfl, moved, rfl⟩ | ⟨frame, now, rfl, absent, rfl⟩ |
    ⟨load, now, consumer, pc, returned, rfl, present, asks, moved, rfl⟩ := step_cases stepped
  · exact Shared.step_calls moved
  · exact List.prefix_refl _
  · exact List.prefix_refl _

/-- When the consumer takes a frame, the producer has not begun to overwrite it. -/
def InLap (state : Tailing profile slots) : TailAct profile → Prop
  | .load .reloadSeq _ =>
      match state.pc with
      | .copy index _ _ _ =>
          (state.shared.ring.slotAt (slots.slot index)).seq = index + 1 →
            state.shared.calls.length ≤ index.toNat + slots.size
      | _ => True
  | _ => True

instance (state : Tailing profile slots) : DecidablePred state.InLap
  | .load .reloadSeq _ =>
      match reader : state.pc with
      | .copy index _ _ _ => decidable_of_iff
          ((state.shared.ring.slotAt (slots.slot index)).seq = index + 1 →
            state.shared.calls.length ≤ index.toNat + slots.size) (by rw [InLap, reader])
      | .idle | .loadLen _ | .loadEdge _ _ =>
          .isTrue (by rw [InLap, reader]; trivial)
  | .publish _ | .start _ _ | .load (.loadSeq _) _ | .load .loadLen _
  | .load (.loadByte _) _ | .load .loadEdge _ => .isTrue trivial

def target : ReadPc → Option UInt64
  | .idle => none
  | .loadLen index | .copy index _ _ _ | .loadEdge index _ => some index

/-- What the consumer has to show after some acts. -/
structure Shows (shared : Shared profile slots) (entered acts : Nat) (consumer : ConsumerLoop) :
    Prop where
  behind : consumer.readIndex.toNat ≤ shared.seqStores
  covers : ∃ skipped, Covers (shared.calls.map Frame.bytes) entered consumer.readIndex.toNat
    consumer.frames skipped ∧
    (acts < 2 ^ 64 → consumer.lappedEvents.toNat ≤ acts ∧
      (consumer.lappedEvents = 0 → skipped = 0))
  received : consumer.received.toNat = consumer.frames.length
  recorded : (∀ frame ∈ shared.calls, sizeofHeader ≤ frame.bytes.length) →
    consumer.recorded.map Sample.seqId = consumer.frames.map fun frame => loadU64 frame 0

structure Inv (acts : Nat) (state : Tailing profile slots) : Prop where
  shared : state.shared.Inv
  grounded : Reading.Grounded state.shared state.pc
  idle : state.consumer = none → state.pc = .idle
  aimed : ∀ index, target state.pc = some index →
    ∃ consumer, state.consumer = some consumer ∧ index = consumer.readIndex
  shows : ∀ consumer, state.consumer = some consumer →
    Shows state.shared state.entered acts consumer

theorem inv_begin (memory : Ring slots) : Inv 0 (begin_ memory : Tailing profile slots) where
  shared := Shared.inv_start memory
  grounded := trivial
  idle := fun _ => rfl
  aimed := nofun
  shows := nofun

section Answers

variable {shared : Shared profile slots} {entered acts : Nat} {consumer : ConsumerLoop}

/-- One more act in which the consumer did not get an answer. -/
theorem Shows.wait (shows_ : Shows shared entered acts consumer) :
    Shows shared entered (acts + 1) consumer := by
  obtain ⟨behind, ⟨skipped, covers, laps⟩, received, recorded⟩ := shows_
  refine ⟨behind, ⟨skipped, covers, fun few => ?_⟩, received, recorded⟩
  obtain ⟨bound, unlapped⟩ := laps (Nat.lt_of_succ_lt few)
  exact ⟨Nat.le_succ_of_le bound, unlapped⟩

theorem Shows.publish {next : Shared profile slots} {publish : PublishAct profile}
    (shows_ : Shows shared entered acts consumer) (stepped : shared.step publish = some next) :
    Shows next entered (acts + 1) consumer := by
  obtain ⟨behind, ⟨skipped, covers, laps⟩, received, recorded⟩ := shows_.wait
  obtain ⟨more, calls⟩ := Shared.step_calls stepped
  refine ⟨behind.trans (Shared.step_seqStores stepped), ⟨skipped, ?_, laps⟩, received, ?_⟩
  · rw [← calls, List.map_append]
    exact covers.append _
  · intro headers
    apply recorded
    intro frame member
    apply headers
    rw [← calls]
    exact List.mem_append_left _ member

theorem shows_start (inv : shared.Inv) (frame : FrameArea profile) (now : UInt64) :
    Shows shared (ConsumerLoop.start config shared.ring frame now).readIndex.toNat acts
      (ConsumerLoop.start config shared.ring frame now) := by
  have behind : (ConsumerLoop.start config shared.ring frame now).readIndex.toNat ≤
      shared.seqStores := by
    unfold ConsumerLoop.start
    dsimp only
    split
    · exact inv.writeIndex_bounds.1
    · exact Nat.zero_le _
  refine ⟨behind, ⟨0, ?_, fun _ => ⟨Nat.zero_le _, fun _ => rfl⟩⟩, rfl, fun _ => rfl⟩
  apply Covers.start
  rw [List.length_map]
  exact behind.trans inv.seqStores_le

/-- The body of the loop keeps what the consumer has to show, whatever the read has
found out about the index. -/
theorem Shows.answered (shows_ : Shows shared entered acts consumer) (inv : shared.Inv)
    (room : shared.calls.length < 2 ^ 64) {result : ReadResult} (now : UInt64)
    (outcome : Reading.Outcome shared consumer.readIndex result)
    (near : result.status = .kOk →
      shared.calls.length ≤ consumer.readIndex.toNat + slots.size) :
    Shows shared entered (acts + 1) (consumer.body config result now) := by
  have waiting := shows_.wait
  obtain ⟨behind, ⟨skipped, covers, laps⟩, received, recorded⟩ := shows_
  have stores := inv.seqStores_le
  have edge := inv.writeIndex_bounds
  have counted := covers.counted
  cases result with
  | kEmpty =>
      simp only [ConsumerLoop.body]
      split
      · exact ⟨waiting.behind, waiting.covers, waiting.received, waiting.recorded⟩
      · exact waiting
  | kOk outLen out =>
      obtain ⟨stored, exact⟩ := outcome
      obtain ⟨frame, called, rfl, rfl⟩ := exact (near rfl)
      have copied : slice (overwrite consumer.frame 0 frame.bytes) 0 frame.len.toNat =
          frame.bytes := by
        rw [frame.toNat_len]
        exact slice_overwrite_self (Nat.zero_le _)
      have advanced : (consumer.readIndex + 1).toNat = consumer.readIndex.toNat + 1 :=
        toNat_succ (by omega)
      have present : (shared.calls.map Frame.bytes)[consumer.readIndex.toNat]? =
          some frame.bytes := by
        rw [List.getElem?_map, called]
        rfl
      refine ⟨?_, ⟨skipped, ?_, ?_⟩, ?_, ?_⟩
      · simp only [ConsumerLoop.body, advanced]
        exact stored
      · simp only [ConsumerLoop.body, advanced, copied]
        exact covers.next present
      · intro few
        obtain ⟨bound, unlapped⟩ := laps (Nat.lt_of_succ_lt few)
        exact ⟨Nat.le_succ_of_le bound, unlapped⟩
      · simp only [ConsumerLoop.body, List.length_append, List.length_singleton]
        rw [toNat_succ (by omega), received]
      · intro headers
        have whole : 8 ≤ frame.bytes.length :=
          Nat.le_trans (by decide) (headers frame (List.mem_of_getElem? called))
        simp only [ConsumerLoop.body, copied, List.map_append, List.map_singleton,
          recorded headers, ConsumerLoop.loadFraming_overwrite whole]
  | kLapped resumeAt out =>
      obtain ⟨beyond, target⟩ := outcome
      refine ⟨?_, ⟨_, covers.skip ?_ ?_, ?_⟩, received, recorded⟩
      · simp only [ConsumerLoop.body]
        omega
      · simp only [ConsumerLoop.body]
        omega
      · simp only [ConsumerLoop.body, List.length_map]
        omega
      · intro few
        obtain ⟨bound, -⟩ := laps (Nat.lt_of_succ_lt few)
        have lap : (consumer.lappedEvents + 1).toNat = consumer.lappedEvents.toNat + 1 :=
          toNat_succ (by omega)
        refine ⟨?_, fun none => ?_⟩
        · simp only [ConsumerLoop.body]
          omega
        · have zero : (consumer.lappedEvents + 1).toNat = 0 := congrArg UInt64.toNat none
          omega

end Answers

/-- A call stays with the index it was made for and returns it. -/
theorem target_of_step {ring : Ring slots} {pc next : ReadPc} {load : ReadAct}
    {returned : Option (UInt64 × ReadResult)}
    (stepped : pc.step ring load = some (next, returned)) :
    (∀ index, target next = some index → load = .loadSeq index ∨ target pc = some index) ∧
    ∀ index result, returned = some (index, result) →
      next = .idle ∧ (load = .loadSeq index ∨ target pc = some index) := by
  obtain ⟨index, rfl, early, rfl, rfl, rfl⟩ | ⟨index, rfl, late, rfl, rfl, rfl⟩ |
    ⟨index, rfl, wanted, rfl, rfl, rfl⟩ | ⟨index, rfl, rfl, rfl, rfl⟩ |
    ⟨index, len, out, todo, offset, rfl, member, rfl, rfl, rfl⟩ |
    ⟨index, len, out, rfl, rfl, changed, rfl, rfl⟩ |
    ⟨index, len, out, rfl, rfl, wanted, rfl, rfl⟩ |
    ⟨index, out, rfl, rfl, rfl, rfl⟩ := ReadPc.step_cases stepped
  · exact ⟨nofun, fun _ _ same => by cases same; exact ⟨rfl, .inl rfl⟩⟩
  · exact ⟨fun _ same => by cases same; exact .inl rfl, nofun⟩
  · exact ⟨fun _ same => by cases same; exact .inl rfl, nofun⟩
  · exact ⟨fun _ same => .inr same, nofun⟩
  · exact ⟨fun _ same => .inr same, nofun⟩
  · exact ⟨fun _ same => .inr same, nofun⟩
  · exact ⟨nofun, fun _ _ same => by cases same; exact ⟨rfl, .inr rfl⟩⟩
  · exact ⟨nofun, fun _ _ same => by cases same; exact ⟨rfl, .inr rfl⟩⟩

theorem near_of_inLap {load : ReadAct} {now index : UInt64} {pc : ReadPc} {result : ReadResult}
    (inLap : state.InLap (.load load now))
    (stepped : state.pc.step state.shared.ring load = some (pc, some (index, result)))
    (ok : result.status = .kOk) : state.shared.calls.length ≤ index.toNat + slots.size := by
  obtain ⟨_, -, -, -, -, same⟩ | ⟨_, -, -, -, -, same⟩ | ⟨_, -, -, -, -, same⟩ |
    ⟨_, -, -, -, same⟩ | ⟨_, _, _, _, _, -, -, -, -, same⟩ | ⟨_, _, _, -, -, -, -, same⟩ |
    ⟨index, len, out, at_, rfl, wanted, -, same⟩ | ⟨_, _, -, -, -, same⟩ :=
      ReadPc.step_cases stepped
  all_goals cases same
  · contradiction
  · simp only [InLap, at_] at inLap
    exact inLap wanted
  · contradiction

theorem Inv.load {acts : Nat} {load : ReadAct} {now : UInt64} {consumer : ConsumerLoop}
    {pc : ReadPc} {returned : Option (UInt64 × ReadResult)} (inv : Inv acts state)
    (room : state.shared.calls.length < 2 ^ 64 - 1) (present : state.consumer = some consumer)
    (asks : Asks config consumer load) (inLap : state.InLap (.load load now))
    (stepped : state.pc.step state.shared.ring load = some (pc, returned)) :
    Inv (acts + 1) { state with
      pc := pc
      consumer := some (returned.elim consumer fun (_, result) =>
        consumer.body config result now) } := by
  have shows_ := inv.shows consumer present
  have behind := shows_.behind
  have stores := inv.shared.seqStores_le
  obtain ⟨keeps, answers⟩ := target_of_step stepped
  have mine {index : UInt64} (own : load = .loadSeq index ∨ target state.pc = some index) :
      index = consumer.readIndex := by
    rcases own with asked | aimed
    · exact asks.1 index asked
    · obtain ⟨other, same, here⟩ := inv.aimed index aimed
      rw [present] at same
      cases same
      exact here
  obtain ⟨grounded, outcomes⟩ := inv.grounded.load inv.shared (by omega) (by
    intro index asked
    rw [asks.1 index asked]
    omega) stepped
  cases returned with
  | none =>
      refine ⟨inv.shared, grounded, nofun, ?_, ?_⟩
      · intro index aimed
        exact ⟨consumer, rfl, mine (keeps index aimed)⟩
      · intro other same
        cases same
        exact shows_.wait
  | some answer =>
      obtain ⟨index, result⟩ := answer
      obtain ⟨rfl, own⟩ := answers index result rfl
      obtain ⟨-, outcome⟩ := outcomes index result rfl
      obtain rfl := mine own
      refine ⟨inv.shared, grounded, nofun, nofun, ?_⟩
      intro other same
      cases same
      exact shows_.answered inv.shared (by omega) now outcome (near_of_inLap inLap stepped)

theorem Inv.step {acts : Nat} (inv : Inv acts state)
    (room : next.shared.calls.length < 2 ^ 64 - 1) (inLap : state.InLap act)
    (stepped : Step config state act next) : Inv (acts + 1) next := by
  obtain ⟨publish, shared, rfl, moved, rfl⟩ | ⟨frame, now, rfl, absent, rfl⟩ |
    ⟨load, now, consumer, pc, returned, rfl, present, asks, moved, rfl⟩ := step_cases stepped
  · refine ⟨inv.shared.step moved (Nat.lt_of_lt_of_le room (Nat.sub_le _ _)),
      inv.grounded.publish moved, inv.idle, inv.aimed, ?_⟩
    intro consumer present
    exact (inv.shows consumer present).publish moved
  · refine ⟨inv.shared, inv.grounded, nofun, ?_, ?_⟩
    · intro index aimed
      rw [inv.idle absent] at aimed
      contradiction
    · intro consumer same
      cases same
      exact shows_start inv.shared frame now
  · exact inv.load room present asks inLap moved

def header (seqId : UInt8) : Frame .compact where
  bytes := seqId :: List.replicate 23 0
  fits := by simp [kMaxFrame, Compact.sizeofOrderBook]

end Tailing

end Lldt.Harness
