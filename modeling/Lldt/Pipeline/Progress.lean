import Lldt.Pipeline.Losses
import Lldt.Sender.Progress

namespace Lldt.Pipeline

open Lldt.Data.Bytes
open Lldt.Data.Selection
open Lldt.Data.Transition
open Lldt.Dpdk
open Lldt.Harness
open Lldt.Msg
open Lldt.Shm
open Lldt.Transport

/-! Once its producer is silent a reader catches up with it, whatever the others do
in the meantime. -/

variable {profile : Profile} {sourceSlots destinationSlots : SlotCount}

namespace Act

def sends : Act profile → Bool
  | .sender _ => true
  | _ => false

def consumes : Act profile → Bool
  | .consumer _ => true
  | _ => false

end Act

/-- A consumer with something in front of it comes closer to it and goes on; it leaves
for want of frames only when it has had them all. -/
theorem lag_step {config : ConsumerConfig} {ring : Ring destinationSlots}
    {log : List (List UInt8)} (holds : ring.Holds log) (room : log.length < 2 ^ 64 - 1)
    {consumer next : ConsumerLoop} {now : UInt64} (within : consumer.readIndex.toNat ≤ log.length)
    (stepped : consumer.step config ring now = some next) :
    consumer.readIndex.toNat = log.length ∨
      (next.stopped = false ∧
        log.length - next.readIndex.toNat < log.length - consumer.readIndex.toNat) := by
  have indexRoom : consumer.readIndex.toNat + 1 < 2 ^ 64 := by omega
  unfold ConsumerLoop.step at stepped
  split at stepped
  · rename_i running
    cases stepped
    by_cases early : log.length ≤ consumer.readIndex.toNat
    · exact .inl (Nat.le_antisymm within early)
    · by_cases recent : log.length ≤ consumer.readIndex.toNat + destinationSlots.size
      · rw [Ring.Holds.read_recent _ holds (by omega) indexRoom (by omega) recent]
        refine .inr ⟨running.1, ?_⟩
        simp only [ConsumerLoop.body]
        rw [toNat_succ indexRoom]
        omega
      · rw [Ring.Holds.read_lapped _ holds (by omega) indexRoom (by omega)]
        refine .inr ⟨running.1, ?_⟩
        have positive := destinationSlots.size_pos
        simp only [ConsumerLoop.body]
        rw [UInt64.toNat_ofNat_of_lt' (show _ < 2 ^ 64 by omega)]
        omega
  · contradiction

namespace System

variable {deployment : Deployment} {destinationMemory : Ring destinationSlots}
  {state next : System profile sourceSlots destinationSlots} {act : Act profile}

/-- Where the producer is silent, an act is a call of the sender or leaves it alone. -/
theorem sending_of_step (stepped : Step deployment state act next)
    (silent : act.produces = false) {sender : SenderLoop} (present : state.sender = some sender) :
    next.produced = state.produced ∧
    ((act.sends = false ∧ next.sender = some sender) ∨
      ∃ event after, act.sends = true ∧ next.sender = some after ∧
        Answered state.source sender event ∧
        SenderLoop.Step profile deployment.setup sender event after) := by
  obtain ⟨frame, rfl, numbered, rfl⟩ | ⟨rfl, absent, rfl⟩ |
    ⟨event, other, after, rfl, sends, answered, moved, rfl⟩ |
    ⟨event, after, rfl, delivered, moved, rfl⟩ | ⟨frame, now, rfl, absent, rfl⟩ |
    ⟨now, consumer, after, rfl, reads, moved, rfl⟩ := step_cases stepped
  · contradiction
  · rw [present] at absent
    contradiction
  · rw [present] at sends
    cases sends
    exact ⟨rfl, .inr ⟨event, after, rfl, rfl, answered, moved⟩⟩
  all_goals exact ⟨rfl, .inl ⟨rfl, present⟩⟩

theorem Inv.lowers (inv : state.Inv deployment destinationMemory)
    (fewer : state.produced.length < 2 ^ 64 - 1) {sender after : SenderLoop} {event : SenderEvent}
    (present : state.sender = some sender) (answered : Answered state.source sender event)
    (stepped : SenderLoop.Step profile deployment.setup sender event after)
    (unsettled : ¬after.Settled state.produced.length) :
    after.effort state.produced.length + 1 ≤ sender.effort state.produced.length := by
  have stream := inv.stream
  have within := inv.follows.bound
  rw [sending_eq present] at stream within
  rw [← length_history] at unsettled fewer ⊢
  refine SenderLoop.Move.lowers inv.source fewer stream within ?_
    (SenderLoop.move_of_step stepped) unsettled
  rintro result rfl
  exact answered

/-- A sender that has not left can always make its next call. -/
theorem sender_enabled {sender : SenderLoop} (present : state.sender = some sender)
    (running : sender.phase ≠ .exited) :
    ∃ event next, Step deployment state (.sender event) next := by
  have awaits : ∃ event, Answered state.source sender event ∧ sender.phase.Awaits event := by
    cases phase : sender.phase with
    | head | batch packet => exact ⟨.poll true, trivial, trivial⟩
    | readFirst | readNext packet => exact ⟨.read _, rfl, trivial⟩
    | allocate firstFrame => exact ⟨.alloc none, trivial, trivial⟩
    | finish packet => exact ⟨.transmit true, trivial, trivial⟩
    | exited => contradiction
  obtain ⟨event, answered, awaits⟩ := awaits
  obtain ⟨after, moved⟩ : ∃ after, SenderLoop.Step profile deployment.setup sender event after :=
    SenderLoop.step_iff_awaits.mpr awaits
  have called : sender.step profile deployment.setup event = some after := moved
  refine ⟨event, { state with
    sender := some after
    network := state.network ++ transmitted deployment.setup sender event }, ?_⟩
  simp only [Step, step, present, if_pos answered, called, Option.map_some]

/-- What silence of the producer leaves true of the sender. -/
structure Standing (deployment : Deployment) (destinationMemory : Ring destinationSlots)
    (published : Nat) (state : System profile sourceSlots destinationSlots) : Prop where
  inv : state.Inv deployment destinationMemory
  produced : state.produced.length = published
  present : ∃ sender, state.sender = some sender

/-- The steps in which the producer is silent. -/
abbrev SilentStep (deployment : Deployment) :
    System profile sourceSlots destinationSlots → Act profile →
      System profile sourceSlots destinationSlots → Prop :=
  Guarded (fun _ act => act.produces = false) (Step deployment)

section Silent

variable {published : Nat}

theorem Standing.step (documented : deployment.setup.rte.Documented)
    (fewer : published < 2 ^ 64 - 1)
    (standing : state.Standing deployment destinationMemory published)
    (stepped : SilentStep deployment state act next) :
    next.Standing deployment destinationMemory published := by
  obtain ⟨inv, count, sender, present⟩ := standing
  obtain ⟨silent, stepped⟩ := stepped
  obtain ⟨same, moved⟩ := sending_of_step stepped silent present
  rw [← same] at count
  refine ⟨inv.step documented (by rwa [count]) stepped, count, ?_⟩
  rcases moved with ⟨-, kept⟩ | ⟨event, after, -, moved, -⟩
  · exact ⟨sender, kept⟩
  · exact ⟨after, moved⟩

theorem Standing.lowers (fewer : published < 2 ^ 64 - 1)
    (standing : state.Standing deployment destinationMemory published)
    (stepped : SilentStep deployment state act next)
    (unsettled : ¬next.sending.Settled published) :
    next.sending.effort published + (if act.sends then 1 else 0) ≤
      state.sending.effort published := by
  obtain ⟨inv, rfl, sender, present⟩ := standing
  obtain ⟨-, moved⟩ := sending_of_step stepped.2 stepped.1 present
  rw [sending_eq present]
  rcases moved with ⟨other, kept⟩ | ⟨event, after, sends, moved, answered, called⟩
  · rw [sending_eq kept, other]
    exact Nat.le_refl _
  · rw [sending_eq moved] at unsettled ⊢
    rw [if_pos sends]
    exact inv.lowers fewer present answered called unsettled

end Silent

/-- While the producer is silent the sender is never stuck.  Within ten of its calls for
each frame in front of it and eight more, whatever the others do, it has left or is back
at the head of its loop with everything read, and the frames it read are in finished
packets but for those an mbuf was missing for. -/
theorem sender_catches_up (documented : deployment.setup.rte.Documented)
    {sourceMemory : Ring sourceSlots} {acts later : List (Act profile)}
    (run : Run (Step deployment) (start sourceMemory destinationMemory) acts state)
    (fewer : state.produced.length < 2 ^ 64 - 1) {sender : SenderLoop}
    (sends : state.sender = some sender) {finish : System profile sourceSlots destinationSlots}
    (silence : Run (SilentStep deployment) state later finish) :
    (∀ last, finish.sender = some last → last.phase ≠ .exited →
      ∃ event after, Step deployment finish (.sender event) after) ∧
    (10 * (state.produced.length - sender.reader.readIndex.toNat) + 8 ≤ later.countP Act.sends →
      ∃ first rest middle caught, later = first ++ rest ∧
        Run (SilentStep deployment) state first middle ∧
        Run (SilentStep deployment) middle rest finish ∧ middle.sender = some caught ∧
        caught.Settled state.produced.length ∧
        caught.finished = without caught.log.admitted caught.log.lost) := by
  have standing : state.Standing deployment destinationMemory state.produced.length :=
    ⟨inv_of_run documented run fewer, rfl, sender, sends⟩
  refine ⟨fun last => sender_enabled, ?_⟩
  intro long
  have enough : state.sending.effort state.produced.length ≤ later.countP Act.sends := by
    rw [sending_eq sends]
    exact (SenderLoop.effort_le _ _).trans long
  obtain ⟨first, rest, middle, split, before, after, settled⟩ :=
    silence.visits (fun middle => middle.sending.effort state.produced.length) Act.sends
      (fun standing stepped => Standing.step documented fewer standing stepped)
      (fun standing _ unsettled stepped => standing.lowers fewer stepped unsettled)
      (fun _ none => SenderLoop.settled_of_effort none) standing enough
  obtain ⟨inv, -, caught, present⟩ := before.invariant
    (fun standing stepped => Standing.step documented fewer standing stepped) standing
  have stream := inv.stream
  rw [sending_eq present] at settled stream
  exact ⟨first, rest, middle, caught, split, before, after, present, settled,
    stream.finished_of_settled settled⟩

/-- One frame for the sender, which goes on looking for more. -/
def pollingActs : List (Act .compact) :=
  ([.poll false, SenderLoop.tradeRead 1, .alloc (some SenderLoop.freshMbuf), .poll false,
      .read .kEmpty, .transmit true].map .sender) ++
    ((List.replicate 6 [.poll false, .read .kEmpty]).flatten.map .sender)

theorem sender_catches_up_polling :
    ∃ (middle : System .compact ⟨2, 1, by decide⟩ ⟨2, 1, by decide⟩) (caught : SenderLoop),
      middle.sender = some caught ∧ caught.Settled 1 ∧
        caught.finished = without caught.log.admitted caught.log.lost := by
  let initial : System .compact ⟨2, 1, by decide⟩ ⟨2, 1, by decide⟩ :=
    start ⟨9, fun _ => ⟨3, 0, fun _ => 0⟩⟩ ⟨9, fun _ => ⟨3, 0, fun _ => 0⟩⟩
  have executed : (([.startSender, .produce (tradeFrame 1)].foldlM (step littleEndianDeployment)
      initial).bind fun state => (pollingActs.foldlM (fun state act =>
        if act.produces = false then step littleEndianDeployment state act else none) state).bind
          fun _ => state.sender.map fun sender =>
            (state.produced.length, sender.reader.readIndex)) = some (1, 0) := by
    decide +kernel
  obtain ⟨state, starting, executed⟩ := Option.bind_eq_some_iff.mp executed
  obtain ⟨finish, polling, executed⟩ := Option.bind_eq_some_iff.mp executed
  obtain ⟨sender, present, observed⟩ := Option.map_eq_some_iff.mp executed
  obtain ⟨one, index⟩ := Prod.mk.inj observed
  obtain ⟨-, visits⟩ := sender_catches_up (show littleEndianDeployment.setup.rte.Documented from
    Rte.littleEndianHost_documented) (.of_foldlM starting) (by omega) present
    (Run.guarded_of_foldlM polling)
  rw [one, index] at visits
  obtain ⟨-, -, middle, caught, -, -, -, present, settled, finished⟩ := visits (by decide)
  exact ⟨middle, caught, present, settled, finished⟩

/-- Where nothing is published, an act is one of the consumer or leaves it alone. -/
theorem consumer_of_step (stepped : Step deployment state act next)
    (quiet : act.publishes = false) {consumer : ConsumerLoop}
    (present : state.consumer = some consumer) :
    next.published = state.published ∧
    ((act.consumes = false ∧ next.consumer = some consumer) ∨
      ∃ now after, act.consumes = true ∧ next.consumer = some after ∧
        consumer.step deployment.config state.destination now = some after) := by
  obtain ⟨frame, rfl, numbered, rfl⟩ | ⟨rfl, absent, rfl⟩ |
    ⟨event, other, after, rfl, sends, answered, moved, rfl⟩ |
    ⟨event, after, rfl, delivered, moved, rfl⟩ | ⟨frame, now, rfl, absent, rfl⟩ |
    ⟨now, other, after, rfl, reads, moved, rfl⟩ := step_cases stepped
  · exact ⟨rfl, .inl ⟨rfl, present⟩⟩
  · exact ⟨rfl, .inl ⟨rfl, present⟩⟩
  · exact ⟨rfl, .inl ⟨rfl, present⟩⟩
  · obtain ⟨more, grown, one⟩ := @published_of_step profile _ _ _ _ _ moved
    rw [List.countP_singleton, if_neg (by simp [quiet])] at one
    rw [List.length_eq_zero_iff.mp one, List.append_nil] at grown
    exact ⟨grown, .inl ⟨rfl, present⟩⟩
  · rw [present] at absent
    contradiction
  · rw [present] at reads
    cases reads
    exact ⟨rfl, .inr ⟨now, after, rfl, rfl, moved⟩⟩

/-- How far the consumer is behind what is published. -/
def behind (state : System profile sourceSlots destinationSlots) : Nat :=
  match state.consumer with
  | some consumer => state.published.length - consumer.readIndex.toNat
  | none => 0

abbrev QuietStep (deployment : Deployment) :
    System profile sourceSlots destinationSlots → Act profile →
      System profile sourceSlots destinationSlots → Prop :=
  Guarded (fun _ act => act.publishes = false) (Step deployment)

/-- What is true of a consumer that has started, as long as few frames are produced. -/
structure Following (deployment : Deployment) (destinationMemory : Ring destinationSlots)
    (state : System profile sourceSlots destinationSlots) : Prop where
  inv : state.produced.length < 2 ^ 64 - 1 → state.Inv deployment destinationMemory
  present : ∃ consumer, state.consumer = some consumer

/-- The consumer has read everything that is published. -/
def Abreast (state : System profile sourceSlots destinationSlots) : Prop :=
  state.produced.length < 2 ^ 64 - 1 → ∃ consumer, state.consumer = some consumer ∧
    consumer.readIndex.toNat = state.published.length

theorem Following.step (documented : deployment.setup.rte.Documented)
    (following : state.Following deployment destinationMemory)
    (stepped : QuietStep deployment state act next) :
    next.Following deployment destinationMemory := by
  obtain ⟨inv, consumer, present⟩ := following
  obtain ⟨quiet, stepped⟩ := stepped
  refine ⟨fun fewer => ?_, ?_⟩
  · exact (inv (Nat.lt_of_le_of_lt (produced_mono stepped) fewer)).step documented fewer stepped
  · obtain ⟨-, ⟨-, kept⟩ | ⟨now, after, -, moved, -⟩⟩ := consumer_of_step stepped quiet present
    · exact ⟨consumer, kept⟩
    · exact ⟨after, moved⟩

theorem Following.run (documented : deployment.setup.rte.Documented) {acts : List (Act profile)}
    (following : state.Following deployment destinationMemory)
    (quiet : Run (QuietStep deployment) state acts next) :
    next.Following deployment destinationMemory :=
  quiet.invariant (fun following stepped => Following.step documented following stepped) following

theorem Following.closer (following : state.Following deployment destinationMemory)
    (stepped : QuietStep deployment state act next) (trailing : ¬state.Abreast) :
    next.behind + (if act.consumes then 1 else 0) ≤ state.behind := by
  obtain ⟨inv, consumer, present⟩ := following
  obtain ⟨fewer, behindAll⟩ := Classical.not_imp.mp trailing
  have inv := inv fewer
  obtain ⟨quiet, stepped⟩ := stepped
  obtain ⟨same, ⟨other, kept⟩ | ⟨now, after, consumes, moved, called⟩⟩ :=
    consumer_of_step stepped quiet present
  · simp only [behind, present, kept, same, other]
    exact Nat.le_refl _
  · rcases lag_step inv.destination (inv.published_lt fewer)
        (inv.consumer consumer present).follows.bound called with all | ⟨-, closer⟩
    · exact absurd ⟨consumer, present, all⟩ behindAll
    · simp only [behind, present, moved, same, consumes, if_true]
      omega

end System

end Lldt.Pipeline
