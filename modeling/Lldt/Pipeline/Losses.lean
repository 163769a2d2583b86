import Lldt.Consumer.Metrics
import Lldt.Pipeline.Integrity
import Lldt.Pipeline.Relays

namespace Lldt.Pipeline

open Lldt.Data.Bytes
open Lldt.Data.RetainedLog
open Lldt.Data.Relay
open Lldt.Data.Selection
open Lldt.Data.Transition
open Lldt.Dpdk
open Lldt.Harness
open Lldt.Msg
open Lldt.Shm
open Lldt.Transport

/-! Every frame that the consumer misses is in a count that one of the parties
keeps. -/

variable {profile : Profile} {sourceSlots destinationSlots : SlotCount}

namespace Act

def attaches : Act profile → Bool
  | .startSender => true
  | _ => false

def opens : Act profile → Bool
  | .startConsumer _ _ => true
  | _ => false

def produces : Act profile → Bool
  | .produce _ => true
  | _ => false

def publishes : Act profile → Bool
  | .receiver .publish => true
  | _ => false

end Act

/-- How many frames the source ring had when the sender attached. -/
def attachedAt (acts : List (Act profile)) : Nat := countBefore Act.attaches Act.produces acts

/-- Where in the destination ring the consumer began. -/
def enteredAt (config : ConsumerConfig) (acts : List (Act profile)) : Nat :=
  if config.fromEdge then countBefore Act.opens Act.publishes acts else 0

/-- What the acts so far and its counts say of what the sender has read. -/
structure Attached (acts : List (Act profile)) (history : List (List UInt8))
    (sender : Option SenderLoop) : Prop where
  before : sender = none → acts.any Act.attaches = false
  after : ∀ present ∈ sender, acts.any Act.attaches = true
  covers : ∀ present ∈ sender, Covers history (attachedAt acts) present.reader.readIndex.toNat
    present.log.admitted present.reader.counters.lappedFramesSkipped.toNat

/-- The same of the consumer. -/
structure Entered (config : ConsumerConfig) (acts : List (Act profile))
    (published : List (List UInt8)) (consumer : Option ConsumerLoop) : Prop where
  before : consumer = none → acts.any Act.opens = false
  after : ∀ present ∈ consumer, acts.any Act.opens = true
  trails : ∀ present ∈ consumer, ∃ skipped,
    present.Trails published (enteredAt config acts) skipped

section Keep

variable {acts : List (Act profile)} {act : Act profile} {log more : List (List UInt8)}
  {sender : Option SenderLoop} {config : ConsumerConfig} {consumer : Option ConsumerLoop}

theorem any_append {stops : Act profile → Bool} (stopped : acts.any stops = true)
    (act : Act profile) : (acts ++ [act]).any stops = true := by
  rw [List.any_append, stopped, Bool.true_or]

theorem not_any_append {stops : Act profile → Bool} (running : acts.any stops = false)
    (goes : stops act = false) : (acts ++ [act]).any stops = false := by
  rw [List.any_append, running, List.any_cons, goes]
  rfl

theorem attachedAt_append (stopped : acts.any Act.attaches = true) (act : Act profile) :
    attachedAt (acts ++ [act]) = attachedAt acts :=
  countBefore_append stopped [act]

theorem enteredAt_append (config : ConsumerConfig) (stopped : acts.any Act.opens = true)
    (act : Act profile) : enteredAt config (acts ++ [act]) = enteredAt config acts := by
  unfold enteredAt
  rw [countBefore_append stopped [act]]

theorem Attached.none (running : acts.any Act.attaches = false) : Attached acts log none where
  before := fun _ => running
  after := fun _ member => absurd member (Option.not_mem_none _)
  covers := fun _ member => absurd member (Option.not_mem_none _)

theorem Attached.some {present : SenderLoop} (stopped : acts.any Act.attaches = true)
    (covers : Covers log (attachedAt acts) present.reader.readIndex.toNat present.log.admitted
      present.reader.counters.lappedFramesSkipped.toNat) :
    Attached acts log (some present) := by
  refine ⟨nofun, ?_, ?_⟩
  · rintro _ ⟨⟩
    exact stopped
  · rintro _ ⟨⟩
    exact covers

theorem Entered.none (running : acts.any Act.opens = false) : Entered config acts log none where
  before := fun _ => running
  after := fun _ member => absurd member (Option.not_mem_none _)
  trails := fun _ member => absurd member (Option.not_mem_none _)

theorem Entered.some {present : ConsumerLoop} (stopped : acts.any Act.opens = true)
    (trails : ∃ skipped, present.Trails log (enteredAt config acts) skipped) :
    Entered config acts log (some present) := by
  refine ⟨nofun, ?_, ?_⟩
  · rintro _ ⟨⟩
    exact stopped
  · rintro _ ⟨⟩
    exact trails

theorem Attached.keep (attached : Attached acts log sender) (goes : act.attaches = false)
    (grown : log <+: more) : Attached (acts ++ [act]) more sender := by
  obtain ⟨before, after, covers⟩ := attached
  obtain ⟨rest, rfl⟩ := grown
  refine ⟨fun absent => not_any_append (before absent) goes,
    fun present member => any_append (after present member) act, ?_⟩
  intro present member
  rw [attachedAt_append (after present member)]
  exact (covers present member).append rest

theorem Entered.keep (entered : Entered config acts log consumer) (goes : act.opens = false)
    (grown : log <+: more) : Entered config (acts ++ [act]) more consumer := by
  obtain ⟨before, after, trails⟩ := entered
  obtain ⟨rest, rfl⟩ := grown
  refine ⟨fun absent => not_any_append (before absent) goes,
    fun present member => any_append (after present member) act, ?_⟩
  intro present member
  obtain ⟨skipped, trails⟩ := trails present member
  rw [enteredAt_append config (after present member)]
  exact ⟨skipped, trails.append rest⟩

end Keep

namespace System

variable {deployment : Deployment} {destinationMemory : Ring destinationSlots}

/-- What the acts so far and the counts say of what has been passed on. -/
structure Traced (deployment : Deployment) (acts : List (Act profile))
    (state : System profile sourceSlots destinationSlots) : Prop where
  produced : acts.countP Act.produces = state.produced.length
  published : acts.countP Act.publishes = state.published.length
  attached : Attached acts state.history state.sender
  charged : state.sending.Charged
  balanced : state.sending.Balanced
  forwards : state.receiver.Forwards profile deployment.setup.rte state.sending.log.built
  entered : Entered deployment.config acts state.published state.consumer

theorem traced_start (sourceMemory : Ring sourceSlots) (destinationMemory : Ring destinationSlots) :
    (start sourceMemory destinationMemory : System profile _ _).Traced deployment [] where
  produced := rfl
  published := rfl
  attached := .none rfl
  charged := SenderLoop.charged_start profile 0
  balanced := SenderLoop.balanced_start profile 0
  forwards := RunningReceiver.forwards_start profile _ destinationMemory
  entered := .none rfl

variable {acts : List (Act profile)} {state next : System profile sourceSlots destinationSlots}

theorem countP_append {counts : Act profile → Bool} {count : Nat} (act : Act profile)
    (counted : acts.countP counts = count) :
    (acts ++ [act]).countP counts = count + [act].countP counts := by
  rw [List.countP_append, counted]

theorem Traced.produce (traced : state.Traced deployment acts) (frame : ValidFrame profile) :
    ({ state with
      source := state.source.publish frame.bytes frame.len
      produced := state.produced ++ [frame] } : System profile _ _).Traced deployment
        (acts ++ [.produce frame]) := by
  obtain ⟨produced, published, attached, charged, balanced, forwards, entered⟩ := traced
  refine ⟨?_, countP_append _ published, attached.keep rfl ?_, charged, balanced, forwards,
    entered.keep rfl (List.prefix_refl _)⟩
  · rw [countP_append _ produced, List.length_append]
    rfl
  · exact (List.prefix_append _ _).map _

theorem Traced.startSender (traced : state.Traced deployment acts)
    (inv : state.Inv deployment destinationMemory) (absent : state.sender = none) :
    ({ state with sender := some (.start profile state.source.liveEdge) } :
      System profile _ _).Traced deployment (acts ++ [.startSender]) := by
  obtain ⟨produced, published, attached, charged, balanced, forwards, entered⟩ := traced
  rw [sending, absent] at forwards
  have edge : attachedAt (acts ++ [.startSender]) = state.history.length := by
    rw [attachedAt, countBefore_concat (attached.before absent) rfl, produced, length_history]
  have covers : Covers state.history state.history.length state.source.liveEdge.toNat [] 0 := by
    rw [Ring.liveEdge, inv.source.edge]
    exact .start (Nat.le_refl _)
  refine ⟨countP_append _ produced, countP_append _ published, .some ?_ ?_,
    SenderLoop.charged_start profile _, SenderLoop.balanced_start profile _, forwards,
    entered.keep rfl (List.prefix_refl _)⟩
  · rw [List.any_append]
    exact Bool.or_true _
  · rw [edge]
    exact covers

theorem covers_of_move {sender after : SenderLoop} {event : SenderEvent} {setup : SenderSetup}
    {source : Ring sourceSlots} {log : List (List UInt8)} {entered : Nat}
    (covers : Covers log entered sender.reader.readIndex.toNat sender.log.admitted
      sender.reader.counters.lappedFramesSkipped.toNat)
    (holds : source.Holds log) (room : log.length < 2 ^ 64 - 1)
    (valid : ∀ bytes ∈ log, ∃ frame : ValidFrame profile, frame.bytes = bytes)
    (answered : Answered source sender event)
    (move : SenderLoop.Move profile setup sender event after) :
    Covers log entered after.reader.readIndex.toNat after.log.admitted
      after.reader.counters.lappedFramesSkipped.toNat := by
  have readings := move.readings
  cases event with
  | read result =>
      cases answered
      have covered := covers_admitNext covers holds room valid
      rw [show (SenderLoop.admitNext profile (sender.reader, sender.log.admitted)
        (source.read sender.reader.readIndex)) = (after.reader, after.log.admitted)
        from readings.symm] at covered
      exact covered
  | poll _ | alloc _ | transmit _ =>
      obtain ⟨reader, admitted⟩ := Prod.mk.inj readings
      rw [reader, admitted]
      exact covers

theorem Traced.sender {sender after : SenderLoop} {event : SenderEvent}
    (traced : state.Traced deployment acts) (inv : state.Inv deployment destinationMemory)
    (present : state.sender = some sender) (fewer : state.produced.length < 2 ^ 64 - 1)
    (answered : Answered state.source sender event)
    (stepped : SenderLoop.Step profile deployment.setup sender event after) :
    ({ state with
      sender := some after
      network := state.network ++ transmitted deployment.setup sender event } :
        System profile _ _).Traced deployment (acts ++ [.sender event]) := by
  obtain ⟨produced, published, attached, charged, balanced, forwards, entered⟩ := traced
  have move := SenderLoop.move_of_step stepped
  have sending := sending_eq present
  have stream := inv.stream
  rw [sending] at charged balanced forwards stream
  have kept : Attached (acts ++ [.sender event]) state.history state.sender :=
    attached.keep rfl (List.prefix_refl _)
  rw [present] at kept
  refine ⟨countP_append _ produced, countP_append _ published,
    .some (kept.after sender rfl) ?_, charged.move stream balanced move,
    balanced.move stream move, forwards.grow (built_grows move),
    entered.keep rfl (List.prefix_refl _)⟩
  exact covers_of_move (kept.covers sender rfl) inv.source (by rwa [length_history])
    state.valid_history answered move

theorem published_of_step {rte : Rte} {receiver after : RunningReceiver destinationSlots}
    {event : ReceiverEvent} (stepped : RunningReceiver.Step profile rte receiver event after) :
    ∃ more, after.loop.writer.published = receiver.loop.writer.published ++ more ∧
      more.length = [(.receiver event : Act profile)].countP Act.publishes := by
  obtain ⟨burst, rfl, pending, writing, rfl⟩ | ⟨mbuf, rest, rfl, pending, writing, rfl⟩ |
    ⟨packet, frame, remaining, rfl, writing, rfl⟩ | ⟨packet, frame, rfl, writing, rfl⟩ :=
    RunningReceiver.step_cases stepped
  · refine ⟨[], ?_, rfl⟩
    unfold RunningReceiver.receiveBurst
    rw [List.append_nil]
    dsimp only
    split <;> rfl
  · refine ⟨[], ?_, rfl⟩
    have kept := fun packet =>
      ReceiverLoop.establish_writer (receiver.loop.receive mbuf) packet
    unfold RunningReceiver.begin
    rw [List.append_nil]
    dsimp only
    split
    · rfl
    · rename_i packet parses
      split
      · exact congrArg ReceiverShmWriter.published (kept packet)
      · dsimp only
        rw [ReceiverLoop.countGap_writer, kept packet]
        rfl
  · exact ⟨[_], rfl, rfl⟩
  · exact ⟨[], (List.append_nil _).symm, rfl⟩

theorem Inv.numbered_built (inv : state.Inv deployment destinationMemory)
    (fewer : state.produced.length < 2 ^ 64 - 1) :
    ∀ packet ∈ state.sending.log.built, state.sending.log.built[packet.seq]? = some packet := by
  intro packet member
  obtain ⟨number, found⟩ := List.mem_iff_getElem?.mp member
  rwa [inv.stream.seq_eq (inv.built_lt fewer) found]

theorem Inv.deliverable (inv : state.Inv deployment destinationMemory) {event : ReceiverEvent}
    (delivered : Delivered deployment.setup.rte state.network event) :
    ∀ burst, event = .burst burst → ∀ mbuf ∈ burst.items,
      Deliverable deployment.setup.rte state.sending.log.built mbuf := by
  intro burst received mbuf inside
  subst received
  rcases delivered mbuf inside with ⟨sent, isSent, receives⟩ | rejects
  · obtain ⟨packet, built, rfl⟩ := inv.network sent isSent
    exact .inl ⟨packet, built, receives⟩
  · exact .inr rejects

theorem Traced.receiver {after : RunningReceiver destinationSlots} {event : ReceiverEvent}
    (traced : state.Traced deployment acts) (inv : state.Inv deployment destinationMemory)
    (fewer : state.produced.length < 2 ^ 64 - 1)
    (delivered : Delivered deployment.setup.rte state.network event)
    (stepped : RunningReceiver.Step profile deployment.setup.rte state.receiver event after) :
    ({ state with receiver := after } : System profile _ _).Traced deployment
      (acts ++ [.receiver event]) := by
  obtain ⟨produced, published, attached, charged, balanced, forwards, entered⟩ := traced
  obtain ⟨more, grown, one⟩ := @published_of_step profile _ _ _ _ _ stepped
  have few := inv.built_lt fewer
  refine ⟨countP_append _ produced, ?_, attached.keep rfl (List.prefix_refl _), charged,
    balanced, ?_, entered.keep rfl ?_⟩
  · rw [countP_append _ published, System.published, System.published, grown,
      List.length_append, one]
  · exact forwards.step (by omega) (inv.numbered_built fewer) inv.stream.built
      (inv.deliverable delivered) stepped
  · rw [System.published, System.published, grown]
    exact List.prefix_append _ _

theorem Traced.startConsumer (traced : state.Traced deployment acts)
    (inv : state.Inv deployment destinationMemory) (absent : state.consumer = none)
    (frame : FrameArea profile) (now : UInt64) :
    ({ state with
      consumer := some (.start deployment.config state.destination frame now) } :
        System profile _ _).Traced deployment (acts ++ [.startConsumer frame now]) := by
  obtain ⟨produced, published, attached, charged, balanced, forwards, entered⟩ := traced
  have edge : enteredAt deployment.config (acts ++ [.startConsumer frame now]) =
      if deployment.config.fromEdge then state.published.length else 0 := by
    rw [enteredAt, countBefore_concat (entered.before absent) rfl, published]
  refine ⟨countP_append _ produced, countP_append _ published,
    attached.keep rfl (List.prefix_refl _), charged, balanced, forwards, .some ?_ ⟨0, ?_⟩⟩
  · rw [List.any_append]
    exact Bool.or_true _
  · rw [edge]
    exact ConsumerLoop.trails_start inv.destination frame now

theorem Traced.consume {consumer after : ConsumerLoop} {now : UInt64}
    (traced : state.Traced deployment acts) (inv : state.Inv deployment destinationMemory)
    (present : state.consumer = some consumer) (fewer : state.produced.length < 2 ^ 64 - 1)
    (stepped : consumer.step deployment.config state.destination now = some after) :
    ({ state with consumer := some after } : System profile _ _).Traced deployment
      (acts ++ [.consumer now]) := by
  obtain ⟨produced, published, attached, charged, balanced, forwards, entered⟩ := traced
  have valid : ∀ bytes ∈ state.published, ∃ frame : ValidFrame profile, frame.bytes = bytes :=
    fun bytes member => state.valid_history bytes ((inv.published_sublist fewer).subset member)
  have kept : Entered deployment.config (acts ++ [.consumer now]) state.published
      state.consumer := entered.keep rfl (List.prefix_refl _)
  rw [present] at kept
  obtain ⟨skipped, trails⟩ := kept.trails consumer rfl
  exact ⟨countP_append _ produced, countP_append _ published,
    attached.keep rfl (List.prefix_refl _), charged, balanced, forwards,
    .some (kept.after consumer rfl)
      (trails.step inv.destination (inv.published_lt fewer) valid stepped)⟩

theorem Traced.step {act : Act profile} (traced : state.Traced deployment acts)
    (inv : state.Inv deployment destinationMemory)
    (fewer : next.produced.length < 2 ^ 64 - 1) (stepped : Step deployment state act next) :
    next.Traced deployment (acts ++ [act]) := by
  have few := Nat.lt_of_le_of_lt (produced_mono stepped) fewer
  obtain ⟨frame, rfl, numbered, rfl⟩ | ⟨rfl, absent, rfl⟩ |
    ⟨event, sender, after, rfl, present, answered, moved, rfl⟩ |
    ⟨event, after, rfl, delivered, moved, rfl⟩ | ⟨frame, now, rfl, absent, rfl⟩ |
    ⟨now, consumer, after, rfl, present, moved, rfl⟩ := step_cases stepped
  · exact traced.produce frame
  · exact traced.startSender inv absent
  · exact traced.sender inv present few answered moved
  · exact traced.receiver inv few delivered moved
  · exact traced.startConsumer inv absent frame now
  · exact traced.consume inv present few moved

theorem traced_of_run (documented : deployment.setup.rte.Documented)
    {sourceMemory : Ring sourceSlots}
    (run : Run (Step deployment) (start sourceMemory destinationMemory) acts state)
    (fewer : state.produced.length < 2 ^ 64 - 1) :
    state.Inv deployment destinationMemory ∧ state.Traced deployment acts := by
  apply run.history_below
    (fun acts state => state.Inv deployment destinationMemory ∧ state.Traced deployment acts)
    (fun state => state.produced.length) _ produced_mono _ fewer
  · exact ⟨inv_start sourceMemory destinationMemory,
      traced_start sourceMemory destinationMemory⟩
  · intro acts state act next both fewer stepped
    exact ⟨both.1.step documented fewer stepped, both.2.step both.1 fewer stepped⟩

/-- The frames that the counts stand for: those the sender was sent past, those an
allocation or a reserve cost, those in packets the receiver found missing, and
those the consumer was sent past. -/
def counted (sender : SenderLoop) (missing : List BuiltPacket) (skipped : Nat) : Nat :=
  sender.reader.counters.lappedFramesSkipped.toNat +
    (sender.dataCounters.mbufAllocFailures.toNat + sender.refused) +
    (missing.flatMap BuiltPacket.records).length + skipped

theorem Inv.number_eq (inv : state.Inv deployment destinationMemory)
    (fewer : state.produced.length < 2 ^ 64 - 1) (position : Nat) (bytes : List UInt8)
    (found : state.history[position]? = some bytes) :
    (loadU64 bytes 0).toNat = 1 + position := by
  rw [history, List.getElem?_map] at found
  obtain ⟨frame, produced, rfl⟩ := Option.map_eq_some_iff.mp found
  rw [← frame.seqId_eq, inv.seqId_eq fewer produced, Nat.add_comm]

theorem few_admitted (fewer : state.produced.length < 2 ^ 64 - 1)
    {attached index skipped : Nat} {admitted : List (List UInt8)}
    (covers : Covers state.history attached index admitted skipped) :
    admitted.length < 2 ^ 64 := by
  have read := covers.relayed.sublist.length_le
  rw [length_history] at read
  omega

/-- Stage by stage the frames the consumer has are all of a run of the produced ones
but those that are counted. -/
theorem Inv.relayed (inv : state.Inv deployment destinationMemory)
    (fewer : state.produced.length < 2 ^ 64 - 1) {sender : SenderLoop} {consumer : ConsumerLoop}
    (sending : state.sending = sender) {attached entered skipped : Nat}
    {accepted missing : List BuiltPacket}
    (covers : Covers state.history attached sender.reader.readIndex.toNat sender.log.admitted
      sender.reader.counters.lappedFramesSkipped.toNat)
    (charged : sender.Charged)
    (forwards : (state.receiver.written profile).Forwards sender.log.built accepted missing)
    (trails : consumer.Trails state.published entered skipped) :
    Relayed (counted sender missing skipped) state.history consumer.frames := by
  have stream := inv.stream
  rw [sending] at stream
  have finished : Relayed _ sender.log.admitted sender.finished := stream.finished_relayed
  rw [charged.lost_length (few_admitted fewer covers)] at finished
  have through : Relayed _ sender.finished (accepted.flatMap BuiltPacket.records) :=
    relayed_flatMap _ (isInfix_window _ _ _) forwards.sublist forwards.split
  have inHand : Relayed 0 (accepted.flatMap BuiltPacket.records) state.published := by
    rw [← forwards.published]
    exact relayed_of_infix (RunningReceiver.published_written state.receiver).isInfix
  exact (((covers.relayed.trans finished).trans through).trans inHand).trans
    trails.covers.relayed

theorem Inv.dropped_le (inv : state.Inv deployment destinationMemory)
    (fewer : state.produced.length < 2 ^ 64 - 1) {consumer : ConsumerLoop} {missed : Nat}
    (reads : consumer.Reads state.published)
    (relayed : Relayed missed state.history consumer.frames)
    (mean : List UInt64 → Float) (capacity : UInt64) :
    (((Accumulator.new capacity).recordAll consumer.recorded).report mean).dropped.toNat ≤
      missed := by
  obtain ⟨-, recorded⟩ := reads
  have length := congrArg List.length recorded
  rw [List.length_map, List.length_map] at length
  have located {call : Sample} (member : call ∈ consumer.recorded) :
      ∃ bytes ∈ consumer.frames, loadU64 bytes 0 = call.seqId := by
    have mapped := List.mem_map_of_mem (f := Sample.seqId) member
    rw [recorded] at mapped
    exact List.mem_map.mp mapped
  apply Accumulator.report_dropped_le mean capacity
  · rw [recorded]
    have increasing := (inv.history_increasing fewer).sublist (relayed.sublist.map _)
    exact increasing.imp fun less => UInt64.ne_of_lt less
  · intro call member
    obtain ⟨bytes, read, same⟩ := located member
    obtain ⟨position, found⟩ := List.mem_iff_getElem?.mp (relayed.sublist.subset read)
    have number := inv.number_eq fewer position bytes found
    rw [UInt64.le_iff_toNat_le, ← same, number]
    exact Nat.le_add_right _ _
  · intro first isFirst last isLast
    obtain ⟨firstBytes, readFirst, firstSeq⟩ := located isFirst
    obtain ⟨lastBytes, readLast, lastSeq⟩ := located isLast
    rw [← firstSeq, ← lastSeq, length]
    exact relayed.lt_add (inv.number_eq fewer) readFirst readLast

/-- In every reachable state the frames that the consumer lacks of a run of the
produced ones, and so the ones it reports as dropped, are no more than the counts
of the four stages add up to. -/
theorem losses_counted (documented : deployment.setup.rte.Documented)
    {sourceMemory : Ring sourceSlots}
    (run : Run (Step deployment) (start sourceMemory destinationMemory) acts state)
    (fewer : state.produced.length < 2 ^ 64 - 1) {sender : SenderLoop} {consumer : ConsumerLoop}
    (sends : state.sender = some sender) (reads : state.consumer = some consumer)
    (mean : List UInt64 → Float) (capacity : UInt64) :
    ∃ (accepted missing : List BuiltPacket) (skipped : Nat),
      (state.receiver.written profile).Forwards sender.log.built accepted missing ∧
      consumer.Trails state.published (enteredAt deployment.config acts) skipped ∧
      Relayed (counted sender missing skipped) state.history consumer.frames ∧
      (((Accumulator.new capacity).recordAll consumer.recorded).report mean).dropped.toNat ≤
        counted sender missing skipped := by
  obtain ⟨inv, traced⟩ := traced_of_run documented run fewer
  obtain ⟨accepted, missing, forwards⟩ := traced.forwards.forwards
  obtain ⟨skipped, trails⟩ := traced.entered.trails consumer reads
  have covers := traced.attached.covers sender sends
  have charged := traced.charged
  have sending := sending_eq sends
  rw [sending] at forwards charged
  have relayed := inv.relayed fewer sending covers charged forwards trails
  refine ⟨accepted, missing, skipped, forwards, trails, relayed, ?_⟩
  exact inv.dropped_le fewer (inv.consumer consumer reads) relayed mean capacity

/-- None of the parties has counted a loss. -/
structure LossFree (state : System profile sourceSlots destinationSlots) (sender : SenderLoop)
    (consumer : ConsumerLoop) : Prop where
  unlapped : sender.reader.counters.lappedFramesSkipped = 0
  allocated : sender.dataCounters.mbufAllocFailures = 0
  reserved : sender.err = 0
  complete : state.receiver.loop.counters.dataPacketsMissing = 0
  kept : consumer.lappedEvents = 0

/-- What has been handed on has been taken up. -/
structure Drained (state : System profile sourceSlots destinationSlots) (sender : SenderLoop)
    (consumer : ConsumerLoop) : Prop where
  read : sender.reader.readIndex = state.source.liveEdge
  atRest : sender.phase = .head ∨ sender.phase = .exited
  carryFrame : sender.carryFrame = none
  arrived : state.receiver.loop.nextDataSeq = sender.nextDataSeq
  writing : state.receiver.writing = none
  taken : consumer.readIndex = state.destination.liveEdge

instance (state : System profile sourceSlots destinationSlots) (sender : SenderLoop)
    (consumer : ConsumerLoop) : Decidable (state.LossFree sender consumer) :=
  decidable_of_iff
    ((sender.reader.counters.lappedFramesSkipped = 0 ∧
      sender.dataCounters.mbufAllocFailures = 0) ∧ sender.err = 0 ∧
      state.receiver.loop.counters.dataPacketsMissing = 0 ∧ consumer.lappedEvents = 0)
    ⟨fun ⟨⟨unlapped, allocated⟩, reserved, complete, kept⟩ =>
        ⟨unlapped, allocated, reserved, complete, kept⟩,
      fun ⟨unlapped, allocated, reserved, complete, kept⟩ =>
        ⟨⟨unlapped, allocated⟩, reserved, complete, kept⟩⟩

def resting (sender : SenderLoop) : Bool :=
  match sender.phase with
  | .head | .exited => true
  | _ => false

theorem resting_iff {sender : SenderLoop} :
    resting sender = true ↔ sender.phase = .head ∨ sender.phase = .exited := by
  unfold resting
  split <;> simp_all

instance (state : System profile sourceSlots destinationSlots) (sender : SenderLoop)
    (consumer : ConsumerLoop) : Decidable (state.Drained sender consumer) :=
  decidable_of_iff
    ((sender.reader.readIndex = state.source.liveEdge ∧ resting sender = true) ∧
      sender.carryFrame.isNone = true ∧
      state.receiver.loop.nextDataSeq = sender.nextDataSeq ∧
      state.receiver.writing.isNone = true ∧ consumer.readIndex = state.destination.liveEdge)
    ⟨fun ⟨⟨read, rests⟩, empty, arrived, written, taken⟩ =>
        ⟨read, resting_iff.mp rests, Option.isNone_iff_eq_none.mp empty, arrived,
          Option.isNone_iff_eq_none.mp written, taken⟩,
      fun ⟨read, rests, empty, arrived, written, taken⟩ =>
        ⟨⟨read, resting_iff.mpr rests⟩, Option.isNone_iff_eq_none.mpr empty, arrived,
          Option.isNone_iff_eq_none.mpr written, taken⟩⟩

theorem dataPacketsMissing_written (receiver : RunningReceiver destinationSlots) :
    (receiver.written profile).counters.dataPacketsMissing =
      receiver.loop.counters.dataPacketsMissing := by
  unfold RunningReceiver.written
  split <;> rfl

theorem finished_eq_admitted {rte : Rte} {sender : SenderLoop}
    (stream : sender.Stream profile rte) (atRest : sender.phase = .head ∨ sender.phase = .exited)
    (empty : sender.carryFrame = none) (none : sender.log.lost = []) :
    sender.finished = sender.log.admitted := by
  have placed := stream.placed
  rcases atRest with phase | phase
  · simp only [SenderLoop.Placed, phase, SenderLoop.carried, empty] at placed
    obtain ⟨-, kept⟩ := placed
    rw [← kept, none, without_nil_right]
  · simp only [SenderLoop.Placed, phase] at placed
    obtain ⟨-, -, kept⟩ := placed
    rw [← kept, none, without_nil_right]

/-- Where no packet is missing, the ones from the first accepted one on are published. -/
theorem Drained.published_eq {sender : SenderLoop} {consumer : ConsumerLoop}
    {accepted : List BuiltPacket} (drained : state.Drained sender consumer)
    (forwards : (state.receiver.written profile).Forwards sender.log.built accepted [])
    (count : sender.nextDataSeq.toNat = sender.log.built.length) :
    state.published =
      (sender.log.built.drop state.receiver.loop.origin.toNat).flatMap BuiltPacket.records := by
  have idle : state.receiver.written profile = state.receiver.loop := by
    simp only [RunningReceiver.written, drained.writing]
  have rest : window sender.log.built state.receiver.loop.origin.toNat
      state.receiver.loop.nextDataSeq.toNat =
        sender.log.built.drop state.receiver.loop.origin.toNat := by
    rw [window, drained.arrived, count, List.take_length]
  rw [idle] at forwards
  have sublist := forwards.sublist
  have length := forwards.split.length_eq
  rw [rest] at sublist length
  rw [List.append_nil] at length
  rw [published, forwards.published, sublist.eq_of_length length]

/-- The sender is sent past two frames of a ring of two slots. -/
def lappedActs : List (Act .compact) :=
  [.startSender, .produce (tradeFrame 1)] ++
    ([.poll false, SenderLoop.tradeRead 1, .alloc (some SenderLoop.freshMbuf), .poll false,
      .read .kEmpty, .transmit true].map .sender) ++
    [.produce (tradeFrame 2), .produce (tradeFrame 3), .produce (tradeFrame 4),
      .produce (tradeFrame 5)] ++
    ([.poll false, .read (.kLapped 3 []), .poll false, SenderLoop.tradeRead 4,
      .alloc (some SenderLoop.freshMbuf), .poll false, SenderLoop.tradeRead 5, .poll false,
      .read .kEmpty, .transmit true].map .sender)

theorem length_blank : (List.replicate 96 (0 : UInt8)).length = (kFrameCap .compact).toNat :=
  rfl

def takingActs (network : List Mbuf) : List (Act .compact) :=
  [.startConsumer ⟨List.replicate 96 0, length_blank⟩ 5,
    .receiver (.burst ⟨network.take rxBurstSize, List.length_take_le _ _⟩), .receiver .next,
    .receiver .publish, .receiver .finish, .consumer 6, .receiver .next, .receiver .publish,
    .receiver .publish, .receiver .finish, .consumer 7, .consumer 8]

theorem losses_counted_lapped :
    ∃ (state : System .compact ⟨2, 1, by decide⟩ ⟨2, 1, by decide⟩) (consumer : ConsumerLoop),
      consumer.recorded.map Sample.seqId = [1, 4, 5] ∧
        Relayed 2 state.history consumer.frames ∧
        (((Accumulator.new 4).recordAll consumer.recorded).report fun _ => 0).dropped.toNat ≤
          2 := by
  let initial : System .compact ⟨2, 1, by decide⟩ ⟨2, 1, by decide⟩ :=
    start ⟨9, fun _ => ⟨3, 0, fun _ => 0⟩⟩ ⟨9, fun _ => ⟨3, 0, fun _ => 0⟩⟩
  have executed : ((lappedActs.foldlM (step littleEndianDeployment) initial).bind fun sent =>
      ((takingActs sent.network).foldlM (step littleEndianDeployment) sent).bind fun state =>
        state.sender.bind fun sender => state.consumer.map fun consumer =>
          (state.produced.length, (sender.reader.counters.lappedFramesSkipped,
            sender.dataCounters.mbufAllocFailures, sender.err),
            state.receiver.loop.counters.dataPacketsMissing, consumer.lappedEvents,
            consumer.recorded.map Sample.seqId)) = some (5, (2, 0, 0), 0, 0, [1, 4, 5]) := by
    decide +kernel
  obtain ⟨sent, sending, executed⟩ := Option.bind_eq_some_iff.mp executed
  obtain ⟨state, taking, executed⟩ := Option.bind_eq_some_iff.mp executed
  obtain ⟨sender, sends, executed⟩ := Option.bind_eq_some_iff.mp executed
  obtain ⟨consumer, reads, observed⟩ := Option.map_eq_some_iff.mp executed
  simp only [Prod.mk.injEq] at observed
  obtain ⟨five, ⟨skips, failures, err⟩, complete, laps, recorded⟩ := observed
  have run : Run (Step littleEndianDeployment) initial _ state :=
    Run.trans (.of_foldlM sending) (.of_foldlM taking)
  obtain ⟨accepted, missing, skipped, forwards, trails, relayed, dropped⟩ :=
    losses_counted (show littleEndianDeployment.setup.rte.Documented from
      Rte.littleEndianHost_documented) run (by omega) sends reads (fun _ => 0) 4
  have none : missing = [] := by
    have count := forwards.counted
    rw [dataPacketsMissing_written, complete] at count
    exact List.length_eq_zero_iff.mp count.symm
  have two : counted sender missing skipped = 2 := by
    rw [counted, skips, failures, none, trails.unlapped laps, SenderLoop.refused, if_pos err]
    rfl
  rw [two] at relayed dropped
  exact ⟨state, consumer, recorded, relayed, dropped⟩

/-- As long as no party counts a loss, the consumer has consecutive frames.  Once
everything is taken up it has those of all packets from the first one the receiver
accepted; if that was the sender's first, every frame since the sender attached, in
order and once. -/
theorem lossless_delivery (documented : deployment.setup.rte.Documented)
    {sourceMemory : Ring sourceSlots}
    (run : Run (Step deployment) (start sourceMemory destinationMemory) acts state)
    (fewer : state.produced.length < 2 ^ 64 - 1) {sender : SenderLoop} {consumer : ConsumerLoop}
    (sends : state.sender = some sender) (reads : state.consumer = some consumer)
    (lossFree : state.LossFree sender consumer) (mean : List UInt64 → Float) (capacity : UInt64) :
    consumer.frames <:+: state.history ∧
    (((Accumulator.new capacity).recordAll consumer.recorded).report mean).dropped = 0 ∧
    (state.Drained sender consumer → deployment.config.fromEdge = false →
      consumer.frames =
        (sender.log.built.drop state.receiver.loop.origin.toNat).flatMap BuiltPacket.records ∧
      consumer.frames <:+ state.history.drop (attachedAt acts) ∧
      (state.receiver.loop.origin = 0 →
        consumer.frames = state.history.drop (attachedAt acts))) := by
  obtain ⟨inv, traced⟩ := traced_of_run documented run fewer
  obtain ⟨accepted, missing, forwards⟩ := traced.forwards.forwards
  obtain ⟨skipped, trails⟩ := traced.entered.trails consumer reads
  have covers := traced.attached.covers sender sends
  have charged := traced.charged
  have sending := sending_eq sends
  have stream := inv.stream
  rw [sending] at forwards charged stream
  have none : missing = [] := by
    have counted := forwards.counted
    rw [dataPacketsMissing_written, lossFree.complete] at counted
    exact List.length_eq_zero_iff.mp counted.symm
  subst none
  obtain rfl := trails.unlapped lossFree.kept
  have refused : sender.refused = 0 := if_pos lossFree.reserved
  have relayed := inv.relayed fewer sending covers charged forwards trails
  rw [counted, lossFree.unlapped, lossFree.allocated, refused] at relayed
  refine ⟨relayed.isInfix, ?_, ?_⟩
  · have dropped := inv.dropped_le fewer (inv.consumer consumer reads) relayed mean capacity
    exact UInt64.toNat_inj.mp (Nat.eq_zero_of_le_zero dropped)
  · intro drained fromStart
    have built := inv.built_lt fewer
    rw [sending] at built
    have count : sender.nextDataSeq.toNat = sender.log.built.length := by
      rw [stream.nextDataSeq, UInt64.toNat_ofNat_of_lt' (show _ < 2 ^ 64 by omega)]
    have kept : sender.log.lost = [] := by
      have length := charged.lost_length (few_admitted fewer covers)
      rw [lossFree.allocated, refused] at length
      exact List.length_eq_zero_iff.mp length
    have admitted := finished_eq_admitted stream drained.atRest drained.carryFrame kept
    rw [lossFree.unlapped] at covers
    have whole : sender.log.built.flatMap BuiltPacket.records =
        state.history.drop (attachedAt acts) := by
      rw [show sender.log.built.flatMap BuiltPacket.records = sender.finished from rfl, admitted,
        covers.seen_eq, drained.read, Ring.liveEdge, inv.source.edge, List.take_length]
    have entered : enteredAt deployment.config acts = 0 := by
      simp [enteredAt, fromStart]
    have taken : consumer.frames =
        (sender.log.built.drop state.receiver.loop.origin.toNat).flatMap BuiltPacket.records := by
      rw [trails.covers.seen_eq, entered, List.drop_zero, drained.taken, Ring.liveEdge,
        inv.destination.edge, List.take_length, drained.published_eq forwards count]
    refine ⟨taken, ?_, fun first => ?_⟩
    · rw [taken, ← whole]
      refine ⟨(sender.log.built.take state.receiver.loop.origin.toNat).flatMap
        BuiltPacket.records, ?_⟩
      rw [← List.flatMap_append, List.take_append_drop]
    · rw [taken, first, ← whole]
      rfl

theorem lossless_delivery_duplicated :
    ∃ (state : System .compact ⟨4, 2, by decide⟩ ⟨2, 1, by decide⟩) (consumer : ConsumerLoop),
      consumer.recorded.map Sample.seqId = [2, 3] ∧ consumer.frames = state.history.drop 1 := by
  let initial : System .compact ⟨4, 2, by decide⟩ ⟨2, 1, by decide⟩ :=
    start ⟨9, fun _ => ⟨3, 0, fun _ => 0⟩⟩ ⟨9, fun _ => ⟨3, 0, fun _ => 0⟩⟩
  have executed : ((sendingActs.foldlM (step littleEndianDeployment) initial).bind fun sent =>
      ((receivingActs sent.network).foldlM (step littleEndianDeployment) sent).bind fun state =>
        state.sender.bind fun sender => state.consumer.map fun consumer =>
          (state.produced.length, decide (state.LossFree sender consumer),
            decide (state.Drained sender consumer), state.receiver.loop.origin,
            consumer.recorded.map Sample.seqId)) = some (3, true, true, 0, [2, 3]) := by
    decide +kernel
  obtain ⟨sent, sending, executed⟩ := Option.bind_eq_some_iff.mp executed
  obtain ⟨state, receiving, executed⟩ := Option.bind_eq_some_iff.mp executed
  obtain ⟨sender, sends, executed⟩ := Option.bind_eq_some_iff.mp executed
  obtain ⟨consumer, reads, observed⟩ := Option.map_eq_some_iff.mp executed
  simp only [Prod.mk.injEq, decide_eq_true_eq] at observed
  obtain ⟨three, lossFree, drained, first, recorded⟩ := observed
  have run : Run (Step littleEndianDeployment) initial _ state :=
    Run.trans (.of_foldlM sending) (.of_foldlM receiving)
  have attached : attachedAt (sendingActs ++ receivingActs sent.network) = 1 := by
    rw [attachedAt, countBefore_append (by decide)]
    decide
  obtain ⟨-, -, delivered⟩ :=
    lossless_delivery (show littleEndianDeployment.setup.rte.Documented from
      Rte.littleEndianHost_documented) run (by omega) sends reads lossFree (fun _ => 0) 4
  obtain ⟨-, -, whole⟩ := delivered drained rfl
  exact ⟨state, consumer, recorded, (whole first).trans (congrArg state.history.drop attached)⟩

end System

end Lldt.Pipeline
