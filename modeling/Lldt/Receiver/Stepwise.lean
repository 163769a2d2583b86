import Lldt.Data.Transition
import Lldt.Receiver.Loop
import Lldt.Receiver.Writer

namespace Lldt.Transport

open Lldt.Data.Bytes
open Lldt.Data.Transition
open Lldt.Dpdk
open Lldt.Msg
open Lldt.Shm

/-! The receiver one publish at a time, so that others can move between the
records of one packet.  Completing what it has in hand gives the loop. -/

/-- Where `writer.write` stands: the packet, `frame - packet.data` and the
records still to be published. -/
structure WriteCursor where
  packet : CanonicalDataPacketView
  frame : Nat
  remaining : Nat

/-- The loop between two of its calls: the mbufs of the burst that are not yet
looked at, and the packet being written.  `bursts` are the bursts so far. -/
structure RunningReceiver (slots : SlotCount) where
  loop : ReceiverLoop (ReceiverShmWriter slots)
  pending : List Mbuf
  writing : Option WriteCursor
  bursts : List (RxBurst Mbuf)

inductive ReceiverEvent where
  | burst (burst : RxBurst Mbuf)
  | next
  | publish
  | finish

namespace RunningReceiver

variable {slots : SlotCount} (profile : Profile) (rte : Rte)

def start (memory : Ring slots) : RunningReceiver slots where
  loop := .start (.attached memory)
  pending := []
  writing := none
  bursts := []

def receiveBurst (state : RunningReceiver slots) (burst : RxBurst Mbuf) :
    RunningReceiver slots :=
  let counters := { state.loop.counters with rxBursts := state.loop.counters.rxBursts + 1 }
  let bursts := state.bursts ++ [burst]
  if burst.items.length = 0 then { state with
    bursts := bursts
    loop := { state.loop with
      counters := { counters with emptyRxBursts := counters.emptyRxBursts + 1 } } }
  else { state with
    bursts := bursts
    loop := { state.loop with counters := counters }
    pending := burst.items }

def begin (state : RunningReceiver slots) (mbuf : Mbuf) (rest : List Mbuf) :
    RunningReceiver slots :=
  let loop := state.loop.receive mbuf
  match tryParseCanonicalDataPacket rte mbuf with
  | none => { state with loop := loop.reject, pending := rest }
  | some packet =>
      let loop := loop.establish packet
      if packet.dataSeq < loop.nextDataSeq then
        { state with loop := loop.drop, pending := rest }
      else { state with
        loop := loop.countGap packet
        pending := rest
        writing := some ⟨packet, 22, packet.recordCount.toNat⟩ }

def publishNext (state : RunningReceiver slots) (packet : CanonicalDataPacketView)
    (frame remaining : Nat) : RunningReceiver slots :=
  let (writer, frame) :=
    ReceiverShmWriter.writeFrame profile packet (state.loop.writer, frame)
  { state with
    loop := { state.loop with writer := writer }
    writing := some ⟨packet, frame, remaining⟩ }

def step (state : RunningReceiver slots) (event : ReceiverEvent) :
    Option (RunningReceiver slots) :=
  match event, state.pending, state.writing with
  | .burst burst, [], none => some (state.receiveBurst burst)
  | .next, mbuf :: rest, none => some (state.begin rte mbuf rest)
  | .publish, _, some ⟨packet, frame, remaining + 1⟩ =>
      some (state.publishNext profile packet frame remaining)
  | .finish, _, some ⟨packet, _, 0⟩ =>
      some { state with loop := state.loop.accept packet, writing := none }
  | _, _, _ => none

def written (state : RunningReceiver slots) : ReceiverLoop (ReceiverShmWriter slots) :=
  match state.writing with
  | none => state.loop
  | some ⟨packet, frame, remaining⟩ =>
      { state.loop with
        writer := ((ReceiverShmWriter.writeFrame profile packet)^[remaining]
          (state.loop.writer, frame)).1 }.accept packet

/-- The loop once all of the burst is handled. -/
def drained (state : RunningReceiver slots) : ReceiverLoop (ReceiverShmWriter slots) :=
  state.pending.foldl (ReceiverLoop.onMbuf rte (ReceiverShmWriter.write profile))
    (state.written profile)

def Step (state : RunningReceiver slots) (event : ReceiverEvent)
    (next : RunningReceiver slots) : Prop :=
  state.step profile rte event = some next

section Steps

variable {profile : Profile} {rte : Rte} {state next : RunningReceiver slots}
  {event : ReceiverEvent}

theorem step_cases (stepped : Step profile rte state event next) :
    (∃ burst, event = .burst burst ∧ state.pending = [] ∧ state.writing = none ∧
      next = state.receiveBurst burst) ∨
    (∃ mbuf rest, event = .next ∧ state.pending = mbuf :: rest ∧ state.writing = none ∧
      next = state.begin rte mbuf rest) ∨
    (∃ packet frame remaining, event = .publish ∧
      state.writing = some ⟨packet, frame, remaining + 1⟩ ∧
      next = state.publishNext profile packet frame remaining) ∨
    (∃ packet frame, event = .finish ∧ state.writing = some ⟨packet, frame, 0⟩ ∧
      next = { state with loop := state.loop.accept packet, writing := none }) := by
  unfold Step step at stepped
  split at stepped
  · rename_i burst pending writing
    exact .inl ⟨burst, rfl, pending, writing, (Option.some.inj stepped).symm⟩
  · rename_i mbuf rest pending writing
    exact .inr (.inl ⟨mbuf, rest, rfl, pending, writing, (Option.some.inj stepped).symm⟩)
  · rename_i packet frame remaining writing
    exact .inr (.inr (.inl ⟨packet, frame, remaining, rfl, writing,
      (Option.some.inj stepped).symm⟩))
  · rename_i packet frame writing
    exact .inr (.inr (.inr ⟨packet, frame, rfl, writing, (Option.some.inj stepped).symm⟩))
  · contradiction

theorem drained_receiveBurst (pending : state.pending = []) (writing : state.writing = none)
    (burst : RxBurst Mbuf) :
    (state.receiveBurst burst).drained profile rte =
      (state.drained profile rte).onBurst rte (ReceiverShmWriter.write profile) burst := by
  unfold receiveBurst ReceiverLoop.onBurst
  dsimp only
  split
  · simp only [drained, written, pending, writing, List.foldl_nil]
  · simp only [drained, written, pending, writing, List.foldl_nil]

theorem written_begin (writing : state.writing = none) (mbuf : Mbuf) (rest : List Mbuf) :
    (state.begin rte mbuf rest).written profile =
      state.loop.onMbuf rte (ReceiverShmWriter.write profile) mbuf := by
  unfold begin
  cases parses : tryParseCanonicalDataPacket rte mbuf with
  | none =>
      rw [ReceiverLoop.onMbuf_none parses]
      simp only [written, writing]
  | some packet =>
      rw [ReceiverLoop.onMbuf_some parses, ReceiverLoop.onPacket]
      dsimp only
      split
      · simp only [written, writing]
      · rfl

theorem written_publishNext {packet : CanonicalDataPacketView} {frame remaining : Nat}
    (writing : state.writing = some ⟨packet, frame, remaining + 1⟩) :
    (state.publishNext profile packet frame remaining).written profile =
      state.written profile := by
  simp only [written, writing, publishNext, Function.iterate_succ_apply]

theorem drained_begin {mbuf : Mbuf} {rest : List Mbuf} (pending : state.pending = mbuf :: rest)
    (writing : state.writing = none) :
    (state.begin rte mbuf rest).drained profile rte = state.drained profile rte := by
  have left : (state.begin rte mbuf rest).pending = rest := by
    unfold begin
    dsimp only
    split
    · rfl
    · split <;> rfl
  rw [drained, left, written_begin writing, drained, pending, List.foldl_cons, written, writing]

theorem drained_of_step (stepped : Step profile rte state event next) :
    (∃ burst, event = .burst burst ∧ next.bursts = state.bursts ++ [burst] ∧
      next.drained profile rte =
      (state.drained profile rte).onBurst rte (ReceiverShmWriter.write profile) burst) ∨
    (next.bursts = state.bursts ∧ next.drained profile rte = state.drained profile rte) := by
  obtain ⟨burst, rfl, pending, writing, rfl⟩ | ⟨mbuf, rest, rfl, pending, writing, rfl⟩ |
    ⟨packet, frame, remaining, rfl, writing, rfl⟩ | ⟨packet, frame, rfl, writing, rfl⟩ :=
    step_cases stepped
  · refine .inl ⟨burst, rfl, ?_, drained_receiveBurst pending writing burst⟩
    unfold receiveBurst
    dsimp only
    split <;> rfl
  · refine .inr ⟨?_, drained_begin pending writing⟩
    unfold begin
    dsimp only
    split
    · rfl
    · split <;> rfl
  · refine .inr ⟨rfl, ?_⟩
    rw [drained, written_publishNext writing]
    rfl
  · refine .inr ⟨rfl, ?_⟩
    simp only [drained, written, writing, Function.iterate_zero, id]

/-- What the loop will have done is what it does with the bursts one by one. -/
theorem drained_of_run {memory : Ring slots} {events : List ReceiverEvent}
    (run : Run (Step profile rte) (start memory) events state) :
    state.drained profile rte =
      (ReceiverLoop.start (.attached memory)).run rte (ReceiverShmWriter.write profile)
        state.bursts := by
  induction run with
  | nil => rfl
  | snoc run stepped ih =>
      obtain ⟨burst, rfl, bursts, drained⟩ | ⟨bursts, drained⟩ := drained_of_step stepped
      · rw [drained, bursts, ih, ReceiverLoop.run, ReceiverLoop.run, List.foldl_append]
        rfl
      · rw [drained, bursts, ih]

/-- With nothing in hand the stepwise receiver is the loop. -/
theorem loop_of_run {memory : Ring slots} {events : List ReceiverEvent}
    (run : Run (Step profile rte) (start memory) events state) (pending : state.pending = [])
    (writing : state.writing = none) :
    state.loop =
      (ReceiverLoop.start (.attached memory)).run rte (ReceiverShmWriter.write profile)
        state.bursts := by
  rw [← drained_of_run run, drained, written, pending, writing]
  rfl

/-! Completing the packet in hand only adds to what is published. -/

theorem published_writeFrame (packet : CanonicalDataPacketView) (frame : Nat)
    (writer : ReceiverShmWriter slots) :
    writer.published <+:
      (ReceiverShmWriter.writeFrame profile packet (writer, frame)).1.published :=
  List.prefix_append _ _

theorem published_iterate (packet : CanonicalDataPacketView) (remaining frame : Nat)
    (writer : ReceiverShmWriter slots) :
    writer.published <+: ((ReceiverShmWriter.writeFrame profile packet)^[remaining]
      (writer, frame)).1.published := by
  induction remaining generalizing writer frame with
  | zero => exact List.prefix_refl _
  | succ remaining ih =>
      rw [Function.iterate_succ_apply]
      exact (published_writeFrame packet frame writer).trans (ih _ _)

theorem published_written (state : RunningReceiver slots) :
    state.loop.writer.published <+: (state.written profile).writer.published := by
  unfold written
  split
  · exact List.prefix_refl _
  · exact published_iterate _ _ _ _

theorem published_onMbuf (loop : ReceiverLoop (ReceiverShmWriter slots)) (mbuf : Mbuf) :
    loop.writer.published <+:
      (loop.onMbuf rte (ReceiverShmWriter.write profile) mbuf).writer.published := by
  cases parses : tryParseCanonicalDataPacket rte mbuf with
  | none =>
      rw [ReceiverLoop.onMbuf_none parses]
      exact List.prefix_refl _
  | some packet =>
      have kept := ReceiverLoop.establish_writer (loop.receive mbuf) packet
      rw [ReceiverLoop.onMbuf_some parses, ReceiverLoop.onPacket_eq]
      split
      · change _ <+: ((loop.receive mbuf).establish packet).writer.published
        rw [kept]
        exact List.prefix_refl _
      · rw [ReceiverLoop.admitPacket_writer, kept]
        exact published_iterate _ _ _ _

theorem published_drained (state : RunningReceiver slots) :
    state.loop.writer.published <+: (state.drained profile rte).writer.published := by
  have inHand : state.loop.writer.published <+: (state.written profile).writer.published :=
    published_written state
  refine inHand.trans ?_
  unfold drained
  generalize state.written profile = loop
  induction state.pending generalizing loop with
  | nil => exact List.prefix_refl _
  | cons mbuf rest ih => exact (published_onMbuf loop mbuf).trans (ih _)

/-! What is written are valid frames, as long as what is received holds some. -/

/-- If the parser admits the mbuf, then with the image of valid frames. -/
def HoldsFrames (profile : Profile) (rte : Rte) (mbuf : Mbuf) : Prop :=
  ∀ parsed, tryParseCanonicalDataPacket rte mbuf = some parsed →
    ∃ frames : List (ValidFrame profile), parsed.Encodes frames

def AtRecord (profile : Profile) (cursor : WriteCursor) : Prop :=
  ∃ frames : List (ValidFrame profile), cursor.remaining = frames.length ∧
    slice cursor.packet.data cursor.frame (payload frames).length = payload frames

structure Intact (profile : Profile) (rte : Rte) (state : RunningReceiver slots) : Prop where
  pending : ∀ mbuf ∈ state.pending, HoldsFrames profile rte mbuf
  writing : ∀ cursor ∈ state.writing, AtRecord profile cursor

theorem Intact.step (intact : state.Intact profile rte)
    (bursts : ∀ burst, event = .burst burst → ∀ mbuf ∈ burst.items, HoldsFrames profile rte mbuf)
    (stepped : Step profile rte state event next) :
    next.Intact profile rte ∧ (next.loop.writer = state.loop.writer ∨
      ∃ frame : ValidFrame profile,
        next.loop.writer = state.loop.writer.publishFrame frame) := by
  obtain ⟨burst, rfl, pending, writing, rfl⟩ | ⟨mbuf, rest, rfl, pending, writing, rfl⟩ |
    ⟨packet, frame, remaining, rfl, writing, rfl⟩ | ⟨packet, frame, rfl, writing, rfl⟩ :=
    step_cases stepped
  · unfold receiveBurst
    dsimp only
    split
    · exact ⟨⟨intact.pending, intact.writing⟩, .inl rfl⟩
    · exact ⟨⟨bursts burst rfl, intact.writing⟩, .inl rfl⟩
  · have all := intact.pending
    rw [pending] at all
    obtain ⟨held, others⟩ := List.forall_mem_cons.mp all
    unfold begin
    cases parses : tryParseCanonicalDataPacket rte mbuf with
    | none => exact ⟨⟨others, intact.writing⟩, .inl rfl⟩
    | some packet =>
        have kept := ReceiverLoop.establish_writer (state.loop.receive mbuf) packet
        dsimp only
        split
        · exact ⟨⟨others, intact.writing⟩, .inl kept⟩
        · refine ⟨⟨others, ?_⟩, .inl ?_⟩
          · rintro cursor ⟨⟩
            obtain ⟨frames, encodes⟩ := held packet parses
            exact ⟨frames, encodes.recordCount, encodes.records⟩
          · rw [ReceiverLoop.countGap_writer]
            exact kept
  · obtain ⟨frames, count, here⟩ := intact.writing _ writing
    obtain ⟨first, rest, rfl⟩ := List.exists_cons_of_length_eq_add_one count.symm
    obtain ⟨at_, behind⟩ := ReceiverShmWriter.here_cons here
    unfold publishNext
    rw [ReceiverShmWriter.writeFrame_valid at_]
    refine ⟨⟨intact.pending, ?_⟩, .inr ⟨first, rfl⟩⟩
    rintro cursor ⟨⟩
    exact ⟨rest, by simpa using count, behind⟩
  · exact ⟨⟨intact.pending, nofun⟩, .inl rfl⟩

end Steps

end RunningReceiver

end Lldt.Transport
