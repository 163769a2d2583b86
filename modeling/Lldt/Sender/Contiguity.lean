import Lldt.Sender.Stream
import Mathlib.Data.List.Chain

namespace Lldt.Transport

open Lldt.Data.Bytes
open Lldt.Data.Selection
open Lldt.Data.Transition
open Lldt.Dpdk
open Lldt.Msg
open Lldt.Shm

/-! The source sequence inside one packet.  The reader flags a gap against the
largest sequence id it has admitted, while a packet may have been opened by a
repeated or backward one. -/

def sourceSeqId (profile : Profile) (frame : List UInt8) : UInt64 :=
  (Header.load profile frame).seqId

def Contiguous (profile : Profile) (frames : List (List UInt8)) : Prop :=
  frames.IsChain fun before after =>
    (sourceSeqId profile after).toNat = (sourceSeqId profile before).toNat + 1

theorem contiguous_append_singleton {profile : Profile} {frames : List (List UInt8)}
    {frame : List UInt8} :
    Contiguous profile (frames ++ [frame]) ↔ Contiguous profile frames ∧
      ∀ last ∈ frames.getLast?,
        (sourceSeqId profile frame).toNat = (sourceSeqId profile last).toNat + 1 := by
  simp [Contiguous, List.isChain_append]

theorem SenderShmReader.Admits.unflagged_iff_next {profile : Profile}
    {reader next : SenderShmReader} {result : ReadResult} {view : ValidatedSourceFrameView}
    (admits : reader.Admits profile result view next)
    (hasPrevValid : reader.hasPrevValid = true) :
    view.beginsAfterSourceGap = false ↔
      reader.prevValid < view.sourceSeqId ∧ view.sourceSeqId = reader.prevValid + 1 := by
  rw [admits.unflagged, hasPrevValid]
  simp only [Bool.true_eq_false, false_or]
  refine and_congr_right fun below => ?_
  have order := UInt64.lt_iff_toNat_lt.mp below
  have bound := view.sourceSeqId.toNat_lt
  rw [UInt64.le_iff_toNat_le, UInt64.toNat_sub_of_le _ _ (UInt64.le_of_lt below),
    ← UInt64.toNat_inj, UInt64.toNat_add, UInt64.toNat_one]
  omega

/-- Above the previous id its successor does not wrap. -/
theorem toNat_of_follows {previous seqId : UInt64} (above : previous < seqId)
    (follows : seqId = previous + 1) : seqId.toNat = previous.toNat + 1 := by
  have order := UInt64.lt_iff_toNat_lt.mp above
  have bound := seqId.toNat_lt
  rw [follows]
  exact toNat_succ (by omega)

namespace SenderLoop

variable {profile : Profile} {setup : SenderSetup} {state next : SenderLoop}
  {event : SenderEvent}

def Contiguous (profile : Profile) (state : SenderLoop) : Prop :=
  (∀ packet ∈ state.log.built, Transport.Contiguous profile packet.records) ∧
    Transport.Contiguous profile state.log.records

/-- The open packet of the inner loop and the frame a read is about to offer it. -/
def offeredNext (profile : Profile) (state : SenderLoop) (event : SenderEvent) :
    Option (OpenPacket × ValidatedSourceFrameView) :=
  match state.phase, event with
  | .readNext packet, .read result =>
      match (state.reader.tryRead profile result).1 with
      | .ok view => some (packet, view)
      | _ => none
  | _, _ => none

theorem offeredNext_eq_some {packet : OpenPacket} {view : ValidatedSourceFrameView}
    (offered : state.offeredNext profile event = some (packet, view)) :
    ∃ result reader, state.phase = .readNext packet ∧ event = .read result ∧
      state.reader.tryRead profile result = (.ok view, reader) := by
  unfold offeredNext at offered
  split at offered
  · rename_i packet result phase
    split at offered
    · rename_i view ok
      cases offered
      exact ⟨result, _, phase, rfl, Prod.ext ok rfl⟩
    · contradiction
  · contradiction

/-- The inner loop reads a frame that fits and carries the sequence id right after
`prev_valid_`, while the last frame of the open packet carries another id than
`prev_valid_`. -/
def Splices (profile : Profile) (state : SenderLoop) (event : SenderEvent) : Prop :=
  ∃ offer ∈ state.offeredNext profile event, ∃ last ∈ state.log.records.getLast?,
    offer.2.frameSize.toUInt64 ≤ offer.1.builder.remainingPayloadCapacity ∧
    state.reader.prevValid < offer.2.sourceSeqId ∧
    offer.2.sourceSeqId = state.reader.prevValid + 1 ∧
    sourceSeqId profile last ≠ state.reader.prevValid

instance (profile : Profile) (state : SenderLoop) :
    DecidablePred (state.Splices profile) :=
  fun _ => inferInstanceAs (Decidable (∃ _ ∈ _, ∃ _ ∈ _, _))

def Started (state : SenderLoop) : Prop :=
  state.log.admitted ≠ [] → state.reader.hasPrevValid = true

theorem started_start (profile : Profile) (liveEdge : UInt64) :
    (start profile liveEdge).Started :=
  fun some => absurd rfl some

theorem Started.move (started : state.Started) (move : Move profile setup state event next) :
    next.Started := by
  cases move with
  | take phase ok | carry phase ok | append phase ok =>
      exact fun _ => (state.reader.admits_of_tryRead profile ok).hasPrevValid
  | idle phase notOk | drain phase notOk =>
      intro some
      rw [(state.reader.tryRead_not_ok profile notOk).2.1]
      exact started some
  | complete phase =>
      intro some
      rw [finish_admitted] at some
      rw [finish_reader]
      exact started some
  | _ => exact started

theorem Stream.admitted_ne_nil {packet : OpenPacket}
    (stream : state.Stream profile setup.rte) (phase : state.phase = .readNext packet) :
    state.log.admitted ≠ [] ∧ state.log.records ≠ [] := by
  have placed := stream.placed
  simp only [Placed, phase] at placed
  obtain ⟨-, ⟨frames, filled⟩, -, kept⟩ := placed
  have records : state.log.records ≠ [] := by
    rw [filled.records]
    simpa using filled.nonempty
  refine ⟨?_, records⟩
  intro none
  rw [none, without_nil_left] at kept
  exact records (List.append_eq_nil_iff.mp kept.symm).2

theorem Contiguous.move (contiguous : state.Contiguous profile)
    (stream : state.Stream profile setup.rte) (started : state.Started)
    (move : Move profile setup state event next) (seamless : ¬state.Splices profile event) :
    next.Contiguous profile := by
  obtain ⟨built, records⟩ := contiguous
  cases move with
  | reserve phase reserve opened => exact ⟨built, .singleton _⟩
  | complete phase =>
      refine ⟨?_, ?_⟩
      · intro packet member
        rcases mem_built_finish _ _ _ _ member with earlier | rfl
        · exact built packet earlier
        · exact records
      · rw [finish_records]
        exact .nil
  | append phase ok unflagged appended =>
      obtain ⟨admitted, -⟩ := stream.admitted_ne_nil phase
      have admits := state.reader.admits_of_tryRead profile ok
      obtain ⟨above, follows⟩ :=
        (admits.unflagged_iff_next (started admitted)).mp unflagged
      obtain ⟨-, frame, shows, bytes⟩ := shows_of_tryRead stream.capacity ok
      refine ⟨built, contiguous_append_singleton.mpr ⟨records, ?_⟩⟩
      intro last isLast
      have same : sourceSeqId profile last = state.reader.prevValid := by
        by_contra other
        refine seamless ⟨(_, _), ?_, last, isLast,
          RawDataPacketBuilder.tryAppend_ok_iff.mp (congrArg Prod.fst appended), above,
          follows, other⟩
        simp [offeredNext, phase, ok]
      rw [← bytes, same, ← toNat_of_follows above follows, shows.seqId]
      rfl
  | _ => exact ⟨built, records⟩

theorem Splices.breaks (splices : state.Splices profile event)
    (stream : state.Stream profile setup.rte) (started : state.Started)
    (move : Move profile setup state event next) : ¬next.Contiguous profile := by
  obtain ⟨⟨packet, view⟩, offered, last, isLast, fits, above, follows, other⟩ := splices
  obtain ⟨result, reader, phase, rfl, answer⟩ := offeredNext_eq_some offered
  obtain ⟨admitted, -⟩ := stream.admitted_ne_nil phase
  have admits := state.reader.admits_of_tryRead profile answer
  have unflagged := (admits.unflagged_iff_next (started admitted)).mpr ⟨above, follows⟩
  cases move with
  | idle phase' notOk | take phase' ok =>
      rw [phase] at phase'
      contradiction
  | drain phase' notOk =>
      rw [answer] at notOk
      exact absurd rfl (notOk view)
  | carry phase' ok blocked =>
      rw [phase] at phase'
      cases phase'
      rw [answer] at ok
      cases ok
      rcases blocked with flagged | refused
      · rw [unflagged] at flagged
        contradiction
      · rw [RawDataPacketBuilder.tryAppend_ok_iff.mpr fits] at refused
        contradiction
  | append phase' ok unflagged' appended =>
      rw [phase] at phase'
      cases phase'
      rw [answer] at ok
      cases ok
      rintro ⟨-, records⟩
      obtain ⟨-, frame, shows, bytes⟩ := shows_of_tryRead stream.capacity answer
      have next := (contiguous_append_singleton.mp records).2 last isLast
      have same : sourceSeqId profile (slice reader.buffer 0 view.frameSize.toNat) =
          view.sourceSeqId := by
        rw [← bytes, shows.seqId]
        rfl
      rw [same, toNat_of_follows above follows] at next
      exact other (UInt64.toNat_inj.mp (Nat.succ.inj next).symm)

/-- A run without a splice builds contiguous packets only, and a splice breaks the
packet it is made in. -/
theorem packets_contiguous (profile : Profile) (documented : setup.rte.Documented)
    (liveEdge : UInt64) :
    (∀ {events : List SenderEvent} {state : SenderLoop},
      Run (Guarded (fun state event => ¬state.Splices profile event) (Step profile setup))
        (start profile liveEdge) events state →
      ∀ packet ∈ state.log.built, Transport.Contiguous profile packet.records) ∧
    (∀ {events : List SenderEvent} {event : SenderEvent} {state next : SenderLoop},
      Run (Step profile setup) (start profile liveEdge) events state →
      Step profile setup state event next → state.Splices profile event →
      ¬next.Contiguous profile) := by
  have started {events : List SenderEvent} {state : SenderLoop}
      (run : Run (Step profile setup) (start profile liveEdge) events state) :
      state.Started :=
    run.invariant (fun started step => started.move (move_of_step step))
      (started_start profile liveEdge)
  refine ⟨?_, ?_⟩
  · intro events state run
    have contiguous : state.Contiguous profile := by
      induction run with
      | nil => exact ⟨nofun, .nil⟩
      | snoc run step ih =>
          obtain ⟨seamless, step⟩ := step
          exact ih.move (stream_of_run documented run.of_guarded) (started run.of_guarded)
            (move_of_step step) seamless
    exact contiguous.1
  · intro events event state next run step splices
    exact splices.breaks (stream_of_run documented run) (started run) (move_of_step step)

/-- The source sequence 5, 3, 6: the second packet holds 3 and then 6. -/
def backward : List SenderEvent :=
  [.poll false, tradeRead 5, .alloc (some freshMbuf), .poll false, tradeRead 3, .transmit true,
    .poll false, .alloc (some freshMbuf), .poll false, tradeRead 6, .poll false,
    .read .kEmpty, .transmit true]

theorem packets_can_splice :
    ¬∀ (events : List SenderEvent) (state : SenderLoop),
      Run (Step .compact (littleEndianSetup true)) (start .compact 0) events state →
      ∀ packet ∈ state.log.built, Transport.Contiguous .compact packet.records := by
  intro always
  have executed : (backward.foldlM (step .compact (littleEndianSetup true))
      (start .compact 0)).map (fun state => state.log.built.map fun packet =>
        packet.records.map (sourceSeqId .compact)) = some [[5], [3, 6]] := by
    decide +kernel
  obtain ⟨state, reached, observed⟩ := Option.map_eq_some_iff.mp executed
  have member : [3, 6] ∈ state.log.built.map fun packet =>
      packet.records.map (sourceSeqId .compact) := by
    rw [observed]
    decide
  obtain ⟨packet, built, ids⟩ := List.mem_map.mp member
  have contiguous := always backward state (Run.of_foldlM reached) packet built
  have chain : (packet.records.map (sourceSeqId .compact)).IsChain
      (fun before after => after.toNat = before.toNat + 1) := by
    rw [List.isChain_map]
    exact contiguous
  rw [ids] at chain
  exact absurd chain (by decide)

theorem packets_contiguous_batched :
    ∃ state : SenderLoop, state.log.built.length = 1 ∧
      ∀ packet ∈ state.log.built, Transport.Contiguous .compact packet.records := by
  have executed : (batched.foldlM
      (fun state event => if ¬state.Splices .compact event then
        step .compact (littleEndianSetup true) state event else none)
      (start .compact 0)).map (fun state => state.log.built.length) = some 1 := by
    decide +kernel
  obtain ⟨state, reached, built⟩ := Option.map_eq_some_iff.mp executed
  exact ⟨state, built, (packets_contiguous .compact Rte.littleEndianHost_documented 0).1
    (Run.guarded_of_foldlM reached)⟩

end SenderLoop

end Lldt.Transport
