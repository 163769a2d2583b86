import Lldt.Data.Maxima
import Lldt.Ring.History
import Lldt.Sender.Reader
import Mathlib.Data.List.Induction

namespace Lldt.Transport

open Lldt.Data.Bytes
open Lldt.Data.Cyclic
open Lldt.Data.Maxima
open Lldt.Data.RetainedLog
open Lldt.Msg
open Lldt.Shm

/-! Frames lost ahead of the sender are counted twice: `source_frames_missing`
counts them by the source sequence, `lapped_frames_skipped` and `invalid_frames`
by positions in the ring. -/

namespace SenderShmReader

@[simp] theorem classify_sourceFramesMissing (reader : SenderShmReader) (seqId : UInt64) :
    (reader.classify seqId).2.counters.sourceFramesMissing =
      if reader.hasPrevValid ∧ reader.prevValid < seqId then
        reader.counters.sourceFramesMissing + (seqId - reader.prevValid - 1)
      else reader.counters.sourceFramesMissing := by
  unfold classify
  grind

section TryRead

variable (profile : Profile) (reader : SenderShmReader) {read : ReadResult}

theorem tryRead_ok_sourceFramesMissing {view : ValidatedSourceFrameView}
    {next : SenderShmReader} (ok : reader.tryRead profile read = (.ok view, next)) :
    next.counters.sourceFramesMissing =
      if reader.hasPrevValid ∧ reader.prevValid < view.sourceSeqId then
        reader.counters.sourceFramesMissing + (view.sourceSeqId - reader.prevValid - 1)
      else reader.counters.sourceFramesMissing := by
  cases read with
  | kEmpty => simp [tryRead] at ok
  | kLapped resumeAt out => simp [tryRead] at ok
  | kOk readLen out =>
      rcases acceptFrame_cases profile
          { reader with buffer := overwrite reader.buffer 0 out } readLen with
        ⟨_, _, accepted⟩ | ⟨_, rejected⟩
      · simp only [tryRead, accepted, Prod.mk.injEq, SenderReaderResult.ok.injEq] at ok
        obtain ⟨rfl, rfl⟩ := ok
        simp [counted]
      · simp [tryRead, rejected, rejectFrame] at ok

theorem tryRead_not_ok_sourceFramesMissing
    (notOk : ∀ view, (reader.tryRead profile read).1 ≠ .ok view) :
    (reader.tryRead profile read).2.counters.sourceFramesMissing =
      reader.counters.sourceFramesMissing := by
  cases read with
  | kEmpty => rfl
  | kLapped resumeAt out => rfl
  | kOk readLen out =>
      rcases acceptFrame_cases profile
          { reader with buffer := overwrite reader.buffer 0 out } readLen with
        ⟨_, _, accepted⟩ | ⟨_, rejected⟩
      · simp only [tryRead, accepted] at notOk
        exact absurd rfl (notOk _)
      · simp only [tryRead, rejected, rejectFrame, counted]

/-- A frame read out of the ring is admitted under the number in its header, or
rejected. -/
theorem tryRead_frame (frame : Frame profile) :
    (∃ view next, reader.tryRead profile (.kOk frame.len frame.bytes) = (.ok view, next) ∧
      sizeofHeader ≤ frame.bytes.length ∧
      view.sourceSeqId = (Header.load profile frame.bytes).seqId ∧
      next.readIndex = reader.readIndex + 1 ∧
      next.counters.lappedFramesSkipped = reader.counters.lappedFramesSkipped) ∨
    (∃ next, reader.tryRead profile (.kOk frame.len frame.bytes) = (.invalid, next) ∧
      next.readIndex = reader.readIndex + 1 ∧
      next.counters.framesRead = reader.counters.framesRead + 1 ∧
      next.counters.invalidFrames = reader.counters.invalidFrames + 1 ∧
      next.counters.lappedFramesSkipped = reader.counters.lappedFramesSkipped) := by
  rcases acceptFrame_cases profile
      { reader with buffer := overwrite reader.buffer 0 frame.bytes } frame.len with
    ⟨long, sized, accepted⟩ | ⟨_, rejected⟩
  · rw [Frame.toNat_len] at long
    exact .inl ⟨_, _, accepted, long,
      congrArg Header.seqId (header_overwrite profile reader long), by simp [counted],
      by simp [counted]⟩
  · refine .inr ⟨_, rejected, ?_⟩
    simp [counted]

end TryRead

end SenderShmReader

/-- What an observer of the reader writes down: the source sequence numbers of the
admitted frames and the counters at the first `Ok`. -/
structure SourceLog where
  reader : SenderShmReader
  admitted : List UInt64 := []
  firstOk : Option SenderInputCounters := none

namespace SourceLog

variable {profile : Profile} {log : SourceLog} {read : ReadResult}

def start (profile : Profile) (liveEdge : UInt64) : SourceLog where
  reader := .attached profile liveEdge

def tryRead (profile : Profile) (log : SourceLog) (read : ReadResult) : SourceLog :=
  match log.reader.tryRead profile read with
  | (.ok view, reader) => {
      reader := reader
      admitted := log.admitted ++ [view.sourceSeqId]
      firstOk := some (log.firstOk.getD reader.counters) }
  | (_, reader) => { log with reader := reader }

theorem tryRead_ok {view : ValidatedSourceFrameView} {reader : SenderShmReader}
    (ok : log.reader.tryRead profile read = (.ok view, reader)) :
    log.tryRead profile read = {
      reader := reader
      admitted := log.admitted ++ [view.sourceSeqId]
      firstOk := some (log.firstOk.getD reader.counters) } := by
  simp only [tryRead, ok]

theorem tryRead_not_ok (notOk : ∀ view, (log.reader.tryRead profile read).1 ≠ .ok view) :
    log.tryRead profile read = { log with reader := (log.reader.tryRead profile read).2 } := by
  unfold tryRead
  split
  · rename_i view _ same
    exact absurd (congrArg Prod.fst same) (notOk view)
  · rename_i same
    rw [same]

theorem tryRead_cases (profile : Profile) (log : SourceLog) (read : ReadResult) :
    (∃ view reader, log.reader.tryRead profile read = (.ok view, reader)) ∨
      ∀ view, (log.reader.tryRead profile read).1 ≠ .ok view := by
  rcases log.reader.tryRead profile read with ⟨view | _ | _ | _, reader⟩
  · exact .inl ⟨view, reader, rfl⟩
  all_goals exact .inr nofun

/-- The reader after a first and any further admitted sequence numbers. -/
structure Continuity (reader : SenderShmReader) (first : UInt64) (rest : List UInt64) :
    Prop where
  hasPrevValid : reader.hasPrevValid = true
  newest : reader.prevValid ∈ first :: rest
  largest : ∀ seqId ∈ first :: rest, seqId ≤ reader.prevValid
  missing : first.toNat + (maximaAfter UInt64.toNat [first] rest).length +
    reader.counters.sourceFramesMissing.toNat = reader.prevValid.toNat

def Continuous (log : SourceLog) : Prop :=
  match log.admitted with
  | [] => log.reader.hasPrevValid = false ∧ log.reader.counters.sourceFramesMissing = 0
  | first :: rest => Continuity log.reader first rest

theorem le_of_mem_append_singleton {first last bound : UInt64} {rest : List UInt64}
    (before : ∀ seqId ∈ first :: rest, seqId ≤ bound) (new : last ≤ bound) :
    ∀ seqId ∈ first :: (rest ++ [last]), seqId ≤ bound := by
  intro seqId member
  rw [← List.cons_append] at member
  rcases List.mem_append.mp member with old | only
  · exact before seqId old
  · rw [List.mem_singleton.mp only]
    exact new

theorem Continuity.ok {first : UInt64} {rest : List UInt64} {reader next : SenderShmReader}
    {view : ValidatedSourceFrameView} (continuity : Continuity reader first rest)
    (ok : reader.tryRead profile read = (.ok view, next)) :
    Continuity next first (rest ++ [view.sourceSeqId]) := by
  have admits := reader.admits_of_tryRead profile ok
  have missing := reader.tryRead_ok_sourceFramesMissing profile ok
  have prevValid := admits.prevValid
  have records : maximaAfter UInt64.toNat [first] (rest ++ [view.sourceSeqId]) = _ :=
    maximaAfter_append_singleton continuity.newest
      fun other inside => UInt64.le_iff_toNat_le.mp (continuity.largest other inside)
  have earlier := continuity.missing
  simp only [continuity.hasPrevValid, true_and] at missing prevValid
  generalize view.sourceSeqId = seqId at *
  by_cases ahead : reader.prevValid < seqId
  · have less := UInt64.lt_iff_toNat_lt.mp ahead
    rw [if_pos ahead] at missing
    rw [if_neg (UInt64.not_le.mpr ahead)] at prevValid
    rw [if_pos less] at records
    have bound := seqId.toNat_lt
    refine ⟨admits.hasPrevValid, ?_, ?_, ?_⟩
    · rw [prevValid]
      simp
    · rw [prevValid]
      apply le_of_mem_append_singleton _ (UInt64.le_refl seqId)
      intro other old
      exact UInt64.le_of_lt (UInt64.lt_of_le_of_lt (continuity.largest other old) ahead)
    · have dist := toNat_between ahead
      rw [missing, records, prevValid, toNat_add_of_lt (by omega), dist, List.length_append,
        List.length_singleton]
      omega
  · rw [if_neg ahead] at missing
    rw [if_pos (UInt64.not_lt.mp ahead)] at prevValid
    rw [if_neg (mt UInt64.lt_iff_toNat_lt.mpr ahead)] at records
    refine ⟨admits.hasPrevValid, ?_, ?_, ?_⟩
    · rw [prevValid, ← List.cons_append]
      exact List.mem_append_left _ continuity.newest
    · rw [prevValid]
      exact le_of_mem_append_singleton continuity.largest (UInt64.not_lt.mp ahead)
    · rw [missing, records, prevValid, List.append_nil]
      exact earlier

theorem Continuous.tryRead (continuous : log.Continuous) :
    (log.tryRead profile read).Continuous := by
  rcases tryRead_cases profile log read with ⟨view, reader, ok⟩ | notOk
  · rw [tryRead_ok ok]
    unfold Continuous at continuous ⊢
    cases admitted : log.admitted with
    | nil =>
        rw [admitted] at continuous
        obtain ⟨fresh, none⟩ := continuous
        have admits := log.reader.admits_of_tryRead profile ok
        have missing := log.reader.tryRead_ok_sourceFramesMissing profile ok
        have prevValid := admits.prevValid
        simp only [fresh, Bool.false_eq_true, false_and, if_false, none] at missing prevValid
        refine ⟨admits.hasPrevValid, ?_, ?_, ?_⟩
        · rw [prevValid]
          exact List.mem_singleton.mpr rfl
        · intro other member
          rw [prevValid, List.mem_singleton.mp member]
          exact UInt64.le_refl _
        · rw [prevValid, missing]
          rfl
    | cons first rest =>
        rw [admitted] at continuous
        exact continuous.ok ok
  · rw [tryRead_not_ok notOk]
    obtain ⟨-, hasPrevValid, prevValid⟩ := log.reader.tryRead_not_ok profile notOk
    have missing := log.reader.tryRead_not_ok_sourceFramesMissing profile notOk
    unfold Continuous at continuous ⊢
    dsimp only
    cases admitted : log.admitted with
    | nil =>
        rw [admitted] at continuous
        rw [hasPrevValid, missing]
        exact continuous
    | cons first rest =>
        rw [admitted] at continuous
        obtain ⟨has, newest, largest, counted⟩ := continuous
        rw [← hasPrevValid] at has
        rw [← prevValid] at newest largest counted
        rw [← missing] at counted
        exact ⟨has, newest, largest, counted⟩

theorem continuous_of_reads (profile : Profile) (liveEdge : UInt64) (reads : List ReadResult) :
    (reads.foldl (tryRead profile) (start profile liveEdge)).Continuous := by
  induction reads using List.reverseRecOn with
  | nil => exact ⟨rfl, rfl⟩
  | append_singleton reads read ih =>
      rw [List.foldl_append]
      exact ih.tryRead

end SourceLog

/-! The reader on a ring whose publications are numbered from one. -/

/-- The producer numbers its publications: the header of the frame at a position
holds the position's successor. -/
def Numbered {profile : Profile} (history : List (Frame profile)) : Prop :=
  ∀ (number : Nat) (frame : Frame profile), history[number]? = some frame →
    sizeofHeader ≤ frame.bytes.length →
      (Header.load profile frame.bytes).seqId.toNat = number + 1

section Positions

variable {profile : Profile} {slots : SlotCount} {ring : Ring slots}
  {history : List (Frame profile)} {index : UInt64}

theorem Ring.read_position (holds : ring.Holds (history.map Frame.bytes))
    (room : history.length < 2 ^ 64 - 1) (bound : index.toNat ≤ history.length) :
    ring.read index = .kEmpty ∨
    (∃ resume, ring.read index = .kLapped resume [] ∧ index < resume ∧
      resume.toNat ≤ history.length) ∨
    ∃ frame, history[index.toNat]? = some frame ∧ ring.read index = .kOk frame.len frame.bytes := by
  have length : (history.map Frame.bytes).length = history.length := List.length_map _
  rcases Nat.lt_or_ge index.toNat history.length with published | early
  · by_cases lapped : index.toNat + slots.size < history.length
    · have target : (UInt64.ofNat ((history.map Frame.bytes).length - slots.size)).toNat =
          history.length - slots.size := by
        rw [length, UInt64.toNat_ofNat_of_lt' (show _ < 2 ^ 64 by omega)]
      refine .inr (.inl ⟨_, holds.read_lapped index (by omega) (by omega) (by omega), ?_, ?_⟩)
      · rw [UInt64.lt_iff_toNat_lt, target]
        omega
      · rw [target]
        exact Nat.sub_le _ _
    · have here := holds.read_recent index (by omega) (by omega) (by omega) (by omega)
      simp only [List.getElem_map] at here
      exact .inr (.inr ⟨_, List.getElem?_eq_getElem published, here⟩)
  · exact .inl (holds.read_early index (by omega) (by omega) (by omega))

/-- Every position the reader has passed is a frame it read or one it skipped. -/
structure Passed (attachedAt edge : Nat) (reader : SenderShmReader) : Prop where
  bound : reader.readIndex.toNat ≤ edge
  passed : attachedAt + reader.counters.framesRead.toNat +
    reader.counters.lappedFramesSkipped.toNat = reader.readIndex.toNat
  rejected : reader.counters.invalidFrames.toNat ≤ reader.counters.framesRead.toNat

/-- What is missing from the sequence so far and what lies between the newest number
and the read position are the frames skipped or rejected since the first `Ok`. -/
structure Agrees (first : SenderInputCounters) (reader : SenderShmReader) : Prop where
  hasPrevValid : reader.hasPrevValid = true
  behind : reader.prevValid.toNat ≤ reader.readIndex.toNat
  skipped : first.lappedFramesSkipped.toNat ≤ reader.counters.lappedFramesSkipped.toNat
  invalid : first.invalidFrames.toNat ≤ reader.counters.invalidFrames.toNat
  total : reader.counters.sourceFramesMissing.toNat + reader.readIndex.toNat +
      (first.lappedFramesSkipped.toNat + first.invalidFrames.toNat) =
    reader.counters.lappedFramesSkipped.toNat + reader.counters.invalidFrames.toNat +
      reader.prevValid.toNat

structure SourceLog.Tracks (attachedAt edge : Nat) (log : SourceLog) : Prop where
  passed : Passed attachedAt edge log.reader
  unread : log.firstOk = none →
    log.reader.hasPrevValid = false ∧ log.reader.counters.sourceFramesMissing = 0
  agrees : ∀ first, log.firstOk = some first → Agrees first log.reader

variable {attachedAt edge : Nat} {log : SourceLog}

theorem SourceLog.Tracks.grow {later : Nat} (tracks : log.Tracks attachedAt edge)
    (grown : edge ≤ later) : log.Tracks attachedAt later :=
  ⟨⟨tracks.passed.bound.trans grown, tracks.passed.passed, tracks.passed.rejected⟩,
    tracks.unread, tracks.agrees⟩

theorem SourceLog.Tracks.empty (profile : Profile) (tracks : log.Tracks attachedAt edge) :
    (log.tryRead profile .kEmpty).Tracks attachedAt edge := by
  obtain ⟨⟨bound, passed, rejected⟩, unread, agrees⟩ := tracks
  refine ⟨⟨bound, passed, rejected⟩, unread, ?_⟩
  intro first since
  obtain ⟨has, behind, skipped, invalid, total⟩ := agrees first since
  exact ⟨has, behind, skipped, invalid, total⟩

theorem SourceLog.Tracks.lapped (profile : Profile) {resume : UInt64}
    (tracks : log.Tracks attachedAt edge)
    (ahead : log.reader.readIndex < resume) (bound : resume.toNat ≤ edge) :
    (log.tryRead profile (.kLapped resume [])).Tracks attachedAt edge := by
  obtain ⟨⟨-, passed, rejected⟩, unread, agrees⟩ := tracks
  have less := UInt64.lt_iff_toNat_lt.mp ahead
  have dist : (resume - log.reader.readIndex).toNat =
      resume.toNat - log.reader.readIndex.toNat :=
    UInt64.toNat_sub_of_le _ _ (UInt64.le_of_lt ahead)
  have small := resume.toNat_lt
  have skipped : (log.reader.counters.lappedFramesSkipped +
      (resume - log.reader.readIndex)).toNat =
        log.reader.counters.lappedFramesSkipped.toNat +
          (resume.toNat - log.reader.readIndex.toNat) := by
    rw [← dist]
    exact toNat_add_of_lt (by omega)
  rw [tryRead_not_ok (fun _ => by simp [SenderShmReader.tryRead])]
  simp only [SenderShmReader.tryRead, if_pos ahead]
  refine ⟨⟨bound, ?_, rejected⟩, unread, ?_⟩
  · dsimp only
    omega
  · intro first since
    obtain ⟨has, behind, earlierSkipped, earlierInvalid, total⟩ := agrees first since
    refine ⟨has, ?_, ?_, earlierInvalid, ?_⟩
    all_goals dsimp only
    all_goals omega

theorem SourceLog.Tracks.rejects {read : ReadResult} {next : SenderShmReader}
    (tracks : log.Tracks attachedAt edge)
    (invalid : log.reader.tryRead profile read = (.invalid, next))
    (inside : log.reader.readIndex.toNat < edge) (room : edge < 2 ^ 64)
    (readIndex : next.readIndex = log.reader.readIndex + 1)
    (framesRead : next.counters.framesRead = log.reader.counters.framesRead + 1)
    (invalidFrames : next.counters.invalidFrames = log.reader.counters.invalidFrames + 1)
    (skipped : next.counters.lappedFramesSkipped = log.reader.counters.lappedFramesSkipped) :
    (log.tryRead profile read).Tracks attachedAt edge := by
  obtain ⟨⟨-, passed, rejected⟩, unread, agrees⟩ := tracks
  have notOk : ∀ view, (log.reader.tryRead profile read).1 ≠ .ok view := by simp [invalid]
  obtain ⟨-, hasPrevValid, prevValid⟩ := log.reader.tryRead_not_ok profile notOk
  have missing := log.reader.tryRead_not_ok_sourceFramesMissing profile notOk
  rw [tryRead_not_ok notOk]
  rw [invalid] at hasPrevValid prevValid missing ⊢
  have index := toNat_succ (show log.reader.readIndex.toNat + 1 < _ by omega)
  have frames := toNat_succ (show log.reader.counters.framesRead.toNat + 1 < _ by omega)
  have rejects := toNat_succ (show log.reader.counters.invalidFrames.toNat + 1 < _ by omega)
  rw [← readIndex] at index
  rw [← framesRead] at frames
  rw [← invalidFrames] at rejects
  refine ⟨⟨?_, ?_, ?_⟩, ?_, ?_⟩
  · dsimp only
    omega
  · dsimp only
    rw [skipped]
    omega
  · dsimp only
    omega
  · intro none
    rw [hasPrevValid, missing]
    exact unread none
  · intro first since
    obtain ⟨has, behind, earlierSkipped, earlierInvalid, total⟩ := agrees first since
    refine ⟨hasPrevValid.trans has, ?_, ?_, ?_, ?_⟩
    all_goals dsimp only
    · rw [prevValid]
      omega
    · rwa [skipped]
    · omega
    · rw [skipped, prevValid, missing]
      omega

theorem SourceLog.Tracks.admits {read : ReadResult} {view : ValidatedSourceFrameView}
    {next : SenderShmReader} (tracks : log.Tracks attachedAt edge)
    (ok : log.reader.tryRead profile read = (.ok view, next))
    (inside : log.reader.readIndex.toNat < edge) (room : edge < 2 ^ 64)
    (numbered : view.sourceSeqId.toNat = log.reader.readIndex.toNat + 1)
    (readIndex : next.readIndex = log.reader.readIndex + 1)
    (skipped : next.counters.lappedFramesSkipped = log.reader.counters.lappedFramesSkipped) :
    (log.tryRead profile read).Tracks attachedAt edge ∧ next.prevValid = next.readIndex := by
  obtain ⟨⟨-, passed, rejected⟩, unread, agrees⟩ := tracks
  have admits := log.reader.admits_of_tryRead profile ok
  have missing := log.reader.tryRead_ok_sourceFramesMissing profile ok
  have prevValid := admits.prevValid
  have index := toNat_succ (show log.reader.readIndex.toNat + 1 < _ by omega)
  have frames := toNat_succ (show log.reader.counters.framesRead.toNat + 1 < _ by omega)
  rw [← readIndex] at index
  rw [← admits.framesRead] at frames
  have newest : view.sourceSeqId = next.readIndex :=
    UInt64.toNat_inj.mp (numbered.trans index.symm)
  have passes : Passed attachedAt edge next := by
    refine ⟨by omega, ?_, ?_⟩
    · rw [skipped]
      omega
    · rw [admits.invalidFrames]
      omega
  rw [tryRead_ok ok]
  cases since : log.firstOk with
  | none =>
      obtain ⟨fresh, zero⟩ := unread since
      simp only [fresh, Bool.false_eq_true, false_and, if_false] at missing prevValid
      have current := prevValid.trans newest
      refine ⟨⟨passes, nofun, ?_⟩, current⟩
      intro first same
      cases same
      refine ⟨admits.hasPrevValid, ?_, Nat.le_refl _, Nat.le_refl _, ?_⟩
      · rw [current]
      · rw [missing, zero, UInt64.toNat_zero, current]
        dsimp only [Option.getD_none]
        omega
  | some first =>
      obtain ⟨has, behind, earlierSkipped, earlierInvalid, total⟩ := agrees first since
      have ahead : log.reader.prevValid < view.sourceSeqId := by
        rw [UInt64.lt_iff_toNat_lt]
        omega
      simp only [has, true_and, if_pos ahead, if_neg (UInt64.not_le.mpr ahead)]
        at missing prevValid
      have current := prevValid.trans newest
      have dist := toNat_between ahead
      refine ⟨⟨passes, nofun, ?_⟩, current⟩
      intro other same
      cases same
      refine ⟨admits.hasPrevValid, ?_, ?_, ?_, ?_⟩
      all_goals dsimp only [Option.getD_some]
      · rw [current]
      · rwa [skipped]
      · rwa [admits.invalidFrames]
      · rw [missing, toNat_add_of_lt (by omega), current, skipped, admits.invalidFrames, dist]
        omega

end Positions

/-! The producer and the reader take turns on one ring. -/

structure SourceSystem (slots : SlotCount) where
  ring : Ring slots
  log : SourceLog

inductive SourceEvent (profile : Profile) where
  | publish (frame : Frame profile)
  | tryRead

def SourceEvent.frame {profile : Profile} : SourceEvent profile → Option (Frame profile)
  | .publish frame => some frame
  | .tryRead => none

/-- The frames that a schedule publishes. -/
def publications {profile : Profile} (schedule : List (SourceEvent profile)) :
    List (Frame profile) :=
  schedule.filterMap SourceEvent.frame

namespace SourceSystem

variable {profile : Profile} {slots : SlotCount}

/-- The reader attaches to a ring that already has some publications. -/
def start (memory : Ring slots) (before : List (Frame profile)) : SourceSystem slots :=
  let ring := ((memory.attach true).publishAll before).attach false
  { ring := ring, log := .start profile ring.liveEdge }

def step (system : SourceSystem slots) : SourceEvent profile → SourceSystem slots
  | .publish frame => { system with ring := system.ring.publish frame.bytes frame.len }
  | .tryRead => { system with
      log := system.log.tryRead profile (system.ring.read system.log.reader.readIndex) }

def run (system : SourceSystem slots) (schedule : List (SourceEvent profile)) :
    SourceSystem slots :=
  schedule.foldl step system

structure Inv (before : Nat) (history : List (Frame profile)) (system : SourceSystem slots) :
    Prop where
  holds : system.ring.Holds (history.map Frame.bytes)
  tracks : system.log.Tracks before history.length

theorem inv_start (memory : Ring slots) (before : List (Frame profile))
    (room : before.length < 2 ^ 64) :
    (start memory before).Inv before.length before := by
  have holds : (start memory before).ring.Holds (before.map Frame.bytes) := by
    have all := (Ring.holds_attach memory).publishAll before (by
      rw [List.length_nil]
      omega)
    simpa [start] using all
  have edge := holds.edge
  rw [List.length_map] at edge
  exact ⟨holds, ⟨edge.le, edge.symm, Nat.le_refl _⟩, fun _ => ⟨rfl, rfl⟩, nofun⟩

/-- After a read that admitted a frame the newest number is the read position. -/
theorem Inv.tryRead {before : Nat} {history : List (Frame profile)}
    {system : SourceSystem slots} (inv : system.Inv before history) (numbered : Numbered history)
    (room : history.length < 2 ^ 64 - 1) :
    (system.step (.tryRead : SourceEvent profile)).Inv before history ∧
      ∀ view, (system.log.reader.tryRead profile
          (system.ring.read system.log.reader.readIndex)).1 = .ok view →
        (system.step (.tryRead : SourceEvent profile)).log.reader.prevValid =
          (system.step (.tryRead : SourceEvent profile)).log.reader.readIndex := by
  obtain ⟨holds, tracks⟩ := inv
  simp only [step]
  rcases Ring.read_position holds room tracks.passed.bound with
    read | ⟨resume, read, ahead, bound⟩ | ⟨frame, present, read⟩
  · rw [read]
    exact ⟨⟨holds, tracks.empty profile⟩, nofun⟩
  · rw [read]
    exact ⟨⟨holds, tracks.lapped profile ahead bound⟩, nofun⟩
  · rw [read]
    have inside := (List.getElem?_eq_some_iff.mp present).1
    rcases system.log.reader.tryRead_frame profile frame with
      ⟨view, next, ok, header, seqId, readIndex, skipped⟩ |
      ⟨next, invalid, readIndex, framesRead, invalidFrames, skipped⟩
    · have position := numbered _ frame present header
      rw [← seqId] at position
      obtain ⟨tracks, newest⟩ := tracks.admits ok inside (by omega) position readIndex skipped
      refine ⟨⟨holds, tracks⟩, fun _ _ => ?_⟩
      rw [SourceLog.tryRead_ok ok]
      exact newest
    · refine ⟨⟨holds, tracks.rejects invalid inside (by omega) readIndex framesRead
        invalidFrames skipped⟩, ?_⟩
      rw [invalid]
      exact nofun

theorem Inv.publish {before : Nat} {history : List (Frame profile)}
    {system : SourceSystem slots} (inv : system.Inv before history) (frame : Frame profile)
    (room : history.length + 1 < 2 ^ 64) :
    (system.step (.publish frame)).Inv before (history ++ [frame]) := by
  refine ⟨?_, inv.tracks.grow (by rw [List.length_append]; exact Nat.le_add_right _ _)⟩
  rw [List.map_append]
  exact inv.holds.publish frame.toNat_len (by rwa [List.length_map])

theorem Numbered.of_append {history more : List (Frame profile)}
    (numbered : Numbered (history ++ more)) : Numbered history := by
  intro number frame present
  have later := getElem?_of_prefix (List.prefix_append history more) present
  exact numbered number frame later

theorem inv_of_run (memory : Ring slots) (before : List (Frame profile))
    (schedule : List (SourceEvent profile)) (numbered : Numbered (before ++ publications schedule))
    (room : (before ++ publications schedule).length < 2 ^ 64 - 1) :
    ((start memory before).run schedule).Inv before.length (before ++ publications schedule) := by
  induction schedule using List.reverseRecOn with
  | nil =>
      rw [publications, List.filterMap_nil, List.append_nil] at room ⊢
      exact inv_start memory before (by omega)
  | append_singleton schedule event ih =>
      have split : before ++ publications (schedule ++ [event]) =
          (before ++ publications schedule) ++ publications [event] := by
        rw [publications, List.filterMap_append, ← List.append_assoc]
        rfl
      rw [split] at numbered room
      rw [List.length_append] at room
      have inv := ih (Numbered.of_append numbered) (by omega)
      rw [split, run, List.foldl_append]
      cases event with
      | publish frame =>
          exact inv.publish frame (by
            rw [show publications [SourceEvent.publish frame] = [frame] from rfl,
              List.length_singleton] at room
            omega)
      | tryRead =>
          rw [show publications [(SourceEvent.tryRead : SourceEvent profile)] = [] from rfl,
            List.append_nil]
          exact (inv.tryRead (Numbered.of_append numbered) (by omega)).1

end SourceSystem

/-- A bare header with a sequence number and a body length. -/
def numberedFrame (bodyLen : UInt8) (number : Nat) : Frame .raw where
  bytes := toLittleEndian 8 number ++ List.replicate 12 0 ++ [bodyLen, 0, 0, 0]
  fits := by
    rw [List.length_append, List.length_append, length_toLittleEndian, List.length_replicate]
    exact Nat.le_of_ble_eq_true rfl

theorem seqId_numberedFrame (bodyLen : UInt8) {number : Nat} (small : number < 2 ^ 64) :
    (Header.load .raw (numberedFrame bodyLen number).bytes).seqId.toNat = number := by
  have image : slice (numberedFrame bodyLen number).bytes 0 8 = toLittleEndian 8 number := by
    rw [slice, List.drop_zero]
    show (toLittleEndian 8 number ++ _ ++ _).take 8 = _
    rw [List.append_assoc]
    exact List.take_left' (length_toLittleEndian 8 number)
  have value : ofLittleEndian (toLittleEndian 8 number) = number := by
    have read := ofBigEndian_toBigEndian 8 number
    rw [Nat.mod_eq_of_lt (by omega)] at read
    exact read
  show (loadU64 _ 0).toNat = number
  rw [loadU64, image, value, UInt64.toNat_ofNat_of_lt' small]

theorem Numbered.snoc {profile : Profile} {history : List (Frame profile)}
    {frame : Frame profile} (numbered : Numbered history)
    (next : (Header.load profile frame.bytes).seqId.toNat = history.length + 1) :
    Numbered (history ++ [frame]) := by
  intro number other present header
  rcases getElem?_append_singleton_cases present with earlier | ⟨rfl, rfl⟩
  · exact numbered number other earlier header
  · exact next

theorem numbered_range {count : Nat} (small : count < 2 ^ 64) :
    Numbered ((List.range count).map fun number => numberedFrame 24 (number + 1)) := by
  induction count with
  | zero => exact nofun
  | succ count ih =>
      rw [List.range_succ, List.map_append]
      apply (ih (Nat.lt_of_succ_lt small)).snoc
      rw [seqId_numberedFrame 24 small, List.length_map, List.length_range]

/-- The reader's count of missing frames by their numbers is exact over any reads,
and on a ring with numbered publications it is the count of the frames that the
reader skipped or rejected since the first `Ok`, however publications and reads
are ordered. -/
theorem source_loss_exact (profile : Profile) :
    (∀ (liveEdge : UInt64) (reads : List ReadResult) (first : UInt64) (rest : List UInt64),
      let log := reads.foldl (SourceLog.tryRead profile) (.start profile liveEdge)
      log.admitted = first :: rest →
        log.reader.prevValid ∈ first :: rest ∧
        (∀ seqId ∈ first :: rest, seqId ≤ log.reader.prevValid) ∧
        (log.reader.counters.sourceFramesMissing.toNat : Int) =
          (log.reader.prevValid.toNat - first.toNat) -
            (maximaAfter UInt64.toNat [first] rest).length) ∧
    (∀ (slots : SlotCount) (memory : Ring slots) (before : List (Frame profile))
      (schedule : List (SourceEvent profile)) (view : ValidatedSourceFrameView),
      Numbered (before ++ publications schedule) →
      (before ++ publications schedule).length < 2 ^ 64 - 1 →
      let system := (SourceSystem.start memory before).run schedule
      (system.log.reader.tryRead profile
        (system.ring.read system.log.reader.readIndex)).1 = .ok view →
      let log := (system.step (.tryRead : SourceEvent profile)).log
      ∃ first, log.firstOk = some first ∧
        log.reader.counters.sourceFramesMissing.toNat =
          (log.reader.counters.lappedFramesSkipped.toNat - first.lappedFramesSkipped.toNat) +
            (log.reader.counters.invalidFrames.toNat - first.invalidFrames.toNat)) := by
  constructor
  · intro liveEdge reads first rest log admitted
    have continuous : log.Continuous := SourceLog.continuous_of_reads profile liveEdge reads
    unfold SourceLog.Continuous at continuous
    rw [admitted] at continuous
    obtain ⟨-, newest, largest, missing⟩ := continuous
    exact ⟨newest, largest, by omega⟩
  · intro slots memory before schedule view numbered room system ok log
    have inv : system.Inv before.length _ :=
      SourceSystem.inv_of_run memory before schedule numbered room
    obtain ⟨next, newest⟩ := inv.tryRead numbered room
    have current := newest view ok
    rcases SourceLog.tryRead_cases profile system.log
      (system.ring.read system.log.reader.readIndex) with ⟨other, reader, taken⟩ | notOk
    · have since := congrArg SourceLog.firstOk (SourceLog.tryRead_ok taken)
      obtain ⟨-, -, skipped, invalid, total⟩ := next.tracks.agrees _ since
      refine ⟨_, since, ?_⟩
      rw [current] at total
      simp only [log]
      omega
    · exact absurd ok (notOk view)

theorem source_loss_exact_rejecting :
    let schedule : List (SourceEvent .raw) := [.publish (numberedFrame 24 1), .tryRead,
      .publish (numberedFrame 0 2), .publish (numberedFrame 24 3), .tryRead]
    let system := (SourceSystem.start (⟨0, fun _ => ⟨0, 0, fun _ => 0⟩⟩ : Ring ⟨2, 1, rfl⟩)
      ([] : List (Frame .raw))).run schedule
    let log := (system.step (.tryRead : SourceEvent .raw)).log
    log.reader.counters.sourceFramesMissing = 1 ∧ ∃ first, log.firstOk = some first ∧
      log.reader.counters.sourceFramesMissing.toNat =
        (log.reader.counters.lappedFramesSkipped.toNat - first.lappedFramesSkipped.toNat) +
          (log.reader.counters.invalidFrames.toNat - first.invalidFrames.toNat) := by
  intro schedule system log
  have numbered : Numbered ([numberedFrame 24 1] ++ [numberedFrame 0 2] ++ [numberedFrame 24 3]) :=
    ((numbered_range (show 1 < 2 ^ 64 by omega)).snoc
      (@seqId_numberedFrame 0 2 (by omega))).snoc (@seqId_numberedFrame 24 3 (by omega))
  exact ⟨by decide +kernel, (source_loss_exact .raw).2 _ _ _ schedule ⟨24, 3, true⟩ numbered
    (by decide +kernel) (by decide +kernel)⟩

/-- The read position just before it wraps asks for a stamp that is zero. -/
theorem Ring.read_wrapping {slots : SlotCount} {ring : Ring slots} {index : UInt64}
    (wraps : index + 1 = 0) (written : (ring.slotAt (slots.slot index)).seq ≠ 0) :
    ring.read index = .kLapped (Ring.resumePoint slots ring.liveEdge) [] := by
  have ahead : 0 < (ring.slotAt (slots.slot index)).seq := UInt64.pos_iff_ne_zero.mpr written
  rw [Ring.read]
  dsimp only
  rw [wraps, if_neg UInt64.not_lt_zero, if_pos ahead]

theorem Ring.read_published {profile : Profile} {slots : SlotCount} {ring : Ring slots}
    {history : List (List UInt8)} {frame : Frame profile} {index : UInt64}
    (holds : ring.Holds history) (room : history.length < 2 ^ 64)
    (present : history[index.toNat]? = some frame.bytes)
    (recent : history.length ≤ index.toNat + slots.size) :
    ring.read index = .kOk frame.len frame.bytes := by
  have inside := (List.getElem?_eq_some_iff.mp present).1
  rw [holds.read room (by omega), lookup_eq_hit_iff.mpr ⟨present, recent⟩]
  rfl

/-- A ring of two slots at the very end of the index range. -/
theorem Ring.read_last {profile : Profile} {ring : Ring ⟨2, 1, rfl⟩}
    {before : List (List UInt8)} {older newer : Frame profile}
    (holds : ring.Holds (before ++ [older.bytes] ++ [newer.bytes]))
    (length : before.length = 2 ^ 64 - 3) :
    ring.read 18446744073709551613 = .kOk older.len older.bytes ∧
    ring.read 18446744073709551614 = .kOk newer.len newer.bytes ∧
    ring.read 18446744073709551615 = .kLapped 18446744073709551613 [] := by
  have count : (before ++ [older.bytes] ++ [newer.bytes]).length = 2 ^ 64 - 1 := by
    rw [List.length_append, List.length_append, length]
    rfl
  have size : SlotCount.size ⟨2, 1, rfl⟩ = 2 := rfl
  have third : (18446744073709551613 : UInt64).toNat = before.length := length.symm
  have second : (18446744073709551614 : UInt64).toNat = before.length + 1 := by
    rw [length]
    rfl
  refine ⟨Ring.read_published holds (by omega) ?_ (by omega),
    Ring.read_published holds (by omega) ?_ (by omega), ?_⟩
  · rw [third, List.append_assoc, List.getElem?_append_right (Nat.le_refl _), Nat.sub_self]
    rfl
  · rw [second, List.append_assoc, List.getElem?_append_right (Nat.le_add_right _ _),
      Nat.add_sub_cancel_left]
    rfl
  · have written : stamp 2 (2 ^ 64 - 1) ((2 ^ 64 - 3) % 2) = 2 ^ 64 - 3 + 1 :=
      (stamp_eq_iff (by omega)).mpr (by omega)
    have target : Ring.resumePoint ⟨2, 1, rfl⟩ ring.liveEdge = 18446744073709551613 := by
      apply UInt64.toNat_inj.mp
      rw [Ring.toNat_resumePoint, Ring.liveEdge, holds.edge, count]
      rfl
    rw [Ring.read_wrapping rfl, target]
    intro zero
    have stamped := holds.stamped (SlotCount.slot ⟨2, 1, rfl⟩ 18446744073709551615)
    rw [zero, count, SlotCount.val_slot, size] at stamped
    change 0 = stamp 2 (2 ^ 64 - 1) ((2 ^ 64 - 3) % 2) at stamped
    omega

theorem SourceSystem.run_tryRead {profile : Profile} {slots : SlotCount} {ring : Ring slots}
    {log : SourceLog} {read : ReadResult} {index : UInt64} (rest : List (SourceEvent profile))
    (position : log.reader.readIndex = index) (reads : ring.read index = read) :
    run ⟨ring, log⟩ (.tryRead :: rest) = run ⟨ring, log.tryRead profile read⟩ rest := by
  rw [run, List.foldl_cons, step, position, reads]
  rfl

theorem SourceSystem.run_publish {profile : Profile} {slots : SlotCount} (ring : Ring slots)
    (log : SourceLog) (frame : Frame profile) (rest : List (SourceEvent profile)) :
    run ⟨ring, log⟩ (.publish frame :: rest) =
      run ⟨ring.publish frame.bytes frame.len, log⟩ rest := rfl

def lastValid : Frame .raw := numberedFrame 24 (2 ^ 64 - 2)

def lastInvalid : Frame .raw := numberedFrame 0 (2 ^ 64 - 1)

def lastSchedule : List (SourceEvent .raw) :=
  [.publish lastValid, .tryRead, .publish lastInvalid, .tryRead, .tryRead]

def attachedLast : SourceLog := .start .raw 18446744073709551613

/-- The valid frame, the invalid one after it, and the way back behind both. -/
def lastReads : List ReadResult :=
  [.kOk lastValid.len lastValid.bytes, .kOk lastInvalid.len lastInvalid.bytes,
    .kLapped 18446744073709551613 []]

theorem SourceSystem.run_lastSchedule {ring : Ring ⟨2, 1, rfl⟩} {before : List (List UInt8)}
    (holds : ring.Holds before) (length : before.length = 2 ^ 64 - 3) :
    let system := run ⟨ring, attachedLast⟩ lastSchedule
    system.log = lastReads.foldl (SourceLog.tryRead .raw) attachedLast ∧
      system.ring.read system.log.reader.readIndex = .kOk lastValid.len lastValid.bytes := by
  have one := holds.publish lastValid.toNat_len (by omega)
  have two := one.publish lastInvalid.toNat_len (by
    rw [List.length_append, List.length_singleton]
    omega)
  have older : (ring.publish lastValid.bytes lastValid.len).read 18446744073709551613 =
      .kOk lastValid.len lastValid.bytes := by
    have here : (18446744073709551613 : UInt64).toNat = before.length := length.symm
    have size : SlotCount.size ⟨2, 1, rfl⟩ = 2 := rfl
    refine Ring.read_published one ?_ ?_ ?_
    · rw [List.length_append, List.length_singleton]
      omega
    · rw [here, List.getElem?_append_right (Nat.le_refl _), Nat.sub_self]
      rfl
    · rw [List.length_append, List.length_singleton]
      omega
  obtain ⟨again, newer, wrapped⟩ := Ring.read_last two length
  have first : attachedLast.reader.readIndex = 18446744073709551613 := rfl
  have second : (attachedLast.tryRead .raw
      (.kOk lastValid.len lastValid.bytes)).reader.readIndex = 18446744073709551614 := by
    decide +kernel
  have third : ((attachedLast.tryRead .raw (.kOk lastValid.len lastValid.bytes)).tryRead .raw
      (.kOk lastInvalid.len lastInvalid.bytes)).reader.readIndex = 18446744073709551615 := by
    decide +kernel
  have last : (lastReads.foldl (SourceLog.tryRead .raw) attachedLast).reader.readIndex =
      18446744073709551613 := by decide +kernel
  intro system
  have ran : system =
      ⟨(ring.publish lastValid.bytes lastValid.len).publish lastInvalid.bytes lastInvalid.len,
        lastReads.foldl (SourceLog.tryRead .raw) attachedLast⟩ := by
    simp only [system, lastSchedule]
    rw [run_publish, run_tryRead _ first older, run_publish, run_tryRead _ second newer,
      run_tryRead _ third wrapped]
    rfl
  rw [ran]
  refine ⟨rfl, ?_⟩
  rw [last]
  exact again

/-- At the end of the index range the reader is sent back, and a frame it rejected
before that is counted in one of the two counts only. -/
theorem source_loss_recounts :
    let memory : Ring ⟨2, 1, rfl⟩ := ⟨0, fun _ => ⟨0, 0, fun _ => 0⟩⟩
    let before := (List.range (2 ^ 64 - 3)).map fun number => numberedFrame 24 (number + 1)
    let system := (SourceSystem.start memory before).run lastSchedule
    let log := (system.step (.tryRead : SourceEvent .raw)).log
    Numbered (before ++ publications lastSchedule) ∧
      (∃ view, (system.log.reader.tryRead .raw
        (system.ring.read system.log.reader.readIndex)).1 = .ok view) ∧
      ∃ first, log.firstOk = some first ∧
        log.reader.counters.sourceFramesMissing.toNat = 0 ∧
        (log.reader.counters.lappedFramesSkipped.toNat - first.lappedFramesSkipped.toNat) +
          (log.reader.counters.invalidFrames.toNat - first.invalidFrames.toNat) = 1 := by
  intro memory before
  have length : before.length = 2 ^ 64 - 3 := by
    simp only [before, List.length_map, List.length_range]
  have numbered : Numbered before := numbered_range (by omega)
  generalize before = history at *
  have inv := SourceSystem.inv_start memory history (by omega)
  have edge : (SourceSystem.start memory history).ring.liveEdge = 18446744073709551613 := by
    apply UInt64.toNat_inj.mp
    rw [Ring.liveEdge, inv.holds.edge, List.length_map, length]
    rfl
  have started : SourceSystem.start memory history =
      ⟨(SourceSystem.start memory history).ring, attachedLast⟩ := by
    rw [attachedLast, ← edge]
    rfl
  obtain ⟨ran, read⟩ := SourceSystem.run_lastSchedule inv.holds (by rw [List.length_map, length])
  rw [started]
  generalize SourceSystem.run ⟨_, attachedLast⟩ lastSchedule = system at ran read ⊢
  have stepped : (system.step (.tryRead : SourceEvent .raw)).log =
      system.log.tryRead .raw (system.ring.read system.log.reader.readIndex) := rfl
  rw [read, ran] at stepped
  refine ⟨?_, ?_, ?_⟩
  · have valid : Numbered (history ++ [lastValid]) := numbered.snoc (by
      rw [lastValid, seqId_numberedFrame 24 (by omega), length]
      rfl)
    have invalid := valid.snoc (show (Header.load .raw lastInvalid.bytes).seqId.toNat = _ by
      rw [lastInvalid, seqId_numberedFrame 0 (by omega), List.length_append, length]
      rfl)
    rw [List.append_assoc] at invalid
    exact invalid
  · rw [read, ran]
    exact ⟨⟨24, 18446744073709551614, true⟩, by decide +kernel⟩
  · rw [stepped]
    exact ⟨{ framesRead := 1, bytesRead := 24 }, by decide +kernel⟩

end Lldt.Transport
