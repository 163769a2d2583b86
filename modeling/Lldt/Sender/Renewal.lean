import Lldt.Data.Transition
import Lldt.Sender.Loss

namespace Lldt.Transport

open Lldt.Data.Bytes
open Lldt.Data.RetainedLog
open Lldt.Data.Transition
open Lldt.Msg
open Lldt.Shm

/-! A producer that is started again under a reader that goes on.  Its `attach` counts
from zero again, and the reader keeps its index. -/

namespace SenderShmReader

theorem classify_sourceGapEvents (reader : SenderShmReader) (seqId : UInt64) :
    (reader.classify seqId).2.counters.sourceGapEvents =
      if (reader.classify seqId).1 then reader.counters.sourceGapEvents + 1
      else reader.counters.sourceGapEvents := by
  unfold classify
  grind

theorem tryRead_ok_sourceGapEvents (profile : Profile) (reader : SenderShmReader)
    {read : ReadResult} {view : ValidatedSourceFrameView} {next : SenderShmReader}
    (ok : reader.tryRead profile read = (.ok view, next)) :
    next.counters.sourceGapEvents =
      if view.beginsAfterSourceGap then reader.counters.sourceGapEvents + 1
      else reader.counters.sourceGapEvents := by
  cases read with
  | kEmpty => simp [tryRead] at ok
  | kLapped resumeAt out => simp [tryRead] at ok
  | kOk readLen out =>
      rcases acceptFrame_cases profile
          { reader with buffer := overwrite reader.buffer 0 out } readLen with
        ⟨_, _, accepted⟩ | ⟨_, rejected⟩
      · simp only [tryRead, accepted, Prod.mk.injEq, SenderReaderResult.ok.injEq] at ok
        obtain ⟨rfl, rfl⟩ := ok
        rw [classify_sourceGapEvents]
        rfl
      · simp [tryRead, rejected, rejectFrame] at ok

end SenderShmReader

theorem SourceLog.reader_tryRead (profile : Profile) (log : SourceLog) (read : ReadResult) :
    (log.tryRead profile read).reader = (log.reader.tryRead profile read).2 := by
  rcases tryRead_cases profile log read with ⟨view, reader, ok⟩ | notOk
  · rw [tryRead_ok ok, ok]
  · rw [tryRead_not_ok notOk]

/-- The frames a read brought. -/
def outOf : ReadResult → List (List UInt8)
  | .kOk _ out => [out]
  | .kEmpty | .kLapped _ _ => []

/-- The ring and its reader, what the present producer has published, what all
producers have, and beside them where the reader stood when the present one began
and what it has read since. -/
structure RenewedSource (profile : Profile) (slots : SlotCount) where
  system : SourceSystem slots
  history : List (Frame profile)
  produced : Nat
  entered : Nat
  taken : List (List UInt8)

inductive RenewalEvent (profile : Profile) where
  | publish (frame : Frame profile)
  | tryRead
  | restart

namespace RenewedSource

variable {profile : Profile} {slots : SlotCount}

def start (memory : Ring slots) (before : List (Frame profile)) :
    RenewedSource profile slots where
  system := .start memory before
  history := before
  produced := before.length
  entered := before.length
  taken := []

def reader (state : RenewedSource profile slots) : SenderShmReader := state.system.log.reader

def nextRead (state : RenewedSource profile slots) : ReadResult :=
  state.system.ring.read state.reader.readIndex

/-- One call of `try_read`, given what the ring answers. -/
def take (state : RenewedSource profile slots) (result : ReadResult) :
    RenewedSource profile slots :=
  { state with
    system := { state.system with log := state.system.log.tryRead profile result }
    taken := state.taken ++ outOf result }

def step (state : RenewedSource profile slots) :
    RenewalEvent profile → Option (RenewedSource profile slots)
  | .publish frame =>
      -- every producer numbers its frames from one
      if sizeofHeader ≤ frame.bytes.length →
          (Header.load profile frame.bytes).seqId = UInt64.ofNat (state.history.length + 1) then
        some { state with
          system := state.system.step (.publish frame)
          history := state.history ++ [frame]
          produced := state.produced + 1 }
      else none
  | .tryRead => some (state.take state.nextRead)
  | .restart => some { state with
      system := { state.system with ring := state.system.ring.attach true }
      history := []
      entered := state.reader.readIndex.toNat
      taken := [] }

def Step (state : RenewedSource profile slots) (event : RenewalEvent profile)
    (next : RenewedSource profile slots) : Prop :=
  state.step event = some next

/-- The numbers admitted increase, up to the read position, and are consecutive as
long as nothing was skipped or rejected. -/
structure Ascends (attachedAt : Nat) (log : SourceLog) : Prop where
  increasing : (log.admitted.map UInt64.toNat).Pairwise (· < ·)
  below : ∀ seqId ∈ log.admitted, seqId.toNat ≤ log.reader.readIndex.toNat
  steady : log.reader.counters.lappedFramesSkipped = 0 →
    log.reader.counters.invalidFrames = 0 →
    log.reader.counters.sourceGapEvents = 0 ∧
      (log.reader.hasPrevValid = true → log.reader.prevValid = log.reader.readIndex) ∧
      log.reader.readIndex.toNat = attachedAt + log.admitted.length ∧
      log.admitted.map UInt64.toNat = List.range' (attachedAt + 1) log.admitted.length

structure Inv (attachedAt : Nat) (state : RenewedSource profile slots) : Prop where
  holds : state.system.ring.Holds (state.history.map Frame.bytes)
  numbered : Numbered state.history
  fewer : state.entered ≤ state.produced ∧ state.history.length ≤ state.produced
  tracks : state.system.log.Tracks attachedAt state.reader.readIndex.toNat
  ascends : Ascends attachedAt state.system.log
  waits : state.history.length ≤ state.entered →
    state.reader.readIndex.toNat = state.entered ∧ state.taken = []
  covers : state.entered ≤ state.history.length → ∃ skipped,
    Covers (state.history.map Frame.bytes) state.entered state.reader.readIndex.toNat
      state.taken skipped

section Ascends

variable {attachedAt : Nat} {log : SourceLog} {read : ReadResult}

theorem Ascends.admits {view : ValidatedSourceFrameView} {next : SenderShmReader}
    (ascends : Ascends attachedAt log)
    (ok : log.reader.tryRead profile read = (.ok view, next))
    (numbered : view.sourceSeqId = next.readIndex)
    (index : next.readIndex.toNat = log.reader.readIndex.toNat + 1)
    (skipped : next.counters.lappedFramesSkipped = log.reader.counters.lappedFramesSkipped) :
    Ascends attachedAt (log.tryRead profile read) := by
  obtain ⟨increasing, below, steady⟩ := ascends
  have admits := log.reader.admits_of_tryRead profile ok
  rw [SourceLog.tryRead_ok ok, numbered]
  refine ⟨?_, ?_, ?_⟩
  · rw [List.map_append, List.pairwise_append]
    refine ⟨increasing, List.pairwise_singleton _ _, ?_⟩
    intro earlier member last only
    obtain ⟨seqId, inside, rfl⟩ := List.mem_map.mp member
    rw [List.mem_singleton.mp only]
    have least := below seqId inside
    omega
  · intro seqId member
    rcases List.mem_append.mp member with earlier | last
    · have least := below seqId earlier
      dsimp only
      omega
    · rw [List.mem_singleton.mp last]
  · intro unskipped valid
    rw [skipped] at unskipped
    rw [admits.invalidFrames] at valid
    obtain ⟨noGap, current, count, range⟩ := steady unskipped valid
    have unflagged : view.beginsAfterSourceGap = false := by
      rw [admits.unflagged, numbered]
      cases fresh : log.reader.hasPrevValid with
      | false => exact .inl rfl
      | true =>
          right
          rw [current fresh]
          have ahead : log.reader.readIndex < next.readIndex :=
            UInt64.lt_iff_toNat_lt.mpr (by omega)
          refine ⟨ahead, UInt64.le_iff_toNat_le.mpr ?_⟩
          rw [UInt64.toNat_sub_of_le _ _ (UInt64.le_of_lt ahead), index]
          exact Nat.le_of_eq (Nat.add_sub_cancel_left _ _)
    refine ⟨?_, ?_, ?_, ?_⟩
    · rw [log.reader.tryRead_ok_sourceGapEvents profile ok, unflagged]
      exact noGap
    · intro _
      have newest := admits.prevValid
      rw [numbered] at newest
      rw [newest]
      split
      · rename_i behind
        rw [current behind.1, UInt64.le_iff_toNat_le] at behind
        omega
      · rfl
    · rw [List.length_append, List.length_singleton]
      dsimp only
      omega
    · rw [List.map_append, range, List.length_append, List.length_singleton, List.range'_concat,
        List.map_singleton, index, count, Nat.one_mul, Nat.add_right_comm]

/-- A read that admits nothing and leaves a position behind counts it. -/
theorem Ascends.loses (ascends : Ascends attachedAt log)
    (notOk : ∀ view, (log.reader.tryRead profile read).1 ≠ .ok view)
    (ahead : log.reader.readIndex.toNat ≤ (log.reader.tryRead profile read).2.readIndex.toNat)
    (lost : (log.reader.tryRead profile read).2.counters.lappedFramesSkipped ≠ 0 ∨
      (log.reader.tryRead profile read).2.counters.invalidFrames ≠ 0) :
    Ascends attachedAt (log.tryRead profile read) := by
  rw [SourceLog.tryRead_not_ok notOk]
  refine ⟨ascends.increasing, fun seqId member => (ascends.below seqId member).trans ahead, ?_⟩
  intro unskipped valid
  rcases lost with skipped | invalid
  · exact absurd unskipped skipped
  · exact absurd valid invalid

end Ascends

variable {memory : Ring slots} {before : List (Frame profile)}

theorem inv_start (memory : Ring slots) (numbered : Numbered before)
    (room : before.length < 2 ^ 64) : (start memory before).Inv before.length := by
  obtain ⟨holds, tracks⟩ := SourceSystem.inv_start memory before room
  have index : (start memory before).reader.readIndex.toNat = before.length := by
    rw [← List.length_map Frame.bytes, ← holds.edge]
    rfl
  refine ⟨holds, numbered, ⟨Nat.le_refl _, Nat.le_refl _⟩, ?_, ?_, fun _ => ⟨index, rfl⟩, ?_⟩
  · rw [index]
    exact tracks
  · exact ⟨.nil, nofun, fun _ _ => ⟨rfl, nofun, index, rfl⟩⟩
  · intro _
    refine ⟨0, ?_⟩
    have entered : (start memory before).entered = (start memory before).reader.readIndex.toNat :=
      index.symm
    rw [entered]
    apply Covers.start
    rw [index, List.length_map]
    exact Nat.le_refl _

variable {state next : RenewedSource profile slots} {attachedAt : Nat}

theorem Inv.publish (inv : state.Inv attachedAt) {frame : Frame profile}
    (numbered : sizeofHeader ≤ frame.bytes.length →
      (Header.load profile frame.bytes).seqId = UInt64.ofNat (state.history.length + 1))
    (few : state.produced + 1 < 2 ^ 64 - 1) :
    ({ state with
      system := state.system.step (.publish frame)
      history := state.history ++ [frame]
      produced := state.produced + 1 } : RenewedSource profile slots).Inv attachedAt := by
  obtain ⟨holds, numbers, fewer, tracks, ascends, waits, covers⟩ := inv
  have mapped : (state.history ++ [frame]).map Frame.bytes =
      state.history.map Frame.bytes ++ [frame.bytes] := List.map_append
  have length : (state.history ++ [frame]).length = state.history.length + 1 :=
    List.length_append
  refine ⟨?_, ?_, ⟨Nat.le_succ_of_le fewer.1, ?_⟩, tracks, ascends, ?_, ?_⟩
  · rw [mapped]
    exact holds.publish frame.toNat_len (by rw [List.length_map]; omega)
  · intro number other found long
    rcases getElem?_append_singleton_cases found with earlier | ⟨rfl, rfl⟩
    · exact numbers number other earlier long
    · rw [numbered long, UInt64.toNat_ofNat_of_lt' (show _ < 2 ^ 64 by omega)]
  · rw [length]
    exact Nat.succ_le_succ fewer.2
  · intro waiting
    rw [length] at waiting
    exact waits (Nat.le_of_succ_le waiting)
  · intro ahead
    rw [length] at ahead
    rw [mapped]
    by_cases earlier : state.entered ≤ state.history.length
    · obtain ⟨skipped, covered⟩ := covers earlier
      exact ⟨skipped, covered.append _⟩
    · obtain ⟨index, none⟩ := waits (by omega)
      have begun : Covers (state.history.map Frame.bytes ++ [frame.bytes]) state.entered
          state.entered [] 0 := .start (by
        rw [List.length_append, List.length_map, List.length_singleton]
        exact ahead)
      refine ⟨0, ?_⟩
      show Covers _ state.entered state.reader.readIndex.toNat state.taken 0
      rw [index, none]
      exact begun

theorem Inv.index_le (inv : state.Inv attachedAt) :
    state.reader.readIndex.toNat ≤ state.produced := by
  rcases Nat.le_total state.history.length state.entered with waiting | ahead
  · rw [(inv.waits waiting).1]
    exact inv.fewer.1
  · obtain ⟨skipped, covered⟩ := inv.covers ahead
    have bound := covered.bound
    rw [List.length_map] at bound
    exact bound.trans inv.fewer.2

theorem Inv.restart (inv : state.Inv attachedAt) :
    ({ state with
      system := { state.system with ring := state.system.ring.attach true }
      history := []
      entered := state.reader.readIndex.toNat
      taken := [] } : RenewedSource profile slots).Inv attachedAt where
  holds := Ring.holds_attach _
  numbered := nofun
  fewer := ⟨inv.index_le, Nat.zero_le _⟩
  tracks := inv.tracks
  ascends := inv.ascends
  waits := fun _ => ⟨rfl, rfl⟩
  covers := fun first => ⟨0, .start first⟩

/-- What the next read brings, or that the producer has not come to its position yet. -/
theorem Inv.nextRead_cases (inv : state.Inv attachedAt) (few : state.produced < 2 ^ 64 - 1) :
    state.nextRead = .kEmpty ∨
    (state.entered ≤ state.history.length ∧
      state.reader.readIndex.toNat < state.history.length ∧
      ((∃ resume skipped, state.nextRead = .kLapped resume [] ∧
        state.reader.readIndex < resume ∧ Covers (state.history.map Frame.bytes) state.entered
          resume.toNat state.taken skipped) ∨
      ∃ (frame : Frame profile) (skipped : Nat), state.nextRead = .kOk frame.len frame.bytes ∧
        state.history[state.reader.readIndex.toNat]? = some frame ∧
        Covers (state.history.map Frame.bytes) state.entered
          (state.reader.readIndex.toNat + 1) (state.taken ++ [frame.bytes]) skipped)) := by
  have index := inv.index_le
  by_cases early : state.history.length ≤ state.reader.readIndex.toNat
  · left
    apply Ring.Holds.read_early _ inv.holds
    · rw [List.length_map]
      omega
    · exact Nat.lt_of_le_of_lt (Nat.succ_le_succ index) (by omega)
    · rwa [List.length_map]
  · have ahead : state.entered ≤ state.history.length := by
      by_contra waiting
      have same := (inv.waits (by omega)).1
      omega
    obtain ⟨skipped, covered⟩ := inv.covers ahead
    have fewer := inv.fewer.2
    have inside := Nat.not_le.mp early
    rcases Ring.read_position inv.holds (by omega) (Nat.le_of_lt inside) with
      read | ⟨resume, read, after, bound⟩ | ⟨frame, present, read⟩
    · exact .inl read
    · refine .inr ⟨ahead, inside, .inl
        ⟨resume, skipped + (resume.toNat - state.reader.readIndex.toNat), read, after, ?_⟩⟩
      have less := UInt64.lt_iff_toNat_lt.mp after
      exact covered.skip (Nat.le_of_lt less) (by rwa [List.length_map])
    · refine .inr ⟨ahead, inside, .inr ⟨frame, skipped, read, present, covered.next ?_⟩⟩
      rw [List.getElem?_map, present]
      rfl

theorem Inv.tryRead (inv : state.Inv attachedAt) (few : state.produced < 2 ^ 64 - 1) :
    (state.take state.nextRead).Inv attachedAt := by
  have cases := inv.nextRead_cases few
  obtain ⟨holds, numbers, fewer, tracks, ascends, waits, covers⟩ := inv
  have passed := tracks.passed.passed
  rcases cases with read | ⟨ahead, inside, ⟨resume, skipped, read, after, covered⟩ |
    ⟨frame, skipped, read, present, covered⟩⟩
  · rw [read]
    have kept : (state.take .kEmpty).taken = state.taken := List.append_nil _
    refine ⟨holds, numbers, fewer, tracks.empty profile,
      ⟨ascends.increasing, ascends.below, ascends.steady⟩, ?_, ?_⟩
    · rw [kept]
      exact waits
    · rw [kept]
      exact covers
  · rw [read]
    have kept : (state.take (.kLapped resume [])).taken = state.taken := List.append_nil _
    have less := UInt64.lt_iff_toNat_lt.mp after
    have moved := (tracks.grow (Nat.le_of_lt less)).lapped profile after (Nat.le_refl _)
    refine ⟨holds, numbers, fewer, moved, ?_, ?_, ?_⟩
    · have notOk : ∀ view, (state.system.log.reader.tryRead profile
          (.kLapped resume [])).1 ≠ .ok view := fun view same => by
        simp [SenderShmReader.tryRead] at same
      refine ascends.loses notOk (Nat.le_of_lt less) (.inl fun none => ?_)
      have total := moved.passed.passed
      rw [SourceLog.tryRead_not_ok notOk] at total
      dsimp only at total
      rw [none, SenderShmReader.tryRead] at total
      dsimp only at total
      have zero : (0 : UInt64).toNat = 0 := rfl
      have same : state.reader.readIndex = state.system.log.reader.readIndex := rfl
      rw [same] at less
      omega
    · intro waiting
      have earlier := (waits waiting).1
      have waiting : state.history.length ≤ state.entered := waiting
      omega
    · intro _
      rw [kept]
      exact ⟨skipped, covered⟩
  · have position := numbers _ frame present
    have small : state.reader.readIndex.toNat + 1 < 2 ^ 64 := by omega
    have index : (state.take (.kOk frame.len frame.bytes)).reader.readIndex.toNat =
        state.reader.readIndex.toNat + 1 := by
      rw [← toNat_succ small]
      show (state.system.log.tryRead profile _).reader.readIndex.toNat = _
      rw [SourceLog.reader_tryRead, SenderShmReader.tryRead,
        SenderShmReader.acceptFrame_readIndex]
      rfl
    have grown := tracks.grow (Nat.le_succ state.reader.readIndex.toNat)
    rw [read]
    have both : (state.take (.kOk frame.len frame.bytes)).system.log.Tracks attachedAt
          (state.reader.readIndex.toNat + 1) ∧
        Ascends attachedAt (state.take (.kOk frame.len frame.bytes)).system.log := by
      rcases state.system.log.reader.tryRead_frame profile frame with
        ⟨view, next, ok, header, seqId, readIndex, unskipped⟩ |
        ⟨next, invalid, readIndex, framesRead, invalidFrames, unskipped⟩
      · have after : next.readIndex.toNat = state.reader.readIndex.toNat + 1 := by
          rw [readIndex, ← toNat_succ small]
          rfl
        have number := position header
        rw [← seqId] at number
        exact ⟨(grown.admits ok (Nat.lt_succ_self _) small number readIndex unskipped).1,
          ascends.admits ok (UInt64.toNat_inj.mp (number.trans after.symm)) after unskipped⟩
      · have after : next.readIndex.toNat = state.reader.readIndex.toNat + 1 := by
          rw [readIndex, ← toNat_succ small]
          rfl
        have notOk : ∀ view, (state.system.log.reader.tryRead profile
            (.kOk frame.len frame.bytes)).1 ≠ .ok view := by simp [invalid]
        refine ⟨grown.rejects invalid (Nat.lt_succ_self _) small readIndex framesRead
          invalidFrames unskipped, ascends.loses notOk ?_ (.inr ?_)⟩
        · rw [invalid, after]
          exact Nat.le_succ _
        · rw [invalid, invalidFrames]
          intro zero
          have wrapped := congrArg UInt64.toNat zero
          have least := tracks.passed.rejected
          have same : state.reader.readIndex = state.system.log.reader.readIndex := rfl
          rw [same] at small
          rw [toNat_succ (by omega)] at wrapped
          exact Nat.succ_ne_zero _ wrapped
    refine ⟨holds, numbers, fewer, ?_, both.2, ?_, ?_⟩
    · rw [index]
      exact both.1
    · intro waiting
      have earlier := (waits waiting).1
      have waiting : state.history.length ≤ state.entered := waiting
      omega
    · intro _
      rw [index]
      exact ⟨skipped, covered⟩

theorem produced_mono {event : RenewalEvent profile} (stepped : Step state event next) :
    state.produced ≤ next.produced := by
  unfold Step step at stepped
  cases event with
  | publish frame =>
      dsimp only at stepped
      split at stepped
      · cases stepped
        exact Nat.le_succ _
      · contradiction
  | tryRead =>
      cases stepped
      exact Nat.le_refl _
  | restart =>
      cases stepped
      exact Nat.le_refl _

theorem Inv.step {event : RenewalEvent profile} (inv : state.Inv attachedAt)
    (few : next.produced < 2 ^ 64 - 1) (stepped : Step state event next) :
    next.Inv attachedAt := by
  unfold Step RenewedSource.step at stepped
  cases event with
  | publish frame =>
      dsimp only at stepped
      split at stepped
      · rename_i numbered
        cases stepped
        exact inv.publish numbered few
      · contradiction
  | tryRead =>
      cases stepped
      exact inv.tryRead few
  | restart =>
      cases stepped
      exact inv.restart

end RenewedSource

end Lldt.Transport
