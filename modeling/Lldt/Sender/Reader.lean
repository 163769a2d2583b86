import Lldt.Ring.Basic

namespace Lldt.Transport

open Lldt.Data.Bytes
open Lldt.Msg
open Lldt.Shm

/-! `SenderShmReader`: the sender's view of the source ring.  It validates the
framing, follows the continuity of the source sequence and handles lapping. -/

structure SenderInputCounters where
  framesRead : UInt64 := 0
  bytesRead : UInt64 := 0
  emptyPolls : UInt64 := 0
  lappedEvents : UInt64 := 0
  lappedFramesSkipped : UInt64 := 0
  invalidFrames : UInt64 := 0
  sourceGapEvents : UInt64 := 0
  sourceFramesMissing : UInt64 := 0
  deriving DecidableEq, Repr

/-- A frame the reader has admitted.  `data` always points at the reader's own
`buffer_`, so the view has no bytes of its own: they are whatever the buffer
holds when the view is used. -/
structure ValidatedSourceFrameView where
  frameSize : UInt32
  sourceSeqId : UInt64
  beginsAfterSourceGap : Bool
  deriving DecidableEq, Repr

/-- `SenderReaderResult`: a view comes with the status `Ok` and with no other. -/
inductive SenderReaderResult where
  | ok (frameView : ValidatedSourceFrameView)
  | empty
  | lapped
  | invalid
  deriving DecidableEq, Repr

structure SenderShmReader where
  readIndex : UInt64
  prevValid : UInt64
  hasPrevValid : Bool
  buffer : List UInt8
  counters : SenderInputCounters

namespace SenderShmReader

def attached (profile : Profile) (liveEdge : UInt64) : SenderShmReader where
  readIndex := liveEdge
  prevValid := 0
  hasPrevValid := false
  buffer := List.replicate (kFrameCap profile).toNat 0
  counters := {}

def Sized (profile : Profile) (header : Header) (readLen : UInt32) : Prop :=
  ¬(header.frameSize.toNat < sizeofHeader ∨ kMaxFrame profile < header.frameSize ∨
    header.frameSize ≠ readLen)

instance (profile : Profile) (header : Header) (readLen : UInt32) :
    Decidable (Sized profile header readLen) :=
  inferInstanceAs (Decidable (¬_))

def rejectFrame (reader : SenderShmReader) : SenderReaderResult × SenderShmReader :=
  (.invalid, { reader with
    counters := { reader.counters with
      invalidFrames := reader.counters.invalidFrames + 1 } })

def classify (reader : SenderShmReader) (seqId : UInt64) : Bool × SenderShmReader :=
  if !reader.hasPrevValid then
    (false, { reader with hasPrevValid := true, prevValid := seqId })
  else if reader.prevValid < seqId then
    let dist := seqId - reader.prevValid
    if 1 < dist then
      (true, { reader with
        prevValid := seqId
        counters := { reader.counters with
          sourceGapEvents := reader.counters.sourceGapEvents + 1
          sourceFramesMissing := reader.counters.sourceFramesMissing + (dist - 1) } })
    else (false, { reader with prevValid := seqId })
  else
    -- a repeated or backward sequence leaves `prev_valid_` as it is
    (true, { reader with
      counters := { reader.counters with
        sourceGapEvents := reader.counters.sourceGapEvents + 1 } })

def acceptFrame (profile : Profile) (reader : SenderShmReader) (readLen : UInt32) :
    SenderReaderResult × SenderShmReader :=
  let reader := { reader with
    readIndex := reader.readIndex + 1
    counters := { reader.counters with
      framesRead := reader.counters.framesRead + 1
      bytesRead := reader.counters.bytesRead + readLen.toUInt64 } }
  if readLen.toNat < sizeofHeader then reader.rejectFrame
  else
    let header := Header.load profile (slice reader.buffer 0 sizeofHeader)
    if Sized profile header readLen then
      let (gap, reader) := reader.classify header.seqId
      (.ok {
        frameSize := readLen
        sourceSeqId := header.seqId
        beginsAfterSourceGap := gap }, reader)
    else reader.rejectFrame

/-- `try_read`, given what `ring_.read(read_index_, buffer_, ..)` did. -/
def tryRead (profile : Profile) (reader : SenderShmReader) (read : ReadResult) :
    SenderReaderResult × SenderShmReader :=
  match read with
  | .kOk readLen out =>
      { reader with buffer := overwrite reader.buffer 0 out }.acceptFrame profile readLen
  | .kEmpty =>
      (.empty, { reader with
        counters := { reader.counters with emptyPolls := reader.counters.emptyPolls + 1 } })
  | .kLapped resumeAt out =>
      let skipped :=
        if reader.readIndex < resumeAt then
          reader.counters.lappedFramesSkipped + (resumeAt - reader.readIndex)
        else reader.counters.lappedFramesSkipped
      (.lapped, { reader with
        readIndex := resumeAt
        buffer := overwrite reader.buffer 0 out
        counters := { reader.counters with
          lappedEvents := reader.counters.lappedEvents + 1
          lappedFramesSkipped := skipped } })

/-! The fields that the continuity classification leaves alone. -/

section Classify

variable (reader : SenderShmReader) (seqId : UInt64)

@[simp] theorem classify_readIndex : (reader.classify seqId).2.readIndex = reader.readIndex := by
  unfold classify
  grind

@[simp] theorem classify_buffer : (reader.classify seqId).2.buffer = reader.buffer := by
  unfold classify
  grind

@[simp] theorem classify_framesRead :
    (reader.classify seqId).2.counters.framesRead = reader.counters.framesRead := by
  unfold classify
  grind

@[simp] theorem classify_invalidFrames :
    (reader.classify seqId).2.counters.invalidFrames = reader.counters.invalidFrames := by
  unfold classify
  grind

@[simp] theorem classify_lappedFramesSkipped :
    (reader.classify seqId).2.counters.lappedFramesSkipped =
      reader.counters.lappedFramesSkipped := by
  unfold classify
  grind

@[simp] theorem classify_hasPrevValid : (reader.classify seqId).2.hasPrevValid = true := by
  unfold classify
  grind

theorem classify_prevValid :
    (reader.classify seqId).2.prevValid =
      if reader.hasPrevValid ∧ seqId ≤ reader.prevValid then reader.prevValid else seqId := by
  unfold classify
  grind

theorem classify_unflagged_iff :
    (reader.classify seqId).1 = false ↔
      reader.hasPrevValid = false ∨
        (reader.prevValid < seqId ∧ seqId - reader.prevValid ≤ 1) := by
  unfold classify
  grind

end Classify

/-! What one `try_read` does. -/

section TryRead

variable (profile : Profile) (reader : SenderShmReader)

def counted (readLen : UInt32) : SenderShmReader :=
  { reader with
    readIndex := reader.readIndex + 1
    counters := { reader.counters with
      framesRead := reader.counters.framesRead + 1
      bytesRead := reader.counters.bytesRead + readLen.toUInt64 } }

def header : Header := Header.load profile (slice reader.buffer 0 sizeofHeader)

/-- The header of a frame that was copied to the front of the buffer. -/
theorem header_overwrite {bytes : List UInt8} (long : sizeofHeader ≤ bytes.length) :
    ({ reader with buffer := overwrite reader.buffer 0 bytes } : SenderShmReader).header profile =
      Header.load profile bytes := by
  have stored : slice (overwrite reader.buffer 0 bytes) 0 bytes.length = bytes :=
    slice_overwrite_self (Nat.zero_le _)
  rw [header, Header.load_slice profile (Nat.le_refl _), ← Header.load_slice profile long, stored]

theorem acceptFrame_cases (readLen : UInt32) :
    (sizeofHeader ≤ readLen.toNat ∧ Sized profile (reader.header profile) readLen ∧
      reader.acceptFrame profile readLen =
        (.ok {
          frameSize := readLen
          sourceSeqId := (reader.header profile).seqId
          beginsAfterSourceGap :=
            ((reader.counted readLen).classify (reader.header profile).seqId).1 },
          ((reader.counted readLen).classify (reader.header profile).seqId).2)) ∨
    (¬(sizeofHeader ≤ readLen.toNat ∧ Sized profile (reader.header profile) readLen) ∧
      reader.acceptFrame profile readLen = (reader.counted readLen).rejectFrame) := by
  unfold acceptFrame
  dsimp only
  split
  · rename_i short
    exact .inr ⟨fun ok => absurd ok.1 (Nat.not_le.mpr short), rfl⟩
  · rename_i long
    split
    · rename_i sized
      exact .inl ⟨Nat.not_lt.mp long, sized, rfl⟩
    · rename_i unsized
      exact .inr ⟨fun ok => unsized ok.2, rfl⟩

@[simp] theorem acceptFrame_readIndex (readLen : UInt32) :
    (reader.acceptFrame profile readLen).2.readIndex = reader.readIndex + 1 := by
  rcases acceptFrame_cases profile reader readLen with ⟨_, _, eq⟩ | ⟨_, eq⟩ <;>
    simp [eq, counted, rejectFrame]

@[simp] theorem acceptFrame_framesRead (readLen : UInt32) :
    (reader.acceptFrame profile readLen).2.counters.framesRead =
      reader.counters.framesRead + 1 := by
  rcases acceptFrame_cases profile reader readLen with ⟨_, _, eq⟩ | ⟨_, eq⟩ <;>
    simp [eq, counted, rejectFrame]

@[simp] theorem acceptFrame_lappedFramesSkipped (readLen : UInt32) :
    (reader.acceptFrame profile readLen).2.counters.lappedFramesSkipped =
      reader.counters.lappedFramesSkipped := by
  rcases acceptFrame_cases profile reader readLen with ⟨_, _, eq⟩ | ⟨_, eq⟩ <;>
    simp [eq, counted, rejectFrame]

@[simp] theorem acceptFrame_buffer (readLen : UInt32) :
    (reader.acceptFrame profile readLen).2.buffer = reader.buffer := by
  rcases acceptFrame_cases profile reader readLen with ⟨_, _, eq⟩ | ⟨_, eq⟩ <;>
    simp [eq, counted, rejectFrame]

/-- What holds between a reader, an admitted view and the reader after it. -/
structure Admits (read : ReadResult) (view : ValidatedSourceFrameView)
    (next : SenderShmReader) : Prop where
  copied : ∃ out, read = .kOk view.frameSize out ∧
    next.buffer = overwrite reader.buffer 0 out
  hasHeader : sizeofHeader ≤ view.frameSize.toNat
  atMost : view.frameSize ≤ kMaxFrame profile
  sized : (next.header profile).frameSize = view.frameSize
  seqId : view.sourceSeqId = (next.header profile).seqId
  unflagged : view.beginsAfterSourceGap = false ↔
    reader.hasPrevValid = false ∨
      (reader.prevValid < view.sourceSeqId ∧ view.sourceSeqId - reader.prevValid ≤ 1)
  hasPrevValid : next.hasPrevValid = true
  prevValid : next.prevValid =
    if reader.hasPrevValid ∧ view.sourceSeqId ≤ reader.prevValid then reader.prevValid
    else view.sourceSeqId
  framesRead : next.counters.framesRead = reader.counters.framesRead + 1
  invalidFrames : next.counters.invalidFrames = reader.counters.invalidFrames

theorem admits_of_tryRead {read : ReadResult} {view : ValidatedSourceFrameView}
    {next : SenderShmReader} (ok : tryRead profile reader read = (.ok view, next)) :
    reader.Admits profile read view next := by
  cases read with
  | kEmpty => simp [tryRead] at ok
  | kLapped resumeAt out => simp [tryRead] at ok
  | kOk readLen out =>
      rcases acceptFrame_cases profile
          { reader with buffer := overwrite reader.buffer 0 out } readLen with
        ⟨long, sized, eq⟩ | ⟨_, eq⟩
      · simp only [tryRead, eq, Prod.mk.injEq, SenderReaderResult.ok.injEq] at ok
        obtain ⟨rfl, rfl⟩ := ok
        simp only [Sized, not_or, not_not] at sized
        refine ⟨⟨out, rfl, by simp [counted]⟩, long, ?_, ?_, ?_, ?_, by simp, ?_,
          by simp [counted], by simp [counted]⟩
        · have bound := sized.2.1
          rw [sized.2.2] at bound
          exact UInt32.not_lt.mp bound
        · simpa [header, counted] using sized.2.2
        · simp [header, counted]
        · exact classify_unflagged_iff _ _
        · exact classify_prevValid _ _
      · simp [tryRead, eq, rejectFrame] at ok

theorem tryRead_not_ok {read : ReadResult}
    (notOk : ∀ view, (tryRead profile reader read).1 ≠ .ok view) :
    (tryRead profile reader read).2.counters.framesRead -
        (tryRead profile reader read).2.counters.invalidFrames =
      reader.counters.framesRead - reader.counters.invalidFrames ∧
    (tryRead profile reader read).2.hasPrevValid = reader.hasPrevValid ∧
    (tryRead profile reader read).2.prevValid = reader.prevValid := by
  cases read with
  | kEmpty => simp [tryRead]
  | kLapped resumeAt out => simp [tryRead]
  | kOk readLen out =>
      rcases acceptFrame_cases profile
          { reader with buffer := overwrite reader.buffer 0 out } readLen with ⟨_, _, eq⟩ | ⟨_, eq⟩
      · simp only [tryRead, eq] at notOk
        exact absurd rfl (notOk _)
      · simp only [tryRead, eq, rejectFrame, counted]
        grind

theorem length_buffer_le (read : ReadResult) :
    reader.buffer.length ≤ (tryRead profile reader read).2.buffer.length := by
  cases read with
  | kEmpty => simp [tryRead]
  | kLapped resumeAt out => exact length_le_length_overwrite _ _ _
  | kOk readLen out =>
      simp only [tryRead, acceptFrame_buffer]
      exact length_le_length_overwrite _ _ _

end TryRead

end SenderShmReader

structure ValidatedSourceFrameView.Shows {profile : Profile}
    (view : ValidatedSourceFrameView) (buffer : List UInt8) (frame : ValidFrame profile) :
    Prop where
  size : view.frameSize.toNat = frame.bytes.length
  bytes : slice buffer 0 frame.bytes.length = frame.bytes
  seqId : view.sourceSeqId = frame.seqId

theorem SenderShmReader.Admits.shows {profile : Profile} {reader next : SenderShmReader}
    {read : ReadResult} {view : ValidatedSourceFrameView}
    (admits : reader.Admits profile read view next)
    (capacity : (kFrameCap profile).toNat ≤ next.buffer.length) :
    ∃ frame : ValidFrame profile, view.Shows next.buffer frame ∧
      frame.bytes = slice next.buffer 0 view.frameSize.toNat := by
  have atMost := UInt32.le_iff_toNat_le.mp admits.atMost
  have hasHeader := admits.hasHeader
  have length : (slice next.buffer 0 view.frameSize.toNat).length = view.frameSize.toNat :=
    length_slice_of_le (by
      simp only [kFrameCap] at capacity
      omega)
  have header : Header.load profile (slice next.buffer 0 view.frameSize.toNat) =
      next.header profile := by
    rw [SenderShmReader.header, Header.load_slice profile hasHeader,
      Header.load_slice profile (Nat.le_refl _)]
  refine ⟨⟨⟨slice next.buffer 0 view.frameSize.toNat, ?_⟩, ?_, ?_⟩, ⟨?_, ?_, ?_⟩, rfl⟩
  · rw [length]
    exact atMost
  · rw [length]
    exact hasHeader
  · rw [header, admits.sized, length]
  · exact length.symm
  · simp only [length]
  · exact admits.seqId.trans (congrArg Header.seqId header.symm)

end Lldt.Transport
