import Lldt.Sender.Reader
import Mathlib.Data.List.Induction

namespace Lldt.Transport

open Lldt.Data.Bytes
open Lldt.Msg

/-! `RawDataPacketBuilder`: the canonical image of a Data packet. -/

/-- A Data packet in memory.  `data` is the memory its pointer leads to. -/
structure CanonicalDataPacketView where
  data : List UInt8
  packetSize : UInt64
  dataSeq : UInt64
  recordCount : UInt16
  deriving DecidableEq, Repr

inductive RawDataPacketBuildStatus where
  | ok
  | outputTooSmall
  deriving DecidableEq, Repr

/-- `output` is the memory from `output_` on, `writePos` is `write_pos_ - output_`. -/
structure RawDataPacketBuilder where
  output : List UInt8
  writePos : UInt64
  remainingPayloadCapacity : UInt64
  dataSeq : UInt64
  recordCount : UInt16
  deriving DecidableEq, Repr

namespace RawDataPacketBuilder

def dataHeaderSize : UInt16 := 22

def MAGIC_LLDT : UInt32 := 0x4c4c4454

def protocolVersion : UInt8 := 1

/-- `writeSizeofTBE(output + offset, value)` and the offset behind the field. -/
def writeSizeofTBE (size value : Nat) : List UInt8 × Nat → List UInt8 × Nat
  | (output, offset) =>
      ((List.range size).foldl (fun output i =>
          output.set (offset + i)
            (UInt8.ofNat ((value >>> (8 * (size - i - 1))) &&& 0xFF))) output,
        offset + size)

def writeLLDTHeader (output : List UInt8) (dataSeq : UInt64) (recordCount : UInt16) :
    List UInt8 :=
  let written := writeSizeofTBE 4 MAGIC_LLDT.toNat (output, 0)
  let written := writeSizeofTBE 1 protocolVersion.toNat written
  let written := writeSizeofTBE 2 dataHeaderSize.toNat written
  let written := writeSizeofTBE 8 dataSeq.toNat written
  let written := writeSizeofTBE 2 recordCount.toNat written
  -- padding
  let written := (List.range 5).foldl (fun written _ => writeSizeofTBE 1 0 written) written
  written.1

/-- The constructor.  `source` is the memory `first_frame.data` points at. -/
def new (output : List UInt8) (capacity dataSeq : UInt64) (source : List UInt8)
    (firstFrame : ValidatedSourceFrameView) : RawDataPacketBuilder where
  output := overwrite output dataHeaderSize.toNat (slice source 0 firstFrame.frameSize.toNat)
  writePos := dataHeaderSize.toUInt64 + firstFrame.frameSize.toUInt64
  remainingPayloadCapacity :=
    capacity - dataHeaderSize.toUInt64 - firstFrame.frameSize.toUInt64
  dataSeq := dataSeq
  recordCount := 1

def tryAppend (builder : RawDataPacketBuilder) (source : List UInt8)
    (frame : ValidatedSourceFrameView) : RawDataPacketBuildStatus × RawDataPacketBuilder :=
  if builder.remainingPayloadCapacity < frame.frameSize.toUInt64 then
    (.outputTooSmall, builder)
  else
    (.ok, { builder with
      output := overwrite builder.output builder.writePos.toNat
        (slice source 0 frame.frameSize.toNat)
      writePos := builder.writePos + frame.frameSize.toUInt64
      remainingPayloadCapacity :=
        builder.remainingPayloadCapacity - frame.frameSize.toUInt64
      recordCount := builder.recordCount + 1 })

def finalize (builder : RawDataPacketBuilder) : CanonicalDataPacketView where
  data := writeLLDTHeader builder.output builder.dataSeq builder.recordCount
  packetSize := builder.writePos
  dataSeq := builder.dataSeq
  recordCount := builder.recordCount

def buildCanonical (output : List UInt8) (capacity dataSeq : UInt64) (source : List UInt8)
    (frameView : ValidatedSourceFrameView) :
    RawDataPacketBuildStatus × Option CanonicalDataPacketView :=
  if capacity < dataHeaderSize.toUInt64 + frameView.frameSize.toUInt64 then
    (.outputTooSmall, none)
  else (.ok, some (new output capacity dataSeq source frameView).finalize)

/-! The header is one run of big-endian fields. -/

def Wrote (output fields : List UInt8) (written : List UInt8 × Nat) : Prop :=
  written = (overwrite output 0 fields, fields.length)

theorem Wrote.field {output fields : List UInt8} {written : List UInt8 × Nat}
    (wrote : Wrote output fields written) (size value : Nat)
    (room : fields.length + size ≤ output.length) :
    Wrote output (fields ++ toBigEndian size value) (writeSizeofTBE size value written) := by
  rw [Wrote] at wrote ⊢
  subst wrote
  have inside : 0 + fields.length ≤ output.length := by omega
  have adjacent : overwrite (overwrite output 0 fields) (0 + fields.length)
      (toBigEndian size value) = overwrite output 0 (fields ++ toBigEndian size value) :=
    overwrite_overwrite_adjacent inside
  rw [Nat.zero_add] at adjacent
  simp only [writeSizeofTBE]
  rw [foldl_set_eq_overwrite _ (by rw [length_overwrite inside]; exact room),
    List.length_append, length_toBigEndian, ← adjacent]
  rfl

theorem Wrote.padding {output fields : List UInt8} {written : List UInt8 × Nat}
    (wrote : Wrote output fields written) (count : Nat)
    (room : fields.length + count ≤ output.length) :
    Wrote output (fields ++ List.replicate count 0)
      ((List.range count).foldl (fun written _ => writeSizeofTBE 1 0 written) written) := by
  induction count with
  | zero => simpa using wrote
  | succ count ih =>
      rw [List.range_succ, List.foldl_append, List.replicate_succ', ← List.append_assoc]
      refine Wrote.field (ih (by omega)) 1 0 ?_
      rw [List.length_append, List.length_replicate]
      omega

def headerImage (dataSeq : UInt64) (recordCount : UInt16) : List UInt8 :=
  toBigEndian 4 MAGIC_LLDT.toNat ++ toBigEndian 1 protocolVersion.toNat ++
    toBigEndian 2 dataHeaderSize.toNat ++ toBigEndian 8 dataSeq.toNat ++
    toBigEndian 2 recordCount.toNat ++ List.replicate 5 0

@[simp] theorem length_headerImage (dataSeq : UInt64) (recordCount : UInt16) :
    (headerImage dataSeq recordCount).length = dataHeaderSize.toNat := by
  simp [headerImage, dataHeaderSize]

theorem writeLLDTHeader_eq {output : List UInt8} (room : dataHeaderSize.toNat ≤ output.length)
    (dataSeq : UInt64) (recordCount : UInt16) :
    writeLLDTHeader output dataSeq recordCount =
      overwrite output 0 (headerImage dataSeq recordCount) := by
  have size : dataHeaderSize.toNat = 22 := rfl
  rw [size] at room
  have start : Wrote output [] (output, 0) := by simp [Wrote, overwrite]
  have magic := start.field 4 MAGIC_LLDT.toNat (by simp; omega)
  have version := magic.field 1 protocolVersion.toNat (by simp; omega)
  have headerSize := version.field 2 dataHeaderSize.toNat (by simp; omega)
  have sequence := headerSize.field 8 dataSeq.toNat (by simp; omega)
  have records := sequence.field 2 recordCount.toNat (by simp; omega)
  have all := records.padding 5 (by simp; omega)
  exact congrArg Prod.fst all

end RawDataPacketBuilder

/-! The builder against the list of frames it has accepted. -/

variable {profile : Profile}

/-- A validated view with the memory it points into and the frame it shows. -/
structure OfferedFrame (profile : Profile) where
  source : List UInt8
  view : ValidatedSourceFrameView
  frame : ValidFrame profile
  size : view.frameSize.toNat = frame.bytes.length
  shows : slice source 0 frame.bytes.length = frame.bytes

def payload (frames : List (ValidFrame profile)) : List UInt8 :=
  frames.flatMap fun frame => frame.bytes

@[simp] theorem payload_append (first second : List (ValidFrame profile)) :
    payload (first ++ second) = payload first ++ payload second :=
  List.flatMap_append

@[simp] theorem payload_singleton (frame : ValidFrame profile) :
    payload [frame] = frame.bytes :=
  List.flatMap_singleton _ _

theorem length_le_payload (frames : List (ValidFrame profile)) :
    sizeofHeader * frames.length ≤ (payload frames).length := by
  induction frames using List.reverseRecOn with
  | nil => exact Nat.le_refl _
  | append_singleton frames frame ih =>
      have one := frame.hasHeader
      rw [payload_append, payload_singleton, List.length_append, List.length_append,
        List.length_singleton, Nat.mul_add]
      omega

namespace RawDataPacketBuilder

/-- The builder has accepted the frames into an output of the capacity, which
lies at the beginning of an area of memory. -/
structure Carries (builder : RawDataPacketBuilder) (area : Nat) (capacity : UInt64)
    (frames : List (ValidFrame profile)) : Prop where
  length : builder.output.length = area
  room : capacity.toNat ≤ area
  fits : dataHeaderSize.toNat + (payload frames).length ≤ capacity.toNat
  writePos : builder.writePos.toNat = dataHeaderSize.toNat + (payload frames).length
  remaining : builder.remainingPayloadCapacity.toNat =
    capacity.toNat - dataHeaderSize.toNat - (payload frames).length
  recordCount : builder.recordCount.toNat = frames.length
  copied : slice builder.output dataHeaderSize.toNat (payload frames).length = payload frames

section Spec

variable {builder : RawDataPacketBuilder} {area : Nat} {capacity : UInt64}
  {output : List UInt8} {frames : List (ValidFrame profile)}

theorem toNat_dataHeaderSize : dataHeaderSize.toNat = 22 := rfl

theorem carries_new (dataSeq : UInt64) (offered : OfferedFrame profile)
    (room : capacity.toNat ≤ output.length)
    (fits : dataHeaderSize.toNat + offered.frame.bytes.length ≤ capacity.toNat) :
    (new output capacity dataSeq offered.source offered.view).Carries output.length
      capacity [offered.frame] := by
  have size := offered.size
  have length := offered.frame.length_le
  have header : dataHeaderSize.toUInt64.toNat = dataHeaderSize.toNat := rfl
  have width : offered.view.frameSize.toUInt64.toNat = offered.frame.bytes.length := by
    rw [UInt32.toNat_toUInt64, size]
  have shown : slice offered.source 0 offered.view.frameSize.toNat = offered.frame.bytes := by
    rw [size, offered.shows]
  rw [toNat_dataHeaderSize] at header fits
  refine ⟨?_, room, ?_, ?_, ?_, rfl, ?_⟩
  · simp only [new, shown]
    exact length_overwrite (by rw [toNat_dataHeaderSize]; omega)
  · rw [payload_singleton, toNat_dataHeaderSize]
    exact fits
  · simp only [new, payload_singleton, UInt64.toNat_add, width, header, toNat_dataHeaderSize]
    omega
  · simp only [new, payload_singleton, toNat_dataHeaderSize]
    rw [UInt64.toNat_sub_of_le, UInt64.toNat_sub_of_le, width, header]
    · rw [UInt64.le_iff_toNat_le, header]
      omega
    · rw [UInt64.le_iff_toNat_le, UInt64.toNat_sub_of_le, width, header]
      · omega
      · rw [UInt64.le_iff_toNat_le, header]
        omega
  · simp only [new, payload_singleton, shown]
    exact slice_overwrite_self (by rw [toNat_dataHeaderSize]; omega)

/-- `try_append` refuses exactly the frames that would exceed the capacity. -/
theorem Carries.tryAppend_tooSmall_iff (carries : builder.Carries area capacity frames)
    (offered : OfferedFrame profile) :
    (builder.tryAppend offered.source offered.view).1 = .outputTooSmall ↔
      capacity.toNat <
        dataHeaderSize.toNat + (payload frames).length + offered.frame.bytes.length := by
  have fits := carries.fits
  have remaining := carries.remaining
  have width : offered.view.frameSize.toUInt64.toNat = offered.frame.bytes.length := by
    rw [UInt32.toNat_toUInt64, offered.size]
  unfold tryAppend
  split
  · rename_i small
    rw [UInt64.lt_iff_toNat_lt, width] at small
    simp only [true_iff]
    omega
  · rename_i large
    rw [UInt64.lt_iff_toNat_lt, width] at large
    simp only [reduceCtorEq, false_iff]
    omega

theorem tryAppend_tooSmall {source : List UInt8} {view : ValidatedSourceFrameView}
    (refused : (builder.tryAppend source view).1 = .outputTooSmall) :
    (builder.tryAppend source view).2 = builder := by
  unfold tryAppend at refused ⊢
  split
  · rfl
  · rename_i large
    rw [if_neg large] at refused
    contradiction

theorem tryAppend_ok_iff {source : List UInt8} {view : ValidatedSourceFrameView} :
    (builder.tryAppend source view).1 = .ok ↔
      view.frameSize.toUInt64 ≤ builder.remainingPayloadCapacity := by
  rw [← UInt64.not_lt]
  unfold tryAppend
  split <;> simp [*]

@[simp] theorem tryAppend_dataSeq (source : List UInt8) (view : ValidatedSourceFrameView) :
    (builder.tryAppend source view).2.dataSeq = builder.dataSeq := by
  unfold tryAppend
  split <;> rfl

theorem Carries.length_lt (carries : builder.Carries area capacity frames)
    (small : capacity.toNat < 2 ^ 16) : frames.length < 2 ^ 16 - 1 := by
  have least := length_le_payload frames
  have fits := carries.fits
  simp only [sizeofHeader] at least
  omega

theorem Carries.append (carries : builder.Carries area capacity frames)
    (small : capacity.toNat < 2 ^ 16) (offered : OfferedFrame profile)
    (accepted : (builder.tryAppend offered.source offered.view).1 = .ok) :
    (builder.tryAppend offered.source offered.view).2.Carries area capacity
      (frames ++ [offered.frame]) := by
  have fits := carries.fits
  have count := carries.length_lt small
  have length := carries.length
  have room := carries.room
  have writePos := carries.writePos
  have width : offered.view.frameSize.toUInt64.toNat = offered.frame.bytes.length := by
    rw [UInt32.toNat_toUInt64, offered.size]
  have shown : slice offered.source 0 offered.view.frameSize.toNat = offered.frame.bytes := by
    rw [offered.size, offered.shows]
  have notTooSmall := mt (carries.tryAppend_tooSmall_iff offered).mpr (by simp [accepted])
  unfold tryAppend at accepted ⊢
  split
  · rename_i large
    rw [if_pos large] at accepted
    contradiction
  · rename_i enough
    rw [UInt64.lt_iff_toNat_lt, Nat.not_lt] at enough
    refine ⟨?_, room, ?_, ?_, ?_, ?_, ?_⟩
    · simp only [shown]
      rw [length_overwrite (by omega), length]
    · rw [payload_append, payload_singleton, List.length_append]
      omega
    · simp only [payload_append, payload_singleton, List.length_append, UInt64.toNat_add,
        writePos, width]
      omega
    · simp only [payload_append, payload_singleton, List.length_append]
      rw [UInt64.toNat_sub_of_le _ _ (UInt64.le_iff_toNat_le.mpr enough),
        carries.remaining, width]
      omega
    · rw [UInt16.toNat_add, carries.recordCount, UInt16.toNat_one, List.length_append,
        List.length_singleton]
      exact Nat.mod_eq_of_lt (by omega)
    · simp only [payload_append, payload_singleton, List.length_append, writePos, shown]
      rw [slice_overwrite_extend (by omega), carries.copied]

end Spec

end RawDataPacketBuilder

/-- The packet is the image of its header and the frames. -/
structure CanonicalDataPacketView.Encodes (view : CanonicalDataPacketView)
    (frames : List (ValidFrame profile)) : Prop where
  packetSize : view.packetSize.toNat =
    RawDataPacketBuilder.dataHeaderSize.toNat + (payload frames).length
  recordCount : view.recordCount.toNat = frames.length
  records : slice view.data RawDataPacketBuilder.dataHeaderSize.toNat
    (payload frames).length = payload frames

theorem RawDataPacketBuilder.Carries.finalize {builder : RawDataPacketBuilder}
    {area : Nat} {capacity : UInt64} {frames : List (ValidFrame profile)}
    (carries : builder.Carries area capacity frames) :
    builder.finalize.Encodes frames ∧
      slice builder.finalize.data 0 dataHeaderSize.toNat =
        headerImage builder.dataSeq builder.recordCount ∧
      builder.finalize.data.length = area := by
  have length := carries.length
  have room := carries.room
  have fits := carries.fits
  have header : builder.finalize.data =
      overwrite builder.output 0 (headerImage builder.dataSeq builder.recordCount) := by
    simp only [RawDataPacketBuilder.finalize]
    exact writeLLDTHeader_eq (by omega) _ _
  have size := length_headerImage builder.dataSeq builder.recordCount
  refine ⟨⟨?_, ?_, ?_⟩, ?_, ?_⟩
  · simp only [RawDataPacketBuilder.finalize]
    exact carries.writePos
  · simp only [RawDataPacketBuilder.finalize]
    exact carries.recordCount
  · rw [header, slice_overwrite_after (Nat.zero_le _) (by omega), carries.copied]
  · rw [header, ← size, slice_overwrite_self (Nat.zero_le _)]
  · rw [header, length_overwrite (by omega), length]

/-- A packet of one frame is built exactly when the frame fits. -/
theorem RawDataPacketBuilder.buildCanonical_spec {output : List UInt8} {capacity : UInt64}
    (dataSeq : UInt64) (offered : OfferedFrame profile)
    (room : capacity.toNat ≤ output.length) :
    (capacity.toNat < dataHeaderSize.toNat + offered.frame.bytes.length →
      buildCanonical output capacity dataSeq offered.source offered.view =
        (.outputTooSmall, none)) ∧
    (dataHeaderSize.toNat + offered.frame.bytes.length ≤ capacity.toNat →
      ∃ view, buildCanonical output capacity dataSeq offered.source offered.view =
          (.ok, some view) ∧
        view.dataSeq = dataSeq ∧ view.Encodes [offered.frame]) := by
  have length := offered.frame.length_le
  have needed : (dataHeaderSize.toUInt64 + offered.view.frameSize.toUInt64).toNat =
      dataHeaderSize.toNat + offered.frame.bytes.length := by
    have header : dataHeaderSize.toUInt64.toNat = dataHeaderSize.toNat := rfl
    have size : offered.view.frameSize.toUInt64.toNat = offered.frame.bytes.length := by
      rw [UInt32.toNat_toUInt64, offered.size]
    have outer := toNat_dataHeaderSize
    rw [toNat_add_of_lt (by omega), header, size]
  constructor
  · intro large
    rw [buildCanonical, if_pos (by rwa [UInt64.lt_iff_toNat_lt, needed])]
  · intro fits
    refine ⟨_, ?_, rfl, (carries_new dataSeq offered room fits).finalize.1⟩
    rw [buildCanonical, if_neg (by rwa [UInt64.lt_iff_toNat_lt, needed, Nat.not_lt])]

end Lldt.Transport
