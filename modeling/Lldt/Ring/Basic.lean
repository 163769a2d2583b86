import Lldt.Message.Frame
import Mathlib.Data.Fin.Basic
import Mathlib.Logic.Function.Basic

namespace Lldt.Shm

open Lldt.Msg

/-! The shared-memory broadcast ring: one producer, any number of readers. -/

def kFrameCap (profile : Profile) : UInt32 := kMaxFrame profile

/-- One slot.  The frame area is addressed by offset; a publisher stores below
`kFrameCap` only. -/
structure Slot where
  seq : UInt64
  frameLen : UInt32
  frame : Nat → UInt8

/-- `Header::slot_count`, a power of two. -/
structure SlotCount where
  value : UInt32
  powerOfTwo : ∃ exponent, value.toNat = 2 ^ exponent

namespace SlotCount

def size (slots : SlotCount) : Nat := slots.value.toNat

theorem size_pos (slots : SlotCount) : 0 < slots.size := by
  obtain ⟨exponent, eq⟩ := slots.powerOfTwo
  rw [size, eq]
  exact Nat.two_pow_pos exponent

def mask (slots : SlotCount) : UInt64 := (slots.value - 1).toUInt64

theorem toNat_mask (slots : SlotCount) : slots.mask.toNat = slots.size - 1 := by
  have positive := slots.size_pos
  rw [mask, UInt32.toNat_toUInt64, UInt32.toNat_sub_of_le]
  · rfl
  · exact UInt32.le_iff_toNat_le.mpr positive

theorem toNat_and_mask (slots : SlotCount) (index : UInt64) :
    (index &&& slots.mask).toNat = index.toNat % slots.size := by
  obtain ⟨exponent, eq⟩ := slots.powerOfTwo
  rw [UInt64.toNat_and, toNat_mask, size, eq]
  exact Nat.and_two_pow_sub_one_eq_mod _ exponent

def slot (slots : SlotCount) (index : UInt64) : Fin slots.size :=
  ⟨(index &&& slots.mask).toNat, by
    rw [toNat_and_mask]
    exact Nat.mod_lt _ slots.size_pos⟩

@[simp] theorem val_slot (slots : SlotCount) (index : UInt64) :
    (slots.slot index).val = index.toNat % slots.size :=
  slots.toNat_and_mask index

end SlotCount

structure Ring (slots : SlotCount) where
  writeIndex : UInt64
  slotAt : Fin slots.size → Slot

inductive FrameStatus where
  | kOk
  | kEmpty
  | kLapped
  deriving DecidableEq, Repr

/-- What one call of `read` leaves with its caller: the status, the value of
`*out_len` or `*resume_at` where the call sets it, and the bytes it copied to
`out`. -/
inductive ReadResult where
  | kOk (outLen : UInt32) (out : List UInt8)
  | kEmpty
  | kLapped (resumeAt : UInt64) (out : List UInt8)
  deriving DecidableEq, Repr

def ReadResult.status : ReadResult → FrameStatus
  | .kOk _ _ => .kOk
  | .kEmpty => .kEmpty
  | .kLapped _ _ => .kLapped

namespace Slot

def storeByte (slot : Slot) (offset : Nat) (byte : UInt8) : Slot :=
  { slot with frame := Function.update slot.frame offset byte }

def copyIn (slot : Slot) (frame : List UInt8) (len : Nat) : Slot :=
  { slot with
    frame := fun offset => if offset < len then frame.getD offset 0 else slot.frame offset }

def copyOut (slot : Slot) (len : Nat) : List UInt8 :=
  (List.range len).map slot.frame

end Slot

namespace Ring

variable {slots : SlotCount}

def modifySlot (ring : Ring slots) (cell : Fin slots.size) (store : Slot → Slot) :
    Ring slots :=
  { ring with slotAt := Function.update ring.slotAt cell (store (ring.slotAt cell)) }

/-- `attach`: with `init` the producer side resets the write index and every
slot sequence of whatever the mapped memory holds; a reader changes nothing. -/
def attach (memory : Ring slots) (init : Bool) : Ring slots :=
  if init then
    { writeIndex := 0
      slotAt := fun cell => { memory.slotAt cell with seq := 0 } }
  else memory

def publish (ring : Ring slots) (frame : List UInt8) (len : UInt32) : Ring slots :=
  let idx := ring.writeIndex
  let cell := slots.slot idx
  let ring := ring.modifySlot cell fun slot => { slot with frameLen := len }
  let ring := ring.modifySlot cell fun slot => slot.copyIn frame len.toNat
  let ring := ring.modifySlot cell fun slot => { slot with seq := idx + 1 }
  { ring with writeIndex := idx + 1 }

def liveEdge (ring : Ring slots) : UInt64 := ring.writeIndex

/-- `edge > slot_count() ? edge - slot_count() : 0`. -/
def resumePoint (slots : SlotCount) (edge : UInt64) : UInt64 :=
  if slots.value.toUInt64 < edge then edge - slots.value.toUInt64 else 0

def read (ring : Ring slots) (readIndex : UInt64) : ReadResult :=
  let slot := ring.slotAt (slots.slot readIndex)
  let seq := slot.seq
  let want := readIndex + 1
  if seq < want then .kEmpty
  else if want < seq then .kLapped (resumePoint slots ring.liveEdge) []
  else
    let len := slot.frameLen
    let out := slot.copyOut len.toNat
    -- the second load of the slot sequence
    if slot.seq ≠ want then .kLapped (resumePoint slots ring.liveEdge) out
    else .kOk len out

@[simp] theorem modifySlot_writeIndex (ring : Ring slots) (cell : Fin slots.size)
    (store : Slot → Slot) : (ring.modifySlot cell store).writeIndex = ring.writeIndex := rfl

@[simp] theorem modifySlot_self (ring : Ring slots) (cell : Fin slots.size)
    (store : Slot → Slot) :
    (ring.modifySlot cell store).slotAt cell = store (ring.slotAt cell) := by
  simp [modifySlot]

theorem modifySlot_of_ne (ring : Ring slots) {cell other : Fin slots.size}
    (store : Slot → Slot) (ne : other ≠ cell) :
    (ring.modifySlot cell store).slotAt other = ring.slotAt other := by
  simp [modifySlot, ne]

@[simp] theorem attach_false (memory : Ring slots) : memory.attach false = memory := rfl

@[simp] theorem publish_writeIndex (ring : Ring slots) (frame : List UInt8) (len : UInt32) :
    (ring.publish frame len).writeIndex = ring.writeIndex + 1 := rfl

theorem publish_slotAt (ring : Ring slots) (frame : List UInt8) (len : UInt32)
    (cell : Fin slots.size) :
    (ring.publish frame len).slotAt cell =
      if cell = slots.slot ring.writeIndex then
        { seq := ring.writeIndex + 1
          frameLen := len
          frame := ((ring.slotAt cell).copyIn frame len.toNat).frame }
      else ring.slotAt cell := by
  by_cases same : cell = slots.slot ring.writeIndex
  · subst same
    simp [publish, Slot.copyIn]
  · simp only [publish, if_neg same]
    rw [modifySlot_of_ne _ _ same, modifySlot_of_ne _ _ same, modifySlot_of_ne _ _ same]

theorem toNat_resumePoint (slots : SlotCount) (edge : UInt64) :
    (resumePoint slots edge).toNat = edge.toNat - slots.size := by
  have width : slots.value.toUInt64.toNat = slots.size := UInt32.toNat_toUInt64 _
  unfold resumePoint
  split
  · rename_i beyond
    rw [UInt64.toNat_sub_of_le _ _ (UInt64.le_of_lt beyond), width]
  · rename_i within
    have within := UInt64.not_lt.mp within
    rw [UInt64.le_iff_toNat_le, width] at within
    simp only [UInt64.toNat_zero]
    omega

end Ring

end Lldt.Shm
