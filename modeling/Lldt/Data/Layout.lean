import Lldt.Data.Bytes
import Mathlib.Data.List.FinRange
import Mathlib.Logic.Equiv.Defs

namespace Lldt.Data

open Lldt.Data.Bytes

/-! Records in memory: how the values of a type lie in a run of bytes of one size,
and how the layouts of its fields make up the layout of a record. -/

/-- A layout loses nothing either way: every value has an image, and every run of
bytes of the right size is the image of a value. -/
structure Layout (α : Type*) where
  size : Nat
  align : Nat
  store : α → List UInt8
  load : List UInt8 → α
  length_store : ∀ value, (store value).length = size
  load_store : ∀ value, load (store value) = value
  store_load : ∀ image, image.length = size → store (load image) = image

variable {α β : Type*}

/-! Runs of pieces of one size. -/

theorem slice_flatMap {image : α → List UInt8} {size : Nat}
    (length : ∀ item, (image item).length = size) {items : List α} {i : Nat}
    (inside : i < items.length) :
    slice (items.flatMap image) (i * size) size = image items[i] := by
  induction items generalizing i with
  | nil => contradiction
  | cons item rest ih =>
      rw [List.flatMap_cons]
      cases i with
      | zero =>
          rw [Nat.zero_mul, slice, List.drop_zero, ← length item, List.take_left]
          rfl
      | succ i =>
          rw [slice, Nat.succ_mul, Nat.add_comm, List.drop_append, length item,
            List.drop_eq_nil_of_le (by rw [length item]; exact Nat.le_add_right _ _),
            List.nil_append, Nat.add_sub_cancel_left]
          exact ih (Nat.lt_of_succ_lt_succ inside)

theorem flatMap_slice (image : List UInt8) (size count : Nat) :
    (List.range count).flatMap (fun i => slice image (i * size) size) =
      slice image 0 (count * size) := by
  induction count with
  | zero => simp
  | succ count ih =>
      rw [List.range_succ, List.flatMap_append, ih, List.flatMap_singleton, Nat.succ_mul,
        slice_add, Nat.zero_add]

namespace Layout

attribute [simp] length_store load_store

/-- A type that stands for the numbers below a power of 256, least byte first. -/
def word (size : Nat) (toNat : α → Nat) (ofNat : Nat → α)
    (ofNat_toNat : ∀ value, ofNat (toNat value) = value)
    (toNat_lt : ∀ value, toNat value < 256 ^ size)
    (toNat_ofNat : ∀ number < 256 ^ size, toNat (ofNat number) = number) : Layout α where
  size := size
  align := size
  store value := toLittleEndian size (toNat value)
  load image := ofNat (ofLittleEndian image)
  length_store value := length_toLittleEndian size (toNat value)
  load_store value := by
    rw [ofLittleEndian_toLittleEndian, Nat.mod_eq_of_lt (toNat_lt value), ofNat_toNat]
  store_load image length := by
    have small := ofLittleEndian_lt image
    rw [length] at small
    rw [toNat_ofNat _ small, ← length, toLittleEndian_ofLittleEndian]

theorem slice_store_left (layout : Layout α) (value : α) (rest : List UInt8) :
    slice (layout.store value ++ rest) 0 layout.size = layout.store value := by
  rw [← layout.length_store value, slice, List.drop_zero, List.take_left]

theorem slice_store_right (first : Layout α) (second : Layout β) (value : α × β) :
    slice (first.store value.1 ++ second.store value.2) first.size second.size =
      second.store value.2 := by
  rw [← first.length_store value.1, ← second.length_store value.2, slice, List.drop_left,
    List.take_length]

theorem store_load_pair (first : Layout α) (second : Layout β) {image : List UInt8}
    (length : image.length = first.size + second.size) :
    first.store (first.load (slice image 0 first.size)) ++
      second.store (second.load (slice image first.size second.size)) = image := by
  have inside : 0 + first.size ≤ image.length := by
    rw [length, Nat.zero_add]
    exact Nat.le_add_right _ _
  have whole := slice_add image 0 first.size second.size
  rw [Nat.zero_add, ← length, slice_all] at whole
  rw [first.store_load _ (length_slice_of_le inside),
    second.store_load _ (length_slice_of_le (Nat.le_of_eq length.symm))]
  exact whole.symm

/-- The two fields of a record that follow each other without padding. -/
def pair (first : Layout α) (second : Layout β) (_aligned : second.align ∣ first.size) :
    Layout (α × β) where
  size := first.size + second.size
  align := Nat.max first.align second.align
  store value := first.store value.1 ++ second.store value.2
  load image := (first.load (slice image 0 first.size),
    second.load (slice image first.size second.size))
  length_store value := by
    rw [List.length_append, first.length_store, second.length_store]
  load_store value := by
    rw [slice_store_left, slice_store_right, first.load_store, second.load_store]
  store_load _ length := store_load_pair first second length

/-- The elements of an array follow each other, each as long as it is aligned. -/
def array (element : Layout α) (count : Nat) (_whole : element.align ∣ element.size) :
    Layout (Vector α count) where
  size := count * element.size
  align := element.align
  store values := values.toList.flatMap element.store
  load image := Vector.ofFn fun i =>
    element.load (slice image (i.val * element.size) element.size)
  length_store values := by
    simp [List.length_flatMap]
  load_store values := by
    apply Vector.ext
    intro i inside
    rw [Vector.getElem_ofFn, slice_flatMap element.length_store (by simpa using inside),
      element.load_store]
    rfl
  store_load image length := by
    have pieces (i : Fin count) :
        element.store (element.load (slice image (i.val * element.size) element.size)) =
          slice image (i.val * element.size) element.size := by
      apply element.store_load
      apply length_slice_of_le
      rw [length, ← Nat.succ_mul]
      exact Nat.mul_le_mul_right _ i.isLt
    rw [Vector.toList_ofFn, List.ofFn_eq_map, List.flatMap_map]
    simp only [pieces]
    rw [← List.flatMap_map Fin.val fun i => slice image (i * element.size) element.size,
      List.map_coe_finRange_eq_range, flatMap_slice, ← length, slice_all]

def congr (layout : Layout α) (equiv : α ≃ β) : Layout β where
  size := layout.size
  align := layout.align
  store value := layout.store (equiv.symm value)
  load image := equiv (layout.load image)
  length_store value := layout.length_store _
  load_store value := by rw [layout.load_store, equiv.apply_symm_apply]
  store_load image length := by rw [equiv.symm_apply_apply, layout.store_load image length]

/-- The record begins with the part that `get` takes out of it. -/
structure Leads (part : Layout β) (whole : Layout α) (get : α → β) : Prop where
  size_le : part.size ≤ whole.size
  load_eq : ∀ image, get (whole.load image) = part.load (slice image 0 part.size)

section Leads

variable {γ : Type*} {part : Layout β} {first : Layout α} {get : α → β}

theorem leads_fst {second : Layout γ} (aligned : second.align ∣ first.size) :
    Leads first (first.pair second aligned) Prod.fst where
  size_le := Nat.le_add_right _ _
  load_eq _ := rfl

theorem Leads.pair {second : Layout γ} (leads : Leads part first get)
    (aligned : second.align ∣ first.size) :
    Leads part (first.pair second aligned) fun value => get value.1 where
  size_le := leads.size_le.trans (Nat.le_add_right _ _)
  load_eq image := by
    change get (first.load (slice image 0 first.size)) = _
    rw [leads.load_eq, slice_slice_of_le (by rw [Nat.zero_add]; exact leads.size_le)]

theorem Leads.congr (leads : Leads part first get) (equiv : α ≃ γ) :
    Leads part (first.congr equiv) fun value => get (equiv.symm value) where
  size_le := leads.size_le
  load_eq image := by
    change get (equiv.symm (equiv (first.load image))) = _
    rw [equiv.symm_apply_apply, leads.load_eq]

theorem Leads.load_slice (leads : Leads part first get) (value : α) :
    part.load (slice (first.store value) 0 part.size) = get value := by
  rw [← leads.load_eq, first.load_store]

end Leads

def uint8 : Layout UInt8 :=
  .word 1 UInt8.toNat UInt8.ofNat (fun _ => UInt8.ofNat_toNat) UInt8.toNat_lt
    fun _ small => UInt8.toNat_ofNat_of_lt' small

def uint16 : Layout UInt16 :=
  .word 2 UInt16.toNat UInt16.ofNat (fun _ => UInt16.ofNat_toNat) UInt16.toNat_lt
    fun _ small => UInt16.toNat_ofNat_of_lt' small

def uint32 : Layout UInt32 :=
  .word 4 UInt32.toNat UInt32.ofNat (fun _ => UInt32.ofNat_toNat) UInt32.toNat_lt
    fun _ small => UInt32.toNat_ofNat_of_lt' small

def uint64 : Layout UInt64 :=
  .word 8 UInt64.toNat UInt64.ofNat (fun _ => UInt64.ofNat_toNat) UInt64.toNat_lt
    fun _ small => UInt64.toNat_ofNat_of_lt' small

/-- Signed numbers in two's complement. -/
def int32 : Layout Int32 :=
  uint32.congr {
    toFun := UInt32.toInt32
    invFun := Int32.toUInt32
    left_inv := fun _ => rfl
    right_inv := fun _ => rfl }

end Layout

end Lldt.Data
