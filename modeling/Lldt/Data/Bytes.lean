import Mathlib.Data.Nat.Digits.Defs
import Mathlib.Data.List.Basic

namespace Lldt.Data.Bytes

/-! Flat memory areas: cells are read by slices and changed by overwriting a run
of consecutive cells. -/

section Area

variable {α : Type*}

def slice (area : List α) (off len : Nat) : List α :=
  (area.drop off).take len

def overwrite (area : List α) (off : Nat) (cells : List α) : List α :=
  area.take off ++ cells ++ area.drop (off + cells.length)

@[simp] theorem length_slice (area : List α) (off len : Nat) :
    (slice area off len).length = min len (area.length - off) := by
  simp [slice]

theorem length_slice_of_le {area : List α} {off len : Nat}
    (bound : off + len ≤ area.length) : (slice area off len).length = len := by
  rw [length_slice]
  omega

theorem getElem?_slice (area : List α) (off len i : Nat) :
    (slice area off len)[i]? = if i < len then area[off + i]? else none := by
  simp [slice, List.getElem?_take, List.getElem?_drop]

@[simp] theorem slice_zero (area : List α) (off : Nat) : slice area off 0 = [] := by
  simp [slice]

theorem slice_all (area : List α) : slice area 0 area.length = area := by
  simp [slice]

theorem slice_drop (area : List α) (base off len : Nat) :
    slice (area.drop base) off len = slice area (base + off) len := by
  simp [slice, List.drop_drop]

theorem slice_take {area : List α} {keep off len : Nat} (bound : off + len ≤ keep) :
    slice (area.take keep) off len = slice area off len := by
  apply List.ext_getElem?
  intro i
  simp only [getElem?_slice, List.getElem?_take]
  by_cases inside : i < len
  · rw [if_pos inside, if_pos inside, if_pos (by omega)]
  · rw [if_neg inside, if_neg inside]

theorem slice_slice {area : List α} {base len off width : Nat}
    (inside : off + width ≤ len) :
    slice (slice area base len) off width = slice (area.drop base) off width := by
  rw [show slice area base len = (area.drop base).take len from rfl, slice_take inside]

@[simp] theorem slice_slice_self (area : List α) (base len : Nat) :
    slice (slice area base len) 0 len = slice area base len := by
  rw [slice_slice (by omega), slice_drop, Nat.add_zero]

theorem slice_slice_of_le {area : List α} {base len off width : Nat}
    (inside : off + width ≤ len) :
    slice (slice area base len) off width = slice area (base + off) width := by
  rw [slice_slice inside, slice_drop]

theorem slice_add (area : List α) (off first second : Nat) :
    slice area off (first + second) =
      slice area off first ++ slice area (off + first) second := by
  simp [slice, List.take_add, List.drop_drop]

theorem slice_append_append (front cells back : List α) :
    slice (front ++ (cells ++ back)) front.length cells.length = cells := by
  rw [slice, List.drop_left, List.take_left]

theorem length_overwrite {area cells : List α} {off : Nat}
    (bound : off + cells.length ≤ area.length) :
    (overwrite area off cells).length = area.length := by
  simp only [overwrite, List.length_append, List.length_take, List.length_drop]
  omega

theorem length_le_length_overwrite (area : List α) (off : Nat) (cells : List α) :
    area.length ≤ (overwrite area off cells).length := by
  simp only [overwrite, List.length_append, List.length_take, List.length_drop]
  omega

theorem add_length_le_length_overwrite {area : List α} {off : Nat} (bound : off ≤ area.length)
    (cells : List α) : off + cells.length ≤ (overwrite area off cells).length := by
  simp only [overwrite, List.length_append, List.length_take, List.length_drop]
  omega

theorem getElem?_overwrite {area cells : List α} {off : Nat}
    (bound : off ≤ area.length) (i : Nat) :
    (overwrite area off cells)[i]? =
      if i < off then area[i]?
      else if i < off + cells.length then cells[i - off]?
      else area[i]? := by
  have takeLength : (area.take off).length = off := by
    rw [List.length_take]
    omega
  simp only [overwrite, List.append_assoc]
  by_cases before : i < off
  · rw [if_pos before, List.getElem?_append_left (by omega), List.getElem?_take,
      if_pos before]
  · rw [if_neg before, List.getElem?_append_right (by omega), takeLength]
    by_cases inside : i < off + cells.length
    · rw [if_pos inside, List.getElem?_append_left (by omega)]
    · rw [if_neg inside, List.getElem?_append_right (by omega), List.getElem?_drop]
      congr 1
      omega

theorem slice_overwrite_self {area cells : List α} {off : Nat}
    (bound : off ≤ area.length) :
    slice (overwrite area off cells) off cells.length = cells := by
  have takeLength : (area.take off).length = off := by
    rw [List.length_take]
    omega
  simp only [slice, overwrite, List.append_assoc]
  rw [List.drop_append_of_le_length (by omega), List.drop_eq_nil_of_le (by omega),
    List.nil_append, List.take_left]

theorem slice_overwrite_before {area cells : List α} {off start len : Nat}
    (bound : off ≤ area.length) (before : start + len ≤ off) :
    slice (overwrite area off cells) start len = slice area start len := by
  apply List.ext_getElem?
  intro i
  simp only [getElem?_slice]
  by_cases inside : i < len
  · rw [if_pos inside, if_pos inside, getElem?_overwrite bound, if_pos (by omega)]
  · rw [if_neg inside, if_neg inside]

theorem slice_overwrite_after {area cells : List α} {off start len : Nat}
    (bound : off ≤ area.length) (after : off + cells.length ≤ start) :
    slice (overwrite area off cells) start len = slice area start len := by
  apply List.ext_getElem?
  intro i
  simp only [getElem?_slice]
  by_cases inside : i < len
  · rw [if_pos inside, if_pos inside, getElem?_overwrite bound,
      if_neg (by omega), if_neg (by omega)]
  · rw [if_neg inside, if_neg inside]

theorem slice_overwrite_extend {area cells : List α} {off len : Nat}
    (bound : off + len ≤ area.length) :
    slice (overwrite area (off + len) cells) off (len + cells.length) =
      slice area off len ++ cells := by
  rw [slice_add, slice_overwrite_before bound (Nat.le_refl _), slice_overwrite_self bound]

theorem drop_overwrite {area cells : List α} {off base : Nat}
    (bound : off ≤ area.length) (behind : off + cells.length ≤ base) :
    (overwrite area off cells).drop base = area.drop base := by
  apply List.ext_getElem?
  intro i
  rw [List.getElem?_drop, List.getElem?_drop, getElem?_overwrite bound,
    if_neg (by omega), if_neg (by omega)]

theorem drop_overwrite_self {area cells : List α} {off : Nat} (bound : off ≤ area.length) :
    (overwrite area off cells).drop off = cells ++ area.drop (off + cells.length) := by
  rw [overwrite, List.append_assoc, List.drop_append_of_le_length (by simpa using bound),
    List.drop_eq_nil_of_le (by simp), List.nil_append]

theorem overwrite_overwrite_adjacent {area first second : List α} {off : Nat}
    (bound : off + first.length ≤ area.length) :
    overwrite (overwrite area off first) (off + first.length) second =
      overwrite area off (first ++ second) := by
  apply List.ext_getElem?
  intro i
  rw [getElem?_overwrite (by rw [length_overwrite bound]; omega),
    getElem?_overwrite (by omega), getElem?_overwrite (by omega),
    List.length_append]
  by_cases before : i < off
  · rw [if_pos (by omega), if_pos before, if_pos before]
  · rw [if_neg before, if_neg before]
    by_cases inFirst : i < off + first.length
    · rw [if_pos inFirst, if_pos inFirst, if_pos (by omega),
        List.getElem?_append_left (by omega)]
    · rw [if_neg inFirst, if_neg inFirst]
      by_cases inSecond : i < off + first.length + second.length
      · rw [if_pos inSecond, if_pos (by omega), List.getElem?_append_right (by omega)]
        congr 1
        omega
      · rw [if_neg inSecond, if_neg (by omega)]

theorem foldl_set_eq_overwrite {area : List α} {off count : Nat} (cell : Nat → α)
    (bound : off + count ≤ area.length) :
    (List.range count).foldl (fun acc i => acc.set (off + i) (cell i)) area =
      overwrite area off ((List.range count).map cell) := by
  induction count with
  | zero => simp [overwrite]
  | succ count ih =>
      have stored : off + ((List.range count).map cell).length ≤ area.length := by
        simp only [List.length_map, List.length_range]
        omega
      rw [List.range_succ, List.foldl_append, ih (by omega), List.map_append]
      apply List.ext_getElem?
      intro i
      simp only [List.foldl_cons, List.foldl_nil, List.map_cons, List.map_nil,
        List.getElem?_set, length_overwrite stored]
      rw [getElem?_overwrite (by omega), getElem?_overwrite (by omega)]
      simp only [List.length_append, List.length_map, List.length_range,
        List.length_cons, List.length_nil, List.getElem?_append, List.getElem?_map]
      by_cases here : off + count = i
      · subst here
        simp
        omega
      · grind

end Area

/-! Unsigned numbers as byte runs. -/

def ofLittleEndian (bytes : List UInt8) : Nat :=
  Nat.ofDigits 256 (bytes.map UInt8.toNat)

def ofBigEndian (bytes : List UInt8) : Nat :=
  ofLittleEndian bytes.reverse

/-- The `size` low bytes of a number, most significant first, by shift and mask. -/
def toBigEndian (size value : Nat) : List UInt8 :=
  (List.range size).map fun i =>
    UInt8.ofNat ((value >>> (8 * (size - i - 1))) &&& 0xFF)

@[simp] theorem length_toBigEndian (size value : Nat) :
    (toBigEndian size value).length = size := by
  simp [toBigEndian]

theorem toBigEndian_succ (size value : Nat) :
    toBigEndian (size + 1) value =
      UInt8.ofNat ((value >>> (8 * size)) &&& 0xFF) :: toBigEndian size value := by
  simp only [toBigEndian, List.range_succ_eq_map, List.map_cons, List.map_map]
  congr 1
  apply List.map_congr_left
  intro i member
  simp only [Function.comp_apply]
  congr 4
  omega

theorem ofBigEndian_cons (byte : UInt8) (bytes : List UInt8) :
    ofBigEndian (byte :: bytes) =
      byte.toNat * 256 ^ bytes.length + ofBigEndian bytes := by
  simp only [ofBigEndian, ofLittleEndian, List.reverse_cons, List.map_append,
    List.map_cons, List.map_nil, Nat.ofDigits_append, Nat.ofDigits_singleton,
    List.length_map, List.length_reverse]
  rw [Nat.add_comm, Nat.mul_comm]

theorem ofBigEndian_toBigEndian (size value : Nat) :
    ofBigEndian (toBigEndian size value) = value % 256 ^ size := by
  induction size with
  | zero => simp [toBigEndian, ofBigEndian, ofLittleEndian, Nat.mod_one]
  | succ size ih =>
      have width : (2 : Nat) ^ (8 * size) = 256 ^ size := by
        rw [pow_mul]
        norm_num
      have low : (value >>> (8 * size)) &&& 0xFF = value / 256 ^ size % 256 := by
        rw [Nat.shiftRight_eq_div_pow, width]
        exact Nat.and_two_pow_sub_one_eq_mod _ 8
      have digit : (UInt8.ofNat (value / 256 ^ size % 256)).toNat =
          value / 256 ^ size % 256 := by
        rw [UInt8.toNat_ofNat']
        omega
      rw [toBigEndian_succ, ofBigEndian_cons, ih, low, digit, length_toBigEndian,
        pow_succ, Nat.mod_mul]
      rw [Nat.add_comm, Nat.mul_comm]

theorem ofBigEndian_lt (bytes : List UInt8) : ofBigEndian bytes < 256 ^ bytes.length := by
  have digits : ∀ digit ∈ bytes.reverse.map UInt8.toNat, digit < 256 := by
    intro digit member
    obtain ⟨byte, -, rfl⟩ := List.mem_map.mp member
    exact byte.toNat_lt
  simpa [ofBigEndian, ofLittleEndian] using
    Nat.ofDigits_lt_base_pow_length (by decide) digits

theorem ofBigEndian_inj {first second : List UInt8} (length : first.length = second.length)
    (same : ofBigEndian first = ofBigEndian second) : first = second := by
  have digits (bytes : List UInt8) : ∀ digit ∈ bytes.reverse.map UInt8.toNat, digit < 256 := by
    intro digit member
    obtain ⟨byte, -, rfl⟩ := List.mem_map.mp member
    exact byte.toNat_lt
  have equal := Nat.ofDigits_inj_of_len_eq (by decide) (by simpa using length)
    (digits first) (digits second) same
  exact List.reverse_injective
    (List.map_injective_iff.mpr (fun _ _ => UInt8.toNat_inj.mp) equal)

theorem toBigEndian_ofBigEndian (bytes : List UInt8) :
    toBigEndian bytes.length (ofBigEndian bytes) = bytes := by
  apply ofBigEndian_inj (length_toBigEndian _ _)
  rw [ofBigEndian_toBigEndian, Nat.mod_eq_of_lt (ofBigEndian_lt bytes)]

def toLittleEndian (size value : Nat) : List UInt8 :=
  (toBigEndian size value).reverse

@[simp] theorem length_toLittleEndian (size value : Nat) :
    (toLittleEndian size value).length = size := by
  simp [toLittleEndian]

theorem ofLittleEndian_lt (bytes : List UInt8) :
    ofLittleEndian bytes < 256 ^ bytes.length := by
  simpa [ofBigEndian] using ofBigEndian_lt bytes.reverse

theorem ofLittleEndian_toLittleEndian (size value : Nat) :
    ofLittleEndian (toLittleEndian size value) = value % 256 ^ size := by
  have image := ofBigEndian_toBigEndian size value
  rwa [ofBigEndian] at image

theorem toLittleEndian_ofLittleEndian (bytes : List UInt8) :
    toLittleEndian bytes.length (ofLittleEndian bytes) = bytes := by
  have image := toBigEndian_ofBigEndian bytes.reverse
  rw [List.length_reverse, ofBigEndian, List.reverse_reverse] at image
  rw [toLittleEndian, image, List.reverse_reverse]

/-- Counting on does not wrap below the width of the counter. -/
theorem toNat_succ {count : UInt64} (room : count.toNat + 1 < 2 ^ 64) :
    (count + 1).toNat = count.toNat + 1 := by
  rw [UInt64.toNat_add, UInt64.toNat_one]
  exact Nat.mod_eq_of_lt room

theorem toNat_add_of_lt {first second : UInt64} (room : first.toNat + second.toNat < 2 ^ 64) :
    (first + second).toNat = first.toNat + second.toNat := by
  rw [UInt64.toNat_add]
  exact Nat.mod_eq_of_lt room

/-- How many numbers lie between two numbers. -/
theorem toNat_between {first second : UInt64} (less : first < second) :
    (second - first - 1).toNat = second.toNat - first.toNat - 1 := by
  have apart := UInt64.lt_iff_toNat_lt.mp less
  have dist := UInt64.toNat_sub_of_le _ _ (UInt64.le_of_lt less)
  rw [UInt64.toNat_sub_of_le, dist]
  · rfl
  · rw [UInt64.le_iff_toNat_le, dist]
    exact Nat.le_sub_of_add_le' apart

end Lldt.Data.Bytes
