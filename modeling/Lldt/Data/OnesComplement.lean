import Mathlib.Algebra.BigOperators.Group.List.Basic
import Mathlib.Algebra.GroupWithZero.Nat
import Mathlib.Data.List.Induction
import Mathlib.Data.Nat.ModEq

namespace Lldt.Data.OnesComplement

/-! One's complement sums.  A word is a number up to `full`, the word of all ones;
a carry out of a word is added back at its low end. -/

/-- A sum of two words, its carry folded in once. -/
def fold (full sum : Nat) : Nat := sum % (full + 1) + sum / (full + 1)

def sum (full : Nat) (words : List Nat) : Nat :=
  words.foldl (fun before word => fold full (before + word)) 0

/-- The word congruent to a number modulo `full`: zero stands for zero only, and
every other multiple of `full` is `full` itself. -/
def residue (full number : Nat) : Nat := if number = 0 then 0 else (number - 1) % full + 1

variable {full : Nat}

@[simp] theorem residue_zero : residue full 0 = 0 := rfl

theorem residue_of_pos {number : Nat} (positive : 0 < number) :
    residue full number = (number - 1) % full + 1 :=
  if_neg (by omega)

theorem residue_le (nonzero : 0 < full) (number : Nat) : residue full number ≤ full := by
  have small := Nat.mod_lt (number - 1) nonzero
  unfold residue
  split <;> omega

theorem residue_of_le {number : Nat} (word : number ≤ full) :
    residue full number = number := by
  rcases Nat.eq_zero_or_pos number with rfl | positive
  · rfl
  · rw [residue_of_pos positive, Nat.mod_eq_of_lt (by omega)]
    omega

theorem residue_add_full {number : Nat} (positive : 0 < number) :
    residue full (number + full) = residue full number := by
  rw [residue_of_pos positive, residue_of_pos (by omega),
    show number + full - 1 = number - 1 + full by omega, Nat.add_mod_right]

/-- One fold is enough for the sum of two words. -/
theorem fold_eq_residue {number : Nat} (words : number ≤ full + full) :
    fold full number = residue full number := by
  by_cases word : number ≤ full
  · rw [residue_of_le word, fold, Nat.mod_eq_of_lt (by omega),
      Nat.div_eq_of_lt (by omega), Nat.add_zero]
  · have carry : number / (full + 1) = 1 := by
      rw [Nat.div_eq_iff (by omega)]
      omega
    have low := Nat.mod_add_div number (full + 1)
    rw [carry, Nat.mul_one] at low
    have above : 0 < number - full := by
      omega
    have reduced := @residue_add_full full _ above
    rw [Nat.sub_add_cancel (by omega),
      residue_of_le (show number - full ≤ full by omega)] at reduced
    rw [reduced, fold, carry]
    omega

theorem residue_add_residue (first second : Nat) :
    residue full (residue full first + second) = residue full (first + second) := by
  rcases Nat.eq_zero_or_pos first with rfl | positive
  · rw [residue_zero]
  · rw [residue_of_pos positive, residue_of_pos (by omega), residue_of_pos (by omega),
      show (first - 1) % full + 1 + second - 1 = (first - 1) % full + second by omega,
      show first + second - 1 = first - 1 + second by omega, Nat.mod_add_mod]

theorem sum_eq_residue {words : List Nat} (nonzero : 0 < full)
    (small : ∀ word ∈ words, word ≤ full) : sum full words = residue full words.sum := by
  induction words using List.reverseRecOn with
  | nil => rfl
  | append_singleton words word ih =>
      have before := ih fun other member => small other (List.mem_append_left _ member)
      have here := small word (by simp)
      have earlier := residue_le nonzero words.sum
      rw [sum, List.foldl_append, List.foldl_cons, List.foldl_nil, ← sum, before,
        fold_eq_residue (by omega), residue_add_residue, List.sum_append,
        List.sum_singleton]

/-- A sum and its complement add up to the word of all ones. -/
theorem residue_add_complement (nonzero : 0 < full) (number : Nat) :
    residue full (number + (full - residue full number)) = full := by
  have word := residue_le nonzero number
  rw [← residue_add_residue, show residue full number + (full - residue full number) =
    full by omega]
  exact residue_of_le (Nat.le_refl _)

/-! In the other byte order a word is multiplied by 256, and so is a sum. -/

def swap (word : Nat) : Nat := word % 256 * 256 + word / 256

theorem residue_eq_zero {number : Nat} : residue full number = 0 ↔ number = 0 := by
  unfold residue
  split <;> simp [*]

theorem residue_modEq (number : Nat) : residue full number ≡ number [MOD full] := by
  rcases Nat.eq_zero_or_pos number with rfl | positive
  · rfl
  · have before := Nat.ModEq.add_right 1 (Nat.mod_modEq (number - 1) full)
    rw [residue_of_pos positive]
    rwa [Nat.sub_add_cancel positive] at before

theorem residue_congr {first second : Nat} (remainder : first ≡ second [MOD full])
    (zero : first = 0 ↔ second = 0) : residue full first = residue full second := by
  rcases Nat.eq_zero_or_pos first with rfl | positive
  · rw [zero.mp rfl]
  · have other : 0 < second := Nat.pos_of_ne_zero (mt zero.mpr (by omega))
    rw [residue_of_pos positive, residue_of_pos other]
    congr 1
    apply Nat.ModEq.add_right_cancel' 1
    rwa [Nat.sub_add_cancel positive, Nat.sub_add_cancel other]

theorem residue_mul_residue (factor number : Nat) :
    residue full (factor * residue full number) = residue full (factor * number) := by
  apply residue_congr ((residue_modEq number).mul_left factor)
  simp only [Nat.mul_eq_zero, residue_eq_zero]

theorem residue_mul_256 {word : Nat} (small : word ≤ 0xFFFF) :
    residue 0xFFFF (256 * word) = swap word := by
  have swapped : 256 * word = swap word + word / 256 * 0xFFFF := by
    unfold swap
    omega
  have bounded : swap word ≤ 0xFFFF := by
    unfold swap
    omega
  rw [← residue_of_le bounded]
  apply residue_congr
  · rw [swapped]
    exact Nat.add_mul_modulus_modEq_iff.mpr rfl
  · unfold swap
    omega

theorem swap_complement {word : Nat} (small : word ≤ 0xFFFF) :
    swap (0xFFFF - word) = 0xFFFF - swap word := by
  unfold swap
  omega

theorem residue_sum_map_swap {words : List Nat} (small : ∀ word ∈ words, word ≤ 0xFFFF) :
    residue 0xFFFF (words.map swap).sum = residue 0xFFFF (256 * words.sum) := by
  induction words with
  | nil => rfl
  | cons word words ih =>
      have later := ih fun other member => small other (List.mem_cons_of_mem _ member)
      have here := residue_mul_256 (small word List.mem_cons_self)
      rw [List.map_cons, List.sum_cons, List.sum_cons, Nat.mul_add, ← here, residue_add_residue,
        Nat.add_comm, ← residue_add_residue, later, residue_add_residue, Nat.add_comm]

theorem sum_map_swap {words : List Nat} (small : ∀ word ∈ words, word ≤ 0xFFFF) :
    sum 0xFFFF (words.map swap) = swap (sum 0xFFFF words) := by
  have swapped : ∀ word ∈ words.map swap, word ≤ 0xFFFF := by
    intro word member
    obtain ⟨before, among, rfl⟩ := List.mem_map.mp member
    have bound := small before among
    unfold swap
    omega
  rw [sum_eq_residue (by decide) swapped, sum_eq_residue (by decide) small,
    residue_sum_map_swap small, ← residue_mul_256 (residue_le (by decide) _),
    residue_mul_residue]

end Lldt.Data.OnesComplement
