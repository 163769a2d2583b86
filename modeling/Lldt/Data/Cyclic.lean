import Mathlib.Data.Nat.Basic

namespace Lldt.Data.Cyclic

/-! A growing sequence stored cyclically: position `n` goes to cell `n % size`
and leaves its stamp `n + 1` there.  Stamp zero marks a cell never stored to. -/

/-- The stamp in a cell after the first `count` positions have been stored. -/
def stamp (size : Nat) : Nat → Nat → Nat
  | 0, _ => 0
  | count + 1, cell => if count % size = cell then count + 1 else stamp size count cell

variable {size count cell position : Nat}

@[simp] theorem stamp_succ_self : stamp size (count + 1) (count % size) = count + 1 := by
  simp [stamp]

theorem stamp_succ_of_ne (other : count % size ≠ cell) :
    stamp size (count + 1) cell = stamp size count cell := by
  simp [stamp, other]

theorem stamp_le (size count cell : Nat) : stamp size count cell ≤ count := by
  induction count with
  | zero => exact Nat.le_refl 0
  | succ count ih =>
      rw [stamp]
      split <;> omega

theorem stamp_mono {later : Nat} (grows : count ≤ later) :
    stamp size count cell ≤ stamp size later cell := by
  induction grows with
  | refl => exact Nat.le_refl _
  | @step later _ ih =>
      have bound := stamp_le size later cell
      rw [stamp]
      split <;> omega

theorem lt_of_stamp_eq (stamped : stamp size count cell = position + 1) :
    position < count := by
  have bound := stamp_le size count cell
  omega

/-- Three ways a cell can stand to a position that belongs to it: not stored
yet, holding it, or overwritten by a later lap. -/
theorem stamp_cases (positive : 0 < size) (count position : Nat) :
    (count ≤ position ∧ stamp size count (position % size) < position + 1) ∨
    (position < count ∧ count ≤ position + size ∧
      stamp size count (position % size) = position + 1) ∨
    (position + size < count ∧
      position + 1 < stamp size count (position % size)) := by
  induction count with
  | zero => exact .inl ⟨Nat.zero_le _, Nat.succ_pos _⟩
  | succ count ih =>
      rw [stamp]
      by_cases congruent : count % size = position % size
      · rw [if_pos congruent]
        rcases Nat.lt_trichotomy count position with before | same | after
        · exact .inl ⟨before, by omega⟩
        · exact .inr (.inl ⟨by omega, by omega, by omega⟩)
        · -- the next position of the same cell is a whole lap later
          have lap : position + size ≤ count := by
            have dvd : size ∣ count - position :=
              Nat.dvd_of_mod_eq_zero (Nat.sub_mod_eq_zero_of_mod_eq congruent)
            have := Nat.le_of_dvd (by omega) dvd
            omega
          exact .inr (.inr ⟨by omega, by omega⟩)
      · rw [if_neg congruent]
        have notSame : count ≠ position := by
          rintro rfl
          exact congruent rfl
        have notLap : count ≠ position + size := by
          rintro rfl
          exact congruent (Nat.add_mod_right position size)
        rcases ih with ⟨early, low⟩ | ⟨late, recent, held⟩ | ⟨lapped, high⟩
        · exact .inl ⟨by omega, low⟩
        · exact .inr (.inl ⟨by omega, by omega, held⟩)
        · exact .inr (.inr ⟨by omega, high⟩)

theorem stamp_lt_iff (positive : 0 < size) :
    stamp size count (position % size) < position + 1 ↔ count ≤ position := by
  have cases := stamp_cases positive count position
  omega

theorem stamp_eq_iff (positive : 0 < size) :
    stamp size count (position % size) = position + 1 ↔
      position < count ∧ count ≤ position + size := by
  have cases := stamp_cases positive count position
  omega

theorem lt_stamp_iff (positive : 0 < size) :
    position + 1 < stamp size count (position % size) ↔ position + size < count := by
  have cases := stamp_cases positive count position
  omega

/-- Two positions of one cell are at least a lap apart. -/
theorem lap_le {earlier later : Nat} (congruent : later % size = earlier % size)
    (less : earlier < later) : earlier + size ≤ later := by
  have dvd : size ∣ later - earlier :=
    Nat.dvd_of_mod_eq_zero (Nat.sub_mod_eq_zero_of_mod_eq congruent)
  have lap := Nat.le_of_dvd (Nat.sub_pos_of_lt less) dvd
  omega

end Lldt.Data.Cyclic
