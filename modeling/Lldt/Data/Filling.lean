import Lldt.Data.Transition
import Mathlib.Data.List.Induction

namespace Lldt.Data.Filling

open Lldt.Data.Transition

/-! Records that are filled from a list of entries, one field for each key.  A field
is filled once, unless its key may be repeated. -/

variable {σ α κ : Type*} [DecidableEq κ]

/-- `put` fills the field of an entry's key, of which `held` tells the contents, and
refuses an entry whose field is taken. -/
structure Fills (key : α → κ) (repeats : κ → Prop) (held : σ → κ → Option α)
    (put : σ → α → Option σ) : Prop where
  accepts : ∀ state entry,
    (∃ next, put state entry = some next) ↔
      repeats (key entry) ∨ held state (key entry) = none
  stores : ∀ {state entry next}, put state entry = some next →
    held next (key entry) = some entry
  keeps : ∀ {state entry next other}, put state entry = some next → other ≠ key entry →
    held next other = held state other

/-- The entries for one key. -/
def entriesFor (key : α → κ) (field : κ) (entries : List α) : List α :=
  entries.filter fun entry => key entry = field

variable {key : α → κ} {repeats : κ → Prop} {held : σ → κ → Option α}
  {put : σ → α → Option σ} {start final : σ} {entries : List α}

theorem entriesFor_append_self (entry : α) :
    entriesFor key (key entry) (entries ++ [entry]) =
      entriesFor key (key entry) entries ++ [entry] := by
  simp [entriesFor]

theorem entriesFor_append_of_ne {field : κ} {entry : α} (other : field ≠ key entry) :
    entriesFor key field (entries ++ [entry]) = entriesFor key field entries := by
  simp [entriesFor, other.symm]

/-- A filled field holds the last entry for its key. -/
theorem Fills.held_eq (fills : Fills key repeats held put)
    (empty : ∀ field, held start field = none)
    (filled : entries.foldlM put start = some final) (field : κ) :
    held final field = (entriesFor key field entries).getLast? := by
  have run := Run.of_foldlM filled
  clear filled
  induction run with
  | nil => exact empty field
  | @snoc middle final entries entry _ last ih =>
      by_cases same : field = key entry
      · subst same
        rw [entriesFor_append_self, List.getLast?_concat]
        exact fills.stores last
      · rw [entriesFor_append_of_ne same, fills.keeps last same]
        exact ih

theorem Fills.length_le_one (fills : Fills key repeats held put)
    (empty : ∀ field, held start field = none)
    (filled : entries.foldlM put start = some final) {field : κ} (once : ¬repeats field) :
    (entriesFor key field entries).length ≤ 1 := by
  have run := Run.of_foldlM filled
  clear filled
  induction run with
  | nil => exact Nat.zero_le 1
  | @snoc middle final entries entry run last ih =>
      by_cases same : field = key entry
      · subst same
        have free : held middle (key entry) = none :=
          ((fills.accepts middle entry).mp ⟨final, last⟩).resolve_left once
        rw [fills.held_eq empty run.foldlM, List.getLast?_eq_none_iff] at free
        rw [entriesFor_append_self, free]
        exact Nat.le_refl 1
      · rw [entriesFor_append_of_ne same]
        exact ih

/-- Entries of which none repeats a key that may not be repeated can be put. -/
theorem Fills.exists_final (fills : Fills key repeats held put)
    (empty : ∀ field, held start field = none)
    (once : ∀ field, ¬repeats field → (entriesFor key field entries).length ≤ 1) :
    ∃ final, entries.foldlM put start = some final := by
  induction entries using List.reverseRecOn with
  | nil => exact ⟨start, rfl⟩
  | append_singleton entries entry ih =>
      have shorter : ∀ field, ¬repeats field → (entriesFor key field entries).length ≤ 1 := by
        intro field single
        have bound := once field single
        rw [entriesFor, List.filter_append, List.length_append] at bound
        exact Nat.le_trans (Nat.le_add_right _ _) bound
      obtain ⟨middle, before⟩ := ih shorter
      have free : repeats (key entry) ∨ held middle (key entry) = none := by
        by_cases many : repeats (key entry)
        · exact .inl many
        · have bound := once (key entry) many
          rw [entriesFor_append_self, List.length_append, List.length_singleton] at bound
          have before_nil : entriesFor key (key entry) entries = [] :=
            List.eq_nil_of_length_eq_zero (Nat.le_zero.mp (Nat.le_of_add_le_add_right bound))
          rw [fills.held_eq empty before, before_nil]
          exact .inr rfl
      obtain ⟨final, last⟩ := (fills.accepts middle entry).mpr free
      have run := Run.of_foldlM before
      exact ⟨final, (run.snoc last).foldlM⟩

end Lldt.Data.Filling
