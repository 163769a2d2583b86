import Mathlib.Algebra.Ring.Nat
import Mathlib.Data.List.Induction

namespace Lldt.Data.Digits

/-! Numerals in a base, over any symbols of which some are digits. -/

variable {α : Type*}

/-- `Numeral digit base text number`: the text is one or more digits, and in the
base they denote the number. -/
inductive Numeral (digit : α → Option Nat) (base : Nat) : List α → Nat → Prop
  | single {symbol : α} {value : Nat} (is : digit symbol = some value) :
      Numeral digit base [symbol] value
  | snoc {text : List α} {number value : Nat} {symbol : α}
      (front : Numeral digit base text number) (last : digit symbol = some value) :
      Numeral digit base (text ++ [symbol]) (number * base + value)

/-- What the digits of a text denote, read from the front. -/
def valueOf (digit : α → Option Nat) (base : Nat) (text : List α) : Nat :=
  text.foldl (fun number symbol => number * base + (digit symbol).getD 0) 0

variable {digit : α → Option Nat} {base number : Nat} {text : List α}

theorem valueOf_append_singleton (symbol : α) :
    valueOf digit base (text ++ [symbol]) =
      valueOf digit base text * base + (digit symbol).getD 0 := by
  rw [valueOf, List.foldl_append]
  rfl

theorem Numeral.ne_nil (numeral : Numeral digit base text number) : text ≠ [] := by
  cases numeral with
  | single _ => exact List.cons_ne_nil _ _
  | snoc _ _ => exact List.append_ne_nil_of_right_ne_nil _ (List.cons_ne_nil _ _)

theorem Numeral.digits (numeral : Numeral digit base text number) :
    ∀ symbol ∈ text, (digit symbol).isSome = true := by
  induction numeral with
  | single is =>
      intro symbol member
      rw [List.mem_singleton.mp member, is]
      rfl
  | snoc _ last ih =>
      intro symbol member
      rcases List.mem_append.mp member with earlier | new
      · exact ih symbol earlier
      · rw [List.mem_singleton.mp new, last]
        rfl

theorem Numeral.valueOf_eq (numeral : Numeral digit base text number) :
    valueOf digit base text = number := by
  induction numeral with
  | single is => simp [valueOf, is]
  | snoc _ last ih => rw [valueOf_append_singleton, ih, last, Option.getD_some]

theorem numeral_valueOf (some : text ≠ []) (digits : ∀ symbol ∈ text, (digit symbol).isSome) :
    Numeral digit base text (valueOf digit base text) := by
  induction text using List.reverseRecOn with
  | nil => contradiction
  | append_singleton text symbol ih =>
      obtain ⟨value, last⟩ := Option.isSome_iff_exists.mp
        (digits symbol (List.mem_append_right _ (List.mem_singleton.mpr rfl)))
      rw [valueOf_append_singleton, last, Option.getD_some]
      by_cases alone : text = []
      · subst alone
        simpa [valueOf] using Numeral.single last
      · exact (ih alone fun other member => digits other (List.mem_append_left _ member)).snoc last

theorem numeral_iff :
    Numeral digit base text number ↔
      text ≠ [] ∧ (∀ symbol ∈ text, (digit symbol).isSome) ∧
        valueOf digit base text = number := by
  constructor
  · intro numeral
    exact ⟨numeral.ne_nil, numeral.digits, numeral.valueOf_eq⟩
  · rintro ⟨some, digits, rfl⟩
    exact numeral_valueOf some digits

/-- The digits of a number that has at most so many of them. -/
def print (symbol : Nat → α) (base : Nat) : Nat → Nat → List α
  | 0, _ => []
  | width + 1, number =>
      if number < base then [symbol number]
      else print symbol base width (number / base) ++ [symbol (number % base)]

theorem numeral_print {symbol : Nat → α} (positive : 0 < base)
    (writes : ∀ value < base, digit (symbol value) = some value) {width : Nat}
    (fits : number < base ^ (width + 1)) :
    Numeral digit base (print symbol base (width + 1) number) number := by
  induction width generalizing number with
  | zero =>
      rw [Nat.pow_one] at fits
      rw [print, if_pos fits]
      exact .single (writes number fits)
  | succ width ih =>
      rw [print]
      split
      · rename_i small
        exact .single (writes number small)
      · have front := ih ((Nat.div_lt_iff_lt_mul positive).mpr (by rwa [← Nat.pow_succ]))
        have last := writes (number % base) (Nat.mod_lt _ positive)
        have whole := front.snoc last
        rwa [Nat.div_add_mod'] at whole

/-- A field ends where the separator first stands. -/
theorem field_inj {separator : α} {first second rest more : List α}
    (freeFirst : separator ∉ first) (freeSecond : separator ∉ second)
    (same : first ++ separator :: rest = second ++ separator :: more) :
    first = second ∧ rest = more := by
  induction first generalizing second with
  | nil =>
      cases second with
      | nil => exact ⟨rfl, List.tail_eq_of_cons_eq same⟩
      | cons symbol tail =>
          cases List.head_eq_of_cons_eq same
          exact absurd List.mem_cons_self freeSecond
  | cons symbol tail ih =>
      cases second with
      | nil =>
          cases List.head_eq_of_cons_eq same
          exact absurd List.mem_cons_self freeFirst
      | cons other others =>
          rw [List.mem_cons, not_or] at freeFirst freeSecond
          obtain ⟨rfl, following⟩ := List.cons.inj same
          obtain ⟨rfl, rest⟩ := ih freeFirst.2 freeSecond.2 following
          exact ⟨rfl, rest⟩

/-- Where the code of an item can be told from what follows it, the items can be told
from their codes in a row. -/
theorem flatMap_injective {β : Type*} {code : α → List β} (some : ∀ item, code item ≠ [])
    (readable : ∀ first second rest more, code first ++ rest = code second ++ more →
      first = second ∧ rest = more) : Function.Injective (List.flatMap code) := by
  intro left
  induction left with
  | nil =>
      intro right same
      cases right with
      | nil => rfl
      | cons item rest =>
          rw [List.flatMap_nil, List.flatMap_cons] at same
          exact absurd (List.append_eq_nil_iff.mp same.symm).1 (some item)
  | cons item rest ih =>
      intro right same
      cases right with
      | nil =>
          rw [List.flatMap_nil, List.flatMap_cons] at same
          exact absurd (List.append_eq_nil_iff.mp same).1 (some item)
      | cons other more =>
          rw [List.flatMap_cons, List.flatMap_cons] at same
          obtain ⟨rfl, following⟩ := readable _ _ _ _ same
          rw [ih following]

end Lldt.Data.Digits
