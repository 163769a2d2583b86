import Lldt.Data.Selection
import Mathlib.Data.List.Flatten

namespace Lldt.Data.Relay

open Lldt.Data.Selection

/-! Relays: stages that hand items on in order and lose some of them.  What a
relay lost is bounded by what it has counted, and counts of relays in a row add
up. -/

variable {α β : Type*}

/-- `kept` comes from some consecutive items, all of them but at most `missed`. -/
def Relayed (missed : Nat) (items kept : List α) : Prop :=
  ∃ window, window <:+: items ∧ kept.Sublist window ∧ window.length ≤ kept.length + missed

variable {missed other : Nat} {items kept : List α}

theorem relayed_of_infix (inside : kept <:+: items) : Relayed 0 items kept :=
  ⟨kept, inside, List.Sublist.refl kept, Nat.le_refl _⟩

theorem Relayed.sublist (relayed : Relayed missed items kept) : kept.Sublist items := by
  obtain ⟨window, inside, kept, -⟩ := relayed
  exact kept.trans inside.sublist

/-- A relay that lost nothing handed on consecutive items. -/
theorem Relayed.isInfix (relayed : Relayed 0 items kept) : kept <:+: items := by
  obtain ⟨window, inside, ordered, length⟩ := relayed
  rwa [ordered.eq_of_length_le length]

theorem Relayed.append (relayed : Relayed missed items kept) (more : List α) :
    Relayed missed (items ++ more) kept := by
  obtain ⟨window, inside, ordered, length⟩ := relayed
  exact ⟨window, inside.trans (List.prefix_append items more).isInfix, ordered, length⟩

/-- Relays in a row. -/
theorem Relayed.trans {last : List α} (first : Relayed missed items kept)
    (second : Relayed other kept last) : Relayed (missed + other) items last := by
  obtain ⟨wide, inItems, fromWide, wideLength⟩ := first
  obtain ⟨narrow, ⟨before, after, split⟩, fromNarrow, narrowLength⟩ := second
  rw [← split] at fromWide
  -- the part of the wide window that the narrow one was taken from
  obtain ⟨front, back, rfl, fromFront, fromBack⟩ := List.append_sublist_iff.mp fromWide
  obtain ⟨outer, window, rfl, fromOuter, fromWindow⟩ := List.append_sublist_iff.mp fromFront
  refine ⟨window, ?_, fromNarrow.trans fromWindow, ?_⟩
  · exact List.IsInfix.trans ⟨outer, back, rfl⟩ inItems
  · have outerLength := fromOuter.length_le
    have backLength := fromBack.length_le
    rw [← split] at wideLength
    simp only [List.length_append] at wideLength
    omega

/-- Leaving out the items at some positions loses no more than there are positions. -/
theorem relayed_without (items : List α) (dropped : List Nat) :
    Relayed dropped.length items (without items dropped) :=
  ⟨items, List.infix_refl items, without_sublist items dropped, length_le_without items dropped⟩

/-- A relay of whole batches loses the items of the batches it lost. -/
theorem relayed_flatMap {batches window through lost : List β} (carried : β → List α)
    (inside : window <:+: batches) (ordered : through.Sublist window)
    (split : (through ++ lost).Perm window) :
    Relayed (lost.flatMap carried).length (batches.flatMap carried)
      (through.flatMap carried) := by
  refine ⟨window.flatMap carried, ?_, ordered.flatMap carried, Nat.le_of_eq ?_⟩
  · obtain ⟨before, after, rfl⟩ := inside
    rw [List.flatMap_append, List.flatMap_append]
    exact ⟨_, _, rfl⟩
  · rw [← (split.flatMap_right carried).length_eq, List.flatMap_append, List.length_append]

/-- Where the items carry consecutive numbers, the numbers of what was handed on
are no further apart than its length and the losses allow. -/
theorem Relayed.lt_add {number : α → Nat} {base : Nat}
    (numbered : ∀ (position : Nat) (item : α), items[position]? = some item →
      number item = base + position)
    (relayed : Relayed missed items kept) {first last : α} (hasFirst : first ∈ kept)
    (hasLast : last ∈ kept) : number last < number first + (kept.length + missed) := by
  obtain ⟨window, ⟨before, after, rfl⟩, ordered, length⟩ := relayed
  have located {item : α} (member : item ∈ kept) :
      ∃ position, position < window.length ∧ number item = base + before.length + position := by
    obtain ⟨position, found⟩ := List.mem_iff_getElem?.mp (ordered.subset member)
    obtain ⟨within, -⟩ := List.getElem?_eq_some_iff.mp found
    refine ⟨position, within, ?_⟩
    rw [numbered (before.length + position) item, Nat.add_assoc]
    rw [List.append_assoc, List.getElem?_append_right (Nat.le_add_right _ _),
      Nat.add_sub_cancel_left, List.getElem?_append_left within]
    exact found
  obtain ⟨start, -, firstNumber⟩ := located hasFirst
  obtain ⟨stop, within, lastNumber⟩ := located hasLast
  omega

end Lldt.Data.Relay
