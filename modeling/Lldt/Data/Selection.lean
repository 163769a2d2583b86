import Mathlib.Data.List.Basic
import Mathlib.Data.List.Perm.Subperm

namespace Lldt.Data.Selection

/-! Lists with the items at some positions left out. -/

variable {α : Type*}

/-- The items whose position is not dropped. -/
def without (items : List α) (dropped : List Nat) : List α :=
  (items.zipIdx.filter fun entry => entry.2 ∉ dropped).map Prod.fst

variable {items : List α} {dropped : List Nat} {item : α}

@[simp] theorem without_nil_left : without ([] : List α) dropped = [] := rfl

@[simp] theorem without_nil_right : without items [] = items := by
  simp [without]

theorem without_sublist (items : List α) (dropped : List Nat) :
    (without items dropped).Sublist items := by
  have all : items.zipIdx.map Prod.fst = items := by simp
  rw [without]
  conv_rhs => rw [← all]
  exact List.filter_sublist.map Prod.fst

theorem without_append_singleton (below : ∀ position ∈ dropped, position < items.length) :
    without (items ++ [item]) dropped = without items dropped ++ [item] := by
  have kept : items.length ∉ dropped := fun member => Nat.lt_irrefl _ (below _ member)
  simp [without, List.zipIdx_append, kept]

theorem without_drop_last :
    without (items ++ [item]) (dropped ++ [items.length]) = without items dropped := by
  have same : (items.zipIdx.filter fun entry => entry.2 ∉ dropped ++ [items.length]) =
      items.zipIdx.filter fun entry => entry.2 ∉ dropped := by
    apply List.filter_congr
    intro entry member
    have inside := (List.mem_zipIdx member).2.1
    have other : entry.2 ≠ items.length := by omega
    simp [other]
  simp only [without, List.zipIdx_append, List.filter_append, same]
  simp

/-- No more items are missing than positions were dropped. -/
theorem length_le_without (items : List α) (dropped : List Nat) :
    items.length ≤ (without items dropped).length + dropped.length := by
  have positions : ((items.zipIdx.filter fun entry => entry.2 ∈ dropped).map Prod.snd).Nodup := by
    apply List.Nodup.sublist (List.filter_sublist.map Prod.snd)
    rw [List.zipIdx_map_snd]
    exact List.nodup_range'
  have inside : (items.zipIdx.filter fun entry => entry.2 ∈ dropped).map Prod.snd ⊆ dropped := by
    intro position member
    obtain ⟨entry, kept, rfl⟩ := List.mem_map.mp member
    exact of_decide_eq_true (List.mem_filter.mp kept).2
  have few := (List.subperm_of_subset positions inside).length_le
  have split := List.length_eq_length_filter_add (l := items.zipIdx)
    fun entry => decide (entry.2 ∈ dropped)
  rw [List.length_map] at few
  rw [List.length_zipIdx] at split
  simp only [without, List.length_map, decide_not]
  omega

end Lldt.Data.Selection
