import Mathlib.Data.Set.Card
import Mathlib.Order.Interval.Finset.Nat

namespace Lldt.Data.Holes

/-! The values an increasing sequence passes over, and the maximal runs they
form. -/

/-- The values from `first` up to `next` that were not taken. -/
def holes (first next : Nat) (taken : List Nat) : Finset Nat :=
  (Finset.Ico first next).filter (· ∉ taken)

/-- The values from `first` up to `last` are in the set, and neither neighbour is. -/
structure MaximalRun (values : Finset Nat) (first last : Nat) : Prop where
  nonempty : first < last
  inside : ∀ value, first ≤ value → value < last → value ∈ values
  left : ∀ value, value + 1 = first → value ∉ values
  right : last ∉ values

def maximalRuns (values : Finset Nat) : Set (Nat × Nat) :=
  { run | MaximalRun values run.1 run.2 }

def runStarts (values : Finset Nat) : Finset Nat :=
  values.filter fun value => value = 0 ∨ value - 1 ∉ values

theorem exists_run_of_start {values : Finset Nat} {first : Nat}
    (start : first ∈ runStarts values) : ∃ last, MaximalRun values first last := by
  obtain ⟨member, edge⟩ := Finset.mem_filter.mp start
  have ends : ∃ last, first < last ∧ last ∉ values := by
    refine ⟨max (first + 1) (values.sup id + 1), by omega, ?_⟩
    intro inside
    have := Finset.le_sup (f := id) inside
    simp only [id] at this
    omega
  refine ⟨Nat.find ends, (Nat.find_spec ends).1, ?_, ?_, (Nat.find_spec ends).2⟩
  · intro value from_ below
    rcases Nat.eq_or_lt_of_le from_ with rfl | later
    · exact member
    · by_contra absent
      exact Nat.find_min ends below ⟨later, absent⟩
  · rintro value rfl
    rcases edge with zero | absent
    · omega
    · exact absent

theorem MaximalRun.last_unique {values : Finset Nat} {first left right : Nat}
    (one : MaximalRun values first left) (two : MaximalRun values first right) :
    left = right := by
  rcases Nat.lt_trichotomy left right with less | same | greater
  · exact absurd (two.inside left (Nat.le_of_lt one.nonempty) less) one.right
  · exact same
  · exact absurd (one.inside right (Nat.le_of_lt two.nonempty) greater) two.right

/-- There are as many maximal runs as there are starts. -/
theorem ncard_maximalRuns (values : Finset Nat) :
    (maximalRuns values).ncard = (runStarts values).card := by
  have injective : Set.InjOn Prod.fst (maximalRuns values) := by
    rintro ⟨first, left⟩ one ⟨_, right⟩ two rfl
    exact Prod.ext rfl (one.last_unique two)
  have image : Prod.fst '' maximalRuns values = (runStarts values : Set Nat) := by
    ext first
    constructor
    · rintro ⟨⟨_, last⟩, run, rfl⟩
      refine Finset.mem_coe.mpr (Finset.mem_filter.mpr
        ⟨run.inside _ (Nat.le_refl _) run.nonempty, ?_⟩)
      rcases Nat.eq_zero_or_eq_succ_pred _ with zero | next
      · exact .inl zero
      · exact .inr (run.left _ next.symm)
    · intro start
      obtain ⟨last, run⟩ := exists_run_of_start (Finset.mem_coe.mp start)
      exact ⟨(first, last), run, rfl⟩
  rw [← Set.InjOn.ncard_image injective, image, Set.ncard_coe_finset]

/-- Taken values and holes make up the whole range. -/
theorem card_holes {first next : Nat} {taken : List Nat} (distinct : taken.Nodup)
    (inside : ∀ value ∈ taken, first ≤ value ∧ value < next) :
    (holes first next taken).card + taken.length = next - first := by
  have kept : (Finset.Ico first next).filter (· ∈ taken) = taken.toFinset := by
    ext value
    simp only [Finset.mem_filter, Finset.mem_Ico, List.mem_toFinset, and_iff_right_iff_imp]
    exact inside value
  have split := Finset.card_filter_add_card_filter_not (s := Finset.Ico first next) (· ∈ taken)
  rw [kept, List.toFinset_card_of_nodup distinct, Nat.card_Ico] at split
  rw [holes, Nat.add_comm]
  exact split

theorem holes_congr {first next : Nat} {taken other : List Nat}
    (same : ∀ value, value ∈ taken ↔ value ∈ other) :
    holes first next taken = holes first next other := by
  simp only [holes, same]

section Extend

variable {first next item : Nat} {taken : List Nat}

theorem holes_extend (ordered : first ≤ next) (reached : next ≤ item)
    (below : ∀ value ∈ taken, value < next) :
    holes first (item + 1) (taken ++ [item]) =
      holes first next taken ∪ Finset.Ico next item := by
  ext value
  simp only [holes, Finset.mem_union, Finset.mem_filter, Finset.mem_Ico, List.mem_append,
    List.mem_singleton, not_or]
  constructor
  · rintro ⟨⟨above, under⟩, notTaken, notItem⟩
    by_cases early : value < next
    · exact .inl ⟨⟨above, early⟩, notTaken⟩
    · exact .inr ⟨by omega, by omega⟩
  · rintro (⟨⟨above, under⟩, notTaken⟩ | ⟨above, under⟩)
    · exact ⟨⟨above, by omega⟩, notTaken, by omega⟩
    · refine ⟨⟨by omega, by omega⟩, fun member => ?_, by omega⟩
      have := below value member
      omega

theorem card_extend {values : Finset Nat} (below : ∀ value ∈ values, value < next) :
    (values ∪ Finset.Ico next item).card = values.card + (item - next) := by
  rw [Finset.card_union_of_disjoint, Nat.card_Ico]
  rw [Finset.disjoint_left]
  intro value member later
  have := below value member
  have := (Finset.mem_Ico.mp later).1
  omega

theorem card_runStarts_extend {values : Finset Nat}
    (below : ∀ value ∈ values, value + 1 < next) :
    (runStarts (values ∪ Finset.Ico next item)).card =
      (runStarts values).card + if next < item then 1 else 0 := by
  have starts : runStarts (values ∪ Finset.Ico next item) =
      runStarts values ∪ if next < item then {next} else ∅ := by
    ext value
    simp only [runStarts, Finset.mem_filter, Finset.mem_union, Finset.mem_Ico, not_or]
    by_cases early : value + 1 < next
    · have notNext : value ∉ (if next < item then {next} else ∅ : Finset Nat) := by
        split <;> simp
        omega
      simp only [notNext, or_false]
      constructor
      · rintro ⟨member | late, edge⟩
        · exact ⟨member, edge.imp_right And.left⟩
        · omega
      · rintro ⟨member, edge⟩
        exact ⟨.inl member, edge.imp_right fun absent => ⟨absent, by omega⟩⟩
    · have absent : value ∉ values := fun member => early (below value member)
      simp only [absent, false_or, false_and]
      constructor
      · rintro ⟨⟨above, under⟩, edge⟩
        rw [if_pos (by omega), Finset.mem_singleton]
        omega
      · intro last
        split at last
        · rename_i gap
          rw [Finset.mem_singleton] at last
          subst last
          refine ⟨⟨Nat.le_refl _, gap⟩, ?_⟩
          rcases Nat.eq_zero_or_eq_succ_pred value with zero | positive
          · exact .inl zero
          · refine .inr ⟨fun member => ?_, by omega⟩
            have := below _ member
            omega
        · simp at last
  rw [starts, Finset.card_union_of_disjoint]
  · split <;> simp
  · rw [Finset.disjoint_left]
    intro value member last
    have := below value (Finset.mem_filter.mp member).1
    split at last
    · rw [Finset.mem_singleton.mp last] at this
      omega
    · simp at last

end Extend

end Lldt.Data.Holes
