import Mathlib.Algebra.BigOperators.Group.Finset.Basic
import Mathlib.Algebra.BigOperators.Intervals
import Mathlib.Algebra.Ring.Periodic

namespace Lldt.Data.RunningTotal

/-! Running totals: a register of limited range adds up the weights of the items
that go by, and each item carries the reading taken after it. -/

section Readings

variable {α : Type*}

def total (weight : α → Nat) (items : List α) : Nat := (items.map weight).sum

/-- Every reading is the total so far, reduced to the range of the register. -/
def Reduced (limit : Nat) (weight reading : α → Nat) (items : List α) : Prop :=
  ∀ before item after, items = before ++ item :: after →
    reading item = total weight (before ++ [item]) % limit

/-- Every reading is the total so far. -/
def Exact (weight reading : α → Nat) (items : List α) : Prop :=
  ∀ before item after, items = before ++ item :: after →
    reading item = total weight (before ++ [item])

variable {limit : Nat} {weight other reading : α → Nat} {items : List α} {item : α}

@[simp] theorem total_append (first second : List α) :
    total weight (first ++ second) = total weight first + total weight second := by
  simp [total]

@[simp] theorem total_singleton (item : α) : total weight [item] = weight item := by
  simp [total]

theorem total_eq_length (unit : ∀ item, weight item = 1) (items : List α) :
    total weight items = items.length := by
  rw [total, List.map_congr_left fun item _ => unit item]
  simp

theorem total_le_total (below : ∀ item ∈ items, weight item ≤ other item) :
    total weight items ≤ total other items :=
  List.sum_le_sum below

theorem total_le_mul {bound : Nat} (below : ∀ item ∈ items, weight item ≤ bound) :
    total weight items ≤ items.length * bound :=
  calc
    total weight items ≤ total (fun _ => bound) items := total_le_total below
    _ = items.length * bound := by simp [total]

theorem reduced_nil : Reduced limit weight reading [] := by
  intro before item after split
  simp at split

theorem Reduced.append (reduced : Reduced limit weight reading items)
    (read : reading item = total weight (items ++ [item]) % limit) :
    Reduced limit weight reading (items ++ [item]) := by
  intro before current after split
  rcases List.eq_nil_or_concat after with rfl | ⟨front, last, rfl⟩
  · obtain ⟨rfl, same⟩ := List.append_inj' split rfl
    cases same
    exact read
  · rw [List.concat_eq_append, ← List.cons_append, ← List.append_assoc] at split
    exact reduced before current front (List.append_inj' split rfl).1

/-- The register after the items: its readings and the value it holds. -/
structure Register (limit : Nat) (weight reading : α → Nat) (items : List α) (value : Nat) :
    Prop where
  readings : Reduced limit weight reading items
  value_eq : value = total weight items % limit

theorem register_nil : Register limit weight reading [] 0 where
  readings := reduced_nil
  value_eq := (Nat.zero_mod limit).symm

theorem Register.add {value next : Nat} (register : Register limit weight reading items value)
    (added : next = (value + weight item) % limit) (read : reading item = next) :
    Register limit weight reading (items ++ [item]) next := by
  have sum : next = total weight (items ++ [item]) % limit := by
    rw [added, register.value_eq, total_append, total_singleton, Nat.mod_add_mod]
  exact ⟨register.readings.append (read.trans sum), sum⟩

/-- The readings are exact as long as the whole total is in range, and no longer. -/
theorem Reduced.exact_iff (reduced : Reduced limit weight reading items)
    (positive : 0 < limit) : Exact weight reading items ↔ total weight items < limit := by
  constructor
  · intro exact
    rcases List.eq_nil_or_concat items with rfl | ⟨front, last, rfl⟩
    · exact positive
    · rw [List.concat_eq_append] at exact reduced ⊢
      rw [← exact front last [] rfl, reduced front last [] rfl]
      exact Nat.mod_lt _ positive
  · intro small before item after split
    rw [reduced before item after split]
    apply Nat.mod_eq_of_lt
    rw [split, List.append_cons, total_append] at small
    omega

/-- Between two exact readings lies the total of what went by between them. -/
theorem Exact.difference (exact : Exact weight reading items) {first last : α}
    {before between after : List α}
    (split : items = before ++ first :: (between ++ last :: after)) :
    reading last = reading first + total weight (between ++ [last]) := by
  have earlier := exact before first (between ++ last :: after) split
  have later := exact (before ++ first :: between) last after (by rw [split]; simp)
  rw [earlier, later, List.append_assoc, List.cons_append, List.append_cons,
    total_append (before ++ [first])]

/-- Between two reduced readings the same holds within the range of the register. -/
theorem Reduced.difference (reduced : Reduced limit weight reading items) {first last : α}
    {before between after : List α}
    (split : items = before ++ first :: (between ++ last :: after)) :
    reading last = (reading first + total weight (between ++ [last])) % limit := by
  have earlier := reduced before first (between ++ last :: after) split
  have later := reduced (before ++ first :: between) last after (by rw [split]; simp)
  rw [earlier, later, List.append_assoc, List.cons_append, List.append_cons,
    total_append (before ++ [first]), Nat.mod_add_mod]

/-- Two items in their order, wherever they stand. -/
theorem exists_between {first last : α} (ordered : [first, last].Sublist items) :
    ∃ before between after, items = before ++ first :: (between ++ last :: after) := by
  obtain ⟨left, right, rfl, isFirst, rest⟩ := List.cons_sublist_iff.mp ordered
  obtain ⟨before, middle, rfl⟩ := List.append_of_mem isFirst
  obtain ⟨inner, after, rfl⟩ := List.append_of_mem (List.singleton_sublist.mp rest)
  exact ⟨before, middle ++ inner, after, by simp⟩

end Readings

/-- The sum of a periodic stream over some laps and a rest. -/
theorem sum_range_of_periodic {weight : Nat → Nat} {period : Nat}
    (periodic : Function.Periodic weight period) (laps rest : Nat) :
    ∑ i ∈ Finset.range (laps * period + rest), weight i =
      laps * ∑ i ∈ Finset.range period, weight i + ∑ i ∈ Finset.range rest, weight i := by
  have shifted (i laps : Nat) : weight (laps * period + i) = weight i := by
    rw [Nat.add_comm]
    exact periodic.nat_mul laps i
  have whole : ∑ i ∈ Finset.range (laps * period), weight i =
      laps * ∑ i ∈ Finset.range period, weight i := by
    induction laps with
    | zero => simp
    | succ laps ih =>
        rw [Nat.succ_mul, Finset.sum_range_add, ih, Nat.succ_mul]
        exact congrArg _ (Finset.sum_congr rfl fun i _ => shifted i laps)
  rw [Finset.sum_range_add, whole]
  exact congrArg _ (Finset.sum_congr rfl fun i _ => shifted i laps)

/-- What only grows crosses a bound once. -/
theorem lt_iff_le_of_monotone {f : Nat → Nat} (mono : Monotone f) {limit bound : Nat}
    (inside : f limit < bound) (outside : bound ≤ f (limit + 1)) (n : Nat) :
    f n < bound ↔ n ≤ limit := by
  constructor
  · intro small
    by_contra beyond
    have grown : f (limit + 1) ≤ f n := mono (by omega)
    omega
  · intro within
    exact Nat.lt_of_le_of_lt (mono within) inside

end Lldt.Data.RunningTotal
