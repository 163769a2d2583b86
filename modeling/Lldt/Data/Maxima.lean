import Mathlib.Data.List.Basic
import Mathlib.Data.List.Sort
import Mathlib.Order.Basic

namespace Lldt.Data.Maxima

/-! The left-to-right maxima of a list: the items whose key is above the keys of
all items before them. -/

variable {α β : Type*} [LinearOrder β] (key : α → β)

/-- The maxima of a list that comes after some earlier items. -/
def maximaAfter (earlier : List α) : List α → List α
  | [] => []
  | item :: rest =>
      if ∀ before ∈ earlier, key before < key item then
        item :: maximaAfter (earlier ++ [item]) rest
      else maximaAfter (earlier ++ [item]) rest

def maxima (items : List α) : List α := maximaAfter key [] items

variable {key}

theorem maximaAfter_append (earlier first second : List α) :
    maximaAfter key earlier (first ++ second) =
      maximaAfter key earlier first ++ maximaAfter key (earlier ++ first) second := by
  induction first generalizing earlier with
  | nil => simp [maximaAfter]
  | cons item rest ih =>
      rw [List.cons_append, maximaAfter, maximaAfter, ih, List.append_assoc,
        List.singleton_append]
      split <;> rfl

theorem maxima_cons (item : α) (rest : List α) :
    maxima key (item :: rest) = item :: maximaAfter key [item] rest := by
  rw [maxima, maximaAfter, if_pos nofun, List.nil_append]

theorem maxima_append_singleton (items : List α) (item : α) :
    maxima key (items ++ [item]) = maxima key items ++
      if ∀ before ∈ items, key before < key item then [item] else [] := by
  rw [maxima, maximaAfter_append, List.nil_append, maximaAfter]
  congr 1

/-- Where one item is a largest one so far, only it has to be exceeded. -/
theorem maximaAfter_append_singleton {earlier rest : List α} {newest item : α}
    (member : newest ∈ earlier ++ rest)
    (largest : ∀ other ∈ earlier ++ rest, key other ≤ key newest) :
    maximaAfter key earlier (rest ++ [item]) =
      maximaAfter key earlier rest ++ if key newest < key item then [item] else [] := by
  have above : (∀ other ∈ earlier ++ rest, key other < key item) ↔ key newest < key item := by
    constructor
    · intro all
      exact all newest member
    · intro less other inside
      exact lt_of_le_of_lt (largest other inside) less
  rw [maximaAfter_append, maximaAfter]
  simp only [above, maximaAfter]

theorem maximaAfter_congr {first second : List α}
    (same : ∀ item, (∀ before ∈ first, key before < key item) ↔
      ∀ before ∈ second, key before < key item) (items : List α) :
    maximaAfter key first items = maximaAfter key second items := by
  induction items generalizing first second with
  | nil => rfl
  | cons item rest ih =>
      have next : maximaAfter key (first ++ [item]) rest =
          maximaAfter key (second ++ [item]) rest := by
        apply ih
        intro other
        simp only [List.mem_append, List.mem_singleton, or_imp, forall_and, same other]
      simp only [maximaAfter, next, same item]

/-- An item that is not above an earlier one can be left out. -/
theorem maxima_redundant {before after : List α} {item : α}
    (redundant : ∃ earlier ∈ before, key item ≤ key earlier) :
    maxima key (before ++ [item] ++ after) = maxima key (before ++ after) := by
  obtain ⟨earlier, member, below⟩ := redundant
  have notAbove : ¬∀ other ∈ before, key other < key item :=
    fun above => not_lt_of_ge below (above earlier member)
  have same : maximaAfter key (before ++ [item]) after = maximaAfter key before after := by
    apply maximaAfter_congr
    intro other
    constructor
    · intro above position inside
      exact above position (List.mem_append_left _ inside)
    · intro above position inside
      rcases List.mem_append.mp inside with inBefore | last
      · exact above position inBefore
      · rw [List.mem_singleton.mp last]
        exact lt_of_le_of_lt below (above earlier member)
  rw [maxima, List.append_assoc, maximaAfter_append, List.singleton_append, List.nil_append,
    maximaAfter, if_neg notAbove, same, maxima, maximaAfter_append, List.nil_append]

theorem pairwise_maximaAfter (earlier items : List α) :
    (maximaAfter key earlier items).Pairwise (fun first second => key first < key second) ∧
      ∀ item ∈ maximaAfter key earlier items, ∀ before ∈ earlier, key before < key item := by
  induction items generalizing earlier with
  | nil => exact ⟨.nil, nofun⟩
  | cons item rest ih =>
      obtain ⟨ordered, above⟩ := ih (earlier ++ [item])
      rw [maximaAfter]
      split
      · rename_i record
        refine ⟨List.pairwise_cons.mpr ⟨?_, ordered⟩, ?_⟩
        · intro later member
          exact above later member item (by simp)
        · intro later member before inside
          rcases List.mem_cons.mp member with rfl | inRest
          · exact record before inside
          · exact above later inRest before (List.mem_append_left _ inside)
      · refine ⟨ordered, ?_⟩
        intro later member before inside
        exact above later member before (List.mem_append_left _ inside)

theorem maximaAfter_sublist (earlier items : List α) :
    (maximaAfter key earlier items).Sublist items := by
  induction items generalizing earlier with
  | nil => exact .slnil
  | cons item rest ih =>
      rw [maximaAfter]
      split
      · exact (ih _).cons_cons item
      · exact (ih _).cons item

/-- The maxima of items drawn from a sorted list come in the order of that list. -/
theorem maxima_sublist_of_sorted {items sorted : List α}
    (ordered : sorted.Pairwise fun first second => key first < key second)
    (drawn : ∀ item ∈ items, item ∈ sorted) : (maxima key items).Sublist sorted := by
  let below (first second : α) : Prop := key first < key second
  have antisymm : Std.Antisymm below :=
    ⟨fun first second less greater => absurd less (lt_asymm greater)⟩
  have increasing : (maxima key items).Pairwise below := (pairwise_maximaAfter [] items).1
  have distinct : (maxima key items).Nodup := by
    apply increasing.imp
    rintro first second less rfl
    exact lt_irrefl _ less
  have subset : maxima key items ⊆ sorted :=
    fun item member => drawn item ((maximaAfter_sublist _ _).subset member)
  exact List.sublist_of_subperm_of_pairwise (List.subperm_of_subset distinct subset)
    increasing ordered

def exceeds (key : α → β) (earlier : List α) (item : α) : Bool :=
  decide (∀ before ∈ earlier, key before < key item)

theorem exceeds_iff {earlier : List α} {item : α} :
    exceeds key earlier item = true ↔ ∀ before ∈ earlier, key before < key item :=
  decide_eq_true_iff

/-- Above the earlier items, only those count that are above them too. -/
theorem exceeds_append_iff {earlier seen : List α} {item : α}
    (above : exceeds key earlier item = true) :
    (∀ before ∈ earlier ++ seen, key before < key item) ↔
      ∀ before ∈ seen.filter (exceeds key earlier), key before < key item := by
  rw [exceeds_iff] at above
  constructor
  · intro all before kept
    exact all before (List.mem_append_right _ (List.mem_filter.mp kept).1)
  · intro kept before member
    rcases List.mem_append.mp member with early | later
    · exact above before early
    · cases counts : exceeds key earlier before with
      | true => exact kept before (List.mem_filter.mpr ⟨later, counts⟩)
      | false =>
          simp only [exceeds, decide_eq_false_iff_not, not_forall, not_lt] at counts
          obtain ⟨first, early, below⟩ := counts
          exact lt_of_le_of_lt below (above first early)

/-- Items that are not above all the earlier ones do not count among the later ones. -/
theorem maximaAfter_append_left (earlier seen items : List α) :
    maximaAfter key (earlier ++ seen) items =
      maximaAfter key (seen.filter (exceeds key earlier))
        (items.filter (exceeds key earlier)) := by
  induction items generalizing seen with
  | nil => rfl
  | cons item rest ih =>
      have next := ih (seen ++ [item])
      rw [← List.append_assoc, List.filter_append] at next
      cases above : exceeds key earlier item with
      | true =>
          rw [List.filter_cons_of_pos above]
          rw [List.filter_cons_of_pos above, List.filter_nil] at next
          simp only [maximaAfter, next, exceeds_append_iff above]
      | false =>
          have below : ¬exceeds key earlier item = true := by simp [above]
          rw [List.filter_cons_of_neg below]
          rw [List.filter_cons_of_neg below, List.filter_nil, List.append_nil] at next
          rw [maximaAfter, if_neg, next]
          intro all
          exact below (exceeds_iff.mpr fun before early =>
            all before (List.mem_append_left _ early))

/-- What earlier items leave of a list are the maxima of what is above them. -/
theorem maximaAfter_eq_filter (earlier items : List α) :
    maximaAfter key earlier items = maxima key (items.filter (exceeds key earlier)) := by
  have split := @maximaAfter_append_left α β _ key earlier [] items
  rwa [List.append_nil] at split

theorem maxima_of_sorted {items : List α}
    (ordered : items.Pairwise fun first second => key first < key second) :
    maxima key items = items := by
  suffices all : ∀ earlier : List α,
      (∀ before ∈ earlier, ∀ item ∈ items, key before < key item) →
        maximaAfter key earlier items = items from all [] nofun
  induction items with
  | nil => exact fun _ _ => rfl
  | cons item rest ih =>
      intro earlier above
      obtain ⟨first, others⟩ := List.pairwise_cons.mp ordered
      rw [maximaAfter, if_pos fun before member => above before member item List.mem_cons_self,
        ih others]
      intro before member later inRest
      rcases List.mem_append.mp member with early | last
      · exact above before early later (List.mem_cons_of_mem _ inRest)
      · rw [List.mem_singleton.mp last]
        exact first later inRest

/-! A list whose keys are its indices. -/

section Indexed

variable {key : α → Nat} {items : List α}

theorem pairwise_of_indexed
    (indexed : ∀ number item, items[number]? = some item → key item = number) :
    items.Pairwise fun first second => key first < key second := by
  rw [List.pairwise_iff_getElem]
  intro first second firstInside secondInside less
  rw [indexed first _ (List.getElem?_eq_getElem _), indexed second _ (List.getElem?_eq_getElem _)]
  exact less

/-- A lower bound on the keys cuts the list. -/
theorem filter_of_indexed
    (indexed : ∀ number item, items[number]? = some item → key item = number) (bound : Nat) :
    (items.filter fun item => bound ≤ key item) = items.drop bound := by
  conv_lhs => rw [← List.take_append_drop bound items]
  rw [List.filter_append, List.filter_eq_nil_iff.mpr, List.filter_eq_self.mpr, List.nil_append]
  · intro item member
    obtain ⟨number, found⟩ := List.mem_iff_getElem?.mp member
    rw [List.getElem?_drop] at found
    rw [indexed _ item found]
    exact decide_eq_true (Nat.le_add_right _ _)
  · intro item member
    obtain ⟨number, found⟩ := List.mem_iff_getElem?.mp member
    obtain ⟨inside, -⟩ := List.getElem?_eq_some_iff.mp found
    rw [List.length_take] at inside
    rw [List.getElem?_take_of_lt (by omega)] at found
    rw [indexed _ item found, decide_eq_true_eq]
    omega

end Indexed

end Lldt.Data.Maxima
