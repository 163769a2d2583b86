import Mathlib.Data.List.Induction
import Mathlib.Order.Basic

namespace Lldt.Data.Transition

/-! Finite runs of a labelled transition relation and the rules that lift facts
about one step to facts about a whole run. -/

variable {σ α : Type*} {Step : σ → α → σ → Prop}

/-- `Run Step start labels finish`: the labels taken in order lead from `start`
to `finish`. -/
inductive Run (Step : σ → α → σ → Prop) (start : σ) : List α → σ → Prop
  | nil : Run Step start [] start
  | snoc {middle finish : σ} {labels : List α} {label : α}
      (run : Run Step start labels middle) (step : Step middle label finish) :
      Run Step start (labels ++ [label]) finish

def Guarded (Guard : σ → α → Prop) (Step : σ → α → σ → Prop) :
    σ → α → σ → Prop :=
  fun state label next => Guard state label ∧ Step state label next

theorem Run.of_guarded {Guard : σ → α → Prop} {start finish : σ}
    {labels : List α} (run : Run (Guarded Guard Step) start labels finish) :
    Run Step start labels finish := by
  induction run with
  | nil => exact .nil
  | snoc run step ih => exact .snoc ih step.2

theorem Run.trans {start middle finish : σ} {first second : List α}
    (left : Run Step start first middle) (right : Run Step middle second finish) :
    Run Step start (first ++ second) finish := by
  induction right with
  | nil => simpa using left
  | snoc run step ih =>
      rw [← List.append_assoc]
      exact .snoc ih step

theorem Run.of_foldlM {step : σ → α → Option σ} {start finish : σ} {labels : List α}
    (executed : labels.foldlM step start = some finish) :
    Run (fun state label next => step state label = some next) start labels finish := by
  induction labels using List.reverseRecOn generalizing finish with
  | nil =>
      cases executed
      exact .nil
  | append_singleton labels label ih =>
      rw [List.foldlM_append] at executed
      obtain ⟨middle, before, last⟩ := Option.bind_eq_some_iff.mp executed
      exact .snoc (ih before) (by simpa using last)

theorem Run.foldlM {step : σ → α → Option σ} {start finish : σ} {labels : List α}
    (run : Run (fun state label next => step state label = some next) start labels finish) :
    labels.foldlM step start = some finish := by
  induction run with
  | nil => rfl
  | snoc _ last ih =>
      rw [List.foldlM_append, ih]
      simpa using last

theorem Run.guarded_of_foldlM {Guard : σ → α → Prop} [∀ state, DecidablePred (Guard state)]
    {step : σ → α → Option σ} {start finish : σ} {labels : List α}
    (executed : labels.foldlM
      (fun state label => if Guard state label then step state label else none) start =
        some finish) :
    Run (Guarded Guard fun state label next => step state label = some next)
      start labels finish := by
  have run := Run.of_foldlM executed
  clear executed
  induction run with
  | nil => exact .nil
  | snoc _ last ih =>
      split at last
      · rename_i guard
        exact .snoc ih ⟨guard, last⟩
      · contradiction

theorem Run.invariant {Inv : σ → Prop}
    (preserved : ∀ {state label next}, Inv state → Step state label next → Inv next)
    {start finish : σ} {labels : List α} (run : Run Step start labels finish)
    (initial : Inv start) : Inv finish := by
  induction run with
  | nil => exact initial
  | snoc run step ih => exact preserved ih step

/-- The invariant rule under a budget: where a growing quantity is still below
its limit at the end of a run, it was below it before every step. -/
theorem Run.invariant_below {Inv : σ → Prop} (measure : σ → Nat) (limit : Nat)
    (grows : ∀ {state label next}, Step state label next → measure state ≤ measure next)
    (preserved : ∀ {state label next}, Inv state → measure next < limit →
      Step state label next → Inv next)
    {start finish : σ} {labels : List α} (run : Run Step start labels finish)
    (below : measure finish < limit) (initial : Inv start) : Inv finish := by
  induction run with
  | nil => exact initial
  | snoc run step ih =>
      have earlier := Nat.lt_of_le_of_lt (grows step) below
      exact preserved (ih earlier) below step

/-- The budget rule: where every step pays for its label out of what the state
still has, a run takes no more of these labels than its start could pay for. -/
theorem Run.budget {Inv : σ → Prop} (measure : σ → Nat) (paid : α → Bool)
    (preserved : ∀ {state label next}, Inv state → Step state label next → Inv next)
    (spends : ∀ {state label next}, Inv state → Step state label next →
      measure next + (if paid label then 1 else 0) ≤ measure state)
    {start finish : σ} {labels : List α} (run : Run Step start labels finish)
    (initial : Inv start) : measure finish + labels.countP paid ≤ measure start := by
  induction run with
  | nil => exact Nat.le_refl _
  | snoc run step ih =>
      have before := run.invariant (fun kept step => preserved kept step) initial
      have last := spends before step
      rw [List.countP_append, List.countP_singleton]
      omega

/-- The ranking rule: short of the goal the labels are paid for out of a measure that
never grows and is used up only at the goal, so a run with as many of them as its start
could pay for has been there. -/
theorem Run.visits {Inv Goal : σ → Prop} (measure : σ → Nat) (paid : α → Bool)
    (preserved : ∀ {state label next}, Inv state → Step state label next → Inv next)
    (spends : ∀ {state label next}, Inv state → ¬Goal state → ¬Goal next →
      Step state label next → measure next + (if paid label then 1 else 0) ≤ measure state)
    (spent : ∀ {state}, Inv state → measure state = 0 → Goal state)
    {start finish : σ} {labels : List α} (run : Run Step start labels finish)
    (initial : Inv start) (long : measure start ≤ labels.countP paid) :
    ∃ first rest middle, labels = first ++ rest ∧ Run Step start first middle ∧
      Run Step middle rest finish ∧ Goal middle := by
  by_contra never
  have account : ¬Goal finish ∧ measure finish + labels.countP paid ≤ measure start := by
    clear long
    induction run with
    | nil =>
        exact ⟨fun goal => never ⟨[], [], start, rfl, .nil, .nil, goal⟩, Nat.le_refl _⟩
    | @snoc middle finish labels label run step ih =>
        obtain ⟨notYet, before⟩ := ih fun ⟨first, rest, visited, split, before, after, goal⟩ =>
          never ⟨first, rest ++ [label], visited, by rw [split, List.append_assoc], before,
            .snoc after step, goal⟩
        have notNow : ¬Goal finish := fun goal =>
          never ⟨labels ++ [label], [], finish, (List.append_nil _).symm, .snoc run step, .nil,
            goal⟩
        have kept := run.invariant (fun kept step => preserved kept step) initial
        have last := spends kept notYet notNow step
        rw [List.countP_append, List.countP_singleton]
        exact ⟨notNow, by omega⟩
  obtain ⟨notThere, paidFor⟩ := account
  have kept := run.invariant (fun kept step => preserved kept step) initial
  exact notThere (spent kept (by omega))

/-- The rule under a budget for what is said of the labels taken so far as well. -/
theorem Run.history_below (Inv : List α → σ → Prop) (measure : σ → Nat) (limit : Nat)
    (grows : ∀ {state label next}, Step state label next → measure state ≤ measure next)
    (preserved : ∀ {labels state label next}, Inv labels state → measure next < limit →
      Step state label next → Inv (labels ++ [label]) next)
    {start finish : σ} {labels : List α} (run : Run Step start labels finish)
    (below : measure finish < limit) (initial : Inv [] start) : Inv labels finish := by
  induction run with
  | nil => exact initial
  | snoc run step ih =>
      have earlier := Nat.lt_of_le_of_lt (grows step) below
      exact preserved (ih earlier) below step

/-- How many labels of one kind come before the first of another kind. -/
def countBefore (stops counts : α → Bool) (labels : List α) : Nat :=
  (labels.takeWhile fun label => !stops label).countP counts

theorem countBefore_append {stops counts : α → Bool} {labels : List α}
    (stopped : labels.any stops = true) (more : List α) :
    countBefore stops counts (labels ++ more) = countBefore stops counts labels := by
  unfold countBefore
  induction labels with
  | nil => contradiction
  | cons label rest ih =>
      cases here : stops label with
      | true => simp [here]
      | false =>
          rw [List.any_cons, here, Bool.false_or] at stopped
          simp [here, ih stopped, List.countP_cons]

/-- The first label of the other kind ends the count. -/
theorem countBefore_concat {stops counts : α → Bool} {labels : List α} {last : α}
    (running : labels.any stops = false) (stop : stops last = true) :
    countBefore stops counts (labels ++ [last]) = labels.countP counts := by
  unfold countBefore
  induction labels with
  | nil => simp [stop]
  | cons label rest ih =>
      rw [List.any_cons, Bool.or_eq_false_iff] at running
      simp [running.1, ih running.2, List.countP_cons]

end Lldt.Data.Transition
