import Lldt.Data.Relay
import Mathlib.Data.List.Basic

namespace Lldt.Data.RetainedLog

open Lldt.Data.Relay

/-! An append-only log of which a reader can still see the last `size` entries,
and the readers that follow it without ever going back. -/

variable {α : Type*}

inductive Lookup (α : Type*) where
  | hit (entry : α)
  | early
  | lapped (resume : Nat)
  deriving DecidableEq, Repr

def lookup (size : Nat) (log : List α) (index : Nat) : Lookup α :=
  match log[index]? with
  | none => .early
  | some entry =>
      if log.length ≤ index + size then .hit entry
      else .lapped (log.length - size)

variable {size index resume : Nat} {log seen : List α} {entry : α}

theorem lookup_eq_early_iff : lookup size log index = .early ↔ log.length ≤ index := by
  unfold lookup
  cases present : log[index]? with
  | none => simpa using present
  | some entry =>
      have inside := (List.getElem?_eq_some_iff.mp present).1
      constructor
      · intro early
        dsimp only at early
        split at early <;> contradiction
      · intro outside
        omega

theorem lookup_eq_hit_iff :
    lookup size log index = .hit entry ↔
      log[index]? = some entry ∧ log.length ≤ index + size := by
  unfold lookup
  cases present : log[index]? with
  | none => simp
  | some other =>
      dsimp only
      by_cases retained : log.length ≤ index + size
      · rw [if_pos retained]
        simp [retained]
      · rw [if_neg retained]
        simp [retained]

theorem lookup_eq_lapped_iff :
    lookup size log index = .lapped resume ↔
      index + size < log.length ∧ resume = log.length - size := by
  unfold lookup
  cases present : log[index]? with
  | none =>
      have outside := List.getElem?_eq_none_iff.mp present
      constructor
      · intro lapped
        contradiction
      · rintro ⟨inside, _⟩
        omega
  | some other =>
      dsimp only
      by_cases retained : log.length ≤ index + size
      · rw [if_pos retained]
        constructor
        · intro lapped
          contradiction
        · rintro ⟨beyond, _⟩
          omega
      · rw [if_neg retained]
        simp only [Lookup.lapped.injEq]
        constructor
        · intro same
          exact ⟨by omega, same.symm⟩
        · rintro ⟨_, same⟩
          exact same.symm

theorem getElem?_of_prefix {short long : List α} (grown : short <+: long)
    (present : short[index]? = some entry) : long[index]? = some entry := by
  obtain ⟨more, rfl⟩ := grown
  obtain ⟨inside, -⟩ := List.getElem?_eq_some_iff.mp present
  rwa [List.getElem?_append_left inside]

/-- An entry of a log that has grown by one is an entry it had, or the new one. -/
theorem getElem?_append_singleton_cases {last : α}
    (present : (log ++ [last])[index]? = some entry) :
    log[index]? = some entry ∨ index = log.length ∧ entry = last := by
  rw [List.getElem?_append] at present
  split at present
  · exact .inl present
  · rename_i beyond
    rw [List.getElem?_singleton] at present
    split at present
    · cases present
      exact .inr ⟨by omega, rfl⟩
    · contradiction

/-- A reader at `index` has seen some of the entries before it, in log order and
each at most once. -/
structure Follows (log : List α) (index : Nat) (seen : List α) : Prop where
  bound : index ≤ log.length
  ordered : seen.Sublist (log.take index)

theorem Follows.start (bound : index ≤ log.length) : Follows log index [] :=
  ⟨bound, List.nil_sublist _⟩

theorem Follows.sublist (follows : Follows log index seen) : seen.Sublist log :=
  follows.ordered.trans (List.take_sublist _ _)

theorem Follows.append (follows : Follows log index seen) (more : List α) :
    Follows (log ++ more) index seen := by
  refine ⟨?_, ?_⟩
  · rw [List.length_append]
    exact Nat.le_add_right_of_le follows.bound
  · rw [List.take_append_of_le_length follows.bound]
    exact follows.ordered

theorem Follows.hit (follows : Follows log index seen)
    (found : lookup size log index = .hit entry) :
    Follows log (index + 1) (seen ++ [entry]) := by
  obtain ⟨present, -⟩ := lookup_eq_hit_iff.mp found
  obtain ⟨inside, -⟩ := List.getElem?_eq_some_iff.mp present
  refine ⟨inside, ?_⟩
  rw [List.take_add_one, present]
  exact follows.ordered.append (List.Sublist.refl _)

theorem Follows.lapped (follows : Follows log index seen)
    (found : lookup size log index = .lapped resume) :
    Follows log resume seen := by
  obtain ⟨beyond, rfl⟩ := lookup_eq_lapped_iff.mp found
  refine ⟨Nat.sub_le _ _, follows.ordered.trans ?_⟩
  exact (List.take_prefix_take_left (by omega)).sublist

/-- A reader that entered the log at `entered` and stands at `index` has seen the
entries between, in order, all but the skipped ones. -/
structure Covers (log : List α) (entered index : Nat) (seen : List α) (skipped : Nat) :
    Prop where
  bound : index ≤ log.length
  ordered : seen.Sublist ((log.take index).drop entered)
  counted : entered + seen.length + skipped = index

section Covers

variable {entered skipped : Nat}

theorem Covers.start (bound : index ≤ log.length) : Covers log index index [] 0 :=
  ⟨bound, List.nil_sublist _, rfl⟩

theorem Covers.append (covers : Covers log entered index seen skipped) (more : List α) :
    Covers (log ++ more) entered index seen skipped := by
  refine ⟨?_, ?_, covers.counted⟩
  · rw [List.length_append]
    exact Nat.le_add_right_of_le covers.bound
  · rw [List.take_append_of_le_length covers.bound]
    exact covers.ordered

theorem Covers.next (covers : Covers log entered index seen skipped)
    (present : log[index]? = some entry) :
    Covers log entered (index + 1) (seen ++ [entry]) skipped := by
  obtain ⟨inside, -⟩ := List.getElem?_eq_some_iff.mp present
  obtain ⟨bound, ordered, counted⟩ := covers
  refine ⟨inside, ?_, ?_⟩
  · rw [List.take_add_one, present, List.drop_append_of_le_length]
    · exact ordered.append (List.Sublist.refl _)
    · rw [List.length_take]
      omega
  · rw [List.length_append, List.length_singleton]
    omega

theorem Covers.skip (covers : Covers log entered index seen skipped)
    (ahead : index ≤ resume) (inside : resume ≤ log.length) :
    Covers log entered resume seen (skipped + (resume - index)) := by
  obtain ⟨bound, ordered, counted⟩ := covers
  refine ⟨inside, ?_, by omega⟩
  exact ordered.trans ((List.take_prefix_take_left ahead).sublist.drop entered)

theorem Covers.hit (covers : Covers log entered index seen skipped)
    (found : lookup size log index = .hit entry) :
    Covers log entered (index + 1) (seen ++ [entry]) skipped :=
  covers.next (lookup_eq_hit_iff.mp found).1

theorem Covers.lapped (covers : Covers log entered index seen skipped)
    (found : lookup size log index = .lapped resume) :
    Covers log entered resume seen (skipped + (resume - index)) := by
  obtain ⟨beyond, rfl⟩ := lookup_eq_lapped_iff.mp found
  exact covers.skip (by omega) (Nat.sub_le _ _)

/-- The entries before `index` relayed with the skipped ones lost. -/
theorem Covers.relayed (covers : Covers log entered index seen skipped) :
    Relayed skipped log seen := by
  obtain ⟨bound, ordered, counted⟩ := covers
  refine ⟨_, ?_, ordered, ?_⟩
  · exact (List.drop_suffix _ _).isInfix.trans (List.take_prefix _ _).isInfix
  · rw [List.length_drop, List.length_take]
    omega

/-- A reader that skipped nothing has seen everything since it entered. -/
theorem Covers.seen_eq (covers : Covers log entered index seen 0) :
    seen = (log.take index).drop entered := by
  obtain ⟨bound, ordered, counted⟩ := covers
  apply ordered.eq_of_length
  rw [List.length_drop, List.length_take]
  omega

end Covers

end Lldt.Data.RetainedLog
