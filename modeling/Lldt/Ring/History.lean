import Lldt.Data.Cyclic
import Lldt.Data.RetainedLog
import Lldt.Ring.Basic

namespace Lldt.Shm

open Lldt.Data.Bytes
open Lldt.Data.Cyclic
open Lldt.Data.RetainedLog
open Lldt.Msg

/-! The ring against its publication history: an append-only log of frames of
which the slots retain the last `slot_count`. -/

/-- The length and the bytes below it are those of the frame; what an earlier,
longer frame left behind it does not matter. -/
structure Slot.Carries (slot : Slot) (frame : List UInt8) : Prop where
  len : slot.frameLen.toNat = frame.length
  bytes : ∀ offset (inside : offset < frame.length), slot.frame offset = frame[offset]

theorem Slot.Carries.copyOut {slot : Slot} {frame : List UInt8}
    (carries : slot.Carries frame) : slot.copyOut slot.frameLen.toNat = frame := by
  rw [carries.len]
  apply List.ext_getElem
  · simp [Slot.copyOut]
  · intro offset _ inside
    simp only [Slot.copyOut, List.getElem_map, List.getElem_range]
    exact carries.bytes offset inside

theorem Slot.Carries.frameLen_eq {slot : Slot} {frame : List UInt8}
    (carries : slot.Carries frame) : slot.frameLen = UInt32.ofNat frame.length := by
  rw [← carries.len, UInt32.ofNat_toNat]

namespace Ring

variable {slots : SlotCount} {profile : Profile}

/-- The ring stores the history: the write index counts the publications, each
slot sequence is the stamp of the latest publication of that slot, and the slot
carries that publication. -/
structure Holds (ring : Ring slots) (history : List (List UInt8)) : Prop where
  edge : ring.writeIndex.toNat = history.length
  stamped : ∀ cell, (ring.slotAt cell).seq.toNat =
    stamp slots.size history.length cell.val
  carried : ∀ cell number (published : number < history.length),
    stamp slots.size history.length cell.val = number + 1 →
      (ring.slotAt cell).Carries history[number]

theorem holds_attach (memory : Ring slots) : (memory.attach true).Holds [] where
  edge := rfl
  stamped := fun _ => rfl
  carried := fun _ _ published => absurd published (Nat.not_lt_zero _)

theorem Holds.publish {ring : Ring slots} {history : List (List UInt8)}
    (holds : ring.Holds history) {frame : List UInt8} {len : UInt32}
    (sized : len.toNat = frame.length) (room : history.length + 1 < 2 ^ 64) :
    (ring.publish frame len).Holds (history ++ [frame]) := by
  have nextIndex : (ring.writeIndex + 1).toNat = history.length + 1 := by
    rw [toNat_succ (by rwa [holds.edge]), holds.edge]
  refine ⟨?_, ?_, ?_⟩
  · rw [publish_writeIndex, nextIndex, List.length_append, List.length_singleton]
  · intro cell
    rw [publish_slotAt, List.length_append, List.length_singleton]
    by_cases same : cell = slots.slot ring.writeIndex
    · rw [if_pos same, same, SlotCount.val_slot, holds.edge, stamp_succ_self]
      exact nextIndex
    · have other : history.length % slots.size ≠ cell.val := by
        rw [← holds.edge, ← SlotCount.val_slot]
        exact fun eq => same (Fin.ext eq.symm)
      rw [if_neg same, stamp_succ_of_ne other]
      exact holds.stamped cell
  · intro cell number published stamped
    rw [List.length_append, List.length_singleton] at stamped
    rw [publish_slotAt]
    by_cases same : cell = slots.slot ring.writeIndex
    · rw [same, SlotCount.val_slot, holds.edge, stamp_succ_self] at stamped
      have last : number = history.length := by omega
      subst last
      rw [if_pos same, List.getElem_concat_length rfl]
      refine ⟨sized, ?_⟩
      intro offset inside
      simp [Slot.copyIn, sized, inside, List.getD_eq_getElem?_getD]
    · have other : history.length % slots.size ≠ cell.val := by
        rw [← holds.edge, ← SlotCount.val_slot]
        exact fun eq => same (Fin.ext eq.symm)
      rw [stamp_succ_of_ne other] at stamped
      have earlier : number < history.length := lt_of_stamp_eq stamped
      rw [if_neg same, List.getElem_append_left earlier]
      exact holds.carried cell number earlier stamped

def resultOf : Lookup (List UInt8) → ReadResult
  | .hit frame => .kOk (UInt32.ofNat frame.length) frame
  | .early => .kEmpty
  | .lapped resume => .kLapped (UInt64.ofNat resume) []

/-- An atomic read is a lookup in the retained part of the history. -/
theorem Holds.read {ring : Ring slots} {history : List (List UInt8)}
    (holds : ring.Holds history) (room : history.length < 2 ^ 64)
    {index : UInt64} (indexRoom : index.toNat + 1 < 2 ^ 64) :
    ring.read index = resultOf (lookup slots.size history index.toNat) := by
  have want := toNat_succ indexRoom
  have seq : (ring.slotAt (slots.slot index)).seq.toNat =
      stamp slots.size history.length (index.toNat % slots.size) := by
    rw [holds.stamped, SlotCount.val_slot]
  have seqLt : (ring.slotAt (slots.slot index)).seq < index + 1 ↔
      history.length ≤ index.toNat := by
    rw [UInt64.lt_iff_toNat_lt, seq, want, stamp_lt_iff slots.size_pos]
  have ltSeq : index + 1 < (ring.slotAt (slots.slot index)).seq ↔
      index.toNat + slots.size < history.length := by
    rw [UInt64.lt_iff_toNat_lt, seq, want, lt_stamp_iff slots.size_pos]
  unfold Ring.read
  by_cases early : history.length ≤ index.toNat
  · rw [lookup_eq_early_iff.mpr early]
    simp only [if_pos (seqLt.mpr early), resultOf]
  · have notEarly := mt seqLt.mp early
    by_cases lapped : index.toNat + slots.size < history.length
    · rw [lookup_eq_lapped_iff.mpr ⟨lapped, rfl⟩]
      simp only [if_neg notEarly, if_pos (ltSeq.mpr lapped), resultOf]
      congr 1
      apply UInt64.toNat_inj.mp
      rw [toNat_resumePoint, liveEdge, holds.edge,
        UInt64.toNat_ofNat_of_lt' (show _ < 2 ^ 64 by omega)]
    · have published : index.toNat < history.length := by omega
      have held : stamp slots.size history.length (index.toNat % slots.size) =
          index.toNat + 1 :=
        (stamp_eq_iff slots.size_pos).mpr ⟨published, by omega⟩
      have same : (ring.slotAt (slots.slot index)).seq = index + 1 := by
        apply UInt64.toNat_inj.mp
        rw [seq, want, held]
      have carries := holds.carried (slots.slot index) index.toNat published
        (by rw [SlotCount.val_slot]; exact held)
      rw [lookup_eq_hit_iff.mpr
        ⟨List.getElem?_eq_getElem published, by omega⟩]
      simp only [same, UInt64.lt_irrefl, ne_eq, not_true_eq_false, if_false, resultOf,
        carries.copyOut]
      rw [carries.frameLen_eq]

/-- An atomic read takes a follower of the history on, or leaves it where it is. -/
theorem Holds.read_of_follows {ring : Ring slots} {history seen : List (List UInt8)}
    (holds : ring.Holds history) (room : history.length < 2 ^ 64 - 1) {index : UInt64}
    (follows : Follows history index.toNat seen) :
    ring.read index = .kEmpty ∨
    (∃ resume, ring.read index = .kLapped resume [] ∧ Follows history resume.toNat seen) ∨
    (∃ frame ∈ history, ring.read index = .kOk (UInt32.ofNat frame.length) frame ∧
      Follows history (index + 1).toNat (seen ++ [frame])) := by
  have bound := follows.bound
  have indexRoom : index.toNat + 1 < 2 ^ 64 := by omega
  have read : ring.read index = _ := holds.read (by omega) indexRoom
  cases found : lookup slots.size history index.toNat with
  | early =>
      rw [found] at read
      exact .inl read
  | lapped resume =>
      have followed := follows.lapped found
      have inside := followed.bound
      rw [found] at read
      refine .inr (.inl ⟨_, read, ?_⟩)
      rwa [UInt64.toNat_ofNat_of_lt' (show _ < 2 ^ 64 by omega)]
  | hit frame =>
      rw [found] at read
      refine .inr (.inr ⟨frame, ?_, read, ?_⟩)
      · exact List.mem_of_getElem? (lookup_eq_hit_iff.mp found).1
      · rw [toNat_succ indexRoom]
        exact follows.hit found

/-- An atomic read moves a reader on to the next entry, past skipped ones, or not. -/
theorem Holds.read_of_covers {ring : Ring slots} {history seen : List (List UInt8)}
    {entered skipped : Nat} (holds : ring.Holds history) (room : history.length < 2 ^ 64 - 1)
    {index : UInt64} (covers : Covers history entered index.toNat seen skipped) :
    ring.read index = .kEmpty ∨
    (∃ resume, ring.read index = .kLapped resume [] ∧ index < resume ∧
      Covers history entered resume.toNat seen (skipped + (resume.toNat - index.toNat))) ∨
    (∃ frame ∈ history, ring.read index = .kOk (UInt32.ofNat frame.length) frame ∧
      Covers history entered (index + 1).toNat (seen ++ [frame]) skipped) := by
  have bound := covers.bound
  have indexRoom : index.toNat + 1 < 2 ^ 64 := by omega
  have read : ring.read index = _ := holds.read (by omega) indexRoom
  cases found : lookup slots.size history index.toNat with
  | early =>
      rw [found] at read
      exact .inl read
  | lapped resume =>
      have covered := covers.lapped found
      have beyond := (lookup_eq_lapped_iff.mp found).1
      have target := (lookup_eq_lapped_iff.mp found).2
      have back : (UInt64.ofNat resume).toNat = resume :=
        UInt64.toNat_ofNat_of_lt' (show _ < 2 ^ 64 by omega)
      rw [found] at read
      refine .inr (.inl ⟨_, read, ?_, ?_⟩)
      · rw [UInt64.lt_iff_toNat_lt, back]
        omega
      · rwa [back]
  | hit frame =>
      rw [found] at read
      refine .inr (.inr ⟨frame, ?_, read, ?_⟩)
      · exact List.mem_of_getElem? (lookup_eq_hit_iff.mp found).1
      · rw [toNat_succ indexRoom]
        exact covers.hit found

section ReadCases

variable {ring : Ring slots} {history : List (List UInt8)} (index : UInt64)

theorem Holds.read_early (holds : ring.Holds history) (room : history.length < 2 ^ 64)
    (indexRoom : index.toNat + 1 < 2 ^ 64) (early : history.length ≤ index.toNat) :
    ring.read index = .kEmpty := by
  rw [holds.read room indexRoom, lookup_eq_early_iff.mpr early]
  rfl

theorem Holds.read_recent (holds : ring.Holds history) (room : history.length < 2 ^ 64)
    (indexRoom : index.toNat + 1 < 2 ^ 64) (published : index.toNat < history.length)
    (recent : history.length ≤ index.toNat + slots.size) :
    ring.read index =
      .kOk (UInt32.ofNat history[index.toNat].length) history[index.toNat] := by
  rw [holds.read room indexRoom,
    lookup_eq_hit_iff.mpr ⟨List.getElem?_eq_getElem published, recent⟩]
  rfl

theorem Holds.read_lapped (holds : ring.Holds history) (room : history.length < 2 ^ 64)
    (indexRoom : index.toNat + 1 < 2 ^ 64)
    (lapped : index.toNat + slots.size < history.length) :
    ring.read index = .kLapped (UInt64.ofNat (history.length - slots.size)) [] := by
  rw [holds.read room indexRoom, lookup_eq_lapped_iff.mpr ⟨lapped, rfl⟩]
  rfl

end ReadCases

def publishAll (ring : Ring slots) (frames : List (Frame profile)) : Ring slots :=
  frames.foldl (fun ring frame => ring.publish frame.bytes frame.len) ring

theorem Holds.publishAll {ring : Ring slots} {history : List (List UInt8)}
    (holds : ring.Holds history) (frames : List (Frame profile))
    (room : history.length + frames.length < 2 ^ 64) :
    (ring.publishAll frames).Holds (history ++ frames.map Frame.bytes) := by
  induction frames generalizing ring history with
  | nil => simpa [Ring.publishAll] using holds
  | cons frame rest ih =>
      rw [List.length_cons] at room
      have next := holds.publish frame.toNat_len (by omega)
      have all := ih next (by
        rw [List.length_append, List.length_singleton]
        omega)
      simpa [Ring.publishAll] using all

/-- The ring refines its publication history, whatever the mapped memory held
before the producer attached. -/
theorem read_refines_history (memory : Ring slots) (frames : List (Frame profile))
    (index : UInt64) (publishes : frames.length < 2 ^ 64 - slots.size)
    (readable : index.toNat < 2 ^ 64 - slots.size) :
    let ring := ((memory.attach true).publishAll frames).attach false
    ((ring.read index).status = .kOk ↔
      index.toNat < frames.length ∧ frames.length ≤ index.toNat + slots.size) ∧
    (∀ outLen out, ring.read index = .kOk outLen out →
      ∃ frame, frames[index.toNat]? = some frame ∧
        outLen = frame.len ∧ out = frame.bytes) ∧
    ((ring.read index).status = .kEmpty ↔ frames.length ≤ index.toNat) ∧
    ((ring.read index).status = .kLapped ↔ index.toNat + slots.size < frames.length) ∧
    (index.toNat + slots.size < frames.length →
      ∃ resumeAt, ring.read index = .kLapped resumeAt [] ∧
        resumeAt.toNat = frames.length - slots.size ∧ index < resumeAt ∧
        ∃ frame, frames[frames.length - slots.size]? = some frame ∧
          ring.read resumeAt = .kOk frame.len frame.bytes) := by
  intro ring
  have positive := slots.size_pos
  have holds : ring.Holds (frames.map Frame.bytes) := by
    have all := (holds_attach memory).publishAll frames (by
      rw [List.length_nil]
      omega)
    simpa [ring] using all
  have length : (frames.map Frame.bytes).length = frames.length := List.length_map _
  have room : (frames.map Frame.bytes).length < 2 ^ 64 := by omega
  rcases Nat.lt_or_ge index.toNat frames.length with published | early
  · by_cases lapped : index.toNat + slots.size < frames.length
    · have here := holds.read_lapped index room (by omega) (by omega)
      have inside : frames.length - slots.size < frames.length := by omega
      have target : (UInt64.ofNat (frames.length - slots.size)).toNat =
          frames.length - slots.size := UInt64.toNat_ofNat_of_lt' (show _ < 2 ^ 64 by omega)
      have there := holds.read_recent
        (UInt64.ofNat (frames.length - slots.size)) room (by omega) (by omega) (by omega)
      simp only [target, List.getElem_map] at there
      simp only [here, length, ReadResult.status]
      refine ⟨by simp; omega, by simp, by simp; omega, by simp [lapped], ?_⟩
      intro _
      refine ⟨_, rfl, target, ?_, _, List.getElem?_eq_getElem inside, there⟩
      rw [UInt64.lt_iff_toNat_lt, target]
      omega
    · have here := holds.read_recent index room (by omega) (by omega) (by omega)
      simp only [List.getElem_map] at here
      simp only [here, ReadResult.status]
      refine ⟨by simp; omega, ?_, by simp; omega, by simp; omega, ?_⟩
      · intro outLen out same
        obtain ⟨rfl, rfl⟩ := ReadResult.kOk.inj same
        exact ⟨_, List.getElem?_eq_getElem published, rfl, rfl⟩
      · intro beyond
        exact absurd beyond lapped
  · have here := holds.read_early index room (by omega) (by omega)
    simp only [here, ReadResult.status]
    refine ⟨by simp; omega, by simp, by simp [early], by simp; omega, ?_⟩
    intro beyond
    omega

theorem read_refines_history_lapping :
    let slots : SlotCount := ⟨4, 2, by decide⟩
    let memory : Ring slots := ⟨77, fun _ => ⟨3, 9, fun _ => 0xAA⟩⟩
    let frames : List (Frame .raw) :=
      (List.range 10).map fun i =>
        ⟨List.replicate 8 (UInt8.ofNat i), by rw [List.length_replicate]; decide⟩
    ((((memory.attach true).publishAll frames).attach false).read 0).status = .kLapped := by
  intro slots memory frames
  exact (read_refines_history memory frames 0 (by decide) (by decide)).2.2.2.1.mpr
    (by decide)

end Ring

end Lldt.Shm
