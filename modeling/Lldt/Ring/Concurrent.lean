import Lldt.Data.Transition
import Lldt.Ring.History
import Mathlib.Data.Finset.Basic
import Mathlib.Data.Finset.Range

namespace Lldt.Shm

open Lldt.Data.Bytes
open Lldt.Data.Cyclic
open Lldt.Msg

/-! `publish` and `read` taken apart into their single loads and stores.  The
two processes interleave at these steps; memory is sequentially consistent.  A
`memcpy` moves its bytes one by one in any order. -/

inductive PublishPc (profile : Profile) where
  | idle
  | storeLen (idx : UInt64) (frame : Frame profile)
  | copy (idx : UInt64) (frame : Frame profile) (todo : Finset Nat)
  | storeIndex (idx : UInt64)

inductive PublishAct (profile : Profile) where
  | call (frame : Frame profile)
  | storeLen
  | storeByte (offset : Nat)
  | storeSeq
  | storeIndex

inductive ReadPc where
  | idle
  | loadLen (index : UInt64)
  | copy (index : UInt64) (len : UInt32) (out : Nat → UInt8) (todo : Finset Nat)
  | loadEdge (index : UInt64) (out : List UInt8)

inductive ReadAct where
  | loadSeq (index : UInt64)
  | loadLen
  | loadByte (offset : Nat)
  | reloadSeq
  | loadEdge

inductive Location where
  | frameLen
  | byte (offset : Nat)
  deriving DecidableEq, Repr

def ReadPc.loads : ReadPc → ReadAct → Option (UInt64 × Location)
  | .loadLen index, .loadLen => some (index, .frameLen)
  | .copy index _ _ _, .loadByte offset => some (index, .byte offset)
  | _, _ => none

def Location.Stored {profile : Profile} (frame : Frame profile) (todo : Finset Nat) :
    Location → Prop
  | .frameLen => True
  | .byte offset => offset < frame.bytes.length ∧ offset ∉ todo

instance {profile : Profile} (frame : Frame profile) (todo : Finset Nat) :
    DecidablePred (Location.Stored frame todo)
  | .frameLen => inferInstanceAs (Decidable True)
  | .byte offset => inferInstanceAs (Decidable (offset < frame.bytes.length ∧ offset ∉ todo))

def PublishPc.Rewrote {profile : Profile} {slots : SlotCount} (cell : Fin slots.size)
    (location : Location) : PublishPc profile → Prop
  | .copy idx frame todo => slots.slot idx = cell ∧ location.Stored frame todo
  | _ => False

instance {profile : Profile} {slots : SlotCount} (cell : Fin slots.size)
    (location : Location) : DecidablePred fun pc : PublishPc profile => pc.Rewrote cell location
  | .copy idx frame todo =>
      inferInstanceAs (Decidable (slots.slot idx = cell ∧ location.Stored frame todo))
  | .idle | .storeLen _ _ | .storeIndex _ => inferInstanceAs (Decidable False)

/-- The shared region, the producer working on it, the frames passed to its
`publish` calls so far and the number of slot sequences it has stored. -/
structure Shared (profile : Profile) (slots : SlotCount) where
  ring : Ring slots
  pc : PublishPc profile
  calls : List (Frame profile)
  seqStores : Nat

variable {profile : Profile} {slots : SlotCount}

namespace Shared

def start (memory : Ring slots) : Shared profile slots where
  ring := memory.attach true
  pc := .idle
  calls := []
  seqStores := 0

def step (shared : Shared profile slots) (act : PublishAct profile) :
    Option (Shared profile slots) :=
  match shared.pc, act with
  | .idle, .call frame => some { shared with
      pc := .storeLen shared.ring.writeIndex frame
      calls := shared.calls ++ [frame] }
  | .storeLen idx frame, .storeLen => some { shared with
      ring := shared.ring.modifySlot (slots.slot idx) fun slot =>
        { slot with frameLen := frame.len }
      pc := .copy idx frame (Finset.range frame.bytes.length) }
  | .copy idx frame todo, .storeByte offset =>
      if offset ∈ todo then some { shared with
        ring := shared.ring.modifySlot (slots.slot idx) fun slot =>
          slot.storeByte offset (frame.bytes.getD offset 0)
        pc := .copy idx frame (todo.erase offset) }
      else none
  | .copy idx _ todo, .storeSeq =>
      if todo = ∅ then some { shared with
        ring := shared.ring.modifySlot (slots.slot idx) fun slot =>
          { slot with seq := idx + 1 }
        pc := .storeIndex idx
        seqStores := shared.seqStores + 1 }
      else none
  | .storeIndex idx, .storeIndex => some { shared with
      ring := { shared.ring with writeIndex := idx + 1 }
      pc := .idle }
  | _, _ => none

end Shared

namespace ReadPc

/-- One load of `read`; where the call returns, its index and its result. -/
def step (ring : Ring slots) (pc : ReadPc) (act : ReadAct) :
    Option (ReadPc × Option (UInt64 × ReadResult)) :=
  match pc, act with
  | .idle, .loadSeq index =>
      let seq := (ring.slotAt (slots.slot index)).seq
      let want := index + 1
      if seq < want then some (.idle, some (index, .kEmpty))
      else if want < seq then some (.loadEdge index [], none)
      else some (.loadLen index, none)
  | .loadLen index, .loadLen =>
      let len := (ring.slotAt (slots.slot index)).frameLen
      some (.copy index len (fun _ => 0) (Finset.range len.toNat), none)
  | .copy index len out todo, .loadByte offset =>
      if offset ∈ todo then
        let byte := (ring.slotAt (slots.slot index)).frame offset
        some (.copy index len (Function.update out offset byte) (todo.erase offset), none)
      else none
  | .copy index len out todo, .reloadSeq =>
      if todo = ∅ then
        let copied := (List.range len.toNat).map out
        if (ring.slotAt (slots.slot index)).seq ≠ index + 1 then
          some (.loadEdge index copied, none)
        else some (.idle, some (index, .kOk len copied))
      else none
  | .loadEdge index out, .loadEdge =>
      some (.idle, some (index, .kLapped (Ring.resumePoint slots ring.liveEdge) out))
  | _, _ => none

end ReadPc

/-! What a load can do. -/

theorem ReadPc.step_cases {ring : Ring slots} {pc next : ReadPc} {act : ReadAct}
    {returned : Option (UInt64 × ReadResult)}
    (stepped : pc.step ring act = some (next, returned)) :
    (∃ index, pc = .idle ∧ (ring.slotAt (slots.slot index)).seq < index + 1 ∧
      act = .loadSeq index ∧ next = .idle ∧ returned = some (index, .kEmpty)) ∨
    (∃ index, pc = .idle ∧ index + 1 < (ring.slotAt (slots.slot index)).seq ∧
      act = .loadSeq index ∧ next = .loadEdge index [] ∧ returned = none) ∨
    (∃ index, pc = .idle ∧ (ring.slotAt (slots.slot index)).seq = index + 1 ∧
      act = .loadSeq index ∧ next = .loadLen index ∧ returned = none) ∨
    (∃ index, pc = .loadLen index ∧ act = .loadLen ∧
      next = .copy index (ring.slotAt (slots.slot index)).frameLen (fun _ => 0)
        (Finset.range (ring.slotAt (slots.slot index)).frameLen.toNat) ∧
      returned = none) ∨
    (∃ index len out todo offset, pc = .copy index len out todo ∧ offset ∈ todo ∧
      act = .loadByte offset ∧
      next = .copy index len
        (Function.update out offset ((ring.slotAt (slots.slot index)).frame offset))
        (todo.erase offset) ∧
      returned = none) ∨
    (∃ index len out, pc = .copy index len out ∅ ∧ act = .reloadSeq ∧
      (ring.slotAt (slots.slot index)).seq ≠ index + 1 ∧
      next = .loadEdge index ((List.range len.toNat).map out) ∧ returned = none) ∨
    (∃ index len out, pc = .copy index len out ∅ ∧ act = .reloadSeq ∧
      (ring.slotAt (slots.slot index)).seq = index + 1 ∧
      next = .idle ∧
      returned = some (index, .kOk len ((List.range len.toNat).map out))) ∨
    (∃ index out, pc = .loadEdge index out ∧ act = .loadEdge ∧ next = .idle ∧
      returned = some
        (index, .kLapped (Ring.resumePoint slots ring.liveEdge) out)) := by
  unfold step at stepped
  split at stepped
  · rename_i index
    dsimp only at stepped
    split at stepped
    · rename_i early
      cases stepped
      exact .inl ⟨index, rfl, early, rfl, rfl, rfl⟩
    · rename_i notEarly
      split at stepped
      · rename_i late
        cases stepped
        exact .inr (.inl ⟨index, rfl, late, rfl, rfl, rfl⟩)
      · rename_i notLate
        cases stepped
        have same := UInt64.le_antisymm (UInt64.not_lt.mp notLate) (UInt64.not_lt.mp notEarly)
        exact .inr (.inr (.inl ⟨index, rfl, same, rfl, rfl, rfl⟩))
  · rename_i index
    cases stepped
    exact .inr (.inr (.inr (.inl ⟨index, rfl, rfl, rfl, rfl⟩)))
  · rename_i index len out todo offset
    split at stepped
    · rename_i member
      cases stepped
      exact .inr (.inr (.inr (.inr (.inl
        ⟨index, len, out, todo, offset, rfl, member, rfl, rfl, rfl⟩))))
    · contradiction
  · rename_i index len out todo
    split at stepped
    · rename_i done
      subst done
      dsimp only at stepped
      split at stepped
      · rename_i changed
        cases stepped
        exact .inr (.inr (.inr (.inr (.inr (.inl
          ⟨index, len, out, rfl, rfl, changed, rfl, rfl⟩)))))
      · rename_i same
        cases stepped
        exact .inr (.inr (.inr (.inr (.inr (.inr (.inl
          ⟨index, len, out, rfl, rfl, not_not.mp same, rfl, rfl⟩))))))
    · contradiction
  · rename_i index out
    cases stepped
    exact .inr (.inr (.inr (.inr (.inr (.inr (.inr ⟨index, out, rfl, rfl, rfl, rfl⟩))))))
  · contradiction

/-! What a publish step can do. -/

namespace Shared

theorem step_cases {shared next : Shared profile slots} {act : PublishAct profile}
    (stepped : shared.step act = some next) :
    (∃ frame, shared.pc = .idle ∧
      next = { shared with
        pc := .storeLen shared.ring.writeIndex frame
        calls := shared.calls ++ [frame] }) ∨
    (∃ idx frame, shared.pc = .storeLen idx frame ∧
      next = { shared with
        ring := shared.ring.modifySlot (slots.slot idx) fun slot =>
          { slot with frameLen := frame.len }
        pc := .copy idx frame (Finset.range frame.bytes.length) }) ∨
    (∃ idx frame todo offset, shared.pc = .copy idx frame todo ∧ offset ∈ todo ∧
      next = { shared with
        ring := shared.ring.modifySlot (slots.slot idx) fun slot =>
          slot.storeByte offset (frame.bytes.getD offset 0)
        pc := .copy idx frame (todo.erase offset) }) ∨
    (∃ idx frame, shared.pc = .copy idx frame ∅ ∧
      next = { shared with
        ring := shared.ring.modifySlot (slots.slot idx) fun slot =>
          { slot with seq := idx + 1 }
        pc := .storeIndex idx
        seqStores := shared.seqStores + 1 }) ∨
    (∃ idx, shared.pc = .storeIndex idx ∧
      next = { shared with
        ring := { shared.ring with writeIndex := idx + 1 }
        pc := .idle }) := by
  unfold step at stepped
  split at stepped
  · rename_i frame pc
    exact .inl ⟨frame, pc, (Option.some.inj stepped).symm⟩
  · rename_i idx frame pc
    exact .inr (.inl ⟨idx, frame, pc, (Option.some.inj stepped).symm⟩)
  · rename_i idx frame todo offset pc
    split at stepped
    · rename_i member
      exact .inr (.inr (.inl
        ⟨idx, frame, todo, offset, pc, member, (Option.some.inj stepped).symm⟩))
    · contradiction
  · rename_i idx frame todo pc
    split at stepped
    · rename_i done
      subst done
      exact .inr (.inr (.inr (.inl ⟨idx, frame, pc, (Option.some.inj stepped).symm⟩)))
    · contradiction
  · rename_i idx pc
    exact .inr (.inr (.inr (.inr ⟨idx, pc, (Option.some.inj stepped).symm⟩)))
  · contradiction

/-- The location already holds data of a publish in progress, while the slot
sequence is still that of the publication before it. -/
def Dirty (shared : Shared profile slots) (cell : Fin slots.size)
    (location : Location) : Prop :=
  shared.pc.Rewrote cell location

instance (shared : Shared profile slots) (cell : Fin slots.size) (location : Location) :
    Decidable (shared.Dirty cell location) :=
  inferInstanceAs (Decidable (shared.pc.Rewrote cell location))

def Stage (shared : Shared profile slots) : Prop :=
  match shared.pc with
  | .idle =>
      shared.calls.length = shared.seqStores ∧
        shared.ring.writeIndex.toNat = shared.seqStores
  | .storeLen idx frame =>
      shared.calls.length = shared.seqStores + 1 ∧
        shared.ring.writeIndex.toNat = shared.seqStores ∧
        idx = shared.ring.writeIndex ∧ shared.calls[shared.seqStores]? = some frame
  | .copy idx frame todo =>
      shared.calls.length = shared.seqStores + 1 ∧
        shared.ring.writeIndex.toNat = shared.seqStores ∧
        idx = shared.ring.writeIndex ∧ shared.calls[shared.seqStores]? = some frame ∧
        todo ⊆ Finset.range frame.bytes.length
  | .storeIndex idx =>
      shared.calls.length = shared.seqStores ∧
        shared.ring.writeIndex.toNat + 1 = shared.seqStores ∧
        idx = shared.ring.writeIndex

/-- The invariant of the shared region.  A clean location holds the data of the
publication the slot sequence names, a dirty one the data of the publish in
progress. -/
structure Inv (shared : Shared profile slots) : Prop where
  stage : shared.Stage
  stamped : ∀ cell, (shared.ring.slotAt cell).seq.toNat =
    stamp slots.size shared.seqStores cell.val
  cleanLen : ∀ {cell number frame},
    stamp slots.size shared.seqStores cell.val = number + 1 →
    shared.calls[number]? = some frame → ¬shared.Dirty cell .frameLen →
    (shared.ring.slotAt cell).frameLen = frame.len
  cleanByte : ∀ {cell number frame offset},
    stamp slots.size shared.seqStores cell.val = number + 1 →
    shared.calls[number]? = some frame → offset < frame.bytes.length →
    ¬shared.Dirty cell (.byte offset) →
    (shared.ring.slotAt cell).frame offset = frame.bytes.getD offset 0
  dirtyLen : ∀ {idx frame todo}, shared.pc = .copy idx frame todo →
    (shared.ring.slotAt (slots.slot idx)).frameLen = frame.len
  dirtyByte : ∀ {idx frame todo offset}, shared.pc = .copy idx frame todo →
    offset < frame.bytes.length → offset ∉ todo →
    (shared.ring.slotAt (slots.slot idx)).frame offset = frame.bytes.getD offset 0

theorem inv_start (memory : Ring slots) : (start memory : Shared profile slots).Inv where
  stage := ⟨rfl, rfl⟩
  stamped := fun _ => rfl
  cleanLen := fun stamped => absurd stamped (Nat.succ_ne_zero _).symm
  cleanByte := fun stamped => absurd stamped (Nat.succ_ne_zero _).symm
  dirtyLen := fun pc => nomatch pc
  dirtyByte := fun pc => nomatch pc

/-! The invariant is kept by each store. -/

section Preservation

variable {shared : Shared profile slots} {idx : UInt64} {frame : Frame profile}

theorem Inv.seqStores_le (inv : shared.Inv) : shared.seqStores ≤ shared.calls.length := by
  have stage := inv.stage
  unfold Stage at stage
  split at stage <;> omega

theorem not_dirty_of_idle (pc : shared.pc = .idle) (cell : Fin slots.size)
    (location : Location) : ¬shared.Dirty cell location := by
  simp [Dirty, pc, PublishPc.Rewrote]

theorem not_dirty_of_storeLen (pc : shared.pc = .storeLen idx frame)
    (cell : Fin slots.size) (location : Location) : ¬shared.Dirty cell location := by
  simp [Dirty, pc, PublishPc.Rewrote]

theorem Inv.call (inv : shared.Inv) (pc : shared.pc = .idle) (frame : Frame profile) :
    Inv { shared with
      pc := .storeLen shared.ring.writeIndex frame
      calls := shared.calls ++ [frame] } := by
  have stage := inv.stage
  simp only [Stage, pc] at stage
  obtain ⟨length, edge⟩ := stage
  have earlier {number : Nat} {found : Frame profile} {cell : Fin slots.size}
      (stamped : stamp slots.size shared.seqStores cell.val = number + 1)
      (called : (shared.calls ++ [frame])[number]? = some found) :
      shared.calls[number]? = some found := by
    have := lt_of_stamp_eq stamped
    rwa [List.getElem?_append_left (by omega)] at called
  refine ⟨?_, inv.stamped, ?_, ?_, nofun, nofun⟩
  · simp only [Stage, List.length_append, List.length_singleton]
    refine ⟨by omega, edge, trivial, ?_⟩
    rw [← length, List.getElem?_concat_length]
  · intro cell number found stamped called _
    exact inv.cleanLen stamped (earlier stamped called) (not_dirty_of_idle pc _ _)
  · intro cell number found offset stamped called inside _
    exact inv.cleanByte stamped (earlier stamped called) inside (not_dirty_of_idle pc _ _)

theorem Inv.storeLen (inv : shared.Inv) (pc : shared.pc = .storeLen idx frame) :
    Inv { shared with
      ring := shared.ring.modifySlot (slots.slot idx) fun slot =>
        { slot with frameLen := frame.len }
      pc := .copy idx frame (Finset.range frame.bytes.length) } := by
  have stage := inv.stage
  simp only [Stage, pc] at stage
  refine ⟨?_, ?_, ?_, ?_, ?_, ?_⟩
  · simp only [Stage, Ring.modifySlot_writeIndex]
    exact ⟨stage.1, stage.2.1, stage.2.2.1, stage.2.2.2, Finset.Subset.refl _⟩
  · intro cell
    by_cases same : cell = slots.slot idx
    · subst same
      simpa using inv.stamped (slots.slot idx)
    · simpa [Ring.modifySlot_of_ne _ _ same] using inv.stamped cell
  · intro cell number found stamped called clean
    have other : cell ≠ slots.slot idx := by
      rintro rfl
      exact clean ⟨rfl, trivial⟩
    rw [Ring.modifySlot_of_ne _ _ other]
    exact inv.cleanLen stamped called (not_dirty_of_storeLen pc _ _)
  · intro cell number found offset stamped called inside _
    have kept := inv.cleanByte stamped called inside (not_dirty_of_storeLen pc _ _)
    by_cases same : cell = slots.slot idx
    · subst same
      simpa using kept
    · simpa [Ring.modifySlot_of_ne _ _ same] using kept
  · intro idx' frame' todo' pc'
    cases pc'
    simp
  · intro idx' frame' todo' offset pc' inside notTodo
    cases pc'
    simp [inside] at notTodo

theorem Inv.storeByte (inv : shared.Inv) {todo : Finset Nat} {offset : Nat}
    (pc : shared.pc = .copy idx frame todo) (member : offset ∈ todo) :
    Inv { shared with
      ring := shared.ring.modifySlot (slots.slot idx) fun slot =>
        slot.storeByte offset (frame.bytes.getD offset 0)
      pc := .copy idx frame (todo.erase offset) } := by
  have stage := inv.stage
  simp only [Stage, pc] at stage
  obtain ⟨length, edge, loaded, called, within⟩ := stage
  have inRange : offset < frame.bytes.length := Finset.mem_range.mp (within member)
  refine ⟨?_, ?_, ?_, ?_, ?_, ?_⟩
  · simp only [Stage, Ring.modifySlot_writeIndex]
    exact ⟨length, edge, loaded, called, (Finset.erase_subset _ _).trans within⟩
  · intro cell
    by_cases same : cell = slots.slot idx
    · subst same
      simpa [Slot.storeByte] using inv.stamped (slots.slot idx)
    · simpa [Ring.modifySlot_of_ne _ _ same] using inv.stamped cell
  · intro cell number found stamped published clean
    have other : cell ≠ slots.slot idx := by
      rintro rfl
      exact clean ⟨rfl, trivial⟩
    rw [Ring.modifySlot_of_ne _ _ other]
    refine inv.cleanLen stamped published ?_
    simp only [Dirty, pc, PublishPc.Rewrote, Location.Stored]
    exact fun dirty => other dirty.1.symm
  · intro cell number found at_ stamped published inside clean
    by_cases same : cell = slots.slot idx
    · subst same
      -- a clean byte of the slot is still to be copied, so it is not this one
      have distinct : at_ ≠ offset := by
        rintro rfl
        exact clean ⟨rfl, inRange, by simp⟩
      have before : ¬shared.Dirty (slots.slot idx) (.byte at_) := by
        simp only [Dirty, pc, PublishPc.Rewrote, Location.Stored]
        rintro ⟨-, below, notTodo⟩
        exact clean ⟨rfl, below, fun still => notTodo (Finset.mem_of_mem_erase still)⟩
      have kept := inv.cleanByte stamped published inside before
      simpa [Slot.storeByte, Function.update_of_ne distinct] using kept
    · rw [Ring.modifySlot_of_ne _ _ same]
      refine inv.cleanByte stamped published inside ?_
      simp only [Dirty, pc, PublishPc.Rewrote, Location.Stored]
      exact fun dirty => same dirty.1.symm
  · intro idx' frame' todo' pc'
    cases pc'
    simpa [Slot.storeByte] using inv.dirtyLen pc
  · intro idx' frame' todo' at_ pc' inside notTodo
    cases pc'
    by_cases here : at_ = offset
    · subst here
      simp [Slot.storeByte]
    · have done : at_ ∉ todo := fun still => notTodo (Finset.mem_erase.mpr ⟨here, still⟩)
      simpa [Slot.storeByte, Function.update_of_ne here] using
        inv.dirtyByte pc inside done

theorem Inv.storeSeq (inv : shared.Inv) (pc : shared.pc = .copy idx frame ∅)
    (room : shared.calls.length < 2 ^ 64) :
    Inv { shared with
      ring := shared.ring.modifySlot (slots.slot idx) fun slot =>
        { slot with seq := idx + 1 }
      pc := .storeIndex idx
      seqStores := shared.seqStores + 1 } := by
  have stage := inv.stage
  simp only [Stage, pc] at stage
  obtain ⟨length, edge, loaded, called, -⟩ := stage
  have cellOf : (slots.slot idx).val = shared.seqStores % slots.size := by
    rw [SlotCount.val_slot, loaded, edge]
  have next : (idx + 1).toNat = shared.seqStores + 1 := by
    rw [toNat_succ (by rw [loaded]; omega), loaded, edge]
  have otherCell {cell : Fin slots.size} (ne : cell ≠ slots.slot idx) :
      shared.seqStores % slots.size ≠ cell.val := by
    rw [← cellOf]
    exact fun eq => ne (Fin.ext eq.symm)
  have cleanBefore {cell : Fin slots.size} (ne : cell ≠ slots.slot idx)
      (location : Location) : ¬shared.Dirty cell location := by
    simp only [Dirty, pc, PublishPc.Rewrote, Location.Stored]
    exact fun dirty => ne dirty.1.symm
  have stored {number : Nat} {found : Frame profile}
      (stamped : stamp slots.size (shared.seqStores + 1) (slots.slot idx).val = number + 1)
      (published : shared.calls[number]? = some found) : frame = found := by
    rw [cellOf, stamp_succ_self, Nat.succ_inj] at stamped
    rw [← stamped, called] at published
    exact Option.some.inj published
  refine ⟨?_, ?_, ?_, ?_, nofun, nofun⟩
  · simp only [Stage, Ring.modifySlot_writeIndex]
    exact ⟨length, by omega, loaded⟩
  · intro cell
    by_cases same : cell = slots.slot idx
    · subst same
      simp only [Ring.modifySlot_self, cellOf, stamp_succ_self]
      exact next
    · simp only [Ring.modifySlot_of_ne _ _ same, stamp_succ_of_ne (otherCell same)]
      exact inv.stamped cell
  · intro cell number found stamped published _
    by_cases same : cell = slots.slot idx
    · subst same
      rw [← stored stamped published]
      simpa using inv.dirtyLen pc
    · rw [stamp_succ_of_ne (otherCell same)] at stamped
      rw [Ring.modifySlot_of_ne _ _ same]
      exact inv.cleanLen stamped published (cleanBefore same _)
  · intro cell number found offset stamped published inside _
    by_cases same : cell = slots.slot idx
    · subst same
      obtain rfl := stored stamped published
      simpa using inv.dirtyByte pc inside (Finset.notMem_empty _)
    · rw [stamp_succ_of_ne (otherCell same)] at stamped
      rw [Ring.modifySlot_of_ne _ _ same]
      exact inv.cleanByte stamped published inside (cleanBefore same _)

theorem Inv.storeIndex (inv : shared.Inv) (pc : shared.pc = .storeIndex idx)
    (room : shared.calls.length < 2 ^ 64) :
    Inv { shared with
      ring := { shared.ring with writeIndex := idx + 1 }
      pc := .idle } := by
  have stage := inv.stage
  simp only [Stage, pc] at stage
  obtain ⟨length, edge, loaded⟩ := stage
  have cleanBefore (cell : Fin slots.size) (location : Location) :
      ¬shared.Dirty cell location := by
    simp [Dirty, pc, PublishPc.Rewrote]
  refine ⟨⟨length, ?_⟩, inv.stamped, ?_, ?_, nofun, nofun⟩
  · simp only
    rw [toNat_succ (by rw [loaded]; omega), loaded, edge]
  · intro cell number found stamped published _
    exact inv.cleanLen stamped published (cleanBefore _ _)
  · intro cell number found offset stamped published inside _
    exact inv.cleanByte stamped published inside (cleanBefore _ _)

end Preservation

theorem Inv.step {shared next : Shared profile slots} {act : PublishAct profile}
    (inv : shared.Inv) (stepped : shared.step act = some next)
    (room : next.calls.length < 2 ^ 64) : next.Inv := by
  obtain ⟨frame, pc, rfl⟩ | ⟨idx, frame, pc, rfl⟩ |
    ⟨idx, frame, todo, offset, pc, member, rfl⟩ | ⟨idx, frame, pc, rfl⟩ |
    ⟨idx, pc, rfl⟩ := step_cases stepped
  · exact inv.call pc frame
  · exact inv.storeLen pc
  · exact inv.storeByte pc member
  · exact inv.storeSeq pc room
  · exact inv.storeIndex pc room

/-! What a publish step leaves in place. -/

theorem step_calls {shared next : Shared profile slots} {act : PublishAct profile}
    (stepped : shared.step act = some next) : shared.calls <+: next.calls := by
  obtain ⟨frame, pc, rfl⟩ | ⟨idx, frame, pc, rfl⟩ |
    ⟨idx, frame, todo, offset, pc, member, rfl⟩ | ⟨idx, frame, pc, rfl⟩ |
    ⟨idx, pc, rfl⟩ := step_cases stepped
  · exact List.prefix_append _ _
  all_goals exact List.prefix_refl _

theorem step_seqStores {shared next : Shared profile slots} {act : PublishAct profile}
    (stepped : shared.step act = some next) : shared.seqStores ≤ next.seqStores := by
  obtain ⟨frame, pc, rfl⟩ | ⟨idx, frame, pc, rfl⟩ |
    ⟨idx, frame, todo, offset, pc, member, rfl⟩ | ⟨idx, frame, pc, rfl⟩ |
    ⟨idx, pc, rfl⟩ := step_cases stepped
  case inr.inr.inr.inl => exact Nat.le_succ _
  all_goals exact Nat.le_refl _

/-! What a reader learns from a slot sequence. -/

theorem Inv.seq_lt_iff {shared : Shared profile slots} (inv : shared.Inv) {index : UInt64}
    (noWrap : index.toNat + 1 < 2 ^ 64) :
    (shared.ring.slotAt (slots.slot index)).seq < index + 1 ↔
      shared.seqStores ≤ index.toNat := by
  rw [UInt64.lt_iff_toNat_lt, inv.stamped, SlotCount.val_slot, toNat_succ noWrap,
    stamp_lt_iff slots.size_pos]

theorem Inv.lt_seq_iff {shared : Shared profile slots} (inv : shared.Inv) {index : UInt64}
    (noWrap : index.toNat + 1 < 2 ^ 64) :
    index + 1 < (shared.ring.slotAt (slots.slot index)).seq ↔
      index.toNat + slots.size < shared.seqStores := by
  rw [UInt64.lt_iff_toNat_lt, inv.stamped, SlotCount.val_slot, toNat_succ noWrap,
    lt_stamp_iff slots.size_pos]

theorem Inv.writeIndex_bounds {shared : Shared profile slots} (inv : shared.Inv) :
    shared.ring.writeIndex.toNat ≤ shared.seqStores ∧
      shared.seqStores ≤ shared.ring.writeIndex.toNat + 1 := by
  have stage := inv.stage
  unfold Stage at stage
  split at stage <;> omega

theorem Inv.seq_mono {shared next : Shared profile slots} {act : PublishAct profile}
    (inv : shared.Inv) (stepped : shared.step act = some next)
    (room : next.calls.length < 2 ^ 64) (cell : Fin slots.size) :
    (shared.ring.slotAt cell).seq ≤ (next.ring.slotAt cell).seq := by
  rw [UInt64.le_iff_toNat_le, inv.stamped, (inv.step stepped room).stamped]
  exact stamp_mono (step_seqStores stepped)

end Shared

end Lldt.Shm
