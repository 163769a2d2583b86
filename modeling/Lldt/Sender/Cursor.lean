import Lldt.Ring.TornRead
import Lldt.Sender.Reader

namespace Lldt.Transport

open Lldt.Data.Bytes
open Lldt.Data.Transition
open Lldt.Msg
open Lldt.Shm

/-! The read cursor of `SenderShmReader` against a producer that moves between
any two of its loads. -/

/-- The shared region, where the reader stands inside `ring_.read`, the reader
once it is constructed, its starting index and the indices delivered so far. -/
structure Following (profile : Profile) (slots : SlotCount) where
  shared : Shared profile slots
  pc : ReadPc
  reader : Option SenderShmReader
  start : UInt64
  delivered : List UInt64

inductive FollowAct (profile : Profile) where
  | publish (act : PublishAct profile)
  | attach
  | read (load : ReadAct)

def ReadAct.At (reader : SenderShmReader) : ReadAct → Prop
  | .loadSeq index => index = reader.readIndex
  | _ => True

instance (reader : SenderShmReader) : DecidablePred (ReadAct.At reader)
  | .loadSeq index => inferInstanceAs (Decidable (index = reader.readIndex))
  | .loadLen | .loadByte _ | .reloadSeq | .loadEdge => .isTrue trivial

namespace Following

variable {profile : Profile} {slots : SlotCount}

def begin_ (memory : Ring slots) : Following profile slots where
  shared := .start memory
  pc := .idle
  reader := none
  start := 0
  delivered := []

/-- The end of one load: where `ring_.read` returns, `try_read` takes over. -/
def loaded (state : Following profile slots) (reader : SenderShmReader) (pc : ReadPc) :
    Option (UInt64 × ReadResult) → Following profile slots
  | none => { state with pc := pc }
  | some (index, result) => { state with
      pc := pc
      reader := some (reader.tryRead profile result).2
      delivered :=
        match result.status with
        | .kOk => state.delivered ++ [index]
        | _ => state.delivered }

def step (state : Following profile slots) (act : FollowAct profile) :
    Option (Following profile slots) :=
  match act, state.reader with
  | .publish act, _ =>
      (state.shared.step act).map fun shared => { state with shared := shared }
  | .attach, none => some { state with
      reader := some (.attached profile state.shared.ring.liveEdge)
      start := state.shared.ring.liveEdge }
  | .read load, some reader =>
      if ReadAct.At reader load then
        (state.pc.step state.shared.ring load).map fun (pc, result) =>
          state.loaded reader pc result
      else none
  | _, _ => none

def Step (state : Following profile slots) (act : FollowAct profile)
    (next : Following profile slots) : Prop :=
  state.step act = some next

def Returns (state : Following profile slots) (act : FollowAct profile)
    (result : ReadResult) : Prop :=
  ∃ load pc index, act = .read load ∧
    state.pc.step state.shared.ring load = some (pc, some (index, result))

theorem step_cases {state next : Following profile slots} {act : FollowAct profile}
    (stepped : Step state act next) :
    (∃ publish shared, act = .publish publish ∧ state.shared.step publish = some shared ∧
      next = { state with shared := shared }) ∨
    (act = .attach ∧ state.reader = none ∧ next = { state with
      reader := some (.attached profile state.shared.ring.liveEdge)
      start := state.shared.ring.liveEdge }) ∨
    (∃ load reader pc result, act = .read load ∧ state.reader = some reader ∧
      ReadAct.At reader load ∧
      state.pc.step state.shared.ring load = some (pc, result) ∧
      next = state.loaded reader pc result) := by
  unfold Step step at stepped
  split at stepped
  · rename_i publish
    obtain ⟨shared, moved, rfl⟩ := Option.map_eq_some_iff.mp stepped
    exact .inl ⟨publish, shared, rfl, moved, rfl⟩
  · rename_i absent
    exact .inr (.inl ⟨rfl, absent, (Option.some.inj stepped).symm⟩)
  · rename_i load reader present
    split at stepped
    · rename_i at_
      obtain ⟨⟨pc, result⟩, moved, rfl⟩ := Option.map_eq_some_iff.mp stepped
      exact .inr (.inr ⟨load, reader, pc, result, rfl, present, at_, moved, rfl⟩)
    · contradiction
  · contradiction

theorem step_calls {state next : Following profile slots} {act : FollowAct profile}
    (stepped : Step state act next) :
    state.shared.calls.length ≤ next.shared.calls.length := by
  obtain ⟨publish, shared, rfl, moved, rfl⟩ | ⟨rfl, absent, rfl⟩ |
    ⟨load, reader, pc, result, rfl, present, at_, moved, rfl⟩ := step_cases stepped
  · exact (Shared.step_calls moved).length_le
  · exact Nat.le_refl _
  · cases result <;> exact Nat.le_refl _

/-- What the loads made so far have established about the index being read. -/
def Checked (shared : Shared profile slots) (readIndex : UInt64) : ReadPc → Prop
  | .idle => True
  | .loadLen index | .copy index _ _ _ =>
      index = readIndex ∧ index + 1 ≤ (shared.ring.slotAt (slots.slot index)).seq
  | .loadEdge index _ =>
      index = readIndex ∧ index.toNat + slots.size < shared.seqStores

/-- The reader has not run past the stored sequences, its counters account for
every index between its start and its read index, and it delivered in order. -/
structure Sound (state : Following profile slots) (reader : SenderShmReader) : Prop where
  behind : reader.readIndex.toNat ≤ state.shared.seqStores
  checked : Checked state.shared reader.readIndex state.pc
  accounted : reader.readIndex.toNat = state.start.toNat +
    reader.counters.framesRead.toNat + reader.counters.lappedFramesSkipped.toNat
  ordered : state.delivered.Pairwise (· < ·)
  delivered : ∀ index ∈ state.delivered, index < reader.readIndex

structure Inv (state : Following profile slots) : Prop where
  shared : state.shared.Inv
  unattached : state.reader = none → state.pc = .idle ∧ state.delivered = []
  sound : ∀ reader, state.reader = some reader → state.Sound reader

theorem inv_begin (memory : Ring slots) : (begin_ memory : Following profile slots).Inv where
  shared := Shared.inv_start memory
  unattached := fun _ => ⟨rfl, rfl⟩
  sound := nofun

theorem Checked.publish {shared next : Shared profile slots} {act : PublishAct profile}
    {readIndex : UInt64} {pc : ReadPc} (checked : Checked shared readIndex pc)
    (inv : shared.Inv) (stepped : shared.step act = some next)
    (room : next.calls.length < 2 ^ 64) : Checked next readIndex pc := by
  cases pc with
  | idle => trivial
  | loadLen index => exact ⟨checked.1, UInt64.le_trans checked.2 (inv.seq_mono stepped room _)⟩
  | copy index len out todo =>
      exact ⟨checked.1, UInt64.le_trans checked.2 (inv.seq_mono stepped room _)⟩
  | loadEdge index out =>
      exact ⟨checked.1, Nat.lt_of_lt_of_le checked.2 (Shared.step_seqStores stepped)⟩

def Answers (shared : Shared profile slots) (readIndex : UInt64) : ReadResult → Prop
  | .kOk _ _ => readIndex.toNat < shared.seqStores
  | .kEmpty => shared.seqStores ≤ readIndex.toNat
  | .kLapped resumeAt _ =>
      readIndex.toNat + slots.size ≤ shared.ring.writeIndex.toNat ∧
        resumeAt.toNat = shared.ring.writeIndex.toNat - slots.size

theorem Checked.load {shared : Shared profile slots} {reader : SenderShmReader}
    {pc next : ReadPc} {load : ReadAct} {returned : Option (UInt64 × ReadResult)}
    (checked : Checked shared reader.readIndex pc) (inv : shared.Inv)
    (noWrap : reader.readIndex.toNat + 1 < 2 ^ 64) (at_ : ReadAct.At reader load)
    (stepped : pc.step shared.ring load = some (next, returned)) :
    match returned with
    | none => Checked shared reader.readIndex next
    | some (index, result) =>
        index = reader.readIndex ∧ next = .idle ∧ Answers shared reader.readIndex result := by
  obtain ⟨index, rfl, early, rfl, rfl, rfl⟩ | ⟨index, rfl, late, rfl, rfl, rfl⟩ |
    ⟨index, rfl, same, rfl, rfl, rfl⟩ | ⟨index, rfl, rfl, rfl, rfl⟩ |
    ⟨index, len, out, todo, offset, rfl, member, rfl, rfl, rfl⟩ |
    ⟨index, len, out, rfl, rfl, changed, rfl, rfl⟩ |
    ⟨index, len, out, rfl, rfl, same, rfl, rfl⟩ |
    ⟨index, out, rfl, rfl, rfl, rfl⟩ := ReadPc.step_cases stepped
  · cases at_
    exact ⟨rfl, rfl, (inv.seq_lt_iff noWrap).mp early⟩
  · cases at_
    exact ⟨rfl, (inv.lt_seq_iff noWrap).mp late⟩
  · cases at_
    exact ⟨rfl, UInt64.le_of_eq same.symm⟩
  · exact checked
  · exact checked
  · obtain ⟨rfl, reached⟩ := checked
    have overtaken := UInt64.lt_of_le_of_ne reached changed.symm
    exact ⟨rfl, (inv.lt_seq_iff noWrap).mp overtaken⟩
  · obtain ⟨rfl, -⟩ := checked
    have notEarly := mt (inv.seq_lt_iff noWrap).mpr (by
      rw [same]
      exact UInt64.lt_irrefl _)
    exact ⟨rfl, rfl, Nat.not_le.mp notEarly⟩
  · obtain ⟨rfl, beyond⟩ := checked
    -- the write index may still be one behind the stored sequences
    have edge := inv.writeIndex_bounds
    refine ⟨rfl, rfl, by omega, ?_⟩
    rw [Ring.toNat_resumePoint]
    rfl

theorem Answers.forward {shared : Shared profile slots} {reader : SenderShmReader}
    {result : ReadResult} (answers : Answers shared reader.readIndex result)
    (noWrap : reader.readIndex.toNat + 1 < 2 ^ 64) :
    reader.readIndex ≤ (reader.tryRead profile result).2.readIndex := by
  rw [UInt64.le_iff_toNat_le]
  cases result with
  | kEmpty => exact Nat.le_refl _
  | kOk readLen out =>
      simp only [SenderShmReader.tryRead, SenderShmReader.acceptFrame_readIndex]
      rw [toNat_succ noWrap]
      exact Nat.le_succ _
  | kLapped resumeAt out =>
      obtain ⟨inside, target⟩ := answers
      simp only [SenderShmReader.tryRead]
      omega

theorem Sound.answered {state : Following profile slots} {reader : SenderShmReader}
    {result : ReadResult} (sound : state.Sound reader) (inv : state.shared.Inv)
    (room : state.shared.calls.length + slots.size < 2 ^ 64)
    (answers : Answers state.shared reader.readIndex result) :
    (state.loaded reader .idle (some (reader.readIndex, result))).Sound
      (reader.tryRead profile result).2 := by
  have stores := inv.seqStores_le
  have edge := inv.writeIndex_bounds
  have behind := sound.behind
  have accounted := sound.accounted
  have positive := slots.size_pos
  cases result with
  | kEmpty =>
      exact ⟨sound.behind, trivial, sound.accounted, sound.ordered, sound.delivered⟩
  | kOk readLen out =>
      have advanced : (reader.readIndex + 1).toNat = reader.readIndex.toNat + 1 :=
        toNat_succ (by omega)
      have counted : (reader.counters.framesRead + 1).toNat =
          reader.counters.framesRead.toNat + 1 := toNat_succ (by omega)
      have below : reader.readIndex < reader.readIndex + 1 := by
        rw [UInt64.lt_iff_toNat_lt, advanced]
        exact Nat.lt_succ_self _
      have published : reader.readIndex.toNat < state.shared.seqStores := answers
      refine ⟨?_, trivial, ?_, ?_, ?_⟩
      · simp only [SenderShmReader.tryRead, SenderShmReader.acceptFrame_readIndex, advanced]
        exact published
      · simp only [SenderShmReader.tryRead, SenderShmReader.acceptFrame_readIndex,
          SenderShmReader.acceptFrame_framesRead,
          SenderShmReader.acceptFrame_lappedFramesSkipped, advanced, counted, loaded]
        omega
      · refine List.pairwise_append.mpr ⟨sound.ordered, List.pairwise_singleton _ _, ?_⟩
        intro earlier member last single
        rw [List.mem_singleton.mp single]
        exact sound.delivered earlier member
      · intro index member
        simp only [SenderShmReader.tryRead, SenderShmReader.acceptFrame_readIndex]
        rcases List.mem_append.mp member with before | single
        · exact UInt64.lt_trans (sound.delivered index before) below
        · rw [List.mem_singleton.mp single]
          exact below
  | kLapped resumeAt out =>
      have forward : reader.readIndex ≤ resumeAt := answers.forward (by omega)
      obtain ⟨inside, target⟩ := answers
      have bound := reader.readIndex.toNat_lt
      refine ⟨?_, trivial, ?_, sound.ordered, ?_⟩
      · simp only [SenderShmReader.tryRead, loaded]
        omega
      · simp only [SenderShmReader.tryRead, loaded]
        split
        · rename_i less
          have ahead := UInt64.lt_iff_toNat_lt.mp less
          have dist := UInt64.toNat_sub_of_le _ _ forward
          rw [toNat_add_of_lt (by omega), dist]
          omega
        · rename_i notLess
          rw [UInt64.lt_iff_toNat_lt] at notLess
          rw [UInt64.le_iff_toNat_le] at forward
          omega
      · intro index member
        exact UInt64.lt_of_lt_of_le (sound.delivered index member) forward

theorem Inv.step {state next : Following profile slots} {act : FollowAct profile}
    (inv : state.Inv) (room : next.shared.calls.length + slots.size < 2 ^ 64)
    (stepped : Step state act next) : next.Inv := by
  have positive := slots.size_pos
  obtain ⟨publish, shared, rfl, moved, rfl⟩ | ⟨rfl, absent, rfl⟩ |
    ⟨load, reader, pc, result, rfl, present, at_, moved, rfl⟩ := step_cases stepped
  · have small : shared.calls.length < 2 ^ 64 := by
      dsimp only at room
      omega
    refine ⟨inv.shared.step moved small, inv.unattached, ?_⟩
    intro reader present
    have sound := inv.sound reader present
    exact ⟨sound.behind.trans (Shared.step_seqStores moved),
      sound.checked.publish inv.shared moved small, sound.accounted, sound.ordered,
      sound.delivered⟩
  · obtain ⟨idle, none⟩ := inv.unattached absent
    refine ⟨inv.shared, nofun, ?_⟩
    intro reader present
    cases present
    refine ⟨inv.shared.writeIndex_bounds.1, ?_, rfl, ?_, ?_⟩
    · simp only [idle, Checked]
    · simp [none]
    · simp [none]
  · have sound := inv.sound reader present
    have noWrap : reader.readIndex.toNat + 1 < 2 ^ 64 := by
      have behind := sound.behind
      have stores := inv.shared.seqStores_le
      have same : (state.loaded reader pc result).shared = state.shared := by
        cases result <;> rfl
      rw [same] at room
      omega
    have checked := sound.checked.load inv.shared noWrap at_ moved
    cases result with
    | none =>
        refine ⟨inv.shared, ?_, ?_⟩
        · intro absent
          rw [loaded, present] at absent
          contradiction
        · intro other present'
          rw [loaded, present] at present'
          cases present'
          exact ⟨sound.behind, checked, sound.accounted, sound.ordered, sound.delivered⟩
    | some returned =>
        obtain ⟨index, answer⟩ := returned
        obtain ⟨rfl, rfl, answers⟩ := checked
        refine ⟨inv.shared, nofun, ?_⟩
        intro other present'
        cases present'
        exact sound.answered inv.shared room answers

/-- The read cursor of a lapped reader is sound under every interleaving of the
producer's stores with the reader's loads. -/
theorem cursor_sound (memory : Ring slots) {acts : List (FollowAct profile)}
    {state next : Following profile slots} {act : FollowAct profile}
    {reader : SenderShmReader} (run : Run Step (begin_ memory) acts state)
    (stepped : Step state act next)
    (publishes : next.shared.calls.length < 2 ^ 64 - slots.size)
    (attached : state.reader = some reader) :
    ∃ after, next.reader = some after ∧ reader.readIndex ≤ after.readIndex ∧
      (Returns state act .kEmpty → state.shared.seqStores ≤ reader.readIndex.toNat) ∧
      (∀ resumeAt out, Returns state act (.kLapped resumeAt out) →
        after.readIndex = resumeAt ∧
          ∀ skipped, reader.readIndex.toNat ≤ skipped → skipped < resumeAt.toNat →
            skipped + slots.size < state.shared.ring.writeIndex.toNat) ∧
      next.delivered.Pairwise (· < ·) ∧
      after.readIndex.toNat = next.start.toNat + after.counters.framesRead.toNat +
        after.counters.lappedFramesSkipped.toNat := by
  have positive := slots.size_pos
  have calls := step_calls stepped
  have inv : state.Inv := run.invariant_below
    (fun state => state.shared.calls.length + slots.size) (2 ^ 64)
    (fun step => Nat.add_le_add_right (step_calls step) _)
    (fun inv room step => inv.step room step) (by omega) (inv_begin memory)
  have afterInv := inv.step (by omega) stepped
  have sound := inv.sound reader attached
  obtain ⟨publish, shared, rfl, moved, rfl⟩ | ⟨rfl, absent, rfl⟩ |
    ⟨load, _, pc, result, rfl, present, at_, moved, rfl⟩ := step_cases stepped
  · have afterSound := afterInv.sound reader attached
    refine ⟨reader, attached, UInt64.le_refl _, ?_, ?_, afterSound.ordered,
      afterSound.accounted⟩
    · rintro ⟨_, _, _, ⟨⟩, _⟩
    · rintro _ _ ⟨_, _, _, ⟨⟩, _⟩
  · rw [absent] at attached
    contradiction
  · cases present.symm.trans attached
    have noWrap : reader.readIndex.toNat + 1 < 2 ^ 64 := by
      have behind := sound.behind
      have stores := inv.shared.seqStores_le
      omega
    have checked := sound.checked.load inv.shared noWrap at_ moved
    have only {answer : ReadResult} (returns : Returns state (.read load) answer) :
        ∃ index, result = some (index, answer) := by
      obtain ⟨_, _, index, ⟨⟩, same⟩ := returns
      rw [moved, Option.some.injEq, Prod.mk.injEq] at same
      exact ⟨index, same.2⟩
    cases result with
    | none =>
        have afterSound := afterInv.sound reader present
        refine ⟨reader, present, UInt64.le_refl _, ?_, ?_, afterSound.ordered,
          afterSound.accounted⟩
        · intro returns
          obtain ⟨_, ⟨⟩⟩ := only returns
        · intro resumeAt out returns
          obtain ⟨_, ⟨⟩⟩ := only returns
    | some returned =>
        obtain ⟨index, answer⟩ := returned
        obtain ⟨rfl, rfl, answers⟩ := checked
        have afterSound := afterInv.sound _ rfl
        refine ⟨_, rfl, answers.forward noWrap, ?_, ?_, afterSound.ordered,
          afterSound.accounted⟩
        · intro returns
          obtain ⟨_, ⟨⟩⟩ := only returns
          exact answers
        · intro resumeAt out returns
          obtain ⟨_, ⟨⟩⟩ := only returns
          obtain ⟨-, target⟩ := answers
          refine ⟨rfl, fun skipped _ below => ?_⟩
          omega

def lapping : List (FollowAct .raw) :=
  [.attach] ++ (Reading.publishing Reading.ones).map .publish ++
    (Reading.publishing Reading.twos).map .publish ++ [.read (.loadSeq 0)]

theorem cursor_sound_lapping :
    ∃ state next : Following .raw Reading.oneSlot, ∃ reader after,
      state.reader = some reader ∧ next.reader = some after ∧ reader.readIndex = 0 ∧
        Returns state (.read .loadEdge) (.kLapped 1 []) ∧ after.readIndex = 1 := by
  let observe (state : Following .raw Reading.oneSlot) :=
    (state.reader.map (·.readIndex), state.shared.calls.length,
      (state.pc.step state.shared.ring .loadEdge).bind (·.2))
  have executed : ((lapping.foldlM step (begin_ Reading.zeroed)).map observe) =
      some (some 0, 2, some (0, .kLapped 1 [])) := by
    decide +kernel
  obtain ⟨state, reached, observed⟩ := Option.map_eq_some_iff.mp executed
  obtain ⟨index, observed⟩ := Prod.mk.inj observed
  obtain ⟨calls, returned⟩ := Prod.mk.inj observed
  obtain ⟨reader, attached, atZero⟩ := Option.map_eq_some_iff.mp index
  obtain ⟨⟨pc, result⟩, moved, rfl⟩ := Option.bind_eq_some_iff.mp returned
  have returns : Returns state (.read .loadEdge) (.kLapped 1 []) := ⟨_, pc, 0, rfl, moved⟩
  have stepped : Step state (.read .loadEdge)
      (state.loaded reader pc (some (0, .kLapped 1 []))) := by
    simp [Step, step, attached, ReadAct.At, moved]
  obtain ⟨after, reached', -, -, jumps, -⟩ := cursor_sound Reading.zeroed
    (Run.of_foldlM reached) stepped
    (by show state.shared.calls.length < _; rw [calls]; decide) attached
  exact ⟨state, _, reader, after, attached, reached', atZero, returns, (jumps 1 [] returns).1⟩

end Following

end Lldt.Transport
