import Lldt.Ring.TornRead

namespace Lldt.Shm

open Lldt.Data.Bytes
open Lldt.Data.Cyclic
open Lldt.Data.RetainedLog
open Lldt.Data.Transition
open Lldt.Msg

/-! The interleaved ring against the atomic one: a reader that the producer is at
most one lap ahead of gets what an atomic read gets. -/

variable {profile : Profile} {slots : SlotCount}

/-- A publish in progress is a lap away from the slot of a stored publication, unless
the producer has begun to go over that one. -/
theorem Shared.Inv.clean_of_near {shared : Shared profile slots} (inv : shared.Inv)
    {index : UInt64} (stored : index.toNat < shared.seqStores)
    (near : shared.calls.length ≤ index.toNat + slots.size) (location : Location) :
    ¬shared.Dirty (slots.slot index) location := by
  intro dirty
  have stage := inv.stage
  unfold Shared.Dirty at dirty
  cases pc : shared.pc with
  | idle | storeLen idx frame | storeIndex idx =>
      rw [pc] at dirty
      exact dirty
  | copy idx frame todo =>
      rw [pc] at dirty
      simp only [Shared.Stage, pc] at stage
      obtain ⟨calls, edge, rfl, -⟩ := stage
      have cells := congrArg Fin.val dirty.1
      rw [SlotCount.val_slot, SlotCount.val_slot, edge] at cells
      have lap := lap_le cells stored
      omega

namespace Reading

/-- What the loads of a call have established so far, and what it has copied if the
producer is at most a lap ahead. -/
def Grounded (shared : Shared profile slots) : ReadPc → Prop
  | .idle => True
  | .loadLen index => index.toNat < shared.seqStores
  | .copy index len out todo =>
      index.toNat < shared.seqStores ∧
        (shared.calls.length ≤ index.toNat + slots.size →
          ∃ frame, shared.calls[index.toNat]? = some frame ∧ len = frame.len ∧
            ∀ offset, offset < frame.bytes.length → offset ∉ todo →
              out offset = frame.bytes.getD offset 0)
  | .loadEdge index _ => index.toNat + slots.size < shared.seqStores

/-- What a call that returns has found out about its index. -/
def Outcome (shared : Shared profile slots) (index : UInt64) : ReadResult → Prop
  | .kOk outLen out =>
      index.toNat < shared.seqStores ∧
        (shared.calls.length ≤ index.toNat + slots.size → Exact shared index outLen out)
  | .kEmpty => shared.seqStores ≤ index.toNat
  | .kLapped resumeAt _ =>
      index.toNat + slots.size < shared.seqStores ∧
        resumeAt.toNat = shared.ring.writeIndex.toNat - slots.size

theorem Grounded.publish {shared next : Shared profile slots} {act : PublishAct profile}
    {pc : ReadPc} (grounded : Grounded shared pc) (stepped : shared.step act = some next) :
    Grounded next pc := by
  have stores := Shared.step_seqStores stepped
  have calls := Shared.step_calls stepped
  cases pc with
  | idle => trivial
  | loadLen index => exact Nat.lt_of_lt_of_le grounded stores
  | loadEdge index out => exact Nat.lt_of_lt_of_le grounded stores
  | copy index len out todo =>
      obtain ⟨stored, copied⟩ := grounded
      refine ⟨Nat.lt_of_lt_of_le stored stores, ?_⟩
      intro near
      obtain ⟨frame, called, same⟩ := copied (calls.length_le.trans near)
      exact ⟨frame, getElem?_of_prefix calls called, same⟩

/-- The slot still belongs to the publication that was asked for. -/
theorem stamp_of_near {shared : Shared profile slots} (inv : shared.Inv) {index : UInt64}
    (stored : index.toNat < shared.seqStores)
    (near : shared.calls.length ≤ index.toNat + slots.size) :
    stamp slots.size shared.seqStores (slots.slot index).val = index.toNat + 1 := by
  rw [SlotCount.val_slot]
  exact (stamp_eq_iff slots.size_pos).mpr ⟨stored, inv.seqStores_le.trans near⟩

/-- A copy of all the bytes is the frame. -/
theorem map_range_eq {frame : Frame profile} {out : Nat → UInt8}
    (sameBytes : ∀ offset, offset < frame.bytes.length → out offset = frame.bytes.getD offset 0) :
    (List.range frame.len.toNat).map out = frame.bytes := by
  apply List.ext_getElem
  · simp
  · intro offset _ inside
    rw [List.getElem_map, List.getElem_range, sameBytes offset inside]
    simp [List.getD_eq_getElem?_getD, inside]

theorem Grounded.load {shared : Shared profile slots} {pc next : ReadPc} {load : ReadAct}
    {returned : Option (UInt64 × ReadResult)} (grounded : Grounded shared pc)
    (inv : shared.Inv) (room : shared.calls.length < 2 ^ 64)
    (inRange : ∀ index, load = .loadSeq index → index.toNat + 1 < 2 ^ 64)
    (stepped : pc.step shared.ring load = some (next, returned)) :
    Grounded shared next ∧ ∀ index result, returned = some (index, result) →
      index.toNat + 1 < 2 ^ 64 ∧ Outcome shared index result := by
  have stores := inv.seqStores_le
  obtain ⟨index, rfl, early, rfl, rfl, rfl⟩ | ⟨index, rfl, late, rfl, rfl, rfl⟩ |
    ⟨index, rfl, wanted, rfl, rfl, rfl⟩ | ⟨index, rfl, rfl, rfl, rfl⟩ |
    ⟨index, len, out, todo, offset, rfl, member, rfl, rfl, rfl⟩ |
    ⟨index, len, out, rfl, rfl, changed, rfl, rfl⟩ |
    ⟨index, len, out, rfl, rfl, wanted, rfl, rfl⟩ |
    ⟨index, out, rfl, rfl, rfl, rfl⟩ := ReadPc.step_cases stepped
  · refine ⟨trivial, ?_⟩
    intro _ _ same
    cases same
    exact ⟨inRange index rfl, (inv.seq_lt_iff (inRange index rfl)).mp early⟩
  · exact ⟨(inv.lt_seq_iff (inRange index rfl)).mp late, nofun⟩
  · refine ⟨?_, nofun⟩
    have notEarly := mt (inv.seq_lt_iff (inRange index rfl)).mpr (by
      rw [wanted]
      exact UInt64.lt_irrefl _)
    exact Nat.not_le.mp notEarly
  · -- the length is loaded
    refine ⟨⟨grounded, ?_⟩, nofun⟩
    intro near
    have called := List.getElem?_eq_getElem (Nat.lt_of_lt_of_le grounded stores)
    have loaded := inv.cleanLen (stamp_of_near inv grounded near) called
      (inv.clean_of_near grounded near _)
    refine ⟨_, called, loaded, ?_⟩
    intro offset inside notTodo
    rw [loaded, Frame.toNat_len] at notTodo
    exact absurd (Finset.mem_range.mpr inside) notTodo
  · -- one byte is loaded
    obtain ⟨stored, copied⟩ := grounded
    refine ⟨⟨stored, ?_⟩, nofun⟩
    intro near
    obtain ⟨frame, called, sameLen, sameBytes⟩ := copied near
    refine ⟨frame, called, sameLen, ?_⟩
    intro other inside notTodo
    by_cases here : other = offset
    · subst here
      rw [Function.update_self]
      exact inv.cleanByte (stamp_of_near inv stored near) called inside
        (inv.clean_of_near stored near _)
    · rw [Function.update_of_ne here]
      exact sameBytes other inside fun still => notTodo (Finset.mem_erase.mpr ⟨here, still⟩)
  · -- a sequence that has changed has grown
    obtain ⟨stored, -⟩ := grounded
    refine ⟨?_, nofun⟩
    have noWrap : index.toNat + 1 < 2 ^ 64 := by omega
    have notEarly := mt (inv.seq_lt_iff noWrap).mp (Nat.not_le.mpr stored)
    exact (inv.lt_seq_iff noWrap).mp
      (UInt64.lt_of_le_of_ne (UInt64.not_lt.mp notEarly) changed.symm)
  · refine ⟨trivial, ?_⟩
    intro _ _ same
    cases same
    obtain ⟨stored, copied⟩ := grounded
    refine ⟨by omega, stored, fun near => ?_⟩
    obtain ⟨frame, called, rfl, sameBytes⟩ := copied near
    exact ⟨frame, called, rfl, map_range_eq fun offset inside =>
      sameBytes offset inside (Finset.notMem_empty _)⟩
  · refine ⟨trivial, ?_⟩
    intro _ _ same
    cases same
    have beyond : index.toNat + slots.size < shared.seqStores := grounded
    exact ⟨by omega, beyond, Ring.toNat_resumePoint slots _⟩

/-- A read asks for an index below the last one, whose successor wraps to the stamp
of an empty slot. -/
def InRange (_ : Reading profile slots) : RingAct profile → Prop
  | .read (.loadSeq index) => index.toNat + 1 < 2 ^ 64
  | _ => True

def Returns (state : Reading profile slots) (index : UInt64) (result : ReadResult) : Prop :=
  ∃ load reader, state.reader.step state.shared.ring load = some (reader, some (index, result)) ∧
    state.InRange (.read load)

structure Founded (state : Reading profile slots) : Prop where
  shared : state.shared.Inv
  grounded : Grounded state.shared state.reader

theorem Founded.step {state next : Reading profile slots} {act : RingAct profile}
    (founded : state.Founded) (room : next.shared.calls.length < 2 ^ 64)
    (step : Guarded InRange Step state act next) : next.Founded := by
  obtain ⟨inv, grounded⟩ := founded
  obtain ⟨inRange, stepped⟩ := step
  obtain ⟨publish, shared, rfl, moved, rfl⟩ | ⟨load, reader, result, rfl, moved, rfl⟩ :=
    step_cases stepped
  · exact ⟨inv.step moved room, grounded.publish moved⟩
  · refine ⟨inv, (grounded.load inv room ?_ moved).1⟩
    intro index asked
    rw [asked] at inRange
    exact inRange

theorem founded_of_run (memory : Ring slots) {acts : List (RingAct profile)}
    {state : Reading profile slots}
    (run : Run (Guarded InRange Step) (start memory) acts state)
    (room : state.shared.calls.length < 2 ^ 64) : state.Founded :=
  run.invariant_below (fun state => state.shared.calls.length) (2 ^ 64)
    (fun step => (step_calls step.2).length_le) (fun founded room step => founded.step room step)
    room ⟨Shared.inv_start memory, trivial⟩

/-- What an interleaved read gets against what an atomic one gets: the resume index
may be one lower, and the copy it gave up is left in the buffer. -/
def Agrees : ReadResult → ReadResult → Prop
  | .kOk outLen out, .kOk len frame => outLen = len ∧ out = frame
  | .kEmpty, .kEmpty => True
  | .kLapped resumeAt _, .kLapped resume _ =>
      resumeAt.toNat ≤ resume.toNat ∧ resume.toNat ≤ resumeAt.toNat + 1
  | _, _ => False

theorem Outcome.agrees {shared : Shared profile slots} {index : UInt64} {result : ReadResult}
    {ring : Ring slots} (outcome : Outcome shared index result) (inv : shared.Inv)
    (room : shared.calls.length < 2 ^ 64) (inRange : index.toNat + 1 < 2 ^ 64)
    (holds : ring.Holds ((shared.calls.take shared.seqStores).map Frame.bytes))
    (near : result.status = .kOk → shared.calls.length ≤ index.toNat + slots.size) :
    Agrees result (ring.read index) := by
  have stores := inv.seqStores_le
  have edge := inv.writeIndex_bounds
  have length : ((shared.calls.take shared.seqStores).map Frame.bytes).length =
      shared.seqStores := by
    rw [List.length_map, List.length_take, Nat.min_eq_left stores]
  cases result with
  | kEmpty =>
      rw [holds.read_early index (by omega) inRange (by rw [length]; exact outcome)]
      trivial
  | kOk outLen out =>
      obtain ⟨stored, exact⟩ := outcome
      have near := near rfl
      obtain ⟨frame, called, rfl, rfl⟩ := exact near
      have found : ((shared.calls.take shared.seqStores).map Frame.bytes)[index.toNat]? =
          some frame.bytes := by
        rw [List.getElem?_map, List.getElem?_take, if_pos stored, called]
        rfl
      obtain ⟨inside, here⟩ := List.getElem?_eq_some_iff.mp found
      rw [holds.read_recent index (by omega) inRange inside (by omega), here]
      exact ⟨rfl, rfl⟩
  | kLapped resumeAt out =>
      obtain ⟨beyond, target⟩ := outcome
      rw [holds.read_lapped index (by omega) inRange (by omega)]
      simp only [Agrees]
      rw [length, UInt64.toNat_ofNat_of_lt' (show _ < 2 ^ 64 by omega)]
      omega

/-- In every interleaving a read whose slot the producer has not begun to overwrite
when it returns agrees with an atomic read of the ring at that moment. -/
theorem read_linearizes (memory : Ring slots) {acts : List (RingAct profile)}
    {state : Reading profile slots}
    (run : Run (Guarded InRange Step) (start memory) acts state)
    (room : state.shared.calls.length < 2 ^ 64) {index : UInt64} {result : ReadResult}
    (returns : state.Returns index result)
    (near : result.status = .kOk → state.shared.calls.length ≤ index.toNat + slots.size) :
    let published := state.shared.calls.take state.shared.seqStores
    Agrees result (((memory.attach true).publishAll published).read index) := by
  intro published
  obtain ⟨inv, grounded⟩ := founded_of_run memory run room
  obtain ⟨load, reader, stepped, inRange⟩ := returns
  obtain ⟨-, found⟩ := grounded.load inv room (by
    intro index asked
    rw [asked] at inRange
    exact inRange) stepped
  obtain ⟨indexRoom, outcome⟩ := found index result rfl
  have holds := (Ring.holds_attach memory).publishAll published (by
    rw [List.length_nil, Nat.zero_add]
    exact Nat.lt_of_le_of_lt (List.length_take_le' _ _) room)
  rw [List.nil_append] at holds
  exact outcome.agrees inv room indexRoom holds near

def twoSlots : SlotCount := ⟨2, 1, by decide⟩

def blank : Ring twoSlots := ⟨0, fun _ => ⟨0, 0, fun _ => 0⟩⟩

/-- The producer fills the other slot while the reader copies. -/
def beside : List (RingAct .raw) :=
  (publishing ones).map .publish ++
    [.read (.loadSeq 0), .read .loadLen, .publish (.call twos), .publish .storeLen,
      .read (.loadByte 1), .publish (.storeByte 0), .read (.loadByte 0)]

instance (state : Reading profile slots) : DecidablePred state.InRange
  | .read (.loadSeq index) => inferInstanceAs (Decidable (index.toNat + 1 < 2 ^ 64))
  | .publish _ | .read .loadLen | .read (.loadByte _) | .read .reloadSeq
  | .read .loadEdge => .isTrue trivial

theorem read_linearizes_beside :
    ∃ state : Reading .raw twoSlots, state.shared.calls.length = 2 ∧
      state.Returns 0 (.kOk 2 [1, 1]) ∧
      Agrees (.kOk 2 [1, 1]) (((blank.attach true).publishAll
        (state.shared.calls.take state.shared.seqStores)).read 0) := by
  have executed : (beside.foldlM
      (fun (state : Reading .raw twoSlots) act =>
        if state.InRange act then state.step act else none)
        (start blank)).map
      (fun state => (state.shared.calls.length,
        (state.reader.step state.shared.ring .reloadSeq).bind Prod.snd)) =
        some (2, some (0, .kOk 2 [1, 1])) := by
    decide +kernel
  obtain ⟨state, reached, observed⟩ := Option.map_eq_some_iff.mp executed
  obtain ⟨two, result⟩ := Prod.mk.inj observed
  obtain ⟨⟨reader, returned⟩, moved, same⟩ := Option.bind_eq_some_iff.mp result
  obtain rfl : returned = some (0, .kOk 2 [1, 1]) := same
  have returns : state.Returns 0 (.kOk 2 [1, 1]) := ⟨.reloadSeq, reader, moved, trivial⟩
  exact ⟨state, two, returns, read_linearizes _ (Run.guarded_of_foldlM reached)
    (by rw [two]; decide) returns (fun _ => Nat.le_of_eq two)⟩

end Reading

end Lldt.Shm
