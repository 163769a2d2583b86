import Lldt.Ring.Concurrent

namespace Lldt.Shm

open Lldt.Data.Bytes
open Lldt.Data.Cyclic
open Lldt.Data.RetainedLog
open Lldt.Data.Transition
open Lldt.Msg

/-! One producer calling `publish` and one reader calling `read` at any indices,
interleaved load by load and store by store. -/

/-- The shared region, where the reader stands, what its calls returned, and
whether the call in progress has loaded frame data that was not loadable. -/
structure Reading (profile : Profile) (slots : SlotCount) where
  shared : Shared profile slots
  reader : ReadPc
  returned : List (UInt64 × ReadResult)
  tainted : Bool

inductive RingAct (profile : Profile) where
  | publish (act : PublishAct profile)
  | read (act : ReadAct)

namespace Reading

variable {profile : Profile} {slots : SlotCount}

def start (memory : Ring slots) : Reading profile slots where
  shared := .start memory
  reader := .idle
  returned := []
  tainted := false

/-- A location that is loaded while the slot still carries the wanted sequence
was stored by the publication of that sequence: the slot has been published to
and no publish in progress has rewritten the location. -/
def Loadable (shared : Shared profile slots) (index : UInt64) (location : Location) : Prop :=
  (shared.ring.slotAt (slots.slot index)).seq = index + 1 →
    (shared.ring.slotAt (slots.slot index)).seq ≠ 0 ∧
      ¬shared.Dirty (slots.slot index) location

instance (shared : Shared profile slots) (index : UInt64) (location : Location) :
    Decidable (Loadable shared index location) :=
  inferInstanceAs (Decidable (_ → _))

def taintAfter (state : Reading profile slots) (load : ReadAct) : Bool :=
  match load, state.reader.loads load with
  | .loadSeq _, _ => false
  | _, none => state.tainted
  | _, some (index, location) =>
      state.tainted || !decide (Loadable state.shared index location)

def step (state : Reading profile slots) (act : RingAct profile) :
    Option (Reading profile slots) :=
  match act with
  | .publish act => (state.shared.step act).map fun shared => { state with shared := shared }
  | .read load => (state.reader.step state.shared.ring load).map fun (reader, result) =>
      { state with
        reader := reader
        returned := state.returned ++ result.toList
        tainted := state.taintAfter load }

def Step (state : Reading profile slots) (act : RingAct profile)
    (next : Reading profile slots) : Prop :=
  state.step act = some next

theorem step_cases {state next : Reading profile slots} {act : RingAct profile}
    (stepped : Step state act next) :
    (∃ publish shared, act = .publish publish ∧ state.shared.step publish = some shared ∧
      next = { state with shared := shared }) ∨
    (∃ load reader result, act = .read load ∧
      state.reader.step state.shared.ring load = some (reader, result) ∧
      next = { state with
        reader := reader
        returned := state.returned ++ result.toList
        tainted := state.taintAfter load }) := by
  unfold Step step at stepped
  cases act with
  | publish publish =>
      obtain ⟨shared, moved, rfl⟩ := Option.map_eq_some_iff.mp stepped
      exact .inl ⟨publish, shared, rfl, moved, rfl⟩
  | read load =>
      obtain ⟨⟨reader, result⟩, moved, rfl⟩ := Option.map_eq_some_iff.mp stepped
      exact .inr ⟨load, reader, result, rfl, moved, rfl⟩

theorem step_calls {state next : Reading profile slots} {act : RingAct profile}
    (stepped : Step state act next) : state.shared.calls <+: next.shared.calls := by
  obtain ⟨publish, shared, rfl, moved, rfl⟩ | ⟨load, reader, result, rfl, moved, rfl⟩ :=
    step_cases stepped
  · exact Shared.step_calls moved
  · exact List.prefix_refl _

/-- A tainted call does not find the wanted sequence again when it re-checks. -/
def Settled (state : Reading profile slots) : RingAct profile → Prop
  | .read .reloadSeq =>
      match state.reader with
      | .copy index _ _ _ =>
          (state.shared.ring.slotAt (slots.slot index)).seq = index + 1 →
            state.tainted = false
      | _ => True
  | _ => True

instance (state : Reading profile slots) : DecidablePred state.Settled
  | .read .reloadSeq =>
      match reader : state.reader with
      | .copy index _ _ _ => decidable_of_iff
          ((state.shared.ring.slotAt (slots.slot index)).seq = index + 1 →
            state.tainted = false) (by rw [Settled, reader])
      | .idle | .loadLen _ | .loadEdge _ _ =>
          .isTrue (by rw [Settled, reader]; trivial)
  | .publish _ | .read (.loadSeq _) | .read .loadLen | .read (.loadByte _)
  | .read .loadEdge => .isTrue trivial

/-- As long as the slot carries the wanted sequence, what has been loaded so far
is that publication's. -/
def Copied (shared : Shared profile slots) : ReadPc → Prop
  | .idle => True
  | .loadLen index => index + 1 ≤ (shared.ring.slotAt (slots.slot index)).seq
  | .copy index len out todo =>
      index + 1 ≤ (shared.ring.slotAt (slots.slot index)).seq ∧
        ((shared.ring.slotAt (slots.slot index)).seq = index + 1 →
          ∃ frame, shared.calls[index.toNat]? = some frame ∧ len = frame.len ∧
            ∀ offset, offset < frame.bytes.length → offset ∉ todo →
              out offset = frame.bytes.getD offset 0)
  | .loadEdge _ _ => True

def Exact (shared : Shared profile slots) (index : UInt64) (outLen : UInt32)
    (out : List UInt8) : Prop :=
  ∃ frame, shared.calls[index.toNat]? = some frame ∧ outLen = frame.len ∧ out = frame.bytes

structure Inv (state : Reading profile slots) : Prop where
  shared : state.shared.Inv
  copied : state.tainted = false → Copied state.shared state.reader
  exact_ : ∀ {index outLen out}, (index, .kOk outLen out) ∈ state.returned →
    Exact state.shared index outLen out

theorem Exact.grow {shared next : Shared profile slots} {index : UInt64}
    {outLen : UInt32} {out : List UInt8} (exact_ : Exact shared index outLen out)
    (extends_ : shared.calls <+: next.calls) : Exact next index outLen out := by
  obtain ⟨frame, called, same⟩ := exact_
  exact ⟨frame, getElem?_of_prefix extends_ called, same⟩

/-- A publish step cannot invalidate what a reader has copied: it either leaves
the slot sequence as it is or moves it past the wanted one for good. -/
theorem Copied.publish {shared next : Shared profile slots} {act : PublishAct profile}
    {reader : ReadPc} (copied : Copied shared reader) (inv : shared.Inv)
    (stepped : shared.step act = some next) (room : next.calls.length < 2 ^ 64) :
    Copied next reader := by
  cases reader with
  | idle => trivial
  | loadEdge index out => trivial
  | loadLen index =>
      exact UInt64.le_trans copied (inv.seq_mono stepped room _)
  | copy index len out todo =>
      obtain ⟨reached, loaded⟩ := copied
      have grows := inv.seq_mono stepped room (slots.slot index)
      refine ⟨UInt64.le_trans reached grows, ?_⟩
      intro wanted
      have before : (shared.ring.slotAt (slots.slot index)).seq = index + 1 :=
        UInt64.le_antisymm (wanted ▸ grows) reached
      obtain ⟨frame, called, same⟩ := loaded before
      exact ⟨frame, getElem?_of_prefix (Shared.step_calls stepped) called, same⟩

theorem Loadable.publication {shared : Shared profile slots} {index : UInt64}
    {location : Location} (loadable : Loadable shared index location)
    (inv : shared.Inv)
    (wanted : (shared.ring.slotAt (slots.slot index)).seq = index + 1) :
    stamp slots.size shared.seqStores (slots.slot index).val = index.toNat + 1 ∧
      index.toNat < shared.calls.length ∧
      ¬shared.Dirty (slots.slot index) location := by
  obtain ⟨nonzero, clean⟩ := loadable wanted
  have noWrap : (index + 1).toNat = index.toNat + 1 := by
    apply toNat_succ
    by_contra wraps
    have last : index.toNat + 1 = 2 ^ 64 := by
      have := index.toNat_lt
      omega
    apply nonzero
    rw [wanted]
    apply UInt64.toNat_inj.mp
    rw [UInt64.toNat_add, UInt64.toNat_one, last]
    rfl
  have stamped := inv.stamped (slots.slot index)
  rw [wanted, noWrap] at stamped
  have published := lt_of_stamp_eq stamped.symm
  exact ⟨stamped.symm, Nat.lt_of_lt_of_le published inv.seqStores_le, clean⟩

theorem Inv.read {state : Reading profile slots} {load : ReadAct} {reader : ReadPc}
    {result : Option (UInt64 × ReadResult)} (inv : state.Inv)
    (settled : state.Settled (.read load))
    (stepped : state.reader.step state.shared.ring load = some (reader, result)) :
    (state.taintAfter load = false → Copied state.shared reader) ∧
      ∀ {index outLen out}, result = some (index, .kOk outLen out) →
        Exact state.shared index outLen out := by
  obtain ⟨index, pc, early, rfl, rfl, rfl⟩ | ⟨index, pc, late, rfl, rfl, rfl⟩ |
    ⟨index, pc, wanted, rfl, rfl, rfl⟩ | ⟨index, pc, rfl, rfl, rfl⟩ |
    ⟨index, len, out, todo, offset, pc, member, rfl, rfl, rfl⟩ |
    ⟨index, len, out, pc, rfl, changed, rfl, rfl⟩ |
    ⟨index, len, out, pc, rfl, wanted, rfl, rfl⟩ | ⟨index, out, pc, rfl, rfl, rfl⟩ :=
    ReadPc.step_cases stepped
  · exact ⟨fun _ => trivial, by simp⟩
  · exact ⟨fun _ => trivial, by simp⟩
  · exact ⟨fun _ => UInt64.le_of_eq wanted.symm, by simp⟩
  · -- the length is loaded
    refine ⟨fun untainted => ?_, by simp⟩
    simp only [taintAfter, pc, ReadPc.loads, Bool.or_eq_false_iff, Bool.not_eq_false',
      decide_eq_true_eq] at untainted
    have copied := inv.copied untainted.1
    simp only [Copied, pc] at copied
    refine ⟨copied, ?_⟩
    intro wanted
    obtain ⟨stamped, called, clean⟩ := untainted.2.publication inv.shared wanted
    have loaded := inv.shared.cleanLen stamped (List.getElem?_eq_getElem called) clean
    refine ⟨_, List.getElem?_eq_getElem called, loaded, ?_⟩
    intro offset inside notTodo
    rw [loaded, Frame.toNat_len] at notTodo
    exact absurd (Finset.mem_range.mpr inside) notTodo
  · -- one byte is loaded
    refine ⟨fun untainted => ?_, by simp⟩
    simp only [taintAfter, pc, ReadPc.loads, Bool.or_eq_false_iff, Bool.not_eq_false',
      decide_eq_true_eq] at untainted
    have copied := inv.copied untainted.1
    simp only [Copied, pc] at copied
    obtain ⟨reached, loaded⟩ := copied
    refine ⟨reached, ?_⟩
    intro wanted
    obtain ⟨frame, called, sameLen, sameBytes⟩ := loaded wanted
    obtain ⟨stamped, -, clean⟩ := untainted.2.publication inv.shared wanted
    refine ⟨frame, called, sameLen, ?_⟩
    intro other inside notTodo
    by_cases here : other = offset
    · subst here
      rw [Function.update_self]
      exact inv.shared.cleanByte stamped called inside clean
    · rw [Function.update_of_ne here]
      exact sameBytes other inside fun still => notTodo (Finset.mem_erase.mpr ⟨here, still⟩)
  · exact ⟨fun _ => trivial, by simp⟩
  · -- the sequence is unchanged, so the call returns the copy
    refine ⟨fun _ => trivial, ?_⟩
    simp only [Settled, pc] at settled
    have copied := inv.copied (settled wanted)
    simp only [Copied, pc] at copied
    obtain ⟨frame, called, sameLen, sameBytes⟩ := copied.2 wanted
    intro index' outLen out' same
    cases same
    refine ⟨frame, called, sameLen, ?_⟩
    apply List.ext_getElem
    · simp [sameLen]
    · intro offset _ inside
      rw [List.getElem_map, List.getElem_range,
        sameBytes offset inside (Finset.notMem_empty _)]
      simp [List.getD_eq_getElem?_getD, inside]
  · exact ⟨fun _ => trivial, by simp⟩

theorem Inv.step {state next : Reading profile slots} {act : RingAct profile}
    (inv : state.Inv) (settled : state.Settled act) (stepped : Step state act next)
    (room : next.shared.calls.length < 2 ^ 64) : next.Inv := by
  obtain ⟨publish, shared, rfl, moved, rfl⟩ | ⟨load, reader, result, rfl, moved, rfl⟩ :=
    step_cases stepped
  · refine ⟨inv.shared.step moved room, ?_, ?_⟩
    · intro untainted
      exact (inv.copied untainted).publish inv.shared moved room
    · intro index outLen out member
      exact (inv.exact_ member).grow (Shared.step_calls moved)
  · obtain ⟨copied, delivered⟩ := inv.read settled moved
    refine ⟨inv.shared, copied, ?_⟩
    intro index outLen out member
    rcases List.mem_append.mp member with old | new
    · exact inv.exact_ old
    · exact delivered (Option.mem_toList.mp new)

theorem inv_start (memory : Ring slots) : (start memory : Reading profile slots).Inv where
  shared := Shared.inv_start memory
  copied := fun _ => trivial
  exact_ := nofun

/-- In every run in which no tainted call finds the wanted sequence again, a read
that returns `kOk` delivers the publication of its index. -/
theorem read_exact_of_settled (memory : Ring slots) {acts : List (RingAct profile)}
    {state : Reading profile slots}
    (run : Run (Guarded Settled Step) (start memory) acts state)
    (publishes : state.shared.calls.length < 2 ^ 64 - slots.size)
    {index : UInt64} {outLen : UInt32} {out : List UInt8}
    (returned : (index, .kOk outLen out) ∈ state.returned) :
    ∃ frame, state.shared.calls[index.toNat]? = some frame ∧
      outLen = frame.len ∧ out = frame.bytes := by
  have inv : state.Inv := run.invariant_below
    (fun state => state.shared.calls.length) (2 ^ 64) (fun step => (step_calls step.2).length_le)
    (fun inv room step => inv.step step.1 step.2 room) (by omega) (inv_start memory)
  exact inv.exact_ returned

def publishing {profile : Profile} (frame : Frame profile) : List (PublishAct profile) :=
  [.call frame, .storeLen] ++ (List.range frame.bytes.length).map .storeByte ++
    [.storeSeq, .storeIndex]

def oneSlot : SlotCount := ⟨1, 0, by decide⟩

def zeroed : Ring oneSlot := ⟨0, fun _ => ⟨0, 0, fun _ => 0⟩⟩

def ones : Frame .raw := ⟨[1, 1], by decide⟩

def twos : Frame .raw := ⟨[2, 2], by decide⟩

/-- The reader has accepted the sequence of publication zero and copies while
publication one rewrites the first of its two bytes; the sequence is still the
old one when the reader checks it again. -/
def overtaken : List (RingAct .raw) :=
  (publishing ones).map .publish ++
    [.read (.loadSeq 0), .read .loadLen,
      .publish (.call twos), .publish .storeLen, .publish (.storeByte 0),
      .read (.loadByte 0), .read (.loadByte 1), .read .reloadSeq]

/-- The reader looks between the stores of publication zero, copies before its index
is stored, and publication one begins to rewrite the slot behind the copy. -/
def interleaved : List (RingAct .raw) :=
  [.publish (.call ones), .read (.loadSeq 0), .publish .storeLen, .publish (.storeByte 1),
    .read (.loadSeq 0), .publish (.storeByte 0), .publish .storeSeq, .read (.loadSeq 0),
    .read .loadLen, .publish .storeIndex, .read (.loadByte 1), .publish (.call twos),
    .read (.loadByte 0), .publish .storeLen, .publish (.storeByte 0), .read .reloadSeq]

/-- Without that condition a read that returns `kOk` can deliver bytes that were
never published together. -/
theorem read_can_be_torn :
    ¬∀ (acts : List (RingAct .raw)) (state : Reading .raw oneSlot),
      Run Step (start zeroed) acts state →
      state.shared.calls.length < 2 ^ 64 - oneSlot.size →
      ∀ index outLen out, (index, .kOk outLen out) ∈ state.returned →
        ∃ frame, state.shared.calls[index.toNat]? = some frame ∧
          outLen = frame.len ∧ out = frame.bytes := by
  intro never
  have executed : (overtaken.foldlM step (start zeroed)).map
      (fun state => (state.returned, state.shared.calls.map Frame.bytes)) =
        some ([(0, .kOk 2 [2, 1])], [[1, 1], [2, 2]]) := by
    decide +kernel
  obtain ⟨state, reached, observed⟩ := Option.map_eq_some_iff.mp executed
  obtain ⟨returned, calls⟩ := Prod.mk.inj observed
  have two : state.shared.calls.length = 2 := by
    simpa using congrArg List.length calls
  obtain ⟨frame, called, -, bytes⟩ := never overtaken state (Run.of_foldlM reached)
    (by rw [two]; decide) 0 2 [2, 1] (by rw [returned]; exact List.mem_singleton_self _)
  have published : (state.shared.calls.map Frame.bytes)[0]? = some frame.bytes := by
    rw [List.getElem?_map, show state.shared.calls[0]? = some frame from called]
    rfl
  rw [calls, ← bytes] at published
  exact absurd published (by decide)

theorem read_exact_of_settled_interleaved :
    ∃ state : Reading .raw oneSlot, (0, .kOk 2 [1, 1]) ∈ state.returned ∧
      ∃ frame, state.shared.calls[(0 : UInt64).toNat]? = some frame ∧
        2 = frame.len ∧ [1, 1] = frame.bytes := by
  have executed : (interleaved.foldlM
      (fun (state : Reading .raw oneSlot) act =>
        if state.Settled act then state.step act else none) (start zeroed)).map
      (fun state => (state.returned, state.shared.calls.length)) =
        some ([(0, .kEmpty), (0, .kEmpty), (0, .kOk 2 [1, 1])], 2) := by
    decide +kernel
  obtain ⟨state, reached, observed⟩ := Option.map_eq_some_iff.mp executed
  obtain ⟨returned, length⟩ := Prod.mk.inj observed
  have delivered : (0, .kOk 2 [1, 1]) ∈ state.returned := by
    rw [returned]
    decide
  exact ⟨state, delivered, read_exact_of_settled zeroed (Run.guarded_of_foldlM reached)
    (by rw [length]; decide) delivered⟩

end Reading

end Lldt.Shm
