import Lldt.Consumer.Csv
import Lldt.Pipeline.Losses

namespace Lldt.Pipeline

open Lldt.Data.Bytes
open Lldt.Data.Transition
open Lldt.Dpdk
open Lldt.Harness
open Lldt.Msg
open Lldt.Shm
open Lldt.Transport

/-! What the file the consumer leaves behind says of the run. -/

variable {profile : Profile} {sourceSlots destinationSlots : SlotCount}

namespace System

variable {deployment : Deployment} {destinationMemory : Ring destinationSlots}
  {state : System profile sourceSlots destinationSlots}

theorem Inv.recorded_sorted (inv : state.Inv deployment destinationMemory)
    (fewer : state.produced.length < 2 ^ 64 - 1) {consumer : ConsumerLoop}
    (present : state.consumer = some consumer) :
    consumer.recorded.length = consumer.frames.length ∧
      consumer.recorded.length < 2 ^ 64 ∧
      (consumer.recorded.map Sample.seqId).Pairwise (· < ·) := by
  obtain ⟨follows, recorded⟩ := inv.consumer consumer present
  have read : consumer.frames.Sublist state.history :=
    follows.sublist.trans (inv.published_sublist fewer)
  have same := congrArg List.length recorded
  have least := read.length_le
  rw [List.length_map, List.length_map] at same
  rw [length_history] at least
  refine ⟨same, by omega, ?_⟩
  rw [recorded]
  exact (inv.history_increasing fewer).sublist (read.map _)

/-- The consumer leaves with status zero exactly when its file was written and holds a
row for every frame it read.  No other samples have that file, and its rows are for the
frames in the order they were read, under increasing sequence ids. -/
theorem csv_lists_frames (documented : deployment.setup.rte.Documented)
    {sourceMemory : Ring sourceSlots} {acts : List (Act profile)}
    (run : Run (Step deployment) (start sourceMemory destinationMemory) acts state)
    (fewer : state.produced.length < 2 ^ 64 - 1) {consumer : ConsumerLoop}
    (present : state.consumer = some consumer) (capacity : UInt64) (file : FileOutcome) :
    let left := ((Accumulator.new capacity).recordAll consumer.recorded).leave true file
    (left.1 = 0 ↔
      file.opened = true ∧ file.closed = true ∧ consumer.frames.length ≤ capacity.toNat) ∧
    (file.opened = true → ∀ samples, csvText samples = left.2 ↔
      samples = consumer.recorded.take capacity.toNat) ∧
    ((consumer.recorded.take capacity.toNat).map Sample.seqId =
      (consumer.frames.take capacity.toNat).map fun bytes => loadU64 bytes 0) ∧
    ((consumer.recorded.take capacity.toNat).map Sample.seqId).Pairwise (· < ·) := by
  intro left
  have inv := inv_of_run documented run fewer
  obtain ⟨length, room, sorted⟩ := inv.recorded_sorted fewer present
  have recorded := Accumulator.recorded_recordAll capacity consumer.recorded room
  obtain ⟨status, text⟩ := recorded.leave_eq file
  refine ⟨?_, ?_, ?_, ?_⟩
  · have overflow := recorded.overflow
    rw [status, ← UInt64.toNat_inj, overflow, length, UInt64.toNat_zero, Nat.sub_eq_zero_iff_le]
  · intro opened samples
    simp only [left]
    rw [text opened]
    exact csvText_injective.eq_iff
  · have same := (inv.consumer consumer present).recorded
    rw [List.map_take, List.map_take, same]
  · rw [List.map_take]
    exact sorted.sublist (List.take_sublist _ _)

theorem csv_lists_frames_dumped :
    ∃ (state : System .compact ⟨4, 2, by decide⟩ ⟨2, 1, by decide⟩) (consumer : ConsumerLoop),
      state.consumer = some consumer ∧
      (((Accumulator.new 4).recordAll consumer.recorded).leave true ⟨true, true⟩).1 = 0 ∧
      ∀ samples, csvText samples = cstring "seq,latency_ns\n2,6\n3,7\n" ↔
        samples = consumer.recorded := by
  let initial : System .compact ⟨4, 2, by decide⟩ ⟨2, 1, by decide⟩ :=
    start ⟨9, fun _ => ⟨3, 0, fun _ => 0⟩⟩ ⟨9, fun _ => ⟨3, 0, fun _ => 0⟩⟩
  have executed : ((sendingActs.foldlM (step littleEndianDeployment) initial).bind fun sent =>
      ((receivingActs sent.network).foldlM (step littleEndianDeployment) sent).bind fun state =>
        state.consumer.map fun consumer =>
          (state.produced.length, consumer.recorded, consumer.frames.length)) =
            some (3, [⟨2, 6⟩, ⟨3, 7⟩], 2) := by
    decide +kernel
  obtain ⟨sent, sending, executed⟩ := Option.bind_eq_some_iff.mp executed
  obtain ⟨state, receiving, executed⟩ := Option.bind_eq_some_iff.mp executed
  obtain ⟨consumer, present, observed⟩ := Option.map_eq_some_iff.mp executed
  simp only [Prod.mk.injEq] at observed
  obtain ⟨three, recorded, two⟩ := observed
  have run : Run (Step littleEndianDeployment) initial _ state :=
    Run.trans (.of_foldlM sending) (.of_foldlM receiving)
  obtain ⟨status, text, -, -⟩ := csv_lists_frames (show littleEndianDeployment.setup.rte.Documented
    from Rte.littleEndianHost_documented) run (by omega) present 4 ⟨true, true⟩
  refine ⟨state, consumer, present, status.mpr ⟨rfl, rfl, by rw [two]; decide⟩, ?_⟩
  rw [recorded] at text ⊢
  intro samples
  rw [show cstring "seq,latency_ns\n2,6\n3,7\n" =
    (((Accumulator.new 4).recordAll [⟨2, 6⟩, ⟨3, 7⟩]).leave true ⟨true, true⟩).2 by decide]
  exact text rfl samples

end System

end Lldt.Pipeline
