import Lldt.Ring.History
import Lldt.Sender.Shutdown

namespace Lldt.Transport

open Lldt.Data.Selection
open Lldt.Dpdk
open Lldt.Msg
open Lldt.Shm

/-! A sender whose source stands still works off what is there. -/

variable {profile : Profile} {slots : SlotCount}

namespace SenderShmReader

/-- How many publications the reader has in front of it. -/
def lag (reader : SenderShmReader) (published : Nat) : Nat := published - reader.readIndex.toNat

/-- A read brings the reader on, unless there is nothing left to read. -/
theorem tryRead_still {ring : Ring slots} {history : List (List UInt8)}
    (holds : ring.Holds history) (room : history.length < 2 ^ 64 - 1) {reader : SenderShmReader}
    (within : reader.readIndex.toNat ≤ history.length) {answer : SenderReaderResult}
    {next : SenderShmReader}
    (read : reader.tryRead profile (ring.read reader.readIndex) = (answer, next)) :
    next.lag history.length < reader.lag history.length ∨
      (answer = .empty ∧ next.readIndex = reader.readIndex ∧
        reader.readIndex.toNat = history.length) := by
  have indexRoom : reader.readIndex.toNat + 1 < 2 ^ 64 := by omega
  unfold lag
  by_cases early : history.length ≤ reader.readIndex.toNat
  · rw [Ring.Holds.read_early _ holds (by omega) indexRoom early] at read
    cases read
    exact .inr ⟨rfl, rfl, Nat.le_antisymm within early⟩
  · by_cases recent : history.length ≤ reader.readIndex.toNat + slots.size
    · rw [Ring.Holds.read_recent _ holds (by omega) indexRoom (by omega) recent] at read
      have index := congrArg (fun result => result.2.readIndex) read
      simp only [tryRead, acceptFrame_readIndex] at index
      rw [← index, Lldt.Data.Bytes.toNat_succ indexRoom]
      omega
    · rw [Ring.Holds.read_lapped _ holds (by omega) indexRoom (by omega)] at read
      cases read
      have positive := slots.size_pos
      rw [UInt64.toNat_ofNat_of_lt' (show _ < 2 ^ 64 by omega)]
      omega

end SenderShmReader

namespace SenderLoop

/-- At the head of the loop everything published is read and nothing is held back. -/
structure CaughtUp (published : Nat) (state : SenderLoop) : Prop where
  phase : state.phase = .head
  carryFrame : state.carryFrame = none
  read : state.reader.readIndex.toNat = published

/-- The loop has left, or it has nothing to do. -/
def Settled (published : Nat) (state : SenderLoop) : Prop :=
  state.phase = .exited ∨ state.CaughtUp published

/-- The calls until the loop can be back at its head with nothing more read. -/
def toDo (state : SenderLoop) : Nat :=
  match state.phase, state.carryFrame with
  | .exited, _ => 0
  | .readFirst, _ => 1
  | .head, none => 2
  | .finish _, none => 3
  | .readNext _, _ => 4
  | .batch _, _ => 5
  | .allocate _, _ => 6
  | .head, some _ => 7
  | .finish _, some _ => 8

/-- Ten calls for each publication in front of the reader pay for what follows from it. -/
def effort (published : Nat) (state : SenderLoop) : Nat :=
  10 * state.reader.lag published + state.toDo

theorem effort_le (published : Nat) (state : SenderLoop) :
    state.effort published ≤ 10 * state.reader.lag published + 8 := by
  have most : state.toDo ≤ 8 := by
    unfold toDo
    split <;> decide
  exact Nat.add_le_add_left most _

/-- Only a loop that has left has no call before it. -/
theorem settled_of_effort {published : Nat} {state : SenderLoop}
    (none : state.effort published = 0) : state.Settled published := by
  have least : state.toDo = 0 := Nat.eq_zero_of_add_eq_zero_left none
  unfold toDo at least
  split at least
  · rename_i phase
    exact .inl phase
  all_goals contradiction

theorem Stream.finished_of_settled {rte : Rte} {state : SenderLoop} {published : Nat}
    (stream : state.Stream profile rte) (settled : state.Settled published) :
    state.finished = without state.log.admitted state.log.lost := by
  have placed := stream.placed
  rcases settled with phase | caught
  · simp only [Placed, phase] at placed
    exact placed.2.2.symm
  · simp only [Placed, caught.phase, carried, caught.carryFrame] at placed
    exact placed.2.symm

section Moves

variable {setup : SenderSetup} {source : Ring slots} {history : List (List UInt8)}
  {state next : SenderLoop} {event : SenderEvent}

/-- Every call the loop makes takes some of the effort away, or brings it to its goal. -/
theorem Move.lowers (holds : source.Holds history) (room : history.length < 2 ^ 64 - 1)
    (stream : state.Stream profile setup.rte)
    (within : state.reader.readIndex.toNat ≤ history.length)
    (answered : ∀ result, event = .read result → result = source.read state.reader.readIndex)
    (move : Move profile setup state event next) (unsettled : ¬next.Settled history.length) :
    next.effort history.length + 1 ≤ state.effort history.length := by
  have empty := stream.carryFrame_eq_none
  have still := @SenderShmReader.tryRead_still profile _ _ _ holds room _ within
  cases move with
  | leave phase held stop | refuse phase reserve => exact absurd (.inl rfl) unsettled
  | pass phase held go | resume phase held =>
      simp only [effort, toDo, phase, held]
      omega
  | starve phase | stop phase | more phase =>
      have none : state.carryFrame = none := empty (by simp [phase]) (by simp [phase])
      simp only [effort, toDo, allocate, phase, none]
      omega
  | reserve phase reserve opened =>
      have none : state.carryFrame = none := empty (by simp [phase]) (by simp [phase])
      cases batching : setup.batchingEnabled with
      | true | false =>
          simp [effort, toDo, phase, none]
  | idle phase notOk =>
      have none : state.carryFrame = none := empty (by simp [phase]) (by simp [phase])
      cases answered _ rfl
      rcases still (Prod.eta _).symm with closer | ⟨-, same, all⟩
      · simp only [effort, toDo, phase, none]
        omega
      · exact absurd (.inr ⟨rfl, none, (congrArg UInt64.toNat same).trans all⟩) unsettled
  | drain phase notOk =>
      have none : state.carryFrame = none := empty (by simp [phase]) (by simp [phase])
      cases answered _ rfl
      rcases still (Prod.eta _).symm with closer | ⟨-, same, -⟩
      · simp only [effort, toDo, phase, none]
        omega
      · simp only [effort, toDo, SenderShmReader.lag, phase, none, same]
        omega
  | take phase ok | carry phase ok _ | append phase ok _ _ =>
      have none : state.carryFrame = none := empty (by simp [phase]) (by simp [phase])
      cases answered _ rfl
      rcases still ok with closer | ⟨other, -⟩
      · simp only [effort, toDo, offered, phase, none]
        omega
      · contradiction
  | complete phase =>
      cases held : state.carryFrame with
      | none | some _ =>
          simp only [effort, toDo, finish_phase, finish_carryFrame, finish_reader, phase, held]
          omega

end Moves

end SenderLoop

end Lldt.Transport
