import Lldt.Data.RetainedLog
import Lldt.Ring.History

namespace Lldt.Harness

open Lldt.Data.Bytes
open Lldt.Data.RetainedLog
open Lldt.Msg
open Lldt.Shm

/-! The consumer of the harness: it follows a ring and records the framing of
every frame it reads. -/

structure ConsumerConfig where
  count : UInt64
  fromEdge : Bool
  idleMs : UInt64

def ConsumerConfig.idleNs (config : ConsumerConfig) : UInt64 := config.idleMs * 1000000

structure Framing where
  seqId : UInt64
  sendTsNs : UInt64
  deriving DecidableEq, Repr

def loadFraming (frame : List UInt8) : Framing where
  seqId := loadU64 frame 0
  sendTsNs := loadU64 frame 8

structure Sample where
  seqId : UInt64
  latencyNs : UInt64
  deriving DecidableEq, Repr

structure FrameArea (profile : Profile) where
  bytes : List UInt8
  size : bytes.length = (kFrameCap profile).toNat

/-- The loop's variables, the calls of `record` so far and, beside them, the
frames that were read. -/
structure ConsumerLoop where
  readIndex : UInt64
  received : UInt64
  lappedEvents : UInt64
  lastProgress : UInt64
  frame : List UInt8
  stopped : Bool
  recorded : List Sample
  frames : List (List UInt8)

namespace ConsumerLoop

variable {profile : Profile} {slots : SlotCount} (config : ConsumerConfig)

def start (ring : Ring slots) (frame : FrameArea profile) (now : UInt64) : ConsumerLoop where
  readIndex := if config.fromEdge then ring.liveEdge else 0
  received := 0
  lappedEvents := 0
  lastProgress := now
  frame := frame.bytes
  stopped := false
  recorded := []
  frames := []

/-- The loop body, given what `ring.read(read_index, frame, ..)` did and the time
it asks for. -/
def body (state : ConsumerLoop) (result : ReadResult) (now : UInt64) : ConsumerLoop :=
  match result with
  | .kOk length out =>
      let frame := overwrite state.frame 0 out
      let framing := loadFraming frame
      let latency := if framing.sendTsNs < now then now - framing.sendTsNs else 0
      { state with
        frame := frame
        recorded := state.recorded ++ [⟨framing.seqId, latency⟩]
        frames := state.frames ++ [slice frame 0 length.toNat]
        received := state.received + 1
        readIndex := state.readIndex + 1
        lastProgress := now }
  | .kLapped resume out => { state with
      frame := overwrite state.frame 0 out
      lappedEvents := state.lappedEvents + 1
      readIndex := resume }
  | .kEmpty =>
      if config.idleNs < now - state.lastProgress then { state with stopped := true } else state

def step (state : ConsumerLoop) (ring : Ring slots) (now : UInt64) : Option ConsumerLoop :=
  if state.stopped = false ∧ (config.count = 0 ∨ state.received < config.count) then
    some (state.body config (ring.read state.readIndex) now)
  else none

/-- The consumer follows the log: it has read some of the frames before its read
index, in order, and recorded the sequence id of each. -/
structure Reads (log : List (List UInt8)) (state : ConsumerLoop) : Prop where
  follows : Follows log state.readIndex.toNat state.frames
  recorded : state.recorded.map Sample.seqId = state.frames.map fun frame => loadU64 frame 0

variable {config} {state : ConsumerLoop} {ring : Ring slots} {log : List (List UInt8)}

theorem reads_start (holds : ring.Holds log) (frame : FrameArea profile) (now : UInt64) :
    (start config ring frame now).Reads log := by
  refine ⟨.start ?_, rfl⟩
  unfold start
  split
  · exact Nat.le_of_eq holds.edge
  · exact Nat.zero_le _

theorem Reads.append (reads : state.Reads log) (more : List (List UInt8)) :
    state.Reads (log ++ more) :=
  ⟨reads.follows.append more, reads.recorded⟩

theorem loadFraming_overwrite {area frame : List UInt8} (whole : 8 ≤ frame.length) :
    (loadFraming (overwrite area 0 frame)).seqId = loadU64 frame 0 := by
  have same : slice (overwrite area 0 frame) 0 8 = slice frame 0 8 := by
    have stored : slice (overwrite area 0 frame) 0 frame.length = frame :=
      slice_overwrite_self (Nat.zero_le _)
    rw [← stored, slice_slice whole, List.drop_zero, stored]
  simp only [loadFraming, loadU64, same]

theorem Reads.step {next : ConsumerLoop} {now : UInt64} (reads : state.Reads log)
    (holds : ring.Holds log) (room : log.length < 2 ^ 64 - 1)
    (valid : ∀ bytes ∈ log, ∃ frame : ValidFrame profile, frame.bytes = bytes)
    (stepped : state.step config ring now = some next) : next.Reads log := by
  unfold ConsumerLoop.step at stepped
  split at stepped
  · cases stepped
    rcases holds.read_of_follows room reads.follows with
      read | ⟨resume, read, followed⟩ | ⟨bytes, member, read, followed⟩
    · simp only [read, body]
      split
      · exact ⟨reads.follows, reads.recorded⟩
      · exact reads
    · rw [read]
      exact ⟨followed, reads.recorded⟩
    · obtain ⟨frame, rfl⟩ := valid bytes member
      have length : (UInt32.ofNat frame.bytes.length).toNat = frame.bytes.length :=
        frame.toNat_len
      have copied : slice (overwrite state.frame 0 frame.bytes) 0 frame.bytes.length =
          frame.bytes := slice_overwrite_self (Nat.zero_le _)
      have whole : 8 ≤ frame.bytes.length := Nat.le_trans (by decide) frame.hasHeader
      refine ⟨?_, ?_⟩
      · simp only [read, body, length, copied]
        exact followed
      · simp only [read, body, length, copied, List.map_append, reads.recorded,
          List.map_singleton, loadFraming_overwrite whole]
  · contradiction

/-- The consumer entered the log at `entered` and was sent past `skipped` frames,
of which its count of laps tells. -/
structure Trails (log : List (List UInt8)) (entered skipped : Nat) (state : ConsumerLoop) :
    Prop where
  covers : Covers log entered state.readIndex.toNat state.frames skipped
  laps : state.lappedEvents.toNat ≤ skipped
  unlapped : state.lappedEvents = 0 → skipped = 0
  received : state.received.toNat = state.frames.length

theorem trails_start (holds : ring.Holds log) (frame : FrameArea profile) (now : UInt64) :
    (start config ring frame now).Trails log (if config.fromEdge then log.length else 0) 0 := by
  have entered : (start config ring frame now).readIndex.toNat =
      if config.fromEdge then log.length else 0 := by
    unfold start
    dsimp only
    split
    · exact holds.edge
    · rfl
  refine ⟨?_, Nat.le_refl _, fun _ => rfl, rfl⟩
  rw [entered]
  apply Covers.start
  split
  · exact Nat.le_refl _
  · exact Nat.zero_le _

section Trails

variable {entered skipped : Nat}

theorem Trails.append (trails : state.Trails log entered skipped) (more : List (List UInt8)) :
    state.Trails (log ++ more) entered skipped :=
  ⟨trails.covers.append more, trails.laps, trails.unlapped, trails.received⟩

theorem Trails.step {next : ConsumerLoop} {now : UInt64}
    (trails : state.Trails log entered skipped) (holds : ring.Holds log)
    (room : log.length < 2 ^ 64 - 1)
    (valid : ∀ bytes ∈ log, ∃ frame : ValidFrame profile, frame.bytes = bytes)
    (stepped : state.step config ring now = some next) :
    ∃ skipped, next.Trails log entered skipped := by
  obtain ⟨covers, laps, unlapped, received⟩ := trails
  have bound := covers.bound
  have counted := covers.counted
  unfold ConsumerLoop.step at stepped
  split at stepped
  · cases stepped
    rcases holds.read_of_covers room covers with
      read | ⟨resume, read, ahead, covered⟩ | ⟨bytes, member, read, covered⟩
    · refine ⟨skipped, ?_⟩
      simp only [read, body]
      split
      · exact ⟨covers, laps, unlapped, received⟩
      · exact ⟨covers, laps, unlapped, received⟩
    · have lap : (state.lappedEvents + 1).toNat = state.lappedEvents.toNat + 1 :=
        toNat_succ (by omega)
      rw [UInt64.lt_iff_toNat_lt] at ahead
      rw [read]
      refine ⟨_, covered, ?_, ?_, received⟩
      · show (state.lappedEvents + 1).toNat ≤ _
        omega
      · intro none
        have zero : (state.lappedEvents + 1).toNat = 0 := congrArg UInt64.toNat none
        omega
    · obtain ⟨frame, rfl⟩ := valid bytes member
      have length : (UInt32.ofNat frame.bytes.length).toNat = frame.bytes.length :=
        frame.toNat_len
      have copied : slice (overwrite state.frame 0 frame.bytes) 0 frame.bytes.length =
          frame.bytes := slice_overwrite_self (Nat.zero_le _)
      rw [read]
      refine ⟨skipped, ?_, laps, unlapped, ?_⟩
      · simp only [body, length, copied]
        exact covered
      · simp only [body, List.length_append, List.length_singleton]
        rw [toNat_succ (by omega), received]
  · contradiction

end Trails

end ConsumerLoop

end Lldt.Harness
