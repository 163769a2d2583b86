import Lldt.Consumer.Loop
import Lldt.Data.Holes

namespace Lldt.Harness

open Lldt.Data.Bytes
open Lldt.Data.Holes

/-! The delivery metrics of the consumer. -/

structure Report where
  received : UInt64 := 0
  expected : UInt64 := 0
  dropped : UInt64 := 0
  dropRate : Float := 0
  overflow : UInt64 := 0
  latMin : UInt64 := 0
  latMax : UInt64 := 0
  latMean : Float := 0
  p01 : UInt64 := 0
  p50 : UInt64 := 0
  p99 : UInt64 := 0
  p999 : UInt64 := 0
  p9999 : UInt64 := 0

/-- `samples` is the whole of `samples_`, of which the first `stored` are in use. -/
structure Accumulator where
  samples : List Sample
  stored : UInt64
  overflow : UInt64
  received : UInt64
  firstSeq : UInt64
  lastSeq : UInt64

namespace Accumulator

def new (capacity : UInt64) : Accumulator where
  samples := List.replicate capacity.toNat ⟨0, 0⟩
  stored := 0
  overflow := 0
  received := 0
  firstSeq := 0
  lastSeq := 0

/-- The sequence range after a call; the first call starts it. -/
def widen (accumulator : Accumulator) (seqId : UInt64) : Accumulator :=
  if accumulator.received = 0 then
    { accumulator with firstSeq := seqId, lastSeq := seqId }
  else { accumulator with
    firstSeq := if seqId < accumulator.firstSeq then seqId else accumulator.firstSeq
    lastSeq := if accumulator.lastSeq < seqId then seqId else accumulator.lastSeq }

def record (accumulator : Accumulator) (call : Sample) : Accumulator :=
  let accumulator := accumulator.widen call.seqId
  let accumulator := { accumulator with received := accumulator.received + 1 }
  if accumulator.stored = UInt64.ofNat accumulator.samples.length then
    { accumulator with overflow := accumulator.overflow + 1 }
  else { accumulator with
    samples := accumulator.samples.set accumulator.stored.toNat call
    stored := accumulator.stored + 1 }

def percentile (sorted : List UInt64) (p : Float) : UInt64 :=
  if sorted = [] then 0
  else
    let n := UInt64.ofNat sorted.length
    let exactRank := p * n.toFloat
    let rank := exactRank.toUInt64
    let rank := if rank.toFloat < exactRank then rank + 1 else rank
    let rank := if rank < 1 then 1 else rank
    let rank := if n < rank then n else rank
    sorted.getD (rank - 1).toNat 0

def latencies (accumulator : Accumulator) : List UInt64 :=
  (accumulator.samples.take accumulator.stored.toNat).map Sample.latencyNs

/-- `mean` stands for the `long double` sum and division. -/
def report (mean : List UInt64 → Float) (accumulator : Accumulator) : Report :=
  let result : Report := {
    received := accumulator.received
    overflow := accumulator.overflow }
  if accumulator.received = 0 then result
  else
    let expected := accumulator.lastSeq - accumulator.firstSeq + 1
    let dropped :=
      if accumulator.received < expected then expected - accumulator.received else 0
    let result := { result with
      expected := expected
      dropped := dropped
      dropRate := if expected ≠ 0 then dropped.toFloat / expected.toFloat else 0 }
    if accumulator.stored = 0 then result
    else
      let sorted := accumulator.latencies.mergeSort fun first second => decide (first ≤ second)
      { result with
        latMin := sorted.headD 0
        latMax := sorted.getLastD 0
        latMean := mean accumulator.latencies
        p01 := percentile sorted 0.01
        p50 := percentile sorted 0.50
        p99 := percentile sorted 0.99
        p999 := percentile sorted 0.999
        p9999 := percentile sorted 0.9999 }

def recordAll (accumulator : Accumulator) (calls : List Sample) : Accumulator :=
  calls.foldl record accumulator

/-! The accumulator against the calls made so far. -/

/-- The smallest and the largest sequence id of some calls. -/
structure Spans (calls : List Sample) (least greatest : UInt64) : Prop where
  least_mem : least ∈ calls.map Sample.seqId
  greatest_mem : greatest ∈ calls.map Sample.seqId
  inside : ∀ call ∈ calls, least ≤ call.seqId ∧ call.seqId ≤ greatest

structure Recorded (accumulator : Accumulator) (capacity : UInt64) (calls : List Sample) :
    Prop where
  size : accumulator.samples.length = capacity.toNat
  stored : accumulator.stored.toNat = min calls.length capacity.toNat
  overflow : accumulator.overflow.toNat = calls.length - capacity.toNat
  received : accumulator.received.toNat = calls.length
  samples : accumulator.samples.take accumulator.stored.toNat = calls.take capacity.toNat
  spans : calls ≠ [] → Spans calls accumulator.firstSeq accumulator.lastSeq

theorem recorded_new (capacity : UInt64) : (new capacity).Recorded capacity [] where
  size := List.length_replicate
  stored := (Nat.zero_min _).symm
  overflow := (Nat.zero_sub _).symm
  received := rfl
  samples := by simp [new]
  spans := fun nonempty => absurd rfl nonempty

theorem spans_singleton (call : Sample) : Spans [call] call.seqId call.seqId where
  least_mem := by simp
  greatest_mem := by simp
  inside := by simp

theorem Spans.append {calls : List Sample} {least greatest : UInt64}
    (spans : Spans calls least greatest) (call : Sample) :
    Spans (calls ++ [call]) (if call.seqId < least then call.seqId else least)
      (if greatest < call.seqId then call.seqId else greatest) := by
  have leastMem := spans.least_mem
  have greatestMem := spans.greatest_mem
  refine ⟨?_, ?_, ?_⟩
  · split
    · simp
    · simp only [List.map_append, List.mem_append]
      exact .inl leastMem
  · split
    · simp
    · simp only [List.map_append, List.mem_append]
      exact .inl greatestMem
  · intro other member
    rcases List.mem_append.mp member with earlier | last
    · have inside := spans.inside other earlier
      simp only [UInt64.le_iff_toNat_le, UInt64.lt_iff_toNat_lt] at inside ⊢
      constructor <;> split <;> omega
    · rw [List.mem_singleton.mp last]
      simp only [UInt64.le_iff_toNat_le, UInt64.lt_iff_toNat_lt]
      constructor <;> split <;> omega

section Widen

variable (accumulator : Accumulator) (seqId : UInt64)

@[simp] theorem widen_samples : (accumulator.widen seqId).samples = accumulator.samples := by
  unfold widen
  split <;> rfl

@[simp] theorem widen_stored : (accumulator.widen seqId).stored = accumulator.stored := by
  unfold widen
  split <;> rfl

@[simp] theorem widen_overflow : (accumulator.widen seqId).overflow = accumulator.overflow := by
  unfold widen
  split <;> rfl

@[simp] theorem widen_received : (accumulator.widen seqId).received = accumulator.received := by
  unfold widen
  split <;> rfl

end Widen

variable {accumulator : Accumulator} {capacity : UInt64} {calls : List Sample}

theorem Recorded.widen (recorded : accumulator.Recorded capacity calls) (call : Sample)
    (room : calls.length < 2 ^ 64) :
    Spans (calls ++ [call]) (accumulator.widen call.seqId).firstSeq
      (accumulator.widen call.seqId).lastSeq := by
  have received := recorded.received
  unfold Accumulator.widen
  split
  · rename_i first
    rw [first] at received
    have none : calls = [] := List.length_eq_zero_iff.mp received.symm
    subst none
    exact spans_singleton call
  · rename_i later
    refine (recorded.spans ?_).append call
    rintro rfl
    exact later (UInt64.toNat_inj.mp received)

theorem Recorded.record (recorded : accumulator.Recorded capacity calls) (call : Sample)
    (room : calls.length + 1 < 2 ^ 64) :
    (accumulator.record call).Recorded capacity (calls ++ [call]) := by
  have spans := recorded.widen call (by omega)
  obtain ⟨size, stored, overflow, received, samples, -⟩ := recorded
  have capacityLt := capacity.toNat_lt
  have length : (calls ++ [call]).length = calls.length + 1 := by simp
  have counted : (accumulator.received + 1).toNat = calls.length + 1 := by
    rw [toNat_succ (by omega), received]
  have full : accumulator.stored = UInt64.ofNat accumulator.samples.length ↔
      capacity.toNat ≤ calls.length := by
    rw [← UInt64.toNat_inj, size, UInt64.ofNat_toNat, stored]
    omega
  unfold Accumulator.record
  simp only [widen_samples, widen_stored, widen_received, widen_overflow, full]
  split
  · rename_i beyond
    refine ⟨size, ?_, ?_, ?_, ?_, fun _ => spans⟩
    · dsimp only
      rw [stored, length]
      omega
    · rw [toNat_succ (by omega), overflow, length]
      omega
    · rw [counted, length]
    · dsimp only
      rw [samples, List.take_append_of_le_length beyond]
  · rename_i within
    have position : accumulator.stored.toNat = calls.length := by
      omega
    have advanced : (accumulator.stored + 1).toNat = calls.length + 1 := by
      rw [toNat_succ (by omega), position]
    have inUse : accumulator.samples.take calls.length = calls := by
      rw [← position, samples]
      exact List.take_of_length_le (by omega)
    refine ⟨?_, ?_, ?_, ?_, ?_, fun _ => spans⟩
    · rw [List.length_set, size]
    · rw [advanced, length]
      omega
    · dsimp only
      rw [overflow, length]
      omega
    · rw [counted, length]
    · rw [advanced, position, List.take_add_one, List.take_set_of_le (Nat.le_refl _), inUse,
        List.getElem?_set_self (by omega), List.take_of_length_le (by omega)]
      rfl

theorem recorded_recordAll (capacity : UInt64) (calls : List Sample)
    (room : calls.length < 2 ^ 64) :
    ((new capacity).recordAll calls).Recorded capacity calls := by
  induction calls using List.reverseRecOn with
  | nil => exact recorded_new capacity
  | append_singleton calls call ih =>
      rw [List.length_append, List.length_singleton] at room
      rw [recordAll, List.foldl_append]
      exact (ih (by omega)).record call room

theorem Recorded.received_ne_zero (recorded : accumulator.Recorded capacity calls)
    (nonempty : calls ≠ []) : accumulator.received ≠ 0 := by
  intro zero
  have length := recorded.received
  rw [zero] at length
  exact nonempty (List.length_eq_zero_iff.mp length.symm)

/-! The report. -/

section Report

variable (mean : List UInt64 → Float)

@[simp] theorem report_received : (accumulator.report mean).received = accumulator.received := by
  unfold report
  split <;> [rfl; (dsimp only; split <;> rfl)]

@[simp] theorem report_overflow : (accumulator.report mean).overflow = accumulator.overflow := by
  unfold report
  split <;> [rfl; (dsimp only; split <;> rfl)]

theorem report_expected (some : accumulator.received ≠ 0) :
    (accumulator.report mean).expected = accumulator.lastSeq - accumulator.firstSeq + 1 := by
  unfold report
  rw [if_neg some]
  dsimp only
  split <;> rfl

theorem report_dropped (some : accumulator.received ≠ 0) :
    (accumulator.report mean).dropped =
      if accumulator.received < (accumulator.report mean).expected then
        (accumulator.report mean).expected - accumulator.received
      else 0 := by
  rw [report_expected mean some]
  unfold report
  rw [if_neg some]
  dsimp only
  split <;> rfl

/-- The extremes of the sorted latencies are those of the stored ones. -/
theorem report_latencies (some : accumulator.received ≠ 0)
    (nonempty : accumulator.latencies ≠ []) :
    ((accumulator.report mean).latMin ∈ accumulator.latencies ∧
      ∀ latency ∈ accumulator.latencies, (accumulator.report mean).latMin ≤ latency) ∧
    ((accumulator.report mean).latMax ∈ accumulator.latencies ∧
      ∀ latency ∈ accumulator.latencies, latency ≤ (accumulator.report mean).latMax) := by
  have kept : accumulator.stored ≠ 0 := by
    intro zero
    rw [latencies, zero] at nonempty
    exact nonempty rfl
  let le (first second : UInt64) : Bool := decide (first ≤ second)
  have ordered : (accumulator.latencies.mergeSort le).Pairwise (· ≤ ·) := by
    have sorted := @List.pairwise_mergeSort _ le
      (fun first second third one two => by
        simp only [le, decide_eq_true_eq] at one two ⊢
        exact UInt64.le_trans one two)
      (fun first second => by
        simp only [le, Bool.or_eq_true, decide_eq_true_eq]
        exact UInt64.le_total first second) accumulator.latencies
    exact sorted.imp fun one => of_decide_eq_true one
  have members (latency : UInt64) : latency ∈ accumulator.latencies.mergeSort le ↔
      latency ∈ accumulator.latencies := List.mem_mergeSort
  have sortedNonempty : accumulator.latencies.mergeSort le ≠ [] := by
    intro none
    have length := congrArg List.length none
    rw [List.length_mergeSort] at length
    exact nonempty (List.length_eq_zero_iff.mp length)
  have least : (accumulator.report mean).latMin =
      (accumulator.latencies.mergeSort le).head sortedNonempty := by
    unfold report
    rw [if_neg some, if_neg kept]
    dsimp only
    rw [List.headD_eq_head?_getD, List.head?_eq_some_head sortedNonempty]
    rfl
  have greatest : (accumulator.report mean).latMax =
      (accumulator.latencies.mergeSort le).getLast sortedNonempty := by
    unfold report
    rw [if_neg some, if_neg kept]
    dsimp only
    rw [List.getLastD_eq_getLast?, List.getLast?_eq_some_getLast sortedNonempty]
    rfl
  rw [least, greatest]
  refine ⟨⟨(members _).mp (List.head_mem _), ?_⟩, ⟨(members _).mp (List.getLast_mem _), ?_⟩⟩
  · intro latency member
    exact ordered.rel_head ((members latency).mpr member)
  · intro latency member
    exact ordered.rel_getLast ((members latency).mpr member)

end Report

/-! Distinct sequence ids from one on: there are fewer than 2^64 calls, and the
range they span is made up of them and of the ids never recorded. -/

theorem Spans.unique {least greatest otherLeast otherGreatest : UInt64}
    {others : List Sample} (spans : Spans calls least greatest)
    (other : Spans others otherLeast otherGreatest) (same : others.Perm calls) :
    least = otherLeast ∧ greatest = otherGreatest := by
  obtain ⟨first, firstMem, rfl⟩ := List.mem_map.mp spans.least_mem
  obtain ⟨last, lastMem, rfl⟩ := List.mem_map.mp spans.greatest_mem
  obtain ⟨otherFirst, otherFirstMem, rfl⟩ := List.mem_map.mp other.least_mem
  obtain ⟨otherLast, otherLastMem, rfl⟩ := List.mem_map.mp other.greatest_mem
  refine ⟨?_, ?_⟩
  · exact UInt64.le_antisymm (spans.inside _ (same.mem_iff.mp otherFirstMem)).1
      (other.inside _ (same.mem_iff.mpr firstMem)).1
  · exact UInt64.le_antisymm (other.inside _ (same.mem_iff.mpr lastMem)).2
      (spans.inside _ (same.mem_iff.mp otherLastMem)).2

def numbers (calls : List Sample) : List Nat := calls.map fun call => call.seqId.toNat

theorem nodup_numbers (distinct : (calls.map Sample.seqId).Nodup) : (numbers calls).Nodup := by
  have injective : Function.Injective UInt64.toNat := fun _ _ => UInt64.toNat_inj.mp
  have mapped := distinct.map injective
  rwa [List.map_map] at mapped

theorem length_lt_of_distinct (distinct : (calls.map Sample.seqId).Nodup)
    (positive : ∀ call ∈ calls, 1 ≤ call.seqId) : calls.length < 2 ^ 64 := by
  have inside : ∀ number ∈ numbers calls, 1 ≤ number ∧ number < 2 ^ 64 := by
    intro number member
    obtain ⟨call, called, rfl⟩ := List.mem_map.mp member
    exact ⟨UInt64.le_iff_toNat_le.mp (positive call called), call.seqId.toNat_lt⟩
  have counted := card_holes (nodup_numbers distinct) inside
  rw [numbers, List.length_map] at counted
  omega

theorem Spans.missing {least greatest : UInt64} (spans : Spans calls least greatest)
    (distinct : (calls.map Sample.seqId).Nodup) :
    (holes least.toNat (greatest.toNat + 1) (numbers calls)).card + calls.length =
      greatest.toNat + 1 - least.toNat := by
  have inside : ∀ number ∈ numbers calls,
      least.toNat ≤ number ∧ number < greatest.toNat + 1 := by
    intro number member
    obtain ⟨call, called, rfl⟩ := List.mem_map.mp member
    have range := spans.inside call called
    simp only [UInt64.le_iff_toNat_le] at range
    omega
  have counted := card_holes (nodup_numbers distinct) inside
  rwa [numbers, List.length_map] at counted

/-- What `report` says of the sequence ids of some calls. -/
theorem report_counts (mean : List UInt64 → Float) (capacity : UInt64)
    (nonempty : calls ≠ []) (distinct : (calls.map Sample.seqId).Nodup)
    (positive : ∀ call ∈ calls, 1 ≤ call.seqId) :
    let report := ((new capacity).recordAll calls).report mean
    report.received.toNat = calls.length ∧
      report.overflow.toNat = calls.length - capacity.toNat ∧
      report.expected.toNat = report.received.toNat + report.dropped.toNat ∧
      ∃ least greatest, Spans calls least greatest ∧ report.dropped.toNat =
        (holes least.toNat (greatest.toNat + 1) (numbers calls)).card := by
  intro report
  have recorded := recorded_recordAll capacity calls (length_lt_of_distinct distinct positive)
  have spans := recorded.spans nonempty
  have received : report.received.toNat = calls.length := by
    rw [report_received, recorded.received]
  have overflow : report.overflow.toNat = calls.length - capacity.toNat := by
    rw [report_overflow, recorded.overflow]
  have some := recorded.received_ne_zero nonempty
  obtain ⟨first, firstMem, firstEq⟩ := List.mem_map.mp spans.least_mem
  have least := positive first firstMem
  have ordered := spans.inside first firstMem
  have counted := spans.missing distinct
  rw [firstEq] at least ordered
  simp only [UInt64.le_iff_toNat_le, UInt64.toNat_one] at least ordered
  have upper := ((new capacity).recordAll calls).lastSeq.toNat_lt
  have expected : report.expected.toNat =
      ((new capacity).recordAll calls).lastSeq.toNat + 1 -
        ((new capacity).recordAll calls).firstSeq.toNat := by
    have width : (((new capacity).recordAll calls).lastSeq -
        ((new capacity).recordAll calls).firstSeq).toNat = _ :=
      UInt64.toNat_sub_of_le _ _ (UInt64.le_iff_toNat_le.mpr ordered.2)
    rw [report_expected mean some, toNat_succ (by omega), width]
    omega
  have dropped : report.dropped.toNat = report.expected.toNat - report.received.toNat := by
    rw [report_dropped mean some, report_received]
    split
    · rename_i less
      exact UInt64.toNat_sub_of_le _ _ (UInt64.le_of_lt less)
    · rename_i notLess
      rw [UInt64.lt_iff_toNat_lt] at notLess
      exact (Nat.sub_eq_zero_of_le (Nat.not_lt.mp notLess)).symm
  refine ⟨received, overflow, by omega, _, _, spans, by omega⟩

/-- Sequence ids that lie close together leave few to be reported as dropped. -/
theorem report_dropped_le (mean : List UInt64 → Float) (capacity : UInt64) {bound : Nat}
    (distinct : (calls.map Sample.seqId).Nodup) (positive : ∀ call ∈ calls, 1 ≤ call.seqId)
    (close : ∀ first ∈ calls, ∀ last ∈ calls,
      last.seqId.toNat < first.seqId.toNat + (calls.length + bound)) :
    (((new capacity).recordAll calls).report mean).dropped.toNat ≤ bound := by
  cases calls with
  | nil => exact Nat.zero_le _
  | cons call rest =>
      obtain ⟨-, -, -, least, greatest, spans, dropped⟩ :=
        report_counts mean capacity (List.cons_ne_nil call rest) distinct positive
      obtain ⟨first, isFirst, rfl⟩ := List.mem_map.mp spans.least_mem
      obtain ⟨last, isLast, rfl⟩ := List.mem_map.mp spans.greatest_mem
      have apart := close first isFirst last isLast
      have counted := spans.missing distinct
      rw [dropped]
      omega

theorem Recorded.latencies_eq (recorded : accumulator.Recorded capacity calls) :
    accumulator.latencies =
      (calls.take (min calls.length capacity.toNat)).map Sample.latencyNs := by
  rw [latencies, recorded.samples, List.take_eq_take_min, Nat.min_comm]

/-- The delivery metrics count exactly, whatever the order of the calls. -/
theorem report_exact (mean : List UInt64 → Float) (capacity : UInt64) {calls : List Sample}
    (nonempty : calls ≠ []) (distinct : (calls.map Sample.seqId).Nodup)
    (positive : ∀ call ∈ calls, 1 ≤ call.seqId) :
    let report := ((new capacity).recordAll calls).report mean
    let kept := (calls.take (min calls.length capacity.toNat)).map Sample.latencyNs
    report.received.toNat = calls.length ∧
      report.overflow.toNat = calls.length - capacity.toNat ∧
      report.expected.toNat = report.received.toNat + report.dropped.toNat ∧
      (∃ least greatest, Spans calls least greatest ∧ report.dropped.toNat =
        (holes least.toNat (greatest.toNat + 1) (numbers calls)).card) ∧
      (∀ others : List Sample, others.Perm calls →
        let other := ((new capacity).recordAll others).report mean
        other.received = report.received ∧ other.expected = report.expected ∧
          other.dropped = report.dropped ∧ other.overflow = report.overflow) ∧
      (kept ≠ [] →
        (report.latMin ∈ kept ∧ ∀ latency ∈ kept, report.latMin ≤ latency) ∧
        (report.latMax ∈ kept ∧ ∀ latency ∈ kept, latency ≤ report.latMax)) := by
  intro report kept
  obtain ⟨received, overflow, expected, least, greatest, spans, dropped⟩ :=
    report_counts mean capacity nonempty distinct positive
  refine ⟨received, overflow, expected, ⟨least, greatest, spans, dropped⟩, ?_, ?_⟩
  · intro others same other
    have ids := same.map Sample.seqId
    obtain ⟨otherReceived, otherOverflow, otherExpected, otherLeast, otherGreatest,
      otherSpans, otherDropped⟩ :=
      report_counts mean capacity (by rintro rfl; exact nonempty same.nil_eq.symm)
        (ids.nodup_iff.mpr distinct) fun call member => positive call (same.mem_iff.mp member)
    obtain ⟨rfl, rfl⟩ := spans.unique otherSpans same
    have sameHoles : holes least.toNat (greatest.toNat + 1) (numbers others) =
        holes least.toNat (greatest.toNat + 1) (numbers calls) :=
      holes_congr fun number => (same.map fun call => call.seqId.toNat).mem_iff
    have sameReceived : other.received.toNat = report.received.toNat :=
      otherReceived.trans (same.length_eq.trans received.symm)
    have sameDropped : other.dropped.toNat = report.dropped.toNat := by
      rw [dropped, ← sameHoles]
      exact otherDropped
    have sameExpected : other.expected.toNat = report.expected.toNat := by
      rw [expected, ← sameReceived, ← sameDropped]
      exact otherExpected
    have sameOverflow : other.overflow.toNat = report.overflow.toNat := by
      rw [overflow, ← same.length_eq]
      exact otherOverflow
    exact ⟨UInt64.toNat_inj.mp sameReceived, UInt64.toNat_inj.mp sameExpected,
      UInt64.toNat_inj.mp sameDropped, UInt64.toNat_inj.mp sameOverflow⟩
  · intro some
    have recorded := recorded_recordAll capacity calls (length_lt_of_distinct distinct positive)
    have stored := recorded.latencies_eq
    have extremes := report_latencies mean (recorded.received_ne_zero nonempty)
      (by rw [stored]; exact some)
    rwa [stored] at extremes

theorem report_exact_unordered :
    let report := ((new 2).recordAll [⟨5, 30⟩, ⟨2, 10⟩, ⟨3, 20⟩]).report fun _ => 0
    report.received.toNat = 3 ∧ report.overflow.toNat = 1 ∧
      report.expected.toNat = report.received.toNat + report.dropped.toNat := by
  intro report
  obtain ⟨received, overflow, expected, -⟩ :=
    @report_exact (fun _ => 0) 2 [⟨5, 30⟩, ⟨2, 10⟩, ⟨3, 20⟩] (by decide) (by decide) (by decide)
  exact ⟨received, overflow, expected⟩

end Accumulator

end Lldt.Harness
