import Lldt.Data.RetainedLog
import Lldt.Receiver.Delivery
import Lldt.Receiver.Stepwise
import Lldt.Ring.History
import Mathlib.Algebra.BigOperators.Group.List.Basic
import Mathlib.Data.List.Flatten
import Mathlib.Data.Set.List

namespace Lldt.Transport

open Lldt.Data.Bytes
open Lldt.Data.Maxima
open Lldt.Data.RetainedLog
open Lldt.Data.Selection
open Lldt.Dpdk
open Lldt.Msg
open Lldt.Shm

/-! What each stage between the two rings hands on is a subsequence of what it
was given. -/

variable {profile : Profile} {slots : SlotCount} {rte : Rte}

/-! The reader. -/

section Reader

variable {reader : SenderShmReader} {admitted log : List (List UInt8)} {ring : Ring slots}

theorem tryRead_valid (reader : SenderShmReader) (frame : ValidFrame profile) :
    ∃ view next, reader.tryRead profile (.kOk frame.len frame.bytes) = (.ok view, next) ∧
      next.readIndex = reader.readIndex + 1 ∧
      slice next.buffer 0 view.frameSize.toNat = frame.bytes := by
  have stored : slice (overwrite reader.buffer 0 frame.bytes) 0 frame.bytes.length =
      frame.bytes := slice_overwrite_self (Nat.zero_le _)
  have header := reader.header_overwrite profile frame.hasHeader
  have length := frame.toNat_len
  have size : (Header.load profile frame.bytes).frameSize = frame.len := by
    apply UInt32.toNat_inj.mp
    rw [frame.sized, length]
  rcases SenderShmReader.acceptFrame_cases profile
      { reader with buffer := overwrite reader.buffer 0 frame.bytes } frame.len with
    ⟨_, _, accepted⟩ | ⟨invalid, _⟩
  · refine ⟨_, _, accepted, ?_, ?_⟩
    · simp [SenderShmReader.counted]
    · simpa [SenderShmReader.counted] using stored
  · refine absurd ⟨?_, ?_⟩ invalid
    · rw [length]
      exact frame.hasHeader
    · rw [header, SenderShmReader.Sized, size]
      rintro (short | large | different)
      · rw [length] at short
        exact absurd frame.hasHeader (Nat.not_le.mpr short)
      · rw [UInt32.lt_iff_toNat_lt, length] at large
        exact absurd frame.fits (Nat.not_le.mpr large)
      · exact different rfl

/-- The reader follows the log, and what it admits are frames of the log. -/
theorem follows_admitNext (follows : Follows log reader.readIndex.toNat admitted)
    (holds : ring.Holds log) (room : log.length < 2 ^ 64 - 1)
    (valid : ∀ bytes ∈ log, ∃ frame : ValidFrame profile, frame.bytes = bytes) :
    let next := SenderLoop.admitNext profile (reader, admitted) (ring.read reader.readIndex)
    Follows log next.1.readIndex.toNat next.2 := by
  intro next
  rcases holds.read_of_follows room follows with
    read | ⟨resume, read, followed⟩ | ⟨bytes, member, read, followed⟩
  · simp only [next, read, SenderLoop.admitNext, SenderShmReader.tryRead]
    exact follows
  · simp only [next, read, SenderLoop.admitNext, SenderShmReader.tryRead]
    exact followed
  · obtain ⟨frame, rfl⟩ := valid bytes member
    obtain ⟨view, after, ok, index, shown⟩ := tryRead_valid reader frame
    have result : next = (after, admitted ++ [frame.bytes]) := by
      simp only [next, read]
      exact (SenderLoop.admitNext_ok ok).trans (by rw [shown])
    rwa [result, index]

end Reader

/-! The packets. -/

section Packets

variable {state : SenderLoop} {buffer : List UInt8} {admitted placed : List (List UInt8)}
  {lost : List Nat}

theorem SenderLoop.Accounts.sublist :
    ∀ {pending : Option (ValidatedSourceFrameView × Nat)},
      Accounts profile buffer admitted lost placed pending → placed.Sublist admitted
  | none, ⟨_, kept⟩ => kept ▸ without_sublist _ _
  | some _, ⟨before, frame, _, same, _, _, kept⟩ => by
      rw [same, ← kept]
      exact (without_sublist _ _).trans (List.sublist_append_left _ _)

theorem SenderLoop.Stream.finished_sublist (stream : state.Stream profile rte) :
    state.finished.Sublist state.log.admitted := by
  have placed := stream.placed
  unfold Placed at placed
  split at placed
  · exact Accounts.sublist placed
  · exact Accounts.sublist placed.2
  · exact Accounts.sublist placed.2
  · exact Accounts.sublist placed.2
  · exact (List.sublist_append_left _ _).trans (Accounts.sublist placed.2.2)
  · exact (List.sublist_append_left _ _).trans (Accounts.sublist placed.2.2)
  · exact (List.sublist_append_left _ _).trans (Accounts.sublist placed.2)

theorem SenderLoop.Stream.length_built_le (stream : state.Stream profile rte) :
    state.log.built.length ≤ state.finished.length := by
  have least := List.length_le_sum_of_one_le (state.log.built.map (·.records.length)) (by
    intro count member
    obtain ⟨packet, inside, rfl⟩ := List.mem_map.mp member
    obtain ⟨frames, sound⟩ := stream.built packet inside
    rw [sound.records, List.length_map]
    exact List.length_pos_iff.mpr sound.nonempty)
  rwa [List.length_map, ← List.length_flatMap] at least

/-- The packets that arrive ahead of all before them carry their records in the
order in which they were finished. -/
theorem SenderLoop.Stream.deliveredRecords_sublist (stream : state.Stream profile rte)
    (fewer : state.log.built.length < 2 ^ 64 - 1) {packets : List BuiltPacket}
    (sent : ∀ packet ∈ packets, packet ∈ state.log.built) :
    (deliveredRecords packets).Sublist state.finished := by
  have ordered : state.log.built.Pairwise fun first second => first.seq < second.seq := by
    rw [List.pairwise_iff_getElem]
    intro first second insideFirst insideSecond less
    rwa [stream.seq_eq fewer (List.getElem?_eq_getElem insideFirst),
      stream.seq_eq fewer (List.getElem?_eq_getElem insideSecond)]
  exact List.Sublist.flatMap (maxima_sublist_of_sorted ordered sent) _

end Packets

/-! The network. -/

def Deliverable (rte : Rte) (packets : List BuiltPacket) (mbuf : Mbuf) : Prop :=
  (∃ sent ∈ packets, mbuf.Receives sent.mbuf) ∨ tryParseCanonicalDataPacket rte mbuf = none

theorem SenderLoop.Stream.holdsFrames {state : SenderLoop} (stream : state.Stream profile rte)
    {mbuf : Mbuf} (deliverable : Deliverable rte state.log.built mbuf) :
    RunningReceiver.HoldsFrames profile rte mbuf := by
  intro parsed parses
  rcases deliverable with ⟨sent, isSent, receives⟩ | rejects
  · obtain ⟨frames, sound⟩ := stream.built sent isSent
    obtain ⟨view, viewed, -, encodes⟩ := sound.parses
    obtain ⟨other, arrives, -, held⟩ := tryParse_receives receives viewed encodes
    rw [parses] at arrives
    cases arrives
    exact ⟨frames, held⟩
  · rw [rejects] at parses
    contradiction

theorem exists_deliveries {packets : List BuiltPacket} {bursts : List (RxBurst Mbuf)}
    (deliverable : ∀ burst ∈ bursts, ∀ mbuf ∈ burst.items, Deliverable rte packets mbuf) :
    ∃ deliveries : List (RxBurst (Delivery rte packets)),
      deliveries.map (RxBurst.map Delivery.mbuf) = bursts := by
  have mbufs (mbuf : Mbuf) (can : Deliverable rte packets mbuf) :
      mbuf ∈ Set.range (@Delivery.mbuf rte packets) := by
    rcases can with ⟨sent, isSent, receives⟩ | rejects
    · exact ⟨.packet sent isSent mbuf receives, rfl⟩
    · exact ⟨.rejected mbuf rejects, rfl⟩
  change bursts ∈ Set.range (List.map _)
  rw [Set.range_list_map]
  intro burst member
  have items : burst.items ∈ Set.range (List.map (@Delivery.mbuf rte packets)) := by
    rw [Set.range_list_map]
    exact fun mbuf inside => mbufs mbuf (deliverable burst member mbuf inside)
  obtain ⟨deliveries, same⟩ := items
  refine ⟨⟨deliveries, ?_⟩, ?_⟩
  · rw [← List.length_map (f := Delivery.mbuf), same]
    exact burst.atMost
  · simp only [RxBurst.map, same]

/-- What the receiver has published are finished frames, in order, wherever it
stands in a packet. -/
theorem SenderLoop.Stream.published_sublist {state : SenderLoop}
    (stream : state.Stream profile rte) (fewer : state.log.built.length < 2 ^ 64 - 1)
    {receiver : RunningReceiver slots} {memory : Ring slots}
    (drained : receiver.drained profile rte =
      (ReceiverLoop.start (.attached memory)).run rte (ReceiverShmWriter.write profile)
        receiver.bursts)
    (deliverable : ∀ burst ∈ receiver.bursts, ∀ mbuf ∈ burst.items,
      Deliverable rte state.log.built mbuf) :
    receiver.loop.writer.published.Sublist state.finished := by
  obtain ⟨deliveries, same⟩ := exists_deliveries deliverable
  have received :=
    ReceiverLoop.received_of_run stream.built (stream.unwrapped fewer) memory deliveries
  have ahead : receiver.loop.writer.published <+:
      (receiver.drained profile rte).writer.published := receiver.published_drained
  rw [drained, ← same, received.published] at ahead
  exact ahead.sublist.trans
    (stream.deliveredRecords_sublist fewer fun packet => mem_of_delivered)

end Lldt.Transport
