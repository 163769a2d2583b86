import Lldt.Data.Maxima
import Lldt.Receiver.Loop
import Lldt.Receiver.Writer
import Lldt.Sender.Stream

namespace Lldt.Transport

open Lldt.Data.Bytes
open Lldt.Data.Maxima
open Lldt.Data.Transition
open Lldt.Dpdk
open Lldt.Msg
open Lldt.Shm

/-! The receiver behind a network that loses, duplicates and reorders the
packets of one sender. -/

variable {profile : Profile} {slots : SlotCount} {rte : Rte}

def BuiltPacket.seq (packet : BuiltPacket) : Nat := packet.canonical.dataSeq.toNat

/-- What RX can hand over after a sender has built some packets: one of these
packets, or something the parser rejects. -/
inductive Delivery (rte : Rte) (packets : List BuiltPacket) where
  | packet (sent : BuiltPacket) (isSent : sent ∈ packets) (mbuf : Mbuf)
      (receives : mbuf.Receives sent.mbuf)
  | rejected (mbuf : Mbuf) (rejects : tryParseCanonicalDataPacket rte mbuf = none)

namespace Delivery

variable {packets : List BuiltPacket}

def mbuf : Delivery rte packets → Mbuf
  | .packet _ _ mbuf _ => mbuf
  | .rejected mbuf _ => mbuf

def sent? : Delivery rte packets → Option BuiltPacket
  | .packet sent _ _ _ => some sent
  | .rejected _ _ => none

end Delivery

def delivered {packets : List BuiltPacket} (deliveries : List (Delivery rte packets)) :
    List BuiltPacket :=
  deliveries.filterMap Delivery.sent?

theorem mem_of_delivered {packets : List BuiltPacket}
    {deliveries : List (Delivery rte packets)} {packet : BuiltPacket}
    (member : packet ∈ delivered deliveries) : packet ∈ packets := by
  obtain ⟨delivery, -, sent⟩ := List.mem_filterMap.mp member
  cases delivery with
  | packet sent isSent mbuf receives =>
      cases sent
      exact isSent
  | rejected mbuf rejects => contradiction

/-- The records of the packets that arrive ahead of all packets before them. -/
def deliveredRecords (packets : List BuiltPacket) : List (List UInt8) :=
  (maxima BuiltPacket.seq packets).flatMap BuiltPacket.records

namespace ReceiverLoop

/-- The state says of the packets delivered so far what the loop needs to know. -/
structure Received (state : ReceiverLoop (ReceiverShmWriter slots))
    (packets : List BuiltPacket) : Prop where
  established : state.dataSeqEstablished = !packets.isEmpty
  published : state.writer.published = deliveredRecords packets
  expected : packets ≠ [] → ∃ largest ∈ packets,
    (∀ packet ∈ packets, packet.seq ≤ largest.seq) ∧
      state.nextDataSeq.toNat = largest.seq + 1
  keeps : state.writer.Keeps

variable {state other : ReceiverLoop (ReceiverShmWriter slots)} {packets : List BuiltPacket}
  {sent : BuiltPacket}

theorem received_start (memory : Ring slots) :
    (start (.attached memory) : ReceiverLoop (ReceiverShmWriter slots)).Received [] where
  established := rfl
  published := rfl
  expected := fun nonempty => absurd rfl nonempty
  keeps := ReceiverShmWriter.keeps_attached memory

theorem Received.of_same (received : state.Received packets)
    (established : other.dataSeqEstablished = state.dataSeqEstablished)
    (next : other.nextDataSeq = state.nextDataSeq) (writer : other.writer = state.writer) :
    other.Received packets := by
  obtain ⟨begun, published, expected, keeps⟩ := received
  rw [← established] at begun
  rw [← next] at expected
  rw [← writer] at published keeps
  exact ⟨begun, published, expected, keeps⟩

theorem Received.stale_iff (received : state.Received packets)
    {packet : CanonicalDataPacketView} (same : packet.dataSeq.toNat = sent.seq) :
    packet.dataSeq < (state.establish packet).nextDataSeq ↔
      ¬∀ before ∈ packets, before.seq < sent.seq := by
  rw [establish_nextDataSeq, received.established]
  cases packets with
  | nil => simp
  | cons first rest =>
      obtain ⟨largest, member, above, next⟩ := received.expected (List.cons_ne_nil _ _)
      simp only [List.isEmpty_cons, Bool.not_false, if_true]
      rw [UInt64.lt_iff_toNat_lt, next, same]
      constructor
      · intro behind all
        have := all largest member
        omega
      · intro notAll
        by_contra ahead
        refine notAll fun before inside => ?_
        have := above before inside
        omega

theorem deliveredRecords_concat (packets : List BuiltPacket) (sent : BuiltPacket) :
    deliveredRecords (packets ++ [sent]) = deliveredRecords packets ++
      if ∀ before ∈ packets, before.seq < sent.seq then sent.records else [] := by
  rw [deliveredRecords, maxima_append_singleton, List.flatMap_append, deliveredRecords]
  split <;> simp

theorem Received.packet (received : state.Received packets) {mbuf : Mbuf}
    {frames : List (ValidFrame profile)} (sound : sent.Sound rte frames)
    (receives : mbuf.Receives sent.mbuf) (unwrapped : sent.seq + 1 < 2 ^ 64) :
    (state.onMbuf rte (ReceiverShmWriter.write profile) mbuf).Received (packets ++ [sent]) := by
  obtain ⟨parsed, parses, sequence, encodes⟩ := sound.parses
  obtain ⟨view, admits, viewSeq, viewEncodes⟩ := tryParse_receives receives parses encodes
  have same : view.dataSeq.toNat = sent.seq := by
    rw [viewSeq, sequence, BuiltPacket.seq]
  have begun : (state.receive mbuf).Received packets := received.of_same rfl rfl rfl
  rw [onMbuf_some admits, onPacket_eq]
  simp only [begun.stale_iff same]
  by_cases ahead : ∀ before ∈ packets, before.seq < sent.seq
  · rw [if_neg (not_not_intro ahead)]
    refine ⟨?_, ?_, fun _ => ⟨sent, by simp, ?_, ?_⟩, ?_⟩
    · rw [admitPacket_established, establish_established]
      simp
    · rw [admitPacket_writer, establish_writer, deliveredRecords_concat, if_pos ahead,
        sound.records, ← begun.published, ReceiverShmWriter.write,
        ReceiverShmWriter.writeCursor_encodes viewEncodes]
      exact ReceiverShmWriter.published_publishFrames _ frames
    · intro packet member
      rcases List.mem_append.mp member with earlier | last
      · exact Nat.le_of_lt (ahead packet earlier)
      · rw [List.mem_singleton.mp last]
    · change (view.dataSeq + 1).toNat = _
      rw [toNat_succ (by rwa [same]), same]
    · rw [admitPacket_writer, establish_writer, ReceiverShmWriter.write,
        ReceiverShmWriter.writeCursor_encodes viewEncodes]
      exact begun.keeps.publishFrames frames
  · rw [if_pos ahead]
    have nonempty : packets ≠ [] := by
      rintro rfl
      exact ahead fun before member => absurd member List.not_mem_nil
    obtain ⟨largest, member, above, next⟩ := begun.expected nonempty
    have already : (state.receive mbuf).dataSeqEstablished = true := by
      rw [begun.established]
      simpa using nonempty
    refine ⟨?_, ?_, fun _ => ⟨largest, List.mem_append_left _ member, ?_, ?_⟩, ?_⟩
    · change ((state.receive mbuf).establish view).dataSeqEstablished = _
      rw [establish_established]
      simp
    · change ((state.receive mbuf).establish view).writer.published = _
      rw [establish_writer, deliveredRecords_concat, if_neg ahead, List.append_nil,
        begun.published]
    · intro packet inside
      rcases List.mem_append.mp inside with earlier | last
      · exact above packet earlier
      · rw [List.mem_singleton.mp last]
        by_contra larger
        refine ahead fun before earlier => ?_
        have := above before earlier
        omega
    · change ((state.receive mbuf).establish view).nextDataSeq.toNat = _
      rw [establish_nextDataSeq, already]
      exact next
    · change ((state.receive mbuf).establish view).writer.Keeps
      rw [establish_writer]
      exact begun.keeps

theorem Received.rejected (received : state.Received packets) {mbuf : Mbuf}
    {write : ReceiverShmWriter slots → CanonicalDataPacketView → ReceiverShmWriter slots}
    (rejects : tryParseCanonicalDataPacket rte mbuf = none) :
    (state.onMbuf rte write mbuf).Received packets := by
  rw [onMbuf_none rejects]
  exact received.of_same rfl rfl rfl

theorem received_of_run
    (sound : ∀ packet ∈ packets, ∃ frames : List (ValidFrame profile), packet.Sound rte frames)
    (unwrapped : ∀ packet ∈ packets, packet.seq + 1 < 2 ^ 64) (memory : Ring slots)
    (bursts : List (RxBurst (Delivery rte packets))) :
    ((start (.attached memory)).run rte (ReceiverShmWriter.write profile)
      (bursts.map (RxBurst.map Delivery.mbuf))).Received
        (delivered (bursts.flatMap RxBurst.items)) := by
  apply run_history fun state seen => state.Received (delivered seen)
  · intro state other seen same received
    rw [same]
    exact received.of_same rfl rfl rfl
  · intro state seen item received
    rw [delivered, List.filterMap_append]
    cases item with
    | packet sent isSent mbuf receives =>
        obtain ⟨frames, carried⟩ := sound sent isSent
        exact received.packet carried receives (unwrapped sent isSent)
    | rejected mbuf rejects =>
        rw [List.filterMap_cons_none rfl, List.filterMap_nil, List.append_nil]
        exact received.rejected rejects
  · exact received_start memory

end ReceiverLoop

open ReceiverLoop SenderLoop

theorem SenderLoop.Stream.seq_eq {state : SenderLoop} (stream : state.Stream profile rte)
    (fewer : state.log.built.length < 2 ^ 64 - 1) {number : Nat} {packet : BuiltPacket}
    (found : state.log.built[number]? = some packet) : packet.seq = number := by
  obtain ⟨inside, -⟩ := List.getElem?_eq_some_iff.mp found
  rw [BuiltPacket.seq, stream.sequence number packet found]
  exact UInt64.toNat_ofNat_of_lt' (show _ < 2 ^ 64 by omega)

theorem SenderLoop.Stream.unwrapped {state : SenderLoop} (stream : state.Stream profile rte)
    (fewer : state.log.built.length < 2 ^ 64 - 1) :
    ∀ packet ∈ state.log.built, packet.seq + 1 < 2 ^ 64 := by
  intro packet member
  obtain ⟨number, found⟩ := List.mem_iff_getElem?.mp member
  obtain ⟨inside, -⟩ := List.getElem?_eq_some_iff.mp found
  rw [stream.seq_eq fewer found]
  omega

/-- The receiver publishes the records of the packets that arrive ahead of all
packets before them, whatever the network does, and its ring holds them. -/
theorem receive_delivered {setup : SenderSetup} (documented : setup.rte.Documented)
    {liveEdge : UInt64} {events : List SenderEvent} {sender : SenderLoop}
    (sends : Run (Step profile setup) (SenderLoop.start profile liveEdge) events sender)
    (fewer : sender.log.built.length < 2 ^ 64 - 1) (memory : Ring slots)
    (bursts : List (RxBurst (Delivery setup.rte sender.log.built))) :
    let receive (bursts : List (RxBurst (Delivery setup.rte sender.log.built))) :=
      (ReceiverLoop.start (.attached memory)).run setup.rte (ReceiverShmWriter.write profile)
        (bursts.map (RxBurst.map Delivery.mbuf))
    let packets := delivered (bursts.flatMap RxBurst.items)
    (∀ number (packet : BuiltPacket), sender.log.built[number]? = some packet →
      packet.seq = number ∧ ∃ frames : List (ValidFrame profile),
        frames ≠ [] ∧ packet.records = frames.map fun frame => frame.bytes) ∧
    (receive bursts).writer.published =
      (maxima BuiltPacket.seq packets).flatMap BuiltPacket.records ∧
    (∀ first ∈ packets.head?, first ∈ (maxima BuiltPacket.seq packets).head?) ∧
    (∀ others, delivered (others.flatMap RxBurst.items) = packets →
      (receive others).writer.published = (receive bursts).writer.published) ∧
    (∀ before after again others, packets = before ++ after → again ∈ before →
      delivered (others.flatMap RxBurst.items) = before ++ [again] ++ after →
      (receive others).writer.published = (receive bursts).writer.published) ∧
    (packets ≠ [] → ∃ largest ∈ packets, (∀ packet ∈ packets, packet.seq ≤ largest.seq) ∧
      (receive bursts).nextDataSeq.toNat = largest.seq + 1) ∧
    ((receive bursts).writer.published.length < 2 ^ 64 →
      (receive bursts).writer.ring.Holds (receive bursts).writer.published) := by
  intro receive packets
  have stream := stream_of_run documented sends
  have received := received_of_run stream.built (stream.unwrapped fewer) memory
  refine ⟨?_, (received bursts).published, ?_, ?_, ?_, (received bursts).expected,
    (received bursts).keeps⟩
  · intro number packet found
    obtain ⟨frames, sound⟩ := stream.built packet (List.mem_of_getElem? found)
    exact ⟨stream.seq_eq fewer found, frames, sound.nonempty, sound.records⟩
  · intro first member
    obtain ⟨rest, split⟩ := List.head?_eq_some_iff.mp member
    rw [split, maxima_cons]
    rfl
  · intro others same
    rw [(received others).published, (received bursts).published, same]
  · intro before after again others split earlier same
    rw [(received others).published, (received bursts).published, same]
    change _ = deliveredRecords packets
    rw [split, deliveredRecords, maxima_redundant ⟨again, earlier, Nat.le_refl _⟩,
      deliveredRecords]

theorem receive_delivered_reordered :
    ∃ (first second : BuiltPacket) (final : ReceiverLoop (ReceiverShmWriter ⟨4, 2, by decide⟩)),
      first.seq = 0 ∧ second.seq = 1 ∧ final.writer.published = second.records ∧
        final.nextDataSeq.toNat = 2 := by
  obtain ⟨sender, reached, two⟩ := Option.map_eq_some_iff.mp
    (show ((unbatched.foldlM (SenderLoop.step .compact (littleEndianSetup false))
      (SenderLoop.start .compact 0)).map fun state => state.log.built.length) = some 2
      by decide +kernel)
  have zero : sender.log.built[0]? = some sender.log.built[0] := List.getElem?_eq_getElem _
  have one : sender.log.built[1]? = some sender.log.built[1] := List.getElem?_eq_getElem _
  let first : Delivery (littleEndianSetup false).rte sender.log.built :=
    .packet sender.log.built[0] (List.getElem_mem _) sender.log.built[0].mbuf ⟨rfl, rfl⟩
  let second : Delivery (littleEndianSetup false).rte sender.log.built :=
    .packet sender.log.built[1] (List.getElem_mem _) sender.log.built[1].mbuf ⟨rfl, rfl⟩
  let burst : RxBurst (Delivery (littleEndianSetup false).rte sender.log.built) :=
    ⟨[second, first, second], by simp [rxBurstSize]⟩
  have order : delivered ([burst].flatMap RxBurst.items) =
      [sender.log.built[1], sender.log.built[0], sender.log.built[1]] := rfl
  obtain ⟨emitted, published, -, -, -, expected, -⟩ :=
    receive_delivered (show (littleEndianSetup false).rte.Documented from
      Rte.littleEndianHost_documented) (.of_foldlM reached) (by omega)
      ⟨9, fun _ => ⟨3, 0, fun _ => 0⟩⟩ [burst]
  rw [order] at published expected
  obtain ⟨firstSeq, -⟩ := emitted 0 _ zero
  obtain ⟨secondSeq, -⟩ := emitted 1 _ one
  refine ⟨_, _, _, firstSeq, secondSeq, published.trans ?_, ?_⟩
  · simp [maxima, maximaAfter, firstSeq, secondSeq]
  · obtain ⟨largest, member, above, next⟩ := expected (List.cons_ne_nil _ _)
    have reach := above _ List.mem_cons_self
    simp only [List.mem_cons, List.not_mem_nil, or_false] at member
    rw [next]
    rcases member with rfl | rfl | rfl <;> omega

end Lldt.Transport
