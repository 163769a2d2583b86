import Lldt.Receiver.Delivery

namespace Lldt.Transport

open Lldt.Data.Bytes
open Lldt.Data.Maxima
open Lldt.Data.Transition
open Lldt.Dpdk
open Lldt.Msg
open Lldt.Shm

/-! A sender that starts anew while the receiver goes on.  There is no session on the
wire: the new run counts from zero again. -/

variable {profile : Profile} {slots : SlotCount} {rte : Rte}

namespace ReceiverLoop

/-- The receiver after some packets, with its expectation before the first one. -/
structure Expects (state : ReceiverLoop (ReceiverShmWriter slots))
    (packets : List BuiltPacket) : Prop where
  received : state.Received packets
  initial : packets = [] → state.nextDataSeq = 0

variable {state : ReceiverLoop (ReceiverShmWriter slots)} {before packets : List BuiltPacket}

/-- The expectation is what the packets so far leave open. -/
theorem Expects.exceeds_iff (expects : state.Expects before) (packet : BuiltPacket) :
    exceeds BuiltPacket.seq before packet = decide (state.nextDataSeq.toNat ≤ packet.seq) := by
  rw [exceeds, decide_eq_decide]
  cases before with
  | nil =>
      rw [expects.initial rfl]
      exact iff_of_true (fun other member => absurd member List.not_mem_nil) (Nat.zero_le _)
  | cons first rest =>
      obtain ⟨largest, member, above, next⟩ := expects.received.expected (List.cons_ne_nil _ _)
      rw [next]
      constructor
      · intro all
        exact all largest member
      · intro ahead other inside
        exact Nat.lt_of_le_of_lt (above other inside) ahead

/-- The receiver goes on through what RX yields of a sender's packets. -/
theorem Expects.run (expects : state.Expects before)
    (sound : ∀ packet ∈ packets, ∃ frames : List (ValidFrame profile), packet.Sound rte frames)
    (unwrapped : ∀ packet ∈ packets, packet.seq + 1 < 2 ^ 64)
    (bursts : List (RxBurst (Delivery rte packets))) :
    (state.run rte (ReceiverShmWriter.write profile)
      (bursts.map (RxBurst.map Delivery.mbuf))).Expects
        (before ++ delivered (bursts.flatMap RxBurst.items)) := by
  apply run_history fun state seen => state.Expects (before ++ delivered seen)
  · intro state other seen same expects
    rw [same]
    exact ⟨expects.received.of_same rfl rfl rfl, expects.initial⟩
  · intro state seen item expects
    rw [delivered, List.filterMap_append]
    cases item with
    | packet sent isSent mbuf receives =>
        obtain ⟨frames, carried⟩ := sound sent isSent
        rw [← List.append_assoc]
        exact ⟨expects.received.packet carried receives (unwrapped sent isSent),
          fun empty => absurd empty (List.append_ne_nil_of_right_ne_nil _ (List.cons_ne_nil _ _))⟩
    | rejected mbuf rejects =>
        rw [List.filterMap_cons_none rfl, List.filterMap_nil, List.append_nil]
        refine ⟨expects.received.rejected rejects, fun empty => ?_⟩
        rw [Delivery.mbuf, onMbuf_none rejects]
        exact expects.initial empty
  · rw [delivered, List.filterMap_nil, List.append_nil]
    exact expects

theorem expects_start (memory : Ring slots) :
    (start (.attached memory) : ReceiverLoop (ReceiverShmWriter slots)).Expects [] where
  received := received_start memory
  initial _ := rfl

/-- What is published after some packets, when others came before them. -/
theorem Expects.published_append {other : ReceiverLoop (ReceiverShmWriter slots)}
    (expects : state.Expects before) (received : other.Received (before ++ packets)) :
    other.writer.published = state.writer.published ++
      deliveredRecords (packets.filter fun packet => state.nextDataSeq.toNat ≤ packet.seq) := by
  have ahead : exceeds BuiltPacket.seq before =
      fun packet => decide (state.nextDataSeq.toNat ≤ packet.seq) := by
    funext packet
    exact expects.exceeds_iff packet
  rw [received.published, expects.received.published, deliveredRecords, maxima,
    maximaAfter_append, List.flatMap_append, List.nil_append,
    maximaAfter_eq_filter before packets, ahead]
  rfl

end ReceiverLoop

open ReceiverLoop SenderLoop

/-- A receiver that goes on through a restart of the sender: the packets of the new
run that are below its expectation are not published. -/
theorem restart_skips {setup : SenderSetup} (documented : setup.rte.Documented)
    {liveEdge liveEdgeAgain : UInt64} {events eventsAgain : List SenderEvent}
    {first second : SenderLoop}
    (sends : Run (Step profile setup) (SenderLoop.start profile liveEdge) events first)
    (sendsAgain :
      Run (Step profile setup) (SenderLoop.start profile liveEdgeAgain) eventsAgain second)
    (fewer : first.log.built.length < 2 ^ 64 - 1)
    (fewerAgain : second.log.built.length < 2 ^ 64 - 1) (memory : Ring slots)
    (bursts : List (RxBurst (Delivery setup.rte first.log.built)))
    (burstsAgain : List (RxBurst (Delivery setup.rte second.log.built))) :
    let before := (ReceiverLoop.start (.attached memory)).run setup.rte
      (ReceiverShmWriter.write profile) (bursts.map (RxBurst.map Delivery.mbuf))
    let after := before.run setup.rte (ReceiverShmWriter.write profile)
      (burstsAgain.map (RxBurst.map Delivery.mbuf))
    let packets := delivered (burstsAgain.flatMap RxBurst.items)
    after.writer.published = before.writer.published ++
        (maxima BuiltPacket.seq
          (packets.filter fun packet => before.nextDataSeq.toNat ≤ packet.seq)).flatMap
            BuiltPacket.records ∧
      (packets = second.log.built → after.writer.published = before.writer.published ++
        (second.log.built.drop before.nextDataSeq.toNat).flatMap BuiltPacket.records) := by
  intro before after packets
  have stream := stream_of_run documented sends
  have streamAgain := stream_of_run documented sendsAgain
  have expects := (expects_start memory).run stream.built (stream.unwrapped fewer) bursts
  have expectsAgain :=
    expects.run streamAgain.built (streamAgain.unwrapped fewerAgain) burstsAgain
  have published := expects.published_append expectsAgain.received
  refine ⟨published, fun all => ?_⟩
  have indexed : ∀ number (packet : BuiltPacket), second.log.built[number]? = some packet →
      packet.seq = number := fun number packet found => streamAgain.seq_eq fewerAgain found
  change after.writer.published = _ ++ deliveredRecords (packets.filter _) at published
  rw [published, all, filter_of_indexed indexed, deliveredRecords, maxima_of_sorted]
  exact (pairwise_of_indexed indexed).sublist (List.drop_sublist _ _)

/-- One packet of the first run is enough for the first packet of the next run to be
lost. -/
theorem restart_skips_first :
    ∃ (first second : BuiltPacket) (final : ReceiverLoop (ReceiverShmWriter ⟨4, 2, by decide⟩)),
      first.seq = 0 ∧ second.seq = 1 ∧
        final.writer.published = first.records ++ second.records := by
  obtain ⟨sender, reached, two⟩ := Option.map_eq_some_iff.mp
    (show ((unbatched.foldlM (SenderLoop.step .compact (littleEndianSetup false))
      (SenderLoop.start .compact 0)).map fun state => state.log.built.length) = some 2
      by decide +kernel)
  obtain ⟨zero, one, builds⟩ := List.length_eq_two.mp two
  have sends := Run.of_foldlM reached
  have documented : (littleEndianSetup false).rte.Documented :=
    Rte.littleEndianHost_documented
  have stream := stream_of_run documented sends
  have zeroSeq := stream.seq_eq (by omega) (show sender.log.built[0]? = some zero by simp [builds])
  have oneSeq := stream.seq_eq (by omega) (show sender.log.built[1]? = some one by simp [builds])
  let sent (packet : BuiltPacket) (member : packet ∈ sender.log.built) :
      Delivery (littleEndianSetup false).rte sender.log.built :=
    .packet packet member packet.mbuf ⟨rfl, rfl⟩
  have zeroSent : zero ∈ sender.log.built := by simp [builds]
  have oneSent : one ∈ sender.log.built := by simp [builds]
  let burst : RxBurst (Delivery (littleEndianSetup false).rte sender.log.built) :=
    ⟨[sent zero zeroSent], by simp [rxBurstSize]⟩
  let burstAgain : RxBurst (Delivery (littleEndianSetup false).rte sender.log.built) :=
    ⟨[sent zero zeroSent, sent one oneSent], by simp [rxBurstSize]⟩
  let memory : Ring ⟨4, 2, by decide⟩ := ⟨9, fun _ => ⟨3, 0, fun _ => 0⟩⟩
  obtain ⟨-, published⟩ := restart_skips documented sends sends (by omega) (by omega)
    memory [burst] [burstAgain]
  have before := (expects_start memory).run stream.built (stream.unwrapped (by omega)) [burst]
  have order : [] ++ delivered ([burst].flatMap RxBurst.items) = [zero] := rfl
  rw [order] at before
  obtain ⟨largest, member, -, next⟩ := before.received.expected (List.cons_ne_nil _ _)
  rw [List.mem_singleton.mp member, zeroSeq] at next
  refine ⟨zero, one, _, zeroSeq, oneSeq, (published builds.symm).trans ?_⟩
  rw [next, before.received.published, builds]
  simp [deliveredRecords, maxima, maximaAfter]

end Lldt.Transport
