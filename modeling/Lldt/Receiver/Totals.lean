import Lldt.Receiver.Accounting
import Lldt.Receiver.Restart
import Lldt.Sender.Conservation

namespace Lldt.Transport

open Lldt.Data.Bytes
open Lldt.Data.Holes
open Lldt.Data.Maxima
open Lldt.Data.Transition
open Lldt.Dpdk
open Lldt.Msg
open Lldt.Shm

/-! The totals the receiver prints beside those the sender prints. -/

variable {profile : Profile} {slots : SlotCount} {rte : Rte}

/-! What an accepted packet adds to the totals. -/

section Encoded

variable {view : CanonicalDataPacketView} {frames : List (ValidFrame profile)}

theorem toUInt64_recordCount (encodes : view.Encodes frames) :
    view.recordCount.toUInt64 = UInt64.ofNat frames.length := by
  rw [← encodes.recordCount]
  apply UInt64.toNat_inj.mp
  have small := view.recordCount.toNat_lt
  rw [UInt16.toNat_toUInt64, UInt64.toNat_ofNat_of_lt' (show _ < 2 ^ 64 by omega)]

theorem packetSize_sub (encodes : view.Encodes frames) :
    view.packetSize - 22 = UInt64.ofNat (payload frames).length := by
  have size := encodes.packetSize
  have bound := view.packetSize.toNat_lt
  have header : (22 : UInt64).toNat = RawDataPacketBuilder.dataHeaderSize.toNat := rfl
  have enough : 22 ≤ view.packetSize := by
    rw [UInt64.le_iff_toNat_le, header, size]
    exact Nat.le_add_right _ _
  apply UInt64.toNat_inj.mp
  rw [UInt64.toNat_sub_of_le _ _ enough, header, size, Nat.add_sub_cancel_left,
    UInt64.toNat_ofNat_of_lt' (show _ < 2 ^ 64 by omega)]

end Encoded

theorem BuiltPacket.Sound.view {sent : BuiltPacket} {frames : List (ValidFrame profile)}
    {mbuf : Mbuf} (sound : sent.Sound rte frames) (receives : mbuf.Receives sent.mbuf) :
    ∃ view, tryParseCanonicalDataPacket rte mbuf = some view ∧
      view.dataSeq.toNat = sent.seq ∧ view.Encodes frames := by
  obtain ⟨parsed, parses, sequence, encodes⟩ := sound.parses
  obtain ⟨view, admits, viewSeq, viewEncodes⟩ := tryParse_receives receives parses encodes
  exact ⟨view, admits, by rw [viewSeq, sequence, BuiltPacket.seq], viewEncodes⟩

namespace ReceiverLoop

variable {state : ReceiverLoop (ReceiverShmWriter slots)} {accepted packets : List BuiltPacket}
  {sent : BuiltPacket}

/-- The totals are those of the accepted packets. -/
structure Totals (state : ReceiverLoop (ReceiverShmWriter slots))
    (accepted : List BuiltPacket) : Prop where
  packets : state.counters.dataPacketsAccepted = UInt64.ofNat accepted.length
  frames : state.counters.framesPublished =
    UInt64.ofNat (accepted.flatMap BuiltPacket.records).length
  bytes : state.counters.frameBytesPublished =
    UInt64.ofNat (accepted.flatMap BuiltPacket.records).flatten.length
  logged : state.log.accepted.map (·.dataSeq.toNat) = accepted.map BuiltPacket.seq

theorem Totals.admitPacket (totals : state.Totals accepted)
    {view : CanonicalDataPacketView} {frames : List (ValidFrame profile)}
    (sound : sent.Sound rte frames) (encodes : view.Encodes frames)
    (same : view.dataSeq.toNat = sent.seq) (reached : ¬view.dataSeq < state.nextDataSeq)
    (write : ReceiverShmWriter slots → CanonicalDataPacketView → ReceiverShmWriter slots) :
    (state.admitPacket write view).Totals (accepted ++ [sent]) := by
  have counters : (state.admitPacket write view).counters = _ := admitPacket_counters reached
  refine ⟨?_, ?_, ?_, ?_⟩
  · rw [counters, List.length_append, UInt64.ofNat_add, ← totals.packets]
    rfl
  · rw [counters, List.flatMap_append, List.flatMap_singleton, List.length_append,
      UInt64.ofNat_add, ← totals.frames, sound.records, List.length_map,
      ← toUInt64_recordCount encodes]
  · rw [counters, List.flatMap_append, List.flatMap_singleton, List.flatten_append,
      List.length_append, UInt64.ofNat_add, ← totals.bytes, sound.records, ← payload_eq_flatten,
      ← packetSize_sub encodes]
  · rw [admitPacket_log, List.map_append, List.map_append, totals.logged, List.map_singleton,
      List.map_singleton, same]

theorem Totals.of_same {other : ReceiverLoop (ReceiverShmWriter slots)}
    (totals : state.Totals accepted)
    (packets : other.counters.dataPacketsAccepted = state.counters.dataPacketsAccepted)
    (frames : other.counters.framesPublished = state.counters.framesPublished)
    (bytes : other.counters.frameBytesPublished = state.counters.frameBytesPublished)
    (log : other.log.accepted = state.log.accepted) : other.Totals accepted :=
  ⟨packets.trans totals.packets, frames.trans totals.frames, bytes.trans totals.bytes,
    log ▸ totals.logged⟩

theorem Totals.onMbuf (totals : state.Totals (maxima BuiltPacket.seq packets))
    (received : state.Received packets) {frames : List (ValidFrame profile)} {mbuf : Mbuf}
    (sound : sent.Sound rte frames) (receives : mbuf.Receives sent.mbuf) :
    (state.onMbuf rte (ReceiverShmWriter.write profile) mbuf).Totals
      (maxima BuiltPacket.seq (packets ++ [sent])) := by
  obtain ⟨view, admits, same, encodes⟩ := sound.view receives
  have begun : (state.receive mbuf).Received packets := received.of_same rfl rfl rfl
  have established : ((state.receive mbuf).establish view).Totals
      (maxima BuiltPacket.seq packets) := by
    have counters := establish_counters (state.receive mbuf) view
    exact totals.of_same (by rw [counters]; rfl) (by rw [counters]; rfl) (by rw [counters]; rfl)
      (establish_accepted _ view)
  rw [onMbuf_some admits, onPacket_eq, maxima_append_singleton]
  by_cases ahead : ∀ before ∈ packets, before.seq < sent.seq
  · have reached := mt (begun.stale_iff same).mp (not_not_intro ahead)
    rw [if_neg reached, if_pos ahead]
    exact established.admitPacket sound encodes same reached _
  · rw [if_pos ((begun.stale_iff same).mpr ahead), if_neg ahead, List.append_nil]
    exact established.of_same rfl rfl rfl rfl

theorem totals_of_run
    (sound : ∀ packet ∈ packets, ∃ frames : List (ValidFrame profile), packet.Sound rte frames)
    (unwrapped : ∀ packet ∈ packets, packet.seq + 1 < 2 ^ 64) (memory : Ring slots)
    (bursts : List (RxBurst (Delivery rte packets))) :
    ((start (.attached memory)).run rte (ReceiverShmWriter.write profile)
      (bursts.map (RxBurst.map Delivery.mbuf))).Totals
        (maxima BuiltPacket.seq (delivered (bursts.flatMap RxBurst.items))) := by
  refine And.right (run_history (fun state seen => state.Received (delivered seen) ∧
    state.Totals (maxima BuiltPacket.seq (delivered seen))) ?_ ?_ ?_ bursts)
  · rintro state other seen same ⟨received, totals⟩
    rw [same]
    exact ⟨received.of_same rfl rfl rfl, totals.of_same rfl rfl rfl rfl⟩
  · rintro state seen item ⟨received, totals⟩
    rw [delivered, List.filterMap_append]
    cases item with
    | packet sent isSent mbuf receives =>
        obtain ⟨frames, carried⟩ := sound sent isSent
        exact ⟨received.packet carried receives (unwrapped sent isSent),
          totals.onMbuf received carried receives⟩
    | rejected mbuf rejects =>
        rw [List.filterMap_cons_none rfl, List.filterMap_nil, List.append_nil]
        refine ⟨received.rejected rejects, ?_⟩
        rw [Delivery.mbuf, onMbuf_none rejects]
        exact totals.of_same rfl rfl rfl rfl
  · exact ⟨received_start memory, rfl, rfl, rfl, rfl⟩

theorem accounts_of_run (write : ReceiverShmWriter slots → CanonicalDataPacketView →
      ReceiverShmWriter slots) (memory : Ring slots) (bursts : List (RxBurst Mbuf)) :
    ((start (.attached memory)).run rte write bursts).Accounts := by
  apply run_invariant fun state => state.Accounts
  · intro state other same accounts
    rw [same]
    exact accounts.of_same ⟨rfl, rfl, rfl, rfl, rfl, rfl⟩
  · intro state mbuf accounts
    exact accounts.onMbuf mbuf
  · exact accounts_start _

/-- The two sequence counters make up the distance the expectation has moved. -/
theorem Accounts.distance (accounts : state.Accounts) (tracks : state.Tracks) :
    state.counters.dataPacketsAccepted.toNat + state.counters.dataPacketsMissing.toNat =
      state.nextDataSeq.toNat - state.origin.toNat := by
  have moved := congrArg UInt64.toNat accounts.sequence
  rw [UInt64.toNat_sub_of_le _ _ (UInt64.le_iff_toNat_le.mpr tracks.ordered),
    UInt64.toNat_add] at moved
  have within : state.missed.card ≤ state.nextDataSeq.toNat - state.origin.toNat := by
    rw [← Nat.card_Ico]
    exact Finset.card_filter_le _ _
  have missing := tracks.missing
  have accepted := state.counters.dataPacketsAccepted.toNat_lt
  have next := state.nextDataSeq.toNat_lt
  omega

theorem Expects.nextDataSeq_le (expects : state.Expects packets) {bound : Nat}
    (below : ∀ packet ∈ packets, packet.seq < bound) : state.nextDataSeq.toNat ≤ bound := by
  cases packets with
  | nil =>
      rw [expects.initial rfl]
      exact Nat.zero_le _
  | cons first rest =>
      obtain ⟨largest, member, -, next⟩ := expects.received.expected (List.cons_ne_nil _ _)
      rw [next]
      exact below largest member

/-- Of `count` packets, those accepted and those reported as missing are all, as soon
as the expectation has moved over all of them. -/
theorem Accounts.missing_le (accounts : state.Accounts) (tracks : state.Tracks) {count : Nat}
    (reached : state.nextDataSeq.toNat ≤ count) :
    state.counters.dataPacketsAccepted.toNat + state.counters.dataPacketsMissing.toNat ≤ count ∧
    (state.counters.dataPacketsAccepted.toNat + state.counters.dataPacketsMissing.toNat = count ↔
      state.origin = 0 ∧ state.nextDataSeq.toNat = count) := by
  have distance := accounts.distance tracks
  have ordered := tracks.ordered
  have zero : state.origin = 0 ↔ state.origin.toNat = 0 := by
    rw [← UInt64.toNat_inj]
    rfl
  rw [zero]
  omega

end ReceiverLoop

open ReceiverLoop SenderLoop

/-- Packets sorted into two heaps: so are their records and the bytes of these. -/
theorem perm_records {built accepted unaccepted : List BuiltPacket}
    (sorted : built.Perm (accepted ++ unaccepted)) :
    (built.flatMap BuiltPacket.records).Perm
      (accepted.flatMap BuiltPacket.records ++ unaccepted.flatMap BuiltPacket.records) := by
  rw [← List.flatMap_append]
  exact sorted.flatMap_right _

/-- Each total of the sender exceeds that of the receiver by what the packets amount to
that were not accepted, and they are at least those reported as missing. -/
theorem totals_reconcile {setup : SenderSetup} (documented : setup.rte.Documented)
    {liveEdge : UInt64} {events : List SenderEvent} {sender : SenderLoop}
    (sends : Run (Step profile setup) (SenderLoop.start profile liveEdge) events sender)
    (fewer : sender.log.built.length < 2 ^ 64 - 1) (memory : Ring slots)
    (bursts : List (RxBurst (Delivery setup.rte sender.log.built))) :
    let receiver := (ReceiverLoop.start (.attached memory)).run setup.rte
      (ReceiverShmWriter.write profile) (bursts.map (RxBurst.map Delivery.mbuf))
    ∃ accepted unaccepted : List BuiltPacket,
      sender.log.built.Perm (accepted ++ unaccepted) ∧
      receiver.writer.published = accepted.flatMap BuiltPacket.records ∧
      sender.dataCounters.dataPacketsBuilt =
        receiver.counters.dataPacketsAccepted + UInt64.ofNat unaccepted.length ∧
      sender.dataCounters.framesPacketized = receiver.counters.framesPublished +
        UInt64.ofNat (unaccepted.flatMap BuiltPacket.records).length ∧
      sender.dataCounters.dataPayloadBytes = receiver.counters.frameBytesPublished +
        UInt64.ofNat (unaccepted.flatMap BuiltPacket.records).flatten.length ∧
      receiver.counters.dataPacketsMissing.toNat ≤ unaccepted.length ∧
      (receiver.counters.dataPacketsMissing.toNat = unaccepted.length ↔
        receiver.origin = 0 ∧ receiver.nextDataSeq = sender.nextDataSeq) := by
  intro receiver
  have stream := stream_of_run documented sends
  have counted := (balances_of_run documented sends).1
  have unwrapped := stream.unwrapped fewer
  have indexed : ∀ number (packet : BuiltPacket), sender.log.built[number]? = some packet →
      packet.seq = number := fun number packet found => stream.seq_eq fewer found
  let packets := delivered (bursts.flatMap RxBurst.items)
  have expects := (expects_start memory).run stream.built unwrapped bursts
  have totals := totals_of_run stream.built unwrapped memory bursts
  have accounts : receiver.Accounts := accounts_of_run _ memory _
  have sent : (maxima BuiltPacket.seq packets).Sublist sender.log.built :=
    maxima_sublist_of_sorted (pairwise_of_indexed indexed) fun packet => mem_of_delivered
  obtain ⟨unaccepted, sorted⟩ := sent.exists_perm_append
  refine ⟨_, unaccepted, sorted, expects.received.published, ?_, ?_, ?_, ?_⟩
  · rw [counted.built, sorted.length_eq, List.length_append, UInt64.ofNat_add, totals.packets]
  · rw [counted.packetized, finished, (perm_records sorted).length_eq, List.length_append,
      UInt64.ofNat_add, totals.frames]
  · rw [counted.payloadBytes, finished, (perm_records sorted).flatten.length_eq,
      List.flatten_append, List.length_append, UInt64.ofNat_add, totals.bytes]
  · have small : (maxima BuiltPacket.seq packets).length < 2 ^ 64 := by
      have := sent.length_le
      omega
    have tracks : receiver.Tracks := by
      apply accounts.tracks
      intro packet member
      have seq := List.mem_map_of_mem (f := (·.dataSeq.toNat)) member
      rw [totals.logged] at seq
      obtain ⟨origin, taken, same⟩ := List.mem_map.mp seq
      rw [← same]
      exact unwrapped origin (sent.subset taken)
    have reached : receiver.nextDataSeq.toNat ≤ sender.log.built.length := by
      apply expects.nextDataSeq_le
      intro packet member
      obtain ⟨number, found⟩ := List.mem_iff_getElem?.mp (mem_of_delivered member)
      rw [indexed number packet found]
      exact (List.getElem?_eq_some_iff.mp found).1
    have missing := accounts.missing_le tracks reached
    have next : receiver.nextDataSeq = sender.nextDataSeq ↔
        receiver.nextDataSeq.toNat = sender.log.built.length := by
      rw [stream.nextDataSeq, ← UInt64.toNat_inj,
        UInt64.toNat_ofNat_of_lt' (show _ < 2 ^ 64 by omega)]
    rw [totals.packets, UInt64.toNat_ofNat_of_lt' small, sorted.length_eq, List.length_append,
      Nat.add_le_add_iff_left, Nat.add_left_cancel_iff, ← List.length_append,
      ← sorted.length_eq, ← next] at missing
    exact missing

/-- A packet lost behind the last one that arrives is not reported as missing. -/
theorem totals_reconcile_behind :
    ∃ (sender : SenderLoop) (receiver : ReceiverLoop (ReceiverShmWriter ⟨4, 2, by decide⟩))
      (lost : Nat), receiver.counters.dataPacketsAccepted = 1 ∧
        sender.dataCounters.dataPacketsBuilt =
          receiver.counters.dataPacketsAccepted + UInt64.ofNat lost ∧
        receiver.counters.dataPacketsMissing.toNat < lost := by
  obtain ⟨sender, reached, two⟩ := Option.map_eq_some_iff.mp
    (show ((unbatched.foldlM (SenderLoop.step .compact (littleEndianSetup false))
      (SenderLoop.start .compact 0)).map fun state => state.log.built.length) = some 2
      by decide +kernel)
  obtain ⟨zero, one, builds⟩ := List.length_eq_two.mp two
  have zeroSent : zero ∈ sender.log.built := by simp [builds]
  let sent : Delivery (littleEndianSetup false).rte sender.log.built :=
    .packet zero zeroSent zero.mbuf ⟨rfl, rfl⟩
  let burst : RxBurst (Delivery (littleEndianSetup false).rte sender.log.built) :=
    ⟨[sent], by simp [rxBurstSize]⟩
  have documented : (littleEndianSetup false).rte.Documented :=
    Rte.littleEndianHost_documented
  have sends := Run.of_foldlM reached
  have stream := stream_of_run documented sends
  have unwrapped := stream.unwrapped (by omega)
  have zeroSeq := stream.seq_eq (by omega) (show sender.log.built[0]? = some zero by simp [builds])
  let memory : Ring ⟨4, 2, by decide⟩ := ⟨9, fun _ => ⟨3, 0, fun _ => 0⟩⟩
  have order : delivered ([burst].flatMap RxBurst.items) = [zero] := rfl
  have totals := totals_of_run stream.built unwrapped memory [burst]
  have expects := (expects_start memory).run stream.built unwrapped [burst]
  rw [order, maxima_cons] at totals
  rw [order, List.nil_append] at expects
  obtain ⟨largest, member, -, next⟩ := expects.received.expected (List.cons_ne_nil _ _)
  rw [List.mem_singleton.mp member, zeroSeq] at next
  obtain ⟨accepted, unaccepted, -, -, packets, -, -, few, all⟩ :=
    totals_reconcile documented sends (by omega) memory [burst]
  refine ⟨sender, _, unaccepted.length, totals.packets, packets, ?_⟩
  refine Nat.lt_of_le_of_ne few (mt all.mp fun both => ?_)
  have behind := congrArg UInt64.toNat both.2
  rw [next, stream.nextDataSeq, two] at behind
  exact absurd behind (by decide)

end Lldt.Transport
