import Lldt.Data.Relay
import Lldt.Pipeline.Stages
import Lldt.Receiver.Accounting
import Lldt.Sender.Conservation
import Lldt.Sender.Loss

namespace Lldt.Transport

open Lldt.Data.Bytes
open Lldt.Data.RetainedLog
open Lldt.Data.Relay
open Lldt.Data.Selection
open Lldt.Dpdk
open Lldt.Msg
open Lldt.Shm

/-! What a stage between the two rings does not hand on, it counts. -/

variable {profile : Profile} {slots : SlotCount} {rte : Rte}

/-! The reader counts the frames it skips. -/

section Reader

variable {reader : SenderShmReader} {admitted log : List (List UInt8)} {ring : Ring slots}
  {entered : Nat}

theorem tryRead_valid_skipped (reader : SenderShmReader) (frame : ValidFrame profile) :
    (reader.tryRead profile (.kOk frame.len frame.bytes)).2.counters.lappedFramesSkipped =
      reader.counters.lappedFramesSkipped := by
  rcases reader.tryRead_frame profile frame.toFrame with
    ⟨view, next, ok, -, -, -, skipped⟩ | ⟨next, invalid, -, -, -, skipped⟩
  · rw [ok]
    exact skipped
  · rw [invalid]
    exact skipped

theorem covers_admitNext
    (covers : Covers log entered reader.readIndex.toNat admitted
      reader.counters.lappedFramesSkipped.toNat)
    (holds : ring.Holds log) (room : log.length < 2 ^ 64 - 1)
    (valid : ∀ bytes ∈ log, ∃ frame : ValidFrame profile, frame.bytes = bytes) :
    let next := SenderLoop.admitNext profile (reader, admitted) (ring.read reader.readIndex)
    Covers log entered next.1.readIndex.toNat next.2
      next.1.counters.lappedFramesSkipped.toNat := by
  intro next
  rcases holds.read_of_covers room covers with
    read | ⟨resume, read, ahead, covered⟩ | ⟨bytes, member, read, covered⟩
  · simp only [next, read, SenderLoop.admitNext, SenderShmReader.tryRead]
    exact covers
  · have dist : (resume - reader.readIndex).toNat = resume.toNat - reader.readIndex.toNat :=
      UInt64.toNat_sub_of_le _ _ (UInt64.le_of_lt ahead)
    have bound := covered.bound
    have counted := covered.counted
    simp only [next, read, SenderLoop.admitNext, SenderShmReader.tryRead, if_pos ahead]
    rw [toNat_add_of_lt (by omega), dist]
    exact covered
  · obtain ⟨frame, rfl⟩ := valid bytes member
    obtain ⟨view, after, ok, index, shown⟩ := tryRead_valid reader frame
    have skipped := tryRead_valid_skipped reader frame
    have result : next = (after, admitted ++ [frame.bytes]) := by
      simp only [next, read]
      exact (SenderLoop.admitNext_ok ok).trans (by rw [shown])
    rw [ok] at skipped
    rwa [result, index, skipped]

end Reader

/-! The loop counts the frames that an allocation or a reserve cost. -/

section Loop

variable {buffer : List UInt8} {admitted placed : List (List UInt8)} {lost : List Nat}

theorem SenderLoop.Accounts.relayed :
    ∀ {pending : Option (ValidatedSourceFrameView × Nat)},
      Accounts profile buffer admitted lost placed pending →
        Relayed lost.length admitted placed
  | none, ⟨_, kept⟩ => kept ▸ relayed_without admitted lost
  | some _, ⟨before, frame, _, same, _, _, kept⟩ => by
      rw [same, ← kept]
      exact (relayed_without before lost).append [frame.bytes]

theorem SenderLoop.Stream.finished_relayed {state : SenderLoop}
    (stream : state.Stream profile rte) :
    Relayed state.log.lost.length state.log.admitted state.finished := by
  have finished (records : List (List UInt8)) :
      Relayed 0 (state.finished ++ records) state.finished :=
    relayed_of_infix (List.prefix_append _ _).isInfix
  have placed := stream.placed
  unfold Placed at placed
  split at placed
  · exact Accounts.relayed placed
  · exact Accounts.relayed placed.2
  · exact Accounts.relayed placed.2
  · exact Accounts.relayed placed.2
  · exact (Accounts.relayed placed.2.2).trans (finished _)
  · exact (Accounts.relayed placed.2.2).trans (finished _)
  · exact (Accounts.relayed placed.2).trans (finished _)

namespace SenderLoop

/-- The frame that was given up with a failed reserve. -/
def refused (state : SenderLoop) : Nat := if state.err = 0 then 0 else 1

/-- No frame is lost twice, and each lost one is counted. -/
structure Charged (state : SenderLoop) : Prop where
  once : state.LostOnce
  charged : state.log.lost.length < 2 ^ 64 →
    state.log.lost.length = state.dataCounters.mbufAllocFailures.toNat + state.refused

variable {state next : SenderLoop} {setup : SenderSetup} {event : SenderEvent}

theorem charged_start (profile : Profile) (liveEdge : UInt64) :
    (start profile liveEdge).Charged :=
  ⟨lostOnce_start profile liveEdge, fun _ => rfl⟩

theorem Charged.of_same (charged : state.Charged) (once : next.LostOnce)
    (lost : next.log.lost = state.log.lost)
    (failures : next.dataCounters.mbufAllocFailures = state.dataCounters.mbufAllocFailures)
    (err : next.err = state.err) : next.Charged := by
  refine ⟨once, ?_⟩
  rw [refused, lost, failures, err]
  exact charged.charged

theorem Charged.move (charged : state.Charged) (stream : state.Stream profile setup.rte)
    (balanced : state.Balanced) (move : Move profile setup state event next) :
    next.Charged := by
  have running := balanced.running move.not_exited
  have once := charged.once.move stream move
  have earlier (first : Nat) (few : (state.log.lost ++ [first]).length < 2 ^ 64) :
      (state.log.lost ++ [first]).length = state.dataCounters.mbufAllocFailures.toNat + 1 ∧
        state.dataCounters.mbufAllocFailures.toNat + 1 < 2 ^ 64 := by
    rw [List.length_append, List.length_singleton] at few ⊢
    have counted := charged.charged (Nat.lt_of_succ_lt few)
    rw [refused, if_pos running] at counted
    omega
  cases move with
  | starve phase =>
      refine ⟨once, fun few => ?_⟩
      obtain ⟨counted, room⟩ := earlier _ few
      refine counted.trans ?_
      simp only [allocate, refused, running, if_true, toNat_succ room, Nat.add_zero]
  | refuse phase reserve => exact ⟨once, fun few => (earlier _ few).1⟩
  | @complete _ enqueued phase =>
      cases enqueued <;> exact charged.of_same once rfl rfl rfl
  | _ => exact charged.of_same once rfl rfl rfl

theorem Charged.lost_length (charged : state.Charged)
    (few : state.log.admitted.length < 2 ^ 64) :
    state.log.lost.length = state.dataCounters.mbufAllocFailures.toNat + state.refused := by
  have inside : state.log.lost ⊆ List.range state.log.admitted.length :=
    fun number member => List.mem_range.mpr (charged.once.inside number member)
  have lost := (List.subperm_of_subset charged.once.distinct inside).length_le
  rw [List.length_range] at lost
  exact charged.charged (Nat.lt_of_le_of_lt lost few)

end SenderLoop

end Loop

/-! The receiver counts the packets that it passes over. -/

section Window

variable {α : Type} {items : List α} {item : α} {first next number : Nat}

/-- The items from `first` up to `next`. -/
def window (items : List α) (first next : Nat) : List α := (items.take next).drop first

theorem isInfix_window (items : List α) (first next : Nat) : window items first next <:+: items :=
  (List.drop_suffix _ _).isInfix.trans (List.take_prefix _ _).isInfix

@[simp] theorem window_self (items : List α) (next : Nat) : window items next next = [] :=
  List.drop_take_self

theorem window_of_prefix {more : List α} (grown : items <+: more) (reached : next ≤ items.length) :
    window more first next = window items first next := by
  obtain ⟨rest, rfl⟩ := grown
  rw [window, window, List.take_append_of_le_length reached]

theorem window_extend (ordered : first ≤ next) (reached : next ≤ number)
    (found : items[number]? = some item) :
    window items first (number + 1) =
      window items first next ++ (window items next number ++ [item]) := by
  obtain ⟨inside, -⟩ := List.getElem?_eq_some_iff.mp found
  have front : items.take number = items.take next ++ window items next number := by
    have rejoined := List.take_append_drop next (items.take number)
    rw [List.take_take, Nat.min_eq_left reached] at rejoined
    exact rejoined.symm
  rw [window, window, List.take_add_one, found, front, List.append_assoc,
    List.drop_append_of_le_length]
  · rfl
  · rw [List.length_take]
    omega

end Window

namespace ReceiverLoop

/-- The packets the receiver has accepted and those it counts as missing are the
packets from its origin up to the one it expects. -/
structure Forwards (state : ReceiverLoop (ReceiverShmWriter slots))
    (built accepted missing : List BuiltPacket) : Prop where
  established : state.dataSeqEstablished = !state.log.parsed.isEmpty
  unparsed : state.log.parsed = [] → accepted = [] ∧ missing = []
  ordered : state.origin.toNat ≤ state.nextDataSeq.toNat
  reached : state.nextDataSeq.toNat ≤ built.length
  sublist : accepted.Sublist (window built state.origin.toNat state.nextDataSeq.toNat)
  split : (accepted ++ missing).Perm (window built state.origin.toNat state.nextDataSeq.toNat)
  counted : state.counters.dataPacketsMissing.toNat = missing.length
  published : state.writer.published = accepted.flatMap BuiltPacket.records

variable {state other : ReceiverLoop (ReceiverShmWriter slots)}
  {built accepted missing : List BuiltPacket} {sent : BuiltPacket}
  {packet : CanonicalDataPacketView}

theorem forwards_start (memory : Ring slots) (built : List BuiltPacket) :
    (start (.attached memory)).Forwards built [] [] where
  established := rfl
  unparsed := fun _ => ⟨rfl, rfl⟩
  ordered := Nat.le_refl _
  reached := Nat.zero_le _
  sublist := List.nil_sublist _
  split := .refl _
  counted := rfl
  published := rfl

theorem Forwards.grow {more : List BuiltPacket} (forwards : state.Forwards built accepted missing)
    (grown : built <+: more) : state.Forwards more accepted missing := by
  obtain ⟨established, unparsed, ordered, reached, sublist, split, counted, published⟩ := forwards
  rw [← window_of_prefix grown reached] at sublist split
  exact ⟨established, unparsed, ordered, reached.trans grown.length_le, sublist, split, counted,
    published⟩

/-- Counters that have nothing to do with the sequence. -/
theorem Forwards.of_same (forwards : state.Forwards built accepted missing)
    (same : other = { state with counters := other.counters })
    (missing_eq : other.counters.dataPacketsMissing = state.counters.dataPacketsMissing) :
    other.Forwards built accepted missing := by
  obtain ⟨established, unparsed, ordered, reached, sublist, split, counted, published⟩ := forwards
  rw [← missing_eq] at counted
  rw [same]
  exact ⟨established, unparsed, ordered, reached, sublist, split, counted, published⟩

theorem Forwards.establish (forwards : state.Forwards built accepted missing)
    (inside : packet.dataSeq.toNat < built.length) :
    (state.establish packet).Forwards built accepted missing := by
  have counters := establish_counters state packet
  have writer := establish_writer state packet
  have begun : (state.establish packet).dataSeqEstablished =
      !(state.establish packet).log.parsed.isEmpty := by
    rw [establish_established, establish_parsed]
    simp
  obtain ⟨established, unparsed, ordered, reached, sublist, split, counted, published⟩ := forwards
  rw [← counters] at counted
  rw [← writer] at published
  rcases establish_cases established packet with ⟨empty, next, first⟩ | ⟨next, first⟩
  · obtain ⟨rfl, rfl⟩ := unparsed empty
    refine ⟨begun, fun _ => ⟨rfl, rfl⟩, ?_, ?_, List.nil_sublist _, ?_, counted, published⟩
    · rw [next, first]
    · rw [next]
      exact Nat.le_of_lt inside
    · rw [next, first, window_self]
      exact .refl _
  · rw [← first] at ordered sublist split
    rw [← next] at ordered reached sublist split
    refine ⟨begun, fun none => ?_, ordered, reached, sublist, split, counted, published⟩
    rw [establish_parsed] at none
    simp at none

theorem length_window {items : List BuiltPacket} {first next : Nat}
    (reached : next ≤ items.length) : (window items first next).length = next - first := by
  rw [window, List.length_drop, List.length_take, Nat.min_eq_left reached]

/-- Accepting a packet counts those in front of it as missing. -/
theorem Forwards.admitPacket (forwards : state.Forwards built accepted missing)
    (parsed : state.log.parsed ≠ []) (found : built[packet.dataSeq.toNat]? = some sent)
    (fresh : ¬packet.dataSeq < state.nextDataSeq) (few : built.length < 2 ^ 64)
    {write : ReceiverShmWriter slots → CanonicalDataPacketView → ReceiverShmWriter slots}
    (writes : (write state.writer packet).published = state.writer.published ++ sent.records) :
    let gap := window built state.nextDataSeq.toNat packet.dataSeq.toNat
    (state.admitPacket write packet).Forwards built (accepted ++ [sent]) (missing ++ gap) := by
  intro gap
  obtain ⟨inside, -⟩ := List.getElem?_eq_some_iff.mp found
  have above : state.nextDataSeq.toNat ≤ packet.dataSeq.toNat :=
    UInt64.le_iff_toNat_le.mp (UInt64.not_lt.mp fresh)
  have next : (state.admitPacket write packet).nextDataSeq.toNat = packet.dataSeq.toNat + 1 :=
    toNat_succ (by omega)
  have origin : (state.admitPacket write packet).origin = state.origin := admitPacket_origin parsed
  have extended := window_extend forwards.ordered above found
  have skipped : gap.length = packet.dataSeq.toNat - state.nextDataSeq.toNat :=
    length_window (Nat.le_of_lt inside)
  have behind : missing.length ≤ state.nextDataSeq.toNat := by
    have lengths := forwards.split.length_eq
    rw [List.length_append, length_window forwards.reached] at lengths
    omega
  refine ⟨?_, ?_, ?_, ?_, ?_, ?_, ?_, ?_⟩
  · rw [admitPacket_established, admitPacket_log]
    exact forwards.established
  · rw [admitPacket_log]
    exact fun none => absurd none parsed
  · rw [origin, next]
    exact forwards.ordered.trans (Nat.le_succ_of_le above)
  · rw [next]
    exact inside
  · rw [origin, next, extended]
    exact forwards.sublist.append (List.sublist_append_right _ _)
  · have later : ([sent] ++ (missing ++ gap)).Perm (missing ++ gap ++ [sent]) :=
      List.perm_append_comm
    rw [origin, next, extended, List.append_assoc, List.singleton_append]
    refine (later.append_left accepted).trans ?_
    rw [← List.append_assoc, ← List.append_assoc, ← List.append_assoc]
    exact (forwards.split.append_right gap).append_right [sent]
  · rw [admitPacket_counters fresh, List.length_append, skipped]
    have dist : (packet.dataSeq - state.nextDataSeq).toNat = _ :=
      UInt64.toNat_sub_of_le _ _ (UInt64.not_lt.mp fresh)
    rw [toNat_add_of_lt, forwards.counted, dist]
    rw [forwards.counted, dist]
    omega
  · rw [admitPacket_writer, writes, forwards.published, List.flatMap_append,
      List.flatMap_singleton]

/-- A packet of the sender arrives. -/
theorem Forwards.onPacket (forwards : state.Forwards built accepted missing)
    (few : built.length < 2 ^ 64) (found : built[sent.seq]? = some sent)
    {frames : List (ValidFrame profile)} (sound : sent.Sound rte frames) {mbuf : Mbuf}
    (receives : mbuf.Receives sent.mbuf) :
    ∃ accepted missing,
      (state.onMbuf rte (ReceiverShmWriter.write profile) mbuf).Forwards built accepted
        missing := by
  obtain ⟨parsed, parses, sequence, encodes⟩ := sound.parses
  obtain ⟨view, admits, viewSeq, viewEncodes⟩ := tryParse_receives receives parses encodes
  have same : view.dataSeq.toNat = sent.seq := by
    rw [viewSeq, sequence, BuiltPacket.seq]
  rw [← same] at found
  have begun : (state.receive mbuf).Forwards built accepted missing :=
    forwards.of_same rfl rfl
  have known := begun.establish (List.getElem?_eq_some_iff.mp found).1
  rw [onMbuf_some admits, onPacket_eq]
  split
  · exact ⟨accepted, missing, known.of_same rfl rfl⟩
  · rename_i fresh
    refine ⟨_, _, known.admitPacket ?_ found fresh few ?_⟩
    · rw [establish_parsed]
      simp
    · rw [ReceiverShmWriter.write, ReceiverShmWriter.writeCursor_encodes viewEncodes,
        ReceiverShmWriter.published_publishFrames, sound.records]

theorem Forwards.onMbuf (forwards : state.Forwards built accepted missing)
    (few : built.length < 2 ^ 64) (numbered : ∀ packet ∈ built, built[packet.seq]? = some packet)
    (sound : ∀ packet ∈ built, ∃ frames : List (ValidFrame profile), packet.Sound rte frames)
    {mbuf : Mbuf} (deliverable : Deliverable rte built mbuf) :
    ∃ accepted missing,
      (state.onMbuf rte (ReceiverShmWriter.write profile) mbuf).Forwards built accepted
        missing := by
  rcases deliverable with ⟨sent, isSent, receives⟩ | rejects
  · obtain ⟨frames, carried⟩ := sound sent isSent
    exact forwards.onPacket few (numbered sent isSent) carried receives
  · rw [onMbuf_none rejects]
    exact ⟨accepted, missing, forwards.of_same rfl rfl⟩

end ReceiverLoop

namespace RunningReceiver

/-- The same once the packet in hand is written. -/
structure Forwards (profile : Profile) (rte : Rte) (state : RunningReceiver slots)
    (built : List BuiltPacket) : Prop where
  pending : ∀ mbuf ∈ state.pending, Deliverable rte built mbuf
  forwards : ∃ accepted missing, (state.written profile).Forwards built accepted missing

variable {state next : RunningReceiver slots} {built : List BuiltPacket} {event : ReceiverEvent}

theorem forwards_start (profile : Profile) (rte : Rte) (memory : Ring slots) :
    (start memory).Forwards profile rte [] :=
  ⟨nofun, [], [], ReceiverLoop.forwards_start memory []⟩

theorem Forwards.grow {more : List BuiltPacket} (forwards : state.Forwards profile rte built)
    (grown : built <+: more) : state.Forwards profile rte more := by
  obtain ⟨pending, accepted, missing, inner⟩ := forwards
  refine ⟨fun mbuf member => ?_, accepted, missing, inner.grow grown⟩
  rcases pending mbuf member with ⟨sent, isSent, receives⟩ | rejects
  · exact .inl ⟨sent, grown.subset isSent, receives⟩
  · exact .inr rejects

theorem written_receiveBurst (writing : state.writing = none) (burst : RxBurst Mbuf) :
    let counters := (state.receiveBurst burst).loop.counters
    (state.receiveBurst burst).written profile = { state.loop with counters := counters } ∧
      counters.dataPacketsMissing = state.loop.counters.dataPacketsMissing := by
  unfold receiveBurst
  dsimp only
  split
  · simp only [written, writing, and_self]
  · simp only [written, writing, and_self]

theorem pending_receiveBurst (burst : RxBurst Mbuf) (pending : state.pending = []) :
    (state.receiveBurst burst).pending = burst.items := by
  unfold receiveBurst
  dsimp only
  split
  · rename_i empty
    rw [pending, List.eq_nil_of_length_eq_zero empty]
  · rfl

theorem pending_begin (mbuf : Mbuf) (rest : List Mbuf) :
    (state.begin rte mbuf rest).pending = rest := by
  unfold begin
  dsimp only
  split
  · rfl
  · split <;> rfl

theorem Forwards.step (forwards : state.Forwards profile rte built)
    (few : built.length < 2 ^ 64) (numbered : ∀ packet ∈ built, built[packet.seq]? = some packet)
    (sound : ∀ packet ∈ built, ∃ frames : List (ValidFrame profile), packet.Sound rte frames)
    (arrives : ∀ burst, event = .burst burst → ∀ mbuf ∈ burst.items, Deliverable rte built mbuf)
    (stepped : Step profile rte state event next) : next.Forwards profile rte built := by
  obtain ⟨pending, accepted, missing, inner⟩ := forwards
  obtain ⟨burst, rfl, none, writing, rfl⟩ | ⟨mbuf, rest, rfl, first, writing, rfl⟩ |
    ⟨packet, frame, remaining, rfl, writing, rfl⟩ | ⟨packet, frame, rfl, writing, rfl⟩ :=
    step_cases stepped
  · obtain ⟨written, same⟩ := @written_receiveBurst profile _ _ writing burst
    have idle : state.written profile = state.loop := by
      simp only [RunningReceiver.written, writing]
    rw [idle] at inner
    refine ⟨?_, accepted, missing, ?_⟩
    · rw [pending_receiveBurst burst none]
      exact arrives burst rfl
    · rw [written]
      exact inner.of_same rfl same
  · have idle : state.written profile = state.loop := by
      simp only [RunningReceiver.written, writing]
    rw [idle] at inner
    rw [first] at pending
    obtain ⟨here, others⟩ := List.forall_mem_cons.mp pending
    refine ⟨?_, ?_⟩
    · rwa [pending_begin]
    · rw [written_begin writing]
      exact inner.onMbuf few numbered sound here
  · refine ⟨pending, accepted, missing, ?_⟩
    rwa [written_publishNext writing]
  · refine ⟨pending, accepted, missing, ?_⟩
    simp only [written, writing, Function.iterate_zero, id] at inner
    exact inner

end RunningReceiver

end Lldt.Transport
