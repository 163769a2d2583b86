import Lldt.Data.Holes
import Lldt.Data.Maxima
import Lldt.Receiver.Loop

namespace Lldt.Transport

open Lldt.Data.Bytes
open Lldt.Data.Holes
open Lldt.Data.Maxima
open Lldt.Dpdk

namespace ReceiverLoop

variable {ω : Type} {rte : Rte} {write : ω → CanonicalDataPacketView → ω}
  {state other : ReceiverLoop ω} {packet : CanonicalDataPacketView}

/-! The counters against the log.  Up to the first parsed packet the sequence has
its origin at `nextDataSeq` itself, so that one invariant covers both phases. -/

/-- The `data_seq` of the first parsed packet. -/
def origin (state : ReceiverLoop ω) : UInt64 :=
  (state.log.parsed.head?.map (·.dataSeq)).getD state.nextDataSeq

def acceptedSeqs (state : ReceiverLoop ω) : List Nat :=
  state.log.accepted.map (·.dataSeq.toNat)

def missed (state : ReceiverLoop ω) : Finset Nat :=
  holes state.origin.toNat state.nextDataSeq.toNat state.acceptedSeqs

/-- The loss counters are those of the set of missed sequence numbers. -/
structure Tracks (state : ReceiverLoop ω) : Prop where
  ordered : state.origin.toNat ≤ state.nextDataSeq.toNat
  below : ∀ value ∈ state.acceptedSeqs, value < state.nextDataSeq.toNat
  closed : ∀ value ∈ state.missed, value + 1 < state.nextDataSeq.toNat
  missing : state.counters.dataPacketsMissing.toNat = state.missed.card
  gaps : state.counters.dataGapEvents.toNat = (runStarts state.missed).card

structure Accounts (state : ReceiverLoop ω) : Prop where
  established : state.dataSeqEstablished = !state.log.parsed.isEmpty
  unaccepted : state.log.parsed = [] → state.log.accepted = []
  sequence : state.nextDataSeq - state.origin =
    state.counters.dataPacketsAccepted + state.counters.dataPacketsMissing
  tracks : (∀ packet ∈ state.log.accepted, packet.dataSeq.toNat + 1 < 2 ^ 64) → state.Tracks

theorem accounts_start (writer : ω) : (start writer).Accounts where
  established := rfl
  unaccepted := fun _ => rfl
  sequence := by simp [origin, start]
  tracks := fun _ => {
    ordered := Nat.le_refl _
    below := by simp [acceptedSeqs, start]
    closed := by simp [missed, holes, origin, start]
    missing := rfl
    gaps := rfl }

/-! Parsing a packet fixes the origin and changes no counter. -/

theorem establish_cases (established : state.dataSeqEstablished = !state.log.parsed.isEmpty)
    (packet : CanonicalDataPacketView) :
    (state.log.parsed = [] ∧ (state.establish packet).nextDataSeq = packet.dataSeq ∧
      (state.establish packet).origin = packet.dataSeq) ∨
    ((state.establish packet).nextDataSeq = state.nextDataSeq ∧
      (state.establish packet).origin = state.origin) := by
  cases parsed : state.log.parsed with
  | nil =>
      rw [parsed] at established
      exact .inl ⟨rfl, by simp [establish, established], by simp [origin, establish_parsed, parsed]⟩
  | cons first rest =>
      rw [parsed] at established
      exact .inr ⟨by simp [establish, established],
        by simp [origin, establish_parsed, parsed]⟩

theorem Tracks.fresh (expected : state.nextDataSeq = state.origin)
    (unaccepted : state.log.accepted = []) (missing : state.counters.dataPacketsMissing = 0)
    (gaps : state.counters.dataGapEvents = 0) : state.Tracks := by
  have none : state.missed = ∅ := by
    simp [missed, expected, holes]
  refine ⟨by rw [expected], ?_, ?_, ?_, ?_⟩
  · simp [acceptedSeqs, unaccepted]
  · simp [none]
  · rw [missing, none]
    rfl
  · rw [gaps, none]
    rfl

theorem Accounts.establish (accounts : state.Accounts) (packet : CanonicalDataPacketView) :
    (state.establish packet).Accounts := by
  have counters := establish_counters state packet
  have accepted := establish_accepted state packet
  refine ⟨?_, ?_, ?_, ?_⟩
  · rw [establish_parsed]
    unfold ReceiverLoop.establish
    split
    · simp
    · rename_i already
      rw [Bool.not_eq_true', Bool.not_eq_false] at already
      simp [already]
  · simp [establish_parsed]
  · rw [counters, ← accounts.sequence]
    rcases establish_cases accounts.established packet with ⟨empty, next, first⟩ | ⟨next, first⟩
    · have same : state.origin = state.nextDataSeq := by simp [origin, empty]
      rw [next, first, same, UInt64.sub_self, UInt64.sub_self]
    · rw [next, first]
  · intro unwrapped
    have tracks := accounts.tracks (by rwa [accepted] at unwrapped)
    rcases establish_cases accounts.established packet with ⟨empty, next, first⟩ | ⟨next, first⟩
    · have none : state.missed = ∅ := by simp [missed, origin, empty, holes]
      refine .fresh (by rw [next, first]) (by rw [accepted, accounts.unaccepted empty]) ?_ ?_
      · apply UInt64.toNat_inj.mp
        rw [counters, tracks.missing, none]
        rfl
      · apply UInt64.toNat_inj.mp
        rw [counters, tracks.gaps, none]
        rfl
    · have seqs : (state.establish packet).acceptedSeqs = state.acceptedSeqs := by
        rw [acceptedSeqs, accepted, acceptedSeqs]
      have same : (state.establish packet).missed = state.missed := by
        rw [missed, missed, next, first, seqs]
      exact ⟨by rw [next, first]; exact tracks.ordered, by rw [seqs, next]; exact tracks.below,
        by rw [same, next]; exact tracks.closed, by rw [counters, same]; exact tracks.missing,
        by rw [counters, same]; exact tracks.gaps⟩

/-! Accepting a packet passes over the sequence numbers in front of it. -/

theorem admitPacket_counters (reached : ¬packet.dataSeq < state.nextDataSeq) :
    (state.admitPacket write packet).counters = { state.counters with
      dataGapEvents :=
        state.counters.dataGapEvents + if state.nextDataSeq < packet.dataSeq then 1 else 0
      dataPacketsMissing :=
        state.counters.dataPacketsMissing + (packet.dataSeq - state.nextDataSeq)
      dataPacketsAccepted := state.counters.dataPacketsAccepted + 1
      framesPublished := state.counters.framesPublished + packet.recordCount.toUInt64
      frameBytesPublished :=
        state.counters.frameBytesPublished + (packet.packetSize - 22) } := by
  rw [admitPacket, countGap_eq reached]
  rfl

theorem admitPacket_origin (parsed : state.log.parsed ≠ []) :
    (state.admitPacket write packet).origin = state.origin := by
  obtain ⟨first, rest, split⟩ := List.exists_cons_of_ne_nil parsed
  simp [origin, admitPacket_log, split]

theorem admitPacket_acceptedSeqs (state : ReceiverLoop ω) (packet : CanonicalDataPacketView) :
    (state.admitPacket write packet).acceptedSeqs =
      state.acceptedSeqs ++ [packet.dataSeq.toNat] := by
  simp [acceptedSeqs, admitPacket_log]

theorem Tracks.missed_le (tracks : state.Tracks) :
    state.missed.card ≤ state.nextDataSeq.toNat := by
  have inside := Finset.card_le_card (s := state.missed) (t := .range state.nextDataSeq.toNat)
    fun value member => Finset.mem_range.mpr (Nat.lt_of_succ_lt (tracks.closed value member))
  rwa [Finset.card_range] at inside

theorem Tracks.admitPacket (tracks : state.Tracks) (parsed : state.log.parsed ≠ [])
    (reached : ¬packet.dataSeq < state.nextDataSeq)
    (unwrapped : packet.dataSeq.toNat + 1 < 2 ^ 64) :
    (state.admitPacket write packet).Tracks := by
  have above : state.nextDataSeq.toNat ≤ packet.dataSeq.toNat :=
    UInt64.le_iff_toNat_le.mp (UInt64.not_lt.mp reached)
  have ordered := tracks.ordered
  have belowNext : ∀ value ∈ state.missed, value < state.nextDataSeq.toNat :=
    fun value member => Nat.lt_of_succ_lt (tracks.closed value member)
  have inside := tracks.missed_le
  have starts : (runStarts state.missed).card ≤ state.missed.card := Finset.card_filter_le _ _
  have next : (state.admitPacket write packet).nextDataSeq.toNat = packet.dataSeq.toNat + 1 := by
    exact toNat_succ unwrapped
  have missed : (state.admitPacket write packet).missed =
      state.missed ∪ Finset.Ico state.nextDataSeq.toNat packet.dataSeq.toNat := by
    rw [missed, admitPacket_origin parsed, next, admitPacket_acceptedSeqs]
    exact holes_extend ordered above tracks.below
  refine ⟨?_, ?_, ?_, ?_, ?_⟩
  · rw [admitPacket_origin parsed, next]
    omega
  · rw [admitPacket_acceptedSeqs, next]
    intro value member
    rcases List.mem_append.mp member with old | last
    · have := tracks.below value old
      omega
    · rw [List.mem_singleton] at last
      omega
  · rw [missed, next]
    intro value member
    rcases Finset.mem_union.mp member with old | gap
    · have := belowNext value old
      omega
    · have := (Finset.mem_Ico.mp gap).2
      omega
  · have difference : (packet.dataSeq - state.nextDataSeq).toNat =
        packet.dataSeq.toNat - state.nextDataSeq.toNat :=
      UInt64.toNat_sub_of_le _ _ (UInt64.not_lt.mp reached)
    have missing := tracks.missing
    rw [missed, card_extend belowNext, admitPacket_counters reached,
      toNat_add_of_lt (by omega), missing, difference]
  · rw [missed, card_runStarts_extend tracks.closed, admitPacket_counters reached,
      UInt64.toNat_add, tracks.gaps]
    simp only [UInt64.lt_iff_toNat_lt]
    split
    · exact Nat.mod_eq_of_lt (by rw [UInt64.toNat_one]; omega)
    · exact Nat.mod_eq_of_lt (by rw [UInt64.toNat_zero]; omega)

theorem Accounts.admitPacket (accounts : state.Accounts) (parsed : state.log.parsed ≠ [])
    (reached : ¬packet.dataSeq < state.nextDataSeq) :
    (state.admitPacket write packet).Accounts := by
  refine ⟨?_, ?_, ?_, ?_⟩
  · rw [admitPacket_established, admitPacket_log]
    exact accounts.established
  · rw [admitPacket_log]
    exact fun empty => absurd empty parsed
  · have sequence := accounts.sequence
    rw [admitPacket_origin parsed, admitPacket_counters reached]
    change packet.dataSeq + 1 - state.origin =
      state.counters.dataPacketsAccepted + 1 +
        (state.counters.dataPacketsMissing + (packet.dataSeq - state.nextDataSeq))
    grind
  · intro unwrapped
    rw [admitPacket_log] at unwrapped
    refine (accounts.tracks fun before member => ?_).admitPacket parsed reached ?_
    · exact unwrapped before (List.mem_append_left _ member)
    · exact unwrapped packet (by simp)

/-! Neither the packet counters nor the burst counters matter to the sequence. -/

structure SameSequence (state other : ReceiverLoop ω) : Prop where
  established : other.dataSeqEstablished = state.dataSeqEstablished
  next : other.nextDataSeq = state.nextDataSeq
  log : other.log = state.log
  accepted : other.counters.dataPacketsAccepted = state.counters.dataPacketsAccepted
  missing : other.counters.dataPacketsMissing = state.counters.dataPacketsMissing
  gaps : other.counters.dataGapEvents = state.counters.dataGapEvents

theorem Accounts.of_same (accounts : state.Accounts) (same : state.SameSequence other) :
    other.Accounts := by
  have origin : other.origin = state.origin := by
    rw [origin, origin, same.log, same.next]
  have seqs : other.acceptedSeqs = state.acceptedSeqs := by
    rw [acceptedSeqs, acceptedSeqs, same.log]
  have missed : other.missed = state.missed := by
    rw [missed, missed, origin, same.next, seqs]
  refine ⟨?_, ?_, ?_, ?_⟩
  · rw [same.established, same.log]
    exact accounts.established
  · rw [same.log]
    exact accounts.unaccepted
  · rw [same.next, origin, same.accepted, same.missing]
    exact accounts.sequence
  · rw [same.log]
    intro unwrapped
    obtain ⟨ordered, below, closed, missing, gaps⟩ := accounts.tracks unwrapped
    refine ⟨?_, ?_, ?_, ?_, ?_⟩
    · rwa [origin, same.next]
    · rwa [seqs, same.next]
    · rwa [missed, same.next]
    · rwa [same.missing, missed]
    · rwa [same.gaps, missed]

theorem Accounts.onMbuf (accounts : state.Accounts) (mbuf : Mbuf) :
    (state.onMbuf rte write mbuf).Accounts := by
  have received : (state.receive mbuf).Accounts :=
    accounts.of_same ⟨rfl, rfl, rfl, rfl, rfl, rfl⟩
  cases parses : tryParseCanonicalDataPacket rte mbuf with
  | none =>
      rw [onMbuf_none parses]
      exact received.of_same ⟨rfl, rfl, rfl, rfl, rfl, rfl⟩
  | some packet =>
      have established := received.establish packet
      rw [onMbuf_some parses, onPacket_eq]
      split
      · exact established.of_same ⟨rfl, rfl, rfl, rfl, rfl, rfl⟩
      · rename_i reached
        exact established.admitPacket (by simp [establish_parsed]) reached

/-! Each round counts its mbuf once under `rx_packets` and once under its outcome. -/

def settled (state : ReceiverLoop ω) : UInt64 :=
  state.counters.invalidLldtPackets + state.counters.staleDataPackets +
    state.counters.dataPacketsAccepted

theorem onPacket_settled (write : ω → CanonicalDataPacketView → ω) (state : ReceiverLoop ω)
    (packet : CanonicalDataPacketView) :
    (state.onPacket write packet).counters.rxPackets = state.counters.rxPackets ∧
    (state.onPacket write packet).settled = state.settled + 1 := by
  have counters := establish_counters state packet
  rw [onPacket_eq]
  split
  · constructor
    · change (state.establish packet).counters.rxPackets = _
      rw [counters]
    · change (state.establish packet).counters.invalidLldtPackets +
        ((state.establish packet).counters.staleDataPackets + 1) +
          (state.establish packet).counters.dataPacketsAccepted = _
      rw [counters, settled]
      grind
  · rename_i reached
    rw [settled, admitPacket_counters reached, counters, settled]
    refine ⟨rfl, ?_⟩
    exact (UInt64.add_assoc _ _ _).symm

theorem onMbuf_settled (counted : state.counters.rxPackets = state.settled) (mbuf : Mbuf) :
    (state.onMbuf rte write mbuf).counters.rxPackets = (state.onMbuf rte write mbuf).settled := by
  have received : (state.receive mbuf).counters.rxPackets = (state.receive mbuf).settled + 1 :=
    congrArg (· + 1) counted
  cases parses : tryParseCanonicalDataPacket rte mbuf with
  | none =>
      rw [onMbuf_none parses]
      refine received.trans ?_
      change _ = (state.receive mbuf).counters.invalidLldtPackets + 1 +
        (state.receive mbuf).counters.staleDataPackets +
          (state.receive mbuf).counters.dataPacketsAccepted
      rw [settled]
      grind
  | some packet =>
      obtain ⟨same, more⟩ := onPacket_settled write (state.receive mbuf) packet
      rw [onMbuf_some parses, same, more, received]

/-! The log against what was received.  As long as `data_seq` does not run out, the
accepted packets are those ahead of all parsed ones before them. -/

def parsedSeq (packet : CanonicalDataPacketView) : Nat := packet.dataSeq.toNat

def Unwrapped (state : ReceiverLoop ω) : Prop :=
  ∀ packet ∈ state.log.accepted, parsedSeq packet + 1 < 2 ^ 64

structure Selects (state : ReceiverLoop ω) : Prop where
  established : state.dataSeqEstablished = !state.log.parsed.isEmpty
  sublist : state.log.accepted.Sublist state.log.parsed
  counted : state.counters.dataPacketsAccepted = UInt64.ofNat state.log.accepted.length
  maxima : state.Unwrapped → state.log.accepted = maxima parsedSeq state.log.parsed
  expected : state.Unwrapped → state.log.parsed ≠ [] → ∃ largest ∈ state.log.parsed,
    (∀ packet ∈ state.log.parsed, parsedSeq packet ≤ parsedSeq largest) ∧
      state.nextDataSeq.toNat = parsedSeq largest + 1

structure Logged (rte : Rte) (state : ReceiverLoop ω) (received : List Mbuf) : Prop where
  parsed : state.log.parsed = received.filterMap (tryParseCanonicalDataPacket rte)
  rxPackets : state.counters.rxPackets = UInt64.ofNat received.length
  invalid : state.counters.invalidLldtPackets =
    UInt64.ofNat (received.countP fun mbuf => (tryParseCanonicalDataPacket rte mbuf).isNone)
  selects : state.Selects

theorem selects_start (writer : ω) : (start writer).Selects where
  established := rfl
  sublist := .slnil
  counted := rfl
  maxima := fun _ => rfl
  expected := fun _ nonempty => absurd rfl nonempty

theorem Selects.stale_iff (selects : state.Selects) (unwrapped : state.Unwrapped)
    (packet : CanonicalDataPacketView) :
    packet.dataSeq < (state.establish packet).nextDataSeq ↔
      ¬∀ before ∈ state.log.parsed, parsedSeq before < parsedSeq packet := by
  rw [establish_nextDataSeq, selects.established]
  cases parsed : state.log.parsed with
  | nil => simp
  | cons first rest =>
      obtain ⟨largest, member, above, next⟩ := selects.expected unwrapped (by simp [parsed])
      rw [parsed] at member above
      simp only [List.isEmpty_cons, Bool.not_false, if_true]
      rw [UInt64.lt_iff_toNat_lt, next]
      constructor
      · intro behind all
        have ahead : parsedSeq largest < packet.dataSeq.toNat := all largest member
        omega
      · intro notAll
        by_contra ahead
        refine notAll fun before inside => ?_
        have bound := above before inside
        have reached : parsedSeq largest + 1 ≤ packet.dataSeq.toNat := Nat.not_lt.mp ahead
        exact Nat.lt_of_le_of_lt bound reached

theorem Selects.drop (selects : state.Selects)
    (stale : packet.dataSeq < (state.establish packet).nextDataSeq) :
    (state.establish packet).drop.Selects := by
  have accepted : (state.establish packet).drop.log.accepted = state.log.accepted :=
    establish_accepted state packet
  have parsed : (state.establish packet).drop.log.parsed = state.log.parsed ++ [packet] :=
    establish_parsed state packet
  have known : state.log.parsed.isEmpty = false := by
    by_contra none
    rw [establish_nextDataSeq, selects.established, eq_true_of_ne_false none] at stale
    exact absurd stale (UInt64.lt_irrefl _)
  have next : (state.establish packet).drop.nextDataSeq = state.nextDataSeq := by
    change (state.establish packet).nextDataSeq = _
    rw [establish_nextDataSeq, selects.established, known]
    rfl
  have before : (state.establish packet).drop.Unwrapped → state.Unwrapped := by
    intro unwrapped
    rwa [Unwrapped, accepted] at unwrapped
  refine ⟨?_, ?_, ?_, ?_, ?_⟩
  · rw [parsed]
    exact (establish_established state packet).trans (by simp)
  · rw [accepted, parsed]
    exact selects.sublist.trans (List.sublist_append_left _ _)
  · rw [accepted, ← selects.counted]
    exact congrArg (·.dataPacketsAccepted) (establish_counters state packet)
  · intro unwrapped
    rw [accepted, parsed, maxima_append_singleton,
      if_neg ((selects.stale_iff (before unwrapped) _).mp stale), List.append_nil]
    exact selects.maxima (before unwrapped)
  · intro unwrapped _
    obtain ⟨largest, member, above, reached⟩ := selects.expected (before unwrapped) (by
      rintro none
      rw [none] at known
      contradiction)
    have behind : parsedSeq packet < largest.dataSeq.toNat + 1 := by
      have bound := UInt64.lt_iff_toNat_lt.mp stale
      rwa [show (state.establish packet).nextDataSeq = state.nextDataSeq from next,
        reached] at bound
    rw [parsed, next]
    refine ⟨largest, List.mem_append_left _ member, ?_, reached⟩
    intro other inside
    rcases List.mem_append.mp inside with earlier | last
    · exact above other earlier
    · rw [List.mem_singleton.mp last]
      exact Nat.le_of_lt_succ behind

theorem Selects.admitPacket (selects : state.Selects)
    (fresh : ¬packet.dataSeq < (state.establish packet).nextDataSeq) :
    ((state.establish packet).admitPacket write packet).Selects := by
  have accepted : ((state.establish packet).admitPacket write packet).log.accepted =
      state.log.accepted ++ [packet] := by
    rw [admitPacket_log, establish_accepted]
  have parsed : ((state.establish packet).admitPacket write packet).log.parsed =
      state.log.parsed ++ [packet] := by
    rw [admitPacket_log, establish_parsed]
  have before : ((state.establish packet).admitPacket write packet).Unwrapped →
      state.Unwrapped ∧ parsedSeq packet + 1 < 2 ^ 64 := by
    intro unwrapped
    rw [Unwrapped, accepted] at unwrapped
    exact ⟨fun old member => unwrapped old (List.mem_append_left _ member),
      unwrapped packet (by simp)⟩
  refine ⟨?_, ?_, ?_, ?_, ?_⟩
  · rw [parsed, admitPacket_established, establish_established]
    simp
  · rw [accepted, parsed]
    exact selects.sublist.append (List.Sublist.refl _)
  · rw [accepted, admitPacket_counters fresh, establish_counters, selects.counted,
      List.length_append, List.length_singleton, UInt64.ofNat_add]
    rfl
  · intro unwrapped
    obtain ⟨old, -⟩ := before unwrapped
    have ahead := not_not.mp (mt (selects.stale_iff old packet).mpr fresh)
    rw [accepted, parsed, maxima_append_singleton, if_pos ahead, selects.maxima old]
  · intro unwrapped _
    obtain ⟨old, room⟩ := before unwrapped
    have ahead := not_not.mp (mt (selects.stale_iff old packet).mpr fresh)
    rw [parsed]
    refine ⟨packet, by simp, ?_, toNat_succ room⟩
    intro other inside
    rcases List.mem_append.mp inside with earlier | last
    · exact Nat.le_of_lt (ahead other earlier)
    · rw [List.mem_singleton.mp last]

theorem Selects.of_same (selects : state.Selects) (same : state.SameSequence other) :
    other.Selects := by
  obtain ⟨established, sublist, counted, maxima, expected⟩ := selects
  rw [← same.log] at established sublist counted maxima expected
  rw [← same.established] at established
  rw [← same.accepted] at counted
  rw [← same.next] at expected
  have before : other.Unwrapped → state.Unwrapped := by
    intro unwrapped
    rwa [Unwrapped, same.log] at unwrapped
  exact ⟨established, sublist, counted, fun unwrapped => maxima (before unwrapped),
    fun unwrapped => expected (before unwrapped)⟩

theorem Logged.onMbuf {received : List Mbuf} (logged : state.Logged rte received)
    (mbuf : Mbuf) : (state.onMbuf rte write mbuf).Logged rte (received ++ [mbuf]) := by
  obtain ⟨parsed, rxPackets, invalid, selects⟩ := logged
  have selects : (state.receive mbuf).Selects :=
    selects.of_same ⟨rfl, rfl, rfl, rfl, rfl, rfl⟩
  have counted : (state.receive mbuf).counters.rxPackets =
      UInt64.ofNat (received ++ [mbuf]).length := by
    rw [List.length_append, List.length_singleton, UInt64.ofNat_add, ← rxPackets]
    rfl
  cases parses : tryParseCanonicalDataPacket rte mbuf with
  | none =>
      rw [onMbuf_none parses]
      refine ⟨?_, counted, ?_, selects.of_same ⟨rfl, rfl, rfl, rfl, rfl, rfl⟩⟩
      · rw [List.filterMap_append, List.filterMap_cons_none parses, List.filterMap_nil,
          List.append_nil]
        exact parsed
      · rw [List.countP_append, List.countP_singleton, parses, UInt64.ofNat_add, ← invalid]
        rfl
  | some packet =>
      have log : ((state.receive mbuf).onPacket write packet).log.parsed =
          state.log.parsed ++ [packet] := by
        rw [onPacket_eq]
        split
        · exact establish_parsed _ _
        · rw [admitPacket_log]
          exact establish_parsed _ _
      have kept : ((state.receive mbuf).onPacket write packet).counters.invalidLldtPackets =
          state.counters.invalidLldtPackets := by
        rw [onPacket_eq]
        split
        · exact congrArg (·.invalidLldtPackets) (establish_counters _ _)
        · rename_i fresh
          rw [admitPacket_counters fresh, establish_counters]
          rfl
      rw [onMbuf_some parses]
      refine ⟨?_, (onPacket_settled write _ packet).1.trans counted, ?_, ?_⟩
      · rw [log, parsed, List.filterMap_append, List.filterMap_cons_some parses,
          List.filterMap_nil]
      · rw [kept, invalid, List.countP_append, List.countP_singleton, parses]
        rfl
      · rw [onPacket_eq]
        split
        · exact selects.drop ‹_›
        · exact selects.admitPacket ‹_›

theorem logged_of_run (rte : Rte) (write : ω → CanonicalDataPacketView → ω) (writer : ω)
    (bursts : List (RxBurst Mbuf)) :
    ((start writer).run rte write bursts).Logged rte (bursts.flatMap RxBurst.items) := by
  have logged : ((start writer).run rte write (bursts.map (RxBurst.map id))).Logged rte
      (bursts.flatMap RxBurst.items) := by
    apply run_history fun state received => state.Logged rte received
    · rintro state other received same ⟨parsed, rxPackets, invalid, selects⟩
      rw [same]
      exact ⟨parsed, rxPackets, invalid, selects.of_same ⟨rfl, rfl, rfl, rfl, rfl, rfl⟩⟩
    · exact fun mbuf logged => logged.onMbuf mbuf
    · exact ⟨rfl, rfl, rfl, selects_start writer⟩
  rwa [RxBurst.map_map_id] at logged

/-- At the end of every burst the counters say what happened to every packet. -/
theorem accounting (rte : Rte) (write : ω → CanonicalDataPacketView → ω) (writer : ω)
    (bursts : List (RxBurst Mbuf)) :
    let final := (start writer).run rte write bursts
    let received := bursts.flatMap RxBurst.items
    (final.log.parsed = received.filterMap (tryParseCanonicalDataPacket rte) ∧
      final.log.accepted.Sublist final.log.parsed ∧
      final.counters.rxPackets = UInt64.ofNat received.length ∧
      final.counters.invalidLldtPackets =
        UInt64.ofNat (received.countP fun mbuf => (tryParseCanonicalDataPacket rte mbuf).isNone) ∧
      final.counters.dataPacketsAccepted = UInt64.ofNat final.log.accepted.length) ∧
    final.counters.rxPackets =
      final.counters.invalidLldtPackets + final.counters.staleDataPackets +
        final.counters.dataPacketsAccepted ∧
    ∀ first ∈ final.log.parsed.head?,
      final.nextDataSeq - first.dataSeq =
        final.counters.dataPacketsAccepted + final.counters.dataPacketsMissing ∧
      ((∀ packet ∈ final.log.accepted, packet.dataSeq.toNat ≠ 2 ^ 64 - 1) →
        let missed := holes first.dataSeq.toNat final.nextDataSeq.toNat
          (final.log.accepted.map (·.dataSeq.toNat))
        final.log.accepted = maxima (·.dataSeq.toNat) final.log.parsed ∧
        final.counters.dataPacketsMissing.toNat = missed.card ∧
        final.counters.dataGapEvents.toNat = (maximalRuns missed).ncard) := by
  intro final received
  obtain ⟨parsed, rxPackets, invalid, selects⟩ := logged_of_run rte write writer bursts
  obtain ⟨counted, accounts⟩ : final.counters.rxPackets = final.settled ∧ final.Accounts := by
    apply run_invariant fun state =>
      state.counters.rxPackets = state.settled ∧ state.Accounts
    · rintro state other same ⟨counted, accounts⟩
      rw [same]
      exact ⟨counted, accounts.of_same ⟨rfl, rfl, rfl, rfl, rfl, rfl⟩⟩
    · rintro state mbuf ⟨counted, accounts⟩
      exact ⟨onMbuf_settled counted mbuf, accounts.onMbuf mbuf⟩
    · exact ⟨rfl, accounts_start writer⟩
  refine ⟨⟨parsed, selects.sublist, rxPackets, invalid, selects.counted⟩, counted,
    fun first member => ?_⟩
  have origin : final.origin = first.dataSeq := by
    rw [ReceiverLoop.origin, Option.mem_def.mp member]
    rfl
  refine ⟨origin ▸ accounts.sequence, fun unwrapped => ?_⟩
  have room : final.Unwrapped := fun packet inside => by
    have inRange := unwrapped packet inside
    have bound := packet.dataSeq.toNat_lt
    change packet.dataSeq.toNat + 1 < 2 ^ 64
    omega
  have tracks := accounts.tracks room
  intro missed
  have same : missed = final.missed := by
    rw [ReceiverLoop.missed, origin]
    rfl
  rw [ncard_maximalRuns, same]
  exact ⟨selects.maxima room, tracks.missing, tracks.gaps⟩

def dataMbuf (dataSeq : Nat) : Mbuf where
  buffer := List.replicate 42 0 ++ DATA_PREFIX ++ toBigEndian 8 dataSeq ++ List.replicate 7 0
  dataLen := 64

/-- Packets 5 and 7, the late 6 and a runt. -/
def mixedBurst : RxBurst Mbuf :=
  ⟨[dataMbuf 5, dataMbuf 7, dataMbuf 6, ⟨[1, 2, 3], 3⟩], by simp [rxBurstSize]⟩

theorem accounting_mixed :
    ∃ final : ReceiverLoop Unit, final.counters.rxPackets = 4 ∧
      final.counters.invalidLldtPackets = 1 ∧ final.counters.staleDataPackets = 1 ∧
      final.log.accepted.map (·.dataSeq) = [5, 7] ∧
      final.counters.dataPacketsMissing.toNat = (holes 5 8 [5, 7]).card ∧
      final.counters.dataGapEvents.toNat = (maximalRuns (holes 5 8 [5, 7])).ncard := by
  let final := (start ()).run Rte.littleEndianHost (fun writer _ => writer) [mixedBurst]
  have executed : ((final.counters.rxPackets, final.counters.invalidLldtPackets,
      final.counters.staleDataPackets), final.nextDataSeq,
      final.log.parsed.head?.map (·.dataSeq), final.log.accepted.map (·.dataSeq)) =
        ((4, 1, 1), 8, some 5, [5, 7]) := by
    decide +kernel
  simp only [Prod.mk.injEq] at executed
  obtain ⟨⟨rxPackets, invalid, stale⟩, next, head, accepted⟩ := executed
  obtain ⟨first, member, five⟩ := Option.map_eq_some_iff.mp head
  have seqs : final.log.accepted.map (·.dataSeq.toNat) = [5, 7] := by
    have mapped := congrArg (List.map UInt64.toNat) accepted
    rwa [List.map_map] at mapped
  obtain ⟨-, -, accounted⟩ := accounting Rte.littleEndianHost (fun writer _ => writer) ()
    [mixedBurst]
  obtain ⟨-, losses⟩ := accounted first member
  have unwrapped : ∀ packet ∈ final.log.accepted, packet.dataSeq.toNat ≠ 2 ^ 64 - 1 := by
    intro packet inside
    have listed : packet.dataSeq.toNat ∈ [5, 7] := by
      rw [← seqs]
      exact List.mem_map_of_mem inside
    rintro last
    rw [last] at listed
    exact absurd listed (by decide)
  obtain ⟨-, missing, gaps⟩ := losses unwrapped
  rw [show final.nextDataSeq = 8 from next, five, seqs] at missing gaps
  exact ⟨final, rxPackets, invalid, stale, accepted, missing, gaps⟩

end ReceiverLoop

end Lldt.Transport
