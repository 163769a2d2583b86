import Lldt.Packet.Parser

namespace Lldt.Transport

open Lldt.Dpdk

/-! The loop of `run_receiver`, burst by burst.  The writer is a parameter: the
loop only hands it the packets it accepts. -/

def rxBurstSize : Nat := 32

structure ReceiverCounters where
  rxBursts : UInt64 := 0
  emptyRxBursts : UInt64 := 0
  rxPackets : UInt64 := 0
  rxBytes : UInt64 := 0
  invalidLldtPackets : UInt64 := 0
  staleDataPackets : UInt64 := 0
  dataGapEvents : UInt64 := 0
  dataPacketsMissing : UInt64 := 0
  dataPacketsAccepted : UInt64 := 0
  framesPublished : UInt64 := 0
  frameBytesPublished : UInt64 := 0
  deriving DecidableEq, Repr

structure RxBurst (α : Type) where
  items : List α
  atMost : items.length ≤ rxBurstSize

def RxBurst.map {α β : Type} (f : α → β) (burst : RxBurst α) : RxBurst β where
  items := burst.items.map f
  atMost := by
    rw [List.length_map]
    exact burst.atMost

theorem RxBurst.map_map_id {α : Type} (bursts : List (RxBurst α)) :
    bursts.map (RxBurst.map id) = bursts := by
  simp [RxBurst.map, List.map_id'']

/-- What an observer of the loop writes down: the packets that were parsed and
those of them that were accepted. -/
structure ReceiverLog where
  parsed : List CanonicalDataPacketView := []
  accepted : List CanonicalDataPacketView := []

structure ReceiverLoop (ω : Type) where
  counters : ReceiverCounters
  dataSeqEstablished : Bool
  nextDataSeq : UInt64
  writer : ω
  log : ReceiverLog

namespace ReceiverLoop

variable {ω : Type} (rte : Rte) (write : ω → CanonicalDataPacketView → ω)

def start (writer : ω) : ReceiverLoop ω where
  counters := {}
  dataSeqEstablished := false
  nextDataSeq := 0
  writer := writer
  log := {}

def receive (state : ReceiverLoop ω) (mbuf : Mbuf) : ReceiverLoop ω :=
  { state with
    counters := { state.counters with
      rxPackets := state.counters.rxPackets + 1
      rxBytes := state.counters.rxBytes + mbuf.dataLen.toUInt64 } }

def reject (state : ReceiverLoop ω) : ReceiverLoop ω :=
  { state with
    counters := { state.counters with
      invalidLldtPackets := state.counters.invalidLldtPackets + 1 } }

def establish (state : ReceiverLoop ω) (packet : CanonicalDataPacketView) :
    ReceiverLoop ω :=
  let log := { state.log with parsed := state.log.parsed ++ [packet] }
  if !state.dataSeqEstablished then { state with
    nextDataSeq := packet.dataSeq
    dataSeqEstablished := true
    log := log }
  else { state with log := log }

def drop (state : ReceiverLoop ω) : ReceiverLoop ω :=
  { state with
    counters := { state.counters with
      staleDataPackets := state.counters.staleDataPackets + 1 } }

def countGap (state : ReceiverLoop ω) (packet : CanonicalDataPacketView) : ReceiverLoop ω :=
  if state.nextDataSeq < packet.dataSeq then { state with
    counters := { state.counters with
      dataGapEvents := state.counters.dataGapEvents + 1
      dataPacketsMissing :=
        state.counters.dataPacketsMissing + (packet.dataSeq - state.nextDataSeq) } }
  else state

def accept (state : ReceiverLoop ω) (packet : CanonicalDataPacketView) : ReceiverLoop ω :=
  { state with
    nextDataSeq := packet.dataSeq + 1
    counters := { state.counters with
      dataPacketsAccepted := state.counters.dataPacketsAccepted + 1
      framesPublished := state.counters.framesPublished + packet.recordCount.toUInt64
      frameBytesPublished :=
        state.counters.frameBytesPublished + (packet.packetSize - 22) }
    log := { state.log with accepted := state.log.accepted ++ [packet] } }

def onPacket (state : ReceiverLoop ω) (packet : CanonicalDataPacketView) :
    ReceiverLoop ω :=
  let state := state.establish packet
  if packet.dataSeq < state.nextDataSeq then state.drop
  else
    let state := state.countGap packet
    { state with writer := write state.writer packet }.accept packet

def onMbuf (state : ReceiverLoop ω) (mbuf : Mbuf) : ReceiverLoop ω :=
  let state := state.receive mbuf
  match tryParseCanonicalDataPacket rte mbuf with
  | none => state.reject
  | some packet => state.onPacket write packet

def onBurst (state : ReceiverLoop ω) (burst : RxBurst Mbuf) : ReceiverLoop ω :=
  let state := { state with
    counters := { state.counters with rxBursts := state.counters.rxBursts + 1 } }
  if burst.items.length = 0 then { state with
    counters := { state.counters with emptyRxBursts := state.counters.emptyRxBursts + 1 } }
  else burst.items.foldl (onMbuf rte write) state

def run (state : ReceiverLoop ω) (bursts : List (RxBurst Mbuf)) : ReceiverLoop ω :=
  bursts.foldl (onBurst rte write) state

/-! One packet: the sequence is established, and then the packet is dropped or
accepted. -/

section Packet

variable {write : ω → CanonicalDataPacketView → ω} {state : ReceiverLoop ω}
  {packet : CanonicalDataPacketView}

theorem establish_parsed (state : ReceiverLoop ω) (packet : CanonicalDataPacketView) :
    (state.establish packet).log.parsed = state.log.parsed ++ [packet] := by
  unfold establish
  split <;> rfl

theorem establish_counters (state : ReceiverLoop ω) (packet : CanonicalDataPacketView) :
    (state.establish packet).counters = state.counters := by
  unfold establish
  split <;> rfl

theorem establish_accepted (state : ReceiverLoop ω) (packet : CanonicalDataPacketView) :
    (state.establish packet).log.accepted = state.log.accepted := by
  unfold establish
  split <;> rfl

theorem establish_writer (state : ReceiverLoop ω) (packet : CanonicalDataPacketView) :
    (state.establish packet).writer = state.writer := by
  unfold establish
  split <;> rfl

theorem establish_established (state : ReceiverLoop ω) (packet : CanonicalDataPacketView) :
    (state.establish packet).dataSeqEstablished = true := by
  unfold establish
  split
  · rfl
  · rename_i already
    rwa [Bool.not_eq_true', Bool.not_eq_false] at already

theorem establish_nextDataSeq (state : ReceiverLoop ω) (packet : CanonicalDataPacketView) :
    (state.establish packet).nextDataSeq =
      if state.dataSeqEstablished then state.nextDataSeq else packet.dataSeq := by
  unfold establish
  cases state.dataSeqEstablished <;> rfl

theorem countGap_eq (reached : ¬packet.dataSeq < state.nextDataSeq) :
    state.countGap packet = { state with
      counters := { state.counters with
        dataGapEvents :=
          state.counters.dataGapEvents + if state.nextDataSeq < packet.dataSeq then 1 else 0
        dataPacketsMissing :=
          state.counters.dataPacketsMissing + (packet.dataSeq - state.nextDataSeq) } } := by
  unfold countGap
  split
  · rfl
  · rename_i noGap
    have expected : packet.dataSeq = state.nextDataSeq :=
      UInt64.le_antisymm (UInt64.not_lt.mp noGap) (UInt64.not_lt.mp reached)
    simp [expected]

theorem countGap_writer (state : ReceiverLoop ω) (packet : CanonicalDataPacketView) :
    (state.countGap packet).writer = state.writer := by
  unfold countGap
  split <;> rfl

/-- `write` and what follows it, behind the gap check. -/
def admitPacket (write : ω → CanonicalDataPacketView → ω) (state : ReceiverLoop ω)
    (packet : CanonicalDataPacketView) : ReceiverLoop ω :=
  let state := state.countGap packet
  { state with writer := write state.writer packet }.accept packet

theorem onPacket_eq (state : ReceiverLoop ω) (packet : CanonicalDataPacketView) :
    state.onPacket write packet =
      if packet.dataSeq < (state.establish packet).nextDataSeq
      then (state.establish packet).drop
      else (state.establish packet).admitPacket write packet := rfl

theorem admitPacket_log (state : ReceiverLoop ω) (packet : CanonicalDataPacketView) :
    (state.admitPacket write packet).log =
      { state.log with accepted := state.log.accepted ++ [packet] } := by
  unfold admitPacket countGap
  dsimp only
  split <;> rfl

theorem admitPacket_established (state : ReceiverLoop ω) (packet : CanonicalDataPacketView) :
    (state.admitPacket write packet).dataSeqEstablished = state.dataSeqEstablished := by
  unfold admitPacket countGap
  dsimp only
  split <;> rfl

theorem admitPacket_writer (state : ReceiverLoop ω) (packet : CanonicalDataPacketView) :
    (state.admitPacket write packet).writer = write state.writer packet := by
  unfold admitPacket countGap
  dsimp only
  split <;> rfl

end Packet

/-! One mbuf: it is rejected, or its packet is handled. -/

section Mbuf

variable {rte : Rte} {write : ω → CanonicalDataPacketView → ω} {mbuf : Mbuf}

theorem onMbuf_none (rejects : tryParseCanonicalDataPacket rte mbuf = none)
    (state : ReceiverLoop ω) :
    state.onMbuf rte write mbuf = (state.receive mbuf).reject := by
  rw [onMbuf, rejects]

theorem onMbuf_some {packet : CanonicalDataPacketView}
    (parses : tryParseCanonicalDataPacket rte mbuf = some packet) (state : ReceiverLoop ω) :
    state.onMbuf rte write mbuf = (state.receive mbuf).onPacket write packet := by
  rw [onMbuf, parses]

end Mbuf

/-! A property of everything but the burst counters is kept by a run as soon as
it is kept by every mbuf.  The property may mention the items received so far, of
which the mbufs are a reading. -/

section Rules

variable {rte : Rte} {write : ω → CanonicalDataPacketView → ω} {state : ReceiverLoop ω}
  {α : Type} {mbuf : α → Mbuf}

def SameButBursts (state other : ReceiverLoop ω) : Prop :=
  other = { state with
    counters := { state.counters with
      rxBursts := other.counters.rxBursts
      emptyRxBursts := other.counters.emptyRxBursts } }

theorem run_history_after (Inv : ReceiverLoop ω → List α → Prop)
    (bursts : ∀ {state other seen}, SameButBursts state other → Inv state seen → Inv other seen)
    (items : ∀ {state seen} (item : α), Inv state seen →
      Inv (state.onMbuf rte write (mbuf item)) (seen ++ [item]))
    {seen : List α} (initial : Inv state seen) (received : List (RxBurst α)) :
    Inv (state.run rte write (received.map (RxBurst.map mbuf)))
      (seen ++ received.flatMap RxBurst.items) := by
  induction received generalizing state seen with
  | nil =>
      rw [List.flatMap_nil, List.append_nil]
      exact initial
  | cons burst rest ih =>
      rw [List.flatMap_cons, ← List.append_assoc]
      apply ih
      unfold onBurst
      simp only [RxBurst.map, List.length_map]
      split
      · rename_i empty
        rw [List.eq_nil_of_length_eq_zero empty, List.append_nil]
        exact bursts rfl initial
      · have counted : Inv { state with
            counters := { state.counters with rxBursts := state.counters.rxBursts + 1 } } seen :=
          bursts rfl initial
        generalize ({ state with
          counters := { state.counters with
            rxBursts := state.counters.rxBursts + 1 } } : ReceiverLoop ω) = begun at counted
        clear ih initial
        induction burst.items generalizing begun seen with
        | nil => simpa using counted
        | cons item others ihItems =>
            rw [List.append_cons]
            exact ihItems _ (items item counted)

/-- A run keeps a property of the state and of what it has received. -/
theorem run_history (Inv : ReceiverLoop ω → List α → Prop)
    (bursts : ∀ {state other seen}, SameButBursts state other → Inv state seen → Inv other seen)
    (items : ∀ {state seen} (item : α), Inv state seen →
      Inv (state.onMbuf rte write (mbuf item)) (seen ++ [item]))
    (initial : Inv state []) (received : List (RxBurst α)) :
    Inv (state.run rte write (received.map (RxBurst.map mbuf)))
      (received.flatMap RxBurst.items) := by
  have history := run_history_after Inv bursts items initial received
  rwa [List.nil_append] at history

theorem run_invariant (Inv : ReceiverLoop ω → Prop)
    (bursts : ∀ {state other}, SameButBursts state other → Inv state → Inv other)
    (mbufs : ∀ {state} (mbuf : Mbuf), Inv state → Inv (state.onMbuf rte write mbuf))
    (initial : Inv state) (received : List (RxBurst Mbuf)) :
    Inv (state.run rte write received) := by
  rw [← RxBurst.map_map_id received]
  exact run_history (fun state _ => Inv state) bursts mbufs initial received

end Rules

end ReceiverLoop

end Lldt.Transport
