import Lldt.Data.RetainedLog
import Lldt.Data.Selection
import Lldt.Packet.Codec
import Lldt.Sender.Loop
import Mathlib.Data.List.Nodup

namespace Lldt.Transport

open Lldt.Data.Bytes
open Lldt.Data.RetainedLog
open Lldt.Data.Selection
open Lldt.Data.Transition
open Lldt.Dpdk
open Lldt.Msg
open Lldt.Shm

/-! Every admitted frame goes from the reader's buffer into a packet, or is lost
with the allocation made for it. -/

variable {profile : Profile}

/-- An allocation or a reserve that fails. -/
def SenderEvent.fails (rte : Rte) : SenderEvent → Bool
  | .alloc none => true
  | .alloc (some fresh) => (tryReserveDataPacket rte fresh.mbuf).isNone
  | _ => false

/-- The packet carries the frames copied into it, and so does its mbuf. -/
structure BuiltPacket.Sound (rte : Rte) (packet : BuiltPacket)
    (frames : List (ValidFrame profile)) : Prop where
  nonempty : frames ≠ []
  records : packet.records = frames.map fun frame => frame.bytes
  encodes : packet.canonical.Encodes frames
  parses : ∃ parsed, tryParseCanonicalDataPacket rte packet.mbuf = some parsed ∧
    parsed.dataSeq = packet.canonical.dataSeq ∧ parsed.Encodes frames

structure OpenPacket.Filled (packet : OpenPacket) (dataSeq : UInt64)
    (records : List (List UInt8)) (frames : List (ValidFrame profile)) : Prop where
  dataSeq : packet.builder.dataSeq = dataSeq
  nonempty : frames ≠ []
  records : records = frames.map fun frame => frame.bytes
  carries : packet.builder.Carries (packet.mbuf.buffer.length - headerSize)
    dataPacketCanonicalCapacity frames
  output : packet.canonicalOutput = headerSize
  dataLen : packet.mbuf.dataLen = 1514
  room : 1514 ≤ packet.mbuf.buffer.length

theorem payload_eq_flatten (frames : List (ValidFrame profile)) :
    payload frames = (frames.map fun frame => frame.bytes).flatten := by
  rw [payload, List.flatMap_def]

namespace SenderLoop

/-- The frames placed into packets are those admitted, except for the lost ones
and a pending one, the last, which its view still shows in the buffer. -/
def Accounts (profile : Profile) (buffer : List UInt8) (admitted : List (List UInt8))
    (lost : List Nat) (placed : List (List UInt8)) :
    Option (ValidatedSourceFrameView × Nat) → Prop
  | none => (∀ number ∈ lost, number < admitted.length) ∧ without admitted lost = placed
  | some (view, number) => ∃ (before : List (List UInt8)) (frame : ValidFrame profile),
      view.Shows buffer frame ∧ admitted = before ++ [frame.bytes] ∧
        number = before.length ∧ (∀ number ∈ lost, number < before.length) ∧
        without before lost = placed

section Accounts

variable {buffer : List UInt8} {admitted placed : List (List UInt8)} {lost : List Nat}
  {view : ValidatedSourceFrameView} {number : Nat}

theorem Accounts.take {frame : ValidFrame profile} {before : List UInt8}
    (accounts : Accounts profile before admitted lost placed none)
    (shows : view.Shows buffer frame) :
    Accounts profile buffer (admitted ++ [frame.bytes]) lost placed
      (some (view, admitted.length)) :=
  ⟨admitted, frame, shows, rfl, rfl, accounts⟩

theorem Accounts.lose
    (accounts : Accounts profile buffer admitted lost placed (some (view, number))) :
    Accounts profile buffer admitted (lost ++ [number]) placed none := by
  obtain ⟨before, frame, -, rfl, rfl, below, kept⟩ := accounts
  refine ⟨?_, by rw [without_drop_last, kept]⟩
  intro position member
  rw [List.length_append, List.length_singleton]
  rcases List.mem_append.mp member with earlier | last
  · exact Nat.lt_succ_of_lt (below position earlier)
  · rw [List.mem_singleton.mp last]
    exact Nat.lt_succ_self _

theorem Accounts.append {before : List UInt8} (bytes : List UInt8)
    (accounts : Accounts profile before admitted lost placed none) :
    Accounts profile buffer (admitted ++ [bytes]) lost (placed ++ [bytes]) none := by
  obtain ⟨below, kept⟩ := accounts
  refine ⟨?_, by rw [without_append_singleton below, kept]⟩
  intro position member
  rw [List.length_append]
  exact Nat.lt_add_right _ (below position member)

theorem Accounts.place
    (accounts : Accounts profile buffer admitted lost placed (some (view, number))) :
    ∃ frame : ValidFrame profile, view.Shows buffer frame ∧
      Accounts profile buffer admitted lost (placed ++ [frame.bytes]) none := by
  obtain ⟨before, frame, shows, rfl, rfl, below, kept⟩ := accounts
  have earlier : Accounts profile buffer before lost _ none := ⟨below, kept⟩
  exact ⟨frame, shows, earlier.append frame.bytes⟩

end Accounts

def finished (state : SenderLoop) : List (List UInt8) :=
  state.log.built.flatMap BuiltPacket.records

def Accounted (profile : Profile) (state : SenderLoop) (placed : List (List UInt8))
    (pending : Option (ValidatedSourceFrameView × Nat)) : Prop :=
  Accounts profile state.reader.buffer state.log.admitted state.log.lost placed pending

def carried (state : SenderLoop) : Option (ValidatedSourceFrameView × Nat) :=
  state.carryFrame.map fun view => (view, state.log.carried)

/-- Where every admitted frame is in each phase of the loop. -/
def Placed (profile : Profile) (state : SenderLoop) : Prop :=
  match state.phase with
  | .head => state.Accounted profile state.finished state.carried
  | .readFirst | .exited =>
      state.carryFrame = none ∧ state.Accounted profile state.finished none
  | .allocate firstFrame =>
      state.carryFrame = none ∧
        state.Accounted profile state.finished (some (firstFrame, state.log.first))
  | .batch packet | .readNext packet =>
      state.carryFrame = none ∧
        (∃ frames : List (ValidFrame profile),
          packet.Filled state.nextDataSeq state.log.records frames) ∧
        state.Accounted profile (state.finished ++ state.log.records) none
  | .finish packet =>
      (∃ frames : List (ValidFrame profile),
          packet.Filled state.nextDataSeq state.log.records frames) ∧
        state.Accounted profile (state.finished ++ state.log.records) state.carried

structure Stream (profile : Profile) (rte : Rte) (state : SenderLoop) : Prop where
  capacity : (kFrameCap profile).toNat ≤ state.reader.buffer.length
  built : ∀ packet ∈ state.log.built, ∃ frames : List (ValidFrame profile),
    packet.Sound rte frames
  nextDataSeq : state.nextDataSeq = UInt64.ofNat state.log.built.length
  sequence : ∀ number packet, state.log.built[number]? = some packet →
    packet.canonical.dataSeq = UInt64.ofNat number
  placed : state.Placed profile

theorem stream_start (rte : Rte) (liveEdge : UInt64) :
    (start profile liveEdge).Stream profile rte where
  capacity := by simp [start, SenderShmReader.attached]
  built := nofun
  nextDataSeq := rfl
  sequence := nofun
  placed := ⟨nofun, rfl⟩

end SenderLoop

/-! The packet is opened, filled and completed. -/

section Packet

variable {setup : SenderSetup} {rte : Rte} {buffer : List UInt8}
  {view : ValidatedSourceFrameView} {frame : ValidFrame profile}

def ValidatedSourceFrameView.Shows.offered (shows : view.Shows buffer frame) :
    OfferedFrame profile :=
  ⟨buffer, view, frame, shows.size, shows.bytes⟩

theorem ValidatedSourceFrameView.Shows.slice_eq (shows : view.Shows buffer frame) :
    slice buffer 0 view.frameSize.toNat = frame.bytes := by
  rw [shows.size, shows.bytes]

theorem OpenPacket.filled_new (documented : rte.Documented) {fresh : FreshMbuf}
    {output : Nat} {mbuf : Mbuf} (dataSeq : UInt64) (shows : view.Shows buffer frame)
    (reserve : tryReserveDataPacket rte fresh.mbuf = some (output, mbuf)) :
    OpenPacket.Filled ⟨mbuf, output, .new (mbuf.buffer.drop output)
      dataPacketCanonicalCapacity dataSeq buffer view⟩ dataSeq [frame.bytes] [frame] := by
  obtain ⟨rfl, dataLen, -, room⟩ := tryReserveDataPacket_fresh documented fresh reserve
  have area := List.length_drop (i := headerSize) (l := mbuf.buffer)
  have capacity : dataPacketCanonicalCapacity.toNat = 1472 := rfl
  have size : headerSize = 42 := rfl
  have length := frame.length_le
  have carries : (RawDataPacketBuilder.new (mbuf.buffer.drop headerSize)
      dataPacketCanonicalCapacity dataSeq buffer view).Carries
      (mbuf.buffer.drop headerSize).length dataPacketCanonicalCapacity [frame] :=
    RawDataPacketBuilder.carries_new dataSeq shows.offered (by omega) (by
      show 22 + frame.bytes.length ≤ _
      omega)
  rw [area] at carries
  exact ⟨rfl, List.cons_ne_nil _ _, rfl, carries, rfl, dataLen, room⟩

theorem OpenPacket.Filled.append {packet : OpenPacket} {dataSeq : UInt64}
    {records : List (List UInt8)} {frames : List (ValidFrame profile)}
    {builder : RawDataPacketBuilder} (filled : packet.Filled dataSeq records frames)
    (shows : view.Shows buffer frame)
    (appended : packet.builder.tryAppend buffer view = (.ok, builder)) :
    OpenPacket.Filled { packet with builder := builder } dataSeq
      (records ++ [frame.bytes]) (frames ++ [frame]) := by
  have carries := filled.carries.append (by decide) shows.offered (congrArg Prod.fst appended)
  have next : (packet.builder.tryAppend shows.offered.source shows.offered.view).2 = builder :=
    congrArg Prod.snd appended
  rw [next] at carries
  have kept : (packet.builder.tryAppend buffer view).2.dataSeq = packet.builder.dataSeq :=
    RawDataPacketBuilder.tryAppend_dataSeq _ _
  rw [appended] at kept
  refine ⟨kept.trans filled.dataSeq, by simp, ?_, carries, filled.output, filled.dataLen,
    filled.room⟩
  rw [filled.records, List.map_append]
  rfl

theorem OpenPacket.Filled.finish {packet : OpenPacket} {dataSeq : UInt64}
    {state : SenderLoop} {frames : List (ValidFrame profile)}
    (filled : packet.Filled dataSeq state.log.records frames)
    (documented : setup.rte.Documented) :
    (state.builtPacket setup packet).Sound setup.rte frames := by
  rw [SenderLoop.builtPacket, filled.output]
  exact ⟨filled.nonempty, filled.records, filled.carries.finalize.1,
    tryParse_finalize documented filled.dataLen filled.room filled.carries filled.nonempty
      setup.dst⟩

end Packet

namespace SenderLoop

section Preservation

variable {setup : SenderSetup} {state next : SenderLoop} {event : SenderEvent}

theorem shows_of_tryRead {reader next : SenderShmReader} {result : ReadResult}
    {view : ValidatedSourceFrameView}
    (capacity : (kFrameCap profile).toNat ≤ reader.buffer.length)
    (ok : reader.tryRead profile result = (.ok view, next)) :
    (kFrameCap profile).toNat ≤ next.buffer.length ∧
      ∃ frame : ValidFrame profile, view.Shows next.buffer frame ∧
        frame.bytes = slice next.buffer 0 view.frameSize.toNat := by
  have grown := reader.length_buffer_le profile result
  rw [ok] at grown
  exact ⟨capacity.trans grown,
    (reader.admits_of_tryRead profile ok).shows (capacity.trans grown)⟩

theorem Stream.move (documented : setup.rte.Documented)
    (stream : state.Stream profile setup.rte) (move : Move profile setup state event next) :
    next.Stream profile setup.rte := by
  obtain ⟨capacity, built, nextDataSeq, sequence, placed⟩ := stream
  cases move with
  | leave phase empty stop =>
      simp only [Placed, phase, carried, empty] at placed
      exact ⟨capacity, built, nextDataSeq, sequence, empty, placed⟩
  | pass phase empty go =>
      simp only [Placed, phase, carried, empty] at placed
      exact ⟨capacity, built, nextDataSeq, sequence, empty, placed⟩
  | resume phase held =>
      simp only [Placed, phase, carried, held] at placed
      exact ⟨capacity, built, nextDataSeq, sequence, rfl, placed⟩
  | idle phase notOk =>
      simp only [Placed, phase] at placed
      obtain ⟨empty, accounts⟩ := placed
      refine ⟨capacity.trans (state.reader.length_buffer_le profile _), built, nextDataSeq,
        sequence, ?_⟩
      simp only [Placed, carried, empty]
      exact accounts
  | take phase ok =>
      simp only [Placed, phase] at placed
      obtain ⟨empty, accounts⟩ := placed
      obtain ⟨grown, frame, shows, bytes⟩ := shows_of_tryRead capacity ok
      refine ⟨grown, built, nextDataSeq, sequence, empty, ?_⟩
      simp only [Accounted, offered, ← bytes]
      exact Accounts.take accounts shows
  | starve phase =>
      simp only [Placed, phase] at placed
      obtain ⟨empty, accounts⟩ := placed
      refine ⟨capacity, built, nextDataSeq, sequence, ?_⟩
      simp only [Placed, allocate, carried, empty]
      exact Accounts.lose accounts
  | refuse phase reserve =>
      simp only [Placed, phase] at placed
      obtain ⟨empty, accounts⟩ := placed
      exact ⟨capacity, built, nextDataSeq, sequence, empty, Accounts.lose accounts⟩
  | reserve phase reserve opened =>
      simp only [Placed, phase] at placed
      obtain ⟨empty, accounts⟩ := placed
      obtain ⟨frame, shows, placed⟩ := Accounts.place accounts
      have filled := OpenPacket.filled_new documented state.nextDataSeq shows reserve
      rw [← opened] at filled
      refine ⟨capacity, built, nextDataSeq, sequence, ?_⟩
      by_cases batching : setup.batchingEnabled
      · simp only [Placed, if_pos batching, SenderLoop.bytes, shows.slice_eq]
        exact ⟨empty, ⟨[frame], filled⟩, placed⟩
      · simp only [Placed, if_neg batching, SenderLoop.bytes, shows.slice_eq, carried, empty]
        exact ⟨⟨[frame], filled⟩, placed⟩
  | stop phase =>
      simp only [Placed, phase] at placed
      obtain ⟨empty, filled, accounts⟩ := placed
      refine ⟨capacity, built, nextDataSeq, sequence, filled, ?_⟩
      simp only [carried, empty]
      exact accounts
  | more phase =>
      simp only [Placed, phase] at placed
      exact ⟨capacity, built, nextDataSeq, sequence, placed⟩
  | drain phase notOk =>
      simp only [Placed, phase] at placed
      obtain ⟨empty, filled, accounts⟩ := placed
      refine ⟨capacity.trans (state.reader.length_buffer_le profile _), built, nextDataSeq,
        sequence, filled, ?_⟩
      simp only [carried, empty]
      exact accounts
  | carry phase ok blocked =>
      simp only [Placed, phase] at placed
      obtain ⟨empty, filled, accounts⟩ := placed
      obtain ⟨grown, frame, shows, bytes⟩ := shows_of_tryRead capacity ok
      refine ⟨grown, built, nextDataSeq, sequence, filled, ?_⟩
      simp only [Accounted, offered, ← bytes]
      exact Accounts.take accounts shows
  | append phase ok unflagged appended =>
      simp only [Placed, phase] at placed
      obtain ⟨empty, ⟨frames, filled⟩, accounts⟩ := placed
      obtain ⟨grown, frame, shows, bytes⟩ := shows_of_tryRead capacity ok
      refine ⟨grown, built, nextDataSeq, sequence, ?_⟩
      simp only [Placed, offered, ← bytes]
      refine ⟨empty, ⟨_, filled.append shows appended⟩, ?_⟩
      rw [← List.append_assoc]
      exact Accounts.append frame.bytes accounts
  | complete phase =>
      simp only [Placed, phase] at placed
      obtain ⟨⟨frames, filled⟩, accounts⟩ := placed
      refine ⟨?_, ?_, ?_, ?_, ?_⟩
      · rw [finish_reader]
        exact capacity
      · intro packet member
        rcases mem_built_finish _ _ _ _ member with earlier | rfl
        · exact built packet earlier
        · exact ⟨frames, filled.finish documented⟩
      · rw [finish_nextDataSeq, finish_built, nextDataSeq, List.length_append,
          List.length_singleton, UInt64.ofNat_add]
        rfl
      · intro number packet found
        rw [finish_built] at found
        rcases getElem?_append_singleton_cases found with earlier | ⟨rfl, rfl⟩
        · exact sequence number packet earlier
        · rw [← nextDataSeq]
          exact filled.dataSeq
      · simp only [Placed, finish_phase, Accounted, finished, carried, finish_reader,
          finish_admitted, finish_lost, finish_built, finish_carryFrame, finish_carried,
          List.flatMap_append, List.flatMap_singleton]
        exact accounts

theorem stream_of_run (documented : setup.rte.Documented) {liveEdge : UInt64}
    {events : List SenderEvent}
    (run : Run (Step profile setup) (start profile liveEdge) events state) :
    state.Stream profile setup.rte :=
  run.invariant (fun stream step => stream.move documented (move_of_step step))
    (stream_start setup.rte liveEdge)

end Preservation

/-! The reader's results alone decide which frames are admitted. -/

def reads (events : List SenderEvent) : List ReadResult :=
  events.filterMap fun
    | .read result => some result
    | _ => none

/-- The reader and the frames it has admitted, after one more result. -/
def admitNext (profile : Profile) (seen : SenderShmReader × List (List UInt8))
    (result : ReadResult) : SenderShmReader × List (List UInt8) :=
  match seen.1.tryRead profile result with
  | (.ok view, reader) => (reader, seen.2 ++ [slice reader.buffer 0 view.frameSize.toNat])
  | (_, reader) => (reader, seen.2)

section Admitted

variable {setup : SenderSetup} {state next : SenderLoop} {event : SenderEvent}
  {reader after : SenderShmReader} {result : ReadResult} {view : ValidatedSourceFrameView}
  {admitted : List (List UInt8)}

theorem admitNext_ok (ok : reader.tryRead profile result = (.ok view, after)) :
    admitNext profile (reader, admitted) result =
      (after, admitted ++ [slice after.buffer 0 view.frameSize.toNat]) := by
  simp only [admitNext, ok]

theorem admitNext_not_ok (notOk : ∀ view, (reader.tryRead profile result).1 ≠ .ok view) :
    admitNext profile (reader, admitted) result =
      ((reader.tryRead profile result).2, admitted) := by
  unfold admitNext
  split
  · rename_i view _ same
    exact absurd (congrArg Prod.fst same) (notOk view)
  · rename_i same
    rw [same]

theorem Move.readings (move : Move profile setup state event next) :
    (next.reader, next.log.admitted) =
      (reads [event]).foldl (admitNext profile) (state.reader, state.log.admitted) := by
  cases move with
  | idle phase notOk => exact (admitNext_not_ok notOk).symm
  | drain phase notOk => exact (admitNext_not_ok notOk).symm
  | take phase ok => exact (admitNext_ok ok).symm
  | carry phase ok blocked => exact (admitNext_ok ok).symm
  | append phase ok unflagged appended => exact (admitNext_ok ok).symm
  | complete phase => simp [reads]
  | _ => rfl

theorem admitted_of_run {liveEdge : UInt64} {events : List SenderEvent}
    (run : Run (Step profile setup) (start profile liveEdge) events state) :
    (state.reader, state.log.admitted) =
      (reads events).foldl (admitNext profile) (.attached profile liveEdge, []) := by
  induction run with
  | nil => rfl
  | snoc run step ih =>
      rw [(move_of_step step).readings, ih, reads, reads, reads, List.filterMap_append,
        List.foldl_append]

end Admitted

end SenderLoop

def CanonicalDataPacketView.payload (view : CanonicalDataPacketView) : List UInt8 :=
  slice view.data RawDataPacketBuilder.dataHeaderSize.toNat
    (view.packetSize.toNat - RawDataPacketBuilder.dataHeaderSize.toNat)

theorem BuiltPacket.Sound.payload {rte : Rte} {packet : BuiltPacket}
    {frames : List (ValidFrame profile)} (sound : packet.Sound rte frames) :
    packet.canonical.payload = packet.records.flatten := by
  rw [CanonicalDataPacketView.payload, sound.encodes.packetSize, Nat.add_sub_cancel_left,
    sound.encodes.records, sound.records, payload_eq_flatten]

namespace SenderLoop

def payloads (state : SenderLoop) : List UInt8 :=
  state.log.built.flatMap fun packet => packet.canonical.payload

theorem Stream.payloads {rte : Rte} {state : SenderLoop}
    (stream : state.Stream profile rte) (exited : state.phase = .exited) :
    state.payloads = (without state.log.admitted state.log.lost).flatten := by
  have placed := stream.placed
  simp only [Placed, exited] at placed
  obtain ⟨-, -, kept⟩ := placed
  have each : state.payloads = state.log.built.flatMap fun packet => packet.records.flatten := by
    apply List.flatMap_congr
    intro packet member
    obtain ⟨frames, sound⟩ := stream.built packet member
    exact sound.payload
  rw [each, kept, finished, List.flatMap_def, List.flatMap_def, List.flatten_flatten,
    List.map_map]
  rfl

/-! The frames that are lost, and the events they are lost to. -/

section Lost

variable {state next : SenderLoop} {setup : SenderSetup} {event : SenderEvent}
  {liveEdge : UInt64} {events : List SenderEvent}

theorem Move.lost_length (move : Move profile setup state event next) :
    next.log.lost.length =
      state.log.lost.length + [event].countP (SenderEvent.fails setup.rte) := by
  rw [List.countP_singleton]
  cases move with
  | starve phase => simp [SenderEvent.fails, allocate]
  | refuse phase reserve | reserve phase reserve _ => simp [SenderEvent.fails, reserve]
  | complete phase => simp [SenderEvent.fails]
  | _ => rfl

/-- The positions of the lost frames stand for as many admitted ones. -/
structure LostOnce (state : SenderLoop) : Prop where
  distinct : state.log.lost.Nodup
  inside : ∀ number ∈ state.log.lost, number < state.log.admitted.length

theorem lostOnce_start (profile : Profile) (liveEdge : UInt64) :
    (start profile liveEdge).LostOnce :=
  ⟨List.nodup_nil, nofun⟩

/-- The frame an allocation was made for is the newest one. -/
theorem lost_append {buffer : List UInt8} {admitted placed : List (List UInt8)}
    {lost : List Nat} {view : ValidatedSourceFrameView} {number : Nat}
    (accounts : Accounts profile buffer admitted lost placed (some (view, number)))
    (distinct : lost.Nodup) :
    (lost ++ [number]).Nodup ∧ ∀ position ∈ lost ++ [number], position < admitted.length := by
  obtain ⟨before, frame, -, rfl, rfl, below, -⟩ := accounts
  refine ⟨?_, ?_⟩
  · refine distinct.append (List.nodup_singleton _) ?_
    rw [List.disjoint_singleton]
    exact fun member => Nat.lt_irrefl _ (below _ member)
  · intro position member
    rw [List.length_append, List.length_singleton]
    rcases List.mem_append.mp member with earlier | last
    · exact Nat.lt_succ_of_lt (below position earlier)
    · rw [List.mem_singleton.mp last]
      exact Nat.lt_succ_self _

theorem LostOnce.move (once : state.LostOnce) (stream : state.Stream profile setup.rte)
    (move : Move profile setup state event next) : next.LostOnce := by
  obtain ⟨distinct, inside⟩ := once
  have placed := stream.placed
  cases move with
  | starve phase | refuse phase reserve =>
      simp only [Placed, phase] at placed
      obtain ⟨apart, within⟩ := lost_append placed.2 distinct
      exact ⟨apart, within⟩
  | take phase ok | carry phase ok blocked | append phase ok unflagged appended =>
      refine ⟨distinct, fun number member => ?_⟩
      simp only [offered, List.length_append]
      exact Nat.lt_of_lt_of_le (inside number member) (Nat.le_add_right _ _)
  | complete phase =>
      exact ⟨by rwa [finish_lost], by rwa [finish_lost, finish_admitted]⟩
  | _ => exact ⟨distinct, inside⟩

theorem lost_length_of_run (run : Run (Step profile setup) (start profile liveEdge) events state) :
    state.log.lost.length = events.countP (SenderEvent.fails setup.rte) := by
  induction run with
  | nil => rfl
  | snoc run step ih => rw [List.countP_append, (move_of_step step).lost_length, ih]

theorem lostOnce_of_run (documented : setup.rte.Documented)
    (run : Run (Step profile setup) (start profile liveEdge) events state) : state.LostOnce := by
  induction run with
  | nil => exact lostOnce_start profile liveEdge
  | snoc run step ih => exact ih.move (stream_of_run documented run) (move_of_step step)

end Lost

/-- The loop carries the stream of admitted frames over, less one frame for each failed
allocation or reserve, and batching does not change it. -/
theorem stream_preserved {setup : SenderSetup} (documented : setup.rte.Documented)
    {liveEdge : UInt64} {events : List SenderEvent} {state : SenderLoop}
    (run : Run (Step profile setup) (start profile liveEdge) events state)
    (exited : state.phase = .exited) :
    state.payloads = (without state.log.admitted state.log.lost).flatten ∧
    state.LostOnce ∧ state.log.lost.length = events.countP (SenderEvent.fails setup.rte) ∧
    (∀ number packet, state.log.built[number]? = some packet →
      packet.canonical.dataSeq = UInt64.ofNat number) ∧
    ∀ (other : SenderSetup) (otherEvents : List SenderEvent) (otherState : SenderLoop),
      other.rte.Documented →
      Run (Step profile other) (start profile liveEdge) otherEvents otherState →
      otherState.phase = .exited → reads otherEvents = reads events →
      state.log.lost = [] → otherState.log.lost = [] →
      otherState.payloads = state.payloads := by
  have stream := stream_of_run documented run
  refine ⟨stream.payloads exited, lostOnce_of_run documented run, lost_length_of_run run,
    stream.sequence, ?_⟩
  intro other otherEvents otherState otherDocumented otherRun otherExited same none otherNone
  have otherStream := stream_of_run otherDocumented otherRun
  have admitted : otherState.log.admitted = state.log.admitted := by
    have left := admitted_of_run otherRun
    have right := admitted_of_run run
    rw [same] at left
    exact congrArg Prod.snd (left.trans right.symm)
  rw [otherStream.payloads otherExited, stream.payloads exited, admitted, none, otherNone]

def tradeBytes (seqId : UInt8) : List UInt8 :=
  seqId :: List.replicate 17 0 ++ [Compact.typeTrade] ++ List.replicate 45 9

def tradeRead (seqId : UInt8) : SenderEvent := .read (.kOk 64 (tradeBytes seqId))

def freshMbuf : FreshMbuf := ⟨⟨List.replicate 2048 0, 0⟩, rfl⟩

def littleEndianSetup (batchingEnabled : Bool) : SenderSetup where
  rte := .littleEndianHost
  dst := ⟨⟨.replicate 6 1, .replicate 6 2, 8⟩, ⟨0x45, 0, 0, 0, 0x40, 64, 17, 0, 1, 2⟩,
    ⟨9, 9, 0, 0⟩, 0x1234⟩
  batchingEnabled := batchingEnabled

def batched : List SenderEvent :=
  [.poll false, tradeRead 1, .alloc (some freshMbuf), .poll false, tradeRead 2, .poll false,
    .read .kEmpty, .transmit true, .poll true]

def unbatched : List SenderEvent :=
  [.poll false, tradeRead 1, .alloc (some freshMbuf), .transmit true, .poll false, tradeRead 2,
    .alloc (some freshMbuf), .transmit false, .poll false, .read .kEmpty, .poll true]

def hasExited (state : SenderLoop) : Bool :=
  match state.phase with
  | .exited => true
  | _ => false

theorem exited_of_hasExited {state : SenderLoop} (exited : state.hasExited = true) :
    state.phase = .exited := by
  unfold hasExited at exited
  split at exited
  · assumption
  · contradiction

theorem stream_preserved_batching :
    ∃ first second : SenderLoop, first.log.built.length = 1 ∧ second.log.built.length = 2 ∧
      second.payloads = first.payloads := by
  have executed (batchingEnabled : Bool) (events : List SenderEvent) (count : Nat)
      (same : ((events.foldlM (step .compact (littleEndianSetup batchingEnabled))
        (start .compact 0)).map fun state =>
          (state.hasExited, state.log.lost, state.log.built.length)) =
            some (true, [], count)) :
      ∃ state, Run (Step .compact (littleEndianSetup batchingEnabled)) (start .compact 0)
        events state ∧ state.phase = .exited ∧ state.log.lost = [] ∧
        state.log.built.length = count := by
    obtain ⟨state, reached, observed⟩ := Option.map_eq_some_iff.mp same
    obtain ⟨exited, lost, built⟩ := by simpa only [Prod.mk.injEq] using observed
    exact ⟨state, .of_foldlM reached, exited_of_hasExited exited, lost, built⟩
  obtain ⟨first, run, exited, none, one⟩ := executed true batched 1 (by decide +kernel)
  obtain ⟨second, otherRun, otherExited, otherNone, two⟩ :=
    executed false unbatched 2 (by decide +kernel)
  exact ⟨first, second, one, two,
    (stream_preserved Rte.littleEndianHost_documented run exited).2.2.2.2 _ _ _
      Rte.littleEndianHost_documented otherRun otherExited (by rfl) none otherNone⟩

end SenderLoop

end Lldt.Transport
