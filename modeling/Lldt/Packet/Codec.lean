import Lldt.Dpdk.Materializer
import Lldt.Packet.Parser
import Lldt.Receiver.Writer

namespace Lldt.Transport

open Lldt.Data.Bytes
open Lldt.Dpdk
open Lldt.Msg
open Lldt.Shm

/-! The parser and the writer undo the builder and the materializer. -/

variable {profile : Profile} {slots : SlotCount}

namespace RawDataPacketBuilder

def attempt (state : RawDataPacketBuilder × List (ValidFrame profile))
    (offered : OfferedFrame profile) : RawDataPacketBuilder × List (ValidFrame profile) :=
  match state.1.tryAppend offered.source offered.view with
  | (.ok, builder) => (builder, state.2 ++ [offered.frame])
  | (.outputTooSmall, builder) => (builder, state.2)

def start (output : List UInt8) (dataSeq : UInt64) (first : OfferedFrame profile) :
    RawDataPacketBuilder × List (ValidFrame profile) :=
  (new output dataPacketCanonicalCapacity dataSeq first.source first.view, [first.frame])

section Attempts

variable {state : RawDataPacketBuilder × List (ValidFrame profile)} {area : Nat}
  {capacity : UInt64}

theorem Carries.attempt (carries : state.1.Carries area capacity state.2)
    (small : capacity.toNat < 2 ^ 16) (offered : OfferedFrame profile) :
    (attempt state offered).1.Carries area capacity (attempt state offered).2 := by
  have appended := carries.append small offered
  unfold RawDataPacketBuilder.attempt
  generalize result : state.1.tryAppend offered.source offered.view = outcome at appended ⊢
  obtain ⟨_ | _, builder⟩ := outcome
  · exact appended rfl
  · have same := tryAppend_tooSmall (congrArg Prod.fst result)
    rw [result] at same
    change builder.Carries area capacity state.2
    rw [show builder = state.1 from same]
    exact carries

theorem Carries.attempts (carries : state.1.Carries area capacity state.2)
    (small : capacity.toNat < 2 ^ 16) (attempts : List (OfferedFrame profile)) :
    (attempts.foldl RawDataPacketBuilder.attempt state).1.Carries area capacity
      (attempts.foldl RawDataPacketBuilder.attempt state).2 := by
  induction attempts generalizing state with
  | nil => exact carries
  | cons offered rest ih => exact ih (carries.attempt small offered)

theorem attempts_keep (attempts : List (OfferedFrame profile)) :
    state.2 <+: (attempts.foldl attempt state).2 := by
  induction attempts generalizing state with
  | nil => exact List.prefix_refl _
  | cons offered rest ih =>
      refine List.IsPrefix.trans ?_ ih
      unfold attempt
      split
      · exact List.prefix_append _ _
      · exact List.prefix_refl _

theorem attempts_dataSeq (attempts : List (OfferedFrame profile)) :
    (attempts.foldl attempt state).1.dataSeq = state.1.dataSeq := by
  induction attempts generalizing state with
  | nil => rfl
  | cons offered rest ih =>
      have kept : (state.1.tryAppend offered.source offered.view).2.dataSeq =
          state.1.dataSeq := tryAppend_dataSeq _ _
      rw [List.foldl_cons, ih, attempt]
      split <;> rename_i result <;> rw [result] at kept <;> exact kept

end Attempts

end RawDataPacketBuilder

open RawDataPacketBuilder

/-- A finished packet in its mbuf parses to the data sequence and the frames it
was built from. -/
theorem tryParse_finalize {rte : Rte} (documented : rte.Documented) {reserved : Mbuf}
    (length : reserved.dataLen = 1514) (room : 1514 ≤ reserved.buffer.length)
    {builder : RawDataPacketBuilder} {frames : List (ValidFrame profile)}
    (carries : builder.Carries (reserved.buffer.length - headerSize)
      dataPacketCanonicalCapacity frames)
    (nonempty : frames ≠ []) (dst : PreparedDestination) :
    ∃ parsed, tryParseCanonicalDataPacket rte
        (finalizeDataPacket rte (reserved.store headerSize builder.finalize.data) dst
          builder.finalize.packetSize) = some parsed ∧
      parsed.dataSeq = builder.dataSeq ∧ parsed.Encodes frames := by
  obtain ⟨encodes, header, dataLength⟩ := carries.finalize
  generalize builder.finalize = view at encodes header dataLength ⊢
  have capacity : dataPacketCanonicalCapacity.toNat = 1472 := rfl
  have size : headerSize = 42 := rfl
  have fits := carries.fits
  have packetSize := encodes.packetSize
  have least := length_le_payload frames
  have some : 0 < frames.length := List.length_pos_iff.mpr nonempty
  simp only [sizeofHeader, toNat_dataHeaderSize] at least fits packetSize
  have stored : (reserved.store headerSize view.data).buffer.length =
      reserved.buffer.length := length_overwrite (by omega)
  obtain ⟨finalLen, -, finalData⟩ := finalizeDataPacket_spec documented dst
    (UInt64.le_iff_toNat_le.mpr (by omega : view.packetSize.toNat ≤ _))
    (show (reserved.store headerSize view.data).dataLen = 1514 from length)
    (by omega)
  generalize finalizeDataPacket rte _ dst view.packetSize = final at finalLen finalData ⊢
  have area : final.buffer.drop outerHeaderSize = view.data := by
    rw [show outerHeaderSize = headerSize from rfl, finalData, Mbuf.store,
      drop_overwrite_self (by omega), List.drop_eq_nil_of_le (by omega), List.append_nil]
  rw [← area] at header
  refine ⟨_, tryParse_header documented (by omega) header, rfl, ?_, carries.recordCount, ?_⟩
  · have outer : (UInt64.ofNat outerHeaderSize).toNat = 42 := rfl
    have long : UInt64.ofNat outerHeaderSize ≤ final.dataLen.toUInt64 := by
      rw [UInt64.le_iff_toNat_le, outer, UInt16.toNat_toUInt64]
      omega
    rw [UInt64.toNat_sub_of_le _ _ long, outer, UInt16.toNat_toUInt64, toNat_dataHeaderSize]
    omega
  · simp only [area]
    exact encodes.records

/-- The decoder undoes the encoder over the whole format. -/
theorem decode_encode {rte : Rte} (documented : rte.Documented) (fresh : FreshMbuf)
    {offset : Nat} {reserved : Mbuf}
    (reserve : tryReserveDataPacket rte fresh.mbuf = some (offset, reserved))
    (dst : PreparedDestination) (dataSeq : UInt64) (first next : OfferedFrame profile)
    (attempts : List (OfferedFrame profile)) (writer : ReceiverShmWriter slots) :
    let state := attempts.foldl attempt (start (reserved.buffer.drop offset) dataSeq first)
    let accepted := state.2
    let size := dataHeaderSize.toNat + (payload accepted).length
    let view := state.1.finalize
    let sent := finalizeDataPacket rte (reserved.store offset view.data) dst view.packetSize
    ((state.1.tryAppend next.source next.view).1 = .outputTooSmall ↔
      dataPacketCanonicalCapacity.toNat < size + next.frame.bytes.length) ∧
    ((state.1.tryAppend next.source next.view).1 = .outputTooSmall →
      (state.1.tryAppend next.source next.view).2 = state.1) ∧
    ∃ parsed, tryParseCanonicalDataPacket rte sent = some parsed ∧
      parsed.dataSeq = dataSeq ∧ parsed.recordCount.toNat = accepted.length ∧
      parsed.packetSize.toNat = size ∧ size ≤ dataPacketCanonicalCapacity.toNat ∧
      writer.writeCursor profile parsed =
        (accepted.foldl ReceiverShmWriter.publishFrame writer, parsed.packetSize.toNat) ∧
      (writer.write profile parsed).published =
        writer.published ++ accepted.map fun frame => frame.bytes := by
  intro state accepted size view sent
  obtain ⟨rfl, length, -, room⟩ := tryReserveDataPacket_fresh documented fresh reserve
  have capacity : dataPacketCanonicalCapacity.toNat = 1472 := rfl
  have headers : headerSize = 42 := rfl
  have area := List.length_drop (i := headerSize) (l := reserved.buffer)
  have firstLength := first.frame.length_le
  have started : (start (reserved.buffer.drop headerSize) dataSeq first).1.Carries
      (reserved.buffer.drop headerSize).length dataPacketCanonicalCapacity
      (start (reserved.buffer.drop headerSize) dataSeq first).2 :=
    carries_new dataSeq first (by omega) (by rw [toNat_dataHeaderSize]; omega)
  have carries : state.1.Carries (reserved.buffer.length - headerSize)
      dataPacketCanonicalCapacity accepted := by
    rw [← area]
    exact started.attempts (by decide) attempts
  have nonempty : accepted ≠ [] := (attempts_keep attempts).ne_nil (by simp [start])
  obtain ⟨parsed, parses, sequence, encodes⟩ :=
    tryParse_finalize documented length room carries nonempty dst
  have written := ReceiverShmWriter.writeCursor_encodes encodes writer
  refine ⟨carries.tryAppend_tooSmall_iff next, tryAppend_tooSmall, parsed, parses, ?_,
    encodes.recordCount, encodes.packetSize, carries.fits, written, ?_⟩
  · rw [sequence, attempts_dataSeq]
    rfl
  · rw [ReceiverShmWriter.write, written]
    exact ReceiverShmWriter.published_publishFrames writer accepted

def trade : OfferedFrame .compact where
  source := List.replicate 18 7 ++ [Compact.typeTrade] ++ List.replicate 77 9
  view := ⟨64, 7, false⟩
  frame := {
    bytes := List.replicate 18 7 ++ [Compact.typeTrade] ++ List.replicate 45 9
    fits := by decide
    hasHeader := by decide
    sized := by decide }
  size := by decide
  shows := by decide

theorem decode_encode_trades :
    let reserved : Mbuf := ⟨List.replicate 1600 0xAA, 1514⟩
    let writer : ReceiverShmWriter ⟨4, 2, by decide⟩ :=
      .attached ⟨9, fun _ => ⟨3, 0, fun _ => 0⟩⟩
    let state := [trade].foldl attempt (start (reserved.buffer.drop 42) 5 trade)
    let ethernet : EtherHdr := ⟨.replicate 6 1, .replicate 6 2, 8⟩
    let dst : PreparedDestination :=
      ⟨ethernet, ⟨0x45, 0, 0, 0, 0x40, 64, 17, 0, 1, 2⟩, ⟨9, 9, 0, 0⟩, 0x1234⟩
    ∃ parsed, tryParseCanonicalDataPacket .littleEndianHost
        (finalizeDataPacket .littleEndianHost (reserved.store 42 state.1.finalize.data) dst
          state.1.finalize.packetSize) = some parsed ∧
      parsed.dataSeq = 5 ∧ (writer.write .compact parsed).published =
        writer.published ++ state.2.map fun frame => frame.bytes := by
  intro reserved writer state ethernet dst
  have reserve : tryReserveDataPacket .littleEndianHost ⟨List.replicate 1600 0xAA, 0⟩ =
      some (42, reserved) := by
    have room : (0 : UInt16).toNat + maxDataPacketSize.toUInt16.toNat ≤
        (List.replicate 1600 (0xAA : UInt8)).length := by
      rw [List.length_replicate]
      decide
    simp only [tryReserveDataPacket, Rte.littleEndianHost, if_pos room]
    rfl
  obtain ⟨-, -, parsed, parses, sequence, -, -, -, -, published⟩ :=
    decode_encode Rte.littleEndianHost_documented ⟨⟨List.replicate 1600 0xAA, 0⟩, rfl⟩ reserve
      dst 5 trade trade [trade] writer
  exact ⟨parsed, parses, sequence, published⟩

end Lldt.Transport
