import Lldt.Dpdk.Mbuf
import Lldt.Packet.Builder

namespace Lldt.Transport

open Lldt.Data.Bytes
open Lldt.Dpdk
open Lldt.Msg

/-! The receiver's admission of a Data packet. -/

def outerHeaderSize : Nat := 42

/-- `LLDT`, version one and the header size 22. -/
def DATA_PREFIX : List UInt8 := [0x4c, 0x4c, 0x44, 0x54, 0x01, 0x00, 0x16]

def tryParseCanonicalDataPacket (rte : Rte) (mbuf : Mbuf) :
    Option CanonicalDataPacketView :=
  if mbuf.dataLen < 64 then none
  else
    let data := mbuf.buffer.drop outerHeaderSize
    if slice data 0 DATA_PREFIX.length ≠ DATA_PREFIX then none
    else
      let dataSeq := loadU64 data 7
      let recordCount := loadU16 data 15
      some {
        data := data
        packetSize := mbuf.dataLen.toUInt64 - UInt64.ofNat outerHeaderSize
        dataSeq := rte.beToCpu64 dataSeq
        recordCount := rte.beToCpu16 recordCount }

/-! The fixed offsets at which the parser looks are those of the header. -/

section Header

open RawDataPacketBuilder

variable {dataSeq : UInt64} {recordCount : UInt16} {data : List UInt8} {rte : Rte}

theorem slice_header {off width : Nat}
    (header : slice data 0 dataHeaderSize.toNat = headerImage dataSeq recordCount)
    (inside : off + width ≤ dataHeaderSize.toNat) :
    slice data off width = slice (headerImage dataSeq recordCount) off width := by
  rw [← header, slice_slice inside, List.drop_zero]

theorem slice_prefix
    (header : slice data 0 dataHeaderSize.toNat = headerImage dataSeq recordCount) :
    slice data 0 DATA_PREFIX.length = DATA_PREFIX := by
  rw [slice_header header (by decide)]
  rfl

theorem beToCpu64_load (documented : rte.Documented)
    (header : slice data 0 dataHeaderSize.toNat = headerImage dataSeq recordCount) :
    rte.beToCpu64 (loadU64 data 7) = dataSeq := by
  have field : slice data 7 8 = toBigEndian 8 dataSeq.toNat := slice_header header (by decide)
  have same : loadU64 data 7 = loadU64 (toBigEndian 8 dataSeq.toNat) 0 := by
    rw [← field]
    simp only [loadU64, slice_slice_self]
  apply UInt64.toNat_inj.mp
  rw [same, documented.be64 _ (length_toBigEndian _ _), ofBigEndian_toBigEndian]
  exact Nat.mod_eq_of_lt dataSeq.toNat_lt

theorem beToCpu16_load (documented : rte.Documented)
    (header : slice data 0 dataHeaderSize.toNat = headerImage dataSeq recordCount) :
    rte.beToCpu16 (loadU16 data 15) = recordCount := by
  have field : slice data 15 2 = toBigEndian 2 recordCount.toNat :=
    slice_header header (by decide)
  have same : loadU16 data 15 = loadU16 (toBigEndian 2 recordCount.toNat) 0 := by
    rw [← field]
    simp only [loadU16, slice_slice_self]
  apply UInt16.toNat_inj.mp
  rw [same, documented.be16 _ (length_toBigEndian _ _), ofBigEndian_toBigEndian]
  exact Nat.mod_eq_of_lt recordCount.toNat_lt

theorem tryParse_header (documented : rte.Documented) {mbuf : Mbuf}
    (long : 64 ≤ mbuf.dataLen.toNat)
    (header : slice (mbuf.buffer.drop outerHeaderSize) 0 dataHeaderSize.toNat =
      headerImage dataSeq recordCount) :
    tryParseCanonicalDataPacket rte mbuf = some {
      data := mbuf.buffer.drop outerHeaderSize
      packetSize := mbuf.dataLen.toUInt64 - UInt64.ofNat outerHeaderSize
      dataSeq := dataSeq
      recordCount := recordCount } := by
  have notShort : ¬mbuf.dataLen < 64 := by
    rw [UInt16.lt_iff_toNat_lt]
    exact Nat.not_lt.mpr long
  simp only [tryParseCanonicalDataPacket, if_neg notShort, slice_prefix header,
    beToCpu64_load documented header, beToCpu16_load documented header, ne_eq,
    not_true_eq_false, if_false]

end Header

theorem tryParse_eq_some_iff {rte : Rte} {mbuf : Mbuf} {parsed : CanonicalDataPacketView} :
    tryParseCanonicalDataPacket rte mbuf = some parsed ↔
      64 ≤ mbuf.dataLen.toNat ∧
      slice (mbuf.buffer.drop outerHeaderSize) 0 DATA_PREFIX.length = DATA_PREFIX ∧
      parsed = {
        data := mbuf.buffer.drop outerHeaderSize
        packetSize := mbuf.dataLen.toUInt64 - UInt64.ofNat outerHeaderSize
        dataSeq := rte.beToCpu64 (loadU64 (mbuf.buffer.drop outerHeaderSize) 7)
        recordCount := rte.beToCpu16 (loadU16 (mbuf.buffer.drop outerHeaderSize) 15) } := by
  have short : mbuf.dataLen < 64 ↔ ¬64 ≤ mbuf.dataLen.toNat := by
    rw [UInt16.lt_iff_toNat_lt, Nat.not_le]
    rfl
  unfold tryParseCanonicalDataPacket
  by_cases long : 64 ≤ mbuf.dataLen.toNat
  · rw [if_neg (mt short.mp (not_not_intro long))]
    by_cases same : slice (mbuf.buffer.drop outerHeaderSize) 0 DATA_PREFIX.length = DATA_PREFIX
    · simp only [same, ne_eq, not_true_eq_false, if_false, Option.some.injEq, long, true_and]
      exact eq_comm
    · simp [same]
  · simp [short.mpr long, long]

/-- What the parser makes of a packet depends on the packet data only. -/
theorem tryParse_receives {rte : Rte} {received sent : Mbuf}
    (receives : received.Receives sent) {parsed : CanonicalDataPacketView}
    (parses : tryParseCanonicalDataPacket rte sent = some parsed)
    {profile : Profile} {frames : List (ValidFrame profile)} (encodes : parsed.Encodes frames) :
    ∃ view, tryParseCanonicalDataPacket rte received = some view ∧
      view.dataSeq = parsed.dataSeq ∧ view.Encodes frames := by
  obtain ⟨long, same, rfl⟩ := tryParse_eq_some_iff.mp parses
  obtain ⟨packetSize, recordCount, records⟩ := encodes
  have outer : (UInt64.ofNat outerHeaderSize).toNat = 42 := rfl
  have whole : sent.dataLen.toNat =
      42 + (RawDataPacketBuilder.dataHeaderSize.toNat + (payload frames).length) := by
    rw [UInt64.toNat_sub_of_le _ _ (by
      rw [UInt64.le_iff_toNat_le, outer, UInt16.toNat_toUInt64]
      omega), outer, UInt16.toNat_toUInt64] at packetSize
    omega
  have fixed (off len : Nat) (inside : 42 + off + len ≤ sent.dataLen.toNat) :
      slice (received.buffer.drop outerHeaderSize) off len =
        slice (sent.buffer.drop outerHeaderSize) off len := by
    rw [slice_drop, slice_drop]
    exact receives.slice_eq inside
  have header : (RawDataPacketBuilder.dataHeaderSize.toNat) = 22 := rfl
  refine ⟨_, tryParse_eq_some_iff.mpr ⟨?_, ?_, rfl⟩, ?_, ?_, ?_, ?_⟩
  · rw [receives.dataLen]
    exact long
  · rw [fixed 0 _ (Nat.le_trans (by decide) long), same]
  · simp only [loadU64, fixed 7 8 (Nat.le_trans (by decide) long)]
  · rw [receives.dataLen]
    exact packetSize
  · simp only [loadU16, fixed 15 2 (Nat.le_trans (by decide) long)]
    exact recordCount
  · rw [fixed _ _ (by omega)]
    exact records

end Lldt.Transport
