import Lldt.Message.Frame

namespace Lldt.Dpdk

open Lldt.Data.Bytes
open Lldt.Msg

/-! Packet buffers and the functions the packet path takes from DPDK. -/

/-- What the code uses of an `rte_mbuf`: the memory from its data pointer to the
end of the segment, of which the first `dataLen` bytes are packet data. -/
structure Mbuf where
  buffer : List UInt8
  dataLen : UInt16
  deriving DecidableEq, Repr

def Mbuf.data (mbuf : Mbuf) : List UInt8 := mbuf.buffer.take mbuf.dataLen.toNat

def Mbuf.store (mbuf : Mbuf) (offset : Nat) (bytes : List UInt8) : Mbuf :=
  { mbuf with buffer := overwrite mbuf.buffer offset bytes }

/-- An mbuf in which the packet data of another one has arrived.  Its memory
beyond the packet data is its own. -/
structure Mbuf.Receives (received sent : Mbuf) : Prop where
  dataLen : received.dataLen = sent.dataLen
  data : received.data = sent.data

instance (received sent : Mbuf) : Decidable (received.Receives sent) :=
  decidable_of_iff (received.dataLen = sent.dataLen ∧ received.data = sent.data)
    ⟨fun same => ⟨same.1, same.2⟩, fun receives => ⟨receives.dataLen, receives.data⟩⟩

theorem Mbuf.Receives.slice_eq {received sent : Mbuf} (receives : received.Receives sent)
    {off len : Nat} (inside : off + len ≤ sent.dataLen.toNat) :
    slice received.buffer off len = slice sent.buffer off len := by
  have same := congrArg (slice · off len) receives.data
  simp only [Mbuf.data, receives.dataLen] at same
  rwa [slice_take inside, slice_take inside] at same

structure FreshMbuf where
  mbuf : Mbuf
  empty : mbuf.dataLen = 0

/-- The DPDK functions.  `rte_pktmbuf_append` yields the offset of the room it
has added. -/
structure Rte where
  pktmbufAppend : Mbuf → UInt16 → Option (Nat × Mbuf)
  pktmbufTrim : Mbuf → UInt16 → Mbuf
  cpuToBe16 : UInt16 → UInt16
  beToCpu16 : UInt16 → UInt16
  beToCpu64 : UInt64 → UInt64

/-- What DPDK documents about them. -/
structure Rte.Documented (rte : Rte) : Prop where
  append : ∀ mbuf len, rte.pktmbufAppend mbuf len =
    if mbuf.dataLen.toNat + len.toNat ≤ mbuf.buffer.length then
      some (mbuf.dataLen.toNat, { mbuf with dataLen := mbuf.dataLen + len })
    else none
  trim : ∀ mbuf len, len ≤ mbuf.dataLen →
    rte.pktmbufTrim mbuf len = { mbuf with dataLen := mbuf.dataLen - len }
  be16 : ∀ image, image.length = 2 →
    (rte.beToCpu16 (loadU16 image 0)).toNat = ofBigEndian image
  be64 : ∀ image, image.length = 8 →
    (rte.beToCpu64 (loadU64 image 0)).toNat = ofBigEndian image

def Rte.littleEndianHost : Rte where
  pktmbufAppend := fun mbuf len =>
    if mbuf.dataLen.toNat + len.toNat ≤ mbuf.buffer.length then
      some (mbuf.dataLen.toNat, { mbuf with dataLen := mbuf.dataLen + len })
    else none
  pktmbufTrim := fun mbuf len =>
    if len ≤ mbuf.dataLen then { mbuf with dataLen := mbuf.dataLen - len } else mbuf
  cpuToBe16 := fun value => UInt16.ofNat (ofBigEndian (toLittleEndian 2 value.toNat))
  beToCpu16 := fun value => UInt16.ofNat (ofBigEndian (toLittleEndian 2 value.toNat))
  beToCpu64 := fun value => UInt64.ofNat (ofBigEndian (toLittleEndian 8 value.toNat))

/-- What a byte-wise load and a byte swap meet in an image of a fixed width. -/
theorem load_of_length {image : List UInt8} {width : Nat} (length : image.length = width) :
    slice image 0 width = image ∧ ofLittleEndian image < 256 ^ width ∧
      ofBigEndian image < 256 ^ width ∧
      toLittleEndian width (ofLittleEndian image) = image := by
  subst length
  exact ⟨slice_all image, ofLittleEndian_lt image, ofBigEndian_lt image,
    toLittleEndian_ofLittleEndian image⟩

theorem Rte.littleEndianHost_documented : Rte.littleEndianHost.Documented where
  append := fun _ _ => rfl
  trim := fun _ _ enough => if_pos enough
  be16 := by
    intro image length
    obtain ⟨whole, small, bound, bytes⟩ := load_of_length length
    simp only [littleEndianHost, loadU16, whole, UInt16.toNat_ofNat']
    rw [Nat.mod_eq_of_lt (a := ofLittleEndian image) (by omega), bytes,
      Nat.mod_eq_of_lt (by omega)]
  be64 := by
    intro image length
    obtain ⟨whole, small, bound, bytes⟩ := load_of_length length
    simp only [littleEndianHost, loadU64, whole, UInt64.toNat_ofNat']
    rw [Nat.mod_eq_of_lt (a := ofLittleEndian image) (by omega), bytes,
      Nat.mod_eq_of_lt (by omega)]

end Lldt.Dpdk
