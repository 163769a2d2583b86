import Lldt.Dpdk.Mbuf

namespace Lldt.Dpdk

open Lldt.Data.Bytes

/-! The fixed outer envelope around the canonical image: Ethernet II, IPv4
without options, UDP. -/

abbrev EtherAddr := Vector UInt8 6

structure EtherHdr where
  dstAddr : EtherAddr
  srcAddr : EtherAddr
  etherType : UInt16
  deriving DecidableEq, Repr

structure Ipv4Hdr where
  versionIhl : UInt8
  typeOfService : UInt8
  totalLength : UInt16
  packetId : UInt16
  fragmentOffset : UInt16
  timeToLive : UInt8
  nextProtoId : UInt8
  hdrChecksum : UInt16
  srcAddr : UInt32
  dstAddr : UInt32
  deriving DecidableEq, Repr

structure UdpHdr where
  srcPort : UInt16
  dstPort : UInt16
  dgramLen : UInt16
  dgramCksum : UInt16
  deriving DecidableEq, Repr

/-! The headers as they lie in memory. -/

def storeU8 (value : UInt8) : List UInt8 := [value]

def storeU16 (value : UInt16) : List UInt8 := toLittleEndian 2 value.toNat

def storeU32 (value : UInt32) : List UInt8 := toLittleEndian 4 value.toNat

def EtherHdr.image (header : EtherHdr) : List UInt8 :=
  header.dstAddr.toList ++ header.srcAddr.toList ++ storeU16 header.etherType

def Ipv4Hdr.image (header : Ipv4Hdr) : List UInt8 :=
  storeU8 header.versionIhl ++ storeU8 header.typeOfService ++
    storeU16 header.totalLength ++ storeU16 header.packetId ++
    storeU16 header.fragmentOffset ++ storeU8 header.timeToLive ++
    storeU8 header.nextProtoId ++ storeU16 header.hdrChecksum ++
    storeU32 header.srcAddr ++ storeU32 header.dstAddr

def UdpHdr.image (header : UdpHdr) : List UInt8 :=
  storeU16 header.srcPort ++ storeU16 header.dstPort ++
    storeU16 header.dgramLen ++ storeU16 header.dgramCksum

def sizeofEtherHdr : Nat := 14
def sizeofIpv4Hdr : Nat := 20
def sizeofUdpHdr : Nat := 8

@[simp] theorem EtherHdr.length_image (header : EtherHdr) :
    header.image.length = sizeofEtherHdr := by
  simp [image, storeU16, sizeofEtherHdr]

@[simp] theorem Ipv4Hdr.length_image (header : Ipv4Hdr) :
    header.image.length = sizeofIpv4Hdr := by
  simp [image, storeU8, storeU16, storeU32, sizeofIpv4Hdr]

@[simp] theorem UdpHdr.length_image (header : UdpHdr) :
    header.image.length = sizeofUdpHdr := by
  simp [image, storeU16, sizeofUdpHdr]

structure PreparedDestination where
  ethernet : EtherHdr
  ipv4 : Ipv4Hdr
  udp : UdpHdr
  ipv4ChecksumBase : UInt16
  deriving DecidableEq, Repr

def headerSize : Nat := sizeofEtherHdr + sizeofIpv4Hdr + sizeofUdpHdr

def dataPacketCanonicalCapacity : UInt64 := 1472

def maxDataPacketSize : UInt64 := UInt64.ofNat headerSize + dataPacketCanonicalCapacity

/-- The offset of the canonical output in the mbuf that has got room for it. -/
def tryReserveDataPacket (rte : Rte) (mbuf : Mbuf) : Option (Nat × Mbuf) :=
  match rte.pktmbufAppend mbuf maxDataPacketSize.toUInt16 with
  | none => none
  | some (packet, mbuf) => some (packet + headerSize, mbuf)

def finalizeDataPacket (rte : Rte) (mbuf : Mbuf) (dst : PreparedDestination)
    (canonicalSize : UInt64) : Mbuf :=
  let unused := dataPacketCanonicalCapacity - canonicalSize
  let mbuf := rte.pktmbufTrim mbuf unused.toUInt16
  let udpSize := UInt64.ofNat sizeofUdpHdr + canonicalSize
  let ipv4Size := UInt64.ofNat sizeofIpv4Hdr + udpSize
  let totalLength := rte.cpuToBe16 ipv4Size.toUInt16
  let sum : UInt32 := dst.ipv4ChecksumBase.toUInt32 + totalLength.toUInt32
  let sum := (sum &&& (0xFFFF : UInt32)) + (sum >>> (16 : UInt32))
  let ipv4 := { dst.ipv4 with
    totalLength := totalLength
    hdrChecksum := (~~~sum).toUInt16 }
  let udp := { dst.udp with
    dgramLen := rte.cpuToBe16 udpSize.toUInt16
    dgramCksum := 0 }
  let mbuf := mbuf.store 0 dst.ethernet.image
  let mbuf := mbuf.store sizeofEtherHdr ipv4.image
  mbuf.store (sizeofEtherHdr + sizeofIpv4Hdr) udp.image

/-! What the two functions do to an mbuf. -/

section Spec

variable {rte : Rte} {mbuf reserved : Mbuf} {offset : Nat}

theorem tryReserveDataPacket_fresh (documented : rte.Documented) (fresh : FreshMbuf)
    (ok : tryReserveDataPacket rte fresh.mbuf = some (offset, reserved)) :
    offset = headerSize ∧ reserved.dataLen = 1514 ∧
      reserved.buffer = fresh.mbuf.buffer ∧ 1514 ≤ reserved.buffer.length := by
  unfold tryReserveDataPacket at ok
  rw [documented.append, fresh.empty] at ok
  split at ok
  · contradiction
  · rename_i packet mbuf appended
    split at appended
    · rename_i room
      simp only [Option.some.injEq, Prod.mk.injEq] at appended ok
      obtain ⟨rfl, rfl⟩ := appended
      obtain ⟨rfl, rfl⟩ := ok
      exact ⟨rfl, rfl, rfl, room⟩
    · contradiction

theorem Mbuf.store_envelope (mbuf : Mbuf) {bytes : List UInt8}
    (inside : offset + bytes.length ≤ headerSize)
    (room : headerSize ≤ mbuf.buffer.length) :
    (mbuf.store offset bytes).buffer.length = mbuf.buffer.length ∧
      (mbuf.store offset bytes).buffer.drop headerSize = mbuf.buffer.drop headerSize :=
  ⟨length_overwrite (by omega), drop_overwrite (by omega) inside⟩

theorem Mbuf.store_headers (mbuf : Mbuf) (room : headerSize ≤ mbuf.buffer.length)
    (ethernet : EtherHdr) (ipv4 : Ipv4Hdr) (udp : UdpHdr) :
    let stored := ((mbuf.store 0 ethernet.image).store sizeofEtherHdr ipv4.image).store
      (sizeofEtherHdr + sizeofIpv4Hdr) udp.image
    stored.buffer.length = mbuf.buffer.length ∧
      stored.buffer.drop headerSize = mbuf.buffer.drop headerSize := by
  intro stored
  obtain ⟨firstLength, firstRest⟩ := mbuf.store_envelope
    (show 0 + ethernet.image.length ≤ headerSize by rw [EtherHdr.length_image]; decide) room
  obtain ⟨secondLength, secondRest⟩ :=
    (mbuf.store 0 ethernet.image).store_envelope
      (show sizeofEtherHdr + ipv4.image.length ≤ headerSize by
        rw [Ipv4Hdr.length_image]; decide) (by omega)
  obtain ⟨thirdLength, thirdRest⟩ :=
    ((mbuf.store 0 ethernet.image).store sizeofEtherHdr ipv4.image).store_envelope
      (show sizeofEtherHdr + sizeofIpv4Hdr + udp.image.length ≤ headerSize by
        rw [UdpHdr.length_image]; decide) (by omega)
  exact ⟨by rw [thirdLength, secondLength, firstLength],
    by rw [thirdRest, secondRest, firstRest]⟩

/-- The envelope is written in front of the canonical image and the data length
is cut to the packet. -/
theorem finalizeDataPacket_spec (documented : rte.Documented)
    (dst : PreparedDestination) {canonicalSize : UInt64}
    (atMost : canonicalSize ≤ dataPacketCanonicalCapacity)
    (length : mbuf.dataLen = 1514) (room : 1514 ≤ mbuf.buffer.length) :
    let final := finalizeDataPacket rte mbuf dst canonicalSize
    final.dataLen.toNat = headerSize + canonicalSize.toNat ∧
      final.buffer.length = mbuf.buffer.length ∧
      final.buffer.drop headerSize = mbuf.buffer.drop headerSize := by
  intro final
  have size : headerSize = 42 := rfl
  rw [UInt64.le_iff_toNat_le] at atMost
  have capacity : dataPacketCanonicalCapacity.toNat = 1472 := rfl
  have value : (1514 : UInt16).toNat = 1514 := rfl
  have unused : (dataPacketCanonicalCapacity - canonicalSize).toUInt16.toNat =
      1472 - canonicalSize.toNat := by
    rw [UInt64.toNat_toUInt16, UInt64.toNat_sub_of_le _ _ (UInt64.le_iff_toNat_le.mpr atMost)]
    omega
  have enough : (dataPacketCanonicalCapacity - canonicalSize).toUInt16 ≤ mbuf.dataLen := by
    rw [UInt16.le_iff_toNat_le, unused, length]
    exact (Nat.sub_le _ _).trans (by decide)
  simp only [final, finalizeDataPacket, documented.trim mbuf _ enough]
  refine ⟨?_, ?_⟩
  · simp only [Mbuf.store]
    rw [UInt16.toNat_sub_of_le _ _ enough, unused, length, value]
    omega
  · exact Mbuf.store_headers _ (by show headerSize ≤ mbuf.buffer.length; omega) _ _ _

end Spec

end Lldt.Dpdk
