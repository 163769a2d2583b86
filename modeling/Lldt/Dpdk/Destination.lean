import Lldt.Data.OnesComplement
import Lldt.Dpdk.Materializer

namespace Lldt.Dpdk

open Lldt.Data.Bytes
open Lldt.Data.OnesComplement
open Lldt.Msg

/-! The header template of `prepare_destination` and the IPv4 header checksum
that `finalize_data_packet` completes. -/

def rteEtherTypeIpv4 : UInt16 := 0x0800
def rteIpv4VhlDef : UInt8 := 0x45
def rteIpv4HdrDfFlag : UInt16 := 0x4000
def ipprotoUdp : UInt8 := 17

/-- `rawCksum` stands for `rte_raw_cksum` over the bytes it is called on. -/
def prepareDestination (rte : Rte) (rawCksum : List UInt8 → UInt16)
    (localMac nextHopMac : EtherAddr) (localIpv4 receiverIpv4 : UInt32) (dataPort : UInt16) :
    PreparedDestination :=
  let ipv4 : Ipv4Hdr := {
    versionIhl := rteIpv4VhlDef
    typeOfService := 0
    totalLength := 0
    packetId := 0
    fragmentOffset := rte.cpuToBe16 rteIpv4HdrDfFlag
    timeToLive := 64
    nextProtoId := ipprotoUdp
    hdrChecksum := 0
    srcAddr := localIpv4
    dstAddr := receiverIpv4 }
  { ethernet := {
      dstAddr := nextHopMac
      srcAddr := localMac
      etherType := rte.cpuToBe16 rteEtherTypeIpv4 }
    ipv4 := ipv4
    udp := {
      srcPort := rte.cpuToBe16 dataPort
      dstPort := rte.cpuToBe16 dataPort
      dgramLen := 0
      dgramCksum := 0 }
    ipv4ChecksumBase := rawCksum ipv4.image }

/-! The 16-bit words of a header, as the host loads them. -/

def words : List UInt8 → List Nat
  | low :: high :: rest => ofLittleEndian [low, high] :: words rest
  | _ => []

/-- What DPDK documents about `rte_raw_cksum`, for a header. -/
def RawCksumDocumented (rawCksum : List UInt8 → UInt16) : Prop :=
  ∀ image : List UInt8, image.length = sizeofIpv4Hdr →
    (rawCksum image).toNat = sum 0xFFFF (words image)

/-- What DPDK documents about `rte_cpu_to_be_16` on a little-endian host. -/
def Rte.SwapsBytes (rte : Rte) : Prop :=
  ∀ value, (rte.cpuToBe16 value).toNat = value.toNat % 256 * 256 + value.toNat / 256

/-- The number a two-byte field carries on the wire. -/
def netU16 (field : UInt16) : Nat := ofBigEndian (storeU16 field)

theorem length_words (bytes : List UInt8) : (words bytes).length = bytes.length / 2 := by
  induction bytes using words.induct with
  | case1 low high rest ih =>
      simp only [words, List.length_cons, ih]
      omega
  | case2 bytes notPair =>
      cases bytes with
      | nil => rfl
      | cons low rest =>
          cases rest with
          | nil => simp [words]
          | cons high rest => exact absurd rfl (notPair low high rest)

theorem words_append {front back : List UInt8} (even : front.length % 2 = 0) :
    words (front ++ back) = words front ++ words back := by
  induction front using words.induct with
  | case1 low high rest ih =>
      simp only [List.length_cons] at even
      simp only [List.cons_append, words]
      rw [ih (by omega)]
  | case2 front notPair =>
      cases front with
      | nil => rfl
      | cons low rest =>
          cases rest with
          | nil => simp at even
          | cons high rest => exact absurd rfl (notPair low high rest)

theorem ofLittleEndian_pair (low high : UInt8) :
    ofLittleEndian [low, high] = low.toNat + 256 * high.toNat := by
  simp [ofLittleEndian, Nat.ofDigits_cons]

theorem words_pair {bytes : List UInt8} (pair : bytes.length = 2) :
    words bytes = [ofLittleEndian bytes] := by
  obtain ⟨low, high, rfl⟩ := List.length_eq_two.mp pair
  rfl

theorem word_le {bytes : List UInt8} : ∀ word ∈ words bytes, word ≤ 0xFFFF := by
  induction bytes using words.induct with
  | case1 low high rest ih =>
      intro word member
      rcases List.mem_cons.mp member with rfl | later
      · have lowBound := low.toNat_lt
        have highBound := high.toNat_lt
        rw [ofLittleEndian_pair]
        omega
      · exact ih word later
  | case2 bytes notPair =>
      intro word member
      rw [words.eq_2 bytes notPair] at member
      contradiction

@[simp] theorem length_storeU16 (value : UInt16) : (storeU16 value).length = 2 :=
  length_toLittleEndian 2 _

theorem ofLittleEndian_storeU16 (value : UInt16) :
    ofLittleEndian (storeU16 value) = value.toNat := by
  have number := ofBigEndian_toBigEndian 2 value.toNat
  rw [ofBigEndian] at number
  exact number.trans (Nat.mod_eq_of_lt value.toNat_lt)

@[simp] theorem words_storeU16 (value : UInt16) : words (storeU16 value) = [value.toNat] := by
  rw [words_pair (length_storeU16 value), ofLittleEndian_storeU16]

theorem netU16_eq (field : UInt16) :
    netU16 field = field.toNat % 256 * 256 + field.toNat / 256 := by
  obtain ⟨low, high, eq⟩ := List.length_eq_two.mp (length_storeU16 field)
  have stored := ofLittleEndian_storeU16 field
  have lowBound := low.toNat_lt
  have reversed : [low, high].reverse = [high, low] := rfl
  rw [eq, ofLittleEndian_pair] at stored
  rw [netU16, eq, ofBigEndian, reversed, ofLittleEndian_pair]
  omega

/-- A swapped field carries the number it was swapped from. -/
theorem netU16_cpuToBe16 {rte : Rte} (swaps : rte.SwapsBytes) (value : UInt16) :
    netU16 (rte.cpuToBe16 value) = value.toNat := by
  have bound := value.toNat_lt
  rw [netU16_eq, swaps value]
  omega

theorem Rte.littleEndianHost_swapsBytes : Rte.littleEndianHost.SwapsBytes := by
  intro value
  have bound := value.toNat_lt
  show (UInt16.ofNat (netU16 value)).toNat = _
  rw [netU16_eq, UInt16.toNat_ofNat']
  omega

def rawCksumLittleEndian (image : List UInt8) : UInt16 := UInt16.ofNat (sum 0xFFFF (words image))

theorem rawCksumLittleEndian_documented : RawCksumDocumented rawCksumLittleEndian := by
  intro image _
  have word := @residue_le 0xFFFF (by decide) (words image).sum
  rw [rawCksumLittleEndian, UInt16.toNat_ofNat', sum_eq_residue (by decide) word_le]
  omega

/-! The two fields of the IPv4 header that `finalize_data_packet` fills in, and
the bytes around them. -/

namespace Ipv4Hdr

def front (header : Ipv4Hdr) : List UInt8 :=
  storeU8 header.versionIhl ++ storeU8 header.typeOfService

def middle (header : Ipv4Hdr) : List UInt8 :=
  storeU16 header.packetId ++ storeU16 header.fragmentOffset ++ storeU8 header.timeToLive ++
    storeU8 header.nextProtoId

def back (header : Ipv4Hdr) : List UInt8 := storeU32 header.srcAddr ++ storeU32 header.dstAddr

/-- The words `finalize_data_packet` leaves as they are. -/
def fixedWords (header : Ipv4Hdr) : List Nat :=
  words header.front ++ words header.middle ++ words header.back

theorem words_image (header : Ipv4Hdr) :
    (words header.image).Perm
      (header.totalLength.toNat :: header.hdrChecksum.toNat :: header.fixedWords) := by
  have image : header.image = header.front ++ (storeU16 header.totalLength ++
      (header.middle ++ (storeU16 header.hdrChecksum ++ header.back))) := by
    simp only [Ipv4Hdr.image, front, middle, back, List.append_assoc]
  have even : header.front.length % 2 = 0 := by
    simp [front, storeU8]
  have evenMiddle : header.middle.length % 2 = 0 := by
    simp [middle, storeU8]
  rw [image, words_append even, words_append (by simp), words_append evenMiddle,
    words_append (by simp), words_storeU16, words_storeU16, fixedWords]
  grind

theorem sum_words_image (header : Ipv4Hdr) :
    sum 0xFFFF (words header.image) = residue 0xFFFF
      (header.fixedWords.sum + header.totalLength.toNat + header.hdrChecksum.toNat) := by
  rw [sum_eq_residue (by decide) word_le, header.words_image.sum_eq, List.sum_cons,
    List.sum_cons]
  exact congrArg (residue 0xFFFF) (by omega)

end Ipv4Hdr

/-! What `finalize_data_packet` writes into the mbuf. -/

/-- The template is that of `prepare_destination`: the two fields are zero and
the base is the sum over the rest. -/
structure PreparedDestination.Template (rawCksum : List UInt8 → UInt16)
    (dst : PreparedDestination) : Prop where
  totalLength : dst.ipv4.totalLength = 0
  hdrChecksum : dst.ipv4.hdrChecksum = 0
  base : dst.ipv4ChecksumBase = rawCksum dst.ipv4.image

theorem template_prepareDestination (rte : Rte) (rawCksum : List UInt8 → UInt16)
    (localMac nextHopMac : EtherAddr) (localIpv4 receiverIpv4 : UInt32) (dataPort : UInt16) :
    (prepareDestination rte rawCksum localMac nextHopMac localIpv4 receiverIpv4
      dataPort).Template rawCksum :=
  ⟨rfl, rfl, rfl⟩

/-- The base and the length field, the carry folded in once. -/
def headerSum (base totalLength : UInt16) : UInt32 :=
  let sum : UInt32 := base.toUInt32 + totalLength.toUInt32
  (sum &&& (0xFFFF : UInt32)) + (sum >>> (16 : UInt32))

def finalIpv4 (rte : Rte) (dst : PreparedDestination) (canonicalSize : UInt64) : Ipv4Hdr :=
  let totalLength := rte.cpuToBe16
    (UInt64.ofNat sizeofIpv4Hdr + (UInt64.ofNat sizeofUdpHdr + canonicalSize)).toUInt16
  { dst.ipv4 with
    totalLength := totalLength
    hdrChecksum := (~~~headerSum dst.ipv4ChecksumBase totalLength).toUInt16 }

def finalUdp (rte : Rte) (dst : PreparedDestination) (canonicalSize : UInt64) : UdpHdr :=
  { dst.udp with
    dgramLen := rte.cpuToBe16 (UInt64.ofNat sizeofUdpHdr + canonicalSize).toUInt16
    dgramCksum := 0 }

theorem toNat_headerSum (base totalLength : UInt16) :
    (headerSum base totalLength).toNat =
      residue 0xFFFF (base.toNat + totalLength.toNat) := by
  have first := base.toNat_lt
  have second := totalLength.toNat_lt
  have low : (base.toNat + totalLength.toNat) &&& 0xFFFF =
      (base.toNat + totalLength.toNat) % 2 ^ 16 := Nat.and_two_pow_sub_one_eq_mod _ 16
  rw [← fold_eq_residue (by omega), fold, headerSum]
  simp only [UInt32.toNat_add, UInt32.toNat_and, UInt32.toNat_shiftRight, UInt16.toNat_toUInt32,
    UInt32.reduceToNat, Nat.shiftRight_eq_div_pow]
  have shift : 2 ^ (16 % 32) = 65536 := rfl
  rw [Nat.mod_eq_of_lt (a := base.toNat + totalLength.toNat) (by omega), low, shift]
  omega

section Finalize

variable {rte : Rte} {mbuf : Mbuf} (dst : PreparedDestination) {canonicalSize : UInt64}

theorem finalizeDataPacket_headers (documented : rte.Documented)
    (atMost : canonicalSize ≤ dataPacketCanonicalCapacity)
    (length : mbuf.dataLen = 1514) (room : 1514 ≤ mbuf.buffer.length) :
    let final := finalizeDataPacket rte mbuf dst canonicalSize
    slice final.buffer sizeofEtherHdr sizeofIpv4Hdr = (finalIpv4 rte dst canonicalSize).image ∧
      slice final.buffer (sizeofEtherHdr + sizeofIpv4Hdr) sizeofUdpHdr =
        (finalUdp rte dst canonicalSize).image := by
  intro final
  have trimmed : ∃ dataLen, rte.pktmbufTrim mbuf
      (dataPacketCanonicalCapacity - canonicalSize).toUInt16 =
        { mbuf with dataLen := dataLen } := by
    rw [UInt64.le_iff_toNat_le] at atMost
    refine ⟨_, documented.trim mbuf _ ?_⟩
    rw [UInt16.le_iff_toNat_le, length, UInt64.toNat_toUInt16,
      UInt64.toNat_sub_of_le _ _ (UInt64.le_iff_toNat_le.mpr atMost)]
    have capacity : dataPacketCanonicalCapacity.toNat = 1472 := rfl
    have value : (1514 : UInt16).toNat = 1514 := rfl
    omega
  obtain ⟨dataLen, trimmed⟩ := trimmed
  have ethernet := dst.ethernet.length_image
  have ipv4 := (finalIpv4 rte dst canonicalSize).length_image
  have udp := (finalUdp rte dst canonicalSize).length_image
  simp only [sizeofEtherHdr, sizeofIpv4Hdr, sizeofUdpHdr] at ethernet ipv4 udp ⊢
  have buffer : final.buffer = overwrite (overwrite (overwrite mbuf.buffer 0 dst.ethernet.image)
      14 (finalIpv4 rte dst canonicalSize).image) 34 (finalUdp rte dst canonicalSize).image := by
    simp only [final, finalizeDataPacket, trimmed]
    rfl
  have first := length_overwrite (show 0 + dst.ethernet.image.length ≤ mbuf.buffer.length by omega)
  have second := length_overwrite (show 14 + (finalIpv4 rte dst canonicalSize).image.length ≤
    (overwrite mbuf.buffer 0 dst.ethernet.image).length by omega)
  rw [buffer]
  constructor
  · rw [slice_overwrite_before (by omega) (by omega), ← ipv4, slice_overwrite_self (by omega)]
  · rw [← udp, slice_overwrite_self (by omega)]

/-- The checksum is the complement of the sum over the header without it, and
with it the header adds up to the word of all ones. -/
theorem finalIpv4_checksum {rawCksum : List UInt8 → UInt16} (cksum : RawCksumDocumented rawCksum)
    (template : dst.Template rawCksum) (canonicalSize : UInt64) :
    let ipv4 := finalIpv4 rte dst canonicalSize
    ipv4.hdrChecksum = ~~~rawCksum { ipv4 with hdrChecksum := 0 }.image ∧
      sum 0xFFFF (words ipv4.image) = 0xFFFF := by
  intro ipv4
  have base : dst.ipv4ChecksumBase.toNat = residue 0xFFFF ipv4.fixedWords.sum := by
    rw [template.base, cksum _ dst.ipv4.length_image, Ipv4Hdr.sum_words_image,
      template.totalLength, template.hdrChecksum, UInt16.toNat_zero, Nat.add_zero]
    rfl
  have scratch : (rawCksum { ipv4 with hdrChecksum := 0 }.image).toNat =
      residue 0xFFFF (ipv4.fixedWords.sum + ipv4.totalLength.toNat) := by
    rw [cksum _ (Ipv4Hdr.length_image _), Ipv4Hdr.sum_words_image, UInt16.toNat_zero,
      Nat.add_zero]
    rfl
  have folded : (headerSum dst.ipv4ChecksumBase ipv4.totalLength).toNat =
      residue 0xFFFF (ipv4.fixedWords.sum + ipv4.totalLength.toNat) := by
    rw [toNat_headerSum, base, residue_add_residue]
  have word := @residue_le 0xFFFF (by decide) (ipv4.fixedWords.sum + ipv4.totalLength.toNat)
  have checksum : ipv4.hdrChecksum.toNat =
      0xFFFF - residue 0xFFFF (ipv4.fixedWords.sum + ipv4.totalLength.toNat) := by
    rw [← folded] at word ⊢
    show (~~~headerSum dst.ipv4ChecksumBase ipv4.totalLength).toUInt16.toNat = _
    have size : UInt32.size = 4294967296 := rfl
    rw [UInt32.toNat_toUInt16, UInt32.toNat_not, size]
    omega
  refine ⟨?_, ?_⟩
  · have size : UInt16.size = 65536 := rfl
    rw [← UInt16.toNat_inj, UInt16.toNat_not, scratch, checksum, size]
  · rw [Ipv4Hdr.sum_words_image, checksum]
    exact residue_add_complement (by decide) _

end Finalize

/-- The sizes that are cast to 16 bits on the way, and the sum the checksum is
the complement of, all fit. -/
structure Untruncated (rte : Rte) (dst : PreparedDestination) (canonicalSize : UInt64) : Prop where
  unused : (dataPacketCanonicalCapacity - canonicalSize).toNat < 2 ^ 16
  udpSize : (UInt64.ofNat sizeofUdpHdr + canonicalSize).toNat < 2 ^ 16
  ipv4Size : (UInt64.ofNat sizeofIpv4Hdr +
    (UInt64.ofNat sizeofUdpHdr + canonicalSize)).toNat < 2 ^ 16
  headerSum : (headerSum dst.ipv4ChecksumBase
    (finalIpv4 rte dst canonicalSize).totalLength).toNat < 2 ^ 16

theorem untruncated (rte : Rte) (dst : PreparedDestination) {canonicalSize : UInt64}
    (atMost : canonicalSize ≤ dataPacketCanonicalCapacity) :
    Untruncated rte dst canonicalSize := by
  have capacity : dataPacketCanonicalCapacity.toNat = 1472 := rfl
  have ipv4 : (UInt64.ofNat sizeofIpv4Hdr).toNat = 20 := rfl
  have udp : (UInt64.ofNat sizeofUdpHdr).toNat = 8 := rfl
  have bound := UInt64.le_iff_toNat_le.mp atMost
  have word := @residue_le 0xFFFF (by decide)
    (dst.ipv4ChecksumBase.toNat + (finalIpv4 rte dst canonicalSize).totalLength.toNat)
  refine ⟨?_, ?_, ?_, ?_⟩
  · rw [UInt64.toNat_sub_of_le _ _ atMost]
    omega
  · rw [UInt64.toNat_add]
    omega
  · rw [UInt64.toNat_add, UInt64.toNat_add]
    omega
  · rw [toNat_headerSum]
    omega

/-- The frame `finalize_data_packet` makes of a prepared destination is
consistent in its lengths and carries the right IPv4 header checksum. -/
theorem finalize_consistent {rte : Rte} {rawCksum : List UInt8 → UInt16}
    (documented : rte.Documented) (swaps : rte.SwapsBytes) (cksum : RawCksumDocumented rawCksum)
    (localMac nextHopMac : EtherAddr) (localIpv4 receiverIpv4 : UInt32) (dataPort : UInt16)
    {canonicalSize : UInt64} (atMost : canonicalSize ≤ dataPacketCanonicalCapacity)
    {mbuf : Mbuf} (length : mbuf.dataLen = 1514) (room : 1514 ≤ mbuf.buffer.length) :
    let dst := prepareDestination rte rawCksum localMac nextHopMac localIpv4 receiverIpv4 dataPort
    let final := finalizeDataPacket rte mbuf dst canonicalSize
    ∃ ipv4 udp,
      slice final.buffer sizeofEtherHdr sizeofIpv4Hdr = Ipv4Hdr.image ipv4 ∧
      slice final.buffer (sizeofEtherHdr + sizeofIpv4Hdr) sizeofUdpHdr = UdpHdr.image udp ∧
      final.dataLen.toNat = 42 + canonicalSize.toNat ∧
      final.dataLen.toNat = 14 + netU16 ipv4.totalLength ∧
      netU16 udp.dgramLen = netU16 ipv4.totalLength - 20 ∧
      Untruncated rte dst canonicalSize ∧
      (words ipv4.image).length = 10 ∧ sum 0xFFFF (words ipv4.image) = 0xFFFF ∧
      ipv4.hdrChecksum = ~~~rawCksum { ipv4 with hdrChecksum := 0 }.image := by
  intro dst final
  obtain ⟨ipv4Image, udpImage⟩ := finalizeDataPacket_headers dst documented atMost length room
  obtain ⟨dataLen, -, -⟩ := finalizeDataPacket_spec documented dst atMost length room
  have fits := untruncated rte dst atMost
  obtain ⟨checksum, verifies⟩ := finalIpv4_checksum dst cksum
    (template_prepareDestination rte rawCksum localMac nextHopMac localIpv4 receiverIpv4 dataPort)
    canonicalSize
  have ipv4 : (UInt64.ofNat sizeofIpv4Hdr).toNat = 20 := rfl
  have udp : (UInt64.ofNat sizeofUdpHdr).toNat = 8 := rfl
  have header : headerSize = 42 := rfl
  have bound := UInt64.le_iff_toNat_le.mp atMost
  have capacity : dataPacketCanonicalCapacity.toNat = 1472 := rfl
  have totalLength : netU16 (finalIpv4 rte dst canonicalSize).totalLength =
      28 + canonicalSize.toNat := by
    simp only [finalIpv4]
    rw [netU16_cpuToBe16 swaps, UInt64.toNat_toUInt16, UInt64.toNat_add, UInt64.toNat_add]
    omega
  have dgramLen : netU16 (finalUdp rte dst canonicalSize).dgramLen =
      8 + canonicalSize.toNat := by
    simp only [finalUdp]
    rw [netU16_cpuToBe16 swaps, UInt64.toNat_toUInt16, UInt64.toNat_add]
    omega
  refine ⟨_, _, ipv4Image, udpImage, ?_, ?_, ?_, fits, ?_, verifies, checksum⟩
  · rw [← header]
    exact dataLen
  · rw [totalLength, show final.dataLen.toNat = headerSize + canonicalSize.toNat from dataLen,
      header]
    omega
  · rw [dgramLen, totalLength]
    omega
  · rw [length_words, Ipv4Hdr.length_image]
    rfl

theorem finalize_consistent_least :
    let dst := prepareDestination Rte.littleEndianHost rawCksumLittleEndian
      #v[2, 0, 0, 0, 0, 1] #v[2, 0, 0, 0, 0, 2] 0x0100000A 0x0200000A 9000
    let final := finalizeDataPacket Rte.littleEndianHost ⟨List.replicate 1514 0, 1514⟩ dst 22
    ∃ ipv4, slice final.buffer sizeofEtherHdr sizeofIpv4Hdr = Ipv4Hdr.image ipv4 ∧
      final.dataLen.toNat = 64 ∧ netU16 ipv4.totalLength = 50 ∧
      sum 0xFFFF (words ipv4.image) = 0xFFFF ∧
      ipv4.hdrChecksum = ~~~rawCksumLittleEndian { ipv4 with hdrChecksum := 0 }.image := by
  intro dst final
  have room : 1514 ≤ (⟨List.replicate 1514 0, 1514⟩ : Mbuf).buffer.length :=
    List.length_replicate.symm.le
  obtain ⟨ipv4, _, image, _, dataLen, whole, _, _, _, verifies, checksum⟩ :=
    finalize_consistent Rte.littleEndianHost_documented Rte.littleEndianHost_swapsBytes
      rawCksumLittleEndian_documented #v[2, 0, 0, 0, 0, 1] #v[2, 0, 0, 0, 0, 2] 0x0100000A
      0x0200000A 9000 (show (22 : UInt64) ≤ _ by decide) rfl room
  have sixtyFour : final.dataLen.toNat = 64 := dataLen
  have fifty : 64 = 14 + netU16 ipv4.totalLength := sixtyFour.symm.trans whole
  exact ⟨ipv4, image, sixtyFour, by omega, verifies, checksum⟩

end Lldt.Dpdk
