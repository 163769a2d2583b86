import Lldt.Dpdk.Destination
import Lldt.Endpoint.Arguments
import Lldt.Sender.Shutdown

namespace Lldt.Transport

open Lldt.Data.Bytes
open Lldt.Data.OnesComplement
open Lldt.Data.RetainedLog
open Lldt.Data.Transition
open Lldt.Dpdk
open Lldt.Msg

/-! What a sender that was configured by its arguments puts on the wire. -/

/-- The setup of `run_sender` from the address of its port and its configuration. -/
def SenderSetup.ofConfig (rte : Rte) (rawCksum : List UInt8 → UInt16) (ethAddr : EtherAddr)
    (config : EndpointConfig) : SenderSetup where
  rte := rte
  dst := prepareDestination rte rawCksum ethAddr config.nextHopMac config.localIpv4Be
    config.peerIpv4Be config.dataPort
  batchingEnabled := config.batchingEnabled

/-! A Data packet byte by byte, as `WIRE_PROTOCOL.md` lays it out: every number in
network order, whatever the order of the host. -/

def netWords : List UInt8 → List Nat
  | high :: low :: rest => ofBigEndian [high, low] :: netWords rest
  | _ => []

def internetChecksum (header : List UInt8) : Nat := 0xFFFF - sum 0xFFFF (netWords header)

section Image

variable (ethAddr : EtherAddr) (config : EndpointConfig)

def wireEthernet : List UInt8 := config.nextHopMac.toList ++ ethAddr.toList ++ [0x08, 0x00]

/-- No options, DF set.  The addresses are held in network order. -/
def wireIpv4 (checksum size : Nat) : List UInt8 :=
  [0x45, 0x00] ++ toBigEndian 2 (20 + size) ++ [0x00, 0x00] ++ [0x40, 0x00] ++ [64] ++ [17] ++
    toBigEndian 2 checksum ++ storeU32 config.localIpv4Be ++ storeU32 config.peerIpv4Be

def wireUdp (size : Nat) : List UInt8 :=
  toBigEndian 2 config.dataPort.toNat ++ toBigEndian 2 config.dataPort.toNat ++
    toBigEndian 2 size ++ [0x00, 0x00]

def wireHeader (dataSeq recordCount : Nat) : List UInt8 :=
  cstring "LLDT" ++ [1] ++ toBigEndian 2 22 ++ toBigEndian 8 dataSeq ++
    toBigEndian 2 recordCount ++ [0, 0, 0, 0, 0]

def wireImage (dataSeq : Nat) (records : List (List UInt8)) : List UInt8 :=
  let canonical := wireHeader dataSeq records.length ++ records.flatten
  let size := 8 + canonical.length
  wireEthernet ethAddr config ++
    wireIpv4 config (internetChecksum (wireIpv4 config 0 size)) size ++
    wireUdp config size ++ canonical

end Image

/-! The host's words and the wire's. -/

theorem netWords_eq (bytes : List UInt8) : netWords bytes = (words bytes).map swap := by
  induction bytes using words.induct with
  | case1 low high rest ih =>
      have lowBound := low.toNat_lt
      simp only [netWords, words, List.map_cons, ih, ofBigEndian, List.reverse_cons,
        List.reverse_nil, List.nil_append, List.cons_append, ofLittleEndian_pair, swap]
      congr 1
      omega
  | case2 bytes notPair =>
      rw [words.eq_2 bytes notPair, netWords.eq_2 bytes notPair, List.map_nil]

theorem sum_netWords (bytes : List UInt8) :
    sum 0xFFFF (netWords bytes) = swap (sum 0xFFFF (words bytes)) := by
  rw [netWords_eq, sum_map_swap word_le]

theorem netWords_append {front back : List UInt8} (even : front.length % 2 = 0) :
    netWords (front ++ back) = netWords front ++ netWords back := by
  rw [netWords_eq, netWords_eq, netWords_eq, words_append even, List.map_append]

theorem netWord_le {bytes : List UInt8} : ∀ word ∈ netWords bytes, word ≤ 0xFFFF := by
  intro word member
  rw [netWords_eq] at member
  obtain ⟨loaded, among, rfl⟩ := List.mem_map.mp member
  have bound := word_le loaded among
  unfold swap
  omega

theorem netWords_toBigEndian {value : Nat} (word : value ≤ 0xFFFF) :
    netWords (toBigEndian 2 value) = [value] := by
  obtain ⟨high, low, pair⟩ := List.length_eq_two.mp (length_toBigEndian 2 value)
  have number := ofBigEndian_toBigEndian 2 value
  rw [pair, Nat.mod_eq_of_lt (by omega)] at number
  simp only [pair, netWords, number]

/-- With its checksum in place a header adds up to the word of all ones. -/
theorem sum_netWords_internetChecksum {front : List UInt8} (even : front.length % 2 = 0)
    (back : List UInt8) :
    sum 0xFFFF (netWords (front ++
      (toBigEndian 2 (internetChecksum (front ++ (toBigEndian 2 0 ++ back))) ++ back))) =
        0xFFFF := by
  have field : ∀ value, value ≤ 0xFFFF →
      sum 0xFFFF (netWords (front ++ (toBigEndian 2 value ++ back))) =
        residue 0xFFFF ((netWords front).sum + (netWords back).sum + value) := by
    intro value word
    rw [sum_eq_residue (by decide) netWord_le, netWords_append even,
      netWords_append (by rw [length_toBigEndian]), netWords_toBigEndian word, List.sum_append,
      List.sum_append, List.sum_singleton, ← Nat.add_assoc, Nat.add_right_comm]
  rw [internetChecksum, field _ (Nat.sub_le _ _), field 0 (by decide), Nat.add_zero]
  exact residue_add_complement (by decide) _

theorem storeU16_of_netU16 {field : UInt16} {value : Nat} (same : netU16 field = value) :
    storeU16 field = toBigEndian 2 value := by
  have image := toBigEndian_ofBigEndian (storeU16 field)
  rw [length_storeU16] at image
  rw [← same, netU16, image]

theorem storeU16_cpuToBe16 {rte : Rte} (swaps : rte.SwapsBytes) (value : UInt16) :
    storeU16 (rte.cpuToBe16 value) = toBigEndian 2 value.toNat :=
  storeU16_of_netU16 (netU16_cpuToBe16 swaps value)

theorem toBigEndian_mod (size value : Nat) :
    toBigEndian size (value % 256 ^ size) = toBigEndian size value := by
  apply ofBigEndian_inj (by rw [length_toBigEndian, length_toBigEndian])
  rw [ofBigEndian_toBigEndian, ofBigEndian_toBigEndian, Nat.mod_mod]

/-! What a reader of the image finds at the protocol's offsets. -/

section Offsets

variable (ethAddr : EtherAddr) (config : EndpointConfig)

@[simp] theorem length_wireEthernet : (wireEthernet ethAddr config).length = 14 := by
  simp [wireEthernet]

@[simp] theorem length_wireIpv4 (checksum size : Nat) :
    (wireIpv4 config checksum size).length = 20 := by
  simp [wireIpv4, storeU32]

@[simp] theorem length_wireUdp (size : Nat) : (wireUdp config size).length = 8 := by
  simp [wireUdp]

@[simp] theorem length_wireHeader (dataSeq recordCount : Nat) :
    (wireHeader dataSeq recordCount).length = 22 := by
  simp [wireHeader, cstring]

variable (dataSeq : Nat) (records : List (List UInt8))

theorem length_wireImage :
    (wireImage ethAddr config dataSeq records).length = 64 + records.flatten.length := by
  simp only [wireImage, List.length_append, length_wireEthernet, length_wireIpv4, length_wireUdp,
    length_wireHeader]
  omega

theorem slice_wireImage_records :
    slice (wireImage ethAddr config dataSeq records) 64 records.flatten.length =
      records.flatten := by
  have front := length_wireImage ethAddr config dataSeq records
  simp only [wireImage, ← List.append_assoc] at front ⊢
  rw [List.length_append, Nat.add_right_cancel_iff] at front
  rw [← front, slice, List.drop_left, List.take_length]

theorem sum_netWords_wireIpv4 (size : Nat) :
    sum 0xFFFF (netWords (wireIpv4 config (internetChecksum (wireIpv4 config 0 size)) size)) =
      0xFFFF := by
  have split : ∀ checksum, wireIpv4 config checksum size = ([0x45, 0x00] ++
      toBigEndian 2 (20 + size) ++ [0x00, 0x00] ++ [0x40, 0x00] ++ [64] ++ [17]) ++
        (toBigEndian 2 checksum ++
          (storeU32 config.localIpv4Be ++ storeU32 config.peerIpv4Be)) := by
    intro checksum
    simp only [wireIpv4, List.append_assoc]
  rw [split, split]
  exact sum_netWords_internetChecksum (by simp) _

theorem sum_netWords_wireImage :
    sum 0xFFFF (netWords (slice (wireImage ethAddr config dataSeq records) 14 20)) = 0xFFFF := by
  simp only [wireImage, List.append_assoc]
  generalize length : 8 + (wireHeader dataSeq records.length ++ records.flatten).length = size
  have found := slice_append_append (wireEthernet ethAddr config)
    (wireIpv4 config (internetChecksum (wireIpv4 config 0 size)) size)
    (wireUdp config size ++ (wireHeader dataSeq records.length ++ records.flatten))
  rw [length_wireEthernet, length_wireIpv4] at found
  rw [found, sum_netWords_wireIpv4]

end Offsets

section Headers

variable {rte : Rte} {rawCksum : List UInt8 → UInt16} (ethAddr : EtherAddr)
  (config : EndpointConfig) {canonicalSize : UInt64}

theorem ethernet_image (swaps : rte.SwapsBytes) :
    (SenderSetup.ofConfig rte rawCksum ethAddr config).dst.ethernet.image =
      wireEthernet ethAddr config := by
  simp only [SenderSetup.ofConfig, prepareDestination, EtherHdr.image, wireEthernet,
    storeU16_cpuToBe16 swaps]
  rfl

theorem sizes_eq (atMost : canonicalSize ≤ dataPacketCanonicalCapacity) :
    (UInt64.ofNat sizeofUdpHdr + canonicalSize).toUInt16.toNat = 8 + canonicalSize.toNat ∧
    (UInt64.ofNat sizeofIpv4Hdr +
      (UInt64.ofNat sizeofUdpHdr + canonicalSize)).toUInt16.toNat =
        20 + (8 + canonicalSize.toNat) := by
  have bound := UInt64.le_iff_toNat_le.mp atMost
  have capacity : dataPacketCanonicalCapacity.toNat = 1472 := rfl
  have ipv4 : (UInt64.ofNat sizeofIpv4Hdr).toNat = 20 := rfl
  have udp : (UInt64.ofNat sizeofUdpHdr).toNat = 8 := rfl
  constructor
  · rw [UInt64.toNat_toUInt16, UInt64.toNat_add]
    omega
  · rw [UInt64.toNat_toUInt16, UInt64.toNat_add, UInt64.toNat_add]
    omega

theorem udp_image (swaps : rte.SwapsBytes)
    (atMost : canonicalSize ≤ dataPacketCanonicalCapacity) :
    (finalUdp rte (SenderSetup.ofConfig rte rawCksum ethAddr config).dst canonicalSize).image =
      wireUdp config (8 + canonicalSize.toNat) := by
  simp only [finalUdp, SenderSetup.ofConfig, prepareDestination, UdpHdr.image, wireUdp,
    storeU16_cpuToBe16 swaps, (sizes_eq atMost).1]
  rfl

/-- Whatever checksum is put into it, the rest of the header is the wire's. -/
theorem ipv4_image (swaps : rte.SwapsBytes)
    (atMost : canonicalSize ≤ dataPacketCanonicalCapacity) (checksum : UInt16) :
    Ipv4Hdr.image { finalIpv4 rte (SenderSetup.ofConfig rte rawCksum ethAddr config).dst
        canonicalSize with hdrChecksum := checksum } =
      wireIpv4 config (netU16 checksum) (8 + canonicalSize.toNat) := by
  have field : storeU16 checksum = toBigEndian 2 (netU16 checksum) := storeU16_of_netU16 rfl
  simp only [finalIpv4, SenderSetup.ofConfig, prepareDestination, Ipv4Hdr.image, wireIpv4,
    storeU16_cpuToBe16 swaps, (sizes_eq atMost).2, field]
  rfl

theorem netU16_complement (checksum : UInt16) :
    netU16 (~~~checksum) = 0xFFFF - swap checksum.toNat := by
  have bound := checksum.toNat_lt
  rw [netU16_eq, ← swap, UInt16.toNat_not, ← swap_complement (by omega)]
  rfl

theorem finalIpv4_image (swaps : rte.SwapsBytes) (cksum : RawCksumDocumented rawCksum)
    (atMost : canonicalSize ≤ dataPacketCanonicalCapacity) :
    let size := 8 + canonicalSize.toNat
    (finalIpv4 rte (SenderSetup.ofConfig rte rawCksum ethAddr config).dst canonicalSize).image =
      wireIpv4 config (internetChecksum (wireIpv4 config 0 size)) size := by
  intro size
  have template : (SenderSetup.ofConfig rte rawCksum ethAddr config).dst.Template rawCksum :=
    template_prepareDestination _ _ _ _ _ _ _
  have image := @ipv4_image rte rawCksum ethAddr config canonicalSize swaps atMost
  generalize (SenderSetup.ofConfig rte rawCksum ethAddr config).dst = dst at *
  obtain ⟨checksum, -⟩ := @finalIpv4_checksum rte dst rawCksum cksum template canonicalSize
  have unsummed : Ipv4Hdr.image { finalIpv4 rte dst canonicalSize with hdrChecksum := 0 } =
      wireIpv4 config 0 size := image 0
  have summed : netU16 (finalIpv4 rte dst canonicalSize).hdrChecksum =
      internetChecksum (wireIpv4 config 0 size) := by
    rw [checksum, netU16_complement, cksum _ (Ipv4Hdr.length_image _), unsummed, ← sum_netWords]
    rfl
  rw [← summed]
  exact image (finalIpv4 rte dst canonicalSize).hdrChecksum

end Headers

/-! The packet in its mbuf. -/

theorem finalizeDataPacket_ethernet (rte : Rte) (mbuf : Mbuf) (dst : PreparedDestination)
    (canonicalSize : UInt64) :
    slice (finalizeDataPacket rte mbuf dst canonicalSize).buffer 0 sizeofEtherHdr =
      dst.ethernet.image := by
  have ethernet := dst.ethernet.length_image
  have ipv4 := (finalIpv4 rte dst canonicalSize).length_image
  simp only [sizeofEtherHdr, sizeofIpv4Hdr] at ethernet ipv4 ⊢
  have first : ∀ area : List UInt8, 14 ≤ (overwrite area 0 dst.ethernet.image).length := by
    intro area
    have grown := add_length_le_length_overwrite (Nat.zero_le area.length) dst.ethernet.image
    omega
  have second : ∀ area : List UInt8, 34 ≤ (overwrite (overwrite area 0 dst.ethernet.image) 14
      (finalIpv4 rte dst canonicalSize).image).length := by
    intro area
    have grown :=
      add_length_le_length_overwrite (first area) (finalIpv4 rte dst canonicalSize).image
    omega
  show slice (overwrite (overwrite (overwrite _ 0 dst.ethernet.image) 14
    (finalIpv4 rte dst canonicalSize).image) 34 _) 0 14 = _
  rw [slice_overwrite_before (second _) (by omega), slice_overwrite_before (first _) (by omega),
    ← ethernet, slice_overwrite_self (Nat.zero_le _)]

theorem finalizeDataPacket_data {rte : Rte} {mbuf : Mbuf} (documented : rte.Documented)
    (dst : PreparedDestination) {canonicalSize : UInt64}
    (atMost : canonicalSize ≤ dataPacketCanonicalCapacity)
    (length : mbuf.dataLen = 1514) (room : 1514 ≤ mbuf.buffer.length) :
    (finalizeDataPacket rte mbuf dst canonicalSize).data =
      dst.ethernet.image ++ (finalIpv4 rte dst canonicalSize).image ++
        (finalUdp rte dst canonicalSize).image ++
        slice mbuf.buffer headerSize canonicalSize.toNat := by
  obtain ⟨dataLen, size, rest⟩ := finalizeDataPacket_spec documented dst atMost length room
  obtain ⟨ipv4, udp⟩ := finalizeDataPacket_headers dst documented atMost length room
  generalize finalized : finalizeDataPacket rte mbuf dst canonicalSize = final at *
  have ethernet := finalizeDataPacket_ethernet rte mbuf dst canonicalSize
  rw [finalized] at ethernet
  have canonical : slice final.buffer headerSize canonicalSize.toNat =
      slice mbuf.buffer headerSize canonicalSize.toNat := by
    rw [slice, slice, rest]
  have parts : final.data = slice final.buffer 0
      (sizeofEtherHdr + sizeofIpv4Hdr + sizeofUdpHdr + canonicalSize.toNat) := by
    rw [Mbuf.data, dataLen, slice, List.drop_zero]
    rfl
  rw [parts, slice_add, slice_add, slice_add, ethernet, Nat.zero_add, ipv4, Nat.zero_add, udp,
    Nat.zero_add]
  exact congrArg _ canonical

theorem headerImage_eq (dataSeq : UInt64) (recordCount : UInt16) :
    RawDataPacketBuilder.headerImage dataSeq recordCount =
      wireHeader dataSeq.toNat recordCount.toNat := by
  have magic : toBigEndian 4 RawDataPacketBuilder.MAGIC_LLDT.toNat = cstring "LLDT" := by decide
  rw [RawDataPacketBuilder.headerImage, magic]
  rfl

variable {profile : Profile}

section Sent

variable {rte : Rte} {rawCksum : List UInt8 → UInt16} (ethAddr : EtherAddr)
  (config : EndpointConfig)

/-- The bytes of a finished packet: nothing of them depends on what was in the mbuf. -/
theorem OpenPacket.Filled.finish_data {packet : OpenPacket} {dataSeq : UInt64}
    {state : SenderLoop} {frames : List (ValidFrame profile)}
    (filled : packet.Filled dataSeq state.log.records frames) (documented : rte.Documented)
    (swaps : rte.SwapsBytes) (cksum : RawCksumDocumented rawCksum) :
    (state.builtPacket (.ofConfig rte rawCksum ethAddr config) packet).mbuf.data =
      wireImage ethAddr config dataSeq.toNat state.log.records := by
  obtain ⟨encodes, header, area⟩ := filled.carries.finalize
  have room := filled.room
  have fits := filled.carries.fits
  have headers : headerSize = 42 := rfl
  have atMost : packet.builder.finalize.packetSize ≤ dataPacketCanonicalCapacity := by
    rw [UInt64.le_iff_toNat_le, encodes.packetSize]
    exact fits
  have stored : (packet.mbuf.store headerSize packet.builder.finalize.data).buffer.length =
      packet.mbuf.buffer.length := length_overwrite (by omega)
  have canonical : slice (packet.mbuf.store headerSize packet.builder.finalize.data).buffer
      headerSize packet.builder.finalize.packetSize.toNat =
        wireHeader dataSeq.toNat state.log.records.length ++ state.log.records.flatten := by
    rw [slice, Mbuf.store, drop_overwrite_self (by omega), List.drop_eq_nil_of_le (by omega),
      List.append_nil, encodes.packetSize, ← packet.builder.finalize.data.drop_zero,
      ← slice, slice_add, header, Nat.zero_add, encodes.records, headerImage_eq,
      filled.carries.recordCount, filled.dataSeq, filled.records, List.length_map,
      payload_eq_flatten]
  have size : packet.builder.finalize.packetSize.toNat =
      (wireHeader dataSeq.toNat state.log.records.length ++
        state.log.records.flatten).length := by
    rw [← canonical, length_slice_of_le]
    rw [stored, encodes.packetSize]
    have capacity : dataPacketCanonicalCapacity.toNat = 1472 := rfl
    omega
  have data := finalizeDataPacket_data documented
    (SenderSetup.ofConfig rte rawCksum ethAddr config).dst atMost
    (show (packet.mbuf.store headerSize packet.builder.finalize.data).dataLen = 1514 from
      filled.dataLen) (by omega)
  rw [canonical, ethernet_image ethAddr config swaps,
    finalIpv4_image ethAddr config swaps cksum atMost, udp_image ethAddr config swaps atMost,
    size] at data
  rw [SenderLoop.builtPacket, filled.output]
  exact data

theorem wireImage_ofNat (number : Nat) (records : List (List UInt8)) :
    wireImage ethAddr config (UInt64.ofNat number).toNat records =
      wireImage ethAddr config number records := by
  have width : (2 : Nat) ^ 64 = 256 ^ 8 := rfl
  simp only [wireImage, wireHeader, UInt64.toNat_ofNat', width, toBigEndian_mod]

end Sent

namespace SenderLoop

variable {rte : Rte} {rawCksum : List UInt8 → UInt16} {ethAddr : EtherAddr}
  {config : EndpointConfig} {liveEdge : UInt64} {events : List SenderEvent} {state : SenderLoop}

theorem built_wireImage (documented : rte.Documented) (swaps : rte.SwapsBytes)
    (cksum : RawCksumDocumented rawCksum)
    (run : Run (Step profile (.ofConfig rte rawCksum ethAddr config)) (start profile liveEdge)
      events state) :
    ∀ number packet, state.log.built[number]? = some packet →
      packet.mbuf.data = wireImage ethAddr config number packet.records ∧
        packet.records.flatten.length ≤ 1450 := by
  induction run with
  | nil => exact nofun
  | snoc run step ih =>
      cases move_of_step step with
      | complete phase =>
          have stream := stream_of_run documented run
          obtain ⟨frames, filled⟩ := stream.filled (by rw [phase]; rfl)
          intro number packet found
          rw [finish_built] at found
          rcases getElem?_append_singleton_cases found with earlier | ⟨rfl, rfl⟩
          · exact ih number packet earlier
          · have image := filled.finish_data ethAddr config documented swaps cksum
            have fits := filled.carries.fits
            have capacity : dataPacketCanonicalCapacity.toNat = 1472 := rfl
            rw [stream.nextDataSeq, wireImage_ofNat] at image
            rw [payload_eq_flatten, ← filled.records, capacity] at fits
            exact ⟨image, Nat.le_of_add_le_add_left fits⟩
      | _ => exact ih

/-- Whatever the loop has been through, its packets are byte for byte the ones the
protocol lays out for their place in the sequence and the source frames in them. -/
theorem packets_conform (documented : rte.Documented) (swaps : rte.SwapsBytes)
    (cksum : RawCksumDocumented rawCksum)
    (run : Run (Step profile (.ofConfig rte rawCksum ethAddr config)) (start profile liveEdge)
      events state) :
    (state.log.built.map fun packet => packet.mbuf.data) =
      (state.log.built.map BuiltPacket.records).mapIdx (wireImage ethAddr config) ∧
    ∀ packet ∈ state.log.built,
      (∃ frames : List (ValidFrame profile), frames ≠ [] ∧ frames.length ≤ 60 ∧
        packet.records = frames.map fun frame => frame.bytes) ∧
      packet.mbuf.data.length = 64 + packet.records.flatten.length ∧
      packet.mbuf.data.length ≤ 1514 ∧
      slice packet.mbuf.data 64 packet.records.flatten.length = packet.records.flatten ∧
      sum 0xFFFF (netWords (slice packet.mbuf.data 14 20)) = 0xFFFF := by
  have images := built_wireImage documented swaps cksum run
  have stream := stream_of_run documented run
  refine ⟨?_, ?_⟩
  · apply List.ext_getElem?
    intro number
    rw [List.getElem?_mapIdx, List.getElem?_map, List.getElem?_map]
    cases found : state.log.built[number]? with
    | none => rfl
    | some packet =>
        simp only [Option.map_some, (images number packet found).1]
  · intro packet member
    obtain ⟨number, found⟩ := List.mem_iff_getElem?.mp member
    obtain ⟨frames, sound⟩ := stream.built packet member
    have most := built_records_le documented run packet member
    have same := congrArg List.length sound.records
    rw [List.length_map] at same
    obtain ⟨image, fits⟩ := images number packet found
    rw [image, length_wireImage]
    exact ⟨⟨frames, sound.nonempty, by omega, sound.records⟩, rfl, by omega,
      slice_wireImage_records _ _ _ _, sum_netWords_wireImage _ _ _ _⟩

def pairedConfig : EndpointConfig where
  localIpv4Be := 0x0100000A
  peerIpv4Be := 0x0200000A
  dataPort := 9000
  batchingEnabled := true
  nextHopMac := #v[2, 0, 0, 0, 0, 2]

theorem packets_conform_batched :
    ∃ state : SenderLoop, (state.log.built.map fun packet => packet.mbuf.data) =
      [wireImage #v[2, 0, 0, 0, 0, 1] pairedConfig 0 [tradeBytes 1, tradeBytes 2]] := by
  let setup : SenderSetup :=
    .ofConfig .littleEndianHost rawCksumLittleEndian #v[2, 0, 0, 0, 0, 1] pairedConfig
  have executed : (batched.foldlM (step .compact setup) (start .compact 0)).map
      (fun state => state.log.built.map BuiltPacket.records) =
        some [[tradeBytes 1, tradeBytes 2]] := by
    decide +kernel
  obtain ⟨state, reached, records⟩ := Option.map_eq_some_iff.mp executed
  obtain ⟨images, -⟩ := packets_conform Rte.littleEndianHost_documented
    Rte.littleEndianHost_swapsBytes rawCksumLittleEndian_documented (Run.of_foldlM reached)
  rw [records] at images
  exact ⟨state, images⟩

end SenderLoop

end Lldt.Transport
