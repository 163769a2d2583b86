import Lldt.Packet.Builder
import Lldt.Ring.History
import Mathlib.Logic.Function.Iterate

namespace Lldt.Transport

open Lldt.Data.Bytes
open Lldt.Msg
open Lldt.Shm

/-! `ReceiverShmWriter`: the records of a packet go to the destination ring. -/

/-- The ring and, beside it, the frames passed to `ring_.publish` so far. -/
structure ReceiverShmWriter (slots : SlotCount) where
  ring : Ring slots
  published : List (List UInt8)

namespace ReceiverShmWriter

variable {slots : SlotCount}

def attached (memory : Ring slots) : ReceiverShmWriter slots where
  ring := memory.attach true
  published := []

def publish (writer : ReceiverShmWriter slots) (frame : List UInt8) (len : UInt32) :
    ReceiverShmWriter slots where
  ring := writer.ring.publish frame len
  published := writer.published ++ [frame]

/-- One round of the loop.  The `Nat` is `frame - packet.data`. -/
def writeFrame (profile : Profile) (packet : CanonicalDataPacketView) :
    ReceiverShmWriter slots × Nat → ReceiverShmWriter slots × Nat
  | (writer, frame) =>
      let hdr := Header.load profile (packet.data.drop frame)
      let frameSize := hdr.frameSize
      (writer.publish (slice packet.data frame frameSize.toNat) frameSize,
        frame + frameSize.toNat)

def writeCursor (profile : Profile) (writer : ReceiverShmWriter slots)
    (packet : CanonicalDataPacketView) : ReceiverShmWriter slots × Nat :=
  (writeFrame profile packet)^[packet.recordCount.toNat] (writer, 22)

def write (profile : Profile) (writer : ReceiverShmWriter slots)
    (packet : CanonicalDataPacketView) : ReceiverShmWriter slots :=
  (writer.writeCursor profile packet).1

/-! Writing valid frames. -/

variable {profile : Profile}

def publishFrame (writer : ReceiverShmWriter slots) (frame : ValidFrame profile) :
    ReceiverShmWriter slots :=
  writer.publish frame.bytes frame.len

theorem published_publishFrames (writer : ReceiverShmWriter slots)
    (frames : List (ValidFrame profile)) :
    (frames.foldl publishFrame writer).published =
      writer.published ++ frames.map fun frame => frame.bytes := by
  induction frames generalizing writer with
  | nil => simp
  | cons frame rest ih =>
      rw [List.foldl_cons, ih]
      simp [publishFrame, publish]

/-- The ring holds what was published, as far as its index counts. -/
def Keeps (writer : ReceiverShmWriter slots) : Prop :=
  writer.published.length < 2 ^ 64 → writer.ring.Holds writer.published

theorem keeps_attached (memory : Ring slots) : (attached memory).Keeps :=
  fun _ => Ring.holds_attach memory

theorem Keeps.publishFrames {writer : ReceiverShmWriter slots} (keeps : writer.Keeps)
    (frames : List (ValidFrame profile)) : (frames.foldl publishFrame writer).Keeps := by
  induction frames generalizing writer with
  | nil => exact keeps
  | cons frame rest ih =>
      refine ih fun few => ?_
      have length : (writer.publishFrame frame).published.length =
          writer.published.length + 1 := List.length_append
      rw [length] at few
      exact (keeps (Nat.lt_of_succ_lt few)).publish frame.toNat_len few

theorem writeFrame_valid {packet : CanonicalDataPacketView} {cursor : Nat}
    {frame : ValidFrame profile}
    (here : slice packet.data cursor frame.bytes.length = frame.bytes)
    (writer : ReceiverShmWriter slots) :
    writeFrame profile packet (writer, cursor) =
      (writer.publishFrame frame, cursor + frame.bytes.length) := by
  have header : Header.load profile (packet.data.drop cursor) =
      Header.load profile frame.bytes := by
    rw [← Header.load_slice profile frame.hasHeader, here]
  have size : (Header.load profile frame.bytes).frameSize = frame.len := by
    apply UInt32.toNat_inj.mp
    rw [frame.sized, Frame.toNat_len]
  simp only [writeFrame, header, size, Frame.toNat_len, here, publishFrame]

theorem here_cons {packet : CanonicalDataPacketView} {cursor : Nat}
    {frame : ValidFrame profile} {rest : List (ValidFrame profile)}
    (here : slice packet.data cursor (payload (frame :: rest)).length =
      payload (frame :: rest)) :
    slice packet.data cursor frame.bytes.length = frame.bytes ∧
      slice packet.data (cursor + frame.bytes.length) (payload rest).length = payload rest := by
  have split : payload (frame :: rest) = frame.bytes ++ payload rest := rfl
  have whole := congrArg List.length here
  rw [split, List.length_append, length_slice] at whole
  rw [split, List.length_append, slice_add] at here
  apply List.append_inj here
  rw [length_slice]
  omega

theorem writeFrame_iterate {packet : CanonicalDataPacketView} {cursor : Nat}
    {frames : List (ValidFrame profile)}
    (here : slice packet.data cursor (payload frames).length = payload frames)
    (writer : ReceiverShmWriter slots) :
    (writeFrame profile packet)^[frames.length] (writer, cursor) =
      (frames.foldl publishFrame writer, cursor + (payload frames).length) := by
  induction frames generalizing writer cursor with
  | nil => rfl
  | cons frame rest ih =>
      obtain ⟨first, others⟩ := here_cons here
      have split : payload (frame :: rest) = frame.bytes ++ payload rest := rfl
      rw [List.length_cons, Function.iterate_succ_apply, writeFrame_valid first,
        ih others, split, List.length_append, Nat.add_assoc]
      rfl

/-- `write` publishes exactly the frames of the packet and its cursor ends at
the end of the packet. -/
theorem writeCursor_encodes {packet : CanonicalDataPacketView}
    {frames : List (ValidFrame profile)} (encodes : packet.Encodes frames)
    (writer : ReceiverShmWriter slots) :
    writer.writeCursor profile packet =
      (frames.foldl publishFrame writer, packet.packetSize.toNat) := by
  rw [writeCursor, encodes.recordCount, encodes.packetSize]
  exact writeFrame_iterate encodes.records writer

end ReceiverShmWriter

end Lldt.Transport
