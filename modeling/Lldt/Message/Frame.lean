import Lldt.Data.Bytes

namespace Lldt.Msg

open Lldt.Data.Bytes

/-! The source ABI of a frame.  The message profile is fixed when the binaries
are built; every process of one run is built with the same one.  Multi-byte
fields are stored by the host, which is little-endian. -/

inductive Profile where
  | raw
  | compact
  deriving DecidableEq, Repr

def loadU8 (image : List UInt8) (off : Nat) : UInt8 :=
  image.getD off 0

def loadU16 (image : List UInt8) (off : Nat) : UInt16 :=
  UInt16.ofNat (ofLittleEndian (slice image off 2))

def loadU32 (image : List UInt8) (off : Nat) : UInt32 :=
  UInt32.ofNat (ofLittleEndian (slice image off 4))

def loadU64 (image : List UInt8) (off : Nat) : UInt64 :=
  UInt64.ofNat (ofLittleEndian (slice image off 8))

def sizeofHeader : Nat := 24

structure RawHeader where
  seqId : UInt64
  sendTsNs : UInt64
  type : UInt16
  version : UInt16
  bodyLen : UInt32
  deriving DecidableEq, Repr

structure CompactHeader where
  seqId : UInt64
  sendTsNs : UInt64
  instrument : UInt16
  type : UInt8
  flags : UInt8
  exchangeTsDeltaNs : Int32
  deriving DecidableEq

inductive Header where
  | raw (fields : RawHeader)
  | compact (fields : CompactHeader)

def Header.load (profile : Profile) (image : List UInt8) : Header :=
  match profile with
  | .raw => .raw {
      seqId := loadU64 image 0
      sendTsNs := loadU64 image 8
      type := loadU16 image 16
      version := loadU16 image 18
      bodyLen := loadU32 image 20 }
  | .compact => .compact {
      seqId := loadU64 image 0
      sendTsNs := loadU64 image 8
      instrument := loadU16 image 16
      type := loadU8 image 18
      flags := loadU8 image 19
      exchangeTsDeltaNs := (loadU32 image 20).toInt32 }

def Header.seqId : Header → UInt64
  | .raw fields => fields.seqId
  | .compact fields => fields.seqId

namespace Compact

def typeTrade : UInt8 := 1
def typeBbo : UInt8 := 2
def typeOrderBook : UInt8 := 3

def sizeofTrade : UInt32 := 64
def sizeofBbo : UInt32 := 48
def sizeofOrderBook : UInt32 := 96

/-- `frame_size(Type)`: a value outside the enumeration has size zero. -/
def frameSize (type : UInt8) : UInt32 :=
  if type = typeTrade then sizeofTrade
  else if type = typeBbo then sizeofBbo
  else if type = typeOrderBook then sizeofOrderBook
  else 0

end Compact

namespace Raw

def sizeofOrderBook : UInt32 := 576

end Raw

def Header.frameSize : Header → UInt32
  | .raw fields => fields.bodyLen
  | .compact fields => Compact.frameSize fields.type

def kMaxFrame : Profile → UInt32
  | .raw => Raw.sizeofOrderBook
  | .compact => Compact.sizeofOrderBook

theorem kMaxFrame_le (profile : Profile) : (kMaxFrame profile).toNat ≤ 576 := by
  cases profile <;> decide

/-! Loads look only at the bytes of the header. -/

theorem loadU8_slice {area : List UInt8} {base len off : Nat} (inside : off < len) :
    loadU8 (slice area base len) off = loadU8 (area.drop base) off := by
  simp only [loadU8, List.getD_eq_getElem?_getD, getElem?_slice, if_pos inside,
    List.getElem?_drop]

theorem Header.load_slice (profile : Profile) {area : List UInt8} {base len : Nat}
    (whole : sizeofHeader ≤ len) :
    Header.load profile (slice area base len) =
      Header.load profile (area.drop base) := by
  simp only [sizeofHeader] at whole
  cases profile <;>
    simp only [Header.load, loadU64, loadU32, loadU16] <;>
    rw [slice_slice (by omega), slice_slice (by omega), slice_slice (by omega),
      slice_slice (by omega)]
  · rw [slice_slice (by omega)]
  · rw [loadU8_slice (by omega), loadU8_slice (by omega)]

/-- What one ring slot can hold: the frame area has `kFrameCap` bytes. -/
structure Frame (profile : Profile) where
  bytes : List UInt8
  fits : bytes.length ≤ (kMaxFrame profile).toNat

/-- A frame whose own header states its size. -/
structure ValidFrame (profile : Profile) extends Frame profile where
  hasHeader : sizeofHeader ≤ bytes.length
  sized : (Header.load profile bytes).frameSize.toNat = bytes.length

namespace Frame

variable {profile : Profile}

def len (frame : Frame profile) : UInt32 :=
  UInt32.ofNat frame.bytes.length

theorem length_lt (frame : Frame profile) : frame.bytes.length < 2 ^ 32 := by
  have bound := frame.fits
  have cap := kMaxFrame_le profile
  omega

@[simp] theorem toNat_len (frame : Frame profile) :
    frame.len.toNat = frame.bytes.length := by
  rw [len, UInt32.toNat_ofNat']
  exact Nat.mod_eq_of_lt frame.length_lt

end Frame

def ValidFrame.seqId {profile : Profile} (frame : ValidFrame profile) : UInt64 :=
  (Header.load profile frame.bytes).seqId

theorem ValidFrame.seqId_eq {profile : Profile} (frame : ValidFrame profile) :
    frame.seqId = loadU64 frame.bytes 0 := by
  unfold seqId
  cases profile <;> rfl

theorem ValidFrame.length_le {profile : Profile} (frame : ValidFrame profile) :
    frame.bytes.length ≤ 576 :=
  frame.fits.trans (kMaxFrame_le profile)

end Lldt.Msg
