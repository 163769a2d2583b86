import Lldt.Data.Layout
import Lldt.Message.Compact

namespace Lldt.Msg

open Lldt.Data
open Lldt.Data.Bytes

/-! The bytes of the Compact records: the fields in their declared order, each where
its alignment puts it, with no padding between them or at the end. -/

def CompactHeader.layout : Layout CompactHeader :=
  ((((((Layout.uint64.pair .uint64 (by decide)).pair .uint16 (by decide)).pair
    .uint8 (by decide)).pair .uint8 (by decide)).pair .int32 (by decide))).congr {
      toFun := fun (((((seqId, sendTsNs), instrument), type), flags), exchangeTsDeltaNs) =>
        { seqId, sendTsNs, instrument, type, flags, exchangeTsDeltaNs }
      invFun := fun header => (((((header.seqId, header.sendTsNs), header.instrument),
        header.type), header.flags), header.exchangeTsDeltaNs)
      left_inv := fun _ => rfl
      right_inv := fun _ => rfl }

namespace Compact

def Trade.layout : Layout Trade :=
  (((((((CompactHeader.layout.pair .uint64 (by decide)).pair .uint32 (by decide)).pair
    .uint32 (by decide)).pair .uint64 (by decide)).pair .uint64 (by decide)).pair
      .uint64 (by decide))).congr {
      toFun := fun ((((((header, tradeId), priceTicks), quantityLots), cumulativeQuantityLots),
          cumulativeNotionalTickLots), cumulativeTradeCount) =>
        { header, tradeId, priceTicks, quantityLots, cumulativeQuantityLots,
          cumulativeNotionalTickLots, cumulativeTradeCount }
      invFun := fun trade => ((((((trade.header, trade.tradeId), trade.priceTicks),
        trade.quantityLots), trade.cumulativeQuantityLots), trade.cumulativeNotionalTickLots),
          trade.cumulativeTradeCount)
      left_inv := fun _ => rfl
      right_inv := fun _ => rfl }

def Bbo.layout : Layout Bbo :=
  (((((((((CompactHeader.layout.pair .uint64 (by decide)).pair .uint32 (by decide)).pair
    .uint16 (by decide)).pair .uint16 (by decide)).pair .uint16 (by decide)).pair
      .uint16 (by decide)).pair .uint16 (by decide)).pair .uint16 (by decide))).congr {
      toFun := fun ((((((((header, updateId), bidPriceTicks), spreadTicks), bidSizeLots),
          askSizeLots), bidOrderCount), askOrderCount), reserved) =>
        { header, updateId, bidPriceTicks, spreadTicks, bidSizeLots, askSizeLots,
          bidOrderCount, askOrderCount, reserved }
      invFun := fun bbo => ((((((((bbo.header, bbo.updateId), bbo.bidPriceTicks),
        bbo.spreadTicks), bbo.bidSizeLots), bbo.askSizeLots), bbo.bidOrderCount),
          bbo.askOrderCount), bbo.reserved)
      left_inv := fun _ => rfl
      right_inv := fun _ => rfl }

def Side.layout : Layout Side :=
  (((Layout.uint32.pair (.array .uint16 (kBookDepth - 1) (by decide)) (by decide)).pair
    (.array .uint16 kBookDepth (by decide)) (by decide)).pair
      (.array .uint16 kBookDepth (by decide)) (by decide)).congr {
      toFun := fun (((topPriceTicks, priceOffsetTicks), sizeLots), orderCount) =>
        { topPriceTicks, priceOffsetTicks, sizeLots, orderCount }
      invFun := fun side => (((side.topPriceTicks, side.priceOffsetTicks), side.sizeLots),
        side.orderCount)
      left_inv := fun _ => rfl
      right_inv := fun _ => rfl }

def OrderBook.layout : Layout OrderBook :=
  (((CompactHeader.layout.pair .uint64 (by decide)).pair Side.layout (by decide)).pair
    Side.layout (by decide)).congr {
      toFun := fun (((header, updateId), bids), asks) => { header, updateId, bids, asks }
      invFun := fun book => (((book.header, book.updateId), book.bids), book.asks)
      left_inv := fun _ => rfl
      right_inv := fun _ => rfl }

/-- The sizes that `message_compact.hpp` asserts. -/
theorem layout_sizes :
    CompactHeader.layout.size = sizeofHeader ∧ Trade.layout.size = sizeofTrade.toNat ∧
      Bbo.layout.size = sizeofBbo.toNat ∧ Side.layout.size = 32 ∧
      OrderBook.layout.size = sizeofOrderBook.toNat := by
  decide

theorem loadU8_eq (image : List UInt8) (off : Nat) :
    loadU8 image off = Layout.uint8.load (slice image off 1) := by
  have cell : slice image off 1 = image[off]?.toList := by
    rw [slice, List.take_one, List.head?_drop]
  change _ = UInt8.ofNat (ofLittleEndian (slice image off 1))
  rw [cell, loadU8, List.getD_eq_getElem?_getD]
  cases image[off]? with
  | none => rfl
  | some byte => simp [ofLittleEndian]

theorem load_header (image : List UInt8) :
    Header.load .compact image =
      .compact (CompactHeader.layout.load (slice image 0 sizeofHeader)) := by
  simp only [Header.load, loadU8_eq, loadU16, loadU32, loadU64]
  simp (disch := decide) only [CompactHeader.layout, Layout.congr, Layout.pair, sizeofHeader,
    slice_slice_of_le]
  rfl

theorem trade_leads : Layout.Leads CompactHeader.layout Trade.layout Trade.header :=
  ((((((Layout.leads_fst _).pair _).pair _).pair _).pair _).pair _).congr _

theorem bbo_leads : Layout.Leads CompactHeader.layout Bbo.layout Bbo.header :=
  ((((((((Layout.leads_fst _).pair _).pair _).pair _).pair _).pair _).pair _).pair _).congr _

theorem orderBook_leads : Layout.Leads CompactHeader.layout OrderBook.layout OrderBook.header :=
  (((Layout.leads_fst _).pair _).pair _).congr _

namespace Message

def header : Message → CompactHeader
  | .trade record => record.header
  | .bbo record => record.header
  | .orderBook record => record.header

/-- The type that the header of such a message has to name. -/
def type : Message → UInt8
  | .trade _ => typeTrade
  | .bbo _ => typeBbo
  | .orderBook _ => typeOrderBook

def image : Message → List UInt8
  | .trade record => Trade.layout.store record
  | .bbo record => Bbo.layout.store record
  | .orderBook record => OrderBook.layout.store record

theorem length_image (message : Message) :
    message.image.length = (frameSize message.type).toNat := by
  cases message with
  | trade record => exact Trade.layout.length_store record
  | bbo record => exact Bbo.layout.length_store record
  | orderBook record => exact OrderBook.layout.length_store record

theorem load_header_image (message : Message) :
    CompactHeader.layout.load (slice message.image 0 sizeofHeader) = message.header := by
  cases message with
  | trade record => exact trade_leads.load_slice record
  | bbo record => exact bbo_leads.load_slice record
  | orderBook record => exact orderBook_leads.load_slice record

/-- What a reader makes of a frame by the type in its header. -/
def load? (image : List UInt8) : Option Message :=
  let type := (CompactHeader.layout.load (slice image 0 sizeofHeader)).type
  if type = typeTrade then some (.trade (Trade.layout.load image))
  else if type = typeBbo then some (.bbo (Bbo.layout.load image))
  else if type = typeOrderBook then some (.orderBook (OrderBook.layout.load image))
  else none

end Message

/-- A message whose header names its own type. -/
structure TypedMessage where
  message : Message
  typed : message.header.type = message.type

namespace TypedMessage

theorem length_image_bounds (message : Message) :
    sizeofHeader ≤ message.image.length ∧
      message.image.length ≤ (kMaxFrame .compact).toNat := by
  rw [message.length_image]
  cases message <;> simp only [Message.type] <;> decide

theorem load_image (message : Message) :
    Header.load .compact message.image = .compact message.header := by
  rw [load_header, message.load_header_image]

def frame (typed : TypedMessage) : ValidFrame .compact where
  bytes := typed.message.image
  fits := (length_image_bounds typed.message).2
  hasHeader := (length_image_bounds typed.message).1
  sized := by
    rw [load_image, typed.message.length_image, ← typed.typed]
    rfl

@[simp] theorem bytes_frame (typed : TypedMessage) :
    typed.frame.bytes = typed.message.image := rfl

@[simp] theorem seqId_frame (typed : TypedMessage) :
    typed.frame.seqId = typed.message.header.seqId := by
  rw [ValidFrame.seqId, bytes_frame, load_image]
  rfl

theorem loadU64_image (typed : TypedMessage) :
    loadU64 typed.message.image 0 = typed.message.header.seqId := by
  rw [← typed.seqId_frame, ValidFrame.seqId_eq]
  rfl

theorem load?_image (typed : TypedMessage) :
    Message.load? typed.message.image = some typed.message := by
  obtain ⟨message, typed⟩ := typed
  rw [Message.load?, message.load_header_image, typed]
  cases message with
  | trade record => exact congrArg (some ∘ Message.trade) (Trade.layout.load_store record)
  | bbo record => exact congrArg (some ∘ Message.bbo) (Bbo.layout.load_store record)
  | orderBook record =>
      exact congrArg (some ∘ Message.orderBook) (OrderBook.layout.load_store record)

theorem frame_injective : Function.Injective frame := by
  intro first second same
  have images : first.message.image = second.message.image :=
    congrArg (fun frame => frame.bytes) same
  have loaded := first.load?_image
  rw [images, second.load?_image] at loaded
  cases first
  cases second
  cases loaded
  rfl

/-- A frame of a known type is as long as the record of that type. -/
theorem frame_surjective : Function.Surjective frame := by
  intro given
  have sized := given.sized
  rw [load_header] at sized
  change (frameSize (CompactHeader.layout.load _).type).toNat = _ at sized
  generalize header : CompactHeader.layout.load (slice given.bytes 0 sizeofHeader) = loaded
    at sized
  suffices found : ∃ typed : TypedMessage, typed.message.image = given.bytes by
    obtain ⟨typed, same⟩ := found
    refine ⟨typed, ?_⟩
    obtain ⟨⟨bytes, _⟩, _⟩ := given
    cases same
    rfl
  unfold frameSize at sized
  split at sized
  · rename_i known
    refine ⟨⟨.trade (Trade.layout.load given.bytes), ?_⟩,
      Trade.layout.store_load _ sized.symm⟩
    exact (congrArg CompactHeader.type ((trade_leads.load_eq _).trans header)).trans known
  · split at sized
    · rename_i known
      refine ⟨⟨.bbo (Bbo.layout.load given.bytes), ?_⟩, Bbo.layout.store_load _ sized.symm⟩
      exact (congrArg CompactHeader.type ((bbo_leads.load_eq _).trans header)).trans known
    · split at sized
      · rename_i known
        refine ⟨⟨.orderBook (OrderBook.layout.load given.bytes), ?_⟩,
          OrderBook.layout.store_load _ sized.symm⟩
        exact (congrArg CompactHeader.type ((orderBook_leads.load_eq _).trans header)).trans
          known
      · -- a type outside the enumeration has size zero
        have whole := given.hasHeader
        rw [← sized] at whole
        exact absurd whole (by decide)

/-- The frames of the Compact profile are the images of the typed messages: every
message makes a frame that its header describes and a reader gets the message back
from, and every frame comes from exactly one message. -/
theorem frame_bijective :
    Function.Bijective frame ∧ ∀ typed : TypedMessage,
      Header.load .compact typed.frame.bytes = .compact typed.message.header ∧
        Message.load? typed.frame.bytes = some typed.message :=
  ⟨⟨frame_injective, frame_surjective⟩,
    fun typed => ⟨load_image typed.message, typed.load?_image⟩⟩

end TypedMessage

end Compact

end Lldt.Msg
