import Lldt.Message.Records
import Lldt.Producer.Aggregates
import Mathlib.Data.List.OfFn

namespace Lldt.Harness

open Lldt.Data.Transition
open Lldt.Msg
open Lldt.Msg.Compact

/-! The market that the frames of the producer show.  A book is read off a record the
way the comments on the records say: the ask of a BBO is the bid and the spread, and
offsets go away from the top of a side. -/

/-- Prices are signed, so that an offset beyond its top shows. -/
structure Level where
  price : Int
  size : Nat
  orders : Nat

/-- The levels of both sides, the best one first. -/
structure Book where
  bids : List Level
  asks : List Level

namespace Book

structure Sound (book : Book) : Prop where
  falling : book.bids.Pairwise fun better worse => worse.price < better.price
  rising : book.asks.Pairwise fun better worse => better.price < worse.price
  uncrossed : ∀ bid ∈ book.bids, ∀ ask ∈ book.asks, bid.price < ask.price
  filled : ∀ level ∈ book.bids ++ book.asks, 0 < level.price ∧ 0 < level.size ∧ 0 < level.orders

/-- The best prices lie at the same distance from the middle. -/
def Centered (book : Book) (middle half : Int) : Prop :=
  (∃ bid ∈ book.bids.head?, bid.price = middle - half) ∧
    ∃ ask ∈ book.asks.head?, ask.price = middle + half

variable {best : Level} {others : List Level}

theorem bid_le_best (falling : (best :: others).Pairwise fun better worse =>
    worse.price < better.price) : ∀ bid ∈ best :: others, bid.price ≤ best.price := by
  intro bid member
  cases member with
  | head => exact Int.le_refl _
  | tail _ worse => exact Int.le_of_lt ((List.pairwise_cons.mp falling).1 bid worse)

theorem best_le_ask (rising : (best :: others).Pairwise fun better worse =>
    better.price < worse.price) : ∀ ask ∈ best :: others, best.price ≤ ask.price := by
  intro ask member
  cases member with
  | head => exact Int.le_refl _
  | tail _ worse => exact Int.le_of_lt ((List.pairwise_cons.mp rising).1 ask worse)

/-- Where each side is in order, the best prices decide whether the sides cross. -/
theorem Centered.uncrossed {book : Book} {middle half : Int} (centered : book.Centered middle half)
    (apart : 0 < half)
    (falling : book.bids.Pairwise fun better worse => worse.price < better.price)
    (rising : book.asks.Pairwise fun better worse => better.price < worse.price) :
    ∀ bid ∈ book.bids, ∀ ask ∈ book.asks, bid.price < ask.price := by
  intro bid bidIn ask askIn
  obtain ⟨⟨bestBid, bidHead, bidPrice⟩, bestAsk, askHead, askPrice⟩ := centered
  obtain ⟨bids, bidSide⟩ := List.head?_eq_some_iff.mp bidHead
  obtain ⟨asks, askSide⟩ := List.head?_eq_some_iff.mp askHead
  rw [bidSide] at falling bidIn
  rw [askSide] at rising askIn
  have below := bid_le_best falling bid bidIn
  have above := best_le_ask rising ask askIn
  omega

end Book

/-! From the records to books. -/

/-- The price in the middle of everything shown under one sequence number. -/
def midPriceTicks (seq : UInt64) : Nat := 6500000 + seq.toNat % 500 * 50

section Sides

variable (top : UInt32) (seq ahead : UInt64)

variable {top seq ahead}

end Sides

end Lldt.Harness
