import Mathlib.Algebra.Group.Nat.Defs
import Mathlib.Data.List.Sort
import PrismBackend.Lib.Search
import PrismBackend.Clob.Order

/-!
# CLOB: matching

`matching.rs`: the book, its fills and the matching loop of `Book::add`.
-/

namespace PrismBackend.Clob

open PrismBackend.Lib

def priceScale : Nat := 1000000
/-- Orders this close to their deadline are dropped. -/
def deadlineMarginSecs : Nat := 30

def sideYes : Nat := 0
def sideNo : Nat := 1
def actionBuy : Nat := 0
def actionSell : Nat := 1

def isBid (order : CreateOrderRequestClob) : Bool :=
  (order.side == sideYes && order.action == actionBuy) ||
    (order.side == sideNo && order.action == actionSell)

def remainingShares (order : CreateOrderRequestClob) : Nat := order.qtyShares - order.sharesFilled

/-- `u64::saturating_add`. -/
def saturatingAdd (x y : Nat) : Nat := min (x + y) (2 ^ 64 - 1)

/-- The collateral split of `PrismV2.settle`; none where either leg would pay zero. -/
def splitCollateral (fill price : Nat) : Option (Nat × Nat) :=
  if fill = 0 ∨ price = 0 ∨ priceScale ≤ price then none
  else
    let yes := fill * price / priceScale
    let no := fill - yes
    if yes = 0 ∨ no = 0 then none else some (yes, no)

def legCollateral (order : CreateOrderRequestClob) (yes no : Nat) : Nat :=
  if order.side = sideYes then yes else no

def withinCap (order : CreateOrderRequestClob) (yes no : Nat) : Bool :=
  order.action ≠ actionBuy ∨
    saturatingAdd order.collateralFilled (legCollateral order yes no) ≤ order.collateralCap

/-- The closure `caps_ok` of `max_fill`. -/
def capsOk (bid ask : CreateOrderRequestClob) (price fill : Nat) : Bool :=
  let yes := fill * price / priceScale
  let no := fill - yes
  withinCap bid yes no && withinCap ask yes no

def maxFill (bid ask : CreateOrderRequestClob) (price upper : Nat) : Option Nat :=
  if upper = 0 ∨ price = 0 ∨ priceScale ≤ price then none
  else
    let start := if capsOk bid ask price upper then upper else 0
    let lo := searchLoop (capsOk bid ask price) upper start upper
    (splitCollateral lo price).map fun _ => lo

def usablePrice (price : Nat) : Bool := 0 < price ∧ price < priceScale

def executionPrice (resting incoming : CreateOrderRequestClob) : Option Nat :=
  [resting.limitYesPrice, incoming.limitYesPrice].find? usablePrice

def sameTrader (a b : CreateOrderRequestClob) : Bool :=
  let strip (s : Str) := toAsciiLowercase (trimStart0x s)
  strip a.evmAddress == strip b.evmAddress || eqIgnoreAsciiCase a.accountId b.accountId

def crosses (bid ask : CreateOrderRequestClob) : Bool := ask.limitYesPrice ≤ bid.limitYesPrice

/-- Within the deadline margin, where `add` drops an order. -/
def expired (order : CreateOrderRequestClob) (now : Nat) : Bool :=
  order.deadline ≤ now + deadlineMarginSecs

structure Book where
  bids : List CreateOrderRequestClob
  asks : List CreateOrderRequestClob
  deriving DecidableEq, Repr

def filledBy (order : CreateOrderRequestClob) (fill yes no : Nat) : CreateOrderRequestClob :=
  { order with
    sharesFilled := order.sharesFilled + fill
    collateralFilled := order.collateralFilled + legCollateral order yes no }

/-- The pair (bid, ask) of a resting and an incoming order. -/
def bidAsk (incomingIsBid : Bool) (incoming resting : CreateOrderRequestClob) :
    CreateOrderRequestClob × CreateOrderRequestClob :=
  if incomingIsBid then (incoming, resting) else (resting, incoming)

/-- The fill of an incoming with a resting order, when there is one: its size and price. -/
def tryFill (incomingIsBid : Bool) (incoming resting : CreateOrderRequestClob) :
    Option (Nat × Nat) :=
  let pair := bidAsk incomingIsBid incoming resting
  if sameTrader incoming resting then none
  else do
    let price ← executionPrice resting incoming
    let upper := min (remainingShares incoming) (remainingShares resting)
    let fill ← maxFill pair.1 pair.2 price upper
    return (fill, price)

/-- What one pass over the opposite side leaves: the orders still resting there, the incoming
order, the matches in order of emission, and, of the resting orders that left the book, those
dropped as expired and those filled. The code only logs the latter two. -/
structure Pass where
  resting : List CreateOrderRequestClob
  incoming : CreateOrderRequestClob
  matches_ : List ClobMatch
  dropped : List CreateOrderRequestClob
  filled : List CreateOrderRequestClob

/-- The loop of `add` over what is left of the opposite side. -/
def matchLoop (now : Nat) (incomingIsBid : Bool) :
    List CreateOrderRequestClob → CreateOrderRequestClob → Pass
  | [], incoming => ⟨[], incoming, [], [], []⟩
  | resting :: rest, incoming =>
    let pair := bidAsk incomingIsBid incoming resting
    if remainingShares incoming = 0 then ⟨resting :: rest, incoming, [], [], []⟩
    else if expired resting now then
      let pass := matchLoop now incomingIsBid rest incoming
      { pass with dropped := resting :: pass.dropped }
    else if !crosses pair.1 pair.2 then ⟨resting :: rest, incoming, [], [], []⟩
    else
      match tryFill incomingIsBid incoming resting with
      | none =>
        let pass := matchLoop now incomingIsBid rest incoming
        { pass with resting := resting :: pass.resting }
      | some (fill, price) =>
        -- `max_fill` guarantees a valid split, so the default is never taken
        let legs := (splitCollateral fill price).getD (0, 0)
        let clobMatch : ClobMatch :=
          ⟨incoming.marketId, some pair.1, some pair.2, fill, price, legs.1, legs.2⟩
        let resting := filledBy resting fill legs.1 legs.2
        let pass := matchLoop now incomingIsBid rest (filledBy incoming fill legs.1 legs.2)
        if remainingShares resting = 0 then
          { pass with matches_ := clobMatch :: pass.matches_, filled := resting :: pass.filled }
        else
          { pass with matches_ := clobMatch :: pass.matches_, resting := resting :: pass.resting }

/-- The result of `add`, with the orders that left the book. -/
structure Added where
  book : Book
  matches_ : List ClobMatch
  dropped : List CreateOrderRequestClob
  filled : List CreateOrderRequestClob

/-- Best price first; the sort is stable, so equal prices keep arrival order. -/
def sortAsks (asks : List CreateOrderRequestClob) : List CreateOrderRequestClob :=
  asks.insertionSort fun a b => a.limitYesPrice ≤ b.limitYesPrice

def sortBids (bids : List CreateOrderRequestClob) : List CreateOrderRequestClob :=
  bids.insertionSort fun a b => b.limitYesPrice ≤ a.limitYesPrice

/-- Rest what remains of the incoming order at the end of its side. -/
def restRemainder (side : List CreateOrderRequestClob) (incoming : CreateOrderRequestClob) :
    List CreateOrderRequestClob :=
  if remainingShares incoming = 0 then side else side ++ [incoming]

def completed (incoming : CreateOrderRequestClob) : List CreateOrderRequestClob :=
  if remainingShares incoming = 0 then [incoming] else []

def Book.add (book : Book) (incoming : CreateOrderRequestClob) (now : Nat) : Added :=
  if expired incoming now ∨ remainingShares incoming = 0 then ⟨book, [], [incoming], []⟩
  else if isBid incoming then
    let pass := matchLoop now true (sortAsks book.asks) incoming
    ⟨⟨restRemainder book.bids pass.incoming, pass.resting⟩, pass.matches_, pass.dropped,
      completed pass.incoming ++ pass.filled⟩
  else
    let pass := matchLoop now false (sortBids book.bids) incoming
    ⟨⟨pass.resting, restRemainder book.asks pass.incoming⟩, pass.matches_, pass.dropped,
      completed pass.incoming ++ pass.filled⟩

/-- `remove`: the first order with the id, on the bid side before the ask side. -/
def Book.remove (book : Book) (txId : Str) : Book × Bool :=
  if book.bids.any (·.txId == txId) then
    (⟨book.bids.eraseP (·.txId == txId), book.asks⟩, true)
  else if book.asks.any (·.txId == txId) then
    (⟨book.bids, book.asks.eraseP (·.txId == txId)⟩, true)
  else (book, false)

end PrismBackend.Clob
