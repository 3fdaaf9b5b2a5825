import Mathlib.Algebra.Order.Field.Rat
import Mathlib.Tactic.Linarith
import PrismBackend.Rewards.LimitOrderMining

/-!
# Rewards: the two sides of the book

The table keeps the price of an ask with its sign turned, and the job measures
the distance of an order from that price as it stands. An ask is far from every
market price, so it earns what the bid at its price earns only when the bid is
far too. That holds in every arithmetic, in double precision as in the exact one.
-/

namespace PrismBackend.Rewards

open PrismBackend.Lib PrismBackend.Clob PrismBackend.PrismV2
open PrismBackend.Api (isBidV2)

/-! ## The columns of an order -/

/-- An order as its request, its fills and its life have it; the limit price is checked before the
order is stored. -/
structure PlacedOrder where
  marketID : Uint128
  accountID : Str
  side : Side
  action : Action
  limitYesPrice : Nat
  limitYesPrice_le : limitYesPrice ≤ PrismV2.priceScale
  qtyOrig : ℚ
  qtyRem : ℚ
  createdAt : Nat
  cancelledAt : Bool
  fullyMatchedAt : Bool
  evictedAt : Bool

def flipSide : Side → Side
  | .yes => .no
  | .no => .yes

namespace PlacedOrder

variable (order : PlacedOrder)

variable (r : Rounding)

def limitPrice : ℚ := r.round (order.limitYesPrice / PrismV2.priceScale)

/-- The legacy column: bids carry a positive YES price, asks a negative one. -/
def priceUsd : ℚ :=
  if isBidV2 order.side.toWord order.action.toWord then order.limitPrice r
  else -order.limitPrice r

/-- The row that `CreateOrderIntentRequestWithOutbox` stores, where a SELL is secondary. -/
def row : LomOrder where
  marketID := order.marketID
  accountID := order.accountID
  isSecondary := order.action == .sell
  priceUsd := order.priceUsd r
  qtyOrig := order.qtyOrig
  qtyRem := order.qtyRem
  createdAt := order.createdAt
  cancelledAt := order.cancelledAt
  fullyMatchedAt := order.fullyMatchedAt
  evictedAt := order.evictedAt

def exchanged : PlacedOrder :=
  match order.action with
  | .buy => { order with side := flipSide order.side }
  | .sell => order

/-- The limit price passes the job's own test of an order that is far from the market price. -/
def IsFarFrom (currentMarketPrice : ℚ) : Prop :=
  r.round orderDurationIgnoreFurtherThan <
    |r.round (r.round (order.limitPrice r - currentMarketPrice) / currentMarketPrice)|

theorem limitPrice_nonneg : 0 ≤ order.limitPrice r :=
  r.nonneg (div_nonneg (Nat.cast_nonneg _) (Nat.cast_nonneg _))

end PlacedOrder

def SamePoints (r : Rounding) (bid ask : PlacedOrder) (currentMarketPrice : ℚ) (now : Nat) :
    Prop :=
  (bid.row r).distancePoints r currentMarketPrice =
      (ask.row r).distancePoints r currentMarketPrice ∧
    (bid.row r).sizePoints r = (ask.row r).sizePoints r ∧
    (bid.row r).durationPoints r currentMarketPrice now =
      (ask.row r).durationPoints r currentMarketPrice now

/-- A BUY YES and a BUY NO that differ in nothing that the job reads but the side. -/
structure Counterparts (bid ask : PlacedOrder) : Prop where
  bidSide : bid.side = .yes
  bidAction : bid.action = .buy
  askSide : ask.side = .no
  askAction : ask.action = .buy
  limitYesPrice : ask.limitYesPrice = bid.limitYesPrice
  qtyOrig : ask.qtyOrig = bid.qtyOrig
  qtyRem : ask.qtyRem = bid.qtyRem
  createdAt : ask.createdAt = bid.createdAt

/-! ## Tiers -/

section Tiers

variable {α : Type} {tiers : List (Tier α)} {isReached : α → Bool}

theorem tierPoints_eq_zero (h : ∀ tier ∈ tiers, isReached tier.threshold = false) :
    tierPoints tiers isReached = 0 := by
  unfold tierPoints
  induction tiers with
  | nil => rfl
  | cons tier tiers ih =>
      rw [List.foldl_cons, h tier List.mem_cons_self, Bool.false_and, if_neg Bool.false_ne_true]
      exact ih fun other hother => h other (List.mem_cons_of_mem tier hother)

theorem le_foldl_tiers (points : ℚ) :
    points ≤ tiers.foldl (fun points tier =>
      if isReached tier.threshold && decide (points < tier.weight) then tier.weight else points)
      points := by
  induction tiers generalizing points with
  | nil => exact le_rfl
  | cons tier tiers ih =>
      rw [List.foldl_cons]
      apply le_trans _ (ih _)
      split
      · next h => exact (decide_eq_true_eq.mp (Bool.and_eq_true_iff.mp h).2).le
      · exact le_rfl

theorem weight_le_foldl_tiers {tier : Tier α} (hmem : tier ∈ tiers)
    (h : isReached tier.threshold = true) (points : ℚ) :
    tier.weight ≤ tiers.foldl (fun points tier =>
      if isReached tier.threshold && decide (points < tier.weight) then tier.weight else points)
      points := by
  induction tiers generalizing points with
  | nil => exact absurd hmem List.not_mem_nil
  | cons other tiers ih =>
      rw [List.foldl_cons]
      cases hmem with
      | head =>
          apply le_trans _ (le_foldl_tiers _)
          rw [h, Bool.true_and]
          split
          · exact le_rfl
          · next hle =>
            rw [decide_eq_true_eq, not_lt] at hle
            exact hle
      | tail _ hmem => exact ih hmem _

theorem weight_le_tierPoints {tier : Tier α} (hmem : tier ∈ tiers)
    (h : isReached tier.threshold = true) : tier.weight ≤ tierPoints tiers isReached :=
  weight_le_foldl_tiers hmem h 0

end Tiers

/-! ## Distance -/

namespace LomOrder

variable {r : Rounding} {order : LomOrder} {currentMarketPrice : ℚ}

theorem distance_eq (hprice : 0 < currentMarketPrice) :
    order.distance r currentMarketPrice =
      some |r.round (r.round (order.priceUsd - currentMarketPrice) / currentMarketPrice)| := by
  rw [distance, quotient, if_neg hprice.ne', Option.map_some]

theorem isFar_iff (hprice : 0 < currentMarketPrice) :
    order.isFar r currentMarketPrice = true ↔ r.round orderDurationIgnoreFurtherThan <
      |r.round (r.round (order.priceUsd - currentMarketPrice) / currentMarketPrice)| := by
  rw [isFar, distance_eq hprice]
  exact decide_eq_true_iff

theorem distancePoints_of_far (hprice : 0 < currentMarketPrice)
    (h : order.isFar r currentMarketPrice = true) :
    order.distancePoints r currentMarketPrice = 0 := by
  apply tierPoints_eq_zero
  intro tier htier
  have hthreshold : tier.threshold ≤ orderDurationIgnoreFurtherThan := by
    simp only [priceDistanceTiers, List.mem_cons, List.not_mem_nil, or_false] at htier
    rcases htier with rfl | rfl | rfl | rfl | rfl <;> norm_num [orderDurationIgnoreFurtherThan]
  rw [distance_eq hprice, Option.any_some, decide_eq_false_iff_not, not_le]
  exact (r.mono hthreshold).trans_lt ((isFar_iff hprice).mp h)

theorem distancePoints_of_near (hprice : 0 < currentMarketPrice)
    (h : ¬order.isFar r currentMarketPrice = true) :
    0 < order.distancePoints r currentMarketPrice := by
  rw [isFar_iff hprice, not_lt] at h
  have hmem : (⟨orderDurationIgnoreFurtherThan, 5⟩ : Tier ℚ) ∈ priceDistanceTiers :=
    List.mem_cons_self
  have hweight : (5 : ℚ) ≤ order.distancePoints r currentMarketPrice := by
    apply weight_le_tierPoints hmem
    rw [distance_eq hprice, Option.any_some, decide_eq_true_eq]
    exact h
  exact lt_of_lt_of_le (by norm_num) hweight

theorem durationPoints_of_far {now : Nat} (h : order.isFar r currentMarketPrice = true) :
    order.durationPoints r currentMarketPrice now = 0 := if_pos h

/-- A price that is not positive is as far from the market price as that price, at least. -/
theorem isFar_of_nonpos (hprice : 0 < currentMarketPrice)
    (hnumber : r.round currentMarketPrice = currentMarketPrice) (horder : order.priceUsd ≤ 0) :
    order.isFar r currentMarketPrice = true := by
  have hdifference : r.round (order.priceUsd - currentMarketPrice) ≤ -currentMarketPrice := by
    calc r.round (order.priceUsd - currentMarketPrice) ≤ r.round (-currentMarketPrice) :=
          r.mono (by linarith)
      _ = -currentMarketPrice := by rw [r.neg, hnumber]
  have hquotient :
      r.round (r.round (order.priceUsd - currentMarketPrice) / currentMarketPrice) ≤ -1 := by
    calc r.round (r.round (order.priceUsd - currentMarketPrice) / currentMarketPrice)
        ≤ r.round (-1) := r.mono (by rwa [div_le_iff₀ hprice, neg_one_mul])
      _ = -1 := by rw [r.neg, r.one]
  have hfifth : r.round orderDurationIgnoreFurtherThan ≤ 1 / 2 := by
    calc r.round orderDurationIgnoreFurtherThan ≤ r.round (1 / 2) :=
          r.mono (by norm_num [orderDurationIgnoreFurtherThan])
      _ = 1 / 2 := r.half
  rw [isFar_iff hprice, lt_abs]
  right
  linarith

end LomOrder

/-! ## One order and its counterpart -/

namespace Counterparts

variable {r : Rounding} {bid ask : PlacedOrder} {currentMarketPrice : ℚ}

theorem bidPrice (h : Counterparts bid ask) : (bid.row r).priceUsd = bid.limitPrice r := by
  show bid.priceUsd r = bid.limitPrice r
  rw [PlacedOrder.priceUsd, h.bidSide, h.bidAction]
  exact if_pos rfl

theorem askPrice (h : Counterparts bid ask) : (ask.row r).priceUsd = -bid.limitPrice r := by
  have hlimit : ask.limitPrice r = bid.limitPrice r := by
    rw [PlacedOrder.limitPrice, PlacedOrder.limitPrice, h.limitYesPrice]
  show ask.priceUsd r = -bid.limitPrice r
  rw [PlacedOrder.priceUsd, h.askSide, h.askAction, hlimit]
  exact if_neg (by decide)

theorem bid_isFar_iff (h : Counterparts bid ask) (hprice : 0 < currentMarketPrice) :
    (bid.row r).isFar r currentMarketPrice = true ↔ bid.IsFarFrom r currentMarketPrice := by
  rw [LomOrder.isFar_iff hprice, h.bidPrice]
  rfl

/-- The turned sign puts an ask on the other side of zero. -/
theorem ask_isFar (h : Counterparts bid ask) (hprice : 0 < currentMarketPrice)
    (hnumber : r.round currentMarketPrice = currentMarketPrice) :
    (ask.row r).isFar r currentMarketPrice = true := by
  apply LomOrder.isFar_of_nonpos hprice hnumber
  rw [h.askPrice]
  exact neg_nonpos.mpr (bid.limitPrice_nonneg r)

theorem sizePoints (h : Counterparts bid ask) :
    (bid.row r).sizePoints r = (ask.row r).sizePoints r := by
  have hsize : |r.round ((ask.row r).priceUsd * (ask.row r).qtyRem)| =
      |r.round ((bid.row r).priceUsd * (bid.row r).qtyRem)| := by
    rw [h.bidPrice, h.askPrice, neg_mul, r.neg, abs_neg]
    exact congrArg (fun qty => |r.round (bid.limitPrice r * qty)|) h.qtyRem
  rw [LomOrder.sizePoints, LomOrder.sizePoints, hsize]
  show LomOrder.calculateOrderSizePoints r _ bid.qtyOrig bid.qtyRem =
    LomOrder.calculateOrderSizePoints r _ ask.qtyOrig ask.qtyRem
  rw [h.qtyOrig, h.qtyRem]

/-- The two sides earn the same exactly for an order that is far from the market price. -/
theorem samePoints_iff (h : Counterparts bid ask) (hprice : 0 < currentMarketPrice)
    (hnumber : r.round currentMarketPrice = currentMarketPrice) (now : Nat) :
    SamePoints r bid ask currentMarketPrice now ↔ bid.IsFarFrom r currentMarketPrice := by
  have hask := h.ask_isFar hprice hnumber
  have haskDistance := LomOrder.distancePoints_of_far hprice hask
  constructor
  · intro hsame
    by_contra hnear
    rw [← h.bid_isFar_iff hprice] at hnear
    have hpos := LomOrder.distancePoints_of_near hprice hnear
    rw [hsame.1, haskDistance] at hpos
    exact absurd hpos (lt_irrefl 0)
  · intro hfar
    have hbid := (h.bid_isFar_iff hprice).mpr hfar
    constructor
    · rw [LomOrder.distancePoints_of_far hprice hbid, haskDistance]
    constructor
    · exact h.sizePoints
    · rw [LomOrder.durationPoints_of_far hbid, LomOrder.durationPoints_of_far hask]

end Counterparts

/-! ## Exchanging the sides of a run -/

namespace PlacedOrder

variable (order : PlacedOrder) {r : Rounding}

variable (r) in
theorem exchanged_keeps :
    order.exchanged.marketID = order.marketID ∧ order.exchanged.accountID = order.accountID ∧
      order.exchanged.action = order.action ∧
      (order.exchanged.row r).isLive = (order.row r).isLive ∧
      (order.exchanged.row r).isOpen = (order.row r).isOpen := by
  unfold exchanged
  split
  · exact ⟨rfl, rfl, rfl, rfl, rfl⟩
  · exact ⟨rfl, rfl, rfl, rfl, rfl⟩

/-- A BUY and the BUY on the other side are counterparts, one way or the other. -/
theorem exchanged_counterparts (haction : order.action = .buy) :
    Counterparts order order.exchanged ∨ Counterparts order.exchanged order := by
  cases hside : order.side with
  | yes =>
      left
      constructor <;> simp [exchanged, haction, hside, flipSide]
  | no =>
      right
      constructor <;> simp [exchanged, haction, hside, flipSide]

theorem exchanged_samePoints_iff (haction : order.action = .buy) {currentMarketPrice : ℚ}
    (hprice : 0 < currentMarketPrice) (hnumber : r.round currentMarketPrice = currentMarketPrice)
    (now : Nat) :
    SamePoints r order order.exchanged currentMarketPrice now ↔
      order.IsFarFrom r currentMarketPrice := by
  cases order.exchanged_counterparts haction with
  | inl h => exact h.samePoints_iff hprice hnumber now
  | inr h =>
      have hlimit : order.exchanged.limitPrice r = order.limitPrice r := by
        rw [limitPrice, limitPrice, h.limitYesPrice]
      have hsym : SamePoints r order order.exchanged currentMarketPrice now ↔
          SamePoints r order.exchanged order currentMarketPrice now :=
        ⟨fun hs => ⟨hs.1.symm, hs.2.1.symm, hs.2.2.symm⟩,
          fun hs => ⟨hs.1.symm, hs.2.1.symm, hs.2.2.symm⟩⟩
      rw [hsym, h.samePoints_iff hprice hnumber now, IsFarFrom, IsFarFrom, hlimit]

end PlacedOrder

/-- What a run of the job reads, with the orders as they were placed. -/
structure PlacedRun (r : Rounding) where
  run : LomRun
  placed : List PlacedOrder
  orders_eq : run.orders = placed.map (·.row r)

namespace PlacedRun

variable {r : Rounding}

def exchanged (placedRun : PlacedRun r) : LomRun :=
  { placedRun.run with orders := placedRun.placed.map fun order => order.exchanged.row r }

variable (placedRun : PlacedRun r)

/-- The job scores the primary order at the market price. -/
structure Scores (market : LomMarket) (currentMarketPrice : ℚ) (order : PlacedOrder) : Prop where
  unresolved : market ∈ placedRun.run.unresolvedMarkets
  enabled : market.isLomEnabled = true
  price : (placedRun.run.getLatestPriceByMarket market.marketID).map r.round =
    some currentMarketPrice
  readable : placedRun.run.isReadable market.marketID order.accountID = true
  placed : order ∈ placedRun.placed
  inMarket : order.marketID = market.marketID
  isOpen : (order.row r).isOpen = true
  isPrimary : order.action = .buy

/-- Each scored order has the points of its counterpart, and no account's scores change when all
are exchanged. -/
def SidesAlike : Prop :=
  (∀ market currentMarketPrice order, placedRun.Scores market currentMarketPrice order →
    SamePoints r order order.exchanged currentMarketPrice placedRun.run.now) ∧
    placedRun.exchanged.lomScores r = placedRun.run.lomScores r

theorem Scores.price_round {placedRun : PlacedRun r} {market : LomMarket}
    {currentMarketPrice : ℚ} {order : PlacedOrder}
    (h : placedRun.Scores market currentMarketPrice order) :
    r.round currentMarketPrice = currentMarketPrice := by
  obtain ⟨price, _, rfl⟩ := Option.map_eq_some_iff.mp h.price
  exact r.idem price

def AllFar : Prop :=
  ∀ market currentMarketPrice order, placedRun.Scores market currentMarketPrice order →
    order.IsFarFrom r currentMarketPrice

def PricesProper : Prop :=
  ∀ market ∈ placedRun.run.unresolvedMarkets, ∀ currentMarketPrice,
    (placedRun.run.getLatestPriceByMarket market.marketID).map r.round = some currentMarketPrice →
    0 < currentMarketPrice ∧ currentMarketPrice < 1

variable {placedRun}

theorem filter_rows {f : PlacedOrder → LomOrder} {p : LomOrder → Bool}
    (h : ∀ order, p (f order) = p (order.row r)) (orders : List PlacedOrder) :
    (orders.map f).filter p = (orders.filter fun order => p (order.row r)).map f := by
  rw [List.filter_map]
  exact congrArg (List.map f) (List.filter_congr fun order _ => h order)

theorem accountIds_exchanged (marketID : Uint128) :
    placedRun.exchanged.getAllAccountIdsForMarketId marketID =
      placedRun.run.getAllAccountIdsForMarketId marketID := by
  let p : LomOrder → Bool := fun order => order.marketID == marketID && order.isLive
  have hp (order : PlacedOrder) : p (order.exchanged.row r) = p (order.row r) := by
    show (order.exchanged.marketID == marketID && (order.exchanged.row r).isLive) =
      (order.marketID == marketID && (order.row r).isLive)
    rw [(order.exchanged_keeps r).1, (order.exchanged_keeps r).2.2.2.1]
  have hids : ((placedRun.placed.filter fun order => p (order.row r)).map
        fun order => order.exchanged.row r).map (·.accountID) =
      ((placedRun.placed.filter fun order => p (order.row r)).map (·.row r)).map (·.accountID) := by
    rw [List.map_map, List.map_map]
    exact List.map_congr_left fun order _ => (order.exchanged_keeps r).2.1
  rw [LomRun.getAllAccountIdsForMarketId, LomRun.getAllAccountIdsForMarketId, placedRun.orders_eq]
  show (((placedRun.placed.map fun order => order.exchanged.row r).filter p).map
    (·.accountID)).dedup = (((placedRun.placed.map (·.row r)).filter p).map (·.accountID)).dedup
  rw [filter_rows hp, filter_rows (r := r) fun _ => rfl, hids]

variable (placedRun) in
/-- The open orders of an account in a market, before and after the exchange. -/
theorem openOrdersOf_eq (marketID : Uint128) (accountID : Str) :
    ∃ orders : List PlacedOrder,
      (∀ order ∈ orders, order ∈ placedRun.placed ∧ order.marketID = marketID ∧
        order.accountID = accountID ∧ (order.row r).isOpen = true) ∧
      placedRun.run.openOrdersOf marketID accountID = orders.map (·.row r) ∧
      placedRun.exchanged.openOrdersOf marketID accountID =
        orders.map fun order => order.exchanged.row r := by
  let p : LomOrder → Bool := fun order =>
    order.marketID == marketID && order.accountID == accountID && order.isOpen
  have hp (order : PlacedOrder) : p (order.exchanged.row r) = p (order.row r) := by
    show (order.exchanged.marketID == marketID && order.exchanged.accountID == accountID &&
        (order.exchanged.row r).isOpen) =
      (order.marketID == marketID && order.accountID == accountID && (order.row r).isOpen)
    rw [(order.exchanged_keeps r).1, (order.exchanged_keeps r).2.1, (order.exchanged_keeps r).2.2.2.2]
  refine ⟨placedRun.placed.filter fun order => p (order.row r), ?_, ?_, ?_⟩
  · intro order horder
    obtain ⟨hplaced, hselected⟩ := List.mem_filter.mp horder
    have hselected' : (order.marketID == marketID && order.accountID == accountID &&
        (order.row r).isOpen) = true := hselected
    simp only [Bool.and_eq_true, beq_iff_eq] at hselected'
    exact ⟨hplaced, hselected'.1.1, hselected'.1.2, hselected'.2⟩
  · rw [LomRun.openOrdersOf, placedRun.orders_eq]
    exact filter_rows (fun _ => rfl) placedRun.placed
  · exact filter_rows hp placedRun.placed

/-- Where each primary order has the points of its counterpart, the summary does not change. -/
theorem summarize_exchanged {orders : List PlacedOrder} {currentMarketPrice : ℚ} {now : Nat}
    (h : ∀ order ∈ orders, order.action = .buy →
      SamePoints r order order.exchanged currentMarketPrice now) :
    summarize r (orders.map fun order => order.exchanged.row r) currentMarketPrice now =
      summarize r (orders.map (·.row r)) currentMarketPrice now := by
  let primary : List PlacedOrder := orders.filter fun order => !(order.row r).isSecondary
  have hsecondary (order : PlacedOrder) :
      (!(order.exchanged.row r).isSecondary) = !(order.row r).isSecondary := by
    show (!(order.exchanged.action == .sell)) = !(order.action == .sell)
    rw [(order.exchanged_keeps r).2.2.1]
  have hsame : ∀ order ∈ primary, SamePoints r order order.exchanged currentMarketPrice now := by
    intro order horder
    obtain ⟨hmem, hcounted⟩ := List.mem_filter.mp horder
    apply h order hmem
    cases haction : order.action with
    | buy => rfl
    | sell => simp [PlacedOrder.row, haction] at hcounted
  have hpoints (points : LomOrder → ℚ)
      (heq : ∀ order ∈ primary, points (order.exchanged.row r) = points (order.row r)) :
      ((orders.map fun order => order.exchanged.row r).filter fun order =>
          !order.isSecondary).map points =
        ((orders.map (·.row r)).filter fun order => !order.isSecondary).map points := by
    rw [filter_rows hsecondary, filter_rows (r := r) fun _ => rfl, List.map_map, List.map_map]
    exact List.map_congr_left heq
  have hdistance := hpoints (·.distancePoints r currentMarketPrice)
    fun order horder => (hsame order horder).1.symm
  have hsize := hpoints (·.sizePoints r) fun order horder => (hsame order horder).2.1.symm
  have hduration := hpoints (·.durationPoints r currentMarketPrice now)
    fun order horder => (hsame order horder).2.2.symm
  simp only [summarize, hdistance, hsize, hduration]

theorem lomScores_exchanged
    (h : ∀ market currentMarketPrice order, placedRun.Scores market currentMarketPrice order →
      SamePoints r order order.exchanged currentMarketPrice placedRun.run.now) :
    placedRun.exchanged.lomScores r = placedRun.run.lomScores r := by
  apply List.flatMap_congr
  intro market hmarket
  unfold LomRun.marketEntries
  split
  · rfl
  next henabled =>
  cases hprice : placedRun.run.getLatestPriceByMarket market.marketID with
  | none =>
      have hnone : placedRun.exchanged.getLatestPriceByMarket market.marketID = none := hprice
      simp only [hnone]
  | some price =>
      have hsome : placedRun.exchanged.getLatestPriceByMarket market.marketID = some price := hprice
      simp only [hsome, accountIds_exchanged]
      apply List.map_congr_left
      intro accountID haccount
      obtain ⟨orders, horders, hrows, hexchanged⟩ :=
        placedRun.openOrdersOf_eq market.marketID accountID
      rw [hrows, hexchanged]
      congr 1
      apply summarize_exchanged
      intro order horder haction
      obtain ⟨hplaced, hmarketID, haccountID, hopen⟩ := horders order horder
      have hreadable : placedRun.run.isReadable market.marketID accountID = true :=
        (List.mem_filter.mp haccount).2
      have hcurrent : (placedRun.run.getLatestPriceByMarket market.marketID).map r.round =
          some (r.round price) := by rw [hprice, Option.map_some]
      exact h market (r.round price) order
        ⟨hmarket, by simpa using henabled, hcurrent, by rwa [haccountID], hplaced, hmarketID, hopen,
          haction⟩

theorem sidesAlike_iff (hprices : placedRun.PricesProper) :
    placedRun.SidesAlike ↔ placedRun.AllFar := by
  have horder {market : LomMarket} {currentMarketPrice : ℚ} {order : PlacedOrder}
      (hscores : placedRun.Scores market currentMarketPrice order) :
      SamePoints r order order.exchanged currentMarketPrice placedRun.run.now ↔
        order.IsFarFrom r currentMarketPrice :=
    order.exchanged_samePoints_iff hscores.isPrimary
      (hprices market hscores.unresolved currentMarketPrice hscores.price).1 hscores.price_round _
  constructor
  · intro halike market currentMarketPrice order hscores
    exact (horder hscores).mp (halike.1 market currentMarketPrice order hscores)
  · intro hfar
    have hsame : ∀ market currentMarketPrice order,
        placedRun.Scores market currentMarketPrice order →
          SamePoints r order order.exchanged currentMarketPrice placedRun.run.now :=
      fun market currentMarketPrice order hscores =>
        (horder hscores).mpr (hfar market currentMarketPrice order hscores)
    exact ⟨hsame, lomScores_exchanged hsame⟩

end PlacedRun

/-- Two counterparts earn the same exactly when their limit price is far from the market price, and
the sides of a run are exchanged without a change exactly when all its orders are far. -/
theorem bookSides_alike_iff {r : Rounding} {placedRun : PlacedRun r}
    (hprices : placedRun.PricesProper) :
    (∀ (bid ask : PlacedOrder) (currentMarketPrice : ℚ) (now : Nat), Counterparts bid ask →
      r.round currentMarketPrice = currentMarketPrice → 0 < currentMarketPrice →
      currentMarketPrice < 1 →
      (SamePoints r bid ask currentMarketPrice now ↔ bid.IsFarFrom r currentMarketPrice)) ∧
      (placedRun.SidesAlike ↔ placedRun.AllFar) := by
  constructor
  · intro bid ask currentMarketPrice now h hnumber hprice _
    exact h.samePoints_iff hprice hnumber now
  · exact PlacedRun.sidesAlike_iff hprices

/-! ## Orders in double precision -/

def sampleBuy (side : Side) (limitYesPrice : Nat) (h : limitYesPrice ≤ PrismV2.priceScale) :
    PlacedOrder where
  marketID := 7
  accountID := "0.0.1001".toList
  side
  action := .buy
  limitYesPrice
  limitYesPrice_le := h
  qtyOrig := 10
  qtyRem := 10
  createdAt := 0
  cancelledAt := false
  fullyMatchedAt := false
  evictedAt := false

theorem sampleBuy_counterparts (limitYesPrice : Nat) (h : limitYesPrice ≤ PrismV2.priceScale) :
    Counterparts (sampleBuy .yes limitYesPrice h) (sampleBuy .no limitYesPrice h) :=
  ⟨rfl, rfl, rfl, rfl, rfl, rfl, rfl, rfl⟩

/-- A fifth below a price of 0.4, which in double precision is more than a fifth. -/
def sampleFar (side : Side) : PlacedOrder := sampleBuy side 320000 (by decide)

def sampleFarRun : PlacedRun float64 where
  run := {
    cronRanAt := 0
    now := 0
    schedule := fun _ => false
    tokenDecimals := 6
    unresolvedMarkets := [⟨7, "testnet".toList, true⟩]
    orders := [(sampleFar .yes).row float64]
    getLatestPriceByMarket := fun _ => some (2 / 5)
    isReadable := fun _ _ => true }
  placed := [sampleFar .yes]
  orders_eq := rfl

theorem bookSides_alike_iff_sample :
    SamePoints float64 (sampleFar .yes) (sampleFar .no) (float64.round (2 / 5)) 0 ∧
      sampleFarRun.SidesAlike := by
  have hfar : (sampleFar .yes).IsFarFrom float64 (float64.round (2 / 5)) := by
    unfold PlacedOrder.IsFarFrom
    decide +kernel
  have hprice : 0 < float64.round (2 / 5) ∧ float64.round (2 / 5) < 1 := by decide +kernel
  have hproper : sampleFarRun.PricesProper := by
    intro market _ currentMarketPrice h
    cases h
    exact hprice
  have hall : sampleFarRun.AllFar := by
    intro market currentMarketPrice order hscores
    have h := hscores.price
    cases h
    rw [List.mem_singleton.mp hscores.placed]
    exact hfar
  constructor
  · exact ((bookSides_alike_iff hproper).1 (sampleFar .yes) (sampleFar .no) _ 0
      (sampleBuy_counterparts 320000 (by decide)) (float64.idem _) hprice.1 hprice.2).mpr hfar
  · exact (bookSides_alike_iff hproper).2.mpr hall

def sampleNear (side : Side) : PlacedOrder := sampleBuy side 500000 (by decide)

/-- At the market price the bid has the points of the best tier and the ask has none. -/
theorem bookSides_differ :
    Counterparts (sampleNear .yes) (sampleNear .no) ∧
      (sampleNear .yes).exchanged = sampleNear .no ∧
      ((sampleNear .yes).row float64).isOpen = true ∧
      ((sampleNear .no).row float64).isOpen = true ∧
      float64.round (1 / 2) = 1 / 2 ∧
      ((sampleNear .yes).row float64).distancePoints float64 (1 / 2) = 90 ∧
      ((sampleNear .no).row float64).distancePoints float64 (1 / 2) = 0 ∧
      (summarize float64 [(sampleNear .yes).row float64] (1 / 2) 0).lomScore ≠
        (summarize float64 [(sampleNear .no).row float64] (1 / 2) 0).lomScore := by
  refine ⟨sampleBuy_counterparts _ _, rfl, by decide +kernel, by decide +kernel, float64.half,
    ?_, ?_, ?_⟩
  · decide +kernel
  · decide +kernel
  · decide +kernel

end PrismBackend.Rewards
