import PrismBackend.Lib.Offers
import PrismBackend.Clob.Conservation
import PrismBackend.Clob.NoFill

/-!
# CLOB: market orders

An order with its limit at the extreme of the range meets every order of the
other side that has a price. What it gets from the book is what it can take of
their offers, one after the other.
-/

namespace PrismBackend.Clob

open PrismBackend.Lib

/-! ## Depth -/

def sumRemaining (orders : List CreateOrderRequestClob) : Nat :=
  orders.foldl (fun acc o => saturatingAdd acc (remainingShares o)) 0

/-- `get_market_depth_shares`: the unfilled shares that rest on each side, bids and asks. -/
def Book.depth (book : Book) : Nat × Nat := (sumRemaining book.bids, sumRemaining book.asks)

/-! ## What a resting order offers -/

def leastFill (price : Nat) : Nat := (priceScale - 1) / price + 1

/-- The largest fill at its own limit that the cap of an order allows. -/
def affordable (o : CreateOrderRequestClob) : Nat :=
  let room := o.collateralCap - o.collateralFilled
  if o.action ≠ actionBuy ∨ 2 ^ 64 - 1 ≤ o.collateralCap then remainingShares o
  else if o.collateralCap < o.collateralFilled then 0
  else if o.side = sideYes then ((room + 1) * priceScale - 1) / o.limitYesPrice
  else room * priceScale / (priceScale - o.limitYesPrice)

def offerOf (resting : CreateOrderRequestClob) : Offer where
  least := leastFill resting.limitYesPrice
  most := min (remainingShares resting) (affordable resting)

/-- Another trader's order that is not about to expire and has a price. -/
def eligible (incoming : CreateOrderRequestClob) (now : Nat) (resting : CreateOrderRequestClob) :
    Bool :=
  !expired resting now && !sameTrader incoming resting && usablePrice resting.limitYesPrice

def offersTo (incoming : CreateOrderRequestClob) (now : Nat)
    (opposite : List CreateOrderRequestClob) : List Offer :=
  (opposite.filter (eligible incoming now)).map offerOf

/-- The offers that an order meets in a book, the best price first. None are left to an order that
is about to expire. -/
def Book.offers (book : Book) (incoming : CreateOrderRequestClob) (now : Nat) : List Offer :=
  if expired incoming now then []
  else offersTo incoming now
    (if isBid incoming then sortAsks book.asks else sortBids book.bids)

/-! ## Fills at the limit of the resting order -/

section Fill

variable {incoming resting o : CreateOrderRequestClob} {incomingIsBid : Bool} {price fill : Nat}

/-- The cap of an order leaves it room for every fill up to its remainder. -/
def Roomy (o : CreateOrderRequestClob) : Prop :=
  o.action = actionBuy → o.collateralCap < 2 ^ 64 - 1 →
    o.collateralFilled + remainingShares o ≤ o.collateralCap

theorem usablePrice_iff : usablePrice price = true ↔ 0 < price ∧ price < priceScale :=
  decide_eq_true_iff

theorem leg_le (o : CreateOrderRequestClob) (hprice : price < priceScale) (fill : Nat) :
    legCollateral o (yesLeg price fill) (noLeg price fill) ≤ fill := by
  unfold legCollateral
  split
  · exact lower_le (fill, price) hprice.le
  · exact Nat.sub_le ..

theorem Roomy.capKept (h : Roomy o) (hprice : price < priceScale)
    (hfill : fill ≤ remainingShares o) :
    CapKept (filledBy o fill (yesLeg price fill) (noLeg price fill)) := by
  intro hcap hbuy
  have hroom := h hbuy hcap
  have hleg := leg_le o hprice fill
  show o.collateralFilled + legCollateral o _ _ ≤ o.collateralCap
  omega

theorem Roomy.filledBy (h : Roomy o) (hprice : price < priceScale)
    (hfill : fill ≤ remainingShares o) :
    Roomy (Clob.filledBy o fill (yesLeg price fill) (noLeg price fill)) := by
  intro hbuy hcap
  have hroom := h hbuy hcap
  have hleg := leg_le o hprice fill
  show o.collateralFilled + legCollateral o _ _ + (o.qtyShares - (o.sharesFilled + fill)) ≤
    o.collateralCap
  unfold remainingShares at hroom hfill
  omega

theorem leastFill_pos (price : Nat) : 0 < leastFill price := Nat.succ_pos _

theorem leastFill_le_iff (hprice : 0 < price) : leastFill price ≤ fill ↔ 0 < yesLeg price fill := by
  have hscale : 0 < priceScale := by decide
  show (priceScale - 1) / price + 1 ≤ fill ↔ 0 < fill * price / priceScale
  rw [Nat.succ_le_iff, Nat.div_lt_iff_lt_mul hprice, Nat.div_pos_iff]
  omega

theorem noLeg_pos (hprice : price < priceScale) (hfill : 0 < fill) : 0 < noLeg price fill := by
  have hlt : fill * price / priceScale < fill :=
    (Nat.div_lt_iff_lt_mul (by decide)).mpr (Nat.mul_lt_mul_of_pos_left hprice hfill)
  exact Nat.sub_pos_of_lt hlt

theorem yesLeg_le_iff (hprice : 0 < price) {room : Nat} :
    yesLeg price fill ≤ room ↔ fill ≤ ((room + 1) * priceScale - 1) / price := by
  have hscale : 0 < (room + 1) * priceScale := Nat.mul_pos (Nat.succ_pos room) (by decide)
  unfold yesLeg lower
  rw [← Nat.lt_succ_iff, Nat.div_lt_iff_lt_mul (by decide), Nat.le_div_iff_mul_le hprice]
  show fill * price < (room + 1) * priceScale ↔ _
  omega

theorem noLeg_le_iff (hprice : price < priceScale) {room : Nat} :
    noLeg price fill ≤ room ↔ fill ≤ room * priceScale / (priceScale - price) := by
  have hsplit : fill * (priceScale - price) = fill * priceScale - fill * price := Nat.mul_sub ..
  rw [Nat.le_div_iff_mul_le (Nat.sub_pos_of_lt hprice), hsplit]
  calc noLeg price fill ≤ room ↔ fill - room ≤ fill * price / priceScale := by
        show fill - fill * price / priceScale ≤ room ↔ _
        generalize fill * price / priceScale = yes
        omega
    _ ↔ (fill - room) * priceScale ≤ fill * price := Nat.le_div_iff_mul_le (by decide)
    _ ↔ fill * priceScale - fill * price ≤ room * priceScale := by
        rw [Nat.sub_mul]
        omega

/-- The cap of a resting order in terms of the size of the fill. -/
theorem capKept_iff (hprice : usablePrice o.limitYesPrice = true) (hpos : 0 < fill)
    (hfill : fill ≤ remainingShares o) :
    CapKept (filledBy o fill (yesLeg o.limitYesPrice fill) (noLeg o.limitYesPrice fill)) ↔
      fill ≤ affordable o := by
  obtain ⟨hpricePos, hpriceLt⟩ := usablePrice_iff.mp hprice
  have hkept : CapKept (filledBy o fill (yesLeg o.limitYesPrice fill)
      (noLeg o.limitYesPrice fill)) ↔ (o.collateralCap < 2 ^ 64 - 1 → o.action = actionBuy →
        o.collateralFilled + legCollateral o (yesLeg o.limitYesPrice fill)
          (noLeg o.limitYesPrice fill) ≤ o.collateralCap) := Iff.rfl
  rw [hkept]
  unfold affordable
  split
  · next hfree =>
    apply iff_of_true _ hfill
    intro hcap hbuy
    omega
  · next hbound =>
    rw [not_or, not_not, not_le] at hbound
    obtain ⟨hbuy, hcap⟩ := hbound
    simp only [hbuy, hcap, true_imp_iff]
    split
    · next hover =>
      apply iff_of_false
      · omega
      · omega
    · next hover =>
      -- the leg fits what the cap leaves
      have hroom : o.collateralFilled + legCollateral o (yesLeg o.limitYesPrice fill)
          (noLeg o.limitYesPrice fill) ≤ o.collateralCap ↔
            legCollateral o (yesLeg o.limitYesPrice fill) (noLeg o.limitYesPrice fill) ≤
              o.collateralCap - o.collateralFilled := by
        omega
      rw [hroom, legCollateral]
      split
      · exact yesLeg_le_iff hpricePos
      · exact noLeg_le_iff hpriceLt

/-- The feasible fills against a priced order are the parts of its offer. -/
theorem feasible_iff (hroomy : Roomy incoming) (hprice : usablePrice resting.limitYesPrice = true) :
    Feasible CapKept (bidAsk incomingIsBid incoming resting).1
        (bidAsk incomingIsBid incoming resting).2 resting.limitYesPrice
        (min (remainingShares incoming) (remainingShares resting)) fill ↔
      (offerOf resting).Takes (remainingShares incoming) fill := by
  obtain ⟨hpricePos, hpriceLt⟩ := usablePrice_iff.mp hprice
  constructor
  · intro h
    obtain ⟨hincoming, hresting⟩ := le_min_iff.mp h.le
    have hkept : CapKept (filledBy resting fill (yesLeg resting.limitYesPrice fill)
        (noLeg resting.limitYesPrice fill)) := by
      cases incomingIsBid with
      | true => exact h.ask
      | false => exact h.bid
    constructor
    · exact (leastFill_le_iff hpricePos).mpr h.yes_pos
    · exact le_min hresting ((capKept_iff hprice h.pos hresting).mp hkept)
    · exact hincoming
  · intro h
    obtain ⟨hresting, hafford⟩ := le_min_iff.mp h.most
    have hpos : 0 < fill := (leastFill_pos _).trans_le h.least
    have hkept := (capKept_iff hprice hpos hresting).mpr hafford
    have hkept' := hroomy.capKept hpriceLt h.wanted
    have hyes := (leastFill_le_iff hpricePos).mp h.least
    have hno := noLeg_pos hpriceLt hpos
    have hle := le_min h.wanted hresting
    cases incomingIsBid with
    | true => exact ⟨hpos, hle, hyes, hno, hkept', hkept⟩
    | false => exact ⟨hpos, hle, hyes, hno, hkept, hkept'⟩

/-- A priced order of another trader fills an order with room by the part that it offers. -/
theorem tryFill_eq (hroomy : Roomy incoming) (htrader : sameTrader incoming resting = false)
    (hprice : usablePrice resting.limitYesPrice = true) :
    tryFill incomingIsBid incoming resting =
      if (offerOf resting).least ≤ min (remainingShares incoming) (offerOf resting).most then
        some (min (remainingShares incoming) (offerOf resting).most, resting.limitYesPrice)
      else none := by
  have hexecution : executionPrice resting incoming = some resting.limitYesPrice := by
    simp [executionPrice, hprice]
  have hset : {f | Feasible CapKept (bidAsk incomingIsBid incoming resting).1
      (bidAsk incomingIsBid incoming resting).2 resting.limitYesPrice
      (min (remainingShares incoming) (remainingShares resting)) f} =
      {f | (offerOf resting).Takes (remainingShares incoming) f} := by
    ext f
    exact feasible_iff hroomy hprice
  split
  · next hleast =>
    have hfill := maxFill_eq_some_iff.mpr (hset ▸ isGreatest_part hleast)
    simp [tryFill, htrader, hexecution, hfill]
  · next hleast =>
    apply tryFill_eq_none_iff.mpr
    refine Or.inr (Or.inr ⟨_, hexecution, maxFill_eq_none_iff.mpr ?_⟩)
    intro f hf
    exact not_takes hleast f ((feasible_iff hroomy hprice).mp hf)

end Fill

/-! ## The walk of a market order -/

def marketLimit (incomingIsBid : Bool) : Nat := if incomingIsBid then priceScale else 0

section Walk

variable {now : Nat} {incomingIsBid : Bool} {incoming resting : CreateOrderRequestClob}
  {opposite : List CreateOrderRequestClob}

theorem usablePrice_marketLimit (incomingIsBid : Bool) :
    usablePrice (marketLimit incomingIsBid) = false := by
  cases incomingIsBid <;> rfl

theorem crosses_market (hlimit : incoming.limitYesPrice = marketLimit incomingIsBid)
    (hprice : usablePrice resting.limitYesPrice = true) :
    crosses (bidAsk incomingIsBid incoming resting).1 (bidAsk incomingIsBid incoming resting).2 =
      true := by
  have hlt := (usablePrice_iff.mp hprice).2
  cases incomingIsBid with
  | true =>
      have hmost : incoming.limitYesPrice = priceScale := hlimit
      show decide (resting.limitYesPrice ≤ incoming.limitYesPrice) = true
      rw [decide_eq_true_iff, hmost]
      exact hlt.le
  | false =>
      have hnone : incoming.limitYesPrice = 0 := hlimit
      show decide (incoming.limitYesPrice ≤ resting.limitYesPrice) = true
      rw [decide_eq_true_iff, hnone]
      exact Nat.zero_le _

/-- Behind an order that a market order does not meet there is none that has a price. -/
theorem no_offers_beyond (hlimit : incoming.limitYesPrice = marketLimit incomingIsBid)
    (hsorted : incomingIsBid = true →
      (resting :: opposite).Pairwise fun a b => a.limitYesPrice ≤ b.limitYesPrice)
    (hcrosses : crosses (bidAsk incomingIsBid incoming resting).1
      (bidAsk incomingIsBid incoming resting).2 = false) :
    offersTo incoming now (resting :: opposite) = [] := by
  have hnone : ∀ o ∈ resting :: opposite, eligible incoming now o = false := by
    intro o ho
    have hprice : usablePrice o.limitYesPrice = false := by
      rw [Bool.eq_false_iff]
      intro husable
      have hhead : usablePrice resting.limitYesPrice = false := by
        rw [Bool.eq_false_iff]
        intro hresting
        rw [crosses_market hlimit hresting] at hcrosses
        exact absurd hcrosses (by decide)
      cases incomingIsBid with
      | true =>
          have hmost : incoming.limitYesPrice = priceScale := hlimit
          have hbeyond : ¬resting.limitYesPrice ≤ incoming.limitYesPrice :=
            of_decide_eq_false hcrosses
          have hle : resting.limitYesPrice ≤ o.limitYesPrice := by
            rcases List.mem_cons.mp ho with rfl | ho
            · exact le_rfl
            · exact (List.pairwise_cons.mp (hsorted rfl)).1 o ho
          have hlt := (usablePrice_iff.mp husable).2
          omega
      | false =>
          have hzero : incoming.limitYesPrice = 0 := hlimit
          have hbeyond : ¬incoming.limitYesPrice ≤ resting.limitYesPrice :=
            of_decide_eq_false hcrosses
          omega
    simp [eligible, hprice]
  unfold offersTo
  rw [List.filter_eq_nil_iff.mpr fun o ho => by simp [hnone o ho]]
  rfl

theorem offers_least_pos (incoming : CreateOrderRequestClob) (now : Nat)
    (opposite : List CreateOrderRequestClob) :
    ∀ offer ∈ offersTo incoming now opposite, 0 < offer.least := by
  intro offer hoffer
  obtain ⟨resting, _, rfl⟩ := List.mem_map.mp hoffer
  exact leastFill_pos _

theorem offersTo_cons_eligible (h : eligible incoming now resting = true) :
    offersTo incoming now (resting :: opposite) =
      offerOf resting :: offersTo incoming now opposite := by
  unfold offersTo
  rw [List.filter_cons_of_pos h, List.map_cons]

theorem offersTo_cons_ineligible (h : eligible incoming now resting = false) :
    offersTo incoming now (resting :: opposite) = offersTo incoming now opposite := by
  unfold offersTo
  rw [List.filter_cons_of_neg (by simp [h])]

theorem remainingShares_filledBy (o : CreateOrderRequestClob) (fill yes no : Nat) :
    remainingShares (filledBy o fill yes no) = remainingShares o - fill := Nat.sub_add_eq ..

theorem legs_of_tryFill {fill price : Nat}
    (h : tryFill incomingIsBid incoming resting = some (fill, price)) :
    (splitCollateral fill price).getD (0, 0) = (yesLeg price fill, noLeg price fill) := by
  obtain ⟨_, _, hfill⟩ := tryFill_eq_some h
  obtain ⟨_, _, yes, no, hsplit⟩ := maxFill_eq_some hfill
  obtain ⟨hyes, hno, _⟩ := splitCollateral_eq_some hsplit
  rw [hsplit, Option.getD_some, hno, hyes]
  rfl

/-- The fills of a market order are the parts that it takes of the offers. -/
theorem fills_matchLoop (hlimit : incoming.limitYesPrice = marketLimit incomingIsBid)
    (hroomy : Roomy incoming) (hsorted : incomingIsBid = true →
      opposite.Pairwise fun a b => a.limitYesPrice ≤ b.limitYesPrice) :
    (matchLoop now incomingIsBid opposite incoming).matches_.map (·.fillShares) =
      parts (offersTo incoming now opposite) (remainingShares incoming) := by
  induction opposite generalizing incoming with
  | nil => rfl
  | cons resting rest ih =>
      have hrest : incomingIsBid = true →
          rest.Pairwise fun a b => a.limitYesPrice ≤ b.limitYesPrice :=
        fun h => (List.pairwise_cons.mp (hsorted h)).2
      rw [matchLoop]
      split
      · next hdone =>
        rw [hdone, parts_zero (offers_least_pos incoming now (resting :: rest))]
        rfl
      split
      · next hexpired =>
        rw [offersTo_cons_ineligible (by simp [eligible, hexpired])]
        exact ih hlimit hroomy hrest
      split
      · next hbeyond =>
        rw [no_offers_beyond hlimit hsorted (by simpa using hbeyond)]
        rfl
      · next hexpired hcrosses =>
        cases htrader : sameTrader incoming resting with
        | true =>
            rw [tryFill_eq_none_iff.mpr (Or.inl htrader),
              offersTo_cons_ineligible (by simp [eligible, htrader])]
            exact ih hlimit hroomy hrest
        | false =>
            cases hprice : usablePrice resting.limitYesPrice with
            | false =>
                have hnone : executionPrice resting incoming = none := by
                  rw [executionPrice_eq_none_iff, hlimit]
                  exact ⟨hprice, usablePrice_marketLimit incomingIsBid⟩
                rw [tryFill_eq_none_iff.mpr (Or.inr (Or.inl hnone)),
                  offersTo_cons_ineligible (by simp [eligible, hprice])]
                exact ih hlimit hroomy hrest
            | true =>
                rw [offersTo_cons_eligible (by simp [eligible, hexpired, htrader, hprice]), parts]
                have hfill : tryFill incomingIsBid incoming resting = _ :=
                  tryFill_eq hroomy htrader hprice
                by_cases hleast : (offerOf resting).least ≤
                    min (remainingShares incoming) (offerOf resting).most
                · rw [if_pos hleast] at hfill ⊢
                  rw [hfill]
                  dsimp only
                  rw [legs_of_tryFill hfill]
                  have hlt := (usablePrice_iff.mp hprice).2
                  have hroomy' := hroomy.filledBy hlt (Nat.min_le_left _ (offerOf resting).most)
                  have hnext := (ih · hroomy' hrest) hlimit
                  rw [remainingShares_filledBy] at hnext
                  split
                  · exact congrArg _ hnext
                  · exact congrArg _ hnext
                · rw [if_neg hleast] at hfill ⊢
                  rw [hfill]
                  exact ih hlimit hroomy hrest

theorem sum_fills_matchLoop (now : Nat) (incomingIsBid : Bool)
    (opposite : List CreateOrderRequestClob) (incoming : CreateOrderRequestClob) :
    ((matchLoop now incomingIsBid opposite incoming).matches_.map (·.fillShares)).sum +
        remainingShares (matchLoop now incomingIsBid opposite incoming).incoming =
      remainingShares incoming := by
  induction opposite generalizing incoming with
  | nil => exact Nat.zero_add _
  | cons resting rest ih =>
      rw [matchLoop]
      split
      · exact Nat.zero_add _
      split
      · exact ih incoming
      split
      · exact Nat.zero_add _
      · cases hfill : tryFill incomingIsBid incoming resting with
        | none => exact ih incoming
        | some found =>
            obtain ⟨fill, price⟩ := found
            obtain ⟨_, _, hmax⟩ := tryFill_eq_some hfill
            have hle := (le_min_iff.mp (maxFill_eq_some hmax).1).1
            have hrest := ih (filledBy incoming fill ((splitCollateral fill price).getD (0, 0)).1
              ((splitCollateral fill price).getD (0, 0)).2)
            rw [remainingShares_filledBy] at hrest
            dsimp only
            split
            · simp only [List.map_cons, List.sum_cons]
              omega
            · simp only [List.map_cons, List.sum_cons]
              omega

end Walk

/-! ## Orders that fill completely -/

def Book.fillsOf (book : Book) (o : CreateOrderRequestClob) (now : Nat) : List Nat :=
  (book.add o now).matches_.map (·.fillShares)

def Book.ownSide (book : Book) (o : CreateOrderRequestClob) : List CreateOrderRequestClob :=
  if isBid o then book.bids else book.asks

/-- All that was left of the order is filled, and none of it rests. -/
structure FilledCompletely (book : Book) (o : CreateOrderRequestClob) (now : Nat) : Prop where
  fills : (book.fillsOf o now).sum = remainingShares o
  unrested : (book.add o now).book.ownSide o = book.ownSide o

/-- With a larger cap the order would have had the same fills. -/
def CapDoesNotBind (book : Book) (o : CreateOrderRequestClob) (now : Nat) : Prop :=
  ∀ cap, o.collateralCap ≤ cap →
    book.fillsOf { o with collateralCap := cap } now = book.fillsOf o now

section Book

variable {book : Book} {o : CreateOrderRequestClob} {now : Nat}

theorem filledCompletely_iff :
    FilledCompletely book o now ↔ (book.fillsOf o now).sum = remainingShares o := by
  constructor
  · exact FilledCompletely.fills
  · intro hsum
    refine ⟨hsum, ?_⟩
    unfold Book.fillsOf at hsum
    unfold Book.add at hsum ⊢
    split at hsum
    · next hdropped =>
      rw [if_pos hdropped]
    · next hdropped =>
      rw [if_neg hdropped]
      unfold Book.ownSide
      split at hsum
      · next hbid =>
        have htotal := sum_fills_matchLoop now true (sortAsks book.asks) o
        rw [if_pos hbid, if_pos hbid, if_pos hbid]
        exact if_pos (Nat.add_left_cancel (htotal.trans hsum.symm))
      · next hbid =>
        have htotal := sum_fills_matchLoop now false (sortBids book.bids) o
        rw [if_neg hbid, if_neg hbid, if_neg hbid]
        exact if_pos (Nat.add_left_cancel (htotal.trans hsum.symm))

theorem sortAsks_pairwise (asks : List CreateOrderRequestClob) :
    (sortAsks asks).Pairwise fun a b => a.limitYesPrice ≤ b.limitYesPrice :=
  have : Std.Total fun a b : CreateOrderRequestClob => a.limitYesPrice ≤ b.limitYesPrice :=
    ⟨fun _ _ => Nat.le_total ..⟩
  have : IsTrans CreateOrderRequestClob fun a b => a.limitYesPrice ≤ b.limitYesPrice :=
    ⟨fun _ _ _ => Nat.le_trans⟩
  List.pairwise_insertionSort _ asks

theorem fillsOf_roomy (hlimit : o.limitYesPrice = marketLimit (isBid o)) (hroomy : Roomy o) :
    book.fillsOf o now = parts (book.offers o now) (remainingShares o) := by
  unfold Book.fillsOf Book.add Book.offers
  split
  · next hdropped =>
    split
    · rfl
    · next hexpired =>
      have hnone : remainingShares o = 0 := hdropped.resolve_left hexpired
      rw [hnone, parts_zero (offers_least_pos o now _)]
      rfl
  · next hlive =>
    rw [not_or] at hlive
    rw [if_neg hlive.1]
    split
    · next hbid =>
      rw [hbid] at hlimit
      exact fills_matchLoop hlimit hroomy fun _ => sortAsks_pairwise book.asks
    · next hbid =>
      rw [Bool.eq_false_iff.mpr hbid] at hlimit
      exact fills_matchLoop hlimit hroomy fun h => absurd h (by decide)

theorem Roomy.capDoesNotBind (hlimit : o.limitYesPrice = marketLimit (isBid o))
    (hroomy : Roomy o) : CapDoesNotBind book o now := by
  intro cap hcap
  have hmore : Roomy { o with collateralCap := cap } := by
    intro hbuy hfinite
    have hfits := hroomy hbuy (hcap.trans_lt hfinite)
    exact hfits.trans hcap
  rw [fillsOf_roomy hlimit hroomy]
  exact fillsOf_roomy (o := { o with collateralCap := cap }) hlimit hmore

/-- A market order whose cap does not bind is filled completely exactly if the offers cover it. -/
theorem CapDoesNotBind.filledCompletely_iff (hcap : CapDoesNotBind book o now)
    (hlimit : o.limitYesPrice = marketLimit (isBid o)) :
    FilledCompletely book o now ↔ Covers (book.offers o now) (remainingShares o) := by
  have hfree : Roomy { o with collateralCap := max o.collateralCap (2 ^ 64 - 1) } := by
    intro _ hfinite
    exact absurd hfinite (not_lt.mpr (le_max_right ..))
  rw [Clob.filledCompletely_iff, ← hcap _ (le_max_left _ (2 ^ 64 - 1)),
    fillsOf_roomy (o := { o with collateralCap := max o.collateralCap (2 ^ 64 - 1) }) hlimit hfree]
  rfl

end Book

end PrismBackend.Clob
