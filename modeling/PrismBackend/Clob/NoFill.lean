import PrismBackend.Clob.LargestFill

/-!
# CLOB: fills that do not happen

Why two orders that cross may both go on resting. A fill that is ruled out stays
ruled out while the two orders are filled further, and after a fill that is not
all of the smaller remainder one of the two caps is used up to the unit.
-/

namespace PrismBackend.Clob

open PrismBackend.Lib

/-! ## An order after some fills -/

def Later (o o' : CreateOrderRequestClob) : Prop :=
  ∃ shares collateral, o' = { o with
    sharesFilled := o.sharesFilled + shares
    collateralFilled := o.collateralFilled + collateral }

theorem Later.refl (o : CreateOrderRequestClob) : Later o o := ⟨0, 0, rfl⟩

theorem Later.trans {o o' o'' : CreateOrderRequestClob} (h : Later o o') (h' : Later o' o'') :
    Later o o'' := by
  obtain ⟨shares, collateral, rfl⟩ := h
  obtain ⟨shares', collateral', rfl⟩ := h'
  exact ⟨shares + shares', collateral + collateral', by simp only [Nat.add_assoc]⟩

theorem later_filledBy (o : CreateOrderRequestClob) (fill yes no : Nat) :
    Later o (filledBy o fill yes no) := ⟨fill, legCollateral o yes no, rfl⟩

section Later

variable {bid ask bid' ask' incoming incoming' resting resting' : CreateOrderRequestClob}

theorem Later.limit (h : Later incoming incoming') :
    incoming'.limitYesPrice = incoming.limitYesPrice := by
  obtain ⟨_, _, rfl⟩ := h
  rfl

theorem Later.isBid (h : Later incoming incoming') :
    Clob.isBid incoming' = Clob.isBid incoming := by
  obtain ⟨_, _, rfl⟩ := h
  rfl

theorem Later.remaining_le (h : Later incoming incoming') :
    remainingShares incoming' ≤ remainingShares incoming := by
  obtain ⟨shares, _, rfl⟩ := h
  show incoming.qtyShares - (incoming.sharesFilled + shares) ≤ _
  unfold remainingShares
  omega

theorem Later.capKept (h : Later incoming incoming') {fill yes no : Nat}
    (hkept : CapKept (filledBy incoming' fill yes no)) :
    CapKept (filledBy incoming fill yes no) := by
  obtain ⟨_, collateral, rfl⟩ := h
  intro hcap hbuy
  have hle := hkept hcap hbuy
  show incoming.collateralFilled + legCollateral incoming yes no ≤ incoming.collateralCap
  have hsum : incoming.collateralFilled + collateral + legCollateral incoming yes no ≤
      incoming.collateralCap := hle
  omega

theorem Feasible.before {price limit limit' fill : Nat} (hbid : Later bid bid')
    (hask : Later ask ask') (hlimit : limit' ≤ limit)
    (h : Feasible CapKept bid' ask' price limit' fill) :
    Feasible CapKept bid ask price limit fill :=
  ⟨h.pos, h.le.trans hlimit, h.yes_pos, h.no_pos, hbid.capKept h.bid, hask.capKept h.ask⟩

theorem executionPrice_later (hincoming : Later incoming incoming')
    (hresting : Later resting resting') :
    executionPrice resting' incoming' = executionPrice resting incoming := by
  unfold executionPrice
  rw [hincoming.limit, hresting.limit]

theorem sameTrader_later (hincoming : Later incoming incoming')
    (hresting : Later resting resting') :
    sameTrader incoming' resting' = sameTrader incoming resting := by
  obtain ⟨_, _, rfl⟩ := hincoming
  obtain ⟨_, _, rfl⟩ := hresting
  rfl

theorem Later.bidAsk (incomingIsBid : Bool) (hincoming : Later incoming incoming')
    (hresting : Later resting resting') :
    Later (Clob.bidAsk incomingIsBid incoming resting).1
        (Clob.bidAsk incomingIsBid incoming' resting').1 ∧
      Later (Clob.bidAsk incomingIsBid incoming resting).2
        (Clob.bidAsk incomingIsBid incoming' resting').2 := by
  cases incomingIsBid with
  | true => exact ⟨hincoming, hresting⟩
  | false => exact ⟨hresting, hincoming⟩

end Later

/-! ## Fills that do not happen -/

section NoFill

variable {incomingIsBid : Bool} {incoming incoming' resting resting' : CreateOrderRequestClob}

theorem executionPrice_eq_none_iff :
    executionPrice resting incoming = none ↔
      usablePrice resting.limitYesPrice = false ∧ usablePrice incoming.limitYesPrice = false := by
  simp [executionPrice]

/-- An order comes past a resting one without a fill: the same trader, no price, or no fill that
both caps and both legs allow. -/
theorem tryFill_eq_none_iff :
    tryFill incomingIsBid incoming resting = none ↔
      sameTrader incoming resting = true ∨ executionPrice resting incoming = none ∨
        ∃ price, executionPrice resting incoming = some price ∧
          maxFill (bidAsk incomingIsBid incoming resting).1
            (bidAsk incomingIsBid incoming resting).2 price
            (min (remainingShares incoming) (remainingShares resting)) = none := by
  unfold tryFill
  cases htrader : sameTrader incoming resting with
  | true => simp
  | false =>
      cases hprice : executionPrice resting incoming with
      | none => simp
      | some price =>
          cases hfill : maxFill (bidAsk incomingIsBid incoming resting).1
              (bidAsk incomingIsBid incoming resting).2 price
              (min (remainingShares incoming) (remainingShares resting)) with
          | none => simp [hfill]
          | some fill => simp [hfill]

theorem tryFill_none_later (h : tryFill incomingIsBid incoming resting = none)
    (hincoming : Later incoming incoming') (hresting : Later resting resting') :
    tryFill incomingIsBid incoming' resting' = none := by
  rw [tryFill_eq_none_iff] at h ⊢
  rw [sameTrader_later hincoming hresting, executionPrice_later hincoming hresting]
  rcases h with htrader | hprice | ⟨price, hprice, hfill⟩
  · exact Or.inl htrader
  · exact Or.inr (Or.inl hprice)
  · refine Or.inr (Or.inr ⟨price, hprice, ?_⟩)
    rw [maxFill_eq_none_iff] at hfill ⊢
    intro f hf
    obtain ⟨hbid, hask⟩ := hincoming.bidAsk incomingIsBid hresting
    have hlimit : min (remainingShares incoming') (remainingShares resting') ≤
        min (remainingShares incoming) (remainingShares resting) :=
      min_le_min hincoming.remaining_le hresting.remaining_le
    exact hfill f (hf.before hbid hask hlimit)

/-- One share more is too much for a cap, so the fill has used the cap up and no further leg
fits. -/
theorem cap_used_up {o : CreateOrderRequestClob} {price fill next yes no : Nat}
    (hprice : price ≤ priceScale)
    (hkept : CapKept (filledBy o fill (yesLeg price fill) (noLeg price fill)))
    (hpast : ¬CapKept (filledBy o (fill + 1) (yesLeg price (fill + 1)) (noLeg price (fill + 1))))
    (hyes : 0 < yes) (hno : 0 < no) :
    ¬CapKept (filledBy (filledBy o fill (yesLeg price fill) (noLeg price fill)) next yes no) := by
  have hyesStep : yesLeg price (fill + 1) ≤ yesLeg price fill + (fill + 1 - fill) :=
    lower_le_add (by decide) hprice (Nat.le_succ fill)
  have hnoStep : noLeg price (fill + 1) ≤ noLeg price fill + (fill + 1 - fill) :=
    upper_le_add (Nat.le_succ fill)
  intro hnext
  apply hpast
  intro hcap hbuy
  have hused : o.collateralFilled + legCollateral o (yesLeg price fill) (noLeg price fill) ≤
      o.collateralCap := hkept hcap hbuy
  have hmore : o.collateralFilled + legCollateral o (yesLeg price fill) (noLeg price fill) +
      legCollateral o yes no ≤ o.collateralCap := hnext hcap hbuy
  show o.collateralFilled + legCollateral o (yesLeg price (fill + 1)) (noLeg price (fill + 1)) ≤
    o.collateralCap
  by_cases hside : o.side = sideYes
  · simp only [legCollateral, if_pos hside] at hused hmore ⊢
    omega
  · simp only [legCollateral, if_neg hside] at hused hmore ⊢
    omega

/-- After a fill that is not all of the limit, the two orders admit no further one. -/
theorem maxFill_after {bid ask : CreateOrderRequestClob} {price limit fill : Nat}
    (h : maxFill bid ask price limit = some fill) (hlt : fill < limit) (price' limit' : Nat) :
    maxFill (filledBy bid fill (yesLeg price fill) (noLeg price fill))
      (filledBy ask fill (yesLeg price fill) (noLeg price fill)) price' limit' = none := by
  obtain ⟨hfeasible, hgreatest⟩ := maxFill_isGreatest h
  have hprice : price ≤ priceScale := hfeasible.price_lt.2.2.le
  rw [maxFill_eq_none_iff]
  intro next hnext
  have hpast : ¬Feasible CapKept bid ask price limit (fill + 1) := by
    intro hmore
    have hle := hgreatest hmore
    omega
  -- the legs of one share more are positive as well, so it is a cap that rules it out
  have hcaps : ¬CapKept (filledBy bid (fill + 1) (yesLeg price (fill + 1))
        (noLeg price (fill + 1))) ∨
      ¬CapKept (filledBy ask (fill + 1) (yesLeg price (fill + 1)) (noLeg price (fill + 1))) := by
    by_contra hboth
    rw [not_or, not_not, not_not] at hboth
    exact hpast ⟨by omega, by omega, hfeasible.yes_pos.trans_le (lower_mono (Nat.le_succ fill)),
      hfeasible.no_pos.trans_le (upper_mono (by decide) hprice (Nat.le_succ fill)), hboth.1,
      hboth.2⟩
  rcases hcaps with hbid | hask
  · exact cap_used_up hprice hfeasible.bid hbid hnext.yes_pos hnext.no_pos hnext.bid
  · exact cap_used_up hprice hfeasible.ask hask hnext.yes_pos hnext.no_pos hnext.ask

theorem fillMatch_legs {fill price : Nat}
    (h : tryFill incomingIsBid incoming resting = some (fill, price)) :
    (fillMatch incomingIsBid incoming resting fill price).yesCollateral = yesLeg price fill ∧
      (fillMatch incomingIsBid incoming resting fill price).noCollateral = noLeg price fill := by
  obtain ⟨_, _, hfill⟩ := tryFill_eq_some h
  obtain ⟨_, _, yes, no, hsplit⟩ := maxFill_eq_some hfill
  obtain ⟨hyes, hno, _⟩ := splitCollateral_eq_some hsplit
  simp only [fillMatch, hsplit, Option.getD_some]
  exact ⟨hyes, by rw [hno, hyes]; rfl⟩

/-- After a fill that leaves both orders open, they admit no further one. -/
theorem tryFill_after {fill price : Nat}
    (h : tryFill incomingIsBid incoming resting = some (fill, price))
    (hincoming : remainingShares (filledBy incoming fill (yesLeg price fill)
      (noLeg price fill)) ≠ 0)
    (hresting : remainingShares (filledBy resting fill (yesLeg price fill)
      (noLeg price fill)) ≠ 0) :
    tryFill incomingIsBid (filledBy incoming fill (yesLeg price fill) (noLeg price fill))
      (filledBy resting fill (yesLeg price fill) (noLeg price fill)) = none := by
  obtain ⟨_, hprice, hfill⟩ := tryFill_eq_some h
  have hleft (o : CreateOrderRequestClob) :
      remainingShares (filledBy o fill (yesLeg price fill) (noLeg price fill)) =
        remainingShares o - fill := Nat.sub_add_eq _ _ _
  have hlt : fill < min (remainingShares incoming) (remainingShares resting) := by
    rw [hleft] at hincoming hresting
    omega
  have hnone := maxFill_after hfill hlt price
    (min (remainingShares (filledBy incoming fill (yesLeg price fill) (noLeg price fill)))
      (remainingShares (filledBy resting fill (yesLeg price fill) (noLeg price fill))))
  rw [tryFill_eq_none_iff, executionPrice_later (later_filledBy incoming _ _ _)
    (later_filledBy resting _ _ _)]
  refine Or.inr (Or.inr ⟨price, hprice, ?_⟩)
  cases incomingIsBid with
  | true => exact hnone
  | false => exact hnone

end NoFill

end PrismBackend.Clob
