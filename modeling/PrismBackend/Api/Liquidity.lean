import PrismBackend.Clob.MarketOrders
import PrismBackend.Api.SellAdmission

/-!
# API: the liquidity of a market order

A market order is admitted when the book holds its quantity on the other side.
The depth that is compared counts every resting order, whether or not the
market order can trade with it.
-/

namespace PrismBackend.Api

open PrismBackend.Lib PrismBackend.Clob PrismBackend.PrismV2

section Admission

variable {p : Platform} {sdk : Sdk} {req : PrismPredictionIntentRequest} {c : Draft} {book : Book}

def PassedLiquidity (req : PrismPredictionIntentRequest) (c : Draft) (book : Book) : Prop :=
  (checkLiquidity req c).Path [⟨.getMarketDepthQty req.marketId, .ok book.depth⟩] (.ret (.ok ()))

theorem isBid_clobRequest (hdraft : draftOrder p sdk req = .ok c) :
    isBid (clobRequest req) = c.isBid := by
  have hauth := newAuthorizationV2_assembled (draftOrder_ok hdraft)
  unfold Draft.isBid
  rw [hauth.side, hauth.action]
  rfl

/-- What was checked is a market order, for no more than the depth. -/
theorem PassedLiquidity.checked (h : PassedLiquidity req c book) :
    req.limitYesPrice = marketLimit c.isBid ∧
      req.qtyShares ≤ if c.isBid then book.depth.2 else book.depth.1 := by
  unfold PassedLiquidity checkLiquidity at h
  split at h
  · next hmarket =>
    obtain ⟨depth, earlier, later, hanswers, hask, hcheck⟩ := Program.path_andThen_ret h
    rw [Program.path_request (path_ask hask)] at hanswers
    simp only [List.cons_append, List.nil_append, List.cons.injEq, Sigma.mk.injEq, heq_eq_eq,
      Except.ok.injEq, true_and] at hanswers
    obtain ⟨rfl, rfl⟩ := hanswers
    have hok := (Program.path_ret_iff.mp hcheck).2
    rw [Program.ret.injEq, eq_comm, revertIf_ok_iff, not_lt] at hok
    constructor
    · cases hbid : c.isBid with
      | true =>
          rw [hbid] at hmarket
          have hlimit : req.limitYesPrice = PrismV2.priceScale := by simpa using hmarket
          exact hlimit
      | false =>
          rw [hbid] at hmarket
          have hlimit : req.limitYesPrice = 0 := by simpa using hmarket
          exact hlimit
    · exact hok
  · exact absurd (Program.path_ret_iff.mp h).1 (List.cons_ne_nil _ _)

theorem passedLiquidity_of (hlimit : req.limitYesPrice = marketLimit c.isBid)
    (hqty : req.qtyShares ≤ if c.isBid then book.depth.2 else book.depth.1) :
    PassedLiquidity req c book := by
  have hmarket : c.isBid ∧ req.limitYesPrice = PrismV2.priceScale ∨
      ¬c.isBid ∧ req.limitYesPrice = 0 := by
    cases hbid : c.isBid with
    | true =>
        rw [hbid] at hlimit
        exact Or.inl ⟨rfl, hlimit⟩
    | false =>
        rw [hbid] at hlimit
        exact Or.inr ⟨Bool.false_ne_true, hlimit⟩
  unfold PassedLiquidity checkLiquidity
  rw [if_pos hmarket]
  apply Program.Path.cons
  apply Program.path_ret_iff.mpr
  refine ⟨rfl, ?_⟩
  rw [eq_comm, Program.ret.injEq, revertIf_ok_iff, not_lt]
  exact hqty

/-- A market order that passed the check is filled completely exactly if the orders that it can
trade with, each as far as its cap and both legs allow, cover its quantity. -/
theorem market_order_fills_iff (hdraft : draftOrder p sdk req = .ok c)
    (hpassed : PassedLiquidity req c book) {now : Nat}
    (hcap : CapDoesNotBind book (clobRequest req) now) :
    FilledCompletely book (clobRequest req) now ↔
      Covers (book.offers (clobRequest req) now) req.qtyShares := by
  have hlimit : (clobRequest req).limitYesPrice = marketLimit (isBid (clobRequest req)) := by
    rw [isBid_clobRequest hdraft]
    exact hpassed.checked.1
  exact hcap.filledCompletely_iff hlimit

end Admission

/-! ## Sample market orders -/

def sampleMarketBuy : PrismPredictionIntentRequest :=
  { sampleRequest with
    verifyingContract := sampleProxy
    side := sideYes
    action := actionBuy
    limitYesPrice := 1000000
    qtyShares := 10
    collateralCap := 10 }

def sampleMarketOrder : CreateOrderRequestClob := clobRequest sampleMarketBuy

def sampleAsks : List CreateOrderRequestClob :=
  [{ sampleMarketOrder with
      txId := "t1".toList, action := actionSell, limitYesPrice := 400000, qtyShares := 10 },
    { sampleMarketOrder with
      txId := "t2".toList, accountId := "0.0.1002".toList, evmAddress := "b".toList
      action := actionSell, limitYesPrice := 500000, qtyShares := 20 }]

theorem sampleMarketOrder_roomy : Roomy sampleMarketOrder := by
  intro _ _
  decide +kernel

theorem sampleMarketBuy_passes {c : Draft}
    (hc : draftOrder samplePlatform sampleSdk sampleMarketBuy = .ok c) {book : Book}
    (hdepth : 10 ≤ book.depth.2) : PassedLiquidity sampleMarketBuy c book := by
  have hbid : c.isBid = true := by
    rw [← isBid_clobRequest hc]
    rfl
  apply passedLiquidity_of
  · rw [hbid]
    rfl
  · rw [hbid]
    exact hdepth

theorem sampleMarketBuy_draft :
    ∃ c, draftOrder samplePlatform sampleSdk sampleMarketBuy = .ok c := by
  have hdraft : (draftOrder samplePlatform sampleSdk sampleMarketBuy).toOption.isSome = true := by
    decide +kernel
  exact exists_ok hdraft

/-- The other account's order covers the quantity. -/
theorem market_order_fills_sample : ∃ c,
    draftOrder samplePlatform sampleSdk sampleMarketBuy = .ok c ∧
      PassedLiquidity sampleMarketBuy c ⟨[], sampleAsks⟩ ∧
      FilledCompletely ⟨[], sampleAsks⟩ sampleMarketOrder 100 := by
  obtain ⟨c, hc⟩ := sampleMarketBuy_draft
  have hpasses : PassedLiquidity sampleMarketBuy c ⟨[], sampleAsks⟩ :=
    sampleMarketBuy_passes hc (by decide +kernel)
  refine ⟨c, hc, hpasses, ?_⟩
  apply (market_order_fills_iff hc hpasses (sampleMarketOrder_roomy.capDoesNotBind rfl)).mpr
  decide +kernel

/-- The account's own order counts as depth, and is not traded with. -/
theorem own_order_is_no_liquidity : ∃ p sdk req c book now,
    draftOrder p sdk req = .ok c ∧ PassedLiquidity req c book ∧
      CapDoesNotBind book (clobRequest req) now ∧ expired (clobRequest req) now = false ∧
      ¬FilledCompletely book (clobRequest req) now := by
  obtain ⟨c, hc⟩ := sampleMarketBuy_draft
  refine ⟨samplePlatform, sampleSdk, sampleMarketBuy, c, ⟨[], sampleAsks.take 1⟩, 100, hc,
    sampleMarketBuy_passes hc (by decide +kernel), sampleMarketOrder_roomy.capDoesNotBind rfl,
    by decide +kernel, ?_⟩
  rw [filledCompletely_iff]
  decide +kernel

end PrismBackend.Api
