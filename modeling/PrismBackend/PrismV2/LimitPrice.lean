import PrismBackend.Lib.FloorSplit
import PrismBackend.PrismV2.Legs

/-!
# PrismV2: the limit price over many fills

The collateral an order pays or receives over all its fills, against its limit
price. Rounding costs a SELL YES and a BUY NO less than one unit per fill, and
the other two kinds nothing.
-/

namespace PrismBackend.PrismV2

open PrismBackend.Lib

/-- The fills of an order in a run, each with its execution price. -/
def fillsOf (x : Authorization) (receipts : List Receipt) : List (Nat × Nat) :=
  receipts.filterMap fun r => r.tx.call.fillOf x

def settlesOf (x : Authorization) (receipts : List Receipt) : List Receipt :=
  receipts.filter fun r => (r.tx.call.fillOf x).isSome

def paidFor (x : Authorization) (receipts : List Receipt) : Nat :=
  ((settlesOf x receipts).map fun r =>
    r.before.collateral x.signer - r.after.collateral x.signer).sum

def receivedFor (x : Authorization) (receipts : List Receipt) : Nat :=
  ((settlesOf x receipts).map fun r =>
    r.after.collateral x.signer - r.before.collateral x.signer).sum

theorem fillCollateral_yes {x : Authorization} (h : x.side = .yes) (fill : Nat × Nat) :
    fillCollateral x fill.1 fill.2 = lower priceScale fill := by
  simp [fillCollateral, legCollateral, h, yesCollateral, lower]

theorem fillCollateral_no {x : Authorization} (h : x.side = .no) (fill : Nat × Nat) :
    fillCollateral x fill.1 fill.2 = upper priceScale fill := by
  simp [fillCollateral, legCollateral, h, noCollateral, yesCollateral, upper, lower]

theorem receipt_leg {c : Chain} {s : State} {txs : List Tx} {r : Receipt}
    (hr : r ∈ trace c s txs) {x : Authorization} {fill : Nat × Nat}
    (hfill : r.tx.call.fillOf x = some fill) :
    fill.2 < priceScale ∧ (∃ signature, Valid c r.tx.env r.before x signature fill.2) ∧
      LegDone r.before r.after x fill.1 (fillCollateral x fill.1 fill.2) := by
  have hexec := (trace_preserves (P := fun _ => True) (fun _ _ _ _ _ => trivial) trivial hr).2
  exact effect_leg (exec_effect hexec) hfill

theorem mem_fillsOf {x : Authorization} {receipts : List Receipt} {fill : Nat × Nat} :
    fill ∈ fillsOf x receipts ↔ ∃ r ∈ receipts, r.tx.call.fillOf x = some fill := by
  simp [fillsOf]

/-- A sum over the settlements of an order is a sum over its fills, when the two agree
receipt by receipt. -/
theorem sum_settlesOf {x : Authorization} {receipts : List Receipt} {moved : Receipt → Nat}
    {leg : Nat × Nat → Nat}
    (h : ∀ r ∈ receipts, ∀ fill, r.tx.call.fillOf x = some fill → moved r = leg fill) :
    ((settlesOf x receipts).map moved).sum = ((fillsOf x receipts).map leg).sum := by
  induction receipts with
  | nil => rfl
  | cons r receipts ih =>
      have htail := ih fun r' hr' => h r' (List.mem_cons_of_mem _ hr')
      unfold settlesOf fillsOf at htail ⊢
      cases hfill : r.tx.call.fillOf x with
      | none => simpa [hfill] using htail
      | some fill =>
          have hhead := h r List.mem_cons_self fill hfill
          simp only [List.filter_cons, List.filterMap_cons, hfill, Option.isSome_some, if_true,
            List.map_cons, List.sum_cons, hhead, htail]

section Totals

variable {c : Chain} {s : State} {txs : List Tx} {x : Authorization}

theorem paidFor_eq (hbuy : x.action = .buy) :
    paidFor x (trace c s txs) =
      ((fillsOf x (trace c s txs)).map fun fill => fillCollateral x fill.1 fill.2).sum := by
  apply sum_settlesOf
  intro r hr fill hfill
  have hleg := (receipt_leg hr hfill).2.2.paid hbuy
  omega

theorem receivedFor_eq (hsell : x.action = .sell) :
    receivedFor x (trace c s txs) =
      ((fillsOf x (trace c s txs)).map fun fill => fillCollateral x fill.1 fill.2).sum := by
  apply sum_settlesOf
  intro r hr fill hfill
  have hleg := (receipt_leg hr hfill).2.2.received hsell
  omega

theorem fillsOf_within {fill : Nat × Nat} (hfill : fill ∈ fillsOf x (trace c s txs)) :
    fill.2 < priceScale ∧ x.limitYesPrice ≤ priceScale ∧ ¬limitViolated x fill.2 := by
  obtain ⟨r, hr, hr'⟩ := mem_fillsOf.mp hfill
  obtain ⟨hprice, ⟨_, hvalid⟩, _⟩ := receipt_leg hr hr'
  exact ⟨hprice, hvalid.limitYesPrice, hvalid.limit⟩

theorem sum_fillCollateral_yes (h : x.side = .yes) (fills : List (Nat × Nat)) :
    (fills.map fun fill => fillCollateral x fill.1 fill.2).sum =
      (fills.map (lower priceScale)).sum :=
  congrArg List.sum (List.map_congr_left fun fill _ => fillCollateral_yes h fill)

theorem sum_fillCollateral_no (h : x.side = .no) (fills : List (Nat × Nat)) :
    (fills.map fun fill => fillCollateral x fill.1 fill.2).sum =
      (fills.map (upper priceScale)).sum :=
  congrArg List.sum (List.map_congr_left fun fill _ => fillCollateral_no h fill)

end Totals

/-- In every run, an order that has settled at least one fill paid or received in total what
its limit price allows, up to one unit per fill where its side rounds against it. -/
theorem limit_price_protected {c : Chain} (d : Deployment c) (txs : List Tx) (x : Authorization)
    (hfilled : fillsOf x (trace c d.state txs) ≠ []) :
    let receipts := trace c d.state txs
    let k := (fillsOf x receipts).length
    let shares := quantity (fillsOf x receipts)
    x.limitYesPrice ≤ priceScale ∧
    (x.action = .buy → x.side = .yes →
      paidFor x receipts ≤ shares * x.limitYesPrice / priceScale) ∧
    (x.action = .sell → x.side = .yes →
      shares * x.limitYesPrice < (receivedFor x receipts + k) * priceScale) ∧
    (x.action = .buy → x.side = .no →
      paidFor x receipts * priceScale <
        shares * (priceScale - x.limitYesPrice) + k * priceScale) ∧
    (x.action = .sell → x.side = .no →
      shares * (priceScale - x.limitYesPrice) ≤ receivedFor x receipts * priceScale) := by
  have hscale : 0 < priceScale := by decide
  have hlimit : x.limitYesPrice ≤ priceScale := by
    obtain ⟨fill, hfill⟩ := List.exists_mem_of_ne_nil _ hfilled
    exact (fillsOf_within hfill).2.1
  have hwithin (fill : Nat × Nat) (hfill : fill ∈ fillsOf x (trace c d.state txs)) :=
    fillsOf_within hfill
  simp only [limitViolated, not_or, not_and, not_lt] at hwithin
  refine ⟨hlimit, ?_, ?_, ?_, ?_⟩
  · intro hbuy hyes
    rw [paidFor_eq hbuy, sum_fillCollateral_yes hyes]
    exact sum_lower_le hscale fun fill hfill => (hwithin fill hfill).2.2.1 hyes hbuy
  · intro hsell hyes
    rw [receivedFor_eq hsell, sum_fillCollateral_yes hyes]
    exact lt_sum_lower hscale (fun fill hfill => (hwithin fill hfill).2.2.2.1 hyes hsell) hfilled
  · intro hbuy hno
    rw [paidFor_eq hbuy, sum_fillCollateral_no hno]
    refine sum_upper_lt hscale (fun fill hfill => ?_) hfilled
    obtain ⟨hprice, _, _, _, hlow, _⟩ := hwithin fill hfill
    exact ⟨hlow hno hbuy, hprice.le⟩
  · intro hsell hno
    rw [receivedFor_eq hsell, sum_fillCollateral_no hno]
    exact le_sum_upper (fun fill hfill => (hwithin fill hfill).2.2.2.2.2 hno hsell) hlimit

theorem limit_price_protected_sample :
    let receipts := trace sampleChain (sampleDeployment sampleChain rfl).state sampleTrades
    paidFor (sampleOrder 5 1 .yes .buy) receipts ≤
      quantity (fillsOf (sampleOrder 5 1 .yes .buy) receipts) * 500000 / priceScale :=
  (limit_price_protected (sampleDeployment sampleChain rfl) sampleTrades
    (sampleOrder 5 1 .yes .buy) (List.cons_ne_nil (101, 500000) [])).2.1 rfl rfl

end PrismBackend.PrismV2
