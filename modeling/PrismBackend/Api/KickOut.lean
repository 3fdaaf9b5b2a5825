import Mathlib.Data.List.Perm.Basic
import PrismBackend.Lib.RunningTotal
import PrismBackend.Api.Creation

/-!
# API: the kick-out of unfunded orders

What `CronKickOutUnfundedService` decides about the open orders of one account in
one market: the BUY orders that its collateral does not cover, and the SELL orders
that its shares do not cover.
-/

namespace PrismBackend.Api

open PrismBackend.Lib PrismBackend.Clob PrismBackend.PrismV2

/-! ## The job -/

section Job

variable (uuid : Uuid)

/-- `validateAndKickoutBuyOrders`: the orders that it evicts, by a running sum of the remaining
caps. A row that does not read as an order is skipped. -/
def validateAndKickoutBuyOrders (available : Nat) :
    Nat → List PredictionIntent → List PredictionIntent
  | _, [] => []
  | required, pi :: buyOrders =>
    match clobOrderFromIntent uuid pi with
    | .error _ => validateAndKickoutBuyOrders available required buyOrders
    | .ok order =>
      let required :=
        if order.collateralCap > order.collateralFilled then
          add64 required (sub64 order.collateralCap order.collateralFilled)
        else required
      let evicted := validateAndKickoutBuyOrders available required buyOrders
      if required > available then pi :: evicted else evicted

/-- The loop of `validateAndKickoutSellOrders`, with one running sum for each outcome. -/
def kickOutSells (yesBalance noBalance : Nat) :
    Nat → Nat → List PredictionIntent → List PredictionIntent
  | _, _, [] => []
  | requiredYes, requiredNo, pi :: sellOrders =>
    match clobOrderFromIntent uuid pi with
    | .error _ => kickOutSells yesBalance noBalance requiredYes requiredNo sellOrders
    | .ok order =>
      let remaining := sub64 order.qtyShares order.sharesFilled
      if order.side = Clob.sideYes then
        let requiredYes := add64 requiredYes remaining
        let evicted := kickOutSells yesBalance noBalance requiredYes requiredNo sellOrders
        if requiredYes > yesBalance then pi :: evicted else evicted
      else
        let requiredNo := add64 requiredNo remaining
        let evicted := kickOutSells yesBalance noBalance requiredYes requiredNo sellOrders
        if requiredNo > noBalance then pi :: evicted else evicted

/-- `validateAndKickoutSellOrders`: the balances are those of the first order's signer. -/
def validateAndKickoutSellOrders (getUserPositionBalancesV2 : Str → Except String (Nat × Nat)) :
    List PredictionIntent → List PredictionIntent
  | [] => []
  | first :: rest =>
    match getUserPositionBalancesV2 first.evmaddress with
    | .error _ => []
    | .ok (yesBalance, noBalance) => kickOutSells uuid yesBalance noBalance 0 0 (first :: rest)

def PredictionIntent.isBuyOrder (pi : PredictionIntent) : Bool := pi.action.getD 0 = actionBuy

def kickOutOrderIntents (allowance usdcBalance : Nat)
    (getUserPositionBalancesV2 : Str → Except String (Nat × Nat))
    (usersOpenPredictionIntents : List PredictionIntent) : List PredictionIntent :=
  validateAndKickoutBuyOrders uuid (min allowance usdcBalance) 0
      (usersOpenPredictionIntents.filter (·.isBuyOrder)) ++
    validateAndKickoutSellOrders uuid getUserPositionBalancesV2
      (usersOpenPredictionIntents.filter (!·.isBuyOrder))

/-! ## What an order still asks for -/

def isReadable (pi : PredictionIntent) : Bool :=
  match clobOrderFromIntent uuid pi with
  | .error _ => false
  | .ok _ => true

def capLeft (pi : PredictionIntent) : Nat :=
  match clobOrderFromIntent uuid pi with
  | .error _ => 0
  | .ok order => order.collateralCap - order.collateralFilled

variable {uuid}

theorem parseNumeric_lt {value : Option Nat} {n : Nat} (h : parseNumeric value = .ok n) :
    n < 2 ^ 64 := by
  cases value with
  | none => exact absurd h (by simp [parseNumeric])
  | some m =>
      simp only [parseNumeric, parseUint, bind_ok_iff, revertIf_ok_iff, exists_const,
        Except.ok.injEq, not_le] at h
      rw [← h.2]
      exact h.1

theorem authorizationFromIntent_lt {terms : OrderTerms} {a : AuthorizationV2}
    (h : authorizationFromIntent uuid terms = .ok a) :
    a.qtyShares < 2 ^ 64 ∧ a.collateralCap < 2 ^ 64 := by
  unfold authorizationFromIntent at h
  split at h
  · simp only [bind_ok_iff, mapError_ok_iff] at h
    obtain ⟨qty, hqty, cap, hcap, hassemble⟩ := h
    have hassembled := newAuthorizationV2_assembled hassemble
    rw [hassembled.qtyShares, hassembled.collateralCap]
    exact ⟨parseNumeric_lt hqty, parseNumeric_lt hcap⟩
  · exact absurd h (by simp)

theorem clobOrderFromIntent_fields {pi : PredictionIntent} {order : CreateOrderRequestClob}
    (h : clobOrderFromIntent uuid pi = .ok order) :
    order.qtyShares < 2 ^ 64 ∧ order.collateralCap < 2 ^ 64 ∧
      order.sharesFilled = pi.sharesFilled ∧ order.collateralFilled = pi.collateralFilled := by
  simp only [clobOrderFromIntent, bind_ok_iff, mapError_ok_iff, parseUint, revertIf_ok_iff,
    exists_const, Except.ok.injEq] at h
  obtain ⟨a, ha, _, ⟨_, rfl⟩, _, ⟨_, rfl⟩, rfl⟩ := h
  obtain ⟨hqty, hcap⟩ := authorizationFromIntent_lt ha
  exact ⟨hqty, hcap, rfl, rfl⟩

/-- As long as the running sum fits a word, the evicted orders are those beyond the budget. -/
theorem kickOutBuys_eq {available required : Nat} {rows : List PredictionIntent}
    (h : required + totalCost (capLeft uuid) (rows.filter (isReadable uuid)) < 2 ^ 64) :
    validateAndKickoutBuyOrders uuid available required rows =
      overBudget (capLeft uuid) available required (rows.filter (isReadable uuid)) := by
  induction rows generalizing required with
  | nil => rfl
  | cons pi rows ih =>
      cases horder : clobOrderFromIntent uuid pi with
      | error err =>
          have hread : isReadable uuid pi = false := by simp only [isReadable, horder]
          rw [List.filter_cons_of_neg (by rw [hread]; decide)] at h ⊢
          rw [validateAndKickoutBuyOrders]
          simp only [horder]
          exact ih h
      | ok order =>
          have hread : isReadable uuid pi = true := by simp only [isReadable, horder]
          have hleft : capLeft uuid pi = order.collateralCap - order.collateralFilled := by
            simp only [capLeft, horder]
          rw [List.filter_cons_of_pos hread] at h ⊢
          rw [totalCost_cons] at h
          have hsum : (if order.collateralCap > order.collateralFilled then
              add64 required (sub64 order.collateralCap order.collateralFilled) else required) =
              required + capLeft uuid pi := by
            rw [hleft]
            split
            · next hlt =>
              rw [sub64_eq (clobOrderFromIntent_fields horder).2.1 (Nat.le_of_lt hlt)]
              exact add64_eq (by omega)
            · next hge => omega
          rw [validateAndKickoutBuyOrders, overBudget]
          simp only [horder, hsum]
          rw [ih (by omega)]

theorem validateAndKickoutBuyOrders_sublist (uuid : Uuid) (available required : Nat)
    (rows : List PredictionIntent) :
    (validateAndKickoutBuyOrders uuid available required rows).Sublist rows := by
  induction rows generalizing required with
  | nil => exact List.Sublist.slnil
  | cons pi rows ih =>
      rw [validateAndKickoutBuyOrders]
      cases clobOrderFromIntent uuid pi with
      | error err => exact (ih _).cons pi
      | ok order =>
          dsimp only
          generalize (if order.collateralCap > order.collateralFilled then _ else required) = total
          split
          · exact (ih _).cons_cons pi
          · exact (ih _).cons pi

theorem kickOutSells_sublist (uuid : Uuid) (yesBalance noBalance requiredYes requiredNo : Nat)
    (rows : List PredictionIntent) :
    (kickOutSells uuid yesBalance noBalance requiredYes requiredNo rows).Sublist rows := by
  induction rows generalizing requiredYes requiredNo with
  | nil => exact List.Sublist.slnil
  | cons pi rows ih =>
      rw [kickOutSells]
      cases clobOrderFromIntent uuid pi with
      | error err => exact (ih _ _).cons pi
      | ok order =>
          dsimp only
          split
          · split
            · exact (ih _ _).cons_cons pi
            · exact (ih _ _).cons pi
          · split
            · exact (ih _ _).cons_cons pi
            · exact (ih _ _).cons pi

theorem validateAndKickoutSellOrders_sublist (uuid : Uuid)
    (getUserPositionBalancesV2 : Str → Except String (Nat × Nat)) (rows : List PredictionIntent) :
    (validateAndKickoutSellOrders uuid getUserPositionBalancesV2 rows).Sublist rows := by
  cases rows with
  | nil => exact List.Sublist.slnil
  | cons first rest =>
      rw [validateAndKickoutSellOrders]
      cases getUserPositionBalancesV2 first.evmaddress with
      | error err => exact List.nil_sublist _
      | ok balances => exact kickOutSells_sublist uuid _ _ _ _ _

end Job

/-! ## BUY orders -/

/-- The open BUY orders of an account in a market, oldest first: a table keeps its rows in the
order of their creation. -/
def Db.openBuyOrders (db : Db) (uuid : Uuid) (marketID : Uint128) (accountID : Str) :
    List PredictionIntent :=
  (db.openPredictionIntentsOf marketID accountID).filter fun pi =>
    isReadable uuid pi && pi.isBuyOrder

/-- The loop over the delivered orders keeps the longest part of the orders, from the oldest on,
that fits the available collateral, and no sum that it forms leaves the word. -/
structure KeepsOldest (uuid : Uuid) (available : Nat) (oldest delivered : List PredictionIntent) :
    Prop where
  fitsWord : ∀ part, part <+: delivered.filter (isReadable uuid) →
    totalCost (capLeft uuid) part < 2 ^ 64
  keeps : ∃ kept, LongestFitting (capLeft uuid) available oldest kept ∧
    ∀ pi ∈ oldest, pi ∈ validateAndKickoutBuyOrders uuid available 0 delivered ↔ pi ∉ kept

/-- The database returns the open orders in any order. For all of them the job keeps the oldest
BUY orders exactly if all fit the available collateral, or none does and the sum fits a word. -/
theorem kickOutBuys_keepsOldest_iff (db : Db) (uuid : Uuid) (marketID : Uint128) (accountID : Str)
    (available : Fin (2 ^ 64)) :
    (∀ delivered : List PredictionIntent,
      delivered.Perm (db.openPredictionIntentsOf marketID accountID) →
      KeepsOldest uuid available.val (db.openBuyOrders uuid marketID accountID)
        (delivered.filter (·.isBuyOrder))) ↔
      totalCost (capLeft uuid) (db.openBuyOrders uuid marketID accountID) ≤ available.val ∨
      (∀ pi ∈ db.openBuyOrders uuid marketID accountID, available.val < capLeft uuid pi) ∧
        totalCost (capLeft uuid) (db.openBuyOrders uuid marketID accountID) < 2 ^ 64 := by
  have hnodup : (db.openBuyOrders uuid marketID accountID).Nodup :=
    ((db.nodup_openPredictionIntentsOf marketID accountID).of_map _).filter _
  have hread : ∀ delivered : List PredictionIntent,
      (delivered.filter (·.isBuyOrder)).filter (isReadable uuid) =
        delivered.filter fun pi => isReadable uuid pi && pi.isBuyOrder := fun delivered =>
    List.filter_filter
  unfold Db.openBuyOrders at *
  generalize db.openPredictionIntentsOf marketID accountID = rows at *
  have hany := overBudget_any_order_iff (capLeft uuid) available hnodup
  have hloop : ∀ delivered : List PredictionIntent, delivered.Perm rows →
      totalCost (capLeft uuid) (rows.filter fun pi => isReadable uuid pi && pi.isBuyOrder) <
        2 ^ 64 →
      validateAndKickoutBuyOrders uuid available 0 (delivered.filter (·.isBuyOrder)) =
        overBudget (capLeft uuid) available 0
          (delivered.filter fun pi => isReadable uuid pi && pi.isBuyOrder) := by
    intro delivered hperm hfits
    rw [kickOutBuys_eq, hread]
    rw [hread, totalCost_perm (hperm.filter _), Nat.zero_add]
    exact hfits
  constructor
  · intro h
    have hfits : totalCost (capLeft uuid)
        (rows.filter fun pi => isReadable uuid pi && pi.isBuyOrder) < 2 ^ 64 := by
      have hall := (h rows (List.Perm.refl _)).fitsWord _ List.prefix_rfl
      rwa [hread] at hall
    refine (hany.mp ?_).imp_right fun hnone => ⟨hnone, hfits⟩
    intro xs hxs
    -- the orders in the given order, and after them what the loop does not count
    have hperm : (xs ++ rows.filter fun pi => !(isReadable uuid pi && pi.isBuyOrder)).Perm rows :=
      (hxs.append_right _).trans (List.filter_append_perm _ rows)
    obtain ⟨kept, hkept, hsingled⟩ := (h _ hperm).keeps
    rw [hloop _ hperm hfits, List.filter_append] at hsingled
    have hxsRead : xs.filter (fun pi => isReadable uuid pi && pi.isBuyOrder) = xs :=
      List.filter_eq_self.mpr fun pi hpi => (List.mem_filter.mp (hxs.subset hpi)).2
    have hrest : (rows.filter fun pi => !(isReadable uuid pi && pi.isBuyOrder)).filter
        (fun pi => isReadable uuid pi && pi.isBuyOrder) = [] := by
      rw [List.filter_filter]
      exact List.filter_eq_nil_iff.mpr fun pi _ => by simp
    rw [hxsRead, hrest, List.append_nil] at hsingled
    exact ⟨kept, hkept, hsingled⟩
  · intro h delivered hperm
    have hfits : totalCost (capLeft uuid)
        (rows.filter fun pi => isReadable uuid pi && pi.isBuyOrder) < 2 ^ 64 := by
      rcases h with htotal | hnone
      · exact htotal.trans_lt available.isLt
      · exact hnone.2
    refine ⟨?_, ?_⟩
    · intro part hpart
      rw [hread] at hpart
      refine lt_of_le_of_lt ?_ hfits
      rw [← totalCost_perm (hperm.filter _)]
      obtain ⟨rest, hrest⟩ := hpart
      rw [← hrest, totalCost_append]
      exact Nat.le_add_right _ _
    · rw [hloop delivered hperm hfits]
      exact hany.mpr (h.imp_right And.left) _ (hperm.filter _)

/-! ## Samples -/

/-- An open order in market 7, of the account `0.0.5`. -/
def sampleOpenOrder (txID signer : Uint128) (side action qtyShares collateralCap deadline : Nat) :
    PredictionIntent := .new {
  txID
  net := "testnet".toList
  marketID := 7
  accountID := "0.0.5".toList
  sig := []
  publicKeyHex := []
  evmaddress := List.replicate 8 '0' ++ (uuidText signer).filter (· != '-')
  keytype := 1
  protocolVersion := 2
  chainID := some 296
  verifyingContract := some (List.replicate 40 '1')
  side := some side
  action := some action
  limitYesPrice := some 500000
  qtyShares := some qtyShares
  collateralCap := some collateralCap
  deadline := some deadline }

def sampleOpenDb (rows : List PredictionIntent) : Db where
  intents := rows.foldl Table.insert .empty
  matches_ := .empty
  markets := Table.empty.insert ⟨7, [], 1000, false, false, false, false⟩

/-- Of two orders with caps of 60 and 50, and 100 available, the older is evicted when the
database returns the younger one first. -/
theorem kickOut_evicts_oldest :
    let db := sampleOpenDb [sampleOpenOrder 1 5 0 0 100 60 900, sampleOpenOrder 2 5 0 0 100 50 900]
    ∃ delivered : List PredictionIntent,
      delivered.Perm (db.openPredictionIntentsOf 7 "0.0.5".toList) ∧
      ¬KeepsOldest sampleUuid 100 (db.openBuyOrders sampleUuid 7 "0.0.5".toList)
        (delivered.filter (·.isBuyOrder)) := by
  intro db
  refine ⟨[sampleOpenOrder 2 5 0 0 100 50 900, sampleOpenOrder 1 5 0 0 100 60 900],
    List.Perm.swap _ _ _, ?_⟩
  intro h
  obtain ⟨kept, hkept, hevicted⟩ := h.keeps
  have hread : ∀ pi ∈ [sampleOpenOrder 1 5 0 0 100 60 900, sampleOpenOrder 2 5 0 0 100 50 900],
      isReadable sampleUuid pi && pi.isBuyOrder := by
    decide +kernel
  have holdest : db.openBuyOrders sampleUuid 7 "0.0.5".toList =
      [sampleOpenOrder 1 5 0 0 100 60 900, sampleOpenOrder 2 5 0 0 100 50 900] :=
    List.filter_eq_self.mpr hread
  rw [holdest] at hkept hevicted
  -- the older order fits by itself, so the longest part holds it
  have hfirst : [sampleOpenOrder 1 5 0 0 100 60 900] <+: kept :=
    hkept.longest _ ⟨_, rfl⟩ (by decide +kernel)
  have hmem : sampleOpenOrder 1 5 0 0 100 60 900 ∈ kept := hfirst.subset List.mem_cons_self
  apply (hevicted _ List.mem_cons_self).mp _ hmem
  rw [kickOutBuys_eq (by decide +kernel), List.filter_eq_self.mpr (by decide +kernel),
    List.filter_eq_self.mpr (by decide +kernel)]
  have hboth : 100 < totalCost (capLeft sampleUuid)
      ([sampleOpenOrder 2 5 0 0 100 50 900] ++ [sampleOpenOrder 1 5 0 0 100 60 900]) := by
    decide +kernel
  exact mem_overBudget_last hboth

end PrismBackend.Api
