import PrismBackend.Api.KickOut
import PrismBackend.Api.SellAdmission

/-!
# API: what expired orders hold back

An order expires without a change of its row, and the open orders of an account
are read without a look at their deadlines. The check of a SELL and the kick-out
are compared on the open orders with and without the expired ones.
-/

namespace PrismBackend.Api

open PrismBackend.Lib PrismBackend.Clob PrismBackend.PrismV2

/-- The deadline has passed: neither the API nor the contract settles the order any more. -/
def PredictionIntent.expired (now : Nat) (pi : PredictionIntent) : Bool :=
  pi.deadline.any fun deadline => decide (deadline < now)

def PredictionIntent.unexpired (now : Nat) (pi : PredictionIntent) : Bool := !pi.expired now

structure OpenOrders (uuid : Uuid) (rows : List PredictionIntent) : Prop where
  nodup : rows.Nodup
  reads : ∀ pi ∈ rows, ∃ order, clobOrderFromIntent uuid pi = .ok order ∧
    order.sharesFilled < order.qtyShares

/-- Adding any of the expired rows, wherever the database returns them, changes neither the
answer to a new SELL nor which unexpired orders are kicked out. -/
structure ExpiredReserveNothing (p : Platform) (now : Nat) (rows : List PredictionIntent) :
    Prop where
  admission : ∀ added delivered : List PredictionIntent,
    added.Sublist (rows.filter (·.expired now)) →
    delivered.Perm (rows.filter (·.unexpired now) ++ added) → ∀ req c balances,
      checkShares p req c balances delivered = .ok () ↔
        checkShares p req c balances (delivered.filter (·.unexpired now)) = .ok ()
  kickOut : ∀ added delivered : List PredictionIntent,
    added.Sublist (rows.filter (·.expired now)) →
    delivered.Perm (rows.filter (·.unexpired now) ++ added) →
      ∀ allowance usdcBalance getUserPositionBalancesV2,
      (kickOutOrderIntents p.uuid allowance usdcBalance getUserPositionBalancesV2
        delivered).filter (·.unexpired now) =
      kickOutOrderIntents p.uuid allowance usdcBalance getUserPositionBalancesV2
        (delivered.filter (·.unexpired now))

section Sums

variable {p : Platform} {now : Nat} {pi : PredictionIntent} {rows : List PredictionIntent}

/-- The action and side of an order are those of its row. -/
theorem clobOrderFromIntent_kind {uuid : Uuid} {order : CreateOrderRequestClob}
    (h : clobOrderFromIntent uuid pi = .ok order) :
    pi.action = some order.action ∧ order.side ≤ Api.sideNo ∧ order.action ≤ actionSell := by
  simp only [clobOrderFromIntent, bind_ok_iff, mapError_ok_iff, parseUint, revertIf_ok_iff,
    exists_const, Except.ok.injEq] at h
  obtain ⟨a, ha, _, ⟨_, rfl⟩, _, ⟨_, rfl⟩, rfl⟩ := h
  unfold authorizationFromIntent at ha
  split at ha
  · next haction _ _ =>
    simp only [bind_ok_iff, mapError_ok_iff] at ha
    obtain ⟨qty, hqty, cap, hcap, hassemble⟩ := ha
    have hassembled := newAuthorizationV2_assembled hassemble
    have hvalid := hassembled.valid
    simp only [AuthorizationV2.validate, bind_ok_iff, revertIf_ok_iff, exists_const, not_or,
      not_lt] at hvalid
    exact ⟨by rw [haction, hassembled.action], hvalid.2.2.2.2.1⟩
  · exact absurd ha (by simp)

/-- An order that is no BUY holds back what is left of it on its side, and that is something. -/
theorem reservedBy_of_sell {order : CreateOrderRequestClob}
    (h : clobOrderFromIntent p.uuid pi = .ok order) (hleft : order.sharesFilled < order.qtyShares)
    (hsell : pi.isBuyOrder = false) :
    0 < reservedBy p order.side pi ∧ reservedBy p order.side pi < 2 ^ 64 := by
  obtain ⟨haction, _, hle⟩ := clobOrderFromIntent_kind h
  have hqty := (clobOrderFromIntent_fields h).1
  have horder : order.action = actionSell := by
    rw [PredictionIntent.isBuyOrder, haction, decide_eq_false_iff_not] at hsell
    unfold actionSell actionBuy at *
    simp only [Option.getD_some] at hsell
    omega
  have hreserved : reservedBy p order.side pi = order.qtyShares - order.sharesFilled := by
    unfold reservedBy
    simp only [h, horder]
    rw [if_neg (by simp), sub64_eq hqty hleft.le]
  rw [hreserved]
  omega

theorem reservedBy_of_buy (hbuy : pi.isBuyOrder = true) (side : Nat) :
    reservedBy p side pi = 0 := by
  unfold reservedBy
  split
  · rfl
  · next order horder =>
    have haction := (clobOrderFromIntent_kind horder).1
    rw [PredictionIntent.isBuyOrder, haction, decide_eq_true_iff, Option.getD_some] at hbuy
    rw [if_pos (Or.inl (by rw [hbuy]; decide))]

/-- Rows that hold nothing back may be left out of the sum. -/
theorem reservedShares_filter {keep : PredictionIntent → Bool} {side : Nat}
    (h : ∀ pi ∈ rows, keep pi = false → reservedBy p side pi = 0) :
    reservedShares p side (rows.filter keep) = reservedShares p side rows := by
  have hsum : ((rows.filter keep).map (reservedBy p side)).sum =
      (rows.map (reservedBy p side)).sum := by
    induction rows with
    | nil => rfl
    | cons pi rows ih =>
        have hrest := ih fun pi hpi => h pi (List.mem_cons_of_mem _ hpi)
        rw [List.filter_cons]
        split
        · rw [List.map_cons, List.map_cons, List.sum_cons, List.sum_cons, hrest]
        · next hout =>
          have hzero := h pi List.mem_cons_self (by simpa using hout)
          rw [List.map_cons, List.sum_cons, hrest, hzero, Nat.zero_add]
  rw [reservedShares_eq_mod, reservedShares_eq_mod, hsum]

/-- Rows without collateral left may be left out of the kick-out of BUY orders. -/
theorem kickOutBuys_filter {uuid : Uuid} {keep : PredictionIntent → Bool} {available required : Nat}
    (h : ∀ pi ∈ rows, keep pi = false → capLeft uuid pi = 0) :
    (validateAndKickoutBuyOrders uuid available required rows).filter keep =
      validateAndKickoutBuyOrders uuid available required (rows.filter keep) := by
  induction rows generalizing required with
  | nil => rfl
  | cons pi rows ih =>
      have hrest : ∀ pi ∈ rows, keep pi = false → capLeft uuid pi = 0 :=
        fun pi hpi => h pi (List.mem_cons_of_mem _ hpi)
      cases hkeep : keep pi with
      | true =>
          rw [List.filter_cons_of_pos hkeep, validateAndKickoutBuyOrders,
            validateAndKickoutBuyOrders]
          cases horder : clobOrderFromIntent uuid pi with
          | error err => exact ih hrest
          | ok order =>
              dsimp only
              generalize (if order.collateralCap > order.collateralFilled then _ else required) =
                total
              rw [← ih hrest]
              split
              · exact List.filter_cons_of_pos hkeep
              · rfl
      | false =>
          have hzero := h pi List.mem_cons_self hkeep
          rw [List.filter_cons_of_neg (by rw [hkeep]; decide), validateAndKickoutBuyOrders]
          cases horder : clobOrderFromIntent uuid pi with
          | error err => exact ih hrest
          | ok order =>
              have hspent : ¬order.collateralCap > order.collateralFilled := by
                simp only [capLeft, horder] at hzero
                omega
              dsimp only
              rw [if_neg hspent, ← ih hrest]
              split
              · exact List.filter_cons_of_neg (by rw [hkeep]; decide)
              · rfl

end Sums

/-! ## The condition -/

section Condition

variable {p : Platform} {now : Nat} {rows : List PredictionIntent}

theorem mem_unexpired {pi : PredictionIntent} :
    pi ∈ rows.filter (·.unexpired now) ↔ pi ∈ rows ∧ pi.expired now = false := by
  rw [List.mem_filter, PredictionIntent.unexpired, Bool.not_eq_true']

/-- Where no SELL is expired, and expired BUY orders have spent their caps or are all there is of
BUY orders, expired orders hold nothing back. -/
theorem expired_reserve_nothing
    (hsell : ∀ pi ∈ rows, pi.expired now = true → pi.isBuyOrder = true)
    (hbuy : (∀ pi ∈ rows, pi.isBuyOrder = true → pi.expired now = true) ∨
      ∀ pi ∈ rows, pi.expired now = true → capLeft p.uuid pi = 0) :
    ExpiredReserveNothing p now rows := by
  have hdelivered : ∀ added delivered : List PredictionIntent,
      added.Sublist (rows.filter (·.expired now)) →
      delivered.Perm (rows.filter (·.unexpired now) ++ added) → ∀ pi ∈ delivered, pi ∈ rows := by
    intro added delivered hadded hperm pi hpi
    rcases List.mem_append.mp (hperm.subset hpi) with hlive | hmem
    · exact (List.mem_filter.mp hlive).1
    · exact (List.mem_filter.mp (hadded.subset hmem)).1
  refine ⟨?_, ?_⟩
  · intro added delivered hadded hperm req c balances
    have hsame : reservedShares p c.auth.side (delivered.filter (·.unexpired now)) =
        reservedShares p c.auth.side delivered := by
      apply reservedShares_filter
      intro pi hpi hout
      have hexpired : pi.expired now = true := by simpa [PredictionIntent.unexpired] using hout
      exact reservedBy_of_buy (hsell pi (hdelivered _ _ hadded hperm pi hpi) hexpired) _
    simp only [checkShares, hsame]
  · intro added delivered hadded hperm allowance usdcBalance balances
    have hmem := hdelivered _ _ hadded hperm
    have hsells : (delivered.filter (!·.isBuyOrder)).filter (·.unexpired now) =
        delivered.filter (!·.isBuyOrder) := by
      apply List.filter_eq_self.mpr
      intro pi hpi
      obtain ⟨hin, hkind⟩ := List.mem_filter.mp hpi
      cases hexpired : pi.expired now with
      | true =>
          rw [hsell pi (hmem pi hin) hexpired] at hkind
          exact absurd hkind (by decide)
      | false => simp [PredictionIntent.unexpired, hexpired]
    have hkept : ∀ balances, (validateAndKickoutSellOrders p.uuid balances
        (delivered.filter (!·.isBuyOrder))).filter (·.unexpired now) =
        validateAndKickoutSellOrders p.uuid balances (delivered.filter (!·.isBuyOrder)) := by
      intro balances
      apply List.filter_eq_self.mpr
      intro pi hpi
      have hin := (validateAndKickoutSellOrders_sublist p.uuid balances _).subset hpi
      rw [← hsells] at hin
      exact (List.mem_filter.mp hin).2
    unfold kickOutOrderIntents
    rw [List.filter_append, hkept, filter_comm (·.unexpired now) (·.isBuyOrder) delivered,
      filter_comm (·.unexpired now) (!·.isBuyOrder) delivered, hsells]
    congr 1
    rcases hbuy with hnone | hspent
    · have hnil : (delivered.filter (·.isBuyOrder)).filter (·.unexpired now) = [] := by
        apply List.filter_eq_nil_iff.mpr
        intro pi hpi
        obtain ⟨hin, hkind⟩ := List.mem_filter.mp hpi
        simp [PredictionIntent.unexpired, hnone pi (hmem pi hin) hkind]
      rw [hnil]
      apply List.filter_eq_nil_iff.mpr
      intro pi hpi hlive
      have hin := (validateAndKickoutBuyOrders_sublist p.uuid _ _ _).subset hpi
      exact absurd (List.mem_filter.mpr ⟨hin, hlive⟩) (by rw [hnil]; exact List.not_mem_nil)
    · apply kickOutBuys_filter
      intro pi hpi hout
      have hexpired : pi.expired now = true := by simpa [PredictionIntent.unexpired] using hout
      exact hspent pi (hmem pi (List.mem_filter.mp hpi).1) hexpired

theorem checkShares_ok_iff {req : PrismPredictionIntentRequest} {c : Draft}
    {balances : Nat × Nat} {openOrders : List PredictionIntent} :
    checkShares p req c balances openOrders = .ok () ↔
      add64 (reservedShares p c.auth.side openOrders) req.qtyShares ≤
        heldShares c.auth.side balances := by
  simp only [checkShares, revertIf_ok_iff, gt_iff_lt, not_lt]

theorem filter_unexpired_append {pi : PredictionIntent} (hexpired : pi.expired now = true) :
    (rows.filter (·.unexpired now) ++ [pi]).filter (·.unexpired now) =
      rows.filter (·.unexpired now) := by
  have hout : ¬pi.unexpired now = true := by simp [PredictionIntent.unexpired, hexpired]
  rw [List.filter_append, List.filter_filter, List.filter_cons_of_neg hout, List.filter_nil,
    List.append_nil]
  simp

/-- A request for one share, and what the checks before know of it. -/
def shareRequest : PrismPredictionIntentRequest :=
  ⟨[], [], [], [], [], [], [], 0, 0, [], 0, 1, 0, 1, 0, 0⟩

/-- An expired SELL holds back shares: some balance decides a new SELL otherwise. -/
theorem ExpiredReserveNothing.no_sell (h : ExpiredReserveNothing p now rows)
    (hopen : OpenOrders p.uuid rows) {pi : PredictionIntent} (hpi : pi ∈ rows)
    (hexpired : pi.expired now = true) : pi.isBuyOrder = true := by
  by_contra hsell
  obtain ⟨order, horder, hleft⟩ := hopen.reads pi hpi
  obtain ⟨hpos, hlt⟩ := reservedBy_of_sell horder hleft (Bool.eq_false_iff.mpr hsell)
  obtain ⟨a, hside⟩ : ∃ a : AuthorizationV2, a.side = order.side := by
    simp only [clobOrderFromIntent, bind_ok_iff, Except.ok.injEq] at horder
    obtain ⟨a, _, _, _, _, _, rfl⟩ := horder
    exact ⟨a, rfl⟩
  have hadded : [pi].Sublist (rows.filter (·.expired now)) :=
    List.singleton_sublist.mpr (List.mem_filter.mpr ⟨hpi, hexpired⟩)
  have hdecide := h.admission [pi] _ hadded (List.Perm.refl _) shareRequest
    ⟨[], ⟨[], [], [], 0⟩, [], a⟩
  rw [filter_unexpired_append hexpired] at hdecide
  simp only [checkShares_ok_iff, hside] at hdecide
  have hwith := reservedShares_eq_mod (p := p) order.side (rows.filter (·.unexpired now) ++ [pi])
  have hwithout := reservedShares_eq_mod (p := p) order.side (rows.filter (·.unexpired now))
  rw [List.map_append, List.sum_append, List.map_singleton, List.sum_singleton] at hwith
  generalize reservedShares p order.side (rows.filter (·.unexpired now) ++ [pi]) = reserved at *
  generalize reservedShares p order.side (rows.filter (·.unexpired now)) = reserved' at *
  have hheld : ∀ n, heldShares order.side (n, n) = n := by
    intro n
    unfold heldShares
    split <;> rfl
  have hlow := hdecide (add64 reserved 1, add64 reserved 1)
  have hhigh := hdecide (add64 reserved' 1, add64 reserved' 1)
  simp only [hheld, shareRequest, le_refl, true_iff, iff_true] at hlow hhigh
  unfold add64 at hlow hhigh
  omega

theorem requiredAfter {uuid : Uuid} {pi : PredictionIntent} {order : CreateOrderRequestClob}
    (h : clobOrderFromIntent uuid pi = .ok order) {required : Nat} (hlt : required < 2 ^ 64) :
    (if order.collateralCap > order.collateralFilled then
      add64 required (sub64 order.collateralCap order.collateralFilled) else required) =
      (required + capLeft uuid pi) % 2 ^ 64 := by
  have hcap := (clobOrderFromIntent_fields h).2.1
  have hleft : capLeft uuid pi = order.collateralCap - order.collateralFilled := by
    simp only [capLeft, h]
  rw [hleft]
  split
  · next hgt => rw [sub64_eq hcap (Nat.le_of_lt hgt), add64]
  · next hle =>
    rw [Nat.sub_eq_zero_of_le (Nat.le_of_not_gt hle), Nat.add_zero, Nat.mod_eq_of_lt hlt]

theorem mem_kickOutBuys_first {uuid : Uuid} {pi : PredictionIntent} {order : CreateOrderRequestClob}
    (h : clobOrderFromIntent uuid pi = .ok order) {available required : Nat}
    (hlt : required < 2 ^ 64) (hnot : pi ∉ rows) :
    pi ∈ validateAndKickoutBuyOrders uuid available required (pi :: rows) ↔
      available < (required + capLeft uuid pi) % 2 ^ 64 := by
  rw [validateAndKickoutBuyOrders]
  simp only [h, requiredAfter h hlt]
  have hrest : ∀ total, pi ∉ validateAndKickoutBuyOrders uuid available total rows :=
    fun total hin =>
    hnot ((validateAndKickoutBuyOrders_sublist uuid available total rows).subset hin)
  split
  · next hgt => exact iff_of_true List.mem_cons_self hgt
  · next hle => exact iff_of_false (hrest _) hle

/-- An order that is not the first is decided after the first one is counted. -/
theorem mem_kickOutBuys_later {uuid : Uuid} {pi other : PredictionIntent}
    {order : CreateOrderRequestClob} (h : clobOrderFromIntent uuid pi = .ok order)
    {available required : Nat} (hlt : required < 2 ^ 64) (hne : other ≠ pi) :
    other ∈ validateAndKickoutBuyOrders uuid available required (pi :: rows) ↔
      other ∈ validateAndKickoutBuyOrders uuid available
        ((required + capLeft uuid pi) % 2 ^ 64) rows := by
  rw [validateAndKickoutBuyOrders]
  simp only [h, requiredAfter h hlt]
  split
  · rw [List.mem_cons, or_iff_right hne]
  · exact Iff.rfl

theorem ExpiredReserveNothing.spent (h : ExpiredReserveNothing p now rows)
    (hopen : OpenOrders p.uuid rows) {first second : PredictionIntent} (hfirst : first ∈ rows)
    (hexpired : first.expired now = true) (hsecond : second ∈ rows)
    (hbuy : second.isBuyOrder = true) (hlive : second.expired now = false) :
    capLeft p.uuid first = 0 := by
  by_contra hleft
  obtain ⟨order, horder, _⟩ := hopen.reads first hfirst
  obtain ⟨order', horder', _⟩ := hopen.reads second hsecond
  have hne : second ≠ first := by
    intro heq
    rw [heq, hexpired] at hlive
    exact absurd hlive (by decide)
  have hmem : second ∈ rows.filter (·.unexpired now) := mem_unexpired.mpr ⟨hsecond, hlive⟩
  obtain ⟨before, after, hsplit⟩ := List.append_of_mem hmem
  have hnodup : (second :: (before ++ after)).Nodup := by
    have hall := hopen.nodup.filter (·.unexpired now)
    rw [hsplit] at hall
    exact List.perm_middle.nodup_iff.mp hall
  have hperm : (first :: second :: (before ++ after)).Perm
      (rows.filter (·.unexpired now) ++ [first]) := by
    rw [hsplit]
    exact (List.Perm.cons first List.perm_middle.symm).trans
      (List.perm_append_singleton first _).symm
  have hrest : (before ++ after).filter (·.unexpired now) = before ++ after := by
    apply List.filter_eq_self.mpr
    intro pi hpi
    have hin : pi ∈ rows.filter (·.unexpired now) := by
      rw [hsplit]
      exact List.perm_middle.symm.subset (List.mem_cons_of_mem _ hpi)
    exact (List.mem_filter.mp hin).2
  have hliveFilter : (first :: second :: (before ++ after)).filter (·.unexpired now) =
      second :: (before ++ after) := by
    rw [List.filter_cons_of_neg (by simp [PredictionIntent.unexpired, hexpired]),
      List.filter_cons_of_pos (by simp [PredictionIntent.unexpired, hlive]), hrest]
  have hadded : [first].Sublist (rows.filter (·.expired now)) :=
    List.singleton_sublist.mpr (List.mem_filter.mpr ⟨hfirst, hexpired⟩)
  have hfirstBuy := h.no_sell hopen hfirst hexpired
  have hnot : second ∉ (before ++ after).filter (·.isBuyOrder) := fun hin =>
    (List.nodup_cons.mp hnodup).1 (List.mem_filter.mp hin).1
  have hcap : capLeft p.uuid first < 2 ^ 64 := by
    have hfields := (clobOrderFromIntent_fields horder).2.1
    simp only [capLeft, horder]
    omega
  have hcap' : capLeft p.uuid second < 2 ^ 64 := by
    have hfields := (clobOrderFromIntent_fields horder').2.1
    simp only [capLeft, horder']
    omega
  -- the unexpired order is evicted with the expired one before it iff it is without it
  have hsame : ∀ available, available < (capLeft p.uuid first + capLeft p.uuid second) % 2 ^ 64 ↔
      available < capLeft p.uuid second := by
    intro available
    have hkicked := h.kickOut _ _ hadded hperm available available fun _ => .error "unavailable"
    have hnoSells : ∀ rows, validateAndKickoutSellOrders p.uuid (fun _ => .error "unavailable")
        rows = [] := by
      intro rows
      cases rows <;> rfl
    simp only [kickOutOrderIntents, hliveFilter, hnoSells, List.append_nil, Nat.min_self] at hkicked
    rw [List.filter_cons_of_pos hfirstBuy, List.filter_cons_of_pos hbuy] at hkicked
    have hiff : second ∈ (validateAndKickoutBuyOrders p.uuid available 0
        (first :: second :: (before ++ after).filter (·.isBuyOrder))).filter (·.unexpired now) ↔
        second ∈ validateAndKickoutBuyOrders p.uuid available 0
          (second :: (before ++ after).filter (·.isBuyOrder)) := by
      rw [hkicked]
    rw [mem_unexpired, and_iff_left hlive, mem_kickOutBuys_later horder (Nat.two_pow_pos 64) hne,
      Nat.zero_add, Nat.mod_eq_of_lt hcap, mem_kickOutBuys_first horder' hcap hnot,
      mem_kickOutBuys_first horder' (Nat.two_pow_pos 64) hnot, Nat.zero_add,
      Nat.mod_eq_of_lt hcap'] at hiff
    exact hiff
  have hlow := hsame (capLeft p.uuid second)
  have hhigh := hsame ((capLeft p.uuid first + capLeft p.uuid second) % 2 ^ 64)
  omega

/-- Expired orders hold nothing back exactly if none of them is a SELL, and none has collateral
left under its cap as long as there is an unexpired BUY. -/
theorem expired_reserve_nothing_iff (p : Platform) (now : Nat) (rows : List PredictionIntent)
    (hopen : OpenOrders p.uuid rows) :
    ExpiredReserveNothing p now rows ↔
      (∀ pi ∈ rows, pi.expired now = true → pi.isBuyOrder = true) ∧
      ((∀ pi ∈ rows, pi.isBuyOrder = true → pi.expired now = true) ∨
        ∀ pi ∈ rows, pi.expired now = true → capLeft p.uuid pi = 0) := by
  constructor
  · intro h
    refine ⟨fun pi hpi hexpired => h.no_sell hopen hpi hexpired, ?_⟩
    by_cases hlive : ∃ pi ∈ rows, pi.isBuyOrder = true ∧ pi.expired now = false
    · obtain ⟨pi, hpi, hbuy, hnow⟩ := hlive
      exact Or.inr fun first hfirst hexpired => h.spent hopen hfirst hexpired hpi hbuy hnow
    · refine Or.inl fun pi hpi hbuy => ?_
      by_contra hnow
      exact hlive ⟨pi, hpi, hbuy, Bool.eq_false_iff.mpr hnow⟩
  · rintro ⟨hsell, hbuy⟩
    exact expired_reserve_nothing hsell hbuy

end Condition

/-! ## The open orders of an account -/

theorem Accepted.reads {p : Platform} {pi : PredictionIntent} (h : Accepted p pi)
    (hopen : isOpenPredictionIntent pi = true) :
    ∃ order, clobOrderFromIntent p.uuid pi = .ok order ∧ order.sharesFilled < order.qtyShares := by
  obtain ⟨⟨req, a, hvalid, _, ha, hcreated⟩, hkept⟩ := h
  obtain ⟨_, _, hqty, _⟩ := createOrderIntentRequest_terms hcreated
  have hbound := (createOrderIntentRequest_bounds hcreated).2.1
  have hfilled := hkept.filled_le
  rw [hqty, Option.getD_some] at hfilled
  have hauth : authorizationFromIntent p.uuid pi.toOrderTerms = .ok a := by
    rw [authorizationFromIntent_eq hvalid hcreated, ha]
  have hrem := hkept.qtyRem_eq
  rw [hqty, Option.getD_some] at hrem
  simp only [isOpenPredictionIntent, Bool.and_eq_true, decide_eq_true_eq] at hopen
  have hleft : pi.sharesFilled < a.qtyShares := by
    rw [(newAuthorizationV2_side ha).2.2]
    omega
  unfold clobOrderFromIntent
  rw [hauth, parseUint_ok (hfilled.trans hbound),
    parseUint_ok (hkept.collateral_le.trans (hfilled.trans hbound))]
  exact ⟨_, rfl, hleft⟩

/-- What the query for an account's open orders returns, in whatever order. -/
theorem openOrders_of_accepted {p : Platform} {s : Exchange} (h : s.AllAccepted p)
    {marketID : Uint128} {accountID : Str} {rows : List PredictionIntent}
    (hrows : rows.Perm (s.db.openPredictionIntentsOf marketID accountID)) :
    OpenOrders p.uuid rows where
  nodup := hrows.nodup_iff.mpr ((s.db.nodup_openPredictionIntentsOf marketID accountID).of_map _)
  reads pi hpi := by
    obtain ⟨_, hmem, _, _, hopen⟩ := Db.mem_openPredictionIntentsOf.mp (hrows.subset hpi)
    exact (h pi hmem).reads hopen

/-! ## Samples -/

/-- An unexpired SELL and an expired BUY. -/
theorem expired_reserve_nothing_sample : ExpiredReserveNothing samplePlatform 100
    [sampleOpenOrder 1 5 0 1 10 0 900, sampleOpenOrder 2 5 0 0 10 5 50] := by
  have hread : ∀ pi ∈ [sampleOpenOrder 1 5 0 1 10 0 900, sampleOpenOrder 2 5 0 0 10 5 50],
      (clobOrderFromIntent samplePlatform.uuid pi).toOption.any
        (fun order => decide (order.sharesFilled < order.qtyShares)) = true := by
    decide +kernel
  have hopen : OpenOrders samplePlatform.uuid
      [sampleOpenOrder 1 5 0 1 10 0 900, sampleOpenOrder 2 5 0 0 10 5 50] := by
    refine ⟨?_, ?_⟩
    · apply List.Nodup.of_map fun pi : PredictionIntent => pi.txID
      decide +kernel
    · intro pi hpi
      have hsome := hread pi hpi
      cases horder : clobOrderFromIntent samplePlatform.uuid pi with
      | error err => simp [horder, Except.toOption] at hsome
      | ok order =>
          rw [horder] at hsome
          exact ⟨order, rfl, of_decide_eq_true hsome⟩
  exact (expired_reserve_nothing_iff samplePlatform 100 _ hopen).mpr
    ⟨by decide +kernel, Or.inl (by decide +kernel)⟩

/-- An account holds ten shares; an expired SELL of ten keeps it from selling them. -/
theorem expired_sell_blocks :
    ¬ExpiredReserveNothing samplePlatform 100 [sampleOpenOrder 1 5 0 1 10 0 50] := by
  intro h
  have hexpired : [sampleOpenOrder 1 5 0 1 10 0 50].filter (·.expired 100) =
      [sampleOpenOrder 1 5 0 1 10 0 50] := List.filter_eq_self.mpr (by decide +kernel)
  have hunexpired : [sampleOpenOrder 1 5 0 1 10 0 50].filter (·.unexpired 100) = [] :=
    List.filter_eq_nil_iff.mpr (by decide +kernel)
  have hdecide := h.admission [sampleOpenOrder 1 5 0 1 10 0 50] [sampleOpenOrder 1 5 0 1 10 0 50]
    (by rw [hexpired]) (by rw [hunexpired]; exact List.Perm.refl _)
    { shareRequest with qtyShares := 10 }
    ⟨[], ⟨[], [], [], 0⟩, [], ⟨2, 296, [], [], 7, 2, 0, 1, 500000, 10, 0, 900⟩⟩ (10, 0)
  rw [hunexpired] at hdecide
  simp only [checkShares_ok_iff] at hdecide
  revert hdecide
  decide +kernel

end PrismBackend.Api
