import Mathlib.Algebra.BigOperators.Group.List.Basic
import Mathlib.Algebra.GroupWithZero.Nat
import Mathlib.Data.List.Perm.Basic
import PrismBackend.Clob.Matching

/-!
# CLOB: the fills of an order

What a list of matches does to an order, what every emitted match satisfies, and
what one pass of the matching loop does to the orders it walks over.
-/

namespace PrismBackend.Clob

open PrismBackend.Lib

/-! ## An order after some matches -/

def ClobMatch.involves (m : ClobMatch) (txId : Str) : Bool :=
  m.bid.any (·.txId == txId) || m.ask.any (·.txId == txId)

def afterFill (order : CreateOrderRequestClob) (m : ClobMatch) : CreateOrderRequestClob :=
  if m.involves order.txId then filledBy order m.fillShares m.yesCollateral m.noCollateral
  else order

def afterFills (order : CreateOrderRequestClob) (matches_ : List ClobMatch) :
    CreateOrderRequestClob :=
  matches_.foldl afterFill order

def filledShares (order : CreateOrderRequestClob) (matches_ : List ClobMatch) : Nat :=
  ((matches_.filter (·.involves order.txId)).map (·.fillShares)).sum

def filledCollateral (order : CreateOrderRequestClob) (matches_ : List ClobMatch) : Nat :=
  ((matches_.filter (·.involves order.txId)).map
    fun m => legCollateral order m.yesCollateral m.noCollateral).sum

theorem afterFills_eq (order : CreateOrderRequestClob) (matches_ : List ClobMatch) :
    afterFills order matches_ =
      { order with
        sharesFilled := order.sharesFilled + filledShares order matches_
        collateralFilled := order.collateralFilled + filledCollateral order matches_ } := by
  induction matches_ generalizing order with
  | nil => rfl
  | cons m ms ih =>
      have hcons : afterFills order (m :: ms) = afterFills (afterFill order m) ms := rfl
      rw [hcons, ih]
      by_cases h : m.involves order.txId = true
      · simp only [afterFill, h, if_true, filledBy, filledShares, filledCollateral,
          List.filter_cons, List.map_cons, List.sum_cons, legCollateral, Nat.add_assoc]
      · simp [afterFill, h, filledShares, filledCollateral]

@[simp] theorem afterFills_nil (order : CreateOrderRequestClob) : afterFills order [] = order :=
  rfl

theorem afterFills_cons (order : CreateOrderRequestClob) (m : ClobMatch) (ms : List ClobMatch) :
    afterFills order (m :: ms) = afterFills (afterFill order m) ms := rfl

theorem afterFills_append (order : CreateOrderRequestClob) (ms ms' : List ClobMatch) :
    afterFills order (ms ++ ms') = afterFills (afterFills order ms) ms' :=
  List.foldl_append

@[simp] theorem afterFill_txId (order : CreateOrderRequestClob) (m : ClobMatch) :
    (afterFill order m).txId = order.txId := by
  unfold afterFill
  split <;> rfl

@[simp] theorem afterFills_txId (order : CreateOrderRequestClob) (ms : List ClobMatch) :
    (afterFills order ms).txId = order.txId := by
  rw [afterFills_eq]

@[simp] theorem afterFills_isBid (order : CreateOrderRequestClob) (ms : List ClobMatch) :
    isBid (afterFills order ms) = isBid order := by
  rw [afterFills_eq]
  rfl

theorem afterFill_of_not_involved {order : CreateOrderRequestClob} {m : ClobMatch}
    (h : m.involves order.txId = false) : afterFill order m = order := by
  simp [afterFill, h]

/-- An order keeps its state through matches that do not name it. -/
theorem afterFills_of_not_involved {order : CreateOrderRequestClob} {ms : List ClobMatch}
    (h : ∀ m ∈ ms, m.involves order.txId = false) : afterFills order ms = order := by
  induction ms with
  | nil => rfl
  | cons m ms ih =>
      rw [afterFills_cons, afterFill_of_not_involved (h m List.mem_cons_self)]
      exact ih fun m' hm' => h m' (List.mem_cons_of_mem _ hm')

/-! ## Fair matches -/

/-- What a match between a bid and an ask in given states satisfies. -/
structure Fair (bid ask : CreateOrderRequestClob) (m : ClobMatch) : Prop where
  bid_eq : m.bid = some bid
  ask_eq : m.ask = some ask
  bid_isBid : isBid bid = true
  ask_isBid : isBid ask = false
  traders : sameTrader bid ask = false
  price_pos : 0 < m.executionYesPrice
  price_lt : m.executionYesPrice < priceScale
  ask_le : ask.limitYesPrice ≤ m.executionYesPrice
  le_bid : m.executionYesPrice ≤ bid.limitYesPrice
  fill_pos : 0 < m.fillShares
  fill_le_bid : m.fillShares ≤ remainingShares bid
  fill_le_ask : m.fillShares ≤ remainingShares ask
  split : splitCollateral m.fillShares m.executionYesPrice =
    some (m.yesCollateral, m.noCollateral)
  bid_cap : withinCap bid m.yesCollateral m.noCollateral = true
  ask_cap : withinCap ask m.yesCollateral m.noCollateral = true

theorem Fair.involves_iff {bid ask : CreateOrderRequestClob} {m : ClobMatch}
    (h : Fair bid ask m) (txId : Str) :
    m.involves txId = true ↔ txId = bid.txId ∨ txId = ask.txId := by
  unfold ClobMatch.involves
  rw [h.bid_eq, h.ask_eq]
  simp only [Option.any_some, Bool.or_eq_true, beq_iff_eq]
  exact or_congr eq_comm eq_comm

theorem splitCollateral_eq_some {fill price yes no : Nat}
    (h : splitCollateral fill price = some (yes, no)) :
    yes = fill * price / priceScale ∧ no = fill - yes ∧ 0 < yes ∧ 0 < no ∧ 0 < price ∧
      price < priceScale ∧ 0 < fill := by
  unfold splitCollateral at h
  split at h
  · exact absurd h (by simp)
  · next hguard =>
    simp only at h
    split at h
    · exact absurd h (by simp)
    · next hlegs =>
      rw [Option.some.injEq, Prod.mk.injEq] at h
      obtain ⟨rfl, rfl⟩ := h
      simp only [not_or, not_le] at hguard hlegs
      exact ⟨rfl, rfl, Nat.pos_of_ne_zero hlegs.1, Nat.pos_of_ne_zero hlegs.2, by omega,
        hguard.2.2, by omega⟩

/-- A fill that `max_fill` returns fits both orders and splits into two positive legs. -/
theorem maxFill_eq_some {bid ask : CreateOrderRequestClob} {price upper fill : Nat}
    (h : maxFill bid ask price upper = some fill) :
    fill ≤ upper ∧ capsOk bid ask price fill = true ∧
      ∃ yes no, splitCollateral fill price = some (yes, no) := by
  unfold maxFill at h
  split at h
  · exact absurd h (by simp)
  · simp only [Option.map_eq_some_iff, Prod.exists] at h
    obtain ⟨yes, no, hsplit, rfl⟩ := h
    have hstart : (if capsOk bid ask price upper then upper else 0) = 0 ∨
        capsOk bid ask price (if capsOk bid ask price upper then upper else 0) = true := by
      split
      · next hcaps => exact Or.inr hcaps
      · exact Or.inl rfl
    have hsearch := searchLoop_sound (capsOk bid ask price) 0 upper _ upper hstart
      (by split <;> omega)
    refine ⟨hsearch.2, ?_, yes, no, hsplit⟩
    rcases hsearch.1 with hzero | hcaps
    · -- a fill of zero has no split
      rw [hzero] at hsplit
      exact absurd hsplit (by simp [splitCollateral])
    · exact hcaps

theorem executionPrice_eq_some {resting incoming : CreateOrderRequestClob} {price : Nat}
    (h : executionPrice resting incoming = some price) :
    0 < price ∧ price < priceScale ∧
      (price = resting.limitYesPrice ∨ price = incoming.limitYesPrice) := by
  have husable := List.find?_some h
  have hmem := List.mem_of_find?_eq_some h
  simp only [usablePrice, decide_eq_true_eq] at husable
  simp only [List.mem_cons, List.not_mem_nil, or_false] at hmem
  exact ⟨husable.1, husable.2, hmem⟩

theorem sameTrader_comm (a b : CreateOrderRequestClob) : sameTrader a b = sameTrader b a := by
  simp only [sameTrader, eqIgnoreAsciiCase]
  rw [BEq.comm (a := toAsciiLowercase (trimStart0x a.evmAddress)),
    BEq.comm (a := toAsciiLowercase a.accountId)]

theorem tryFill_eq_some {incomingIsBid : Bool} {incoming resting : CreateOrderRequestClob}
    {fill price : Nat} (h : tryFill incomingIsBid incoming resting = some (fill, price)) :
    sameTrader incoming resting = false ∧ executionPrice resting incoming = some price ∧
      maxFill (bidAsk incomingIsBid incoming resting).1 (bidAsk incomingIsBid incoming resting).2
        price (min (remainingShares incoming) (remainingShares resting)) = some fill := by
  unfold tryFill at h
  simp only at h
  split at h
  · exact absurd h (by simp)
  · next htrader =>
    simp only [Option.bind_eq_bind, Option.bind_eq_some_iff, Option.pure_def,
      Option.some.injEq, Prod.mk.injEq] at h
    obtain ⟨price', hprice, fill', hfill, rfl, rfl⟩ := h
    exact ⟨Bool.eq_false_iff.mpr htrader, hprice, hfill⟩

def fillMatch (incomingIsBid : Bool) (incoming resting : CreateOrderRequestClob)
    (fill price : Nat) : ClobMatch :=
  let pair := bidAsk incomingIsBid incoming resting
  let legs := (splitCollateral fill price).getD (0, 0)
  ⟨incoming.marketId, some pair.1, some pair.2, fill, price, legs.1, legs.2⟩

theorem fillMatch_fair {incomingIsBid : Bool} {incoming resting : CreateOrderRequestClob}
    {fill price : Nat} (hincoming : isBid incoming = incomingIsBid)
    (hresting : isBid resting = !incomingIsBid)
    (hcrosses : crosses (bidAsk incomingIsBid incoming resting).1
      (bidAsk incomingIsBid incoming resting).2 = true)
    (h : tryFill incomingIsBid incoming resting = some (fill, price)) :
    Fair (bidAsk incomingIsBid incoming resting).1 (bidAsk incomingIsBid incoming resting).2
      (fillMatch incomingIsBid incoming resting fill price) := by
  obtain ⟨htrader, hprice, hfill⟩ := tryFill_eq_some h
  obtain ⟨hpos, hlt, hlimit⟩ := executionPrice_eq_some hprice
  obtain ⟨hupper, hcaps, yes, no, hsplit⟩ := maxFill_eq_some hfill
  obtain ⟨hyes, hno, _, _, _, _, hfillPos⟩ := splitCollateral_eq_some hsplit
  have hlegs : (splitCollateral fill price).getD (0, 0) = (yes, no) := by
    rw [hsplit, Option.getD_some]
  simp only [capsOk, Bool.and_eq_true, ← hyes, ← hno] at hcaps
  rw [Nat.le_min] at hupper
  cases incomingIsBid with
  | true =>
      simp only [crosses, decide_eq_true_eq, bidAsk, if_true] at hcrosses hcaps
      refine ⟨rfl, rfl, hincoming, hresting, htrader, hpos, hlt, ?_, ?_, hfillPos, hupper.1,
        hupper.2, ?_, ?_, ?_⟩
      · simp only [fillMatch, bidAsk, if_true]
        omega
      · simp only [fillMatch, bidAsk, if_true]
        omega
      · simp only [fillMatch, hlegs]
        exact hsplit
      · simp only [fillMatch, hlegs]
        exact hcaps.1
      · simp only [fillMatch, hlegs]
        exact hcaps.2
  | false =>
      simp only [crosses, bidAsk, Bool.false_eq_true, if_false, decide_eq_true_eq]
        at hcrosses hcaps
      refine ⟨rfl, rfl, hresting, hincoming, ?_, hpos, hlt, ?_, ?_, hfillPos, hupper.2,
        hupper.1, ?_, ?_, ?_⟩
      · simp only [bidAsk]
        rw [sameTrader_comm]
        exact htrader
      · simp only [fillMatch, bidAsk, Bool.false_eq_true, if_false]
        omega
      · simp only [fillMatch, bidAsk, Bool.false_eq_true, if_false]
        omega
      · simp only [fillMatch, hlegs]
        exact hsplit
      · simp only [fillMatch, hlegs]
        exact hcaps.1
      · simp only [fillMatch, hlegs]
        exact hcaps.2

/-! ## One pass over the opposite side -/

/-- What a pass does to the incoming order and to the orders it walks over. -/
structure PassSpec (now : Nat) (incomingIsBid : Bool) (opposite : List CreateOrderRequestClob)
    (incoming : CreateOrderRequestClob) (pass : Pass) : Prop where
  incoming_eq : pass.incoming = afterFills incoming pass.matches_
  conserved : (pass.resting ++ (pass.dropped ++ pass.filled)).Perm
    (opposite.map (afterFills · pass.matches_))
  fair : ∀ before m after, pass.matches_ = before ++ m :: after → ∃ o ∈ opposite,
    Fair (bidAsk incomingIsBid (afterFills incoming before) (afterFills o before)).1
      (bidAsk incomingIsBid (afterFills incoming before) (afterFills o before)).2 m
  resting_open : ∀ o ∈ pass.resting, 0 < remainingShares o
  dropped_expired : ∀ o ∈ pass.dropped, expired o now = true
  filled_full : ∀ o ∈ pass.filled, remainingShares o = 0

theorem bidAsk_involves {incomingIsBid : Bool} {incoming resting : CreateOrderRequestClob}
    {m : ClobMatch}
    (h : Fair (bidAsk incomingIsBid incoming resting).1 (bidAsk incomingIsBid incoming resting).2 m)
    (txId : Str) : m.involves txId = true ↔ txId = incoming.txId ∨ txId = resting.txId := by
  rw [h.involves_iff]
  cases incomingIsBid with
  | true => rfl
  | false => exact Or.comm

/-- A pass names only the incoming order and the orders it walks over. -/
theorem PassSpec.not_involved {now : Nat} {incomingIsBid : Bool}
    {opposite : List CreateOrderRequestClob} {incoming : CreateOrderRequestClob} {pass : Pass}
    (h : PassSpec now incomingIsBid opposite incoming pass) {txId : Str}
    (hincoming : txId ≠ incoming.txId) (hopposite : ∀ o ∈ opposite, txId ≠ o.txId) :
    ∀ m ∈ pass.matches_, m.involves txId = false := by
  intro m hm
  obtain ⟨before, after, hsplit⟩ := List.append_of_mem hm
  obtain ⟨o, ho, hfair⟩ := h.fair before m after hsplit
  rw [Bool.eq_false_iff]
  intro hinvolved
  rw [bidAsk_involves hfair, afterFills_txId, afterFills_txId] at hinvolved
  rcases hinvolved with heq | heq
  · exact hincoming heq
  · exact hopposite o ho heq

theorem PassSpec.stop {now : Nat} {incomingIsBid : Bool}
    {opposite : List CreateOrderRequestClob} (incoming : CreateOrderRequestClob)
    (hopen : ∀ o ∈ opposite, 0 < remainingShares o) :
    PassSpec now incomingIsBid opposite incoming ⟨opposite, incoming, [], [], []⟩ := by
  refine ⟨rfl, ?_, ?_, hopen, ?_, ?_⟩
  · simp
  · intro before m after h
    exact absurd h (by simp)
  · intro o ho
    exact absurd ho List.not_mem_nil
  · intro o ho
    exact absurd ho List.not_mem_nil

section Steps

variable {now : Nat} {incomingIsBid : Bool} {rest : List CreateOrderRequestClob}
  {incoming resting : CreateOrderRequestClob} {pass : Pass}

theorem PassSpec.fair_cons (h : PassSpec now incomingIsBid rest incoming pass)
    (o' : CreateOrderRequestClob) :
    ∀ before m after, pass.matches_ = before ++ m :: after → ∃ o ∈ o' :: rest,
      Fair (bidAsk incomingIsBid (afterFills incoming before) (afterFills o before)).1
        (bidAsk incomingIsBid (afterFills incoming before) (afterFills o before)).2 m := by
  intro before m after hsplit
  obtain ⟨o, ho, hfair⟩ := h.fair before m after hsplit
  exact ⟨o, List.mem_cons_of_mem _ ho, hfair⟩

/-- The pass goes on behind an order that it leaves resting. -/
theorem PassSpec.keep (h : PassSpec now incomingIsBid rest incoming pass)
    (hself : ∀ m ∈ pass.matches_, m.involves resting.txId = false)
    (hopen : 0 < remainingShares resting) :
    PassSpec now incomingIsBid (resting :: rest) incoming
      { pass with resting := resting :: pass.resting } := by
  refine ⟨h.incoming_eq, ?_, h.fair_cons resting, ?_, h.dropped_expired, h.filled_full⟩
  · rw [List.map_cons, afterFills_of_not_involved hself]
    exact h.conserved.cons resting
  · intro o ho
    rcases List.mem_cons.mp ho with rfl | ho
    · exact hopen
    · exact h.resting_open o ho

theorem PassSpec.drop (h : PassSpec now incomingIsBid rest incoming pass)
    (hself : ∀ m ∈ pass.matches_, m.involves resting.txId = false)
    (hexpired : expired resting now = true) :
    PassSpec now incomingIsBid (resting :: rest) incoming
      { pass with dropped := resting :: pass.dropped } := by
  refine ⟨h.incoming_eq, ?_, h.fair_cons resting, h.resting_open, ?_, h.filled_full⟩
  · rw [List.map_cons, afterFills_of_not_involved hself]
    exact List.perm_middle.trans (h.conserved.cons resting)
  · intro o ho
    rcases List.mem_cons.mp ho with rfl | ho
    · exact hexpired
    · exact h.dropped_expired o ho

theorem PassSpec.fill {m : ClobMatch}
    (h : PassSpec now incomingIsBid rest (afterFill incoming m) pass)
    (hfair : Fair (bidAsk incomingIsBid incoming resting).1
      (bidAsk incomingIsBid incoming resting).2 m)
    (hself : ∀ m' ∈ pass.matches_, m'.involves resting.txId = false)
    (hrest : ∀ o ∈ rest, m.involves o.txId = false) :
    PassSpec now incomingIsBid (resting :: rest) incoming
      (if remainingShares (afterFill resting m) = 0 then
        { pass with matches_ := m :: pass.matches_, filled := afterFill resting m :: pass.filled }
      else
        { pass with
          matches_ := m :: pass.matches_, resting := afterFill resting m :: pass.resting }) := by
  have hhead : afterFills resting (m :: pass.matches_) = afterFill resting m := by
    rw [afterFills_cons]
    exact afterFills_of_not_involved (by simpa using hself)
  have htail : rest.map (afterFills · (m :: pass.matches_)) =
      rest.map (afterFills · pass.matches_) := by
    apply List.map_congr_left
    intro o ho
    rw [afterFills_cons, afterFill_of_not_involved (hrest o ho)]
  have hfairs : ∀ before m' after, m :: pass.matches_ = before ++ m' :: after →
      ∃ o ∈ resting :: rest,
        Fair (bidAsk incomingIsBid (afterFills incoming before) (afterFills o before)).1
          (bidAsk incomingIsBid (afterFills incoming before) (afterFills o before)).2 m' := by
    intro before m' after hsplit
    cases before with
    | nil =>
        rw [List.nil_append, List.cons.injEq] at hsplit
        obtain ⟨rfl, _⟩ := hsplit
        exact ⟨resting, List.mem_cons_self, hfair⟩
    | cons m₀ before =>
        rw [List.cons_append, List.cons.injEq] at hsplit
        obtain ⟨rfl, hsplit⟩ := hsplit
        obtain ⟨o, ho, hfair'⟩ := h.fair before m' after hsplit
        refine ⟨o, List.mem_cons_of_mem _ ho, ?_⟩
        rw [afterFills_cons, afterFills_cons, afterFill_of_not_involved (hrest o ho)]
        exact hfair'
  by_cases hfull : remainingShares (afterFill resting m) = 0
  · rw [if_pos hfull]
    refine ⟨h.incoming_eq, ?_, hfairs, h.resting_open, h.dropped_expired, ?_⟩
    · rw [List.map_cons, hhead, htail, ← List.append_assoc]
      exact List.perm_middle.trans ((List.append_assoc _ _ _ ▸ h.conserved).cons _)
    · intro o ho
      rcases List.mem_cons.mp ho with rfl | ho
      · exact hfull
      · exact h.filled_full o ho
  · rw [if_neg hfull]
    refine ⟨h.incoming_eq, ?_, hfairs, ?_, h.dropped_expired, h.filled_full⟩
    · rw [List.map_cons, hhead, htail]
      exact h.conserved.cons _
    · intro o ho
      rcases List.mem_cons.mp ho with rfl | ho
      · exact Nat.pos_of_ne_zero hfull
      · exact h.resting_open o ho

end Steps

theorem matchLoop_spec (now : Nat) (incomingIsBid : Bool) (opposite : List CreateOrderRequestClob)
    (incoming : CreateOrderRequestClob)
    (hnodup : (incoming.txId :: opposite.map (·.txId)).Nodup)
    (hincoming : isBid incoming = incomingIsBid)
    (hdirection : ∀ o ∈ opposite, isBid o = !incomingIsBid)
    (hopen : ∀ o ∈ opposite, 0 < remainingShares o) :
    PassSpec now incomingIsBid opposite incoming
      (matchLoop now incomingIsBid opposite incoming) := by
  induction opposite generalizing incoming with
  | nil => exact .stop incoming hopen
  | cons resting rest ih =>
      have hrestOpen : ∀ o ∈ rest, 0 < remainingShares o :=
        fun o ho => hopen o (List.mem_cons_of_mem _ ho)
      have hrestDirection : ∀ o ∈ rest, isBid o = !incomingIsBid :=
        fun o ho => hdirection o (List.mem_cons_of_mem _ ho)
      simp only [List.map_cons, List.nodup_cons, List.mem_cons, List.mem_map, not_or, not_exists,
        not_and] at hnodup
      obtain ⟨⟨hne, hincomingNew⟩, hrestingNew, hrestNodup⟩ := hnodup
      have hrestingRest : ∀ o ∈ rest, resting.txId ≠ o.txId := fun o ho h => hrestingNew o ho h.symm
      -- the pass over the rest, for the incoming order in any state
      have htail (current : CreateOrderRequestClob) (htx : current.txId = incoming.txId)
          (hcurrent : isBid current = incomingIsBid) :
          PassSpec now incomingIsBid rest current (matchLoop now incomingIsBid rest current) ∧
          ∀ m ∈ (matchLoop now incomingIsBid rest current).matches_,
            m.involves resting.txId = false := by
        have hspec := ih current ?_ hcurrent hrestDirection hrestOpen
        · refine ⟨hspec, hspec.not_involved ?_ hrestingRest⟩
          rw [htx]
          exact Ne.symm hne
        · rw [htx, List.nodup_cons]
          refine ⟨?_, hrestNodup⟩
          simpa using hincomingNew
      have hsame := htail incoming rfl hincoming
      simp only [matchLoop]
      by_cases hdone : remainingShares incoming = 0
      · rw [if_pos hdone]
        exact .stop incoming hopen
      rw [if_neg hdone]
      by_cases hexpired : expired resting now = true
      · rw [if_pos hexpired]
        exact hsame.1.drop hsame.2 hexpired
      rw [if_neg hexpired]
      by_cases hcrosses : crosses (bidAsk incomingIsBid incoming resting).1
          (bidAsk incomingIsBid incoming resting).2 = true
      · rw [if_neg (by simp [hcrosses])]
        cases hfill : tryFill incomingIsBid incoming resting with
        | none => exact hsame.1.keep hsame.2 (hopen resting List.mem_cons_self)
        | some fillPrice =>
            obtain ⟨fill, price⟩ := fillPrice
            have hfair := fillMatch_fair hincoming (hdirection resting List.mem_cons_self)
              hcrosses hfill
            have hinvolves := bidAsk_involves hfair
            have hfilledIncoming : afterFill incoming
                (fillMatch incomingIsBid incoming resting fill price) = filledBy incoming fill
                  ((splitCollateral fill price).getD (0, 0)).1
                  ((splitCollateral fill price).getD (0, 0)).2 := by
              unfold afterFill
              rw [if_pos ((hinvolves _).mpr (Or.inl rfl))]
              rfl
            have hfilledResting : afterFill resting
                (fillMatch incomingIsBid incoming resting fill price) = filledBy resting fill
                  ((splitCollateral fill price).getD (0, 0)).1
                  ((splitCollateral fill price).getD (0, 0)).2 := by
              unfold afterFill
              rw [if_pos ((hinvolves _).mpr (Or.inr rfl))]
              rfl
            have hnext := htail (afterFill incoming
              (fillMatch incomingIsBid incoming resting fill price)) (afterFill_txId _ _)
              (by rw [hfilledIncoming]; exact hincoming)
            have hspec := hnext.1.fill hfair hnext.2 ?_
            · simp only [hfilledIncoming, hfilledResting] at hspec
              exact hspec
            · intro o ho
              rw [Bool.eq_false_iff]
              intro hinvolved
              rcases (hinvolves _).mp hinvolved with heq | heq
              · exact hincomingNew o ho heq
              · exact hrestingNew o ho heq
      · rw [if_pos (by simp [hcrosses])]
        exact .stop incoming hopen

end PrismBackend.Clob
