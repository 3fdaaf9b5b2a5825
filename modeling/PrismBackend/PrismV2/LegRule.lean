import PrismBackend.PrismV2.Consent
import PrismBackend.PrismV2.Acceptance

/-!
# PrismV2: one rule for each leg

A settlement does to a signer what that signer's own order says, whatever
pairing it is: the rule of one leg mentions neither the other order nor which
argument the order was. So the two legs may be exchanged.
-/

namespace PrismBackend.PrismV2

open PrismBackend.Lib

/-- All that a fill does to the signer of an order, and what the contract records of it. -/
structure LegRule (c : Chain) (s s' : State) (x : Authorization) (shares price : Nat) : Prop
    extends LegDone s s' x shares (fillCollateral x shares price) where
  kept : ∀ side m, ¬(side = x.side ∧ m = x.marketId) →
    s'.position side m x.signer = s.position side m x.signer
  recorded : s'.fills (authorizationHash c x) =
    ⟨(s.fills (authorizationHash c x)).shares + shares,
      (s.fills (authorizationHash c x)).collateral + fillCollateral x shares price⟩

/-- What a settlement of two orders leaves as it was. -/
structure Untouched (c : Chain) (s s' : State) (a b : Authorization) (matchId : Bytes32) :
    Prop where
  collateral : ∀ account, account ≠ a.signer → account ≠ b.signer → account ≠ c.self →
    s'.collateral account = s.collateral account
  position : ∀ account, account ≠ a.signer → account ≠ b.signer → ∀ side m,
    s'.position side m account = s.position side m account
  market : ∀ m, m ≠ a.marketId → s'.view m = s.view m
  state : ∀ m, (s'.markets m).state = (s.markets m).state
  closeTime : ∀ m, (s'.markets m).closeTime = (s.markets m).closeTime
  rakeBps : ∀ m, (s'.markets m).rakeBps = (s.markets m).rakeBps
  statements : s'.statements = s.statements
  fills : ∀ hash, hash ≠ authorizationHash c a → hash ≠ authorizationHash c b →
    s'.fills hash = s.fills hash
  nonces : ∀ signer txId, ¬(signer = a.signer ∧ txId = a.txId) →
    ¬(signer = b.signer ∧ txId = b.txId) →
    s'.authorizationByNonce signer txId = s.authorizationByNonce signer txId
  canceled : s'.canceled = s.canceled
  executed : ∀ m, m ≠ matchId → s'.executedMatches m = s.executedMatches m
  roles : s'.roles = s.roles

/-- What the signer of an order pays or receives for a fill. -/
def paidIn (x : Authorization) (shares price : Nat) : Nat :=
  if x.action = .buy then fillCollateral x shares price else 0

def paidOut (x : Authorization) (shares price : Nat) : Nat :=
  if x.action = .buy then 0 else fillCollateral x shares price

theorem fillCollateral_sides {a b : Authorization} (hsides : a.side ≠ b.side)
    (shares price : Nat) :
    fillCollateral a shares price + fillCollateral b shares price =
      yesCollateral shares price + noCollateral shares price := by
  unfold fillCollateral legCollateral
  cases ha : a.side <;> cases hb : b.side
  · exact absurd (ha.trans hb.symm) hsides
  · rfl
  · exact Nat.add_comm ..
  · exact absurd (ha.trans hb.symm) hsides

section Settled

variable {c : Chain} {known : Set Authorization} {env : Env} {s s' : State} {a b : Authorization}
  {signatureA signatureB : Bytes} {shares price : Nat} {matchId : Bytes32}

/-- The contract itself takes what BUYs pay and gives what SELLs receive. -/
theorem settle_pool
    (h : settle c env a signatureA b signatureB shares price matchId s = .ok s')
    (ha : a.signer ≠ c.self) (hb : b.signer ≠ c.self) :
    s'.collateral c.self + paidOut a shares price + paidOut b shares price =
      s.collateral c.self + paidIn a shares price + paidIn b shares price := by
  obtain ⟨hadmitted, s₁, hpair, _, rfl⟩ := (settle_ok_iff ..).mp h
  show s₁.collateral c.self + _ + _ = _
  have hpick (p : Prop) [Decidable p] : (if p then a else b).signer ≠ c.self := by
    split
    · exact ha
    · exact hb
  cases hpair with
  | mint hactions hsides _ =>
      have hlegs := fillCollateral_sides hsides shares price
      simp only [State.minted, yesOrder, noOrder, paidOut, paidIn, hactions, if_true]
      rw [move_target _ (hpick _), move_target _ (hpick _)]
      have hbooked : (s.booked c a b shares price matchId).collateral = s.collateral := rfl
      rw [hbooked]
      omega
  | merge hactions hsides hguard =>
      have hlegs := fillCollateral_sides hsides shares price
      have hyes := hguard.yesFunded
      have hno := hguard.noFunded
      simp only [State.merged, yesOrder, noOrder, paidOut, paidIn, hactions, reduceCtorEq,
        if_false] at hyes hno ⊢
      rw [move_source _ (hpick _).symm] at hno
      rw [move_source _ (hpick _).symm, move_source _ (hpick _).symm]
      have hbooked : (s.booked c a b shares price matchId).collateral = s.collateral := rfl
      rw [hbooked] at hyes hno ⊢
      omega
  | transfer hactions hsides _ =>
      simp only [State.transferred, buyer, seller]
      rw [move_other _ (hpick _).symm (hpick _).symm]
      show s.collateral c.self + _ + _ = _
      unfold paidOut paidIn fillCollateral
      rw [hsides]
      cases hfirst : a.action <;> cases hsecond : b.action <;> simp_all

theorem settle_legRule (hc : c.HashSound known) (ha : a ∈ known) (hb : b ∈ known)
    (h : settle c env a signatureA b signatureB shares price matchId s = .ok s')
    {x : Authorization} (hx : x = a ∨ x = b) : LegRule c s s' x shares price := by
  obtain ⟨hadmitted, s₁, hpair, _, rfl⟩ := (settle_ok_iff ..).mp h
  have hdone := hpair.leg hadmitted.market hadmitted.signers hadmitted.yesLeg hadmitted.noLeg hx
  constructor
  · exact ⟨hdone.paid, hdone.gained, hdone.received, hdone.gaveUp⟩
  · intro side m hother
    apply hpair.position_of_ne hadmitted.market
    intro y hy hsame
    -- the signer's own order is the only one of the two that carries its account
    have hyx : y = x := by
      rcases hx with rfl | rfl <;> rcases hy with rfl | rfl
      · rfl
      · exact absurd hsame.2.1 hadmitted.signers
      · exact absurd hsame.2.1.symm hadmitted.signers
      · rfl
    rw [hyx] at hsame
    exact hother ⟨hsame.2.2, hsame.1⟩
  · show s₁.fills (authorizationHash c x) = _
    rw [hpair.sameControl.fills]
    exact booked_fills_self hc ha hb hadmitted.ne hx

theorem settle_untouched
    (h : settle c env a signatureA b signatureB shares price matchId s = .ok s') :
    Untouched c s s' a b matchId := by
  obtain ⟨hadmitted, s₁, hpair, _, rfl⟩ := (settle_ok_iff ..).mp h
  have hsame := hpair.sameControl
  constructor
  · intro account ha hb hself
    exact hpair.collateral_of_ne ha hb hself
  · intro account ha hb side m
    apply hpair.position_of_ne hadmitted.market
    intro x hx hother
    rcases hx with rfl | rfl
    · exact ha hother.2.1
    · exact hb hother.2.1
  · intro m hm
    exact hpair.view_of_ne hm
  · exact hsame.state
  · exact hsame.closeTime
  · exact hsame.rakeBps
  · exact hsame.statements
  · intro hash ha hb
    show s₁.fills hash = s.fills hash
    rw [hsame.fills]
    simp only [State.booked, State.consumed, Function.update_of_ne hb, Function.update_of_ne ha]
  · intro signer txId ha hb
    show s₁.authorizationByNonce signer txId = _
    rw [hsame.authorizationByNonce]
    simp only [State.booked, State.consumed, update₂_apply, if_neg ha, if_neg hb]
  · exact hsame.canceled
  · intro m hm
    show s₁.executedMatches m = _
    rw [hsame.executedMatches]
    exact Function.update_of_ne hm _ _
  · exact hsame.roles

/-! ## Shares -/

/-- What a fill of an order adds to a position. -/
def Authorization.shareDelta (x : Authorization) (shares : Nat) (side : Side) (marketId : Uint128)
    (account : Address) : Int :=
  if marketId = x.marketId ∧ account = x.signer ∧ side = x.side then
    match x.action with
    | .buy => shares
    | .sell => -(shares : Int)
  else 0

/-- A fill adds to one signer's position of an outcome what that signer's order says. -/
theorem LegDone.shareDelta {x : Authorization} {leg : Nat} (h : LegDone s s' x shares leg) :
    (s'.position x.side x.marketId x.signer : Int) =
      s.position x.side x.marketId x.signer + x.shareDelta shares x.side x.marketId x.signer := by
  unfold Authorization.shareDelta
  rw [if_pos ⟨rfl, rfl, rfl⟩]
  cases haction : x.action with
  | buy =>
      have hgained := h.gained haction
      dsimp only
      omega
  | sell =>
      have hgaveUp := h.gaveUp haction
      dsimp only
      omega

theorem shareDelta_of_other {x y : Authorization} (hsigners : x.signer ≠ y.signer)
    {side : Side} {marketId : Uint128} {account : Address}
    (h : marketId = x.marketId ∧ account = x.signer ∧ side = x.side) :
    y.shareDelta shares side marketId account = 0 := by
  unfold Authorization.shareDelta
  exact if_neg fun hy => hsigners (h.2.1.symm.trans hy.2.1)

theorem effect_settle {event : Option Redeemed}
    (heffect : Effect c env s (.settle a signatureA b signatureB shares price matchId) s' event) :
    Admitted c env s a signatureA b signatureB shares price matchId ∧
      ∃ s₁, PairingEffect c env a b shares (yesCollateral shares price) (noCollateral shares price)
        (s.booked c a b shares price matchId) s₁ ∧ s' = nonReentrantAfter s₁ := by
  cases heffect with
  | settle hadmitted hpair _ => exact ⟨hadmitted, _, hpair, rfl⟩
  | configure hcall => exact absurd hcall (by simp [Call.configures])
  | transition _ _ hcall => exact absurd hcall (by simp [Call.transitions])

/-- A settlement moves every position by what its two orders say. -/
theorem settle_position {event : Option Redeemed}
    (heffect : Effect c env s (.settle a signatureA b signatureB shares price matchId) s' event)
    (side : Side) (marketId : Uint128) (account : Address) :
    (s'.position side marketId account : Int) =
      s.position side marketId account + a.shareDelta shares side marketId account +
        b.shareDelta shares side marketId account := by
  obtain ⟨hadmitted, s₁, hpair, rfl⟩ := effect_settle heffect
  have hleg {x : Authorization} (hx : x = a ∨ x = b) :=
    (hpair.leg hadmitted.market hadmitted.signers hadmitted.yesLeg hadmitted.noLeg hx).shareDelta
  by_cases ha : marketId = a.marketId ∧ account = a.signer ∧ side = a.side
  · rw [shareDelta_of_other hadmitted.signers ha, add_zero]
    obtain ⟨rfl, rfl, rfl⟩ := ha
    exact hleg (Or.inl rfl)
  by_cases hb : marketId = b.marketId ∧ account = b.signer ∧ side = b.side
  · rw [shareDelta_of_other hadmitted.signers.symm hb, add_zero]
    obtain ⟨rfl, rfl, rfl⟩ := hb
    exact hleg (Or.inr rfl)
  have hstay : s₁.position side marketId account = s.position side marketId account := by
    apply hpair.position_of_ne hadmitted.market
    rintro x (rfl | rfl)
    · exact ha
    · exact hb
  have hdone : (nonReentrantAfter s₁).position side marketId account =
      s.position side marketId account := hstay
  unfold Authorization.shareDelta
  rw [hdone, if_neg ha, if_neg hb, add_zero, add_zero]

def Call.movesShares : Call → Bool
  | .settle _ _ _ _ _ _ _ => true
  | .redeem _ => true
  | _ => false

theorem effect_position_same {call : Call} {event : Option Redeemed}
    (heffect : Effect c env s call s' event) (hcall : call.movesShares = false) :
    s'.position = s.position := by
  funext side
  cases heffect with
  | settle | redeem => exact absurd hcall (by simp [Call.movesShares])
  | _ => cases side <;> rfl

/-! ## The two legs exchanged -/

theorem yesOrder_swap (hsides : a.side ≠ b.side) : yesOrder b a = yesOrder a b := by
  obtain ⟨x, hx, hside⟩ := exists_side hsides .yes
  rw [yesOrder_eq hsides hx hside, yesOrder_eq hsides.symm hx.symm hside]

theorem noOrder_swap (hsides : a.side ≠ b.side) : noOrder b a = noOrder a b := by
  obtain ⟨x, hx, hside⟩ := exists_side hsides .no
  rw [noOrder_eq hsides hx hside, noOrder_eq hsides.symm hx.symm hside]

theorem buyer_swap (hactions : a.action ≠ b.action) : buyer b a = buyer a b := by
  obtain ⟨x, hx, haction⟩ := exists_action hactions .buy
  rw [buyer_eq hactions hx haction, buyer_eq hactions.symm hx.symm haction]

theorem seller_swap (hactions : a.action ≠ b.action) : seller b a = seller a b := by
  obtain ⟨x, hx, haction⟩ := exists_action hactions .sell
  rw [seller_eq hactions hx haction, seller_eq hactions.symm hx.symm haction]

theorem PairingEffect.swap {yesLeg noLeg : Nat}
    (h : PairingEffect c env a b shares yesLeg noLeg s s') (hmarket : a.marketId = b.marketId) :
    PairingEffect c env b a shares yesLeg noLeg s s' := by
  cases h with
  | mint hactions hsides hguard =>
      rw [hmarket, ← yesOrder_swap hsides, ← noOrder_swap hsides] at hguard ⊢
      exact .mint hactions.symm hsides.symm hguard
  | merge hactions hsides hguard =>
      rw [hmarket, ← yesOrder_swap hsides, ← noOrder_swap hsides] at hguard ⊢
      exact .merge hactions.symm hsides.symm hguard
  | transfer hactions hsides hguard =>
      rw [hmarket, hsides, ← seller_swap hactions, ← buyer_swap hactions] at hguard ⊢
      exact .transfer hactions.symm hsides.symm hguard

theorem booked_swap (hc : c.HashSound known) (ha : a ∈ known) (hb : b ∈ known)
    (hsigners : a.signer ≠ b.signer) :
    s.booked c b a shares price matchId = s.booked c a b shares price matchId := by
  have hhash : authorizationHash c a ≠ authorizationHash c b := by
    apply hc.injOn.ne ha hb
    intro heq
    exact hsigners (congrArg Authorization.signer heq)
  simp only [State.booked, State.consumed, Function.update_of_ne hhash,
    Function.update_of_ne hhash.symm]
  rw [Function.update_comm hhash.symm, update₂_comm _ (Or.inl hsigners.symm)]

theorem Admitted.swap (hc : c.HashSound known) (ha : a ∈ known) (hb : b ∈ known)
    (h : Admitted c env s a signatureA b signatureB shares price matchId) :
    Admitted c env s b signatureB a signatureA shares price matchId where
  operator := h.operator
  entered := h.entered
  matchId_ne_zero := h.matchId_ne_zero
  fresh := h.fresh
  market := h.market.symm
  signers := h.signers.symm
  isOpen := by
    rw [← h.market]
    exact h.isOpen
  beforeClose := by
    rw [← h.market]
    exact h.beforeClose
  fillShares_ne_zero := h.fillShares_ne_zero
  price_ne_zero := h.price_ne_zero
  price_lt := h.price_lt
  validA := h.validB
  validB := h.validA
  collateralFits := h.collateralFits
  yesLeg := h.yesLeg
  noLeg := h.noLeg
  consumeA := h.room hc ha hb (Or.inr rfl)
  consumeB := (h.room hc ha hb (Or.inl rfl)).after hc hb ha h.signers.symm

theorem settle_swap_ok (hc : c.HashSound known) (ha : a ∈ known) (hb : b ∈ known)
    (h : settle c env a signatureA b signatureB shares price matchId s = .ok s') :
    settle c env b signatureB a signatureA shares price matchId s = .ok s' := by
  obtain ⟨hadmitted, s₁, hpair, hsolvent, hs'⟩ := (settle_ok_iff ..).mp h
  rw [settle_ok_iff, booked_swap hc ha hb hadmitted.signers]
  exact ⟨hadmitted.swap hc ha hb, s₁, hpair.swap hadmitted.market, hsolvent, hs'⟩

end Settled

/-- At every point of every run: a settlement gives each signer the leg of its own order and
records exactly that, touches nothing else, and does the same with its two legs exchanged. Over
the run, the collateral recorded for an order is what its signer paid or received for it. -/
theorem legs_independent {c : Chain} {known : Set Authorization} (hc : c.HashSound known)
    (d : Deployment c) (txs : List Tx) (htxs : ∀ tx ∈ txs, tx.call.Within known) :
    (∀ env, ∀ a ∈ known, ∀ signatureA, ∀ b ∈ known, ∀ signatureB shares price matchId s',
      settle c env a signatureA b signatureB shares price matchId (run c d.state txs) = .ok s' →
      (∀ x, x = a ∨ x = b → LegRule c (run c d.state txs) s' x shares price) ∧
      Untouched c (run c d.state txs) s' a b matchId ∧
      (a.signer ≠ c.self → b.signer ≠ c.self →
        s'.collateral c.self + paidOut a shares price + paidOut b shares price =
          (run c d.state txs).collateral c.self + paidIn a shares price + paidIn b shares price)) ∧
    (∀ env, ∀ a ∈ known, ∀ signatureA, ∀ b ∈ known, ∀ signatureB shares price matchId s',
      settle c env a signatureA b signatureB shares price matchId (run c d.state txs) = .ok s' ↔
        settle c env b signatureB a signatureA shares price matchId (run c d.state txs) =
          .ok s') ∧
    ∀ x ∈ known, (x.action = .buy →
        ((run c d.state txs).fills (authorizationHash c x)).collateral =
          paidFor x (trace c d.state txs)) ∧
      (x.action = .sell →
        ((run c d.state txs).fills (authorizationHash c x)).collateral =
          receivedFor x (trace c d.state txs)) := by
  refine ⟨?_, ?_, ?_⟩
  · intro env a ha signatureA b hb signatureB shares price matchId s' h
    exact ⟨fun x hx => settle_legRule hc ha hb h hx, settle_untouched h, settle_pool h⟩
  · intro env a ha signatureA b hb signatureB shares price matchId s'
    constructor
    · exact settle_swap_ok hc ha hb
    · exact settle_swap_ok hc hb ha
  · intro x hx
    rw [d.run_fills hc htxs hx]
    constructor
    · intro hbuy
      exact (paidFor_eq hbuy).symm
    · intro hsell
      exact (receivedFor_eq hsell).symm

theorem legs_independent_sample :
    ((run encodingChain (sampleDeployment encodingChain rfl).state sampleTrades).fills
        (authorizationHash encodingChain (sampleOrder 5 1 .yes .buy))).collateral =
      paidFor (sampleOrder 5 1 .yes .buy)
        (trace encodingChain (sampleDeployment encodingChain rfl).state sampleTrades) :=
  ((legs_independent (encodingChain_hashSound Set.univ) (sampleDeployment encodingChain rfl)
    sampleTrades fun tx _ => tx.call.within_univ).2.2 (sampleOrder 5 1 .yes .buy)
    (Set.mem_univ _)).1 rfl

end PrismBackend.PrismV2
