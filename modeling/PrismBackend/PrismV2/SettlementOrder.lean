import PrismBackend.Lib.Courses
import PrismBackend.PrismV2.LegRule

/-!
# PrismV2: the order of settlements

Settlements, cancellations and token transfers that succeed in two orders leave
the same contract: each of them adds to balances, counters and fills, raises
flags, or claims a nonce that nothing rewrites.
-/

namespace PrismBackend.PrismV2

open PrismBackend.Lib

/-! ## Trades -/

/-- The calls by which accounts trade, beside the owner's and the oracle's and redemptions. -/
def Call.isTrade : Call → Bool
  | .settle .. | .cancelAuthorization _ | .tokenTransfer .. => true
  | _ => false

/-- Who called what, for each successful transaction of a run. -/
def performed (c : Chain) (s : State) (txs : List Tx) : List (Address × Call) :=
  (trace c s txs).map fun r => (r.tx.env.sender, r.tx.call)

def TradeStep (c : Chain) (s : State) (l : Address × Call) (s' : State) : Prop :=
  l.2.isTrade = true ∧ ∃ env event, env.sender = l.1 ∧ Effect c env s l.2 s' event

/-- The successful trades of a run are a course from its first state to its last. -/
theorem run_course (c : Chain) (s : State) (txs : List Tx)
    (htrades : ∀ l ∈ performed c s txs, l.2.isTrade = true) :
    Course (TradeStep c) s (performed c s txs) (run c s txs) := by
  induction txs generalizing s with
  | nil => exact .nil s
  | cons tx txs ih =>
      unfold performed at htrades ⊢
      rw [run_cons]
      cases hexec : exec c tx s with
      | ok r =>
          rw [trace_cons_ok hexec, List.map_cons, List.forall_mem_cons] at htrades
          rw [trace_cons_ok hexec, apply_ok hexec, List.map_cons]
          refine .cons ⟨htrades.1, tx.env, r.2, rfl, exec_effect hexec⟩ ?_
          exact ih r.1 htrades.2
      | error e =>
          rw [trace_cons_error hexec] at htrades
          rw [trace_cons_error hexec, apply_error hexec]
          exact ih s htrades

/-- What a trade does, without the calls that are no trades. -/
theorem TradeStep.cases {c : Chain} {s s' : State} {l : Address × Call} (h : TradeStep c s l s') :
    (∃ txId, l.2 = .cancelAuthorization txId ∧
      s' = { s with canceled := update₂ s.canceled l.1 txId true }) ∨
    (∃ source target amount, l.2 = .tokenTransfer source target amount ∧
      amount ≤ s.collateral source ∧
      s' = { s with collateral := move s.collateral source target amount }) ∨
    ∃ env a signatureA b signatureB shares price matchId s₁,
      l.2 = .settle a signatureA b signatureB shares price matchId ∧
      Admitted c env s a signatureA b signatureB shares price matchId ∧
      PairingEffect c env a b shares (yesCollateral shares price) (noCollateral shares price)
        (s.booked c a b shares price matchId) s₁ ∧ s' = nonReentrantAfter s₁ := by
  obtain ⟨sender, call⟩ := l
  obtain ⟨htrade, env, event, rfl, heffect⟩ := h
  cases heffect with
  | cancel txId => exact Or.inl ⟨txId, rfl, rfl⟩
  | tokenTransfer source target amount _ hfunded =>
      exact Or.inr (Or.inl ⟨source, target, amount, rfl, hfunded, rfl⟩)
  | settle hadmitted hpair _ =>
      exact Or.inr (Or.inr ⟨env, _, _, _, _, _, _, _, _, rfl, hadmitted, hpair, rfl⟩)
  | configure hcall => cases call <;> simp_all [Call.isTrade, Call.configures]
  | transition _ _ hcall => cases call <;> simp_all [Call.isTrade, Call.transitions]
  | create | redeem => exact absurd htrade (by simp [Call.isTrade])

/-! ## Sums -/

/-- What a fill of an order adds to the collateral of an account. -/
def Authorization.cashDelta (x : Authorization) (shares price : Nat) (account : Address) : Int :=
  if account = x.signer then paidOut x shares price - paidIn x shares price else 0

def Call.cashDelta (c : Chain) (account : Address) : Call → Int
  | .settle a _ b _ shares price _ =>
    a.cashDelta shares price account + b.cashDelta shares price account +
      if account = c.self then
        (paidIn a shares price : Int) + paidIn b shares price - paidOut a shares price -
          paidOut b shares price
      else 0
  | .tokenTransfer source target amount =>
    (if account = target then (amount : Int) else 0) -
      if account = source then (amount : Int) else 0
  | _ => 0

def Call.shareDelta (side : Side) (marketId : Uint128) (account : Address) : Call → Int
  | .settle a _ b _ shares _ _ =>
    a.shareDelta shares side marketId account + b.shareDelta shares side marketId account
  | _ => 0

/-- The complete sets that a call issues, negative when it burns them. -/
def Call.setsDelta : Call → Int
  | .settle a _ b _ shares _ _ =>
    match a.action, b.action with
    | .buy, .buy => shares
    | .sell, .sell => -shares
    | _, _ => 0
  | _ => 0

/-- The shares of each outcome that exist in a market, and what is reserved for them. -/
def State.counters (s : State) (marketId : Uint128) : Int × Int × Int :=
  ((s.markets marketId).totalYes, (s.markets marketId).totalNo, (s.markets marketId).reserve)

def Call.countersDelta (marketId : Uint128) (call : Call) : Int × Int × Int :=
  if call.market = some marketId then (call.setsDelta, call.setsDelta, call.setsDelta)
  else (0, 0, 0)

def State.recorded (s : State) (hash : Bytes32) : Nat × Nat :=
  ((s.fills hash).shares, (s.fills hash).collateral)

/-- What a call adds to the shares and the collateral recorded under a hash. -/
def Call.fillDelta (c : Chain) (hash : Bytes32) : Call → Nat × Nat
  | .settle a _ b _ shares price _ =>
    (if hash = authorizationHash c a then (shares, fillCollateral a shares price) else 0) +
      if hash = authorizationHash c b then (shares, fillCollateral b shares price) else 0
  | _ => 0

/-- Whether a call of `sender` cancels a nonce. -/
def Call.cancels (sender signer : Address) (txId : Uint128) : Call → Bool
  | .cancelAuthorization txId' => signer = sender ∧ txId = txId'
  | _ => false

def Call.nonceClaim (c : Chain) (signer : Address) (txId : Uint128) : Call → Option Bytes32
  | .settle a _ b _ _ _ _ =>
    if signer = b.signer ∧ txId = b.txId then some (authorizationHash c b)
    else if signer = a.signer ∧ txId = a.txId then some (authorizationHash c a)
    else none
  | _ => none

theorem move_int (f : Address → Nat) {source : Address} (target : Address) {amount : Nat}
    (hfunded : amount ≤ f source) (account : Address) :
    (move f source target amount account : Int) =
      f account + ((if account = target then (amount : Int) else 0) -
        if account = source then (amount : Int) else 0) := by
  by_cases hself : source = target
  · subst hself
    rw [move_self f source hfunded, sub_self, add_zero]
  by_cases ht : account = target
  · subst ht
    rw [move_target f hself, if_pos rfl, if_neg (Ne.symm hself)]
    omega
  · by_cases hs : account = source
    · subst hs
      rw [move_source f hself, if_neg ht, if_pos rfl]
      omega
    · rw [move_other f hs ht, if_neg ht, if_neg hs]
      omega

section Pairing

variable {c : Chain} {env : Env} {s s' : State} {a b : Authorization} {shares price : Nat}

/-- A pairing moves collateral as the two orders say, through the contract or past it. -/
theorem PairingEffect.cashDelta {signatureA signatureB : Bytes} {matchId : Bytes32}
    (h : PairingEffect c env a b shares (yesCollateral shares price) (noCollateral shares price)
      s s') (account : Address) :
    (s'.collateral account : Int) = s.collateral account +
      Call.cashDelta c account (.settle a signatureA b signatureB shares price matchId) := by
  cases h with
  | mint hactions hsides hguard =>
      have hyes := move_int s.collateral c.self hguard.yesFunded account
      have hno := move_int _ c.self hguard.noFunded account
      simp only [State.minted, Call.cashDelta, Authorization.cashDelta, paidIn, paidOut,
        hactions, if_true, fillCollateral, legCollateral]
      cases ha : a.side <;> cases hb : b.side
      · exact absurd (ha.trans hb.symm) hsides
      · simp only [yesOrder, noOrder, ha, reduceCtorEq, if_true, if_false] at hyes hno ⊢
        split_ifs at hyes hno ⊢ <;> omega
      · simp only [yesOrder, noOrder, ha, reduceCtorEq, if_true, if_false] at hyes hno ⊢
        split_ifs at hyes hno ⊢ <;> omega
      · exact absurd (ha.trans hb.symm) hsides
  | merge hactions hsides hguard =>
      have hyes := move_int s.collateral (yesOrder a b).signer hguard.yesFunded account
      have hno := move_int _ (noOrder a b).signer hguard.noFunded account
      simp only [State.merged, Call.cashDelta, Authorization.cashDelta, paidIn, paidOut,
        hactions, reduceCtorEq, if_false, fillCollateral, legCollateral]
      cases ha : a.side <;> cases hb : b.side
      · exact absurd (ha.trans hb.symm) hsides
      · simp only [yesOrder, noOrder, ha, reduceCtorEq, if_true, if_false] at hyes hno ⊢
        split_ifs at hyes hno ⊢ <;> omega
      · simp only [yesOrder, noOrder, ha, reduceCtorEq, if_true, if_false] at hyes hno ⊢
        split_ifs at hyes hno ⊢ <;> omega
      · exact absurd (ha.trans hb.symm) hsides
  | transfer hactions hsides hguard =>
      have hpaid := move_int s.collateral (seller a b).signer hguard.funded account
      simp only [State.transferred, Call.cashDelta, Authorization.cashDelta, paidIn, paidOut,
        fillCollateral, ← hsides]
      cases ha : a.action <;> cases hb : b.action
      · exact absurd (ha.trans hb.symm) hactions
      · simp only [buyer, seller, ha, reduceCtorEq, if_true, if_false] at hpaid ⊢
        split_ifs at hpaid ⊢ <;> omega
      · simp only [buyer, seller, ha, reduceCtorEq, if_true, if_false] at hpaid ⊢
        split_ifs at hpaid ⊢ <;> omega
      · exact absurd (ha.trans hb.symm) hactions

/-- A pairing issues or burns as many shares of each outcome as it reserves or frees. -/
theorem PairingEffect.setsDelta {signatureA signatureB : Bytes} {matchId : Bytes32}
    {yesLeg noLeg : Nat} (h : PairingEffect c env a b shares yesLeg noLeg s s') :
    (s'.aggregateReserved : Int) = s.aggregateReserved +
        Call.setsDelta (.settle a signatureA b signatureB shares price matchId) ∧
      ∀ m, s'.counters m = s.counters m + Call.countersDelta m
        (.settle a signatureA b signatureB shares price matchId) := by
  cases h with
  | mint hactions _ hguard =>
      simp only [Call.countersDelta, Call.setsDelta, hactions, Call.market, Option.some.injEq]
      refine ⟨rfl, fun m => ?_⟩
      by_cases hm : a.marketId = m
      · subst hm
        simp [State.counters, State.minted, State.setMarket]
      · simp [State.counters, State.minted, State.setMarket, hm, Ne.symm hm]
  | merge hactions _ hguard =>
      have haggregate := hguard.aggregate
      have hreserved := hguard.reserved
      have hyes := hguard.totalYes
      have hno := hguard.totalNo
      simp only [Call.countersDelta, Call.setsDelta, hactions, Call.market, Option.some.injEq]
      refine ⟨?_, fun m => ?_⟩
      · simp only [State.merged, State.setMarket]
        omega
      · by_cases hm : a.marketId = m
        · subst hm
          simp only [State.counters, State.merged, State.setMarket, Function.update_self, if_true,
            Prod.mk_add_mk, Prod.mk.injEq]
          omega
        · simp [State.counters, State.merged, State.setMarket, hm, Ne.symm hm]
  | transfer hactions hsides _ =>
      have hnone : Call.setsDelta (.settle a signatureA b signatureB shares price matchId) = 0 := by
        cases ha : a.action <;> cases hb : b.action
        · exact absurd (ha.trans hb.symm) hactions
        · simp only [Call.setsDelta, ha, hb]
        · simp only [Call.setsDelta, ha, hb]
        · exact absurd (ha.trans hb.symm) hactions
      simp only [Call.countersDelta, hnone, transferred_aggregate, add_zero, true_and]
      intro m
      rw [show ((0, 0, 0) : Int × Int × Int) = 0 from rfl, ite_self, add_zero]
      simp only [State.counters, transferred_markets]

end Pairing

/-! ## One trade -/

section Step

variable {c : Chain} {s s' : State} {l : Address × Call}

theorem booked_recorded (c : Chain) (s : State) (a b : Authorization)
    (signatureA signatureB : Bytes) (shares price : Nat) (matchId hash : Bytes32) :
    (s.booked c a b shares price matchId).recorded hash = s.recorded hash +
      Call.fillDelta c hash (.settle a signatureA b signatureB shares price matchId) := by
  unfold State.booked State.consumed State.recorded Call.fillDelta
  by_cases hb : hash = authorizationHash c b
  · subst hb
    by_cases ha : authorizationHash c b = authorizationHash c a
    · simp [ha, add_assoc]
    · simp [ha]
  · by_cases ha : hash = authorizationHash c a
    · subst ha
      simp [hb]
    · simp [ha, hb]

theorem TradeStep.cash (h : TradeStep c s l s') (account : Address) :
    (s'.collateral account : Int) = s.collateral account + l.2.cashDelta c account := by
  rcases h.cases with ⟨txId, hcall, rfl⟩ | ⟨source, target, amount, hcall, hfunded, rfl⟩ |
    ⟨env, a, signatureA, b, signatureB, shares, price, matchId, s₁, hcall, hadmitted, hpair, rfl⟩
  · rw [hcall]
    exact (add_zero _).symm
  · rw [hcall]
    exact move_int s.collateral target hfunded account
  · rw [hcall]
    exact hpair.cashDelta account

theorem TradeStep.shares (h : TradeStep c s l s') (side : Side) (marketId : Uint128)
    (account : Address) : (s'.position side marketId account : Int) =
      s.position side marketId account + l.2.shareDelta side marketId account := by
  obtain ⟨htrade, env, event, _, heffect⟩ := h
  obtain ⟨sender, call⟩ := l
  cases call with
  | settle =>
      rw [settle_position heffect, add_assoc]
      rfl
  | cancelAuthorization | tokenTransfer =>
      rw [effect_position_same heffect rfl]
      exact (add_zero _).symm
  | _ => exact absurd htrade (by simp [Call.isTrade])

theorem TradeStep.sets (h : TradeStep c s l s') :
    (s'.aggregateReserved : Int) = s.aggregateReserved + l.2.setsDelta ∧
      ∀ m, s'.counters m = s.counters m + l.2.countersDelta m := by
  rcases h.cases with ⟨txId, hcall, rfl⟩ | ⟨source, target, amount, hcall, hfunded, rfl⟩ |
    ⟨env, a, signatureA, b, signatureB, shares, price, matchId, s₁, hcall, hadmitted, hpair, rfl⟩
  · rw [hcall]
    exact ⟨(add_zero _).symm, fun m => (add_zero _).symm⟩
  · rw [hcall]
    exact ⟨(add_zero _).symm, fun m => (add_zero _).symm⟩
  · rw [hcall]
    exact hpair.setsDelta

theorem TradeStep.recorded (h : TradeStep c s l s') (hash : Bytes32) :
    s'.recorded hash = s.recorded hash + l.2.fillDelta c hash := by
  rcases h.cases with ⟨txId, hcall, rfl⟩ | ⟨source, target, amount, hcall, hfunded, rfl⟩ |
    ⟨env, a, signatureA, b, signatureB, shares, price, matchId, s₁, hcall, hadmitted, hpair, rfl⟩
  · rw [hcall]
    exact (add_zero _).symm
  · rw [hcall]
    exact (add_zero _).symm
  · rw [hcall, ← booked_recorded]
    have hfills : s₁.fills = (s.booked c a b shares price matchId).fills := hpair.sameControl.fills
    show s₁.recorded hash = _
    unfold State.recorded
    rw [hfills]

theorem TradeStep.flagged (h : TradeStep c s l s') :
    (∀ signer txId, s'.canceled signer txId =
        (s.canceled signer txId || l.2.cancels l.1 signer txId)) ∧
      ∀ matchId, s'.executedMatches matchId =
        (s.executedMatches matchId || l.2.matchIdOf == some matchId) := by
  rcases h.cases with ⟨txId, hcall, rfl⟩ | ⟨source, target, amount, hcall, hfunded, rfl⟩ |
    ⟨env, a, signatureA, b, signatureB, shares, price, matchId, s₁, hcall, hadmitted, hpair, rfl⟩
  · rw [hcall]
    refine ⟨fun signer txId' => ?_, fun matchId => ?_⟩
    · simp only [update₂_apply, Call.cancels]
      split
      · next hcell => simp [hcell]
      · next hcell => simp [hcell]
    · exact (Bool.or_false _).symm
  · rw [hcall]
    exact ⟨fun _ _ => (Bool.or_false _).symm, fun _ => (Bool.or_false _).symm⟩
  · rw [hcall]
    refine ⟨fun signer txId => ?_, fun matchId' => ?_⟩
    · show s₁.canceled signer txId = _
      rw [hpair.sameControl.canceled]
      exact (Bool.or_false _).symm
    · show s₁.executedMatches matchId' = _
      rw [hpair.sameControl.executedMatches]
      simp only [State.booked, Function.update_apply, Call.matchIdOf]
      split
      · next heq => simp [heq]
      · next hne => simp [Ne.symm hne, State.consumed]

/-- A nonce is filled once: the first order that uses it keeps it. -/
theorem nonce_filledOnce (hc : ∀ words, c.keccak words ≠ 0) (signer : Address) (txId : Uint128) :
    FilledOnce (TradeStep c) (fun s => s.authorizationByNonce signer txId) 0
      fun l => l.2.nonceClaim c signer txId := by
  constructor
  · intro s l s' hash h hclaim
    rcases h.cases with ⟨_, hcall, rfl⟩ | ⟨_, _, _, hcall, _, rfl⟩ |
      ⟨env, a, signatureA, b, signatureB, shares, price, matchId, s₁, hcall, hadmitted, hpair, rfl⟩
    · simp [hcall, Call.nonceClaim] at hclaim
    · simp [hcall, Call.nonceClaim] at hclaim
    · show s₁.authorizationByNonce signer txId = hash ∧ hash ≠ 0
      rw [hpair.sameControl.authorizationByNonce]
      rw [hcall] at hclaim
      simp only [Call.nonceClaim] at hclaim
      simp only [State.booked, State.consumed, update₂_apply]
      split at hclaim
      · next hb =>
        rw [Option.some.injEq] at hclaim
        rw [if_pos hb, hclaim]
        exact ⟨rfl, hclaim ▸ hc _⟩
      · next hb =>
        split at hclaim
        · next ha =>
          rw [Option.some.injEq] at hclaim
          rw [if_neg hb, if_pos ha, hclaim]
          exact ⟨rfl, hclaim ▸ hc _⟩
        · exact absurd hclaim (by simp)
  · intro s l s' h hset
    obtain ⟨_, env, event, _, heffect⟩ := h
    exact (effect_books heffect).nonce_of_bound hset
  · intro s l s' h hclaim
    rcases h.cases with ⟨_, hcall, rfl⟩ | ⟨_, _, _, hcall, _, rfl⟩ |
      ⟨env, a, signatureA, b, signatureB, shares, price, matchId, s₁, hcall, hadmitted, hpair, rfl⟩
    · rfl
    · rfl
    · show s₁.authorizationByNonce signer txId = _
      rw [hpair.sameControl.authorizationByNonce]
      rw [hcall] at hclaim
      simp only [Call.nonceClaim] at hclaim
      simp only [State.booked, State.consumed, update₂_apply]
      split at hclaim
      · exact absurd hclaim (by simp)
      · next hb =>
        split at hclaim
        · exact absurd hclaim (by simp)
        · next ha => rw [if_neg hb, if_neg ha]

def State.settings (s : State) :
    Roles × Address × (Uint128 → Bytes) × Nat × (Uint128 → MarketState × Nat × Nat) :=
  (s.roles, s.collateralToken, s.statements, s.reentrancyStatus,
    fun m => ((s.markets m).state, (s.markets m).closeTime, (s.markets m).rakeBps))

theorem PairingEffect.collateralToken {env : Env} {a b : Authorization}
    {shares yesLeg noLeg : Nat} (h : PairingEffect c env a b shares yesLeg noLeg s s') :
    s'.collateralToken = s.collateralToken := by
  cases h with
  | mint | merge => rfl
  | transfer => cases a.side <;> rfl

theorem TradeStep.settings (h : TradeStep c s l s') : s'.settings = s.settings := by
  rcases h.cases with ⟨txId, hcall, rfl⟩ | ⟨source, target, amount, hcall, hfunded, rfl⟩ |
    ⟨env, a, signatureA, b, signatureB, shares, price, matchId, s₁, hcall, hadmitted, hpair, rfl⟩
  · rfl
  · rfl
  · have hsame := hpair.sameControl
    have hmarkets : (fun m => ((s₁.markets m).state, (s₁.markets m).closeTime,
        (s₁.markets m).rakeBps)) = fun m => ((s.markets m).state, (s.markets m).closeTime,
        (s.markets m).rakeBps) := by
      funext m
      exact Prod.ext (hsame.state m) (Prod.ext (hsame.closeTime m) (hsame.rakeBps m))
    have hroles : s₁.roles = s.roles := hsame.roles
    have htoken : s₁.collateralToken = s.collateralToken := hpair.collateralToken
    have hstatements : s₁.statements = s.statements := hsame.statements
    show (s₁.roles, s₁.collateralToken, s₁.statements, 1, fun m => ((s₁.markets m).state,
      (s₁.markets m).closeTime, (s₁.markets m).rakeBps)) = _
    rw [hmarkets, hroles, htoken, hstatements, ← hadmitted.entered]
    rfl

end Step

/-! ## All trades -/

attribute [ext] State Market FillState

section Agreement

variable {c : Chain} {s t t' : State} {ls ls' : List (Address × Call)}

theorem balances_agree (h : Course (TradeStep c) s ls t) (h' : Course (TradeStep c) s ls' t')
    (hperm : ls.Perm ls') : t.collateral = t'.collateral ∧ t.position = t'.position := by
  constructor
  · funext account
    have hcash := h.sum_agrees (fun l => l.2.cashDelta c account) h' hperm
      fun _ _ _ hstep => hstep.cash account
    exact Int.ofNat_inj.mp hcash
  · funext side marketId account
    have hshares := h.sum_agrees (fun l => l.2.shareDelta side marketId account) h' hperm
      fun _ _ _ hstep => hstep.shares side marketId account
    exact Int.ofNat_inj.mp hshares

theorem markets_agree (h : Course (TradeStep c) s ls t) (h' : Course (TradeStep c) s ls' t')
    (hperm : ls.Perm ls') :
    t.markets = t'.markets ∧ t.aggregateReserved = t'.aggregateReserved := by
  have hsettings := (h.kept fun _ _ _ hstep => hstep.settings).trans
    (h'.kept fun _ _ _ hstep => hstep.settings).symm
  constructor
  · funext m
    have hcounters := h.sum_agrees (fun l => l.2.countersDelta m) h' hperm
      fun _ _ _ hstep => hstep.sets.2 m
    have hfixed := congrFun (congrArg (fun settings => settings.2.2.2.2) hsettings) m
    simp only [State.counters, Prod.mk.injEq, Int.ofNat_inj] at hcounters
    simp only [State.settings, Prod.mk.injEq] at hfixed
    exact Market.ext hfixed.1 hfixed.2.1 hfixed.2.2 hcounters.2.2 hcounters.1 hcounters.2.1
  · have haggregate := h.sum_agrees (fun l => l.2.setsDelta) h' hperm
      fun _ _ _ hstep => hstep.sets.1
    exact Int.ofNat_inj.mp haggregate

theorem books_agree (hc : ∀ words, c.keccak words ≠ 0) (h : Course (TradeStep c) s ls t)
    (h' : Course (TradeStep c) s ls' t') (hperm : ls.Perm ls') :
    t.fills = t'.fills ∧ t.authorizationByNonce = t'.authorizationByNonce ∧
      t.canceled = t'.canceled ∧ t.executedMatches = t'.executedMatches := by
  refine ⟨?_, ?_, ?_, ?_⟩
  · funext hash
    have hrecorded := h.sum_agrees (fun l => l.2.fillDelta c hash) h' hperm
      fun _ _ _ hstep => hstep.recorded hash
    exact FillState.ext (congrArg Prod.fst hrecorded) (congrArg Prod.snd hrecorded)
  · funext signer txId
    exact h.cell_agrees h' hperm (nonce_filledOnce hc signer txId)
  · funext signer txId
    exact h.flag_agrees (fun l => l.2.cancels l.1 signer txId) h' hperm
      fun _ _ _ hstep => hstep.flagged.1 signer txId
  · funext matchId
    exact h.flag_agrees (fun l => l.2.matchIdOf == some matchId) h' hperm
      fun _ _ _ hstep => hstep.flagged.2 matchId

end Agreement

/-- Two runs whose successful transactions are the same settlements, cancellations and token
transfers by the same callers, in whatever orders, end in the same state of the contract and of
the token. -/
theorem settlement_order_irrelevant {c : Chain} (hc : ∀ words, c.keccak words ≠ 0) (s : State)
    (txs txs' : List Tx) (htrades : ∀ l ∈ performed c s txs, l.2.isTrade = true)
    (hperm : (performed c s txs).Perm (performed c s txs')) :
    run c s txs = run c s txs' := by
  have h := run_course c s txs htrades
  have h' := run_course c s txs' fun l hl => htrades l (hperm.mem_iff.mpr hl)
  have hsettings := (h.kept fun _ _ _ hstep => hstep.settings).trans
    (h'.kept fun _ _ _ hstep => hstep.settings).symm
  obtain ⟨hroles, htoken, hstatements, hstatus, _⟩ := by
    simpa only [State.settings, Prod.mk.injEq] using hsettings
  simp only [State.roles, Roles.mk.injEq] at hroles
  obtain ⟨howner, hpending, hoperator, horacle, hdao, hrake⟩ := hroles
  obtain ⟨hcollateral, hposition⟩ := balances_agree h h' hperm
  obtain ⟨hmarkets, haggregate⟩ := markets_agree h h' hperm
  obtain ⟨hfills, hnonces, hcanceled, hmatches⟩ := books_agree hc h h' hperm
  have hyes := congrFun hposition .yes
  have hno := congrFun hposition .no
  exact State.ext htoken howner hpending hoperator horacle hdao hrake haggregate hmarkets
    hstatements hyes hno hfills hnonces hcanceled hmatches hstatus hcollateral

theorem sampleChain_ne_zero (words : List Nat) : sampleChain.keccak words ≠ 0 := by
  have hpos : ∀ (ws : List Nat) (acc : Nat), acc ≠ 0 →
      ws.foldl (fun acc word => acc * 2 ^ 256 + word) acc ≠ 0 := by
    intro ws
    induction ws with
    | nil => exact fun _ hacc => hacc
    | cons w ws ih =>
        intro acc hacc
        exact ih _ (Nat.ne_of_gt (Nat.add_pos_left
          (Nat.mul_pos (Nat.pos_of_ne_zero hacc) (Nat.two_pow_pos 256)) w))
  exact hpos _ 1 Nat.one_ne_zero

def sampleOpened : State :=
  run sampleChain (sampleDeployment sampleChain rfl).state
    [⟨sampleEnv 1 10, .createMarket 7 [65] 100⟩]

def sampleFill (fillShares : Nat) (matchId : Bytes32) : Tx :=
  ⟨sampleEnv 2 20, .settle (sampleOrder 5 1 .yes .buy) [] (sampleOrder 6 2 .no .buy) []
    fillShares 500000 matchId⟩

/-- Two fills of one pair of orders, and a transfer between the traders. -/
theorem settlement_order_irrelevant_sample :
    run sampleChain sampleOpened
        [sampleFill 50 1, sampleFill 51 2, ⟨sampleEnv 5 20, .tokenTransfer 5 6 30⟩] =
      run sampleChain sampleOpened
        [⟨sampleEnv 5 20, .tokenTransfer 5 6 30⟩, sampleFill 51 2, sampleFill 50 1] := by
  have hperformed : performed sampleChain sampleOpened
      [sampleFill 50 1, sampleFill 51 2, ⟨sampleEnv 5 20, .tokenTransfer 5 6 30⟩] =
      [(2, (sampleFill 50 1).call), (2, (sampleFill 51 2).call), (5, .tokenTransfer 5 6 30)] := rfl
  have hperformed' : performed sampleChain sampleOpened
      [⟨sampleEnv 5 20, .tokenTransfer 5 6 30⟩, sampleFill 51 2, sampleFill 50 1] =
      [(5, .tokenTransfer 5 6 30), (2, (sampleFill 51 2).call), (2, (sampleFill 50 1).call)] := rfl
  apply settlement_order_irrelevant sampleChain_ne_zero
  · rw [hperformed]
    simp [Call.isTrade, sampleFill]
  · rw [hperformed, hperformed']
    exact (List.reverse_perm _).symm

end PrismBackend.PrismV2
