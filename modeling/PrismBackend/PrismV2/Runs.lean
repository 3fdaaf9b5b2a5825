import Mathlib.Data.List.Basic
import PrismBackend.Lib.System
import PrismBackend.PrismV2.Effects

/-!
# PrismV2: runs

A run executes transactions one after another; a reverting transaction changes
nothing. `exec_effect` lists everything a successful transaction can do.
-/

namespace PrismBackend.PrismV2

open PrismBackend.Lib

/-! ## Transactions -/

inductive Call
  | associateCollateralToken
  | transferOwnership (newOwner : Address)
  | acceptOwnership
  | setOperator (newOperator : Address)
  | setOracle (newOracle : Address)
  | setDao (newDao : Address)
  | setDefaultRake (newRakeBps : Nat)
  | createMarket (marketId : Uint128) (statement : Bytes) (closeTime : Nat)
  | haltMarket (marketId : Uint128)
  | resumeMarket (marketId : Uint128)
  | closeMarket (marketId : Uint128)
  | resolveMarket (marketId : Uint128) (yesWon : Bool)
  | voidMarket (marketId : Uint128)
  | settle (a : Authorization) (signatureA : Bytes) (b : Authorization) (signatureB : Bytes)
      (fillShares executionYesPrice : Nat) (matchId : Bytes32)
  | redeem (marketId : Uint128)
  | cancelAuthorization (txId : Uint128)
  /-- a transfer on the token itself, from an account other than the contract -/
  | tokenTransfer (source target : Address) (amount : Nat)

structure Tx where
  env : Env
  call : Call

/-- The token's own entry points; the contract is never the source there, since it
transfers only from its code and approves nobody. -/
def tokenTransfer (c : Chain) (env : Env) (source target : Address) (amount : Nat) (s : State) :
    Except Err State := do
  revertIf (source = c.self) .tokenFailure
  let collateral ← transferFrom env s.collateral source target amount
  .ok { s with collateral }

/-- One transaction: the state it leaves and the redemption it reports, if any. -/
def exec (c : Chain) (tx : Tx) (s : State) : Except Err (State × Option Redeemed) :=
  let silent (r : Except Err State) : Except Err (State × Option Redeemed) := r.map (·, none)
  match tx.call with
  | .associateCollateralToken => silent (associateCollateralToken tx.env s)
  | .transferOwnership newOwner => silent (transferOwnership c tx.env newOwner s)
  | .acceptOwnership => silent (acceptOwnership tx.env s)
  | .setOperator newOperator => silent (setOperator c tx.env newOperator s)
  | .setOracle newOracle => silent (setOracle c tx.env newOracle s)
  | .setDao newDao => silent (setDao c tx.env newDao s)
  | .setDefaultRake newRakeBps => silent (setDefaultRake tx.env newRakeBps s)
  | .createMarket marketId statement closeTime =>
    silent (createMarket tx.env marketId statement closeTime s)
  | .haltMarket marketId => silent (haltMarket tx.env marketId s)
  | .resumeMarket marketId => silent (resumeMarket tx.env marketId s)
  | .closeMarket marketId => silent (closeMarket tx.env marketId s)
  | .resolveMarket marketId yesWon => silent (resolveMarket tx.env marketId yesWon s)
  | .voidMarket marketId => silent (voidMarket tx.env marketId s)
  | .settle a signatureA b signatureB fillShares executionYesPrice matchId =>
    silent (settle c tx.env a signatureA b signatureB fillShares executionYesPrice matchId s)
  | .redeem marketId => (redeem c tx.env marketId s).map fun r => (r.1, some r.2)
  | .cancelAuthorization txId => silent (cancelAuthorization tx.env txId s)
  | .tokenTransfer source target amount =>
    silent (tokenTransfer c tx.env source target amount s)

structure Receipt where
  before : State
  tx : Tx
  after : State
  event : Option Redeemed

def apply (c : Chain) (s : State) (tx : Tx) : State :=
  match exec c tx s with
  | .ok r => r.1
  | .error _ => s

def contract (c : Chain) : System State Tx where
  next := apply c
  Allowed _ _ := True

def run (c : Chain) (s : State) (txs : List Tx) : State := (contract c).run s txs

def trace (c : Chain) : State → List Tx → List Receipt
  | _, [] => []
  | s, tx :: txs =>
    match exec c tx s with
    | .ok r => ⟨s, tx, r.1, r.2⟩ :: trace c r.1 txs
    | .error _ => trace c s txs

/-- A proxy that was set up by `initialize` over some token ledger. -/
structure Deployment (c : Chain) where
  collateralToken : Address
  owner : Address
  operator : Address
  oracle : Address
  dao : Address
  defaultRakeBps : Nat
  ledger : Address → Nat
  state : State
  initialized : initializeProxy c collateralToken owner operator oracle dao defaultRakeBps
    (State.blank ledger) = .ok state

@[simp] theorem run_nil (c : Chain) (s : State) : run c s [] = s := rfl

@[simp] theorem run_cons (c : Chain) (s : State) (tx : Tx) (txs : List Tx) :
    run c s (tx :: txs) = run c (apply c s tx) txs := rfl

theorem run_append (c : Chain) (s : State) (txs txs' : List Tx) :
    run c s (txs ++ txs') = run c (run c s txs) txs' := System.run_append s txs txs'

theorem apply_ok {c : Chain} {tx : Tx} {s : State} {r : State × Option Redeemed}
    (h : exec c tx s = .ok r) : apply c s tx = r.1 := by
  simp [apply, h]

theorem apply_error {c : Chain} {tx : Tx} {s : State} {e : Err}
    (h : exec c tx s = .error e) : apply c s tx = s := by
  simp [apply, h]

theorem trace_cons_ok {c : Chain} {tx : Tx} {s : State} {r : State × Option Redeemed}
    (h : exec c tx s = .ok r) (txs : List Tx) :
    trace c s (tx :: txs) = ⟨s, tx, r.1, r.2⟩ :: trace c r.1 txs := by
  simp [trace, h]

theorem trace_cons_error {c : Chain} {tx : Tx} {s : State} {e : Err}
    (h : exec c tx s = .error e) (txs : List Tx) :
    trace c s (tx :: txs) = trace c s txs := by
  simp [trace, h]

theorem trace_tx_mem {c : Chain} {s : State} {txs : List Tx} {r : Receipt}
    (hr : r ∈ trace c s txs) : r.tx ∈ txs := by
  induction txs generalizing s with
  | nil => exact absurd hr List.not_mem_nil
  | cons tx txs ih =>
      cases hexec : exec c tx s with
      | ok r' =>
          rw [trace_cons_ok hexec, List.mem_cons] at hr
          rcases hr with rfl | hr
          · exact List.mem_cons_self
          · exact List.mem_cons_of_mem _ (ih hr)
      | error err =>
          rw [trace_cons_error hexec] at hr
          exact List.mem_cons_of_mem _ (ih hr)

/-- What every successful transaction of a run preserves holds after it. -/
theorem run_preserves_of_mem {c : Chain} {P : State → Prop} {txs : List Tx}
    (hstep : ∀ s, ∀ tx ∈ txs, ∀ r, P s → exec c tx s = .ok r → P r.1) {s : State} (hs : P s) :
    P (run c s txs) := by
  apply System.run_preserves_of_mem (S := contract c) _ hs
  intro s tx htx hs
  show P (apply c s tx)
  cases hexec : exec c tx s with
  | ok r =>
      rw [apply_ok hexec]
      exact hstep s tx htx r hs hexec
  | error e =>
      rw [apply_error hexec]
      exact hs

theorem run_preserves {c : Chain} {P : State → Prop}
    (hstep : ∀ s tx r, P s → exec c tx s = .ok r → P r.1) {s : State} (hs : P s)
    (txs : List Tx) : P (run c s txs) :=
  run_preserves_of_mem (fun s tx _ => hstep s tx) hs

/-- Every receipt of a run starts in a state that satisfies the run's invariant. -/
theorem trace_preserves {c : Chain} {P : State → Prop}
    (hstep : ∀ s tx r, P s → exec c tx s = .ok r → P r.1) {s : State} (hs : P s)
    {txs : List Tx} {r : Receipt} (hr : r ∈ trace c s txs) :
    P r.before ∧ exec c r.tx r.before = .ok (r.after, r.event) := by
  induction txs generalizing s with
  | nil => simp [trace] at hr
  | cons tx txs ih =>
      cases hexec : exec c tx s with
      | ok r' =>
          rw [trace_cons_ok hexec, List.mem_cons] at hr
          rcases hr with rfl | hr
          · exact ⟨hs, hexec⟩
          · exact ih (hstep s tx r' hs hexec) hr
      | error e =>
          rw [trace_cons_error hexec] at hr
          exact ih hs hr

/-! ## What a transaction can do -/

structure Roles where
  owner : Address
  pendingOwner : Address
  operator : Address
  oracle : Address
  dao : Address
  defaultRakeBps : Nat

def State.roles (s : State) : Roles :=
  ⟨s.owner, s.pendingOwner, s.operator, s.oracle, s.dao, s.defaultRakeBps⟩

def State.withRoles (s : State) (roles : Roles) : State :=
  { s with
    owner := roles.owner
    pendingOwner := roles.pendingOwner
    operator := roles.operator
    oracle := roles.oracle
    dao := roles.dao
    defaultRakeBps := roles.defaultRakeBps }

/-- Two states that differ in balances, counters and money only. -/
structure SameControl (s s' : State) : Prop where
  roles : s'.roles = s.roles
  statements : s'.statements = s.statements
  fills : s'.fills = s.fills
  authorizationByNonce : s'.authorizationByNonce = s.authorizationByNonce
  canceled : s'.canceled = s.canceled
  executedMatches : s'.executedMatches = s.executedMatches
  state : ∀ m, (s'.markets m).state = (s.markets m).state
  closeTime : ∀ m, (s'.markets m).closeTime = (s.markets m).closeTime
  rakeBps : ∀ m, (s'.markets m).rakeBps = (s.markets m).rakeBps

theorem setMarket_counters (s : State) (marketId : Uint128) (totalYes totalNo reserve : Nat) :
    SameControl s
      (s.setMarket marketId { s.markets marketId with totalYes, totalNo, reserve }) := by
  have hmarket (m : Uint128) := Function.update_apply s.markets marketId
    { s.markets marketId with totalYes, totalNo, reserve } m
  refine ⟨rfl, rfl, rfl, rfl, rfl, rfl, ?_, ?_, ?_⟩
  all_goals
    intro m
    simp only [State.setMarket, hmarket]
    split
    · next hm => rw [hm]
    · rfl

theorem PairingEffect.sameControl {c : Chain} {env : Env} {a b : Authorization}
    {shares yesLeg noLeg : Nat} {s s' : State}
    (heffect : PairingEffect c env a b shares yesLeg noLeg s s') : SameControl s s' := by
  cases heffect with
  | mint =>
      obtain ⟨h1, h2, h3, h4, h5, h6, h7, h8, h9⟩ := setMarket_counters s a.marketId
        ((s.markets a.marketId).totalYes + shares) ((s.markets a.marketId).totalNo + shares)
        ((s.markets a.marketId).reserve + shares)
      exact ⟨h1, h2, h3, h4, h5, h6, h7, h8, h9⟩
  | merge =>
      obtain ⟨h1, h2, h3, h4, h5, h6, h7, h8, h9⟩ := setMarket_counters s a.marketId
        ((s.markets a.marketId).totalYes - shares) ((s.markets a.marketId).totalNo - shares)
        ((s.markets a.marketId).reserve - shares)
      exact ⟨h1, h2, h3, h4, h5, h6, h7, h8, h9⟩
  | transfer =>
      cases a.side with
      | yes => exact ⟨rfl, rfl, rfl, rfl, rfl, rfl, fun _ => rfl, fun _ => rfl, fun _ => rfl⟩
      | no => exact ⟨rfl, rfl, rfl, rfl, rfl, rfl, fun _ => rfl, fun _ => rfl, fun _ => rfl⟩

theorem redeemed_sameControl (s : State) (c : Chain) (marketId : Uint128) (account : Address) :
    SameControl s (s.redeemed c marketId account) := by
  have hmarkets : (s.redeemed c marketId account).markets =
      (s.setMarket marketId { s.markets marketId with
        totalYes := (s.markets marketId).totalYes - s.burntYes marketId account
        totalNo := (s.markets marketId).totalNo - s.burntNo marketId account
        reserve := (s.markets marketId).reserve - s.grossPayout marketId account }).markets := by
    simp [State.redeemed, State.paid, State.burnt, State.setMarket]
  have hset := setMarket_counters s marketId
    ((s.markets marketId).totalYes - s.burntYes marketId account)
    ((s.markets marketId).totalNo - s.burntNo marketId account)
    ((s.markets marketId).reserve - s.grossPayout marketId account)
  obtain ⟨hroles, hstatements, hfills, hnonces, hcanceled, hmatches⟩ :
      (s.redeemed c marketId account).roles = s.roles ∧
        (s.redeemed c marketId account).statements = s.statements ∧
        (s.redeemed c marketId account).fills = s.fills ∧
        (s.redeemed c marketId account).authorizationByNonce = s.authorizationByNonce ∧
        (s.redeemed c marketId account).canceled = s.canceled ∧
        (s.redeemed c marketId account).executedMatches = s.executedMatches := by
    simp only [State.roles, State.redeemed, State.paid, State.burnt, State.setMarket, and_self]
  refine ⟨hroles, hstatements, hfills, hnonces, hcanceled, hmatches, ?_, ?_, ?_⟩
  · intro m
    rw [hmarkets]
    exact hset.state m
  · intro m
    rw [hmarkets]
    exact hset.closeTime m
  · intro m
    rw [hmarkets]
    exact hset.rakeBps m

inductive MarketStep : MarketState → MarketState → Prop
  | halt : MarketStep .open .halted
  | resume : MarketStep .halted .open
  | close {from_} : from_ = .open ∨ from_ = .halted → MarketStep from_ .closed
  | resolve {from_} (yesWon : Bool) : from_ = .open ∨ from_ = .halted ∨ from_ = .closed →
      MarketStep from_ (if yesWon then .resolvedYes else .resolvedNo)
  | void {from_} : from_ = .open ∨ from_ = .halted ∨ from_ = .closed → MarketStep from_ .void

/-- The market that a lifecycle call moves, and the state it moves it to. -/
def Call.transitions : Call → Option (Uint128 × MarketState)
  | .haltMarket marketId => some (marketId, .halted)
  | .resumeMarket marketId => some (marketId, .open)
  | .closeMarket marketId => some (marketId, .closed)
  | .resolveMarket marketId yesWon =>
    some (marketId, if yesWon then .resolvedYes else .resolvedNo)
  | .voidMarket marketId => some (marketId, .void)
  | _ => none

def Call.configures : Call → Bool
  | .associateCollateralToken | .transferOwnership _ | .acceptOwnership | .setOperator _
  | .setOracle _ | .setDao _ | .setDefaultRake _ => true
  | _ => false

inductive Effect (c : Chain) (env : Env) (s : State) : Call → State → Option Redeemed → Prop
  | configure {call : Call} (hcall : call.configures = true) (roles : Roles)
      (hdao : roles.dao = s.dao ∨ isValidRole c roles.dao)
      (hrake : roles.defaultRakeBps = s.defaultRakeBps ∨ roles.defaultRakeBps ≤ maxRakeBps) :
      Effect c env s call (s.withRoles roles) none
  | create (marketId : Uint128) (statement : Bytes) (closeTime : Nat)
      (hnew : (s.markets marketId).state = .uninitialized) :
      Effect c env s (.createMarket marketId statement closeTime)
        { s.setMarket marketId ⟨.open, closeTime, s.defaultRakeBps, 0, 0, 0⟩ with
          statements := Function.update s.statements marketId statement } none
  | transition {call : Call} (marketId : Uint128) (state' : MarketState)
      (hcall : call.transitions = some (marketId, state'))
        (hmove : MarketStep (s.markets marketId).state state') :
      Effect c env s call
        (s.setMarket marketId { s.markets marketId with state := state' }) none
  | cancel (txId : Uint128) :
      Effect c env s (.cancelAuthorization txId)
        { s with canceled := update₂ s.canceled env.sender txId true } none
  | settle {a b : Authorization} {signatureA signatureB : Bytes}
      {fillShares executionYesPrice : Nat} {matchId : Bytes32} {s₁ : State}
      (hadmitted : Admitted c env s a signatureA b signatureB fillShares executionYesPrice matchId)
      (hpair : PairingEffect c env a b fillShares (yesCollateral fillShares executionYesPrice)
        (noCollateral fillShares executionYesPrice)
        (s.booked c a b fillShares executionYesPrice matchId) s₁)
      (hsolvent : s₁.aggregateReserved ≤ s₁.collateral c.self) :
      Effect c env s (.settle a signatureA b signatureB fillShares executionYesPrice matchId)
        (nonReentrantAfter s₁) none
  | redeem (marketId : Uint128) (hentered : s.reentrancyStatus = 1)
      (hclaim : Claimable s marketId env.sender)
      (hpay : Payable c env (s.burnt marketId env.sender) env.sender
        ((s.burnt marketId env.sender).markets marketId).reserve
        (s.grossPayout marketId env.sender) (s.payoutFee marketId env.sender)) :
      Effect c env s (.redeem marketId) (s.redeemed c marketId env.sender)
        (some (redeemedRecord s marketId env.sender))
  | tokenTransfer (source target : Address) (amount : Nat) (hsource : source ≠ c.self)
      (hfunded : amount ≤ s.collateral source) :
      Effect c env s (.tokenTransfer source target amount)
        { s with collateral := move s.collateral source target amount } none

theorem map_silent_ok_iff {x : Except Err State} {r : State × Option Redeemed} :
    x.map (·, (none : Option Redeemed)) = .ok r ↔ x = .ok r.1 ∧ r.2 = none := by
  obtain ⟨s', event⟩ := r
  cases x <;> simp [Except.map, eq_comm]

theorem exec_effect {c : Chain} {tx : Tx} {s : State} {r : State × Option Redeemed}
    (h : exec c tx s = .ok r) : Effect c tx.env s tx.call r.1 r.2 := by
  obtain ⟨env, call⟩ := tx
  obtain ⟨s', event⟩ := r
  cases call with
  | associateCollateralToken =>
      simp only [exec, map_silent_ok_iff, associateCollateralToken, bind_ok_iff, onlyOwner,
        revertIf_ok_iff, exists_const, Except.ok.injEq] at h
      obtain ⟨⟨_, _, rfl⟩, rfl⟩ := h
      exact .configure rfl s.roles (Or.inl rfl) (Or.inl rfl)
  | transferOwnership newOwner =>
      simp only [exec, map_silent_ok_iff, transferOwnership, bind_ok_iff, onlyOwner,
        revertIf_ok_iff, exists_const, Except.ok.injEq] at h
      obtain ⟨⟨_, _, rfl⟩, rfl⟩ := h
      exact .configure rfl { s.roles with pendingOwner := newOwner } (Or.inl rfl) (Or.inl rfl)
  | acceptOwnership =>
      simp only [exec, map_silent_ok_iff, acceptOwnership, bind_ok_iff, revertIf_ok_iff,
        exists_const, Except.ok.injEq] at h
      obtain ⟨⟨_, rfl⟩, rfl⟩ := h
      exact .configure rfl { s.roles with owner := env.sender, pendingOwner := 0 }
        (Or.inl rfl) (Or.inl rfl)
  | setOperator newOperator =>
      simp only [exec, map_silent_ok_iff, setOperator, bind_ok_iff, onlyOwner,
        revertIf_ok_iff, exists_const, Except.ok.injEq] at h
      obtain ⟨⟨_, _, rfl⟩, rfl⟩ := h
      exact .configure rfl { s.roles with operator := newOperator } (Or.inl rfl) (Or.inl rfl)
  | setOracle newOracle =>
      simp only [exec, map_silent_ok_iff, setOracle, bind_ok_iff, onlyOwner,
        revertIf_ok_iff, exists_const, Except.ok.injEq] at h
      obtain ⟨⟨_, _, rfl⟩, rfl⟩ := h
      exact .configure rfl { s.roles with oracle := newOracle } (Or.inl rfl) (Or.inl rfl)
  | setDao newDao =>
      simp only [exec, map_silent_ok_iff, setDao, bind_ok_iff, onlyOwner, revertIf_ok_iff,
        exists_const, not_not, Except.ok.injEq] at h
      obtain ⟨⟨_, hdao, rfl⟩, rfl⟩ := h
      exact .configure rfl { s.roles with dao := newDao } (Or.inr hdao) (Or.inl rfl)
  | setDefaultRake newRakeBps =>
      simp only [exec, map_silent_ok_iff, setDefaultRake, bind_ok_iff, onlyOwner,
        revertIf_ok_iff, exists_const, not_lt, Except.ok.injEq] at h
      obtain ⟨⟨_, hrake, rfl⟩, rfl⟩ := h
      exact .configure rfl { s.roles with defaultRakeBps := newRakeBps } (Or.inl rfl)
        (Or.inr hrake)
  | createMarket marketId statement closeTime =>
      simp only [exec, map_silent_ok_iff, createMarket, bind_ok_iff, onlyOwner,
        revertIf_ok_iff, exists_const, not_not, Except.ok.injEq] at h
      obtain ⟨⟨_, hnew, _, rfl⟩, rfl⟩ := h
      exact .create marketId statement closeTime hnew
  | haltMarket marketId =>
      simp only [exec, map_silent_ok_iff, haltMarket, bind_ok_iff, onlyOwnerOrOracle,
        revertIf_ok_iff, exists_const, not_not, Except.ok.injEq] at h
      obtain ⟨⟨_, hopen, rfl⟩, rfl⟩ := h
      exact .transition marketId .halted rfl (hopen ▸ .halt)
  | resumeMarket marketId =>
      simp only [exec, map_silent_ok_iff, resumeMarket, bind_ok_iff, onlyOwner,
        revertIf_ok_iff, exists_const, not_or, not_not, Except.ok.injEq] at h
      obtain ⟨⟨_, ⟨hhalted, _⟩, rfl⟩, rfl⟩ := h
      exact .transition marketId .open rfl (hhalted ▸ .resume)
  | closeMarket marketId =>
      simp only [exec, map_silent_ok_iff, closeMarket, bind_ok_iff, revertIf_ok_iff,
        exists_const, not_or, Except.ok.injEq] at h
      obtain ⟨⟨⟨hlive, _⟩, rfl⟩, rfl⟩ := h
      exact .transition marketId .closed rfl (.close (by tauto))
  | resolveMarket marketId yesWon =>
      simp only [exec, map_silent_ok_iff, resolveMarket, bind_ok_iff, onlyOracle,
        revertIf_ok_iff, exists_const, not_or, Except.ok.injEq] at h
      obtain ⟨⟨_, ⟨hlive, _⟩, rfl⟩, rfl⟩ := h
      exact .transition marketId _ rfl (.resolve yesWon (by tauto))
  | voidMarket marketId =>
      simp only [exec, map_silent_ok_iff, voidMarket, bind_ok_iff, onlyOracle,
        revertIf_ok_iff, exists_const, Except.ok.injEq] at h
      obtain ⟨⟨_, hlive, rfl⟩, rfl⟩ := h
      exact .transition marketId .void rfl (.void (by tauto))
  | settle a signatureA b signatureB fillShares executionYesPrice matchId =>
      simp only [exec, map_silent_ok_iff, settle_ok_iff] at h
      obtain ⟨⟨hadmitted, s₁, hpair, hsolvent, rfl⟩, rfl⟩ := h
      exact .settle hadmitted hpair hsolvent
  | redeem marketId =>
      simp only [exec] at h
      cases hredeem : redeem c env marketId s with
      | error e => simp [hredeem, Except.map] at h
      | ok paid =>
          simp only [hredeem, Except.map, Except.ok.injEq, Prod.mk.injEq] at h
          obtain ⟨rfl, rfl⟩ := h
          obtain ⟨hentered, hclaim, hpay, hstate, hrecord⟩ :=
            (redeem_ok_iff c env marketId s paid.1 paid.2).mp hredeem
          rw [hstate, hrecord]
          exact .redeem marketId hentered hclaim hpay
  | cancelAuthorization txId =>
      simp only [exec, map_silent_ok_iff, cancelAuthorization, Except.ok.injEq] at h
      obtain ⟨rfl, rfl⟩ := h
      exact .cancel txId
  | tokenTransfer source target amount =>
      simp only [exec, map_silent_ok_iff, tokenTransfer, bind_ok_iff, revertIf_ok_iff,
        transferFrom_ok_iff, exists_const, Except.ok.injEq] at h
      obtain ⟨⟨hsource, _, ⟨hfunded, _, rfl⟩, rfl⟩, rfl⟩ := h
      exact .tokenTransfer source target amount hsource hfunded

/-! ## A sample deployment -/

/-- A chain whose hash writes the words after the type hash in base `2 ^ 256`. -/
def sampleChain : Chain where
  chainId := 296
  self := 10
  keccak := fun words => (words.drop 1).foldl (fun acc word => acc * 2 ^ 256 + word) 1

theorem sampleChain_self : sampleChain.self = 10 := rfl

def sampleEnv (sender : Address) (timestamp : Nat) : Env where
  sender := sender
  timestamp := timestamp
  isAuthorized := fun _ _ _ => (hederaSuccess, true)
  associateToken := hederaSuccess
  tokenAccepts := fun _ _ _ _ => true

/-- Owner 1, operator 2, oracle 3 and DAO 4; the traders 5 and 6 hold 1000 units each. -/
def sampleDeployment (c : Chain) (h : c.self = 10) : Deployment c where
  collateralToken := 9
  owner := 1
  operator := 2
  oracle := 3
  dao := 4
  defaultRakeBps := 100
  ledger := Function.update (Function.update (fun _ => 0) 5 1000) 6 1000
  state := { State.blank (Function.update (Function.update (fun _ => 0) 5 1000) 6 1000) with
    collateralToken := 9
    owner := 1
    operator := 2
    oracle := 3
    dao := 4
    defaultRakeBps := 100
    reentrancyStatus := 1 }
  initialized := by
    simp only [initializeProxy, isValidRole, h]
    rfl

theorem sampleDeployment_supply (c : Chain) (h : c.self = 10) :
    total (sampleDeployment c h).ledger < 2 ^ 127 :=
  total_pair_lt rfl (by decide)

def sampleOrder (signer : Address) (txId : Uint128) (side : Side) (action : Action) :
    Authorization where
  version := 2
  chainId := 296
  verifyingContract := 10
  signer := signer
  marketId := 7
  txId := txId
  side := side
  action := action
  limitYesPrice := 500000
  qtyShares := 101
  collateralCap := 101
  deadline := 50

/-- Market 7 is created, and the traders 5 and 6 buy 101 complete sets in it. -/
def sampleTrades : List Tx :=
  [⟨sampleEnv 1 10, .createMarket 7 [65] 100⟩,
    ⟨sampleEnv 2 20, .settle (sampleOrder 5 1 .yes .buy) [] (sampleOrder 6 2 .no .buy) []
      101 500000 1⟩]

end PrismBackend.PrismV2
