import PrismBackend.Lib.Reentry
import PrismBackend.PrismV2.Consent

/-!
# PrismV2: callbacks of the token

The contract's code with every call of the token as a request, in whose course
the token may call back. Nothing is assumed of the token: it answers as it
likes. What the code writes, it writes before its first call.
-/

namespace PrismBackend.PrismV2.Callbacks

open PrismBackend.Lib PrismBackend.Lib.Program

/-! ## The token, as the contract calls it -/

inductive TokenRequest
  | balanceOf (account : Address)
  | transferFrom (source target : Address) (amount : Nat)
  | transfer (target : Address) (amount : Nat)

abbrev TokenRequest.Answer : TokenRequest → Type
  | .balanceOf _ => Nat
  | .transferFrom _ _ _ | .transfer _ _ => Bool

/-- `balanceOf` is a view, which is called statically. -/
def TokenRequest.isView : TokenRequest → Bool
  | .balanceOf _ => true
  | .transferFrom _ _ _ | .transfer _ _ => false

abbrev ContractM (α : Type) : Type := Code State TokenRequest.Answer α

/-- A call of the token; the code goes on with the storage as it is then. -/
def ask {α : Type} (s : State) (r : TokenRequest) (k : State → r.Answer → ContractM α) :
    ContractM α :=
  .call (s, r) fun answer => k answer.1 answer.2

/-! ## The code -/

def pullCollateral (s : State) (source target : Address) (amount : Nat) :
    ContractM (Except Err State) :=
  ask s (.balanceOf target) fun s balanceBefore =>
  ask s (.transferFrom source target amount) fun s moved =>
  if !moved then .ret (.error .tokenFailure) else
  ask s (.balanceOf target) fun s balance =>
  .ret do
    let expected ← add256 balanceBefore amount
    revertIf (balance ≠ expected) .unsupportedCollateralBehavior
    .ok s

def pushCollateral (c : Chain) (s : State) (target : Address) (amount : Nat) :
    ContractM (Except Err State) :=
  ask s (.balanceOf c.self) fun s balanceBefore =>
  ask s (.transfer target amount) fun s moved =>
  if !moved then .ret (.error .tokenFailure) else
  ask s (.balanceOf c.self) fun s balance =>
  .ret do
    let debited ← add256 balance amount
    revertIf (debited ≠ balanceBefore) .unsupportedCollateralBehavior
    .ok s

def assertSolvent (c : Chain) (s : State) : ContractM (Except Err State) :=
  ask s (.balanceOf c.self) fun s balance =>
  .ret do
    revertIf (balance < s.aggregateReserved) .insolvent
    .ok s

/-- What `_mintCompleteSet` writes. -/
def bookMint (a b : Authorization) (shares : Nat) (s : State) : Except Err State := do
  let yesOrder := if a.side = .yes then a else b
  let noOrder := if a.side = .no then a else b
  let yes ← add256 (s.yesBalance a.marketId yesOrder.signer) shares
  let no ← add256 (s.noBalance a.marketId noOrder.signer) shares
  let market := s.markets a.marketId
  let totalYes ← add256 market.totalYes shares
  let totalNo ← add256 market.totalNo shares
  let reserve ← add256 market.reserve shares
  let aggregateReserved ← add256 s.aggregateReserved shares
  .ok { s.setMarket a.marketId { market with totalYes, totalNo, reserve } with
    yesBalance := update₂ s.yesBalance a.marketId yesOrder.signer yes
    noBalance := update₂ s.noBalance a.marketId noOrder.signer no
    aggregateReserved }

def mintCompleteSet (c : Chain) (a b : Authorization) (shares yesCollateral noCollateral : Nat)
    (s : State) : ContractM (Except Err State) :=
  let yesOrder := if a.side = .yes then a else b
  let noOrder := if a.side = .no then a else b
  attempt (bookMint a b shares s) fun s =>
  andThen (pullCollateral s yesOrder.signer c.self yesCollateral) fun s =>
  pullCollateral s noOrder.signer c.self noCollateral

/-- What `_mergeCompleteSet` checks and writes. -/
def bookMerge (a b : Authorization) (shares : Nat) (s : State) : Except Err State := do
  let yesOrder := if a.side = .yes then a else b
  let noOrder := if a.side = .no then a else b
  let market := s.markets a.marketId
  revertIf (s.yesBalance a.marketId yesOrder.signer < shares ∨
    s.noBalance a.marketId noOrder.signer < shares ∨ market.reserve < shares)
    .insufficientPosition
  let yes ← sub256 (s.yesBalance a.marketId yesOrder.signer) shares
  let no ← sub256 (s.noBalance a.marketId noOrder.signer) shares
  let totalYes ← sub256 market.totalYes shares
  let totalNo ← sub256 market.totalNo shares
  let reserve ← sub256 market.reserve shares
  let aggregateReserved ← sub256 s.aggregateReserved shares
  .ok { s.setMarket a.marketId { market with totalYes, totalNo, reserve } with
    yesBalance := update₂ s.yesBalance a.marketId yesOrder.signer yes
    noBalance := update₂ s.noBalance a.marketId noOrder.signer no
    aggregateReserved }

def mergeCompleteSet (c : Chain) (a b : Authorization) (shares yesCollateral noCollateral : Nat)
    (s : State) : ContractM (Except Err State) :=
  let yesOrder := if a.side = .yes then a else b
  let noOrder := if a.side = .no then a else b
  attempt (bookMerge a b shares s) fun s =>
  andThen (pushCollateral c s yesOrder.signer yesCollateral) fun s =>
  pushCollateral c s noOrder.signer noCollateral

/-- The shares that `_transferPosition` moves. -/
def bookTransfer (a b : Authorization) (shares : Nat) (s : State) : Except Err State :=
  let buyer := if a.action = .buy then a else b
  let seller := if a.action = .sell then a else b
  match a.side with
  | .yes => do
    let yesBalance ← transferShares s.yesBalance a.marketId seller.signer buyer.signer shares
    .ok { s with yesBalance }
  | .no => do
    let noBalance ← transferShares s.noBalance a.marketId seller.signer buyer.signer shares
    .ok { s with noBalance }

def transferPosition (a b : Authorization) (shares collateral : Nat) (s : State) :
    ContractM (Except Err State) :=
  let buyer := if a.action = .buy then a else b
  let seller := if a.action = .sell then a else b
  attempt (bookTransfer a b shares s) fun s =>
  pullCollateral s buyer.signer seller.signer collateral

def executePairing (c : Chain) (a b : Authorization) (shares yesCollateral noCollateral : Nat)
    (s : State) : ContractM (Except Err State) :=
  if a.action = .buy ∧ b.action = .buy ∧ a.side ≠ b.side then
    mintCompleteSet c a b shares yesCollateral noCollateral s
  else if a.action = .sell ∧ b.action = .sell ∧ a.side ≠ b.side then
    mergeCompleteSet c a b shares yesCollateral noCollateral s
  else if a.side = b.side ∧ a.action ≠ b.action then
    transferPosition a b shares (legCollateral a.side yesCollateral noCollateral) s
  else .ret (.error .invalidPairing)

/-- What `settle` checks and books before it comes to the pairing, with the two legs. -/
def bookFill (c : Chain) (env : Env) (a : Authorization) (signatureA : Bytes)
    (b : Authorization) (signatureB : Bytes) (fillShares executionYesPrice : Nat)
    (matchId : Bytes32) (s : State) : Except Err (State × Nat × Nat) := do
  onlyOperator env s
  let s ← nonReentrantBefore s
  revertIf (matchId = 0 ∨ s.executedMatches matchId) .matchAlreadyExecuted
  revertIf (a.marketId ≠ b.marketId ∨ a.signer = b.signer) .invalidPairing
  let market := s.markets a.marketId
  revertIf (market.state ≠ .open ∨ market.closeTime ≤ env.timestamp) .invalidMarketState
  revertIf (fillShares = 0 ∨ executionYesPrice = 0 ∨ priceScale ≤ executionYesPrice) .invalidPrice
  let hashA ← validateAuthorization c env s a signatureA executionYesPrice
  let hashB ← validateAuthorization c env s b signatureB executionYesPrice
  let yesCollateral ← mulDiv fillShares executionYesPrice priceScale
  let noCollateral ← sub256 fillShares yesCollateral
  revertIf (yesCollateral = 0 ∨ noCollateral = 0) .invalidFill
  let s ← consume s a hashA fillShares (legCollateral a.side yesCollateral noCollateral)
  let s ← consume s b hashB fillShares (legCollateral b.side yesCollateral noCollateral)
  .ok ({ s with executedMatches := Function.update s.executedMatches matchId true },
    yesCollateral, noCollateral)

def settle (c : Chain) (env : Env) (a : Authorization) (signatureA : Bytes)
    (b : Authorization) (signatureB : Bytes) (fillShares executionYesPrice : Nat)
    (matchId : Bytes32) (s : State) : ContractM (Except Err State) :=
  attempt (bookFill c env a signatureA b signatureB fillShares executionYesPrice matchId s)
    fun booked =>
  andThen (executePairing c a b fillShares booked.2.1 booked.2.2 booked.1) fun s =>
  andThen (assertSolvent c s) fun s =>
  .ret (.ok (nonReentrantAfter s))

def payFee (c : Chain) (fee : Nat) (s : State) : ContractM (Except Err State) :=
  if fee ≠ 0 then pushCollateral c s s.dao fee else .ret (.ok s)

/-- The reserve after a redemption, and what is left of the gross amount for the account. -/
def bookPayout (marketId : Uint128) (gross fee : Nat) (s : State) : Except Err (State × Nat) := do
  let market := s.markets marketId
  revertIf (gross > market.reserve) .insolvent
  let reserve ← sub256 market.reserve gross
  let aggregateReserved ← sub256 s.aggregateReserved gross
  let net ← sub256 gross fee
  .ok ({ s.setMarket marketId { market with reserve } with aggregateReserved }, net)

/-- The end of `redeem`. -/
def payDue (c : Chain) (env : Env) (fee net : Nat) (s : State) : ContractM (Except Err State) :=
  andThen (payFee c fee s) fun s =>
  andThen (pushCollateral c s env.sender net) fun s =>
  andThen (assertSolvent c s) fun s =>
  .ret (.ok (nonReentrantAfter s))

def redeem (c : Chain) (env : Env) (marketId : Uint128) (s : State) :
    ContractM (Except Err (State × Redeemed)) :=
  attempt (nonReentrantBefore s >>= redeemShares env marketId) fun due =>
  attempt (bookPayout marketId due.2.1 due.2.2 due.1) fun booked =>
  andThen (payDue c env due.2.2 booked.2 booked.1) fun s =>
  .ret (.ok (s, ⟨marketId, env.sender, due.2.1, due.2.2, booked.2⟩))

/-- One transaction. All but a settlement and a redemption call nobody, and the token's own
functions are not the contract's. -/
def code (c : Chain) (tx : Tx) (s : State) : ContractM (Except Err (State × Option Redeemed)) :=
  match tx.call with
  | .settle a signatureA b signatureB fillShares executionYesPrice matchId =>
    andThen (settle c tx.env a signatureA b signatureB fillShares executionYesPrice matchId s)
      fun s => .ret (.ok (s, none))
  | .redeem marketId => andThen (redeem c tx.env marketId s) fun r => .ret (.ok (r.1, some r.2))
  | .tokenTransfer _ _ _ => .ret (.error .tokenFailure)
  | _ => .ret (exec c tx s)

/-! ## The token as a ledger -/

/-- The contract's state with the balances that the token keeps. -/
def onLedger (s : State) (balances : Address → Nat) : State := { s with collateral := balances }

/-- A standard token, which calls nobody. -/
def ledger (c : Chain) (env : Env) (balances : Address → Nat) :
    (q : State × TokenRequest) → (State × q.2.Answer) × (Address → Nat)
  | (s, .balanceOf account) => ((s, balances account), balances)
  | (s, .transferFrom source target amount) =>
    match transferFrom env balances source target amount with
    | .ok balances' => ((s, true), balances')
    | .error _ => ((s, false), balances)
  | (s, .transfer target amount) =>
    match transferFrom env balances c.self target amount with
    | .ok balances' => ((s, true), balances')
    | .error _ => ((s, false), balances)

section Ledger

variable (c : Chain) (env : Env)

theorem ledger_leaves (balances : Address → Nat) (q : State × TokenRequest) :
    (ledger c env balances q).1.1 = q.1 := by
  obtain ⟨s, r⟩ := q
  cases r with
  | balanceOf account => rfl
  | transferFrom source target amount =>
      simp only [ledger]
      split <;> rfl
  | transfer target amount =>
      simp only [ledger]
      split <;> rfl

theorem handle_pullCollateral (source target : Address) (amount : Nat) (s s' : State)
    (balances balances' : Address → Nat) :
    (pullCollateral s source target amount).handle (ledger c env) balances = (.ok s', balances') ↔
      s' = s ∧ PrismV2.pullCollateral env (onLedger s balances) source target amount =
        .ok (onLedger s balances') := by
  cases hmoved : transferFrom env balances source target amount with
  | error err =>
      simp [pullCollateral, ask, handle, ledger, PrismV2.pullCollateral, onLedger, hmoved, bind,
        Except.bind]
  | ok moved =>
      cases hexpected : add256 (balances target) amount with
      | error err =>
          simp [pullCollateral, ask, handle, ledger, PrismV2.pullCollateral, onLedger, hmoved,
            hexpected, bind, Except.bind]
      | ok expected =>
          by_cases hbalance : moved target = expected
          · simp [pullCollateral, ask, handle, ledger, PrismV2.pullCollateral, onLedger, hmoved,
              hexpected, hbalance, bind, Except.bind, revertIf]
            exact fun _ => eq_comm
          · simp [pullCollateral, ask, handle, ledger, PrismV2.pullCollateral, onLedger, hmoved,
              hexpected, hbalance, bind, Except.bind, revertIf]

theorem handle_pushCollateral (target : Address) (amount : Nat) (s s' : State)
    (balances balances' : Address → Nat) :
    (pushCollateral c s target amount).handle (ledger c env) balances = (.ok s', balances') ↔
      s' = s ∧ PrismV2.pushCollateral c env (onLedger s balances) target amount =
        .ok (onLedger s balances') := by
  cases hmoved : transferFrom env balances c.self target amount with
  | error err =>
      simp [pushCollateral, ask, handle, ledger, PrismV2.pushCollateral, onLedger, hmoved, bind,
        Except.bind]
  | ok moved =>
      cases hdebited : add256 (moved c.self) amount with
      | error err =>
          simp [pushCollateral, ask, handle, ledger, PrismV2.pushCollateral, onLedger, hmoved,
            hdebited, bind, Except.bind]
      | ok debited =>
          by_cases hbalance : debited = balances c.self
          · simp [pushCollateral, ask, handle, ledger, PrismV2.pushCollateral, onLedger, hmoved,
              hdebited, hbalance, bind, Except.bind, revertIf]
            exact fun _ => eq_comm
          · simp [pushCollateral, ask, handle, ledger, PrismV2.pushCollateral, onLedger, hmoved,
              hdebited, hbalance, bind, Except.bind, revertIf]

/-- On the ledger, the code does what a function of the contract's model does. -/
def Follows (k : State → ContractM (Except Err State)) (f : State → Except Err State) : Prop :=
  ∀ s s' balances balances',
    (k s).handle (ledger c env) balances = (.ok s', balances') ↔ s'.collateral = s.collateral ∧
      f (onLedger s balances) = .ok (onLedger s' balances')

variable {c env} {k k' : State → ContractM (Except Err State)} {f f' : State → Except Err State}

theorem onLedger_inj {s s' : State} {balances balances' : Address → Nat}
    (hcollateral : s'.collateral = s.collateral) (h : onLedger s' balances' = onLedger s balances) :
    s' = s ∧ balances' = balances := by
  have hbalances : balances' = balances := congrArg State.collateral h
  refine ⟨?_, hbalances⟩
  calc s' = onLedger (onLedger s' balances') s'.collateral := rfl
    _ = onLedger (onLedger s balances) s.collateral := by rw [h, hcollateral]
    _ = s := rfl

theorem Follows.congr {g : State → Except Err State} (h : Follows c env k f)
    (hfg : ∀ s, f s = g s) : Follows c env k g := by
  obtain rfl : f = g := funext hfg
  exact h

theorem follows_of_pay {pay : State → Except Err State}
    (hpay : ∀ s s', pay s = .ok s' → ∃ balances, s' = onLedger s balances)
    (h : ∀ s s' balances balances', (k s).handle (ledger c env) balances = (.ok s', balances') ↔
      s' = s ∧ pay (onLedger s balances) = .ok (onLedger s balances')) :
    Follows c env k pay := by
  intro s s' balances balances'
  rw [h]
  constructor
  · rintro ⟨rfl, hpaid⟩
    exact ⟨rfl, hpaid⟩
  · rintro ⟨hcollateral, hpaid⟩
    obtain ⟨balances₁, heq⟩ := hpay _ _ hpaid
    have hledger : onLedger s' balances' = onLedger s balances₁ := heq
    obtain ⟨rfl, rfl⟩ := onLedger_inj hcollateral hledger
    exact ⟨rfl, hpaid⟩

theorem follows_pullCollateral (source target : Address) (amount : Nat) :
    Follows c env (fun s => pullCollateral s source target amount)
      fun s => PrismV2.pullCollateral env s source target amount := by
  refine follows_of_pay ?_ (handle_pullCollateral c env source target amount)
  intro s s' h
  exact ⟨_, ((pullCollateral_ok_iff _ _ _ _ _ _).mp h).2.2.2.2⟩

theorem follows_pushCollateral (target : Address) (amount : Nat) :
    Follows c env (fun s => pushCollateral c s target amount)
      fun s => PrismV2.pushCollateral c env s target amount := by
  refine follows_of_pay ?_ (handle_pushCollateral c env target amount)
  intro s s' h
  exact ⟨_, ((pushCollateral_ok_iff _ _ _ _ _ _).mp h).2.2.2.2⟩

theorem follows_assertSolvent : Follows c env (assertSolvent c)
    fun s => PrismV2.assertSolvent c s >>= fun _ => .ok s := by
  intro s s' balances balances'
  by_cases hheld : balances c.self < s.aggregateReserved
  · simp [assertSolvent, ask, handle, ledger, PrismV2.assertSolvent, onLedger, hheld, bind,
      Except.bind, revertIf]
  · have hcode : (assertSolvent c s).handle (ledger c env) balances = (.ok s, balances) := by
      simp [assertSolvent, ask, handle, ledger, hheld, bind, Except.bind, revertIf]
    have hmodel : PrismV2.assertSolvent c (onLedger s balances) = .ok () := by
      simp [PrismV2.assertSolvent, onLedger, hheld, revertIf]
    dsimp only
    rw [hcode, hmodel, ok_bind, Prod.mk.injEq, Except.ok.injEq, Except.ok.injEq]
    constructor
    · rintro ⟨rfl, rfl⟩
      exact ⟨rfl, rfl⟩
    · rintro ⟨hcollateral, heq⟩
      obtain ⟨rfl, rfl⟩ := onLedger_inj hcollateral heq.symm
      exact ⟨rfl, rfl⟩

theorem Follows.andThen (h : Follows c env k f) (h' : Follows c env k' f') :
    Follows c env (fun s => Program.andThen (k s) k') fun s => f s >>= f' := by
  intro s s' balances balances'
  simp only [handle_andThen_ok, bind_ok_iff]
  constructor
  · rintro ⟨s₁, balances₁, hfirst, hsecond⟩
    obtain ⟨hcollateral, hf⟩ := (h _ _ _ _).mp hfirst
    obtain ⟨hcollateral', hf'⟩ := (h' _ _ _ _).mp hsecond
    exact ⟨hcollateral'.trans hcollateral, _, hf, hf'⟩
  · rintro ⟨hcollateral, s₁, hf, hf'⟩
    refine ⟨onLedger s₁ s.collateral, s₁.collateral, (h _ _ _ _).mpr ⟨rfl, hf⟩, ?_⟩
    exact (h' _ _ _ _).mpr ⟨hcollateral, hf'⟩

/-- What a function writes does not depend on the ledger. -/
def Overlooks {γ : Type} (X : State → Except Err γ) (put : γ → (Address → Nat) → γ) : Prop :=
  ∀ s balances, X (onLedger s balances) = (X s).map (put · balances)

theorem Overlooks.collateral {X : State → Except Err State} (hX : Overlooks X onLedger)
    {s s' : State} (h : X s = .ok s') : s'.collateral = s.collateral := by
  have hsame := hX s s.collateral
  rw [show onLedger s s.collateral = s from rfl, h] at hsame
  have hkept : s' = onLedger s' s.collateral := Except.ok.inj hsame
  calc s'.collateral = (onLedger s' s.collateral).collateral := congrArg State.collateral hkept
    _ = s.collateral := rfl

theorem Follows.attempt {X : State → Except Err State} (hX : Overlooks X onLedger)
    (h : Follows c env k f) :
    Follows c env (fun s => Program.attempt (X s) k) fun s => X s >>= f := by
  intro s s' balances balances'
  dsimp only
  rw [hX s balances]
  cases hs : X s with
  | error err => simp [Program.attempt, handle, Except.map, bind, Except.bind]
  | ok s₁ =>
      have hcollateral := hX.collateral hs
      rw [← hcollateral]
      exact h s₁ s' balances balances'

theorem follows_step {g : State → State} (hg : ∀ s balances, g (onLedger s balances) =
    onLedger (g s) balances) (hcollateral : ∀ s, (g s).collateral = s.collateral) :
    Follows c env (fun s => .ret (.ok (g s))) fun s => .ok (g s) := by
  intro s s' balances balances'
  dsimp only
  rw [hg]
  simp only [handle, Prod.mk.injEq, Except.ok.injEq]
  constructor
  · rintro ⟨rfl, rfl⟩
    exact ⟨hcollateral s, rfl⟩
  · rintro ⟨hsame, heq⟩
    obtain ⟨rfl, rfl⟩ := onLedger_inj (hsame.trans (hcollateral s).symm) heq.symm
    exact ⟨rfl, rfl⟩

theorem overlooks_bookMint (a b : Authorization) (shares : Nat) :
    Overlooks (bookMint a b shares) onLedger := by
  intro s balances
  simp only [bookMint, map_bind]
  rfl

theorem overlooks_bookMerge (a b : Authorization) (shares : Nat) :
    Overlooks (bookMerge a b shares) onLedger := by
  intro s balances
  simp only [bookMerge, map_bind]
  rfl

theorem overlooks_bookTransfer (a b : Authorization) (shares : Nat) :
    Overlooks (bookTransfer a b shares) onLedger := by
  intro s balances
  unfold bookTransfer
  cases a.side with
  | yes =>
      simp only [map_bind]
      rfl
  | no =>
      simp only [map_bind]
      rfl

/-! The functions of the model, as what they write and then pay. -/

theorem mintCompleteSet_eq (c : Chain) (env : Env) (a b : Authorization)
    (shares yesCollateral noCollateral : Nat) (s : State) :
    PrismV2.mintCompleteSet c env a b shares yesCollateral noCollateral s =
      bookMint a b shares s >>= fun s =>
      PrismV2.pullCollateral env s (yesOrder a b).signer c.self yesCollateral >>= fun s =>
      PrismV2.pullCollateral env s (noOrder a b).signer c.self noCollateral := by
  simp only [bookMint, PrismV2.mintCompleteSet, bind_assoc, ok_bind]
  rfl

theorem mergeCompleteSet_eq (c : Chain) (env : Env) (a b : Authorization)
    (shares yesCollateral noCollateral : Nat) (s : State) :
    PrismV2.mergeCompleteSet c env a b shares yesCollateral noCollateral s =
      bookMerge a b shares s >>= fun s =>
      PrismV2.pushCollateral c env s (yesOrder a b).signer yesCollateral >>= fun s =>
      PrismV2.pushCollateral c env s (noOrder a b).signer noCollateral := by
  simp only [bookMerge, PrismV2.mergeCompleteSet, bind_assoc, ok_bind]
  rfl

theorem transferPosition_eq (env : Env) (a b : Authorization) (shares collateral : Nat)
    (s : State) :
    PrismV2.transferPosition env a b shares collateral s =
      bookTransfer a b shares s >>= fun s =>
      PrismV2.pullCollateral env s (buyer a b).signer (seller a b).signer collateral := by
  cases hside : a.side with
  | yes =>
      simp only [bookTransfer, PrismV2.transferPosition, hside, bind_assoc, ok_bind]
      rfl
  | no =>
      simp only [bookTransfer, PrismV2.transferPosition, hside, bind_assoc, ok_bind]
      rfl

theorem follows_mintCompleteSet (a b : Authorization) (shares yesCollateral noCollateral : Nat) :
    Follows c env (mintCompleteSet c a b shares yesCollateral noCollateral)
      (PrismV2.mintCompleteSet c env a b shares yesCollateral noCollateral) := by
  have h : Follows c env _ _ := ((follows_pullCollateral (yesOrder a b).signer c.self
    yesCollateral).andThen (follows_pullCollateral (noOrder a b).signer c.self
      noCollateral)).attempt (overlooks_bookMint a b shares)
  exact h.congr fun s => (mintCompleteSet_eq c env a b shares yesCollateral noCollateral s).symm

theorem follows_mergeCompleteSet (a b : Authorization) (shares yesCollateral noCollateral : Nat) :
    Follows c env (mergeCompleteSet c a b shares yesCollateral noCollateral)
      (PrismV2.mergeCompleteSet c env a b shares yesCollateral noCollateral) := by
  have h : Follows c env _ _ := ((follows_pushCollateral (yesOrder a b).signer
    yesCollateral).andThen (follows_pushCollateral (noOrder a b).signer
      noCollateral)).attempt (overlooks_bookMerge a b shares)
  exact h.congr fun s => (mergeCompleteSet_eq c env a b shares yesCollateral noCollateral s).symm

theorem follows_transferPosition (a b : Authorization) (shares collateral : Nat) :
    Follows c env (transferPosition a b shares collateral)
      (PrismV2.transferPosition env a b shares collateral) := by
  have h : Follows c env _ _ := (follows_pullCollateral (buyer a b).signer (seller a b).signer
    collateral).attempt (overlooks_bookTransfer a b shares)
  exact h.congr fun s => (transferPosition_eq env a b shares collateral s).symm

theorem follows_executePairing (a b : Authorization) (shares yesCollateral noCollateral : Nat) :
    Follows c env (executePairing c a b shares yesCollateral noCollateral)
      (PrismV2.executePairing c env a b shares yesCollateral noCollateral) := by
  intro s s' balances balances'
  unfold executePairing PrismV2.executePairing
  by_cases hmint : a.action = .buy ∧ b.action = .buy ∧ a.side ≠ b.side
  · rw [if_pos hmint, if_pos hmint]
    exact follows_mintCompleteSet _ _ _ _ _ _ _ _ _
  · rw [if_neg hmint, if_neg hmint]
    by_cases hmerge : a.action = .sell ∧ b.action = .sell ∧ a.side ≠ b.side
    · rw [if_pos hmerge, if_pos hmerge]
      exact follows_mergeCompleteSet _ _ _ _ _ _ _ _ _
    · rw [if_neg hmerge, if_neg hmerge]
      by_cases htransfer : a.side = b.side ∧ a.action ≠ b.action
      · rw [if_pos htransfer, if_pos htransfer]
        exact follows_transferPosition _ _ _ _ _ _ _ _
      · rw [if_neg htransfer, if_neg htransfer]
        simp [handle]

theorem nonReentrantBefore_onLedger (s : State) (balances : Address → Nat) :
    nonReentrantBefore (onLedger s balances) =
      (nonReentrantBefore s).map (onLedger · balances) := by
  simp only [nonReentrantBefore, map_bind]
  rfl

theorem consume_onLedger (s : State) (balances : Address → Nat) (a : Authorization) (hash : Bytes32)
    (fillShares fillCollateral : Nat) :
    consume (onLedger s balances) a hash fillShares fillCollateral =
      (consume s a hash fillShares fillCollateral).map (onLedger · balances) := by
  have hbind : bindNonce (onLedger s balances) a hash =
      (bindNonce s a hash).map (onLedger · balances) := by
    unfold bindNonce
    dsimp only [onLedger]
    split
    · rfl
    · split <;> rfl
  simp only [consume, hbind, map_bind, bind_map]
  rfl

/-- The record that `bookFill` returns, with the balances of a ledger. -/
def onLedgerFst {γ : Type} (r : State × γ) (balances : Address → Nat) : State × γ :=
  (onLedger r.1 balances, r.2)

theorem overlooks_bookFill (c : Chain) (env : Env) (a : Authorization) (signatureA : Bytes)
    (b : Authorization) (signatureB : Bytes) (fillShares executionYesPrice : Nat)
    (matchId : Bytes32) :
    Overlooks (bookFill c env a signatureA b signatureB fillShares executionYesPrice matchId)
      onLedgerFst := by
  intro s balances
  simp only [bookFill, nonReentrantBefore_onLedger, consume_onLedger, map_bind,
    bind_map]
  rfl

theorem Overlooks.fst_collateral {γ : Type} {X : State → Except Err (State × γ)}
    (hX : Overlooks X onLedgerFst) {s : State} {r : State × γ} (h : X s = .ok r) :
    r.1.collateral = s.collateral := by
  have hsame := hX s s.collateral
  rw [show onLedger s s.collateral = s from rfl, h] at hsame
  have hkept : r = onLedgerFst r s.collateral := Except.ok.inj hsame
  calc r.1.collateral = (onLedgerFst r s.collateral).1.collateral :=
        congrArg (fun r : State × γ => r.1.collateral) hkept
    _ = s.collateral := rfl

theorem Follows.attempt_with {γ : Type} {X : State → Except Err (State × γ)}
    {k : γ → State → ContractM (Except Err State)} {f : γ → State → Except Err State}
    (hX : Overlooks X onLedgerFst) (h : ∀ value, Follows c env (k value) (f value)) :
    Follows c env (fun s => Program.attempt (X s) fun r => k r.2 r.1)
      fun s => X s >>= fun r => f r.2 r.1 := by
  intro s s' balances balances'
  dsimp only
  rw [hX s balances]
  cases hs : X s with
  | error err => simp [Program.attempt, handle, Except.map, bind, Except.bind]
  | ok r =>
      rw [← hX.fst_collateral hs]
      exact h r.2 r.1 s' balances balances'

theorem follows_nonReentrantAfter :
    Follows c env (fun s => .ret (.ok (nonReentrantAfter s))) fun s => .ok (nonReentrantAfter s) :=
  follows_step (fun _ _ => rfl) fun _ => rfl

theorem follows_settle (a : Authorization) (signatureA : Bytes) (b : Authorization)
    (signatureB : Bytes) (fillShares executionYesPrice : Nat) (matchId : Bytes32) :
    Follows c env (settle c env a signatureA b signatureB fillShares executionYesPrice matchId)
      (PrismV2.settle c env a signatureA b signatureB fillShares executionYesPrice matchId) := by
  have hpair (legs : Nat × Nat) : Follows c env _ _ :=
    (follows_executePairing a b fillShares legs.1 legs.2).andThen
      (follows_assertSolvent.andThen follows_nonReentrantAfter)
  have h : Follows c env _ _ := .attempt_with
    (overlooks_bookFill c env a signatureA b signatureB fillShares executionYesPrice matchId) hpair
  refine h.congr fun s => ?_
  simp only [bookFill, PrismV2.settle, bind_assoc, ok_bind]

/-- The same for functions that return a value besides the state. -/
def FollowsWith (c : Chain) (env : Env) {γ : Type}
    (k : State → ContractM (Except Err (State × γ))) (f : State → Except Err (State × γ)) : Prop :=
  ∀ s s' value balances balances',
    (k s).handle (ledger c env) balances = (.ok (s', value), balances') ↔
      s'.collateral = s.collateral ∧
        f (onLedger s balances) = .ok (onLedger s' balances', value)

theorem Follows.returning {γ : Type} (h : Follows c env k f) (value : γ) :
    FollowsWith c env (fun s => Program.andThen (k s) fun s => .ret (.ok (s, value)))
      fun s => f s >>= fun s => .ok (s, value) := by
  intro s s' value' balances balances'
  simp only [handle_andThen_ok, bind_ok_iff, handle, Prod.mk.injEq, Except.ok.injEq]
  constructor
  · rintro ⟨s₁, balances₁, hfirst, ⟨rfl, rfl⟩, rfl⟩
    obtain ⟨hcollateral, hf⟩ := (h _ _ _ _).mp hfirst
    exact ⟨hcollateral, _, hf, rfl, rfl⟩
  · rintro ⟨hcollateral, s₁, hf, rfl, rfl⟩
    exact ⟨s', balances', (h _ _ _ _).mpr ⟨hcollateral, hf⟩, ⟨rfl, rfl⟩, rfl⟩

theorem FollowsWith.attempt {γ δ : Type} {X : State → Except Err (State × δ)}
    {k : δ → State → ContractM (Except Err (State × γ))}
    {f : δ → State → Except Err (State × γ)} (hX : Overlooks X onLedgerFst)
    (h : ∀ value, FollowsWith c env (k value) (f value)) :
    FollowsWith c env (fun s => Program.attempt (X s) fun r => k r.2 r.1)
      fun s => X s >>= fun r => f r.2 r.1 := by
  intro s s' value balances balances'
  dsimp only
  rw [hX s balances]
  cases hs : X s with
  | error err => simp [Program.attempt, handle, Except.map, bind, Except.bind]
  | ok r =>
      rw [← hX.fst_collateral hs]
      exact h r.2 r.1 s' value balances balances'

theorem FollowsWith.returning {γ δ : Type} {k : State → ContractM (Except Err (State × γ))}
    {f : State → Except Err (State × γ)} (h : FollowsWith c env k f) (g : γ → δ) :
    FollowsWith c env (fun s => Program.andThen (k s) fun r => .ret (.ok (r.1, g r.2)))
      fun s => (f s).map fun r => (r.1, g r.2) := by
  intro s s' value balances balances'
  simp only [handle_andThen_ok, handle, Prod.mk.injEq, Except.ok.injEq]
  cases hf : f (onLedger s balances) with
  | error err =>
      simp only [Except.map, reduceCtorEq, and_false, iff_false]
      rintro ⟨r, balances₁, hfirst, -⟩
      have hok := ((h _ _ _ _ _).mp hfirst).2
      rw [hf] at hok
      cases hok
  | ok r =>
      simp only [Except.map, Except.ok.injEq, Prod.mk.injEq]
      constructor
      · rintro ⟨r', balances₁, hfirst, ⟨rfl, rfl⟩, rfl⟩
        obtain ⟨hcollateral, hok⟩ := (h _ _ _ _ _).mp hfirst
        rw [hf, Except.ok.injEq] at hok
        rw [hok]
        exact ⟨hcollateral, rfl, rfl⟩
      · rintro ⟨hcollateral, hs', rfl⟩
        refine ⟨(s', r.2), balances', (h _ _ _ _ _).mpr ⟨hcollateral, ?_⟩, ⟨rfl, rfl⟩, rfl⟩
        rw [hf, ← hs']

theorem overlooks_redeemShares (env : Env) (marketId : Uint128) :
    Overlooks (fun s => nonReentrantBefore s >>= redeemShares env marketId) onLedgerFst := by
  have hshares (s : State) (balances : Address → Nat) :
      redeemShares env marketId (onLedger s balances) =
        (redeemShares env marketId s).map (onLedgerFst · balances) := by
    unfold redeemShares
    dsimp only [onLedger]
    split
    · simp only [map_bind]
      rfl
    · simp only [map_bind]
      rfl
    · simp only [map_bind]
      rfl
    · rfl
  intro s balances
  dsimp only
  simp only [nonReentrantBefore_onLedger, bind_map, hshares, map_bind]

theorem overlooks_bookPayout (marketId : Uint128) (gross fee : Nat) :
    Overlooks (bookPayout marketId gross fee) onLedgerFst := by
  intro s balances
  simp only [bookPayout, map_bind]
  rfl

theorem follows_payFee (fee : Nat) :
    Follows c env (payFee c fee) (PrismV2.payFee c env fee) := by
  intro s s' balances balances'
  unfold payFee PrismV2.payFee
  by_cases hfee : fee ≠ 0
  · rw [if_pos hfee, if_pos hfee]
    exact follows_pushCollateral s.dao fee s s' balances balances'
  · rw [if_neg hfee, if_neg hfee]
    exact follows_step (g := id) (fun _ _ => rfl) (fun _ => rfl) s s' balances balances'

theorem follows_payDue (fee net : Nat) :
    Follows c env (payDue c env fee net) fun s => PrismV2.payFee c env fee s >>= fun s =>
      PrismV2.pushCollateral c env s env.sender net >>= fun s =>
      PrismV2.assertSolvent c s >>= fun _ => .ok (nonReentrantAfter s) := by
  have h : Follows c env _ _ := (follows_payFee fee).andThen ((follows_pushCollateral env.sender
    net).andThen (follows_assertSolvent.andThen follows_nonReentrantAfter))
  refine h.congr fun s => ?_
  simp only [bind_assoc, ok_bind]

theorem follows_redeem (marketId : Uint128) :
    FollowsWith c env (redeem c env marketId) (PrismV2.redeem c env marketId) := by
  have hpay (due : Nat × Nat) : FollowsWith c env _ _ := .attempt
    (overlooks_bookPayout marketId due.1 due.2) fun net => (follows_payDue due.2 net).returning
      (⟨marketId, env.sender, due.1, due.2, net⟩ : Redeemed)
  have h : FollowsWith c env _ _ := .attempt (overlooks_redeemShares env marketId) hpay
  intro s s' value balances balances'
  refine (h s s' value balances balances').trans (and_congr_right fun _ => ?_)
  simp only [bookPayout, PrismV2.redeem, PrismV2.payOut, bind_assoc, ok_bind]

theorem follows_step_exec {x : State → Except Err (State × Option Redeemed)}
    (hx : Overlooks x onLedgerFst) : FollowsWith c env (fun s => .ret (x s)) x := by
  intro s s' value balances balances'
  dsimp only
  rw [hx s balances]
  cases hs : x s with
  | error err => simp [handle, Except.map]
  | ok r =>
      have hcollateral := hx.fst_collateral hs
      simp only [handle, Except.map, Prod.mk.injEq, Except.ok.injEq, onLedgerFst]
      constructor
      · rintro ⟨rfl, rfl⟩
        exact ⟨hcollateral, rfl, rfl⟩
      · rintro ⟨hsame, heq, rfl⟩
        obtain ⟨rfl, rfl⟩ := onLedger_inj (hsame.trans hcollateral.symm) heq.symm
        exact ⟨rfl, rfl⟩

/-- On a standard token, the code does what the model of the contract does. -/
theorem code_follows {tx : Tx} (htx : tx.call.isTokenTransfer = false) :
    FollowsWith c tx.env (code c tx) (exec c tx) := by
  obtain ⟨env, call⟩ := tx
  cases call with
  | settle a signatureA b signatureB fillShares executionYesPrice matchId =>
      have h : FollowsWith c env _ _ := (follows_settle a signatureA b signatureB fillShares
        executionYesPrice matchId).returning (none : Option Redeemed)
      intro s s' value balances balances'
      refine (h s s' value balances balances').trans (and_congr_right fun _ => ?_)
      dsimp only [exec]
      cases PrismV2.settle c env a signatureA b signatureB fillShares executionYesPrice matchId
        (onLedger s balances) <;> rfl
  | redeem marketId => exact (follows_redeem marketId).returning some
  | tokenTransfer source target amount => exact absurd htx (by simp [Call.isTokenTransfer])
  | _ =>
      refine follows_step_exec fun s balances => ?_
      simp only [exec, associateCollateralToken, transferOwnership, acceptOwnership, setOperator,
        setOracle, setDao, setDefaultRake, createMarket, haltMarket, resumeMarket, closeMarket,
        resolveMarket, voidMarket, cancelAuthorization, map_bind]
      rfl

end Ledger

end PrismBackend.PrismV2.Callbacks
