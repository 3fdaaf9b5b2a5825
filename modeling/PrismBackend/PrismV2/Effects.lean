import PrismBackend.PrismV2.Contract

/-!
# PrismV2: what a call can do

For each function of the contract, exactly when it returns and which state it
returns. Later modules reason from these equations and do not unfold the
contract again.
-/

namespace PrismBackend.PrismV2

open PrismBackend.Lib

/-! ## Collateral movements -/

theorem transferFrom_ok_iff (env : Env) (f g : Address → Nat) (source target : Address)
    (n : Nat) :
    transferFrom env f source target n = .ok g ↔
      n ≤ f source ∧ env.tokenAccepts f source target n = true ∧ g = move f source target n := by
  simp only [transferFrom, bind_ok_iff, revertIf_ok_iff, exists_const, Except.ok.injEq, not_or,
    not_lt, Bool.not_eq_true, Bool.not_eq_false', and_assoc]
  rw [eq_comm (a := move f source target n)]

theorem pullCollateral_ok_iff (env : Env) (s s' : State) (source target : Address) (n : Nat) :
    pullCollateral env s source target n = .ok s' ↔
      n ≤ s.collateral source ∧ env.tokenAccepts s.collateral source target n = true ∧
        s.collateral target + n < 2 ^ 256 ∧ (source ≠ target ∨ n = 0) ∧
        s' = { s with collateral := move s.collateral source target n } := by
  simp only [pullCollateral, add256, bind_ok_iff, transferFrom_ok_iff, revertIf_ok_iff,
    checkedAdd_ok_iff, Except.ok.injEq, exists_const, not_not]
  constructor
  · rintro ⟨_, ⟨hle, hacc, rfl⟩, _, ⟨hlt, rfl⟩, hmove, rfl⟩
    refine ⟨hle, hacc, hlt, ?_, rfl⟩
    by_cases hst : source = target
    · subst hst
      rw [move_self _ _ hle] at hmove
      exact Or.inr (by omega)
    · exact Or.inl hst
  · rintro ⟨hle, hacc, hlt, hst, rfl⟩
    refine ⟨_, ⟨hle, hacc, rfl⟩, _, ⟨hlt, rfl⟩, ?_, rfl⟩
    rcases hst with hst | rfl
    · exact move_target _ hst n
    · by_cases hst : source = target
      · subst hst
        rw [move_self _ _ hle, Nat.add_zero]
      · exact move_target _ hst 0

theorem pushCollateral_ok_iff (c : Chain) (env : Env) (s s' : State) (target : Address)
    (n : Nat) :
    pushCollateral c env s target n = .ok s' ↔
      n ≤ s.collateral c.self ∧ env.tokenAccepts s.collateral c.self target n = true ∧
        s.collateral c.self < 2 ^ 256 ∧ (c.self ≠ target ∨ n = 0) ∧
        s' = { s with collateral := move s.collateral c.self target n } := by
  simp only [pushCollateral, add256, bind_ok_iff, transferFrom_ok_iff, revertIf_ok_iff,
    checkedAdd_ok_iff, Except.ok.injEq, exists_const, not_not]
  constructor
  · rintro ⟨_, ⟨hle, hacc, rfl⟩, _, ⟨hlt, rfl⟩, hmove, rfl⟩
    rw [hmove] at hlt
    refine ⟨hle, hacc, hlt, ?_, rfl⟩
    by_cases hst : c.self = target
    · rw [← hst, move_self _ _ hle] at hmove
      exact Or.inr (by omega)
    · exact Or.inl hst
  · rintro ⟨hle, hacc, hlt, hst, rfl⟩
    have hmove : move s.collateral c.self target n c.self + n = s.collateral c.self := by
      rcases hst with hst | rfl
      · rw [move_source _ hst]
        omega
      · by_cases hst : c.self = target
        · rw [← hst, move_self _ _ hle, Nat.add_zero]
        · rw [move_source _ hst]
          omega
    exact ⟨_, ⟨hle, hacc, rfl⟩, _, ⟨hmove.symm ▸ hlt, rfl⟩, hmove, rfl⟩

theorem mulDiv_ok_iff (x y d q : Nat) :
    mulDiv x y d = .ok q ↔ d ≠ 0 ∧ x * y / d < 2 ^ 256 ∧ q = x * y / d := by
  simp only [mulDiv, bind_ok_iff, revertIf_ok_iff, exists_const, Except.ok.injEq, not_or,
    not_le, and_assoc]
  rw [eq_comm (a := x * y / d)]

/-! ## Authorizations -/

/-- An authorization that passes `_validateAuthorization` at an execution price. -/
structure Valid (c : Chain) (env : Env) (s : State) (a : Authorization) (signature : Bytes)
    (executionYesPrice : Nat) : Prop where
  version : a.version = authorizationVersion
  chainId : a.chainId = c.chainId
  verifyingContract : a.verifyingContract = c.self
  signer : a.signer ≠ 0
  qtyShares : a.qtyShares ≠ 0
  collateralCap : a.action = .buy → a.collateralCap ≠ 0
  deadline : env.timestamp ≤ a.deadline
  limitYesPrice : a.limitYesPrice ≤ priceScale
  notCanceled : s.canceled a.signer a.txId = false
  limit : ¬limitViolated a executionYesPrice
  signed : env.isAuthorized a.signer (authorizationMessage c a) signature = (hederaSuccess, true)

theorem validateAuthorization_ok_iff (c : Chain) (env : Env) (s : State) (a : Authorization)
    (signature : Bytes) (executionYesPrice : Nat) (hash : Bytes32) :
    validateAuthorization c env s a signature executionYesPrice = .ok hash ↔
      Valid c env s a signature executionYesPrice ∧ hash = authorizationHash c a := by
  simp only [validateAuthorization, isAuthorized, bind_ok_iff, revertIf_ok_iff,
    Except.ok.injEq, exists_const, not_or, not_and, not_not, not_lt, ne_eq, Bool.not_eq_true,
    Bool.not_eq_false']
  constructor
  · rintro ⟨⟨hv, hc, hvc, hs, hq, hcap, hd, hl, hnc⟩, hlim, _, ⟨hr, rfl⟩, hauth, rfl⟩
    exact ⟨⟨hv, hc, hvc, hs, hq, hcap, hd, hl, hnc, hlim, Prod.ext hr hauth⟩, rfl⟩
  · rintro ⟨⟨hv, hc, hvc, hs, hq, hcap, hd, hl, hnc, hlim, hsig⟩, rfl⟩
    have hresponse := congrArg Prod.fst hsig
    have hauthorized := congrArg Prod.snd hsig
    exact ⟨⟨hv, hc, hvc, hs, hq, hcap, hd, hl, hnc⟩, hlim, true, ⟨hresponse, hauthorized⟩, rfl, rfl⟩

/-- Storage after `_consume` has recorded one fill of an authorization. -/
def State.consumed (s : State) (a : Authorization) (hash : Bytes32)
    (fillShares fillCollateral : Nat) : State :=
  { s with
    authorizationByNonce := update₂ s.authorizationByNonce a.signer a.txId hash
    fills := Function.update s.fills hash
      ⟨(s.fills hash).shares + fillShares, (s.fills hash).collateral + fillCollateral⟩ }

/-- The authorization has room for the fill and its nonce is free or its own. -/
structure Consumable (s : State) (a : Authorization) (hash : Bytes32)
    (fillShares fillCollateral : Nat) : Prop where
  nonce : s.authorizationByNonce a.signer a.txId = 0 ∨
    s.authorizationByNonce a.signer a.txId = hash
  sharesFit : (s.fills hash).shares + fillShares < 2 ^ 256
  collateralFit : (s.fills hash).collateral + fillCollateral < 2 ^ 256
  shares : (s.fills hash).shares + fillShares ≤ a.qtyShares
  collateral : a.action = .buy → (s.fills hash).collateral + fillCollateral ≤ a.collateralCap

theorem bindNonce_ok_iff (s s' : State) (a : Authorization) (hash : Bytes32) :
    bindNonce s a hash = .ok s' ↔
      (s.authorizationByNonce a.signer a.txId = 0 ∨
        s.authorizationByNonce a.signer a.txId = hash) ∧
      s' = { s with
        authorizationByNonce := update₂ s.authorizationByNonce a.signer a.txId hash } := by
  unfold bindNonce
  by_cases h0 : s.authorizationByNonce a.signer a.txId = 0
  · rw [if_pos h0, Except.ok.injEq, eq_comm]
    simp [h0]
  · rw [if_neg h0]
    by_cases hh : s.authorizationByNonce a.signer a.txId = hash
    · rw [if_neg (not_not.mpr hh), Except.ok.injEq, eq_comm]
      subst hh
      simp
    · rw [if_pos hh]
      simp [h0, hh]

theorem consume_ok_iff (s s' : State) (a : Authorization) (hash : Bytes32)
    (fillShares fillCollateral : Nat) :
    consume s a hash fillShares fillCollateral = .ok s' ↔
      Consumable s a hash fillShares fillCollateral ∧
        s' = s.consumed a hash fillShares fillCollateral := by
  simp only [consume, add256, bind_ok_iff, bindNonce_ok_iff, revertIf_ok_iff, checkedAdd_ok_iff,
    Except.ok.injEq, exists_const, not_or, not_and, not_lt]
  constructor
  · rintro ⟨_, ⟨hn, rfl⟩, _, ⟨hs, rfl⟩, _, ⟨hc, rfl⟩, ⟨hq, hcap⟩, rfl⟩
    exact ⟨⟨hn, hs, hc, hq, hcap⟩, rfl⟩
  · rintro ⟨⟨hn, hs, hc, hq, hcap⟩, rfl⟩
    exact ⟨_, ⟨hn, rfl⟩, _, ⟨hs, rfl⟩, _, ⟨hc, rfl⟩, ⟨hq, hcap⟩, rfl⟩

/-! ## Pairings -/

def yesOrder (a b : Authorization) : Authorization := if a.side = .yes then a else b
def noOrder (a b : Authorization) : Authorization := if a.side = .no then a else b
def buyer (a b : Authorization) : Authorization := if a.action = .buy then a else b
def seller (a b : Authorization) : Authorization := if a.action = .sell then a else b

/-- Storage and ledger after a mint: `shares` complete sets exist more. -/
def State.minted (s : State) (c : Chain) (marketId : Uint128) (yesSigner noSigner : Address)
    (shares yesCollateral noCollateral : Nat) : State :=
  let market := s.markets marketId
  { s.setMarket marketId { market with
      totalYes := market.totalYes + shares
      totalNo := market.totalNo + shares
      reserve := market.reserve + shares } with
    yesBalance := update₂ s.yesBalance marketId yesSigner
      (s.yesBalance marketId yesSigner + shares)
    noBalance := update₂ s.noBalance marketId noSigner (s.noBalance marketId noSigner + shares)
    aggregateReserved := s.aggregateReserved + shares
    collateral := move (move s.collateral yesSigner c.self yesCollateral)
      noSigner c.self noCollateral }

structure Mintable (c : Chain) (env : Env) (s : State) (marketId : Uint128)
    (yesSigner noSigner : Address) (shares yesCollateral noCollateral : Nat) : Prop where
  yesFits : s.yesBalance marketId yesSigner + shares < 2 ^ 256
  noFits : s.noBalance marketId noSigner + shares < 2 ^ 256
  totalYesFits : (s.markets marketId).totalYes + shares < 2 ^ 256
  totalNoFits : (s.markets marketId).totalNo + shares < 2 ^ 256
  reserveFits : (s.markets marketId).reserve + shares < 2 ^ 256
  aggregateFits : s.aggregateReserved + shares < 2 ^ 256
  yesFunded : yesCollateral ≤ s.collateral yesSigner
  yesAccepted : env.tokenAccepts s.collateral yesSigner c.self yesCollateral = true
  yesPullFits : s.collateral c.self + yesCollateral < 2 ^ 256
  yesPayer : yesSigner ≠ c.self ∨ yesCollateral = 0
  noFunded : noCollateral ≤ move s.collateral yesSigner c.self yesCollateral noSigner
  noAccepted : env.tokenAccepts (move s.collateral yesSigner c.self yesCollateral)
    noSigner c.self noCollateral = true
  noPullFits : move s.collateral yesSigner c.self yesCollateral c.self + noCollateral < 2 ^ 256
  noPayer : noSigner ≠ c.self ∨ noCollateral = 0

theorem mintCompleteSet_ok_iff (c : Chain) (env : Env) (a b : Authorization)
    (shares yesCollateral noCollateral : Nat) (s s' : State) :
    mintCompleteSet c env a b shares yesCollateral noCollateral s = .ok s' ↔
      Mintable c env s a.marketId (yesOrder a b).signer (noOrder a b).signer
        shares yesCollateral noCollateral ∧
      s' = s.minted c a.marketId (yesOrder a b).signer (noOrder a b).signer
        shares yesCollateral noCollateral := by
  simp only [mintCompleteSet, add256, bind_ok_iff, checkedAdd_ok_iff, pullCollateral_ok_iff]
  constructor
  · rintro ⟨_, ⟨h1, rfl⟩, _, ⟨h2, rfl⟩, _, ⟨h3, rfl⟩, _, ⟨h4, rfl⟩, _, ⟨h5, rfl⟩, _,
      ⟨h6, rfl⟩, _, ⟨h7, h8, h9, h10, rfl⟩, h11, h12, h13, h14, rfl⟩
    exact ⟨⟨h1, h2, h3, h4, h5, h6, h7, h8, h9, h10, h11, h12, h13, h14⟩, rfl⟩
  · rintro ⟨⟨h1, h2, h3, h4, h5, h6, h7, h8, h9, h10, h11, h12, h13, h14⟩, rfl⟩
    exact ⟨_, ⟨h1, rfl⟩, _, ⟨h2, rfl⟩, _, ⟨h3, rfl⟩, _, ⟨h4, rfl⟩, _, ⟨h5, rfl⟩, _,
      ⟨h6, rfl⟩, _, ⟨h7, h8, h9, h10, rfl⟩, h11, h12, h13, h14, rfl⟩

/-- Storage and ledger after a merge: `shares` complete sets are burnt and paid out. -/
def State.merged (s : State) (c : Chain) (marketId : Uint128) (yesSigner noSigner : Address)
    (shares yesCollateral noCollateral : Nat) : State :=
  let market := s.markets marketId
  { s.setMarket marketId { market with
      totalYes := market.totalYes - shares
      totalNo := market.totalNo - shares
      reserve := market.reserve - shares } with
    yesBalance := update₂ s.yesBalance marketId yesSigner
      (s.yesBalance marketId yesSigner - shares)
    noBalance := update₂ s.noBalance marketId noSigner (s.noBalance marketId noSigner - shares)
    aggregateReserved := s.aggregateReserved - shares
    collateral := move (move s.collateral c.self yesSigner yesCollateral)
      c.self noSigner noCollateral }

structure Mergeable (c : Chain) (env : Env) (s : State) (marketId : Uint128)
    (yesSigner noSigner : Address) (shares yesCollateral noCollateral : Nat) : Prop where
  yesHeld : shares ≤ s.yesBalance marketId yesSigner
  noHeld : shares ≤ s.noBalance marketId noSigner
  reserved : shares ≤ (s.markets marketId).reserve
  totalYes : shares ≤ (s.markets marketId).totalYes
  totalNo : shares ≤ (s.markets marketId).totalNo
  aggregate : shares ≤ s.aggregateReserved
  yesFunded : yesCollateral ≤ s.collateral c.self
  yesAccepted : env.tokenAccepts s.collateral c.self yesSigner yesCollateral = true
  yesPushFits : s.collateral c.self < 2 ^ 256
  yesPayee : c.self ≠ yesSigner ∨ yesCollateral = 0
  noFunded : noCollateral ≤ move s.collateral c.self yesSigner yesCollateral c.self
  noAccepted : env.tokenAccepts (move s.collateral c.self yesSigner yesCollateral)
    c.self noSigner noCollateral = true
  noPushFits : move s.collateral c.self yesSigner yesCollateral c.self < 2 ^ 256
  noPayee : c.self ≠ noSigner ∨ noCollateral = 0

theorem mergeCompleteSet_ok_iff (c : Chain) (env : Env) (a b : Authorization)
    (shares yesCollateral noCollateral : Nat) (s s' : State) :
    mergeCompleteSet c env a b shares yesCollateral noCollateral s = .ok s' ↔
      Mergeable c env s a.marketId (yesOrder a b).signer (noOrder a b).signer
        shares yesCollateral noCollateral ∧
      s' = s.merged c a.marketId (yesOrder a b).signer (noOrder a b).signer
        shares yesCollateral noCollateral := by
  simp only [mergeCompleteSet, sub256, bind_ok_iff, checkedSub_ok_iff, revertIf_ok_iff,
    pushCollateral_ok_iff, exists_const, not_or, not_lt]
  constructor
  · rintro ⟨⟨h1, h2, h3⟩, _, ⟨_, rfl⟩, _, ⟨_, rfl⟩, _, ⟨h4, rfl⟩, _, ⟨h5, rfl⟩, _, ⟨_, rfl⟩, _,
      ⟨h6, rfl⟩, _, ⟨h7, h8, h9, h10, rfl⟩, h11, h12, h13, h14, rfl⟩
    exact ⟨⟨h1, h2, h3, h4, h5, h6, h7, h8, h9, h10, h11, h12, h13, h14⟩, rfl⟩
  · rintro ⟨⟨h1, h2, h3, h4, h5, h6, h7, h8, h9, h10, h11, h12, h13, h14⟩, rfl⟩
    exact ⟨⟨h1, h2, h3⟩, _, ⟨h1, rfl⟩, _, ⟨h2, rfl⟩, _, ⟨h4, rfl⟩, _, ⟨h5, rfl⟩, _, ⟨h3, rfl⟩, _,
      ⟨h6, rfl⟩, _, ⟨h7, h8, h9, h10, rfl⟩, h11, h12, h13, h14, rfl⟩

def State.position (s : State) : Side → Uint128 → Address → Nat
  | .yes => s.yesBalance
  | .no => s.noBalance

def State.setPosition (s : State) (side : Side) (balance : Uint128 → Address → Nat) : State :=
  match side with
  | .yes => { s with yesBalance := balance }
  | .no => { s with noBalance := balance }

/-- Storage and ledger after a transfer of `shares` of one outcome against collateral. -/
def State.transferred (s : State) (side : Side) (marketId : Uint128)
    (sellSigner buySigner : Address)
    (shares collateral : Nat) : State :=
  let held := s.position side
  let sold := update₂ held marketId sellSigner (held marketId sellSigner - shares)
  { s.setPosition side (update₂ sold marketId buySigner (sold marketId buySigner + shares)) with
    collateral := move s.collateral buySigner sellSigner collateral }

structure Transferable (env : Env) (s : State) (side : Side) (marketId : Uint128)
    (sellSigner buySigner : Address) (shares collateral : Nat) : Prop where
  held : shares ≤ s.position side marketId sellSigner
  fits : update₂ (s.position side) marketId sellSigner
    (s.position side marketId sellSigner - shares) marketId buySigner + shares < 2 ^ 256
  funded : collateral ≤ s.collateral buySigner
  accepted : env.tokenAccepts s.collateral buySigner sellSigner collateral = true
  pullFits : s.collateral sellSigner + collateral < 2 ^ 256
  payer : buySigner ≠ sellSigner ∨ collateral = 0

theorem transferShares_ok_iff (balance balance' : Uint128 → Address → Nat) (marketId : Uint128)
    (sellSigner buySigner : Address) (shares : Nat) :
    transferShares balance marketId sellSigner buySigner shares = .ok balance' ↔
      shares ≤ balance marketId sellSigner ∧
      update₂ balance marketId sellSigner (balance marketId sellSigner - shares)
        marketId buySigner + shares < 2 ^ 256 ∧
      balance' = update₂
        (update₂ balance marketId sellSigner (balance marketId sellSigner - shares)) marketId
        buySigner (update₂ balance marketId sellSigner (balance marketId sellSigner - shares)
          marketId buySigner + shares) := by
  simp only [transferShares, add256, sub256, bind_ok_iff, revertIf_ok_iff, checkedSub_ok_iff,
    checkedAdd_ok_iff, exists_const, not_lt, Except.ok.injEq]
  constructor
  · rintro ⟨hheld, _, ⟨_, rfl⟩, _, ⟨hfits, rfl⟩, rfl⟩
    exact ⟨hheld, hfits, rfl⟩
  · rintro ⟨hheld, hfits, rfl⟩
    exact ⟨hheld, _, ⟨hheld, rfl⟩, _, ⟨hfits, rfl⟩, rfl⟩

theorem transferPosition_ok_iff (env : Env) (a b : Authorization) (shares collateral : Nat)
    (s s' : State) :
    transferPosition env a b shares collateral s = .ok s' ↔
      Transferable env s a.side a.marketId (seller a b).signer (buyer a b).signer
        shares collateral ∧
      s' = s.transferred a.side a.marketId (seller a b).signer (buyer a b).signer
        shares collateral := by
  cases hside : a.side
  all_goals
    simp only [transferPosition, hside, bind_ok_iff, transferShares_ok_iff, pullCollateral_ok_iff]
    constructor
    · rintro ⟨_, ⟨h1, h2, rfl⟩, h3, h4, h5, h6, rfl⟩
      exact ⟨⟨h1, h2, h3, h4, h5, h6⟩, rfl⟩
    · rintro ⟨⟨h1, h2, h3, h4, h5, h6⟩, rfl⟩
      exact ⟨_, ⟨h1, h2, rfl⟩, h3, h4, h5, h6, rfl⟩

inductive PairingEffect (c : Chain) (env : Env) (a b : Authorization)
    (shares yesCollateral noCollateral : Nat) (s : State) : State → Prop
  | mint (hactions : a.action = .buy ∧ b.action = .buy) (hsides : a.side ≠ b.side)
      (hguard : Mintable c env s a.marketId (yesOrder a b).signer (noOrder a b).signer
        shares yesCollateral noCollateral) :
      PairingEffect c env a b shares yesCollateral noCollateral s
        (s.minted c a.marketId (yesOrder a b).signer (noOrder a b).signer
          shares yesCollateral noCollateral)
  | merge (hactions : a.action = .sell ∧ b.action = .sell) (hsides : a.side ≠ b.side)
      (hguard : Mergeable c env s a.marketId (yesOrder a b).signer (noOrder a b).signer
        shares yesCollateral noCollateral) :
      PairingEffect c env a b shares yesCollateral noCollateral s
        (s.merged c a.marketId (yesOrder a b).signer (noOrder a b).signer
          shares yesCollateral noCollateral)
  | transfer (hactions : a.action ≠ b.action) (hsides : a.side = b.side)
      (hguard : Transferable env s a.side a.marketId (seller a b).signer (buyer a b).signer
        shares (legCollateral a.side yesCollateral noCollateral)) :
      PairingEffect c env a b shares yesCollateral noCollateral s
        (s.transferred a.side a.marketId (seller a b).signer (buyer a b).signer
          shares (legCollateral a.side yesCollateral noCollateral))

theorem executePairing_ok_iff (c : Chain) (env : Env) (a b : Authorization)
    (shares yesCollateral noCollateral : Nat) (s s' : State) :
    executePairing c env a b shares yesCollateral noCollateral s = .ok s' ↔
      PairingEffect c env a b shares yesCollateral noCollateral s s' := by
  unfold executePairing
  constructor
  · intro h
    by_cases hmint : a.action = .buy ∧ b.action = .buy ∧ a.side ≠ b.side
    · rw [if_pos hmint, mintCompleteSet_ok_iff] at h
      rw [h.2]
      exact .mint ⟨hmint.1, hmint.2.1⟩ hmint.2.2 h.1
    by_cases hmerge : a.action = .sell ∧ b.action = .sell ∧ a.side ≠ b.side
    · rw [if_neg hmint, if_pos hmerge, mergeCompleteSet_ok_iff] at h
      rw [h.2]
      exact .merge ⟨hmerge.1, hmerge.2.1⟩ hmerge.2.2 h.1
    by_cases htransfer : a.side = b.side ∧ a.action ≠ b.action
    · rw [if_neg hmint, if_neg hmerge, if_pos htransfer, transferPosition_ok_iff] at h
      rw [h.2]
      exact .transfer htransfer.2 htransfer.1 h.1
    · rw [if_neg hmint, if_neg hmerge, if_neg htransfer] at h
      exact absurd h (by simp)
  · intro h
    cases h with
    | mint hactions hsides hguard =>
      rw [if_pos ⟨hactions.1, hactions.2, hsides⟩, mintCompleteSet_ok_iff]
      exact ⟨hguard, rfl⟩
    | merge hactions hsides hguard =>
      rw [if_neg (by simp [hactions.1]), if_pos ⟨hactions.1, hactions.2, hsides⟩,
        mergeCompleteSet_ok_iff]
      exact ⟨hguard, rfl⟩
    | transfer hactions hsides hguard =>
      rw [if_neg (fun h => h.2.2 hsides), if_neg (fun h => h.2.2 hsides),
        if_pos ⟨hsides, hactions⟩, transferPosition_ok_iff]
      exact ⟨hguard, rfl⟩

/-! ## Settlement -/

def yesCollateral (fillShares executionYesPrice : Nat) : Nat :=
  fillShares * executionYesPrice / priceScale

def noCollateral (fillShares executionYesPrice : Nat) : Nat :=
  fillShares - yesCollateral fillShares executionYesPrice

def fillCollateral (a : Authorization) (fillShares executionYesPrice : Nat) : Nat :=
  legCollateral a.side (yesCollateral fillShares executionYesPrice)
    (noCollateral fillShares executionYesPrice)

/-- Storage when both orders are consumed and the match id is used up. -/
def State.booked (s : State) (c : Chain) (a b : Authorization)
    (fillShares executionYesPrice : Nat) (matchId : Bytes32) : State :=
  let s := s.consumed a (authorizationHash c a) fillShares
    (fillCollateral a fillShares executionYesPrice)
  let s := s.consumed b (authorizationHash c b) fillShares
    (fillCollateral b fillShares executionYesPrice)
  { s with
    executedMatches := Function.update s.executedMatches matchId true
    reentrancyStatus := 2 }

/-- What `settle` checks before it moves anything. -/
structure Admitted (c : Chain) (env : Env) (s : State) (a : Authorization) (signatureA : Bytes)
    (b : Authorization) (signatureB : Bytes) (fillShares executionYesPrice : Nat)
    (matchId : Bytes32) : Prop where
  operator : env.sender = s.operator
  entered : s.reentrancyStatus = 1
  matchId_ne_zero : matchId ≠ 0
  fresh : s.executedMatches matchId = false
  market : a.marketId = b.marketId
  signers : a.signer ≠ b.signer
  isOpen : (s.markets a.marketId).state = .open
  beforeClose : env.timestamp < (s.markets a.marketId).closeTime
  fillShares_ne_zero : fillShares ≠ 0
  price_ne_zero : executionYesPrice ≠ 0
  price_lt : executionYesPrice < priceScale
  validA : Valid c env s a signatureA executionYesPrice
  validB : Valid c env s b signatureB executionYesPrice
  collateralFits : yesCollateral fillShares executionYesPrice < 2 ^ 256
  yesLeg : yesCollateral fillShares executionYesPrice ≠ 0
  noLeg : noCollateral fillShares executionYesPrice ≠ 0
  consumeA : Consumable s a (authorizationHash c a) fillShares
    (fillCollateral a fillShares executionYesPrice)
  consumeB : Consumable (s.consumed a (authorizationHash c a) fillShares
      (fillCollateral a fillShares executionYesPrice)) b (authorizationHash c b) fillShares
    (fillCollateral b fillShares executionYesPrice)

theorem yesCollateral_le (fillShares : Nat) {executionYesPrice : Nat}
    (hprice : executionYesPrice < priceScale) :
    yesCollateral fillShares executionYesPrice ≤ fillShares := by
  have hmul : fillShares * executionYesPrice ≤ fillShares * priceScale :=
    Nat.mul_le_mul_left _ hprice.le
  exact Nat.div_le_of_le_mul (by rwa [Nat.mul_comm priceScale])

theorem yesCollateral_add_noCollateral (fillShares : Nat) {executionYesPrice : Nat}
    (hprice : executionYesPrice < priceScale) :
    yesCollateral fillShares executionYesPrice + noCollateral fillShares executionYesPrice =
      fillShares := by
  unfold noCollateral
  have hle := yesCollateral_le fillShares hprice
  omega

theorem nonReentrantBefore_ok_iff (s s' : State) :
    nonReentrantBefore s = .ok s' ↔
      s.reentrancyStatus = 1 ∧ s' = { s with reentrancyStatus := 2 } := by
  simp only [nonReentrantBefore, bind_ok_iff, revertIf_ok_iff, exists_const, not_not,
    Except.ok.injEq]
  exact and_congr_right fun _ => eq_comm

theorem valid_entered (c : Chain) (env : Env) (s : State) (a : Authorization)
    (signature : Bytes) (price status : Nat) :
    Valid c env { s with reentrancyStatus := status } a signature price ↔
      Valid c env s a signature price := by
  constructor
  · rintro ⟨h1, h2, h3, h4, h5, h6, h7, h8, h9, h10, h11⟩
    exact ⟨h1, h2, h3, h4, h5, h6, h7, h8, h9, h10, h11⟩
  · rintro ⟨h1, h2, h3, h4, h5, h6, h7, h8, h9, h10, h11⟩
    exact ⟨h1, h2, h3, h4, h5, h6, h7, h8, h9, h10, h11⟩

theorem consumable_entered (s : State) (a : Authorization) (hash : Bytes32)
    (fillShares fillCollateral status : Nat) :
    Consumable { s with reentrancyStatus := status } a hash fillShares fillCollateral ↔
      Consumable s a hash fillShares fillCollateral := by
  constructor
  · rintro ⟨h1, h2, h3, h4, h5⟩
    exact ⟨h1, h2, h3, h4, h5⟩
  · rintro ⟨h1, h2, h3, h4, h5⟩
    exact ⟨h1, h2, h3, h4, h5⟩

theorem settle_ok_iff (c : Chain) (env : Env) (a : Authorization) (signatureA : Bytes)
    (b : Authorization) (signatureB : Bytes) (fillShares executionYesPrice : Nat)
    (matchId : Bytes32) (s s' : State) :
    settle c env a signatureA b signatureB fillShares executionYesPrice matchId s = .ok s' ↔
      Admitted c env s a signatureA b signatureB fillShares executionYesPrice matchId ∧
      ∃ s₁, PairingEffect c env a b fillShares (yesCollateral fillShares executionYesPrice)
          (noCollateral fillShares executionYesPrice)
          (s.booked c a b fillShares executionYesPrice matchId) s₁ ∧
        s₁.aggregateReserved ≤ s₁.collateral c.self ∧ s' = nonReentrantAfter s₁ := by
  simp only [settle, onlyOperator, sub256, assertSolvent, bind_ok_iff, revertIf_ok_iff,
    nonReentrantBefore_ok_iff, validateAuthorization_ok_iff, mulDiv_ok_iff, checkedSub_ok_iff,
    consume_ok_iff, executePairing_ok_iff, exists_const, not_or, not_not, not_lt, not_le, ne_eq,
    Except.ok.injEq]
  constructor
  · rintro ⟨hop, _, ⟨hent, rfl⟩, ⟨hid, hfresh⟩, ⟨hm, hsig⟩, ⟨hopen, hclose⟩, ⟨hf, hp, hlt⟩, _,
      ⟨hvA, rfl⟩, _, ⟨hvB, rfl⟩, _, ⟨hd, hfit, rfl⟩, _, ⟨hle, rfl⟩, ⟨hyes, hno⟩, _, ⟨hcA, rfl⟩, _,
      ⟨hcB, rfl⟩, s₁, hpair, hsolv, rfl⟩
    have hbook := (consumable_entered _ _ _ _ _ _).mp hcA
    have hbook' := (consumable_entered (s.consumed _ _ _ _) _ _ _ _ _).mp hcB
    exact ⟨⟨hop, hent, hid, Bool.eq_false_iff.mpr hfresh, hm, hsig, hopen, hclose, hf, hp, hlt,
      (valid_entered _ _ _ _ _ _ _).mp hvA, (valid_entered _ _ _ _ _ _ _).mp hvB, hfit, hyes, hno,
      hbook, hbook'⟩, s₁, hpair, hsolv, rfl⟩
  · rintro ⟨h, s₁, hpair, hsolv, rfl⟩
    have hbook := (consumable_entered _ _ _ _ _ 2).mpr h.consumeA
    have hbook' := (consumable_entered _ _ _ _ _ 2).mpr h.consumeB
    exact ⟨h.operator, _, ⟨h.entered, rfl⟩, ⟨h.matchId_ne_zero, Bool.eq_false_iff.mp h.fresh⟩,
      ⟨h.market, h.signers⟩, ⟨h.isOpen, h.beforeClose⟩,
      ⟨h.fillShares_ne_zero, h.price_ne_zero, h.price_lt⟩, _,
      ⟨(valid_entered _ _ _ _ _ _ 2).mpr h.validA, rfl⟩, _,
      ⟨(valid_entered _ _ _ _ _ _ 2).mpr h.validB, rfl⟩, _,
      ⟨by decide, h.collateralFits, rfl⟩, _, ⟨yesCollateral_le fillShares h.price_lt, rfl⟩,
      ⟨h.yesLeg, h.noLeg⟩, _, ⟨hbook, rfl⟩, _, ⟨hbook', rfl⟩, s₁, hpair, hsolv, rfl⟩

/-! ## Redemption -/

def MarketState.isTerminal : MarketState → Bool
  | .resolvedYes | .resolvedNo | .void => true
  | _ => false

def State.burntYes (s : State) (marketId : Uint128) (account : Address) : Nat :=
  match (s.markets marketId).state with
  | .resolvedYes | .void => s.yesBalance marketId account
  | _ => 0

def State.burntNo (s : State) (marketId : Uint128) (account : Address) : Nat :=
  match (s.markets marketId).state with
  | .resolvedNo | .void => s.noBalance marketId account
  | _ => 0

def State.grossPayout (s : State) (marketId : Uint128) (account : Address) : Nat :=
  let market := s.markets marketId
  let burnt := s.burntYes marketId account + s.burntNo marketId account
  match market.state with
  | .void =>
    if market.totalYes - s.yesBalance marketId account +
      (market.totalNo - s.noBalance marketId account) = 0 then market.reserve else burnt / 2
  | _ => burnt

def State.payoutFee (s : State) (marketId : Uint128) (account : Address) : Nat :=
  let market := s.markets marketId
  match market.state with
  | .void => 0
  | _ => s.grossPayout marketId account * market.rakeBps / 10000

def State.burnt (s : State) (marketId : Uint128) (account : Address) : State :=
  let market := s.markets marketId
  let yes := s.burntYes marketId account
  let no := s.burntNo marketId account
  { s.setMarket marketId { market with
      totalYes := market.totalYes - yes
      totalNo := market.totalNo - no } with
    yesBalance := update₂ s.yesBalance marketId account (s.yesBalance marketId account - yes)
    noBalance := update₂ s.noBalance marketId account (s.noBalance marketId account - no) }

/-- What `redeem` checks about positions. -/
structure Claimable (s : State) (marketId : Uint128) (account : Address) : Prop where
  terminal : (s.markets marketId).state.isTerminal = true
  claim : s.burntYes marketId account + s.burntNo marketId account ≠ 0
  claimFits : (s.markets marketId).state = .void →
    s.yesBalance marketId account + s.noBalance marketId account < 2 ^ 256
  totalYes : s.burntYes marketId account ≤ (s.markets marketId).totalYes
  totalNo : s.burntNo marketId account ≤ (s.markets marketId).totalNo
  outstandingFits : (s.markets marketId).state = .void →
    (s.markets marketId).totalYes - s.yesBalance marketId account +
      ((s.markets marketId).totalNo - s.noBalance marketId account) < 2 ^ 256
  feeFits : s.payoutFee marketId account < 2 ^ 256

private theorem redeemShares_resolvedYes (env : Env) (marketId : Uint128) (s : State)
    (r : State × Nat × Nat) (hstate : (s.markets marketId).state = .resolvedYes) :
    redeemShares env marketId s = .ok r ↔
      Claimable s marketId env.sender ∧
      r = (s.burnt marketId env.sender, s.grossPayout marketId env.sender,
        s.payoutFee marketId env.sender) := by
  have hyes : s.burntYes marketId env.sender = s.yesBalance marketId env.sender := by
    simp only [State.burntYes, hstate]
  have hno : s.burntNo marketId env.sender = 0 := by
    simp only [State.burntNo, hstate]
  have hgross : s.grossPayout marketId env.sender = s.yesBalance marketId env.sender := by
    simp only [State.grossPayout, hstate, hyes, hno, Nat.add_zero]
  have hfee : s.payoutFee marketId env.sender =
      s.yesBalance marketId env.sender * (s.markets marketId).rakeBps / 10000 := by
    simp only [State.payoutFee, hstate, hgross]
  have hburnt : s.burnt marketId env.sender =
      { s.setMarket marketId { s.markets marketId with
          totalYes := (s.markets marketId).totalYes - s.yesBalance marketId env.sender } with
        yesBalance := update₂ s.yesBalance marketId env.sender 0 } := by
    simp only [State.burnt, hyes, hno, Nat.sub_self, Nat.sub_zero, update₂_eq_self,
      State.setMarket]
  simp only [redeemShares, hstate, sub256, bind_ok_iff, revertIf_ok_iff, checkedSub_ok_iff,
    mulDiv_ok_iff, exists_const, Except.ok.injEq, hgross, hfee, hburnt]
  constructor
  · rintro ⟨hne, _, ⟨hle, rfl⟩, _, ⟨_, hfit, rfl⟩, rfl⟩
    exact ⟨⟨by rw [hstate]; rfl, by rwa [hyes, hno], by simp [hstate], by rwa [hyes],
      by simp [hno], by simp [hstate], by rwa [hfee]⟩, rfl⟩
  · rintro ⟨⟨_, hne, _, hle, _, _, hfit⟩, rfl⟩
    rw [hyes, hno] at hne
    rw [hyes] at hle
    rw [hfee] at hfit
    exact ⟨hne, _, ⟨hle, rfl⟩, _, ⟨by decide, hfit, rfl⟩, rfl⟩

private theorem redeemShares_resolvedNo (env : Env) (marketId : Uint128) (s : State)
    (r : State × Nat × Nat) (hstate : (s.markets marketId).state = .resolvedNo) :
    redeemShares env marketId s = .ok r ↔
      Claimable s marketId env.sender ∧
      r = (s.burnt marketId env.sender, s.grossPayout marketId env.sender,
        s.payoutFee marketId env.sender) := by
  have hyes : s.burntYes marketId env.sender = 0 := by
    simp only [State.burntYes, hstate]
  have hno : s.burntNo marketId env.sender = s.noBalance marketId env.sender := by
    simp only [State.burntNo, hstate]
  have hgross : s.grossPayout marketId env.sender = s.noBalance marketId env.sender := by
    simp only [State.grossPayout, hstate, hyes, hno, Nat.zero_add]
  have hfee : s.payoutFee marketId env.sender =
      s.noBalance marketId env.sender * (s.markets marketId).rakeBps / 10000 := by
    simp only [State.payoutFee, hstate, hgross]
  have hburnt : s.burnt marketId env.sender =
      { s.setMarket marketId { s.markets marketId with
          totalNo := (s.markets marketId).totalNo - s.noBalance marketId env.sender } with
        noBalance := update₂ s.noBalance marketId env.sender 0 } := by
    simp only [State.burnt, hyes, hno, Nat.sub_self, Nat.sub_zero, update₂_eq_self,
      State.setMarket]
  simp only [redeemShares, hstate, sub256, bind_ok_iff, revertIf_ok_iff, checkedSub_ok_iff,
    mulDiv_ok_iff, exists_const, Except.ok.injEq, hgross, hfee, hburnt]
  constructor
  · rintro ⟨hne, _, ⟨hle, rfl⟩, _, ⟨_, hfit, rfl⟩, rfl⟩
    exact ⟨⟨by rw [hstate]; rfl, by rwa [hyes, hno, Nat.zero_add], by simp [hstate], by simp [hyes],
      by rwa [hno], by simp [hstate], by rwa [hfee]⟩, rfl⟩
  · rintro ⟨⟨_, hne, _, _, hle, _, hfit⟩, rfl⟩
    rw [hyes, hno, Nat.zero_add] at hne
    rw [hno] at hle
    rw [hfee] at hfit
    exact ⟨hne, _, ⟨hle, rfl⟩, _, ⟨by decide, hfit, rfl⟩, rfl⟩

private theorem redeemShares_void (env : Env) (marketId : Uint128) (s : State)
    (r : State × Nat × Nat) (hstate : (s.markets marketId).state = .void) :
    redeemShares env marketId s = .ok r ↔
      Claimable s marketId env.sender ∧
      r = (s.burnt marketId env.sender, s.grossPayout marketId env.sender,
        s.payoutFee marketId env.sender) := by
  have hyes : s.burntYes marketId env.sender = s.yesBalance marketId env.sender := by
    simp only [State.burntYes, hstate]
  have hno : s.burntNo marketId env.sender = s.noBalance marketId env.sender := by
    simp only [State.burntNo, hstate]
  have hfee : s.payoutFee marketId env.sender = 0 := by
    simp only [State.payoutFee, hstate]
  simp only [redeemShares, hstate, add256, sub256, bind_ok_iff, revertIf_ok_iff,
    checkedAdd_ok_iff, checkedSub_ok_iff, exists_const, Except.ok.injEq, State.burnt,
    State.grossPayout, hyes, hno, hfee, Nat.sub_self]
  constructor
  · rintro ⟨_, ⟨hfit, rfl⟩, hne, _, ⟨hy, rfl⟩, _, ⟨hn, rfl⟩, _, ⟨hout, rfl⟩, rfl⟩
    exact ⟨⟨by rw [hstate]; rfl, by rwa [hyes, hno], fun _ => hfit, by rwa [hyes],
      by rwa [hno], fun _ => hout, by simp [hfee]⟩, rfl⟩
  · rintro ⟨⟨_, hne, hfit, hy, hn, hout, _⟩, rfl⟩
    rw [hyes, hno] at hne
    rw [hyes] at hy
    rw [hno] at hn
    exact ⟨_, ⟨hfit hstate, rfl⟩, hne, _, ⟨hy, rfl⟩, _, ⟨hn, rfl⟩, _, ⟨hout hstate, rfl⟩, rfl⟩

theorem redeemShares_ok_iff (env : Env) (marketId : Uint128) (s : State)
    (r : State × Nat × Nat) :
    redeemShares env marketId s = .ok r ↔
      Claimable s marketId env.sender ∧
      r = (s.burnt marketId env.sender, s.grossPayout marketId env.sender,
        s.payoutFee marketId env.sender) := by
  cases hstate : (s.markets marketId).state with
  | resolvedYes => exact redeemShares_resolvedYes env marketId s r hstate
  | resolvedNo => exact redeemShares_resolvedNo env marketId s r hstate
  | void => exact redeemShares_void env marketId s r hstate
  | uninitialized | «open» | halted | closed =>
    simp only [redeemShares, hstate, reduceCtorEq, false_iff]
    rintro ⟨hclaim, -⟩
    exact absurd hclaim.terminal (by rw [hstate]; decide)

/-- Storage and ledger after `gross` has left a market's reserve, `fee` of it to the DAO. -/
def State.paid (s : State) (c : Chain) (marketId : Uint128) (account : Address)
    (gross fee : Nat) : State :=
  let market := s.markets marketId
  { s.setMarket marketId { market with reserve := market.reserve - gross } with
    aggregateReserved := s.aggregateReserved - gross
    collateral := move (move s.collateral c.self s.dao fee) c.self account (gross - fee)
    reentrancyStatus := 1 }

/-- What `redeem` checks about the money it pays out. -/
structure Payable (c : Chain) (env : Env) (s : State) (account : Address)
    (reserve gross fee : Nat) : Prop where
  reserved : gross ≤ reserve
  aggregate : gross ≤ s.aggregateReserved
  fee_le : fee ≤ gross
  feeFunded : fee ≤ s.collateral c.self
  feeAccepted : fee ≠ 0 → env.tokenAccepts s.collateral c.self s.dao fee = true
  feePayee : c.self ≠ s.dao ∨ fee = 0
  netFunded : gross - fee ≤ move s.collateral c.self s.dao fee c.self
  netAccepted : env.tokenAccepts (move s.collateral c.self s.dao fee) c.self account
    (gross - fee) = true
  pushFits : s.collateral c.self < 2 ^ 256
  netPayee : c.self ≠ account ∨ gross - fee = 0
  solvent : s.aggregateReserved - gross ≤
    move (move s.collateral c.self s.dao fee) c.self account (gross - fee) c.self

theorem payFee_ok_iff (c : Chain) (env : Env) (fee : Nat) (s s' : State) :
    payFee c env fee s = .ok s' ↔
      (fee ≠ 0 → fee ≤ s.collateral c.self ∧
        env.tokenAccepts s.collateral c.self s.dao fee = true ∧
        s.collateral c.self < 2 ^ 256 ∧ c.self ≠ s.dao) ∧
      s' = { s with collateral := move s.collateral c.self s.dao fee } := by
  unfold payFee
  by_cases hfee : fee = 0
  · subst hfee
    rw [if_neg (by simp), Except.ok.injEq, move_zero, eq_comm]
    simp
  · rw [if_pos hfee, pushCollateral_ok_iff]
    simp only [hfee, or_false, ne_eq, not_false_eq_true, true_imp_iff, and_assoc]

theorem payOut_ok_iff (c : Chain) (env : Env) (marketId : Uint128) (gross fee : Nat) (s : State)
    (r : State × Nat) :
    payOut c env marketId gross fee s = .ok r ↔
      Payable c env s env.sender (s.markets marketId).reserve gross fee ∧
      r = (s.paid c marketId env.sender gross fee, gross - fee) := by
  simp only [payOut, sub256, assertSolvent, bind_ok_iff, revertIf_ok_iff, checkedSub_ok_iff,
    payFee_ok_iff, pushCollateral_ok_iff, exists_const, not_lt, Except.ok.injEq]
  constructor
  · rintro ⟨hres, _, ⟨_, rfl⟩, _, ⟨hagg, rfl⟩, _, ⟨hfee, rfl⟩, _, ⟨hpay, rfl⟩, _,
      ⟨hnet, hacc, hfits, hpayee, rfl⟩, hsolv, rfl⟩
    -- a zero fee is not pushed; then the net push alone carries the checks
    by_cases hzero : fee = 0
    · subst hzero
      rw [move_zero] at hfits
      exact ⟨⟨hres, hagg, hfee, Nat.zero_le _, fun hne => absurd rfl hne, Or.inr rfl, hnet,
        hacc, hfits, hpayee, hsolv⟩, rfl⟩
    · obtain ⟨hfunded, haccepted, hfit, hdao⟩ := hpay hzero
      exact ⟨⟨hres, hagg, hfee, hfunded, fun _ => haccepted, Or.inl hdao, hnet, hacc, hfit,
        hpayee, hsolv⟩, rfl⟩
  · rintro ⟨hpay, rfl⟩
    have hfits : move s.collateral c.self s.dao fee c.self < 2 ^ 256 := by
      by_cases hzero : fee = 0
      · rw [hzero, move_zero]
        exact hpay.pushFits
      · rw [move_source _ (hpay.feePayee.resolve_right hzero)]
        exact (Nat.sub_le _ _).trans_lt hpay.pushFits
    exact ⟨hpay.reserved, _, ⟨hpay.reserved, rfl⟩, _, ⟨hpay.aggregate, rfl⟩, _,
      ⟨hpay.fee_le, rfl⟩, _, ⟨fun hne => ⟨hpay.feeFunded, hpay.feeAccepted hne, hpay.pushFits,
        hpay.feePayee.resolve_right hne⟩, rfl⟩, _,
      ⟨hpay.netFunded, hpay.netAccepted, hfits, hpay.netPayee, rfl⟩, hpay.solvent, rfl⟩

theorem claimable_entered (s : State) (marketId : Uint128) (account : Address) (status : Nat) :
    Claimable { s with reentrancyStatus := status } marketId account ↔
      Claimable s marketId account := by
  constructor
  · rintro ⟨h1, h2, h3, h4, h5, h6, h7⟩
    exact ⟨h1, h2, h3, h4, h5, h6, h7⟩
  · rintro ⟨h1, h2, h3, h4, h5, h6, h7⟩
    exact ⟨h1, h2, h3, h4, h5, h6, h7⟩

theorem payable_entered (c : Chain) (env : Env) (s : State) (account : Address)
    (reserve gross fee status : Nat) :
    Payable c env { s with reentrancyStatus := status } account reserve gross fee ↔
      Payable c env s account reserve gross fee := by
  constructor
  · rintro ⟨h1, h2, h3, h4, h5, h6, h7, h8, h9, h10, h11⟩
    exact ⟨h1, h2, h3, h4, h5, h6, h7, h8, h9, h10, h11⟩
  · rintro ⟨h1, h2, h3, h4, h5, h6, h7, h8, h9, h10, h11⟩
    exact ⟨h1, h2, h3, h4, h5, h6, h7, h8, h9, h10, h11⟩

def State.redeemed (s : State) (c : Chain) (marketId : Uint128) (account : Address) : State :=
  (s.burnt marketId account).paid c marketId account (s.grossPayout marketId account)
    (s.payoutFee marketId account)

def redeemedRecord (s : State) (marketId : Uint128) (account : Address) : Redeemed where
  marketId := marketId
  account := account
  gross := s.grossPayout marketId account
  fee := s.payoutFee marketId account
  net := s.grossPayout marketId account - s.payoutFee marketId account

theorem redeem_ok_iff (c : Chain) (env : Env) (marketId : Uint128) (s s' : State)
    (r : Redeemed) :
    redeem c env marketId s = .ok (s', r) ↔
      s.reentrancyStatus = 1 ∧ Claimable s marketId env.sender ∧
      Payable c env (s.burnt marketId env.sender) env.sender
        ((s.burnt marketId env.sender).markets marketId).reserve
        (s.grossPayout marketId env.sender) (s.payoutFee marketId env.sender) ∧
      s' = s.redeemed c marketId env.sender ∧ r = redeemedRecord s marketId env.sender := by
  simp only [redeem, bind_ok_iff, nonReentrantBefore_ok_iff, redeemShares_ok_iff,
    payOut_ok_iff, Except.ok.injEq, Prod.mk.injEq]
  constructor
  · rintro ⟨_, ⟨hent, rfl⟩, _, ⟨hclaim, rfl⟩, _, ⟨hpay, rfl⟩, rfl, rfl⟩
    have hpaid := (payable_entered c env (s.burnt marketId env.sender) _ _ _ _ 2).mp hpay
    exact ⟨hent, (claimable_entered s marketId env.sender 2).mp hclaim, hpaid, rfl, rfl⟩
  · rintro ⟨hent, hclaim, hpay, rfl, rfl⟩
    have hpaid := (payable_entered c env (s.burnt marketId env.sender) _ _ _ _ 2).mpr hpay
    exact ⟨_, ⟨hent, rfl⟩, _, ⟨(claimable_entered s marketId env.sender 2).mpr hclaim, rfl⟩, _,
      ⟨hpaid, rfl⟩, rfl, rfl⟩

end PrismBackend.PrismV2
