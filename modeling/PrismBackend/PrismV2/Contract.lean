import PrismBackend.PrismV2.Types

/-!
# PrismV2: the contract

Every function of `PrismV2.sol` that reads or writes storage, as a computation
that returns the new state or reverts. Internal functions drop the leading
underscore of the source.
-/

namespace PrismBackend.PrismV2

open PrismBackend.Lib

/-! ## Words and hashes -/

def add256 (x y : Nat) : Except Err Nat := checkedAdd 256 .arithmetic x y
def sub256 (x y : Nat) : Except Err Nat := checkedSub .arithmetic x y

/-- `Math.mulDiv`: the full product divided, reverting when the quotient does not fit. -/
def mulDiv (x y denominator : Nat) : Except Err Nat := do
  revertIf (denominator = 0 ∨ 2 ^ 256 ≤ x * y / denominator) .arithmetic
  .ok (x * y / denominator)

def Side.toWord : Side → Nat
  | .yes => 0
  | .no => 1

def Action.toWord : Action → Nat
  | .buy => 0
  | .sell => 1

/-- The bytes of a string literal. -/
def utf8 (text : String) : Bytes := text.toList.map fun ch => UInt8.ofNat ch.toNat

def authorizationType : Bytes := utf8
  "PrismAuthorization(uint8 version,uint256 chainId,address verifyingContract,address signer,uint128 marketId,uint128 txId,uint8 side,uint8 action,uint256 limitYesPrice,uint256 qtyShares,uint256 collateralCap,uint64 deadline)"

def authorizationTypehash (c : Chain) : Bytes32 :=
  c.keccak (authorizationType.map UInt8.toNat)

/-- `abi.encode` of the type hash and the twelve fields, one word each. -/
def authorizationWords (c : Chain) (a : Authorization) : List Nat :=
  [authorizationTypehash c, a.version, a.chainId, a.verifyingContract.val, a.signer.val,
    a.marketId.val, a.txId.val, a.side.toWord, a.action.toWord, a.limitYesPrice,
    a.qtyShares, a.collateralCap, a.deadline]

def authorizationHash (c : Chain) (a : Authorization) : Bytes32 :=
  c.keccak (authorizationWords c a)

def bytes32 (h : Bytes32) : Bytes :=
  (List.range 32).map fun i => UInt8.ofNat (h / 256 ^ (31 - i))

def base64Digit (n : Nat) : UInt8 :=
  UInt8.ofNat (if n < 26 then 65 + n else if n < 52 then 71 + n else if n < 62 then n - 4
    else if n = 62 then 43 else 47)

def base64Encode : Bytes → Bytes
  | [] => []
  | [x] => [base64Digit (x.toNat / 4), base64Digit (x.toNat % 4 * 16), 61, 61]
  | [x, y] => [base64Digit (x.toNat / 4), base64Digit (x.toNat % 4 * 16 + y.toNat / 16),
      base64Digit (y.toNat % 16 * 4), 61]
  | x :: y :: z :: rest =>
    base64Digit (x.toNat / 4) :: base64Digit (x.toNat % 4 * 16 + y.toNat / 16) ::
      base64Digit (y.toNat % 16 * 4 + z.toNat / 64) :: base64Digit (z.toNat % 64) ::
      base64Encode rest

/-- The bytes a user signs. -/
def authorizationMessage (c : Chain) (a : Authorization) : Bytes :=
  utf8 "\x19Hedera Signed Message:\n44" ++ base64Encode (bytes32 (authorizationHash c a))

/-! ## Modifiers and roles -/

def onlyOwner (env : Env) (s : State) : Except Err Unit :=
  revertIf (env.sender ≠ s.owner) .unauthorized

def onlyOperator (env : Env) (s : State) : Except Err Unit :=
  revertIf (env.sender ≠ s.operator) .unauthorized

def onlyOracle (env : Env) (s : State) : Except Err Unit :=
  revertIf (env.sender ≠ s.oracle) .unauthorized

def onlyOwnerOrOracle (env : Env) (s : State) : Except Err Unit :=
  revertIf (env.sender ≠ s.owner ∧ env.sender ≠ s.oracle) .unauthorized

def nonReentrantBefore (s : State) : Except Err State := do
  revertIf (s.reentrancyStatus ≠ 1) .reentrantCall
  .ok { s with reentrancyStatus := 2 }

def nonReentrantAfter (s : State) : State := { s with reentrancyStatus := 1 }

def isValidRole (c : Chain) (account : Address) : Prop := account ≠ 0 ∧ account ≠ c.self

instance (c : Chain) (account : Address) : Decidable (isValidRole c account) :=
  inferInstanceAs (Decidable (_ ∧ _))

/-! ## Collateral -/

/-- The token's `transferFrom`: a standard ERC-20 moves exactly `amount` or fails. -/
def transferFrom (env : Env) (balances : Address → Nat) (source target : Address)
    (amount : Nat) : Except Err (Address → Nat) := do
  revertIf (balances source < amount ∨ !env.tokenAccepts balances source target amount)
    .tokenFailure
  .ok (move balances source target amount)

def pullCollateral (env : Env) (s : State) (source target : Address) (amount : Nat) :
    Except Err State := do
  let balanceBefore := s.collateral target
  let collateral ← transferFrom env s.collateral source target amount
  let expected ← add256 balanceBefore amount
  revertIf (collateral target ≠ expected) .unsupportedCollateralBehavior
  .ok { s with collateral }

def pushCollateral (c : Chain) (env : Env) (s : State) (target : Address) (amount : Nat) :
    Except Err State := do
  let balanceBefore := s.collateral c.self
  let collateral ← transferFrom env s.collateral c.self target amount
  let debited ← add256 (collateral c.self) amount
  revertIf (debited ≠ balanceBefore) .unsupportedCollateralBehavior
  .ok { s with collateral }

def assertSolvent (c : Chain) (s : State) : Except Err Unit :=
  revertIf (s.collateral c.self < s.aggregateReserved) .insolvent

/-! ## Deployment and roles -/

/-- Storage before `initialize`, over a given token ledger. -/
def State.blank (collateral : Address → Nat) : State where
  collateralToken := 0
  owner := 0
  pendingOwner := 0
  operator := 0
  oracle := 0
  dao := 0
  defaultRakeBps := 0
  aggregateReserved := 0
  markets := fun _ => ⟨.uninitialized, 0, 0, 0, 0, 0⟩
  statements := fun _ => []
  yesBalance := fun _ _ => 0
  noBalance := fun _ _ => 0
  fills := fun _ => ⟨0, 0⟩
  authorizationByNonce := fun _ _ => 0
  canceled := fun _ _ => false
  executedMatches := fun _ => false
  reentrancyStatus := 0
  collateral := collateral

/-- `initialize`, run once by the proxy's constructor on blank storage. -/
def initializeProxy (c : Chain) (collateralToken owner operator oracle dao : Address)
    (defaultRakeBps : Nat) (s : State) : Except Err State := do
  revertIf (collateralToken = 0 ∨ collateralToken = c.self ∨ ¬isValidRole c owner ∨
    ¬isValidRole c operator ∨ ¬isValidRole c oracle ∨ ¬isValidRole c dao) .invalidAddress
  revertIf (maxRakeBps < defaultRakeBps) .invalidAuthorization
  .ok
    { s with
      collateralToken, owner, operator, oracle, dao, defaultRakeBps, reentrancyStatus := 1 }

def associateCollateralToken (env : Env) (s : State) : Except Err State := do
  onlyOwner env s
  revertIf (env.associateToken ≠ hederaSuccess) (.tokenAssociationFailed env.associateToken)
  .ok s

def transferOwnership (c : Chain) (env : Env) (newOwner : Address) (s : State) :
    Except Err State := do
  onlyOwner env s
  revertIf (¬isValidRole c newOwner) .invalidAddress
  .ok { s with pendingOwner := newOwner }

def acceptOwnership (env : Env) (s : State) : Except Err State := do
  revertIf (env.sender ≠ s.pendingOwner) .unauthorized
  .ok { s with owner := env.sender, pendingOwner := 0 }

def setOperator (c : Chain) (env : Env) (newOperator : Address) (s : State) :
    Except Err State := do
  onlyOwner env s
  revertIf (¬isValidRole c newOperator) .invalidAddress
  .ok { s with operator := newOperator }

def setOracle (c : Chain) (env : Env) (newOracle : Address) (s : State) :
    Except Err State := do
  onlyOwner env s
  revertIf (¬isValidRole c newOracle) .invalidAddress
  .ok { s with oracle := newOracle }

def setDao (c : Chain) (env : Env) (newDao : Address) (s : State) : Except Err State := do
  onlyOwner env s
  revertIf (¬isValidRole c newDao) .invalidAddress
  .ok { s with dao := newDao }

def setDefaultRake (env : Env) (newRakeBps : Nat) (s : State) : Except Err State := do
  onlyOwner env s
  revertIf (maxRakeBps < newRakeBps) .invalidAuthorization
  .ok { s with defaultRakeBps := newRakeBps }

/-! ## Market lifecycle -/

def State.setMarket (s : State) (marketId : Uint128) (market : Market) : State :=
  { s with markets := Function.update s.markets marketId market }

def createMarket (env : Env) (marketId : Uint128) (statement : Bytes) (closeTime : Nat)
    (s : State) : Except Err State := do
  onlyOwner env s
  revertIf ((s.markets marketId).state ≠ .uninitialized) .invalidMarketState
  revertIf (statement.length = 0 ∨ closeTime ≤ env.timestamp) .invalidAuthorization
  let s := s.setMarket marketId ⟨.open, closeTime, s.defaultRakeBps, 0, 0, 0⟩
  .ok { s with statements := Function.update s.statements marketId statement }

def haltMarket (env : Env) (marketId : Uint128) (s : State) : Except Err State := do
  onlyOwnerOrOracle env s
  let market := s.markets marketId
  revertIf (market.state ≠ .open) .invalidMarketState
  .ok (s.setMarket marketId { market with state := .halted })

def resumeMarket (env : Env) (marketId : Uint128) (s : State) : Except Err State := do
  onlyOwner env s
  let market := s.markets marketId
  revertIf (market.state ≠ .halted ∨ market.closeTime ≤ env.timestamp) .invalidMarketState
  .ok (s.setMarket marketId { market with state := .open })

def closeMarket (env : Env) (marketId : Uint128) (s : State) : Except Err State := do
  let market := s.markets marketId
  revertIf ((market.state ≠ .open ∧ market.state ≠ .halted) ∨
    env.timestamp < market.closeTime) .invalidMarketState
  .ok (s.setMarket marketId { market with state := .closed })

def resolveMarket (env : Env) (marketId : Uint128) (yesWon : Bool) (s : State) :
    Except Err State := do
  onlyOracle env s
  let market := s.markets marketId
  revertIf ((market.state ≠ .open ∧ market.state ≠ .halted ∧ market.state ≠ .closed) ∨
    env.timestamp < market.closeTime) .invalidMarketState
  .ok (s.setMarket marketId
    { market with state := if yesWon then .resolvedYes else .resolvedNo })

def voidMarket (env : Env) (marketId : Uint128) (s : State) : Except Err State := do
  onlyOracle env s
  let market := s.markets marketId
  revertIf (market.state ≠ .open ∧ market.state ≠ .halted ∧ market.state ≠ .closed)
    .invalidMarketState
  .ok (s.setMarket marketId { market with state := .void })

/-! ## Authorizations -/

/-- The limit inequalities of `_validateAuthorization`, one per order kind. -/
def limitViolated (a : Authorization) (executionYesPrice : Nat) : Prop :=
  (a.side = .yes ∧ a.action = .buy ∧ executionYesPrice > a.limitYesPrice) ∨
    (a.side = .yes ∧ a.action = .sell ∧ executionYesPrice < a.limitYesPrice) ∨
    (a.side = .no ∧ a.action = .buy ∧ executionYesPrice < a.limitYesPrice) ∨
    (a.side = .no ∧ a.action = .sell ∧ executionYesPrice > a.limitYesPrice)

instance (a : Authorization) (executionYesPrice : Nat) :
    Decidable (limitViolated a executionYesPrice) :=
  inferInstanceAs (Decidable (_ ∨ _))

def isAuthorized (env : Env) (account : Address) (message signature : Bytes) :
    Except Err Bool := do
  let (responseCode, authorized) := env.isAuthorized account message signature
  revertIf (responseCode ≠ hederaSuccess) .signatureRejected
  .ok authorized

def validateAuthorization (c : Chain) (env : Env) (s : State) (a : Authorization)
    (signature : Bytes) (executionYesPrice : Nat) : Except Err Bytes32 := do
  revertIf (a.version ≠ authorizationVersion ∨ a.chainId ≠ c.chainId ∨
    a.verifyingContract ≠ c.self ∨ a.signer = 0 ∨ a.qtyShares = 0 ∨
    (a.action = .buy ∧ a.collateralCap = 0) ∨ a.deadline < env.timestamp ∨
    a.limitYesPrice > priceScale ∨ s.canceled a.signer a.txId)
    (if s.canceled a.signer a.txId then .authorizationCanceledError else .invalidAuthorization)
  revertIf (limitViolated a executionYesPrice) .limitPriceViolated
  let authorized ← isAuthorized env a.signer (authorizationMessage c a) signature
  revertIf (!authorized) .signatureRejected
  .ok (authorizationHash c a)

/-- The first half of `_consume`: a nonce belongs to the first hash that uses it. -/
def bindNonce (s : State) (a : Authorization) (hash : Bytes32) : Except Err State :=
  let nonceHash := s.authorizationByNonce a.signer a.txId
  if nonceHash = 0 then
    .ok { s with authorizationByNonce := update₂ s.authorizationByNonce a.signer a.txId hash }
  else if nonceHash ≠ hash then .error .invalidAuthorization
  else .ok s

def consume (s : State) (a : Authorization) (hash : Bytes32) (fillShares fillCollateral : Nat) :
    Except Err State := do
  let fill := s.fills hash
  let s ← bindNonce s a hash
  let cumulativeShares ← add256 fill.shares fillShares
  let cumulativeCollateral ← add256 fill.collateral fillCollateral
  revertIf (cumulativeShares > a.qtyShares ∨
    (a.action = .buy ∧ cumulativeCollateral > a.collateralCap)) .invalidFill
  .ok { s with fills := Function.update s.fills hash ⟨cumulativeShares, cumulativeCollateral⟩ }

def cancelAuthorization (env : Env) (txId : Uint128) (s : State) : Except Err State :=
  .ok { s with canceled := update₂ s.canceled env.sender txId true }

/-! ## Settlement -/

def mintCompleteSet (c : Chain) (env : Env) (a b : Authorization)
    (shares yesCollateral noCollateral : Nat) (s : State) : Except Err State := do
  let yesOrder := if a.side = .yes then a else b
  let noOrder := if a.side = .no then a else b
  let yes ← add256 (s.yesBalance a.marketId yesOrder.signer) shares
  let no ← add256 (s.noBalance a.marketId noOrder.signer) shares
  let market := s.markets a.marketId
  let totalYes ← add256 market.totalYes shares
  let totalNo ← add256 market.totalNo shares
  let reserve ← add256 market.reserve shares
  let aggregateReserved ← add256 s.aggregateReserved shares
  let s := { s.setMarket a.marketId { market with totalYes, totalNo, reserve } with
    yesBalance := update₂ s.yesBalance a.marketId yesOrder.signer yes
    noBalance := update₂ s.noBalance a.marketId noOrder.signer no
    aggregateReserved }
  let s ← pullCollateral env s yesOrder.signer c.self yesCollateral
  pullCollateral env s noOrder.signer c.self noCollateral

def mergeCompleteSet (c : Chain) (env : Env) (a b : Authorization)
    (shares yesCollateral noCollateral : Nat) (s : State) : Except Err State := do
  let yesOrder := if a.side = .yes then a else b
  let noOrder := if a.side = .no then a else b
  let market := s.markets a.marketId
  revertIf (s.yesBalance a.marketId yesOrder.signer < shares ∨
    s.noBalance a.marketId noOrder.signer < shares ∨ market.reserve < shares)
    .insufficientPosition
  let yes ← sub256 (s.yesBalance a.marketId yesOrder.signer) shares
  let no ← sub256 (s.noBalance a.marketId noOrder.signer) shares
  let totalYes ← sub256 market.totalYes shares
  let totalNo ← sub256 market.totalNo shares
  let reserve ← sub256 market.reserve shares
  let aggregateReserved ← sub256 s.aggregateReserved shares
  let s := { s.setMarket a.marketId { market with totalYes, totalNo, reserve } with
    yesBalance := update₂ s.yesBalance a.marketId yesOrder.signer yes
    noBalance := update₂ s.noBalance a.marketId noOrder.signer no
    aggregateReserved }
  let s ← pushCollateral c env s yesOrder.signer yesCollateral
  pushCollateral c env s noOrder.signer noCollateral

/-- The share leg of `_transferPosition`, the same for the YES and the NO mapping. -/
def transferShares (balance : Uint128 → Address → Nat) (marketId : Uint128)
    (seller buyer : Address) (shares : Nat) : Except Err (Uint128 → Address → Nat) := do
  revertIf (balance marketId seller < shares) .insufficientPosition
  let sold ← sub256 (balance marketId seller) shares
  let balance := update₂ balance marketId seller sold
  let bought ← add256 (balance marketId buyer) shares
  .ok (update₂ balance marketId buyer bought)

def transferPosition (env : Env) (a b : Authorization) (shares collateral : Nat) (s : State) :
    Except Err State :=
  let buyer := if a.action = .buy then a else b
  let seller := if a.action = .sell then a else b
  match a.side with
  | .yes => do
    let yesBalance ← transferShares s.yesBalance a.marketId seller.signer buyer.signer shares
    pullCollateral env { s with yesBalance } buyer.signer seller.signer collateral
  | .no => do
    let noBalance ← transferShares s.noBalance a.marketId seller.signer buyer.signer shares
    pullCollateral env { s with noBalance } buyer.signer seller.signer collateral

/-- The collateral leg of one side of a fill. -/
def legCollateral (side : Side) (yesCollateral noCollateral : Nat) : Nat :=
  if side = .yes then yesCollateral else noCollateral

/-- The four pairings: mint, merge, or transfer of a position. -/
def executePairing (c : Chain) (env : Env) (a b : Authorization)
    (shares yesCollateral noCollateral : Nat) (s : State) : Except Err State :=
  if a.action = .buy ∧ b.action = .buy ∧ a.side ≠ b.side then
    mintCompleteSet c env a b shares yesCollateral noCollateral s
  else if a.action = .sell ∧ b.action = .sell ∧ a.side ≠ b.side then
    mergeCompleteSet c env a b shares yesCollateral noCollateral s
  else if a.side = b.side ∧ a.action ≠ b.action then
    transferPosition env a b shares (legCollateral a.side yesCollateral noCollateral) s
  else .error .invalidPairing

def settle (c : Chain) (env : Env) (a : Authorization) (signatureA : Bytes)
    (b : Authorization) (signatureB : Bytes) (fillShares executionYesPrice : Nat)
    (matchId : Bytes32) (s : State) : Except Err State := do
  onlyOperator env s
  let s ← nonReentrantBefore s
  revertIf (matchId = 0 ∨ s.executedMatches matchId) .matchAlreadyExecuted
  revertIf (a.marketId ≠ b.marketId ∨ a.signer = b.signer) .invalidPairing
  let market := s.markets a.marketId
  revertIf (market.state ≠ .open ∨ market.closeTime ≤ env.timestamp) .invalidMarketState
  revertIf (fillShares = 0 ∨ executionYesPrice = 0 ∨ priceScale ≤ executionYesPrice) .invalidPrice
  let hashA ← validateAuthorization c env s a signatureA executionYesPrice
  let hashB ← validateAuthorization c env s b signatureB executionYesPrice
  let yesCollateral ← mulDiv fillShares executionYesPrice priceScale
  let noCollateral ← sub256 fillShares yesCollateral
  revertIf (yesCollateral = 0 ∨ noCollateral = 0) .invalidFill
  let s ← consume s a hashA fillShares (legCollateral a.side yesCollateral noCollateral)
  let s ← consume s b hashB fillShares (legCollateral b.side yesCollateral noCollateral)
  let s := { s with executedMatches := Function.update s.executedMatches matchId true }
  let s ← executePairing c env a b fillShares yesCollateral noCollateral s
  assertSolvent c s
  .ok (nonReentrantAfter s)

/-! ## Redemption -/

/-- The market's new record, the caller's positions cleared, and the gross and fee due. -/
def redeemShares (env : Env) (marketId : Uint128) (s : State) :
    Except Err (State × Nat × Nat) :=
  let market := s.markets marketId
  match market.state with
  | .resolvedYes => do
    let shares := s.yesBalance marketId env.sender
    revertIf (shares = 0) .insufficientPosition
    let totalYes ← sub256 market.totalYes shares
    let s := { s.setMarket marketId { market with totalYes } with
      yesBalance := update₂ s.yesBalance marketId env.sender 0 }
    let fee ← mulDiv shares market.rakeBps 10000
    .ok (s, shares, fee)
  | .resolvedNo => do
    let shares := s.noBalance marketId env.sender
    revertIf (shares = 0) .insufficientPosition
    let totalNo ← sub256 market.totalNo shares
    let s := { s.setMarket marketId { market with totalNo } with
      noBalance := update₂ s.noBalance marketId env.sender 0 }
    let fee ← mulDiv shares market.rakeBps 10000
    .ok (s, shares, fee)
  | .void => do
    let yesShares := s.yesBalance marketId env.sender
    let noShares := s.noBalance marketId env.sender
    let shares ← add256 yesShares noShares
    revertIf (shares = 0) .insufficientPosition
    let totalYes ← sub256 market.totalYes yesShares
    let totalNo ← sub256 market.totalNo noShares
    let s := { s.setMarket marketId { market with totalYes, totalNo } with
      yesBalance := update₂ s.yesBalance marketId env.sender 0
      noBalance := update₂ s.noBalance marketId env.sender 0 }
    let outstanding ← add256 totalYes totalNo
    -- the last claimant takes what rounding left behind
    .ok (s, if outstanding = 0 then market.reserve else shares / 2, 0)
  | _ => .error .invalidMarketState

def payFee (c : Chain) (env : Env) (fee : Nat) (s : State) : Except Err State :=
  if fee ≠ 0 then pushCollateral c env s s.dao fee else .ok s

/-- The second half of `redeem`: what is due leaves the reserve and is paid out. -/
def payOut (c : Chain) (env : Env) (marketId : Uint128) (gross fee : Nat) (s : State) :
    Except Err (State × Nat) := do
  let market := s.markets marketId
  revertIf (gross > market.reserve) .insolvent
  let reserve ← sub256 market.reserve gross
  let aggregateReserved ← sub256 s.aggregateReserved gross
  let s := { s.setMarket marketId { market with reserve } with aggregateReserved }
  let net ← sub256 gross fee
  let s ← payFee c env fee s
  let s ← pushCollateral c env s env.sender net
  assertSolvent c s
  .ok (nonReentrantAfter s, net)

def redeem (c : Chain) (env : Env) (marketId : Uint128) (s : State) :
    Except Err (State × Redeemed) := do
  let s ← nonReentrantBefore s
  let due ← redeemShares env marketId s
  let paid ← payOut c env marketId due.2.1 due.2.2 due.1
  .ok (paid.1, ⟨marketId, env.sender, due.2.1, due.2.2, paid.2⟩)

end PrismBackend.PrismV2
