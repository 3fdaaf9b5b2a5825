import PrismBackend.Lib.Abi
import PrismBackend.PrismV2.Contract

/-!
# Prism: the legacy contract

The functions of `Prism.sol`, whose markets stay redeemable, as computations that
return the new state or revert. The mappings by market are gathered in one record
for each market, and those of the two outcomes are functions of the side. The
ledger and the allowances of the collateral token are part of the state.
-/

namespace PrismBackend.PrismV1

open PrismBackend.Lib
open PrismBackend.Lib.Abi (beBytes)
open PrismBackend.PrismV2 (Address Uint128 Bytes Side bytes32 base64Encode utf8 hederaSuccess)

inductive Err
  | require (message : String)
  /-- the panic of a checked operation -/
  | arithmetic
  deriving DecidableEq, Repr

/-- `address(this)` and the hash function. -/
structure Chain where
  self : Address
  keccak : Bytes → Nat

structure Market where
  statement : Bytes
  /-- 0 when NO wins, 1 when YES wins, 2 after an emergency close -/
  outcome : Nat
  resolutionTime : Nat
  totalCollateralUsd : Nat
  totalTokensOutstanding : Side → Nat
  tokens : Side → Address → Nat

structure State where
  owner : Address
  oracle : Address
  dao : Address
  associatedTokens : Address → Bool
  markets : Uint128 → Market
  marketCreationFeeUsdc : Nat
  rakePercentScaled100 : Nat
  entered : Bool
  /-- the token's ledger -/
  balanceOf : Address → Nat
  allowance : Address → Address → Nat

/-- What a transaction brings with it: the caller, the block time and the answers of the Hedera
precompiles. -/
structure Env where
  sender : Address
  timestamp : Nat
  isAuthorized : Address → Bytes → Bytes → Int × Bool
  associateToken : Address → Int

def add256 (x y : Nat) : Except Err Nat := checkedAdd 256 .arithmetic x y
def sub256 (x y : Nat) : Except Err Nat := checkedSub .arithmetic x y
def mul256 (x y : Nat) : Except Err Nat := checkedMul 256 .arithmetic x y

def require (condition : Prop) [Decidable condition] (message : String) : Except Err Unit :=
  revertIf (¬condition) (.require message)

/-! ## The collateral token -/

/-- `transfer` of a standard ERC-20, which fails only where the amount is not held. -/
def transfer (s : State) (source target : Address) (amount : Nat) (message : String) :
    Except Err State := do
  require (amount ≤ s.balanceOf source) message
  .ok { s with balanceOf := move s.balanceOf source target amount }

/-- What is left of an allowance; the greatest one is not used up. -/
def spend (allowance amount : Nat) : Nat :=
  if allowance = 2 ^ 256 - 1 then allowance else allowance - amount

/-- `transferFrom`, called by the contract. -/
def transferFrom (c : Chain) (s : State) (source target : Address) (amount : Nat)
    (message : String) : Except Err State := do
  require (amount ≤ s.allowance source c.self) message
  let left := spend (s.allowance source c.self) amount
  transfer { s with allowance := update₂ s.allowance source c.self left } source target amount
    message

/-! ## Guards -/

def onlyOwner (env : Env) (s : State) : Except Err Unit :=
  require (env.sender = s.owner) "Only direct user calls are allowed for this function"

def onlyOracle (env : Env) (s : State) : Except Err Unit :=
  require (env.sender = s.oracle) "Only oracle can call this function"

def onlyDao (env : Env) (s : State) : Except Err Unit :=
  require (env.sender = s.dao) "Only DAO can call this function"

def nonReentrantBefore (s : State) : Except Err State := do
  require (s.entered = false) "ReentrancyGuard: reentrant call"
  .ok { s with entered := true }

def nonReentrantAfter (s : State) : State := { s with entered := false }

/-! ## Deployment and markets -/

/-- `constructor`, over what the token holds for the accounts. -/
def deploy (sender : Address) (balanceOf : Address → Nat) (allowance : Address → Address → Nat) :
    State where
  owner := sender
  oracle := sender
  dao := sender
  associatedTokens := fun _ => false
  markets := fun _ => ⟨[], 0, 0, 0, fun _ => 0, fun _ _ => 0⟩
  marketCreationFeeUsdc := 100000
  rakePercentScaled100 := 200
  entered := false
  balanceOf := balanceOf
  allowance := allowance

def State.setMarket (s : State) (marketId : Uint128) (market : Market) : State :=
  { s with markets := Function.update s.markets marketId market }

/-- With the allowance that is left to the caller. -/
def createNewMarket (c : Chain) (env : Env) (marketId : Uint128) (statement : Bytes) (s : State) :
    Except Err (State × Nat) := do
  onlyOwner env s
  require (c.keccak (s.markets marketId).statement = c.keccak []) "Market already exists"
  let s ← transferFrom c s env.sender c.self s.marketCreationFeeUsdc "Transfer failed"
  let s ← transfer s c.self s.owner s.marketCreationFeeUsdc "Fee transfer failed"
  let s := s.setMarket marketId { s.markets marketId with
    statement
    outcome := 0
    resolutionTime := 0
    totalCollateralUsd := 0
    totalTokensOutstanding := fun _ => 0 }
  .ok (s, s.allowance env.sender c.self)

def setMarketCreationFee (env : Env) (marketCreationFeeUsdc : Nat) (s : State) :
    Except Err State := do
  onlyOwner env s
  .ok { s with marketCreationFeeUsdc }

def resolveMarket (env : Env) (marketId : Uint128) (noYes : Bool) (s : State) :
    Except Err State := do
  onlyOracle env s
  let market := s.markets marketId
  require (0 < market.statement.length) "No market statement has been set"
  require (market.resolutionTime = 0) "Already resolved"
  .ok (s.setMarket marketId
    { market with outcome := if noYes then 1 else 0, resolutionTime := env.timestamp })

def emergencyCloseMarket5050 (env : Env) (marketId : Uint128) (s : State) : Except Err State := do
  onlyDao env s
  let market := s.markets marketId
  require (0 < market.statement.length) "No market statement has been set"
  require (market.resolutionTime = 0) "Market already resolved"
  .ok (s.setMarket marketId { market with resolutionTime := env.timestamp, outcome := 2 })

def setRakeScaled100 (env : Env) (rakePercentScaled100 : Nat) (s : State) : Except Err State := do
  onlyDao env s
  require (rakePercentScaled100 ≤ 10000) "Rake cannot exceed 100%"
  .ok { s with rakePercentScaled100 }

def setDao (env : Env) (dao : Address) (s : State) : Except Err State := do
  onlyDao env s
  require (dao ≠ 0) "DAO cannot be zero address"
  .ok { s with dao }

def setOracle (env : Env) (oracle : Address) (s : State) : Except Err State := do
  onlyDao env s
  require (oracle ≠ 0) "Oracle cannot be zero address"
  .ok { s with oracle }

def associateToken (env : Env) (tokenAddress : Address) (s : State) : Except Err State := do
  onlyOwner env s
  require (env.associateToken tokenAddress = hederaSuccess) "Association not successful"
  .ok { s with associatedTokens := Function.update s.associatedTokens tokenAddress true }

/-! ## Settlement -/

def prefixMessageFixed (messageHashBase64 : Bytes) : Bytes :=
  utf8 "\x19Hedera Signed Message:\n44" ++ messageHashBase64

def assemblePayload (c : Chain) (buySell collateralUsd : Nat) (evmAddr : Address)
    (marketId txId : Uint128) (primarySecondary : Nat) : Bytes :=
  let assembled := beBytes 1 buySell ++ beBytes 32 collateralUsd ++ beBytes 20 evmAddr ++
    beBytes 16 marketId ++ beBytes 16 txId ++ beBytes 1 primarySecondary
  prefixMessageFixed (base64Encode (bytes32 (c.keccak assembled)))

def isAuthorized (env : Env) (account : Address) (message signatureMap : Bytes) :
    Except Err Bool := do
  let (responseCode, authorized) := env.isAuthorized account message signatureMap
  require (responseCode = hederaSuccess) "isAuthorized failed"
  .ok authorized

/-- The arguments of one slot of `posColToksOnBehalfAtomic`. -/
structure Slot where
  signer : Address
  collateralUsdAbsScaled : Nat
  qtyScaled : Nat
  txId : Uint128
  sigObj : Bytes
  primarySecondary : Bool

def requireAuthorized (c : Chain) (env : Env) (marketId : Uint128) (buySell : Nat) (slot : Slot)
    (message : String) : Except Err Unit := do
  let authorized ← isAuthorized env slot.signer
    (assemblePayload c buySell slot.collateralUsdAbsScaled slot.signer marketId slot.txId
      (if slot.primarySecondary then 0xf1 else 0xf0)) slot.sigObj
  require (authorized = true) message

def sideText : Side → String
  | .yes => "YES"
  | .no => "NO"

/-- The branches that sell the tokens of a side. -/
def sell (c : Chain) (marketId : Uint128) (side : Side) (seller : Address) (amount : Nat)
    (s : State) : Except Err State := do
  let market := s.markets marketId
  require (amount ≤ market.tokens side seller) ("Insufficient " ++ sideText side ++ " tokens")
  let held ← sub256 (market.tokens side seller) amount
  let outstanding ← sub256 (market.totalTokensOutstanding side) amount
  require (amount ≤ market.totalCollateralUsd)
    ("Insufficient market collateral (SELL " ++ sideText side ++ ")")
  let totalCollateralUsd ← sub256 market.totalCollateralUsd amount
  transfer
    (s.setMarket marketId { market with
      totalCollateralUsd
      totalTokensOutstanding := Function.update market.totalTokensOutstanding side outstanding
      tokens := update₂ market.tokens side seller held })
    c.self seller amount ("Transfer to " ++ sideText side ++ " seller failed")

/-- The branches that buy the tokens of a side. -/
def buy (c : Chain) (marketId : Uint128) (side : Side) (buyer : Address) (amount : Nat)
    (s : State) : Except Err State := do
  let s ← transferFrom c s buyer c.self amount
    ("Transfer from " ++ sideText side ++ " buyer failed")
  let market := s.markets marketId
  let held ← add256 (market.tokens side buyer) amount
  let outstanding ← add256 (market.totalTokensOutstanding side) amount
  let totalCollateralUsd ← add256 market.totalCollateralUsd amount
  .ok (s.setMarket marketId { market with
    totalCollateralUsd
    totalTokensOutstanding := Function.update market.totalTokensOutstanding side outstanding
    tokens := update₂ market.tokens side buyer held })

/-- A slot sells the tokens of one side when it is secondary, and else buys those of the other. -/
def settleSlot (c : Chain) (marketId : Uint128) (sells buys : Side) (slot : Slot) (amount : Nat)
    (s : State) : Except Err State :=
  if slot.primarySecondary then sell c marketId sells slot.signer amount s
  else buy c marketId buys slot.signer amount s

/-- With the position tokens that the signers hold then. -/
def posColToksOnBehalfAtomic (c : Chain) (env : Env) (marketId : Uint128) (slot0 slot1 : Slot)
    (s : State) : Except Err (State × Nat × Nat × Nat × Nat) := do
  onlyOwner env s
  require ((s.markets marketId).resolutionTime = 0) "Market resolved"
  require (0 < (s.markets marketId).statement.length) "No market statement has been set"
  requireAuthorized c env marketId 0xf0 slot0 "isAuthorized slot0 failed"
  requireAuthorized c env marketId 0xf1 slot1 "isAuthorized slot1 failed"
  require (0 < slot0.qtyScaled) "Settlement amount must be positive"
  require (slot0.qtyScaled = slot1.qtyScaled) "Oversize settlement tuple"
  require (slot0.qtyScaled ≤ slot0.collateralUsdAbsScaled) "Oversize settlement tuple"
  require (slot1.qtyScaled ≤ slot1.collateralUsdAbsScaled) "Oversize settlement tuple"
  let settlementUsdAbsScaled := slot0.qtyScaled
  -- the slot of the positive price, then that of the negative price
  let s ← settleSlot c marketId .no .yes slot0 settlementUsdAbsScaled s
  let s ← settleSlot c marketId .yes .no slot1 settlementUsdAbsScaled s
  let tokens := (s.markets marketId).tokens
  .ok (s, tokens .yes slot0.signer, tokens .no slot0.signer, tokens .yes slot1.signer,
    tokens .no slot1.signer)

/-! ## Redemption -/

/-- `claimUnits` and `totalClaimUnits`. -/
def Market.claim (market : Market) (winner : Address) : Except Err (Nat × Nat) :=
  let yesBalance := market.tokens .yes winner
  let noBalance := market.tokens .no winner
  if market.outcome = 1 then .ok (yesBalance, market.totalTokensOutstanding .yes)
  else if market.outcome = 0 then .ok (noBalance, market.totalTokensOutstanding .no)
  else if market.outcome = 2 then do
    let claimUnits ← add256 yesBalance noBalance
    let totalClaimUnits ←
      add256 (market.totalTokensOutstanding .yes) (market.totalTokensOutstanding .no)
    .ok (claimUnits, totalClaimUnits)
  else .error (.require "Invalid market outcome")

/-- `grossWinnings`. -/
def Market.share (market : Market) (claimUnits totalClaimUnits : Nat) : Except Err Nat :=
  if claimUnits = totalClaimUnits then .ok market.totalCollateralUsd
  else (mul256 market.totalCollateralUsd claimUnits).map (· / totalClaimUnits)

def Market.clear (market : Market) (side : Side) (winner : Address) : Except Err Market :=
  let balance := market.tokens side winner
  if 0 < balance then do
    let outstanding ← sub256 (market.totalTokensOutstanding side) balance
    .ok { market with
      totalTokensOutstanding := Function.update market.totalTokensOutstanding side outstanding
      tokens := update₂ market.tokens side winner 0 }
  else .ok market

/-- With the payout. -/
def redeemInternal (c : Chain) (marketId : Uint128) (winner : Address) (s : State) :
    Except Err (State × Nat) := do
  let market := s.markets marketId
  require (0 < market.resolutionTime) "Not resolved yet"
  let (claimUnits, totalClaimUnits) ← market.claim winner
  require (0 < claimUnits) "No winning tokens"
  require (claimUnits ≤ totalClaimUnits) "Winning supply mismatch"
  require (0 < market.totalCollateralUsd) "No market collateral"
  let grossWinnings ← market.share claimUnits totalClaimUnits
  require (0 < grossWinnings) "No claimable collateral"
  let rakeAmount ← (mul256 grossWinnings s.rakePercentScaled100).map (· / 10000)
  let payoutAmount ← sub256 grossWinnings rakeAmount
  require (market.totalCollateralUsd ≤ s.balanceOf c.self) "Collateral accounting mismatch"
  let s ← transfer s c.self s.owner rakeAmount "Rake transfer failed"
  let s ← transfer s c.self winner payoutAmount "Collateral transfer failed"
  let market ← market.clear .yes winner
  let market ← market.clear .no winner
  let totalCollateralUsd ← sub256 market.totalCollateralUsd grossWinnings
  .ok (s.setMarket marketId { market with totalCollateralUsd }, payoutAmount)

def redeem (c : Chain) (env : Env) (marketId : Uint128) (s : State) : Except Err (State × Nat) := do
  let s ← nonReentrantBefore s
  let paid ← redeemInternal c marketId env.sender s
  .ok (nonReentrantAfter paid.1, paid.2)

def redeemOnBehalfOfUser (c : Chain) (env : Env) (marketId : Uint128) (userAccount : Address)
    (s : State) : Except Err (State × Nat) := do
  onlyOwner env s
  let s ← nonReentrantBefore s
  let paid ← redeemInternal c marketId userAccount s
  .ok (nonReentrantAfter paid.1, paid.2)

/-! ## Runs -/

inductive Call
  | createNewMarket (marketId : Uint128) (statement : Bytes)
  | setMarketCreationFee (marketCreationFeeUsdc : Nat)
  | posColToksOnBehalfAtomic (marketId : Uint128) (slot0 slot1 : Slot)
  | redeem (marketId : Uint128)
  | redeemOnBehalfOfUser (marketId : Uint128) (userAccount : Address)
  | resolveMarket (marketId : Uint128) (noYes : Bool)
  | emergencyCloseMarket5050 (marketId : Uint128)
  | setRakeScaled100 (rakePercentScaled100 : Nat)
  | setDao (dao : Address)
  | setOracle (oracle : Address)
  | associateToken (tokenAddress : Address)
  /-- a transfer on the token itself, from an account other than the contract -/
  | tokenTransfer (source target : Address) (amount : Nat)
  /-- an approval on the token itself, by an account other than the contract -/
  | tokenApprove (holder spender : Address) (amount : Nat)

structure Tx where
  env : Env
  call : Call

/-- The contract approves nobody and transfers only from its code. -/
def tokenTransfer (c : Chain) (source target : Address) (amount : Nat) (s : State) :
    Except Err State := do
  require (source ≠ c.self) "source"
  transfer s source target amount "amount"

def tokenApprove (c : Chain) (holder spender : Address) (amount : Nat) (s : State) :
    Except Err State := do
  require (holder ≠ c.self) "holder"
  .ok { s with allowance := update₂ s.allowance holder spender amount }

/-- One transaction, without the values that it returns. -/
def exec (c : Chain) (tx : Tx) (s : State) : Except Err State :=
  match tx.call with
  | .createNewMarket marketId statement =>
    (createNewMarket c tx.env marketId statement s).map Prod.fst
  | .setMarketCreationFee marketCreationFeeUsdc =>
    setMarketCreationFee tx.env marketCreationFeeUsdc s
  | .posColToksOnBehalfAtomic marketId slot0 slot1 =>
    (posColToksOnBehalfAtomic c tx.env marketId slot0 slot1 s).map Prod.fst
  | .redeem marketId => (redeem c tx.env marketId s).map Prod.fst
  | .redeemOnBehalfOfUser marketId userAccount =>
    (redeemOnBehalfOfUser c tx.env marketId userAccount s).map Prod.fst
  | .resolveMarket marketId noYes => resolveMarket tx.env marketId noYes s
  | .emergencyCloseMarket5050 marketId => emergencyCloseMarket5050 tx.env marketId s
  | .setRakeScaled100 rakePercentScaled100 => setRakeScaled100 tx.env rakePercentScaled100 s
  | .setDao dao => setDao tx.env dao s
  | .setOracle oracle => setOracle tx.env oracle s
  | .associateToken tokenAddress => associateToken tx.env tokenAddress s
  | .tokenTransfer source target amount => tokenTransfer c source target amount s
  | .tokenApprove holder spender amount => tokenApprove c holder spender amount s

def apply (c : Chain) (s : State) (tx : Tx) : State :=
  match exec c tx s with
  | .ok s' => s'
  | .error _ => s

def run (c : Chain) (s : State) (txs : List Tx) : State := txs.foldl (apply c) s

end PrismBackend.PrismV1
