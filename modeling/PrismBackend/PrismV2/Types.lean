import Mathlib.Algebra.GroupWithZero.Nat
import Mathlib.Data.Fintype.Basic
import PrismBackend.Lib.Revert
import PrismBackend.Lib.Ledger

/-!
# PrismV2: data

The structs, enums, errors and storage of `PrismV2.sol`, together with the
collateral token's ledger. A word of 256 bits is a `Nat`; every addition and
subtraction on it is checked where the contract computes it.
-/

namespace PrismBackend.PrismV2

abbrev Address := Fin (2 ^ 160)
abbrev Uint128 := Fin (2 ^ 128)
/-- Hashes and match ids; zero is the unset word. -/
abbrev Bytes32 := Nat
abbrev Bytes := List UInt8

instance neZeroAddress : NeZero (2 ^ 160) := inferInstance
instance neZeroUint128 : NeZero (2 ^ 128) := inferInstance

def authorizationVersion : Nat := 2
def priceScale : Nat := 1000000
def maxRakeBps : Nat := 1000
def hederaSuccess : Int := 22

inductive Side
  | yes
  | no
  deriving DecidableEq, Repr

inductive Action
  | buy
  | sell
  deriving DecidableEq, Repr

inductive MarketState
  | uninitialized
  | «open»
  | halted
  | closed
  | resolvedYes
  | resolvedNo
  | void
  deriving DecidableEq, Repr

structure Authorization where
  version : Nat
  chainId : Nat
  verifyingContract : Address
  signer : Address
  marketId : Uint128
  txId : Uint128
  side : Side
  action : Action
  limitYesPrice : Nat
  qtyShares : Nat
  collateralCap : Nat
  deadline : Nat
  deriving DecidableEq, Repr

structure FillState where
  shares : Nat
  collateral : Nat
  deriving DecidableEq, Repr

structure Market where
  state : MarketState
  closeTime : Nat
  rakeBps : Nat
  reserve : Nat
  totalYes : Nat
  totalNo : Nat
  deriving DecidableEq, Repr

/-- The record a `Redeemed` event carries; `redeem` returns its `net`. -/
structure Redeemed where
  marketId : Uint128
  account : Address
  gross : Nat
  fee : Nat
  net : Nat
  deriving DecidableEq, Repr

inductive Err
  | unauthorized
  | invalidAddress
  | invalidAuthorization
  | invalidMarketState
  | invalidPairing
  | invalidPrice
  | invalidFill
  | limitPriceViolated
  | authorizationCanceledError
  | signatureRejected
  | tokenAssociationFailed (responseCode : Int)
  | matchAlreadyExecuted
  | insufficientPosition
  | insolvent
  | unsupportedCollateralBehavior
  | reentrantCall
  | arithmetic
  | tokenFailure
  deriving DecidableEq, Repr

structure State where
  collateralToken : Address
  owner : Address
  pendingOwner : Address
  operator : Address
  oracle : Address
  dao : Address
  defaultRakeBps : Nat
  aggregateReserved : Nat
  markets : Uint128 → Market
  statements : Uint128 → Bytes
  yesBalance : Uint128 → Address → Nat
  noBalance : Uint128 → Address → Nat
  fills : Bytes32 → FillState
  authorizationByNonce : Address → Uint128 → Bytes32
  canceled : Address → Uint128 → Bool
  executedMatches : Bytes32 → Bool
  reentrancyStatus : Nat
  /-- the token's ledger, `collateralToken.balanceOf` -/
  collateral : Address → Nat

/-- What is fixed for one deployment: `block.chainid`, `address(this)` and the
hash function, here a function on lists of words. -/
structure Chain where
  chainId : Nat
  self : Address
  keccak : List Nat → Bytes32

/-- What one transaction brings with it: the caller, the block time, the answers
of the Hedera precompiles, and what the token refuses beyond a missing balance
(an allowance, a pause, a frozen or unassociated account). -/
structure Env where
  sender : Address
  timestamp : Nat
  isAuthorized : Address → Bytes → Bytes → Int × Bool
  associateToken : Int
  tokenAccepts : (Address → Nat) → Address → Address → Nat → Bool

end PrismBackend.PrismV2
