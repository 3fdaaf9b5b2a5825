import PrismBackend.Lib.Entries
import PrismBackend.Api.Calldata
import PrismBackend.Api.Orders

/-!
# API: the checks of a settlement

The integer rules of `settlement_v2.go` with its unsigned arithmetic of 64 bits,
and the checks of `settleMatchV2` that read nothing but their arguments.
-/

namespace PrismBackend.Api

open PrismBackend.Lib PrismBackend.Clob PrismBackend.PrismV2
open PrismBackend.Lib.Abi (beBytes)

def text (s : Str) : String := String.ofList s

/-! ## Unsigned arithmetic of 64 bits -/

def add64 (x y : Nat) : Nat := (x + y) % 2 ^ 64
def sub64 (x y : Nat) : Nat := (x + 2 ^ 64 - y) % 2 ^ 64

/-- `bits.Mul64`: the high and the low word of a product. -/
def mul64 (x y : Nat) : Nat × Nat := (x * y / 2 ^ 64, x * y % 2 ^ 64)

/-- The quotient of `bits.Div64`, which panics unless the high word is below the divisor. -/
def div64 (hi lo y : Nat) : Option Nat :=
  if hi < y then some ((hi * 2 ^ 64 + lo) / y) else none

theorem add64_eq {x y : Nat} (h : x + y < 2 ^ 64) : add64 x y = x + y := Nat.mod_eq_of_lt h

theorem foldl_add64 {α : Type} (f : α → Nat) (xs : List α) :
    xs.foldl (fun total x => add64 total (f x)) 0 = (xs.map f).sum % 2 ^ 64 := by
  have hsum := foldl_add_mod (2 ^ 64) f xs 0
  rwa [Nat.zero_add] at hsum

theorem sub64_eq {x y : Nat} (hx : x < 2 ^ 64) (h : y ≤ x) : sub64 x y = x - y := by
  unfold sub64
  omega

/-- The product of a fill and a price divides without a panic, and exactly. -/
theorem div64_mul64 {x y d : Nat} (hx : x < 2 ^ 64) (hy : y < d) :
    div64 (mul64 x y).1 (mul64 x y).2 d = some (x * y / d) := by
  have hhigh : x * y / 2 ^ 64 < d := by
    apply Nat.div_lt_of_lt_mul
    calc x * y ≤ 2 ^ 64 * y := Nat.mul_le_mul_right y hx.le
      _ < 2 ^ 64 * d := Nat.mul_lt_mul_of_pos_left hy (by decide)
  rw [div64, mul64, if_pos hhigh, Nat.div_add_mod']

/-! ## The rules of a fill -/

/-- `IsBid`: BUY YES or SELL NO. -/
def isBidV2 (side action : Nat) : Bool :=
  (side == Clob.sideYes && action == Api.actionBuy) ||
    (side == Api.sideNo && action == Api.actionSell)

/-- `SplitCollateral`. -/
def splitCollateralV2 (fillShares executionYesPrice : Nat) : Except String (Nat × Nat) := do
  revertIf (fillShares = 0 ∨ executionYesPrice = 0 ∨ executionYesPrice ≥ PrismV2.priceScale)
    "fill shares must be positive and price strictly between 0 and 1_000_000"
  let (hi, lo) := mul64 fillShares executionYesPrice
  -- no panic: the high word is below the scale because the price is (`div64_mul64`)
  let yesCollateral := (div64 hi lo PrismV2.priceScale).getD 0
  let noCollateral := sub64 fillShares yesCollateral
  revertIf (yesCollateral = 0 ∨ noCollateral = 0)
    "fill too small: both legs must pay a positive collateral amount"
  .ok (yesCollateral, noCollateral)

/-- `LegCollateral`. -/
def legCollateralV2 (side yesCollateral noCollateral : Nat) : Nat :=
  if side = Clob.sideYes then yesCollateral else noCollateral

def checkLimit (side action limitYesPrice executionYesPrice : Nat) : Except String Unit :=
  if isBidV2 side action then
    revertIf (executionYesPrice > limitYesPrice)
      ("execution price " ++ toString executionYesPrice ++
      " is above the bid limit " ++ toString limitYesPrice)
  else
    revertIf (executionYesPrice < limitYesPrice)
      ("execution price " ++ toString executionYesPrice ++
      " is below the ask limit " ++ toString limitYesPrice)

def matchIDTag (keccak256 : Bytes → Bytes) : Bytes := keccak256 (utf8 "PrismMatchV2")

/-- The words that `MatchID` hashes. -/
def matchIDWords (keccak256 : Bytes → Bytes) (contract : Bytes) (marketID bidTxID askTxID : Uint128)
    (bidSharesBefore askSharesBefore fillShares executionYesPrice : Nat) : Bytes :=
  matchIDTag keccak256 ++ leftPad contract 32 ++ leftPad (beBytes 16 marketID.val) 32 ++
    leftPad (beBytes 16 bidTxID.val) 32 ++ leftPad (beBytes 16 askTxID.val) 32 ++
    uintWord bidSharesBefore ++ uintWord askSharesBefore ++ uintWord fillShares ++
    uintWord executionYesPrice

/-- `MatchID`: the hash as the number that its bytes spell. -/
def matchIDV2 (keccak256 : Bytes → Bytes) (verifyingContract : Str)
    (marketID bidTxID askTxID : Uint128)
    (bidSharesBefore askSharesBefore fillShares executionYesPrice : Nat) :
      Except String Bytes32 := do
  revertIf (addressBytes verifyingContract = none) "invalid verifyingContract"
  .ok (Abi.beNat (keccak256 (matchIDWords keccak256 (addressField verifyingContract) marketID
    bidTxID askTxID bidSharesBefore askSharesBefore fillShares executionYesPrice)))

/-! ## The checks before a match is recorded -/

inductive SettlementOutcome
  | done
  | retry
  | rejected
  deriving DecidableEq, Repr

/-- The outcome of `settleMatchV2` and its error text. -/
abbrev Settlement := SettlementOutcome × Option String

def retry (err : String) : Settlement := (.retry, some err)
def rejected (err : String) : Settlement := (.rejected, some err)

/-- `PrismV2Network`: the deployment that the API trades against on one network. -/
structure PrismV2Network where
  net : Str
  contractID : Str
  proxyAddress : Str
  chainID : Nat

/-- The window in which a stream knows a message by its id. -/
def duplicateWindow : Nat := 24 * 60 * 60

/-- How a stream tells duplicates, from the ids of the messages that it stored and their times:
within the window it knows every id, and it never knows another one. -/
structure JetStream where
  knows : List (Str × Nat) → Nat → Str → Bool
  remembers : ∀ {messages now messageID storedAt}, (messageID, storedAt) ∈ messages →
    messageID ≠ [] → now < storedAt + duplicateWindow → knows messages now messageID = true
  stored : ∀ {messages now messageID}, knows messages now messageID = true →
    messageID ∈ messages.map Prod.fst

def sampleStream : JetStream where
  knows messages now messageID := messageID ≠ [] && messages.any fun m =>
    m.1 = messageID && decide (now < m.2 + duplicateWindow)
  remembers hmem hid hrecent := by
    simp only [Bool.and_eq_true, decide_eq_true_eq, List.any_eq_true]
    exact ⟨hid, _, hmem, rfl, hrecent⟩
  stored h := by
    simp only [Bool.and_eq_true, decide_eq_true_eq, List.any_eq_true] at h
    obtain ⟨_, m, hm, rfl, _⟩ := h
    exact List.mem_map_of_mem hm

/-- What is configured or imported: the UUID package, Keccak, the networks, the unit of the
collateral, the key and signature encodings of the Hedera SDK, and the streams of NATS. -/
structure Platform where
  uuid : Uuid
  keccak256 : Bytes → Bytes
  getPrismV2Network : Str → Except String PrismV2Network
  collateralUnitScale : Except String Nat
  signatureMap : OrderTerms → Except String Bytes
  jetStream : JetStream

section Checks

variable (p : Platform) (m : ClobMatch)

def Platform.idText (u : Uint128) : String := text (p.uuid.string u)

/-- What `settleMatchV2` checks of one of the two rows. -/
def checkRow (row : PredictionIntent) : Except Settlement Unit := do
  revertIf (row.protocolVersion ≠ 2)
    (rejected ("order " ++ p.idText row.txID ++ " is not a PrismV2 authorization"))
  revertIf (p.uuid.string row.marketID ≠ toAsciiLowercase m.marketId)
    (rejected ("order " ++ p.idText row.txID ++ " belongs to market " ++ p.idText row.marketID))

def checkRows (bidRow askRow : PredictionIntent) : Except Settlement Unit := do
  checkRow p m bidRow
  checkRow p m askRow
  revertIf (bidRow.net ≠ askRow.net)
    (rejected ("network mismatch: " ++ text bidRow.net ++ " vs " ++ text askRow.net))
  revertIf (eqIgnoreAsciiCase bidRow.evmaddress askRow.evmaddress = true)
    (rejected "self-match: bid and ask have the same signer")

def checkDomain (cfg : PrismV2Network) (a : AuthorizationV2) : Except Settlement Unit :=
  revertIf (a.chainId ≠ cfg.chainID ∨ trimPrefix ['0', 'x'] a.verifyingContract ≠ cfg.proxyAddress)
    (rejected ("order " ++ p.idText a.txId ++ " is bound to a different chain or contract"))

/-- A match that is about to be recorded, with the rows and authorizations of its orders. -/
structure Prepared where
  cfg : PrismV2Network
  bidRow : PredictionIntent
  askRow : PredictionIntent
  bidAuth : AuthorizationV2
  askAuth : AuthorizationV2
  matchID : Bytes32
  record : MatchV2

def matchIDText (matchID : Bytes32) : Str := ['0', 'x'] ++ hexText 64 matchID

/-- The checks between the reading of the market and the recording of the match. -/
def prepare (bid ask : CreateOrderRequestClob) (bidRow askRow : PredictionIntent)
    (cfg : PrismV2Network) (market : MarketRow) : Except Settlement Prepared := do
  revertIf (market.smartContractID ≠ cfg.contractID) (rejected ("market " ++ text m.marketId ++
    " is on contract " ++ text market.smartContractID ++ ", not the configured PrismV2 proxy " ++
    text cfg.contractID))
  let bidAuth ← (authorizationFromIntent p.uuid bidRow.toOrderTerms).mapError fun err =>
    rejected ("bid " ++ p.idText bidRow.txID ++ ": " ++ err)
  let askAuth ← (authorizationFromIntent p.uuid askRow.toOrderTerms).mapError fun err =>
    rejected ("ask " ++ p.idText askRow.txID ++ ": " ++ err)
  checkDomain p cfg bidAuth
  checkDomain p cfg askAuth
  revertIf (¬isBidV2 bidAuth.side bidAuth.action ∨ isBidV2 askAuth.side askAuth.action)
    (rejected "the bid leg must buy YES exposure and the ask leg must sell it")
  let (yesCollateral, noCollateral) ←
    (splitCollateralV2 m.fillShares m.executionYesPrice).mapError rejected
  revertIf (m.yesCollateral ≠ yesCollateral ∨ m.noCollateral ≠ noCollateral)
    (rejected ("CLOB collateral split (" ++ toString m.yesCollateral ++ "/" ++
      toString m.noCollateral ++ ") disagrees with the contract rule (" ++
      toString yesCollateral ++ "/" ++ toString noCollateral ++ ")"))
  let matchID ← (matchIDV2 p.keccak256 cfg.proxyAddress bidAuth.marketId bidAuth.txId askAuth.txId
    bid.sharesFilled ask.sharesFilled m.fillShares m.executionYesPrice).mapError rejected
  let unitScale ← p.collateralUnitScale.mapError retry
  .ok {
    cfg
    bidRow
    askRow
    bidAuth
    askAuth
    matchID
    record := {
      marketID := bidAuth.marketId
      bidTxID := bidAuth.txId
      askTxID := askAuth.txId
      matchID := matchIDText matchID
      fillShares := m.fillShares
      executionYesPrice := m.executionYesPrice
      yesCollateral
      noCollateral
      bidCollateral := legCollateralV2 bidAuth.side yesCollateral noCollateral
      askCollateral := legCollateralV2 askAuth.side yesCollateral noCollateral
      unitScale } }

end Checks

/-! ## The gates of a new submission -/

/-- How a gate refuses a submission: for good, or until the row can be read. -/
inductive Refusal
  | reject (err : String)
  | retry (err : String)

section Gates

variable (p : Platform) (record : MatchV2)

/-- Honour a cancellation that raced with the match. -/
def checkLive (row : PredictionIntent) : Except Refusal Unit :=
  revertIf (row.cancelledAt = true ∨ row.evictedAt = true)
    (.reject ("order " ++ p.idText row.txID ++ " was cancelled or evicted before settlement"))

/-- The collateral gate of a leg that buys. -/
def checkCap (a : AuthorizationV2) (row : PredictionIntent) : Except Refusal Unit := do
  let collateralFilled ← (parseUint row.collateralFilled).mapError fun err =>
    .retry ("order " ++ p.idText a.txId ++ ": invalid collateral_filled: " ++ err)
  revertIf (add64 collateralFilled
      (legCollateralV2 a.side record.yesCollateral record.noCollateral) > a.collateralCap)
    (.reject ("order " ++ p.idText a.txId ++ ": fill exceeds the collateral cap"))

/-- The gates of one leg. -/
def checkLeg (now : Nat) (a : AuthorizationV2) (row : PredictionIntent) : Except Refusal Unit := do
  (checkLimit a.side a.action a.limitYesPrice record.executionYesPrice).mapError fun err =>
    .reject ("order " ++ p.idText a.txId ++ ": " ++ err)
  revertIf (a.deadline < now)
    (.reject ("order " ++ p.idText a.txId ++ " expired at " ++ toString a.deadline))
  -- the persisted fill state counts only finalized fills, exactly like the contract
  let sharesFilled ← (parseUint row.sharesFilled).mapError fun err =>
    .retry ("order " ++ p.idText a.txId ++ ": invalid shares_filled: " ++ err)
  revertIf (add64 sharesFilled record.fillShares > a.qtyShares ∨
      add64 sharesFilled record.fillShares < sharesFilled)
    (.reject ("order " ++ p.idText a.txId ++ ": fill of " ++ toString record.fillShares ++
      " exceeds remaining quantity"))
  if a.action = Api.actionBuy then checkCap p record a row else .ok ()

end Gates

/-- The calldata of the submission; an encoding that fails is a rejection. -/
def Prepared.calldata (p : Platform) (q : Prepared) : Except Settlement Bytes := do
  let sigMapBid ← (p.signatureMap q.bidRow.toOrderTerms).mapError fun err =>
    rejected ("bid " ++ p.idText q.bidRow.txID ++ ": " ++ err)
  let sigMapAsk ← (p.signatureMap q.askRow.toOrderTerms).mapError fun err =>
    rejected ("ask " ++ p.idText q.askRow.txID ++ ": " ++ err)
  (encodeSettleCalldata p.keccak256 q.bidAuth sigMapBid q.askAuth sigMapAsk q.record.fillShares
    q.record.executionYesPrice q.matchID).mapError rejected

end PrismBackend.Api
