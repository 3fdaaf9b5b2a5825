import PrismBackend.Api.Creation

/-!
# API: the tasks beside a creation

The sweep of the outbox, the cancellation of an order by its owner and by the
kick-out, and the rebuild of the book after a restart of the CLOB.
-/

namespace PrismBackend.Api

open PrismBackend.Lib PrismBackend.Clob PrismBackend.PrismV2
open Program (request attempt andThen)

/-! ## The outbox -/

def sweepLimit : Nat := 100

/-- A failure to record what happened to a message is logged, no more. -/
def publishRecords (p : Platform) : List OutboxRow → OrderM Unit
  | [] => pure ()
  | record :: records => do
    match ← request (OrderRequest.publishWithID record.subject record.payload
        (p.uuid.string record.txID)) with
    | .error err =>
      let _ ← request (OrderRequest.recordOrderOutboxFailure record.id err)
      publishRecords p records
    | .ok _ =>
      let _ ← request (OrderRequest.markOrderOutboxDelivered record.id)
      publishRecords p records

/-- One round of `runOrderOutbox`. -/
def sweepOutbox (p : Platform) : OrderM Unit := do
  match ← request (OrderRequest.pendingOrderOutbox sweepLimit) with
  | .error _ => pure ()
  | .ok records => publishRecords p records

/-! ## Cancellation -/

structure CancelOrderRequest where
  net : Str
  marketId : Str
  txId : Str
  accountId : Str
  sig : Str
  publicKey : Str
  keyType : Nat

/-- `CancelPredictionIntentNoSigCheck`: the mark in the database, then the removal from the book. -/
def cancelPredictionIntentNoSigCheck (marketId txId : Str) : OrderM (Except String Str) :=
  andThen (ask (request (OrderRequest.cancelPredictionIntent txId))
    "failed to cancel prediction intent: ") fun _ =>
  andThen (ask (request (OrderRequest.cancelOrder marketId txId))
    ("failed to cancel order (marketId=" ++ text marketId ++ ", txId=" ++ text txId ++
      ") on the CLOB: ")) fun _ =>
  pure (.ok ("Cancelled order intent with txId: ".toList ++ txId))

section Cancel

variable (p : Platform) (sdk : Sdk) (req : CancelOrderRequest)

/-- The checks that need nothing but the request: the account. -/
def checkCancelIds : Except String Str := do
  let _ ← (p.uuid.parse req.marketId).mapError ("invalid marketId uuid: " ++ ·)
  let _ ← (p.uuid.parse req.txId).mapError ("invalid txId uuid: " ++ ·)
  (sdk.accountIDFromString req.accountId).mapError ("invalid accountId format: " ++ ·)

def checkCancelKey (publicKeyLookedUp : Str) (keyTypeLookedUp : Nat) : Except String Str := do
  revertIf (¬isValidKeyType req.keyType) ("keyType mismatch: expected " ++
    toString keyTypeLookedUp ++ ", got " ++ toString req.keyType)
  let publicKey ← (sdk.publicKeyFromString req.publicKey).mapError
    ("failed to parse public key from string: " ++ ·)
  revertIf (publicKeyLookedUp ≠ publicKey ∨ publicKey = []) ("public key mismatch: expected " ++
    text publicKeyLookedUp ++ ", got " ++ text publicKey)
  .ok publicKey

/-- The order is the account's, in the market, and not cancelled yet. -/
def checkCancelRow (publicKey : Str) (row : PredictionIntent) : Except String Unit := do
  revertIf (row.accountID ≠ req.accountId) ("accountId " ++ text req.accountId ++
    " does not own prediction intent with txId " ++ text req.txId ++ " (owned by accountId " ++
    text row.accountID ++ ")")
  revertIf (p.uuid.string row.marketID ≠ req.marketId) ("marketId " ++ text req.marketId ++
    " does not match prediction intent with txId " ++ text req.txId ++ " (marketId is " ++
    p.idText row.marketID ++ ")")
  revertIf (row.cancelledAt = true) ("prediction intent with txId " ++ text req.txId ++
    " is already cancelled")
  let isValidSig ← (sdk.verifySig publicKey req.txId req.sig).mapError
    ("failed to verify signature: " ++ ·)
  revertIf (isValidSig = false) ("invalid signature for account " ++ text req.accountId)

def cancelPredictionIntent : OrderM (Except String Str) :=
  attempt (checkCancelIds p sdk req) fun accountId =>
  andThen (ask (request (OrderRequest.getPublicKey accountId req.net))
    "failed to get public key: ") fun found =>
  attempt (checkCancelKey sdk req found.1 found.2) fun publicKey =>
  andThen (ask (request (OrderRequest.getPredictionIntentByTxId req.txId))
    ("failed to get prediction intent by txId " ++ text req.txId ++ ": ")) fun row =>
  attempt (checkCancelRow p sdk req publicKey row) fun _ =>
  cancelPredictionIntentNoSigCheck req.marketId req.txId

end Cancel

section Tasks

variable (p : Platform) (sdk : Sdk)

/-- `evict` of the kick-out. -/
def evict (marketID txID : Uint128) : OrderM Unit := do
  match ← cancelPredictionIntentNoSigCheck (p.uuid.string marketID) (p.uuid.string txID) with
  | .error _ => pure ()
  | .ok _ =>
    let _ ← request (OrderRequest.markPredictionIntentAsEvicted txID)
    pure ()

/-! ## The rebuild of the book -/

/-- Adds a fill that is still being settled, so that its shares are not offered again. -/
def withUnsettledFill (order : CreateOrderRequestClob) (m : Match) : CreateOrderRequestClob :=
  if m.protocolVersion ≠ 2 ∨ m.status = .finalized then order
  else
    match parseNumeric m.fillShares with
    | .error _ => order
    | .ok fill =>
      let legCollateral := if order.side = Api.sideNo then m.noCollateral else m.yesCollateral
      { order with
        sharesFilled := add64 order.sharesFilled fill
        -- the error of this one is not looked at
        collateralFilled := add64 order.collateralFilled (numericValue legCollateral) }

def restoreOrders : List PredictionIntent → OrderM (Except String Unit)
  | [] => pure (.ok ())
  | row :: rows =>
    match clobOrderFromIntent p.uuid row with
    | .error _ => restoreOrders rows
    | .ok order =>
      andThen (ask (request (OrderRequest.getAllMatchesForMarketIdTxId row.marketID row.txID))
        ("failed to load matches for txId " ++ p.idText row.txID ++ ": ")) fun matches_ =>
      let order := matches_.foldl withUnsettledFill order
      if order.sharesFilled ≥ order.qtyShares then restoreOrders rows
      else
        andThen (ask (request
          (OrderRequest.publishWithID subjectClobOrders (marshalOrder order) []))
          "failed to publish to NATS subject clob.orders: ") fun _ =>
        andThen (ask (request (OrderRequest.markPredictionIntentAsRegenerated
          (p.uuid.string row.txID))) ("failed to MarkPredictionIntentAsRegenerated(txId=" ++
            p.idText row.txID ++ "): ")) fun _ =>
        restoreOrders rows

def restoreMarkets : List MarketRow → OrderM (Except String Unit)
  | [] => pure (.ok ())
  | market :: markets =>
    andThen (ask (request (OrderRequest.createMarketOnClob (p.uuid.string market.marketID)))
      ("failed to create new market (marketId=" ++ p.idText market.marketID ++ ") on CLOB: "))
        fun _ =>
    andThen (ask (request (OrderRequest.getAllOpenPredictionIntentsByMarketId
      (p.uuid.string market.marketID)))
        ("failed to GetAllOpenPredictionIntentsByMarketId(marketId=" ++
        p.idText market.marketID ++ "): ")) fun rows =>
    andThen (restoreOrders p rows) fun _ => restoreMarkets markets

def triggerRecreateClob : OrderM (Except String Unit) :=
  andThen (ask (request OrderRequest.getAllUnresolvedMarkets)
    "failed to get unresolved markets: ") (restoreMarkets p)

/-! ## What the API runs -/

inductive TaskKind
  | create (req : PrismPredictionIntentRequest)
  | sweep
  | cancel (req : CancelOrderRequest)
  | evict (marketID txID : Uint128)
  | recreate

/-- A task as a program; what it returns to its caller is left out. -/
def TaskKind.program : TaskKind → OrderM Unit
  | .create req => createPredictionIntent p sdk req >>= fun _ => pure ()
  | .sweep => sweepOutbox p
  | .cancel req => cancelPredictionIntent p sdk req >>= fun _ => pure ()
  | .evict marketID txID => Api.evict p marketID txID
  | .recreate => triggerRecreateClob p >>= fun _ => pure ()

end Tasks

end PrismBackend.Api
