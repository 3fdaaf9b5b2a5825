import PrismBackend.Lib.Interact
import PrismBackend.Api.Gates
import PrismBackend.Api.Payload

/-!
# API: the creation of an order

`CreatePredictionIntent` as a program that makes requests, and the transaction
that commits an order together with the message that announces it.
-/

namespace PrismBackend.Api

open PrismBackend.Lib PrismBackend.Clob PrismBackend.PrismV2

/-! ## The outbox -/

structure OutboxRow where
  id : Nat
  txID : Uint128
  subject : Str
  payload : Fields
  attempts : Nat
  nextAttemptAt : Nat
  deliveredAt : Bool
  lastError : Option String

abbrev Outbox := Table OutboxRow Nat fun row => row.id

def PredictionIntent.new (terms : OrderTerms) : PredictionIntent :=
  { terms with
    sharesFilled := 0
    collateralFilled := 0
    qtyRem := terms.qtyShares.getD 0
    cancelledAt := false
    fullyMatchedAt := false
    evictedAt := false }

/-- `CreateOrderIntentRequestWithOutbox`: one transaction. The sequence gives the outbox row its
id; a row for the same order and subject would be left as it is. -/
def Db.createOrderIntentRequestWithOutbox (db : Db) (outbox : Outbox) (uuid : Uuid)
    (req : PrismPredictionIntentRequest) (subject : Str) (payload : Fields) (id now : Nat) :
    Except String (Db × Outbox) := do
  let terms ← createOrderIntentRequest uuid req
  revertIf ((db.intents.find terms.txID).isSome = true)
    "CreatePredictionIntent failed: duplicate key value violates unique constraint"
  let db := { db with intents := db.intents.insert (.new terms) }
  if outbox.rows.any fun row => row.txID = terms.txID ∧ row.subject = subject then .ok (db, outbox)
  else
    .ok (db, outbox.insert {
      id
      txID := terms.txID
      subject
      payload := payload.stored
      attempts := 0
      nextAttemptAt := now
      deliveredAt := false
      lastError := none })

/-! ## Reading the tables -/

def isOpenPredictionIntent (row : PredictionIntent) : Bool :=
  decide (row.qtyRem > 0) && !row.cancelledAt && !row.fullyMatchedAt && !row.evictedAt

def Db.isLive (db : Db) (marketID : Uint128) : Bool :=
  (db.markets.find marketID).any (!·.deletedAt)

/-- `GetAllOpenPredictionIntentsByMarketIdAndAccountId`: open orders, joined with their market. -/
def Db.openPredictionIntentsOf (db : Db) (marketID : Uint128) (accountID : Str) :
    List PredictionIntent :=
  if db.isLive marketID then
    db.intents.rows.filter fun row =>
      row.marketID == marketID && row.accountID == accountID && isOpenPredictionIntent row
  else []

theorem Db.mem_openPredictionIntentsOf {db : Db} {marketID : Uint128} {accountID : Str}
    {row : PredictionIntent} :
    row ∈ db.openPredictionIntentsOf marketID accountID ↔
      db.isLive marketID = true ∧ row ∈ db.intents.rows ∧ row.marketID = marketID ∧
        row.accountID = accountID ∧ isOpenPredictionIntent row = true := by
  unfold Db.openPredictionIntentsOf
  split
  · next hlive => simp [hlive, and_assoc]
  · next hlive => simp [hlive]

theorem Db.nodup_openPredictionIntentsOf (db : Db) (marketID : Uint128) (accountID : Str) :
    ((db.openPredictionIntentsOf marketID accountID).map fun row => row.txID).Nodup := by
  unfold Db.openPredictionIntentsOf
  split
  · exact db.intents.nodup.sublist (List.filter_sublist.map _)
  · exact List.nodup_nil

/-- `GetAllOpenPredictionIntentsByMarketId`. -/
def Db.openPredictionIntents (db : Db) (marketID : Uint128) : List PredictionIntent :=
  if db.isLive marketID then
    db.intents.rows.filter fun row => row.marketID == marketID && isOpenPredictionIntent row
  else []

def MarketRow.tradeable (row : MarketRow) (now : Nat) : Bool :=
  !row.deletedAt && !row.resolvedAt && decide (row.closesAt > now) && !row.isSuspended &&
    !row.isPaused

def Db.isMarketTradeable (db : Db) (uuid : Uuid) (marketId : Str) (now : Nat) :
    Except String Bool := do
  let marketUUID ← (uuid.parse marketId).mapError ("invalid marketId uuid: " ++ ·)
  .ok ((db.markets.find marketUUID).any (·.tradeable now))

/-! ## Requests -/

inductive OrderRequest
  | now
  | isDuplicateTxId (txUUID : Uint128)
  | getPublicKey (accountId net : Str)
  | evmAddressToHederaAccountId (net evmAddress : Str)
  | isMarketTradeable (marketId : Str)
  | getMarketById (marketId : Str)
  | getMarketV2 (net contractID : Str) (marketID : Uint128)
  | getMarketDepthQty (marketId : Str)
  | getSpenderAllowance (net accountId contractID usdcAddress : Str)
  | getUsdcBalanceUsd (net accountId : Str)
  | getUserPositionBalancesV2 (net contractID marketId evmAddress : Str)
  | getAllOpenPredictionIntentsByMarketIdAndAccountId (marketID : Uint128) (accountID : Str)
  | createOrderIntentRequestWithOutbox (req : PrismPredictionIntentRequest) (subject : Str)
      (payload : Fields)
  | pendingOrderOutbox (limit : Nat)
  | publishWithID (subject : Str) (payload : Fields) (messageID : Str)
  | recordOrderOutboxFailure (id : Nat) (cause : String)
  | markOrderOutboxDelivered (id : Nat)
  | getPredictionIntentByTxId (txId : Str)
  | cancelPredictionIntent (txId : Str)
  | cancelOrder (marketId txId : Str)
  | markPredictionIntentAsEvicted (txID : Uint128)
  | getAllUnresolvedMarkets
  | createMarketOnClob (marketId : Str)
  | getAllOpenPredictionIntentsByMarketId (marketId : Str)
  | getAllMatchesForMarketIdTxId (marketID txID : Uint128)
  | markPredictionIntentAsRegenerated (txId : Str)

abbrev OrderRequest.Answer : OrderRequest → Type
  | .now => Nat
  | .isDuplicateTxId _ => Except String Bool
  /- the key and its type -/
  | .getPublicKey _ _ => Except String (Str × Nat)
  | .evmAddressToHederaAccountId _ _ => Except String Str
  | .isMarketTradeable _ => Except String Bool
  | .getMarketById _ => Except String MarketRow
  /- the state and the close time -/
  | .getMarketV2 _ _ _ => Except String (MarketState × Nat)
  /- the shares that are bid and asked for -/
  | .getMarketDepthQty _ => Except String (Nat × Nat)
  | .getSpenderAllowance _ _ _ _ => Except String Nat
  | .getUsdcBalanceUsd _ _ => Except String Nat
  /- YES and NO shares -/
  | .getUserPositionBalancesV2 _ _ _ _ => Except String (Nat × Nat)
  | .getAllOpenPredictionIntentsByMarketIdAndAccountId _ _ => Except String (List PredictionIntent)
  | .createOrderIntentRequestWithOutbox _ _ _ => Except String Unit
  | .pendingOrderOutbox _ => Except String (List OutboxRow)
  | .publishWithID _ _ _ => Except String Unit
  | .recordOrderOutboxFailure _ _ => Except String Unit
  | .markOrderOutboxDelivered _ => Except String Unit
  | .getPredictionIntentByTxId _ => Except String PredictionIntent
  | .cancelPredictionIntent _ => Except String Unit
  | .cancelOrder _ _ => Except String Unit
  | .markPredictionIntentAsEvicted _ => Except String Unit
  | .getAllUnresolvedMarkets => Except String (List MarketRow)
  | .createMarketOnClob _ => Except String Unit
  | .getAllOpenPredictionIntentsByMarketId _ => Except String (List PredictionIntent)
  | .getAllMatchesForMarketIdTxId _ _ => Except String (List Match)
  | .markPredictionIntentAsRegenerated _ => Except String Unit

abbrev OrderM := Program OrderRequest OrderRequest.Answer

/-- A request that may fail, with the text that its error is given. -/
def ask {α : Type} (program : OrderM (Except String α)) (what : String) :
    OrderM (Except String α) :=
  program >>= fun result => pure (result.mapError (what ++ ·))

/-! ## Checks without requests -/

def minOrderLifetime : Nat := 60

def isValidNetwork (s : Str) : Bool :=
  [ "testnet", "mainnet", "previewnet" ].any fun net => net.toList == s

def keyTypeEd25519 : Nat := 1
def keyTypeEcdsa : Nat := 2

def isValidKeyType (n : Nat) : Bool := n == keyTypeEcdsa || n == keyTypeEd25519

def marketStateText : MarketState → String
  | .uninitialized => "UNINITIALIZED"
  | .«open» => "OPEN"
  | .halted => "HALTED"
  | .closed => "CLOSED"
  | .resolvedYes => "RESOLVED_YES"
  | .resolvedNo => "RESOLVED_NO"
  | .void => "VOID"

/-- What the Hedera SDK and the environment provide: accounts and keys in the form they are
printed in, the USDC token of a network, and the checks of a signature, of an authorization or of
the bytes of a text. -/
structure Sdk where
  accountIDFromString : Str → Except String Str
  publicKeyFromString : Str → Except String Str
  usdcAddress : Str → Except String Str
  verifySignature : AuthorizationV2 → Str → Str → Except String Bool
  verifySig : Str → Str → Str → Except String Bool

/-- What is known of a request after the checks that need nothing but the request. -/
structure Draft where
  net : Str
  cfg : PrismV2Network
  accountId : Str
  auth : AuthorizationV2

section Program

variable (p : Platform) (sdk : Sdk) (req : PrismPredictionIntentRequest)

def draftOrder : Except String Draft := do
  let net := toAsciiLowercase req.net
  revertIf (¬isValidNetwork net) ("invalid network: " ++ text req.net)
  let cfg ← (p.getPrismV2Network net).mapError fun err =>
    "PrismV2 is not configured for " ++ text net ++ ": " ++ err
  let accountId ← sdk.accountIDFromString req.accountId
  revertIf (req.chainId ≠ cfg.chainID) ("chainId " ++ toString req.chainId ++ " does not match " ++
    text net ++ " (" ++ toString cfg.chainID ++ ")")
  revertIf (¬eqIgnoreAsciiCase req.verifyingContract cfg.proxyAddress) ("verifyingContract " ++
    text req.verifyingContract ++ " is not the PrismV2 proxy " ++ text cfg.proxyAddress)
  let auth ← (requestAuthorization p.uuid req).mapError ("invalid authorization: " ++ ·)
  .ok ⟨net, cfg, accountId, auth⟩

variable (c : Draft)

def Draft.isBid : Bool := isBidV2 c.auth.side c.auth.action

/-- The deadline, the limit and the tx id. -/
def checkTerms (now : Nat) : Except String Uint128 := do
  revertIf (req.deadline < now + minOrderLifetime) ("deadline " ++ toString req.deadline ++
    " is in the past or less than 1m0s away")
  revertIf (c.isBid ∧ req.limitYesPrice = 0 ∨ ¬c.isBid ∧ req.limitYesPrice = PrismV2.priceScale)
    ("limitYesPrice " ++ toString req.limitYesPrice ++
      " can never be filled for this side and action")
  (p.uuid.parse req.txId).mapError ("invalid txId uuid: " ++ ·)

def refuseDuplicate (exists_ : Bool) : Except String Unit :=
  revertIf (exists_ = true) ("duplicate txId: " ++ text req.txId)

/-- The public key of the request, which is the account's. -/
def checkKey (publicKeyLookedUp : Str) (keyTypeLookedUp : Nat) : Except String Str := do
  revertIf (¬isValidKeyType req.keyType ∨
    req.keyType ≠ keyTypeLookedUp) ("keyType mismatch: expected " ++
    toString keyTypeLookedUp ++ ", got " ++ toString req.keyType)
  let publicKey ← (sdk.publicKeyFromString req.publicKey).mapError
    ("failed to parse public key from string: " ++ ·)
  revertIf (publicKeyLookedUp ≠ publicKey ∨ publicKey = []) ("public key mismatch: expected " ++
    text publicKeyLookedUp ++ ", got " ++ text publicKey)
  .ok publicKey

def checkSignature (publicKey signerAccount : Str) : Except String Unit := do
  revertIf (signerAccount ≠ c.accountId)
    ("signer address " ++ text req.evmAddress ++ " belongs to " ++
    text signerAccount ++ ", not " ++ text c.accountId)
  let isValidSig ← (sdk.verifySignature c.auth publicKey req.sig).mapError
    ("failed to verify signature: " ++ ·)
  revertIf (isValidSig = false) ("invalid signature for account " ++ text req.accountId)

def checkMarketRow (market : MarketRow) : Except String Unit :=
  revertIf (market.smartContractID ≠ c.cfg.contractID) ("market " ++ text req.marketId ++
    " is on contract " ++ text market.smartContractID ++ ", not the PrismV2 proxy " ++
    text c.cfg.contractID)

def checkOnChain (now : Nat) (state : MarketState) (closeTime : Nat) : Except String Unit :=
  revertIf (state ≠ .«open» ∨ closeTime ≤ now) ("market " ++ text req.marketId ++
    " is not open for trading on PrismV2 (state " ++ marketStateText state ++ ", closes " ++
    toString closeTime ++ ")")

def checkFunds (what : String) (amount : Nat) : Except String Unit :=
  revertIf (amount < req.collateralCap) (what ++ " " ++ toString amount ++
    " is below the order's collateral cap " ++ toString req.collateralCap)

/-- What an open SELL on the same side holds back of the shares. -/
def reservedBy (side : Nat) (row : PredictionIntent) : Nat :=
  match clobOrderFromIntent p.uuid row with
  | .error _ => 0
  | .ok order =>
    if order.action ≠ actionSell ∨ order.side ≠ side then 0
    else sub64 order.qtyShares order.sharesFilled

/-- The sum over the open orders, with the arithmetic of 64 bits. -/
def reservedShares (side : Nat) (openOrders : List PredictionIntent) : Nat :=
  openOrders.foldl (fun reserved row => add64 reserved (reservedBy p side row)) 0

def heldShares (side : Nat) (balances : Nat × Nat) : Nat :=
  if side = Api.sideNo then balances.2 else balances.1

def checkShares (balances : Nat × Nat) (openOrders : List PredictionIntent) : Except String Unit :=
  let held := heldShares c.auth.side balances
  let reserved := reservedShares p c.auth.side openOrders
  revertIf (add64 reserved req.qtyShares > held) ("insufficient shares: holding " ++
    toString held ++ ", " ++ toString reserved ++ " reserved by open sells, order needs " ++
    toString req.qtyShares)

/-! ## The program -/

open Program (request attempt andThen)

/-- The key, the account and the signature. -/
def checkSigner : OrderM (Except String Unit) :=
  andThen (ask (request (OrderRequest.getPublicKey c.accountId c.net))
    "failed to get public key: ") fun found =>
  attempt (checkKey sdk req found.1 found.2) fun publicKey =>
  andThen (ask (request (OrderRequest.evmAddressToHederaAccountId c.net req.evmAddress))
    ("failed to resolve signer address " ++ text req.evmAddress ++ ": ")) fun signerAccount =>
  pure (checkSignature sdk req c publicKey signerAccount)

/-- Tradeable in the database, and open on the proxy. -/
def checkMarket (now : Nat) : OrderM (Except String Unit) :=
  andThen (ask (request (OrderRequest.isMarketTradeable req.marketId))
    ("failed to determine whether market " ++
    text req.marketId ++ " is tradeable: ")) fun tradeable =>
  attempt (revertIf (tradeable = false) ("market " ++ text req.marketId ++
    " is not tradeable (it may be resolved, closed, paused, suspended, or deleted)")) fun _ =>
  andThen (ask (request (OrderRequest.getMarketById req.marketId))
    ("failed to get tradeable market " ++ text req.marketId ++ ": ")) fun market =>
  attempt (checkMarketRow req c market) fun _ =>
  andThen (ask (request (OrderRequest.getMarketV2 c.net c.cfg.contractID c.auth.marketId))
    ("failed to read market " ++ text req.marketId ++ " from PrismV2: ")) fun onChain =>
  pure (checkOnChain req now onChain.1 onChain.2)

/-- A limit at the extreme of the range is a market order: the book must be able to fill it. -/
def checkLiquidity : OrderM (Except String Unit) :=
  if c.isBid ∧ req.limitYesPrice = PrismV2.priceScale ∨ ¬c.isBid ∧ req.limitYesPrice = 0 then
    andThen (ask (request (OrderRequest.getMarketDepthQty req.marketId))
      ("failed to get available liquidity for market " ++ text req.marketId ++ ": ")) fun depth =>
    let available := if c.isBid then depth.2 else depth.1
    pure (revertIf (req.qtyShares > available) ("order quantity " ++ toString req.qtyShares ++
      " exceeds available liquidity " ++ toString available ++ " for market " ++ text req.marketId))
  else pure (.ok ())

/-- A BUY can spend up to its cap. -/
def checkCollateral : OrderM (Except String Unit) :=
  attempt ((sdk.usdcAddress c.net).mapError
    ("failed to validate " ++ text (c.net.map Char.toUpper) ++
    "_USDC_ADDRESS: " ++ ·)) fun usdcAddress =>
  andThen (ask (request (OrderRequest.getSpenderAllowance c.net c.accountId
    c.cfg.contractID usdcAddress))
    "failed to get spender allowance: ") fun allowance =>
  attempt (checkFunds req ("allowance to " ++ text c.cfg.contractID) allowance) fun _ =>
  andThen (ask (request (OrderRequest.getUsdcBalanceUsd c.net c.accountId))
    "failed to get user's USDC balance: ") fun balance =>
  pure (checkFunds req "USDC balance" balance)

/-- A SELL needs the shares on chain, net of the user's other open SELLs on that side. -/
def checkPosition : OrderM (Except String Unit) :=
  andThen (ask (request (OrderRequest.getUserPositionBalancesV2 c.net c.cfg.contractID req.marketId
    req.evmAddress)) "failed to get position balances: ") fun balances =>
  andThen (ask (request (OrderRequest.getAllOpenPredictionIntentsByMarketIdAndAccountId
    c.auth.marketId
    req.accountId)) "failed to load existing open orders: ") fun openOrders =>
  pure (checkShares p req c balances openOrders)

def subjectClobOrders : Str := "clob.orders".toList

def commitOrder : OrderM (Except String Str) :=
  attempt p.collateralUnitScale fun _ =>
  andThen (ask (request (OrderRequest.createOrderIntentRequestWithOutbox req subjectClobOrders
    (marshalOrder (clobRequest req)))) "database error: failed to save order request: ") fun _ =>
  pure (.ok ("txId accepted for durable CLOB delivery ".toList ++ req.txId))

def createPredictionIntent : OrderM (Except String Str) :=
  attempt (draftOrder p sdk req) fun c => do
    let now ← request OrderRequest.now
    attempt (checkTerms p req c now) fun txUUID =>
      andThen (ask (request
        (OrderRequest.isDuplicateTxId txUUID)) "failed to check existing txId: ") fun seen =>
      attempt (refuseDuplicate req seen) fun _ =>
      andThen (checkSigner sdk req c) fun _ =>
      andThen (checkMarket req c now) fun _ =>
      andThen (checkLiquidity req c) fun _ =>
      andThen (if c.auth.action = actionBuy then checkCollateral sdk req c
        else checkPosition p req c) fun _ =>
      commitOrder p req

end Program

/-! ## What was checked before an order is committed -/

section Spec

variable {p : Platform} {sdk : Sdk} {req : PrismPredictionIntentRequest} {c : Draft}

def OrderRequest.isCreate : OrderRequest → Prop
  | .createOrderIntentRequestWithOutbox _ _ _ => True
  | _ => False

def OrderRequest.Checks : OrderRequest → Prop
  | .now => True
  | .isDuplicateTxId _ => True
  | .getPublicKey _ _ => True
  | .evmAddressToHederaAccountId _ _ => True
  | .isMarketTradeable _ => True
  | .getMarketById _ => True
  | .getMarketV2 _ _ _ => True
  | .getMarketDepthQty _ => True
  | .getSpenderAllowance _ _ _ _ => True
  | .getUsdcBalanceUsd _ _ => True
  | .getUserPositionBalancesV2 _ _ _ _ => True
  | .getAllOpenPredictionIntentsByMarketIdAndAccountId _ _ => True
  | _ => False

theorem OrderRequest.isCreate.not_checks {r : OrderRequest} (h : r.isCreate) : ¬r.Checks := by
  cases r <;> first | exact id | exact absurd h not_false

theorem ask_makes {α : Type} {P : OrderRequest → Prop} {program : OrderM (Except String α)}
    (h : program.Makes P) (what : String) : (ask program what).Makes P :=
  Program.makes_bind h fun _ => trivial

theorem path_ask {α : Type} {program : OrderM (Except String α)} {what : String}
    {answers : List ((r : OrderRequest) × r.Answer)} {value : α}
    (h : (ask program what).Path answers (.ret (.ok value))) :
    program.Path answers (.ret (.ok value)) := by
  obtain ⟨result, earlier, later, rfl, hprogram, hlater⟩ := Program.path_bind_ret h
  obtain ⟨rfl, hresult⟩ := Program.path_ret_iff.mp hlater
  have hvalue : result = .ok value := by
    rw [Program.ret.injEq] at hresult
    exact mapError_ok_iff.mp hresult.symm
  rw [List.append_nil, ← hvalue]
  exact hprogram

theorem checkSigner_makes : (checkSigner sdk req c).Makes OrderRequest.Checks :=
  Program.makes_andThen (ask_makes (Program.makes_request (by exact trivial)) _) fun _ =>
    Program.makes_attempt fun _ _ =>
      Program.makes_andThen (ask_makes (Program.makes_request (by exact trivial)) _)
        fun _ => trivial

theorem checkMarket_makes (now : Nat) : (checkMarket req c now).Makes OrderRequest.Checks :=
  Program.makes_andThen (ask_makes (Program.makes_request (by exact trivial)) _) fun _ =>
    Program.makes_attempt fun _ _ =>
      Program.makes_andThen (ask_makes (Program.makes_request (by exact trivial)) _) fun _ =>
        Program.makes_attempt fun _ _ =>
          Program.makes_andThen (ask_makes (Program.makes_request (by exact trivial)) _)
            fun _ => trivial

theorem checkLiquidity_makes : (checkLiquidity req c).Makes OrderRequest.Checks := by
  unfold checkLiquidity
  split
  · exact Program.makes_andThen (ask_makes (Program.makes_request (by exact trivial)) _)
      fun _ => trivial
  · trivial

theorem checkCollateral_makes : (checkCollateral sdk req c).Makes OrderRequest.Checks :=
  Program.makes_attempt fun _ _ =>
    Program.makes_andThen (ask_makes (Program.makes_request (by exact trivial)) _) fun _ =>
      Program.makes_attempt fun _ _ =>
        Program.makes_andThen (ask_makes (Program.makes_request (by exact trivial)) _)
          fun _ => trivial

theorem checkPosition_makes : (checkPosition p req c).Makes OrderRequest.Checks :=
  Program.makes_andThen (ask_makes (Program.makes_request (by exact trivial)) _) fun _ =>
    Program.makes_andThen (ask_makes (Program.makes_request (by exact trivial)) _) fun _ => trivial

theorem checkPosition_path {answers : List ((r : OrderRequest) × r.Answer)}
    (h : (checkPosition p req c).Path answers (.ret (.ok ()))) :
    ∃ balances openOrders, answers =
        [⟨.getUserPositionBalancesV2 c.net c.cfg.contractID req.marketId req.evmAddress,
            .ok balances⟩,
          ⟨.getAllOpenPredictionIntentsByMarketIdAndAccountId c.auth.marketId req.accountId,
            .ok openOrders⟩] ∧
      checkShares p req c balances openOrders = .ok () := by
  obtain ⟨balances, earlier, later, rfl, hbalances, hrest⟩ := Program.path_andThen_ret h
  obtain ⟨openOrders, earlier', later', rfl, horders, hcheck⟩ := Program.path_andThen_ret hrest
  obtain ⟨rfl, hresult⟩ := Program.path_ret_iff.mp hcheck
  refine ⟨balances, openOrders, ?_, ?_⟩
  · rw [Program.path_request (path_ask hbalances), Program.path_request (path_ask horders)]
    rfl
  · rw [Program.ret.injEq] at hresult
    exact hresult.symm

/-- The SELL check, with the answers that it was made on. -/
def SellChecked (p : Platform) (req : PrismPredictionIntentRequest) (c : Draft)
    (answers : List ((r : OrderRequest) × r.Answer)) : Prop :=
  ∃ balances openOrders,
    ⟨.getUserPositionBalancesV2 c.net c.cfg.contractID req.marketId req.evmAddress,
      .ok balances⟩ ∈ answers ∧
    ⟨.getAllOpenPredictionIntentsByMarketIdAndAccountId c.auth.marketId req.accountId,
      .ok openOrders⟩ ∈ answers ∧
    checkShares p req c balances openOrders = .ok ()

theorem commitOrder_path {answers : List ((r : OrderRequest) × r.Answer)} {r : OrderRequest}
    {rest : r.Answer → OrderM (Except String Str)}
    (h : (commitOrder p req).Path answers (.call r rest)) :
    r = .createOrderIntentRequestWithOutbox req subjectClobOrders
      (marshalOrder (clobRequest req)) := by
  have hmakes : (commitOrder p req).Makes fun r =>
      r = .createOrderIntentRequestWithOutbox req subjectClobOrders
        (marshalOrder (clobRequest req)) :=
    Program.makes_attempt fun _ _ =>
      Program.makes_andThen (ask_makes (Program.makes_request rfl) _) fun _ => trivial
  exact (h.makes hmakes).1

theorem checkAssets_makes : (if c.auth.action = actionBuy then checkCollateral sdk req c
    else checkPosition p req c).Makes OrderRequest.Checks := by
  split
  · exact checkCollateral_makes
  · exact checkPosition_makes

theorem createPredictionIntent_makes (p : Platform) (sdk : Sdk)
    (req : PrismPredictionIntentRequest) :
    (createPredictionIntent p sdk req).Makes fun r => r.Checks ∨ r.isCreate := by
  have hchecks {α : Type} {program : OrderM α} (h : program.Makes OrderRequest.Checks) :
      program.Makes fun r => r.Checks ∨ r.isCreate := h.imp fun _ => Or.inl
  refine Program.makes_attempt fun c _ => ⟨Or.inl trivial, fun now => ?_⟩
  refine Program.makes_attempt fun txUUID _ => ?_
  refine Program.makes_andThen (hchecks (ask_makes (Program.makes_request trivial) _)) fun _ => ?_
  refine Program.makes_attempt fun _ _ => ?_
  refine Program.makes_andThen (hchecks checkSigner_makes) fun _ => ?_
  refine Program.makes_andThen (hchecks (checkMarket_makes now)) fun _ => ?_
  refine Program.makes_andThen (hchecks checkLiquidity_makes) fun _ => ?_
  refine Program.makes_andThen (hchecks checkAssets_makes) fun _ => ?_
  refine Program.makes_attempt fun _ _ => ?_
  exact Program.makes_andThen (ask_makes (Program.makes_request (by exact Or.inr trivial)) _)
    fun _ => trivial

/-- Where a creation commits: the request passed its checks, and it is what is committed. -/
theorem createPredictionIntent_path {answers : List ((r : OrderRequest) × r.Answer)}
    {r : OrderRequest} {rest : r.Answer → OrderM (Except String Str)}
    (h : (createPredictionIntent p sdk req).Path answers (.call r rest)) (hr : r.isCreate) :
    r = .createOrderIntentRequestWithOutbox req subjectClobOrders
        (marshalOrder (clobRequest req)) ∧
      ∃ c now txUUID, draftOrder p sdk req = .ok c ∧ checkTerms p req c now = .ok txUUID ∧
        (c.auth.action ≠ actionBuy → SellChecked p req c answers) := by
  have hnot := hr.not_checks
  obtain ⟨c, hdraft, hstart⟩ := Program.path_attempt h
  rw [Program.request_bind] at hstart
  rcases Program.path_call_iff.mp hstart with ⟨_, htarget⟩ | ⟨now, afterNow, rfl, hnow⟩
  · cases htarget
    exact absurd hr not_false
  obtain ⟨txUUID, hterms, hseen⟩ := Program.path_attempt hnow
  obtain ⟨_, seenAnswers, afterSeen, rfl, _, hunseen⟩ := Program.path_past hseen
    (ask_makes (P := OrderRequest.Checks) 
      (Program.makes_request (r := OrderRequest.isDuplicateTxId txUUID) trivial) _)
    hnot
  obtain ⟨_, _, hsigner⟩ := Program.path_attempt hunseen
  obtain ⟨_, signerAnswers, afterSigner, rfl, _, hmarket⟩ :=
    Program.path_past hsigner checkSigner_makes hnot
  obtain ⟨_, marketAnswers, afterMarket, rfl, _, hdepth⟩ :=
    Program.path_past hmarket (checkMarket_makes now) hnot
  obtain ⟨_, depthAnswers, afterDepth, rfl, _, hfunds⟩ :=
    Program.path_past hdepth checkLiquidity_makes hnot
  obtain ⟨_, fundsAnswers, afterFunds, rfl, hchecked, hcommit⟩ :=
    Program.path_past hfunds checkAssets_makes hnot
  refine ⟨?_, c, now, txUUID, hdraft, hterms, ?_⟩
  · exact commitOrder_path hcommit
  · intro hsell
    rw [if_neg hsell] at hchecked
    obtain ⟨balances, openOrders, rfl, hcheck⟩ := checkPosition_path hchecked
    exact ⟨balances, openOrders, by simp, by simp, hcheck⟩

end Spec

end PrismBackend.Api
