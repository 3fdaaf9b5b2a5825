import PrismBackend.Api.MarketSpelling
import PrismBackend.Api.TxIdentity
import PrismBackend.Api.SellAdmission
import PrismBackend.Rewards.Claims

/-!
# API: cancelling an order from the web

The request that `cancelOrder.ts` builds for an order of the portfolio, the rules
of its message, and what `CancelPredictionIntent` makes of it while nothing else
happens.
-/

namespace PrismBackend.Api

open PrismBackend.Lib PrismBackend.Clob PrismBackend.PrismV2
open Program (request attempt andThen)

/-! ## The web client -/

/-- The key of an account as the mirror node reports it. -/
structure UserKey where
  type_ : Str
  key : Str

def ed25519 : Str := "ED25519".toList
def ecdsaSecp256k1 : Str := "ECDSA_SECP256K1".toList

/-- `toStringRaw` of the SDK's key, which is nothing where the text is no key. -/
def normalizePublicKey (toStringRaw : Str → Option Str) (rawKey keyTypeStr : Str) : Str :=
  let publicKey :=
    if keyTypeStr = ed25519 ∧ 64 < rawKey.length then rawKey.drop (rawKey.length - 64) else rawKey
  let looksLikeCompressed := publicKey.length = 66 ∧
    (publicKey.take 2 = ['0', '2'] ∨ publicKey.take 2 = ['0', '3'])
  if keyTypeStr = ecdsaSecp256k1 ∧ ¬looksLikeCompressed ∧ 66 < publicKey.length then
    (toStringRaw publicKey).getD publicKey
  else publicKey

def keyTypeToInt (keyType : Str) : Except String Nat :=
  if keyType = ed25519 then .ok keyTypeEd25519
  else if keyType = ecdsaSecp256k1 then .ok keyTypeEcdsa
  else .error ("Unsupported key type: " ++ text keyType)

/-- The wallet: its account, and the signature that it gives for the cancellation of an order. -/
structure CancelSigner where
  accountId : Str
  sign : Str → Str

def submitSignedCancel (toStringRaw : Str → Option Str) (marketId txId net : Str)
    (signer : CancelSigner) (userKey : UserKey) : Except String CancelOrderRequest := do
  let keyType ← keyTypeToInt userKey.type_
  .ok {
    marketId
    txId
    net := toAsciiLowercase net
    accountId := signer.accountId
    sig := signer.sign txId
    publicKey := normalizePublicKey toStringRaw userKey.key userKey.type_
    keyType }

/-- The key as the mirror node writes it: 64 hex digits, or 66 of a compressed point. -/
structure UserKey.IsRaw (userKey : UserKey) : Prop where
  digits : ∀ ch ∈ userKey.key, isHexDigit ch = true
  shape : (userKey.type_ = ed25519 ∧ userKey.key.length = 64) ∨
    (userKey.type_ = ecdsaSecp256k1 ∧ userKey.key.length = 66 ∧
      (userKey.key.take 2 = ['0', '2'] ∨ userKey.key.take 2 = ['0', '3']))

theorem normalizePublicKey_raw {toStringRaw : Str → Option Str} {userKey : UserKey}
    (h : userKey.IsRaw) : normalizePublicKey toStringRaw userKey.key userKey.type_ =
      userKey.key := by
  have hne : ecdsaSecp256k1 ≠ ed25519 := by decide
  have hshort : ¬(userKey.type_ = ed25519 ∧ 64 < userKey.key.length) := by
    rintro ⟨htype, hlong⟩
    rcases h.shape with ⟨_, hlength⟩ | ⟨htype', _⟩
    · omega
    · exact hne (htype'.symm.trans htype)
  simp only [normalizePublicKey, if_neg hshort]
  refine if_neg ?_
  rintro ⟨_, _, hlong⟩
  rcases h.shape with ⟨_, hlength⟩ | ⟨_, hlength, _⟩
  · omega
  · omega

theorem keyTypeToInt_raw {userKey : UserKey} (h : userKey.IsRaw) :
    ∃ keyType, keyTypeToInt userKey.type_ = .ok keyType ∧ isValidKeyType keyType = true := by
  unfold keyTypeToInt
  rcases h.shape with ⟨htype, _⟩ | ⟨htype, _⟩
  · exact ⟨keyTypeEd25519, if_pos htype, rfl⟩
  · refine ⟨keyTypeEcdsa, ?_, rfl⟩
    rw [htype, if_neg (by decide), if_pos rfl]

/-! ## The rules of the messages -/

def isBase64Char (ch : Char) : Bool := ch.isAlphanum || ch == '+' || ch == '/'

/-- The pattern `[A-Za-z0-9+/]{20,100}={0,2}`. -/
def isSignatureText (s : Str) : Bool :=
  let body := s.takeWhile isBase64Char
  let pad := s.dropWhile isBase64Char
  decide (20 ≤ body.length ∧ body.length ≤ 100 ∧ pad.length ≤ 2) && pad.all (· == '=')

/-- The pattern `(04[0-9a-fA-F]{128}|0[23][0-9a-fA-F]{64}|[0-9a-fA-F]{64})` of an order. -/
def isOrderKey (s : Str) : Bool :=
  s.all isHexDigit && decide ((s.take 2 = ['0', '4'] ∧ s.length = 130) ∨
    ((s.take 2 = ['0', '2'] ∨ s.take 2 = ['0', '3']) ∧ s.length = 66) ∨ s.length = 64)

/-- The pattern `(04|03|02)[0-9a-fA-F]{32,256}` of a cancellation. -/
def isCancelKey (s : Str) : Bool :=
  decide (s.take 2 = ['0', '4'] ∨ s.take 2 = ['0', '3'] ∨ s.take 2 = ['0', '2']) &&
    decide (32 ≤ (s.drop 2).length ∧ (s.drop 2).length ≤ 256) && (s.drop 2).all isHexDigit

/-- The rules of a `CancelOrderRequest`. -/
def CancelOrderRequest.validated (req : CancelOrderRequest) : Bool :=
  isUuidV7 req.marketId && isUuidV7 req.txId && isValidNetwork req.net &&
    Rewards.isAccountId req.accountId && isSignatureText req.sig && isCancelKey req.publicKey &&
    isValidKeyType req.keyType

/-- Every key that the mirror node writes is one that an order may carry. -/
theorem isOrderKey_raw {userKey : UserKey} (h : userKey.IsRaw) : isOrderKey userKey.key = true := by
  rw [isOrderKey, Bool.and_eq_true, List.all_eq_true, decide_eq_true_eq]
  refine ⟨h.digits, ?_⟩
  rcases h.shape with ⟨_, hlength⟩ | ⟨_, hlength, hpoint⟩
  · exact Or.inr (Or.inr hlength)
  · exact Or.inr (Or.inl ⟨hpoint, hlength⟩)

theorem isCancelKey_raw {userKey : UserKey} (h : userKey.IsRaw) :
    isCancelKey userKey.key = true ↔ userKey.key.take 2 = ['0', '4'] ∨
      userKey.key.take 2 = ['0', '3'] ∨ userKey.key.take 2 = ['0', '2'] := by
  have hlength : 32 ≤ (userKey.key.drop 2).length ∧ (userKey.key.drop 2).length ≤ 256 := by
    rw [List.length_drop]
    rcases h.shape with ⟨_, hlength⟩ | ⟨_, hlength, _⟩ <;> omega
  have hdigits : (userKey.key.drop 2).all isHexDigit = true :=
    List.all_eq_true.mpr fun ch hch => h.digits ch (List.mem_of_mem_drop hch)
  rw [isCancelKey, hdigits, Bool.and_true, Bool.and_eq_true, decide_eq_true_eq, decide_eq_true_eq]
  exact and_iff_left hlength

/-! ## One request while nothing else happens -/

section Handle

variable (p : Platform) (mirror : Str → Str → Except String (Str × Nat))

def Exchange.answerNow (s : Exchange) : (r : OrderRequest) → r.Answer
  | .getPublicKey accountId net => mirror accountId net
  | r => s.reply p r

/-- A program is run to its end: every request has its effect, and is answered. -/
def Exchange.handle {α : Type} (s : Exchange) : OrderM α → α × Exchange
  | .ret value => (value, s)
  | .call r rest =>
    (s.effect p s.outbox.freshId r (s.answerNow p mirror r)).handle (rest (s.answerNow p mirror r))

variable {p mirror} {s : Exchange}

theorem Exchange.handle_bind {α β : Type} (s : Exchange) (program : OrderM α) (k : α → OrderM β) :
    s.handle p mirror (program >>= k) =
      (s.handle p mirror program).2.handle p mirror (k (s.handle p mirror program).1) := by
  induction program generalizing s with
  | ret value => rfl
  | call r rest ih => exact ih _ _

theorem Exchange.handle_ask {α : Type} (s : Exchange) (program : OrderM (Except String α))
    (what : String) : s.handle p mirror (ask program what) =
      ((s.handle p mirror program).1.mapError (what ++ ·), (s.handle p mirror program).2) :=
  s.handle_bind program _

theorem Exchange.handle_andThen {α β : Type} {program : OrderM (Except String α)} {value : α}
    {s' : Exchange} (h : s.handle p mirror program = (.ok value, s'))
    (k : α → OrderM (Except String β)) :
    s.handle p mirror (andThen program k) = s'.handle p mirror (k value) := by
  rw [andThen, Exchange.handle_bind, h]
  rfl

theorem Exchange.handle_andThen_error {α β : Type} {program : OrderM (Except String α)}
    {err : String} {s' : Exchange} (h : s.handle p mirror program = (.error err, s'))
    (k : α → OrderM (Except String β)) :
    s.handle p mirror (andThen program k) = (.error err, s') := by
  rw [andThen, Exchange.handle_bind, h]
  rfl

theorem Exchange.handle_attempt {α β : Type} {result : Except String α} {value : α}
    (h : result = .ok value) (k : α → OrderM (Except String β)) :
    s.handle p mirror (attempt result k) = s.handle p mirror (k value) := by
  rw [h]
  rfl

theorem Exchange.effect_cancelPredictionIntent (s : Exchange) {txId : Str} {txID : Uint128}
    (hparse : p.uuid.parse txId = .ok txID) (id : Nat)
    (answer : (OrderRequest.cancelPredictionIntent txId).Answer) :
    s.effect p id (.cancelPredictionIntent txId) answer =
      { s with db := s.db.cancelPredictionIntent txID } := by
  simp only [Exchange.effect, hparse]

/-- The state after the mark in the database and the removal from the book. -/
def Exchange.afterCancel (s : Exchange) (marketId txId : Str) (txID : Uint128) : Exchange :=
  { s with
    db := s.db.cancelPredictionIntent txID
    clob := (s.clob.cancelOrder marketId txId).1 }

/-- The mark is made, whatever becomes of the removal, which is what is reported. -/
theorem Exchange.handle_cancelNoSigCheck (s : Exchange) (marketId : Str) {txId : Str}
    {txID : Uint128} (hparse : p.uuid.parse txId = .ok txID) :
    (s.handle p mirror (cancelPredictionIntentNoSigCheck marketId txId)).2 =
        s.afterCancel marketId txId txID ∧
      ((∃ message, (s.handle p mirror (cancelPredictionIntentNoSigCheck marketId txId)).1 =
        .ok message) ↔ (s.clob.cancelOrder marketId txId).2 = some true) := by
  have hmark (what : String) : s.handle p mirror
      (ask (request (OrderRequest.cancelPredictionIntent txId)) what) =
        (.ok (), { s with db := s.db.cancelPredictionIntent txID }) := by
    rw [Exchange.handle_ask]
    show (Except.mapError _ ((p.uuid.parse txId).map fun _ => ()),
      s.effect p s.outbox.freshId (.cancelPredictionIntent txId)
        ((p.uuid.parse txId).map fun _ => ())) = _
    rw [s.effect_cancelPredictionIntent hparse, hparse]
    rfl
  rw [cancelPredictionIntentNoSigCheck, Exchange.handle_andThen (hmark _)]
  by_cases hfound : (s.clob.cancelOrder marketId txId).2 = some true
  · have hremove (what : String) : Exchange.handle p mirror
        { s with db := s.db.cancelPredictionIntent txID }
        (ask (request (OrderRequest.cancelOrder marketId txId)) what) =
          (.ok (), s.afterCancel marketId txId txID) := by
      rw [Exchange.handle_ask]
      show (Except.mapError _ (if (s.clob.cancelOrder marketId txId).2 = some true then .ok ()
        else .error "not found"), s.afterCancel marketId txId txID) = _
      rw [if_pos hfound]
      rfl
    rw [Exchange.handle_andThen (hremove _)]
    exact ⟨rfl, fun _ => hfound, fun _ => ⟨_, rfl⟩⟩
  · have hremove (what : String) : Exchange.handle p mirror
        { s with db := s.db.cancelPredictionIntent txID }
        (ask (request (OrderRequest.cancelOrder marketId txId)) what) =
          (.error (what ++ "not found"), s.afterCancel marketId txId txID) := by
      rw [Exchange.handle_ask]
      show (Except.mapError _ (if (s.clob.cancelOrder marketId txId).2 = some true then .ok ()
        else .error "not found"), s.afterCancel marketId txId txID) = _
      rw [if_neg hfound]
      rfl
    rw [Exchange.handle_andThen_error (hremove _)]
    refine ⟨rfl, ?_, fun h => absurd h hfound⟩
    rintro ⟨message, hmessage⟩
    cases hmessage

end Handle

/-! ## The order and its row -/

def RemovesOrder (clob clob' : OrderBookService) (key : Str) (o : CreateOrderRequestClob) : Prop :=
  ∃ book book', clob.orderBooks key = some book ∧
    (book.bids ++ book.asks).Perm (o :: (book'.bids ++ book'.asks)) ∧
    book'.bids.Sublist book.bids ∧ book'.asks.Sublist book.asks ∧
    clob'.orderBooks = Function.update clob.orderBooks key (some book')

def MarksCancelled (db db' : Db) (row : PredictionIntent) : Prop :=
  (∀ k, db'.intents.find k =
    if k = row.txID then some { row with cancelledAt := true } else db.intents.find k) ∧
    db'.matches_ = db.matches_ ∧ db'.markets = db.markets

section Order

variable {clob : OrderBookService} {marketId txId : Str} {book : Book}
  {o : CreateOrderRequestClob}

/-- A removal finds an order, and it is this one, where it has the text of this one. -/
theorem cancelOrder_removes_iff (htidy : clob.Tidy) (hbook : clob.bookOf marketId = some book)
    (ho : o ∈ book.bids ++ book.asks) :
    ((clob.cancelOrder marketId txId).2 = some true ∧
      RemovesOrder clob (clob.cancelOrder marketId txId).1 (toAsciiLowercase marketId) o) ↔
      o.txId = txId := by
  obtain ⟨hperm, hfind, hbids, hasks⟩ := book.remove_perm txId
  have hnodup : book.txIds.Nodup := htidy.nodup _ book hbook
  have hcancel : clob.cancelOrder marketId txId =
      (clob.setBook marketId (some (book.remove txId).1), some (book.remove txId).2) := by
    rw [OrderBookService.cancelOrder, hbook]
  rw [hcancel]
  constructor
  · rintro ⟨_, book₀, book', hbook₀, hleaves, _, _, hupdate⟩
    have hsame : book₀ = book := Option.some.inj (hbook₀.symm.trans hbook)
    have hafter : book' = (book.remove txId).1 := by
      have hat := congrFun hupdate (toAsciiLowercase marketId)
      rw [Function.update_self] at hat
      have hset : (clob.setBook marketId (some (book.remove txId).1)).orderBooks
          (toAsciiLowercase marketId) = some (book.remove txId).1 := Function.update_self _ _ _
      exact Option.some.inj (hat.symm.trans hset)
    rw [hsame, hafter] at hleaves
    have hsingle : (book.find txId).toList.Perm [o] :=
      (List.perm_append_right_iff _).mp (hperm.symm.trans hleaves)
    have hfound : book.find txId = some o := by
      cases hfind' : book.find txId with
      | none =>
          rw [hfind'] at hsingle
          exact absurd hsingle.length_eq (by simp)
      | some o' =>
          rw [hfind'] at hsingle
          rw [List.singleton_perm_singleton.mp hsingle]
    exact hfind o hfound
  · intro heq
    have hany : (book.remove txId).2 = true := by
      rw [Book.remove_eq hnodup]
      exact List.any_eq_true.mpr ⟨o, ho, beq_iff_eq.mpr heq⟩
    have hfound : book.find txId = some o := by
      cases hfind' : book.find txId with
      | none =>
          rw [hfind', Option.toList_none, List.nil_append] at hperm
          have hids := (Book.remove_txIds book txId).2 hnodup
          have hmem : o.txId ∈ (book.remove txId).1.txIds := List.mem_map_of_mem (hperm.subset ho)
          rw [heq] at hmem
          exact absurd hmem hids
      | some o' =>
          rw [hfind', Option.toList_some, List.singleton_append] at hperm
          have hids : (book.bids ++ book.asks).map (·.txId) = book.txIds := rfl
          have hkey : o'.txId = o.txId := (hfind o' hfind').trans heq.symm
          have hmem := hperm.symm.subset List.mem_cons_self
          rw [List.inj_on_of_nodup_map (hids ▸ hnodup) hmem ho hkey]
    rw [hfound, Option.toList_some, List.singleton_append] at hperm
    exact ⟨congrArg some hany, book, _, hbook, hperm, hbids, hasks, rfl⟩

theorem cancelPredictionIntent_marks {db : Db} {row : PredictionIntent}
    (hrow : db.intents.find row.txID = some row) (hopen : isOpenPredictionIntent row = true) :
    MarksCancelled db (db.cancelPredictionIntent row.txID) row := by
  simp only [isOpenPredictionIntent, Bool.and_eq_true, Bool.not_eq_true',
    decide_eq_true_eq] at hopen
  obtain ⟨⟨⟨_, hcancelled⟩, hmatched⟩, hevicted⟩ := hopen
  refine ⟨?_, rfl, rfl⟩
  intro k
  unfold Db.cancelPredictionIntent
  by_cases hk : k = row.txID
  · subst hk
    rw [if_pos rfl, Table.find_modify_self hrow, hcancelled, hmatched, hevicted]
    rfl
  · rw [if_neg hk]
    dsimp only
    rw [Table.find_modify_of_ne hk]

end Order

theorem cancelledAt_of_isOpen {row : PredictionIntent} (h : isOpenPredictionIntent row = true) :
    row.cancelledAt = false := by
  simp only [isOpenPredictionIntent, Bool.and_eq_true, Bool.not_eq_true'] at h
  exact h.1.1.2

/-! ## The cancellation of an accepted order -/

/-- The account can cancel: its key is as the mirror node writes it and is read as the one that is
looked up, and the wallet signs correctly. -/
structure Ready (sdk : Sdk) (mirror : Str → Str → Except String (Str × Nat)) (net : Str)
    (signer : CancelSigner) (userKey : UserKey) : Prop where
  network : isValidNetwork (toAsciiLowercase net) = true
  account : Rewards.isAccountId signer.accountId = true
  raw : userKey.IsRaw
  signs : ∃ account key keyType, sdk.accountIDFromString signer.accountId = .ok account ∧
    mirror account (toAsciiLowercase net) = .ok (key, keyType) ∧ key ≠ [] ∧
    sdk.publicKeyFromString userKey.key = .ok key ∧
    ∀ txId, isUuidV7 txId = true → isSignatureText (signer.sign txId) = true ∧
      sdk.verifySig key txId (signer.sign txId) = .ok true

/-- The request passes the rules and the checks, and cancels the row and the order in the book. -/
structure Cancels (p : Platform) (sdk : Sdk) (mirror : Str → Str → Except String (Str × Nat))
    (s : Exchange) (req : CancelOrderRequest) (row : PredictionIntent) (key : Str)
    (o : CreateOrderRequestClob) : Prop where
  validated : req.validated = true
  response : ∃ message, (s.handle p mirror (cancelPredictionIntent p sdk req)).1 = .ok message
  row : MarksCancelled s.db (s.handle p mirror (cancelPredictionIntent p sdk req)).2.db row
  order : RemovesOrder s.clob (s.handle p mirror (cancelPredictionIntent p sdk req)).2.clob key o

section Request

variable {p : Platform} {sdk : Sdk} {mirror : Str → Str → Except String (Str × Nat)} {net : Str}
  {signer : CancelSigner} {userKey : UserKey} {s : Exchange} {row : PredictionIntent}
  {req : CancelOrderRequest}

/-- What the web client puts into a request, for a key as the mirror node writes it. -/
structure Built (marketId txId net : Str) (signer : CancelSigner) (userKey : UserKey)
    (req : CancelOrderRequest) : Prop where
  sig : req.sig = signer.sign txId
  marketId : req.marketId = marketId
  txId : req.txId = txId
  net : req.net = toAsciiLowercase net
  accountId : req.accountId = signer.accountId
  publicKey : req.publicKey = userKey.key
  keyType : isValidKeyType req.keyType = true

theorem submitSignedCancel_raw (h : userKey.IsRaw) (toStringRaw : Str → Option Str)
    (marketId txId net : Str) (signer : CancelSigner) :
    ∃ req, submitSignedCancel toStringRaw marketId txId net signer userKey = .ok req ∧
      Built marketId txId net signer userKey req := by
  obtain ⟨keyType, hkeyType, hvalid⟩ := keyTypeToInt_raw h
  rw [submitSignedCancel, hkeyType]
  exact ⟨_, rfl, rfl, rfl, rfl, rfl, rfl, normalizePublicKey_raw h, hvalid⟩

/-- The request of the portfolio passes the rules where its key does. -/
theorem Ready.validated_iff (h : Ready sdk mirror net signer userKey) {marketId txId : Str}
    (hmarketId : isUuidV7 marketId = true) (htxId : isUuidV7 txId = true)
    (hreq : Built marketId txId net signer userKey req) :
    req.validated = true ↔ isCancelKey userKey.key = true := by
  obtain ⟨_, _, _, _, _, _, _, hsign⟩ := h.signs
  simp [CancelOrderRequest.validated, hreq.marketId, hreq.txId, hreq.net, hreq.accountId, hreq.sig,
    hreq.publicKey, hreq.keyType, h.network, h.account, hmarketId, htxId, (hsign txId htxId).1]

/-- All checks of the service pass for the owner of an open order. -/
theorem Ready.handle_cancel (h : Ready sdk mirror net signer userKey)
    (hrow : s.db.intents.find row.txID = some row) (hopen : row.cancelledAt = false)
    (howner : row.accountID = signer.accountId) (htxId : isUuidV7 (p.uuid.string row.txID) = true)
    (hreq : Built (p.uuid.string row.marketID) (p.uuid.string row.txID) net signer userKey req) :
    s.handle p mirror (cancelPredictionIntent p sdk req) = s.handle p mirror
      (cancelPredictionIntentNoSigCheck (p.uuid.string row.marketID) (p.uuid.string row.txID)) := by
  obtain ⟨account, key, keyType, haccount, hmirror, hkey, hread, hsign⟩ := h.signs
  have hids : checkCancelIds p sdk req = .ok account := by
    rw [checkCancelIds, hreq.marketId, hreq.txId, hreq.accountId, p.uuid.parse_string,
      p.uuid.parse_string, haccount]
    rfl
  have hlookup (what : String) : s.handle p mirror
      (ask (request (OrderRequest.getPublicKey account req.net)) what) =
        (.ok (key, keyType), s) := by
    rw [Exchange.handle_ask]
    show (Except.mapError _ (mirror account req.net), s) = _
    rw [hreq.net, hmirror]
    rfl
  have hkeyCheck : checkCancelKey sdk req key keyType = .ok key := by
    rw [checkCancelKey, hreq.publicKey, hread, hreq.keyType]
    simp [revertIf, hkey, Except.mapError]
  have hfound (what : String) : s.handle p mirror
      (ask (request (OrderRequest.getPredictionIntentByTxId req.txId)) what) = (.ok row, s) := by
    rw [Exchange.handle_ask]
    show (Except.mapError _ (s.db.getPredictionIntentByTxId p.uuid req.txId), s) = _
    rw [hreq.txId, Db.getPredictionIntentByTxId, p.uuid.parse_string]
    simp [Except.mapError, hrow]
  have hrowCheck : checkCancelRow p sdk req key row = .ok () := by
    rw [checkCancelRow, hreq.accountId, hreq.marketId, hreq.txId, hreq.sig, howner, hopen,
      (hsign _ htxId).2]
    simp [revertIf, Except.mapError]
  rw [cancelPredictionIntent, Exchange.handle_attempt hids, Exchange.handle_andThen (hlookup _),
    Exchange.handle_attempt hkeyCheck, Exchange.handle_andThen (hfound _),
    Exchange.handle_attempt hrowCheck, hreq.marketId, hreq.txId]

end Request

section Cancellable

variable {p : Platform}

/-- The ids of an accepted row, as the UUID package writes them. -/
theorem Accepted.idTexts {row : PredictionIntent} (h : Accepted p row) (hreads : p.uuid.ReadsHex)
    (hwrites : p.uuid.WritesHex) :
    isUuidV7 (p.uuid.string row.txID) = true ∧ isUuidV7 (p.uuid.string row.marketID) = true ∧
      toAsciiLowercase (p.uuid.string row.marketID) = p.uuid.string row.marketID := by
  obtain ⟨⟨req, a, hvalid, _, _, hcreated⟩, _⟩ := h
  obtain ⟨htx, hmarket⟩ := createOrderIntentRequest_market hreads hwrites hvalid hcreated
  have htxText := (Uuid.string_of_parse hreads hwrites hvalid.txId htx).1
  rw [htxText, hmarket, toAsciiLowercase_idem]
  exact ⟨isUuidV7_lowercase hvalid.txId, isUuidV7_lowercase hvalid.marketId, rfl⟩

def Db.terms (db : Db) (txID : Uint128) : Option OrderTerms :=
  (db.intents.find txID).map (·.toOrderTerms)

/-- The order of a row rests in the book of the row's market. -/
theorem book_of_row (hreads : p.uuid.ReadsHex) (hwrites : p.uuid.WritesHex) {s : Exchange}
    {requests : List ClobRequest} (hclob : s.clob = (runProcess requests).service)
    (hsent : AllSent p s.db.terms (offeredOrders requests)) {row : PredictionIntent}
    (hrow : s.db.intents.find row.txID = some row) {key : Str} {book : Book}
    (hbook : s.clob.orderBooks key = some book) {o : CreateOrderRequestClob}
    (ho : o ∈ book.bids ++ book.asks) (hid : p.uuid.parse o.txId = .ok row.txID) :
    key = p.uuid.string row.marketID := by
  obtain ⟨hkey, o', ho', heq⟩ := (runProcess_shelved requests).1 key book (hclob ▸ hbook) o ho
  obtain ⟨t, hterms, hsentOrder⟩ := hsent o' ho'
  obtain ⟨htx, _, hmarket⟩ := hsentOrder.market hreads hwrites
  rw [← txId_of_unfilled heq, hid, Except.ok.injEq] at htx
  rw [← htx, Db.terms, hrow, Option.map_some, Option.some.injEq] at hterms
  rw [← hkey, marketId_of_unfilled heq, ← hmarket, ← hterms]

/-- The owner of an open order that rests can cancel it from the web exactly where his key begins
like a point and the order came in under its tx id in lower case. -/
theorem cancels_iff (sdk : Sdk) (hreads : p.uuid.ReadsHex) (hwrites : p.uuid.WritesHex)
    (mirror : Str → Str → Except String (Str × Nat)) (toStringRaw : Str → Option Str) (net : Str)
    (signer : CancelSigner) (userKey : UserKey) (hready : Ready sdk mirror net signer userKey)
    (s : Exchange) (requests : List ClobRequest)
    (hapi : ∀ request ∈ requests, ofApi request = true)
    (hclob : s.clob = (runProcess requests).service)
    (hsent : AllSent p s.db.terms (offeredOrders requests)) (row : PredictionIntent)
    (hrow : s.db.intents.find row.txID = some row) (haccepted : Accepted p row)
    (hopen : isOpenPredictionIntent row = true) (howner : row.accountID = signer.accountId)
    (key : Str) (book : Book) (hbook : s.clob.orderBooks key = some book)
    (o : CreateOrderRequestClob) (ho : o ∈ book.bids ++ book.asks)
    (hid : p.uuid.parse o.txId = .ok row.txID) :
    ∃ req, submitSignedCancel toStringRaw (p.uuid.string row.marketID) (p.uuid.string row.txID) net
        signer userKey = .ok req ∧
      (Cancels p sdk mirror s req row key o ↔
        (userKey.key.take 2 = ['0', '4'] ∨ userKey.key.take 2 = ['0', '3'] ∨
          userKey.key.take 2 = ['0', '2']) ∧ o.txId = p.uuid.string row.txID) := by
  obtain ⟨htxId, hmarketId, hlower⟩ := haccepted.idTexts hreads hwrites
  obtain ⟨req, hreq, hbuilt⟩ := submitSignedCancel_raw hready.raw toStringRaw
    (p.uuid.string row.marketID) (p.uuid.string row.txID) net signer
  have htidy : s.clob.Tidy := hclob ▸ (runProcess_tidy requests hapi).1
  have hkey : key = toAsciiLowercase (p.uuid.string row.marketID) :=
    (book_of_row hreads hwrites hclob hsent hrow hbook ho hid).trans hlower.symm
  subst hkey
  have hhandle := hready.handle_cancel hrow (cancelledAt_of_isOpen hopen) howner htxId hbuilt
  obtain ⟨hafter, hresponse⟩ : _ ∧ _ := s.handle_cancelNoSigCheck (p.uuid.string row.marketID)
    (p.uuid.parse_string row.txID)
  have horder : (_ ∧ RemovesOrder s.clob
      (s.clob.cancelOrder (p.uuid.string row.marketID) (p.uuid.string row.txID)).1 _ o) ↔ _ :=
    cancelOrder_removes_iff htidy hbook ho
  have hrules := hready.validated_iff hmarketId htxId hbuilt
  rw [isCancelKey_raw hready.raw] at hrules
  refine ⟨req, hreq, ?_⟩
  constructor
  · intro h
    refine ⟨hrules.mp h.validated, horder.mp ⟨hresponse.mp (hhandle ▸ h.response), ?_⟩⟩
    have hremoved := h.order
    rwa [hhandle, hafter] at hremoved
  · rintro ⟨hpoint, hsame⟩
    obtain ⟨hfound, hremoved⟩ := horder.mpr hsame
    refine ⟨hrules.mpr hpoint, ?_, ?_, ?_⟩
    · rw [hhandle]
      exact hresponse.mpr hfound
    · rw [hhandle, hafter]
      exact cancelPredictionIntent_marks hrow hopen
    · rw [hhandle, hafter]
      exact hremoved

end Cancellable

/-! ## Two accounts -/

/-- The SDK prints an Ed25519 key with its prefix, and reads it with or without. -/
def printKey (key : Str) : Str := "302a300506032b6570032100".toList ++ key

def sampleWalletSdk : Sdk := { sampleSdk with publicKeyFromString := fun s => .ok (printKey s) }

def sampleSigner : CancelSigner :=
  ⟨sampleRequest.accountId, fun _ => List.replicate 86 'A' ++ ['=', '=']⟩

def sampleKey (first : Str) : UserKey := ⟨ed25519, first ++ List.replicate 62 '7'⟩

def sampleMirror (userKey : UserKey) (_ _ : Str) : Except String (Str × Nat) :=
  .ok (printKey userKey.key, keyTypeEd25519)

theorem sampleKey_ready (first : Str) (hlength : first.length = 2)
    (hdigits : first.all isHexDigit = true) :
    Ready sampleWalletSdk (sampleMirror (sampleKey first)) "testnet".toList sampleSigner
      (sampleKey first) := by
  refine ⟨by decide, by decide, ⟨?_, Or.inl ⟨rfl, ?_⟩⟩, _, _, _, rfl, rfl, ?_, rfl, ?_⟩
  · intro ch hch
    rcases List.mem_append.mp hch with hfirst | hrest
    · exact List.all_eq_true.mp hdigits ch hfirst
    · rw [List.eq_of_mem_replicate hrest]
      decide
  · show (first ++ List.replicate 62 '7').length = 64
    rw [List.length_append, hlength, List.length_replicate]
  · exact List.append_ne_nil_of_left_ne_nil (by decide) _
  · have hpattern : isSignatureText (List.replicate 86 'A' ++ ['=', '=']) = true := by
      decide +kernel
    exact fun _ _ => ⟨hpattern, rfl⟩

theorem sample_row : ∃ row : PredictionIntent, Accepted samplePlatform row ∧
    isOpenPredictionIntent row = true ∧ row.accountID = sampleSigner.accountId ∧
    row.txID = 0x01890F3E7C107CC198BC0242AC120003 ∧
    sampleUuid.string row.marketID = sampleRequest.marketId ∧
    clobOrderFromIntent sampleUuid row = .ok sampleRestored := by
  obtain ⟨terms, hcreated, htx⟩ := sample_created sampleRequest
    0x01890F3E7C107CC198BC0242AC120003 (by decide +kernel)
  have hread {β : Type} (f : OrderTerms → β) {value : β}
      (h : (createOrderIntentRequest sampleUuid sampleRequest).toOption.map f = some value) :
      f terms = value := by
    rw [hcreated] at h
    exact Option.some.inj h
  have hauth : ∃ a, requestAuthorization sampleUuid sampleRequest = .ok a := by
    have hok : (requestAuthorization sampleUuid sampleRequest).isOk = true := by decide +kernel
    cases ha : requestAuthorization sampleUuid sampleRequest with
    | ok a => exact ⟨a, rfl⟩
    | error err =>
        rw [ha] at hok
        cases hok
  obtain ⟨a, ha⟩ := hauth
  have htyped : sampleRequest.Typed := by constructor <;> decide
  refine ⟨.new terms, ⟨⟨sampleRequest, a, sampleRequest_validated, htyped, ha, hcreated⟩,
    PredictionIntent.kept_new hcreated⟩, ?_, ?_, htx, ?_, ?_⟩
  · exact hread (fun terms => isOpenPredictionIntent (.new terms)) (by decide +kernel)
  · exact hread (·.accountID) (by decide +kernel)
  · exact hread (fun terms => sampleUuid.string terms.marketID) (by decide +kernel)
  · have hrestored : (clobOrderFromIntent sampleUuid (.new terms)).toOption = some sampleRestored :=
      hread (fun terms => (clobOrderFromIntent sampleUuid (.new terms)).toOption)
        (by decide +kernel)
    cases horder : clobOrderFromIntent sampleUuid (.new terms) with
    | ok o =>
        rw [horder] at hrestored
        exact congrArg Except.ok (Option.some.inj hrestored)
    | error err =>
        rw [horder] at hrestored
        cases hrestored

def sampleBacked (row : PredictionIntent) (requests : List ClobRequest) : Exchange :=
  { sampleExchange with
    db := { sampleExchange.db with intents := Table.empty.insert row }
    clob := (runProcess requests).service }

/-- The order came in as it was restored, or as its request spells it. -/
def sampleArrival (order : CreateOrderRequestClob) : List ClobRequest :=
  [.createMarket sampleRequest.marketId, .deliverOrder order 10]

theorem sampleBacked_row (row : PredictionIntent) (requests : List ClobRequest) :
    (sampleBacked row requests).db.intents.find row.txID = some row :=
  Table.find_insert_self rfl

theorem sampleArrival_book (order : CreateOrderRequestClob)
    (h : ((runProcess (sampleArrival order)).service.orderBooks sampleRequest.marketId).map
      (fun book => book.bids ++ book.asks) = some [order]) :
    ∃ book, (runProcess (sampleArrival order)).service.orderBooks sampleRequest.marketId =
      some book ∧ order ∈ book.bids ++ book.asks := by
  obtain ⟨book, hbook, horders⟩ := Option.map_eq_some_iff.mp h
  exact ⟨book, hbook, horders ▸ List.mem_singleton_self _⟩

theorem cancels_iff_sample : ∃ s row req,
    submitSignedCancel some (sampleUuid.string row.marketID) (sampleUuid.string row.txID)
        "testnet".toList sampleSigner (sampleKey ['0', '2']) = .ok req ∧
      Cancels samplePlatform sampleWalletSdk (sampleMirror (sampleKey ['0', '2'])) s req row
        sampleRequest.marketId sampleRestored := by
  obtain ⟨row, haccepted, hopen, howner, htx, _, hrestored⟩ := sample_row
  obtain ⟨book, hbook, ho⟩ := sampleArrival_book sampleRestored (by decide +kernel)
  have hid : sampleUuid.parse sampleRestored.txId = .ok row.txID := by
    rw [htx]
    show parseUuidText sampleRestored.txId = .ok 0x01890F3E7C107CC198BC0242AC120003
    decide +kernel
  have hsent : AllSent samplePlatform (sampleBacked row (sampleArrival sampleRestored)).db.terms
      (offeredOrders (sampleArrival sampleRestored)) := by
    intro o ho
    rw [List.mem_singleton.mp ho]
    refine ⟨row.toOrderTerms, ?_, .restored row [] sampleRestored haccepted rfl hrestored⟩
    exact congrArg (Option.map (·.toOrderTerms)) (sampleBacked_row row _)
  obtain ⟨req, hreq, hiff⟩ := cancels_iff (p := samplePlatform) sampleWalletSdk sampleUuid_readsHex
    sampleUuid_writesHex (sampleMirror (sampleKey ['0', '2'])) some "testnet".toList sampleSigner
    (sampleKey ['0', '2']) (sampleKey_ready _ rfl rfl) (sampleBacked row _) _ (by decide) rfl
    hsent row (sampleBacked_row row _) haccepted hopen howner sampleRequest.marketId book hbook
    sampleRestored ho hid
  refine ⟨_, row, req, hreq, hiff.mpr ⟨Or.inr (Or.inr rfl), ?_⟩⟩
  show sampleRestored.txId = sampleUuid.string row.txID
  rw [htx]
  decide +kernel

/-- An accepted, open order in the book that its owner cannot cancel: his key begins with other
digits, or the order came in under the text of its request, with letters in upper case. -/
theorem cancel_refused : ∃ row : PredictionIntent, Accepted samplePlatform row ∧
    isOpenPredictionIntent row = true ∧ isOrderKey (sampleKey ['a', 'b']).key = true ∧
    (∃ req, submitSignedCancel some (sampleUuid.string row.marketID) (sampleUuid.string row.txID)
        "testnet".toList sampleSigner (sampleKey ['a', 'b']) = .ok req ∧ req.validated = false) ∧
    (∃ book, (runProcess (sampleArrival (clobRequest sampleRequest))).service.orderBooks
        sampleRequest.marketId = some book ∧ clobRequest sampleRequest ∈ book.bids ++ book.asks) ∧
    ∃ req, submitSignedCancel some (sampleUuid.string row.marketID) (sampleUuid.string row.txID)
        "testnet".toList sampleSigner (sampleKey ['0', '2']) = .ok req ∧
      ¬∃ message, (Exchange.handle samplePlatform (sampleMirror (sampleKey ['0', '2']))
        (sampleBacked row (sampleArrival (clobRequest sampleRequest)))
        (cancelPredictionIntent samplePlatform sampleWalletSdk req)).1 = .ok message := by
  obtain ⟨row, haccepted, hopen, howner, htx, hmarket, _⟩ := sample_row
  obtain ⟨htxId, hmarketId, _⟩ := haccepted.idTexts sampleUuid_readsHex sampleUuid_writesHex
  have hother := sampleKey_ready ['a', 'b'] rfl rfl
  have hpoint := sampleKey_ready ['0', '2'] rfl rfl
  obtain ⟨req, hreq, hbuilt⟩ := submitSignedCancel_raw hother.raw some
    (sampleUuid.string row.marketID) (sampleUuid.string row.txID) "testnet".toList sampleSigner
  obtain ⟨req', hreq', hbuilt'⟩ := submitSignedCancel_raw hpoint.raw some
    (sampleUuid.string row.marketID) (sampleUuid.string row.txID) "testnet".toList sampleSigner
  refine ⟨row, haccepted, hopen, isOrderKey_raw hother.raw, ⟨req, hreq, ?_⟩,
    sampleArrival_book _ (by decide +kernel), req', hreq', ?_⟩
  · rw [← Bool.not_eq_true, hother.validated_iff hmarketId htxId hbuilt]
    decide +kernel
  · obtain ⟨_, hresponse⟩ : _ ∧ _ := (sampleBacked row _).handle_cancelNoSigCheck
      (samplePlatform.uuid.string row.marketID) (samplePlatform.uuid.parse_string row.txID)
    rw [hpoint.handle_cancel (sampleBacked_row row _) (cancelledAt_of_isOpen hopen) howner htxId
      hbuilt', hresponse]
    show ¬((runProcess (sampleArrival (clobRequest sampleRequest))).service.cancelOrder
      (sampleUuid.string row.marketID) (sampleUuid.string row.txID)).2 = some true
    rw [hmarket, htx]
    decide +kernel

end PrismBackend.Api
