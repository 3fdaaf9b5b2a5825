import PrismBackend.Api.Calldata
import PrismBackend.Api.Orders

/-!
# The signed words of an order

The type hash and the twelve fields of an authorization as four programs encode
them: the web client from the request it sends, the API from the request and
from the stored row, and the contract. For an order that the API takes, all
four encode the same words.
-/

namespace PrismBackend.Api

open PrismBackend.Lib PrismBackend.Clob PrismBackend.PrismV2
open PrismBackend.Lib.Abi (word words)

/-! ## The web client -/

/-- `strip0x`: the first `0x` of either case goes, and the rest in lower case. -/
def strip0x : Str → Str
  | '0' :: mark :: rest =>
    toAsciiLowercase (if mark.toLower = 'x' then rest else '0' :: mark :: rest)
  | s => toAsciiLowercase s

/-- `BigInt('0x' + ...)` refuses a text without digits. -/
def uuidToUint128 (s : Str) : Option Nat :=
  let digits := uuidDigits s
  if digits = [] then none else hexNat digits

/-- The coder of an unsigned integer refuses a value beyond its width. -/
def coderUint (bits v : Nat) : Option Bytes := if v < 2 ^ bits then some (word v) else none

def coderAddress (s : Str) : Option Bytes := (addressBytes s).map fun account => word account.val

def webAuthorizationType : Bytes := utf8
  "PrismAuthorization(uint8 version,uint256 chainId,address verifyingContract,address signer,uint128 marketId,uint128 txId,uint8 side,uint8 action,uint256 limitYesPrice,uint256 qtyShares,uint256 collateralCap,uint64 deadline)"

def webTypehash (c : Chain) : Bytes32 := c.keccak (webAuthorizationType.map UInt8.toNat)

/-- What `authorizationStructHash` encodes for the intent of `toAuth`. -/
def webPreimage (c : Chain) (i : PrismPredictionIntentRequest) : Option Bytes := do
  let version ← coderUint 8 2
  let chainId ← coderUint 256 i.chainId
  let verifyingContract ← coderAddress (['0', 'x'] ++ strip0x i.verifyingContract)
  let signer ← coderAddress (['0', 'x'] ++ strip0x i.evmAddress)
  let marketId ← (uuidToUint128 i.marketId).bind (coderUint 128)
  let txId ← (uuidToUint128 i.txId).bind (coderUint 128)
  let side ← coderUint 8 i.side
  let action ← coderUint 8 i.action
  let limitYesPrice ← coderUint 256 i.limitYesPrice
  let qtyShares ← coderUint 256 i.qtyShares
  let collateralCap ← coderUint 256 i.collateralCap
  let deadline ← coderUint 64 i.deadline
  return word (webTypehash c) ++ version ++ chainId ++ verifyingContract ++ signer ++ marketId ++
    txId ++ side ++ action ++ limitYesPrice ++ qtyShares ++ collateralCap ++ deadline

/-! ## The API -/

def authorizationV2Type : Bytes := utf8
  "PrismAuthorization(uint8 version,uint256 chainId,address verifyingContract,address signer,uint128 marketId,uint128 txId,uint8 side,uint8 action,uint256 limitYesPrice,uint256 qtyShares,uint256 collateralCap,uint64 deadline)"

def apiTypehash (c : Chain) : Bytes32 := c.keccak (authorizationV2Type.map UInt8.toNat)

/-- What `StructHash` hashes. -/
def AuthorizationV2.preimage (c : Chain) (a : AuthorizationV2) : Except String Bytes := do
  let encoded ← a.abiEncode
  .ok (word (apiTypehash c) ++ encoded)

/-- `SigningMessage`, over the hash of bytes. -/
def AuthorizationV2.signingMessage (c : Chain) (keccak256 : Bytes → Bytes32) (a : AuthorizationV2) :
    Except String Bytes := do
  let preimage ← a.preimage c
  .ok (utf8 "\x19Hedera Signed Message:\n44" ++ base64Encode (bytes32 (keccak256 preimage)))

theorem typehash_eq (c : Chain) :
    webTypehash c = authorizationTypehash c ∧ apiTypehash c = authorizationTypehash c :=
  ⟨rfl, rfl⟩

theorem words_authorizationWords (c : Chain) (x : Authorization) :
    words (authorizationWords c x) =
      word (authorizationTypehash c) ++ words (tupleWords x) := rfl

/-! ## Texts -/

/-- An intent with the fields of a request, its texts in any letter case. -/
structure SameUpToCase (i req : PrismPredictionIntentRequest) : Prop where
  txId : toAsciiLowercase i.txId = toAsciiLowercase req.txId
  marketId : toAsciiLowercase i.marketId = toAsciiLowercase req.marketId
  evmAddress : toAsciiLowercase i.evmAddress = toAsciiLowercase req.evmAddress
  verifyingContract : toAsciiLowercase i.verifyingContract = toAsciiLowercase req.verifyingContract
  chainId : i.chainId = req.chainId
  side : i.side = req.side
  action : i.action = req.action
  limitYesPrice : i.limitYesPrice = req.limitYesPrice
  qtyShares : i.qtyShares = req.qtyShares
  collateralCap : i.collateralCap = req.collateralCap
  deadline : i.deadline = req.deadline

theorem isHex40_of_lowercase {s t : Str} (h : toAsciiLowercase s = toAsciiLowercase t)
    (ht : isHex40 t) : isHex40 s := by
  have hlength := congrArg List.length h
  simp only [toAsciiLowercase, List.length_map] at hlength
  refine ⟨hlength.trans ht.1, ?_⟩
  intro ch hch
  have hmem : ch.toLower ∈ toAsciiLowercase t := by
    rw [← h]
    exact List.mem_map_of_mem hch
  obtain ⟨other, hother, heq⟩ := List.mem_map.mp hmem
  rw [← hexDigit_toLower, ← heq, hexDigit_toLower]
  exact ht.2 other hother

theorem strip0x_hex {s : Str} (h : isHex40 s) : strip0x s = toAsciiLowercase s := by
  unfold strip0x
  split
  · next mark rest =>
    rw [if_neg]
    intro hmark
    have hdigit := h.2 mark (by simp)
    rw [← hexDigit_toLower, hmark] at hdigit
    exact absurd hdigit (by decide)
  · rfl

theorem normalizeAddress_hex {s : Str} (h : isHex40 s) :
    normalizeAddress s = ['0', 'x'] ++ toAsciiLowercase s := by
  rw [normalizeAddress, trimPrefix_hex h.2 hexDigit_x.1, trimPrefix_hex h.2 hexDigit_x.2]

theorem isHex40_lowercase {s : Str} (h : isHex40 s) : isHex40 (toAsciiLowercase s) := by
  apply isHex40_of_lowercase _ h
  rw [toAsciiLowercase, toAsciiLowercase, List.map_map]
  apply List.map_congr_left
  intro ch _
  exact toLower_toLower ch

theorem normalizeAddress_lowercase {s : Str} (h : isHex40 s) :
    normalizeAddress (toAsciiLowercase s) = normalizeAddress s := by
  rw [normalizeAddress_hex h, normalizeAddress_hex (isHex40_lowercase h)]
  congr 1
  rw [toAsciiLowercase, toAsciiLowercase, List.map_map]
  apply List.map_congr_left
  intro ch _
  exact toLower_toLower ch

theorem coderAddress_strip0x {s t : Str} (h : toAsciiLowercase s = toAsciiLowercase t)
    (ht : isHex40 t) {account : Address}
    (haccount : addressBytes (normalizeAddress t) = some account) :
    coderAddress (['0', 'x'] ++ strip0x s) = some (word account.val) := by
  rw [normalizeAddress_hex ht] at haccount
  rw [strip0x_hex (isHex40_of_lowercase h ht), h, coderAddress, haccount]
  rfl

theorem uuidToUint128_of_lowercase {s t : Str} (h : toAsciiLowercase s = toAsciiLowercase t)
    (ht : isUuidV7 t = true) {n : Uint128} (hn : hexNat (uuidDigits t) = some n.val) :
    (uuidToUint128 s).bind (coderUint 128) = some (word n.val) := by
  have hvalue : hexNat (uuidDigits s) = some n.val := by
    calc hexNat (uuidDigits s) = hexNat ((uuidDigits s).map Char.toLower) :=
          (hexNat_map_toLower _).symm
      _ = hexNat ((uuidDigits t).map Char.toLower) := by
          rw [← uuidDigits_toLower, ← uuidDigits_toLower, h]
      _ = some n.val := by rw [hexNat_map_toLower, hn]
  have hlength : (uuidDigits s).length = 32 := by
    have hlower := congrArg List.length (uuidDigits_toLower s)
    rw [h, uuidDigits_toLower, List.length_map, List.length_map, (uuidDigits_spec ht).1] at hlower
    exact hlower.symm
  have hne : uuidDigits s ≠ [] := by
    intro hnil
    rw [hnil] at hlength
    exact absurd hlength (by decide)
  have hbound : n.val < 2 ^ 128 := n.isLt
  simp only [uuidToUint128, if_neg hne, hvalue, Option.bind_some, coderUint, if_pos hbound]

/-! ## Authorizations -/

/-- The authorization that `NewAuthorizationV2` returns for a request. -/
abbrev AssembledFrom (uuid : Uuid) (req : PrismPredictionIntentRequest) (a : AuthorizationV2) :
    Prop :=
  Assembled uuid.parse req.chainId req.verifyingContract req.evmAddress req.marketId req.txId
    req.side req.action req.limitYesPrice req.qtyShares req.collateralCap req.deadline a

theorem newAuthorizationV2_congr {parse : UuidParse} {vc vc' marketId marketId' txId txId' : Str}
    (hvc : normalizeAddress vc = normalizeAddress vc') (hmarket : parse marketId = parse marketId')
    (htx : parse txId = parse txId') (chainId : Nat) (signer : Str)
    (side action limitYesPrice qtyShares collateralCap deadline : Nat) :
    newAuthorizationV2 parse chainId vc signer marketId txId side action limitYesPrice qtyShares
        collateralCap deadline =
      newAuthorizationV2 parse chainId vc' signer marketId' txId' side action limitYesPrice
        qtyShares collateralCap deadline := by
  unfold newAuthorizationV2
  rw [hvc, hmarket, htx]

theorem parseNumeric_ok {n : Nat} (h : n ≤ maxInt64) : parseNumeric (some n) = .ok n := by
  have hbound : ¬2 ^ 64 ≤ n := by
    unfold maxInt64 at h
    omega
  rw [parseNumeric, parseUint, revertIf, if_neg hbound]
  rfl

theorem authorizationFromIntent_eq {uuid : Uuid} {req : PrismPredictionIntentRequest}
    (hrules : req.Validated) {row : OrderTerms}
    (hrow : createOrderIntentRequest uuid req = .ok row) :
    authorizationFromIntent uuid row = requestAuthorization uuid req := by
  simp only [createOrderIntentRequest, bind_ok_iff, mapError_ok_iff, revertIf_ok_iff,
    exists_const, not_or, not_lt, Except.ok.injEq] at hrow
  obtain ⟨⟨_, hqty, hcap, _, _⟩, tx, htx, market, hmarket, rfl⟩ := hrow
  simp only [authorizationFromIntent, parseNumeric_ok hqty, parseNumeric_ok hcap]
  show newAuthorizationV2 _ _ _ _ _ _ _ _ _ _ _ _ = _
  apply newAuthorizationV2_congr
  · exact normalizeAddress_lowercase hrules.verifyingContract
  · rw [hmarket, uuid.parse_string]
  · rw [htx, uuid.parse_string]

theorem createOrderIntentRequest_bounds {uuid : Uuid} {req : PrismPredictionIntentRequest}
    {row : OrderTerms} (h : createOrderIntentRequest uuid req = .ok row) :
    req.limitYesPrice ≤ maxInt64 ∧ req.qtyShares ≤ maxInt64 ∧ req.collateralCap ≤ maxInt64 ∧
      req.chainId ≤ maxInt64 ∧ req.deadline ≤ maxInt64 := by
  simp only [createOrderIntentRequest, bind_ok_iff, revertIf_ok_iff, exists_const, not_or,
    not_lt] at h
  obtain ⟨⟨hlimit, hqty, hcap, hchain, hdeadline⟩, _⟩ := h
  have hscale : PrismV2.priceScale ≤ maxInt64 := by decide
  exact ⟨hlimit.trans hscale, hqty, hcap, hchain, hdeadline⟩

theorem coderUint_eq {bits v : Nat} (h : v < 2 ^ bits) : coderUint bits v = some (word v) := by
  rw [coderUint, if_pos h]

/-- The web client's words for an intent with the fields of a request. -/
theorem webPreimage_eq (c : Chain) {uuid : Uuid} (huuid : uuid.ReadsHex)
    {i req : PrismPredictionIntentRequest} (hi : SameUpToCase i req) (hrules : req.Validated)
    {a : AuthorizationV2} (ha : AssembledFrom uuid req a) {x : Authorization}
    (hx : a.decoded = some x) (hrange : InRange x) :
    webPreimage c i = some (words (authorizationWords c x)) := by
  have hfields := decodes_of_decoded hx
  have hsideWord : i.side = x.side.toWord := by rw [← hfields.side, ha.side, hi.side]
  have hactionWord : i.action = x.action.toWord := by rw [← hfields.action, ha.action, hi.action]
  have hsmall {value : Nat} (hvalue : value < 2) : value < 2 ^ 8 := hvalue.trans (by norm_num)
  have hvc : coderAddress (['0', 'x'] ++ strip0x i.verifyingContract) =
      some (word x.verifyingContract.val) := by
    apply coderAddress_strip0x hi.verifyingContract hrules.verifyingContract
    rw [← ha.verifyingContract, hfields.verifyingContract]
  have hsignerWord : coderAddress (['0', 'x'] ++ strip0x i.evmAddress) =
      some (word x.signer.val) := by
    apply coderAddress_strip0x hi.evmAddress hrules.evmAddress
    rw [← ha.signer, hfields.signer]
  have huuidWord {s t : Str} (heq : toAsciiLowercase s = toAsciiLowercase t)
      (ht : isUuidV7 t = true) {n : Uint128} (hparse : uuid.parse t = .ok n) :
      (uuidToUint128 s).bind (coderUint 128) = some (word n.val) := by
    obtain ⟨m, hm⟩ := hexNat_uuidDigits ht
    have hread := huuid t m ht hm
    rw [hparse, Except.ok.injEq] at hread
    subst hread
    exact uuidToUint128_of_lowercase heq ht hm
  have hmarketWord := huuidWord hi.marketId hrules.marketId ha.market
  have htxWord := huuidWord hi.txId hrules.txId ha.tx
  have hchain : i.chainId < 2 ^ 256 := by
    rw [hi.chainId, ← ha.chainId, ← hfields.chainId]
    exact hrange.chainId
  have hlimit : i.limitYesPrice < 2 ^ 256 := by
    rw [hi.limitYesPrice, ← ha.limitYesPrice, ← hfields.limitYesPrice]
    exact hrange.limitYesPrice
  have hqty : i.qtyShares < 2 ^ 256 := by
    rw [hi.qtyShares, ← ha.qtyShares, ← hfields.qtyShares]
    exact hrange.qtyShares
  have hcap : i.collateralCap < 2 ^ 256 := by
    rw [hi.collateralCap, ← ha.collateralCap, ← hfields.collateralCap]
    exact hrange.collateralCap
  have hdeadline : i.deadline < 2 ^ 64 := by
    rw [hi.deadline, ← ha.deadline, ← hfields.deadline]
    exact hrange.deadline
  have hsideRange : i.side < 2 ^ 8 := by
    rw [hsideWord]
    cases x.side <;> decide
  have hactionRange : i.action < 2 ^ 8 := by
    rw [hactionWord]
    cases x.action <;> decide
  have hversion : (2 : Nat) < 2 ^ 8 := by norm_num
  rw [words_authorizationWords, webPreimage, coderUint_eq hversion, coderUint_eq hchain, hvc,
    hsignerWord, hmarketWord, htxWord, coderUint_eq hsideRange, coderUint_eq hactionRange,
    coderUint_eq hlimit, coderUint_eq hqty, coderUint_eq hcap, coderUint_eq hdeadline,
    (typehash_eq c).1]
  show some _ = some _
  rw [hsideWord, hactionWord, hi.chainId, hi.limitYesPrice, hi.qtyShares, hi.collateralCap,
    hi.deadline, ← ha.chainId, ← ha.limitYesPrice, ← ha.qtyShares, ← ha.collateralCap,
    ← ha.deadline, ← hfields.chainId, ← hfields.limitYesPrice, ← hfields.qtyShares,
    ← hfields.collateralCap, ← hfields.deadline, ← hfields.marketId, ← hfields.txId]
  simp only [words, tupleWords, hfields.version, ha.version, authorizationVersion,
    List.flatMap_cons,
    List.flatMap_nil, List.append_assoc, List.append_nil]

/-- For an order that the API takes, the web client, the API before and after it stored the
order, and the contract encode the same words, so the bytes a wallet signs are the ones that
admission and settlement check. -/
theorem preimage_agrees {c : Chain} {keccak256 : Bytes → Bytes32}
    (hkeccak : ∀ x, authorizationHash c x = keccak256 (words (authorizationWords c x)))
    {uuid : Uuid} (huuid : uuid.ReadsHex) {req : PrismPredictionIntentRequest}
    (hrules : req.Validated) {a : AuthorizationV2} (ha : requestAuthorization uuid req = .ok a)
    {row : OrderTerms} (hrow : createOrderIntentRequest uuid req = .ok row) :
    ∃ x stored, a.decoded = some x ∧
      (∀ i, SameUpToCase i req → webPreimage c i = some (words (authorizationWords c x))) ∧
      a.preimage c = .ok (words (authorizationWords c x)) ∧
      authorizationFromIntent uuid row = .ok stored ∧ stored.decoded = some x ∧
      stored.preimage c = .ok (words (authorizationWords c x)) ∧
      a.signingMessage c keccak256 = .ok (authorizationMessage c x) ∧
      stored.signingMessage c keccak256 = .ok (authorizationMessage c x) := by
  have hassembled : AssembledFrom uuid req a := newAuthorizationV2_assembled ha
  obtain ⟨_, _, _, _, hdeadline⟩ := createOrderIntentRequest_bounds hrow
  have hdeadlineWord : a.deadline < 2 ^ 64 := by
    rw [hassembled.deadline]
    unfold maxInt64 at hdeadline
    omega
  obtain ⟨x, hx, hrange, hencode⟩ := abiEncode_eq hassembled.valid hdeadlineWord
  have hstored : authorizationFromIntent uuid row = .ok a := by
    rw [authorizationFromIntent_eq hrules hrow, ha]
  have hpreimage : a.preimage c = .ok (words (authorizationWords c x)) := by
    rw [AuthorizationV2.preimage, hencode, (typehash_eq c).2, words_authorizationWords]
    rfl
  have hmessage : a.signingMessage c keccak256 = .ok (authorizationMessage c x) := by
    rw [AuthorizationV2.signingMessage, hpreimage, authorizationMessage, hkeccak]
    rfl
  refine ⟨x, a, hx, ?_, hpreimage, hstored, hx, hpreimage, hmessage, hmessage⟩
  intro i hi
  exact webPreimage_eq c huuid hi hrules hassembled hx hrange

def encodingHashChain (keccak256 : Bytes → Bytes32) : Chain :=
  { PrismV2.sampleChain with keccak := fun values => keccak256 (words values) }

theorem encodingHashChain_hash (keccak256 : Bytes → Bytes32) (x : Authorization) :
    authorizationHash (encodingHashChain keccak256) x =
      keccak256 (words (authorizationWords (encodingHashChain keccak256) x)) := rfl

def sampleRequest : PrismPredictionIntentRequest where
  txId := "01890F3E-7C10-7cc1-98bc-0242AC120003".toList
  net := "testnet".toList
  marketId := "01890f3e-7c10-7cc1-98bc-0242ac120002".toList
  accountId := "0.0.1001".toList
  sig := "c2lnbmF0dXJlLWJ5dGVzLTAx".toList
  publicKey := []
  evmAddress := "AbCdEf0000000000000000000000000000000022".toList
  keyType := 1
  chainId := 296
  verifyingContract := "00000000000000000000000000000000000000aB".toList
  side := 1
  action := 0
  limitYesPrice := 625000
  qtyShares := 10000000
  collateralCap := 2 ^ 63 - 1
  deadline := 2000000000

theorem sampleRequest_validated : sampleRequest.Validated := by
  constructor
  · decide +kernel
  · decide +kernel
  · decide +kernel
  · decide +kernel

theorem preimage_agrees_sample :
    ∃ a row stored, requestAuthorization sampleUuid sampleRequest = .ok a ∧
      createOrderIntentRequest sampleUuid sampleRequest = .ok row ∧
      authorizationFromIntent sampleUuid row = .ok stored ∧
      webPreimage (encodingHashChain Abi.beNat) sampleRequest =
        (stored.preimage (encodingHashChain Abi.beNat)).toOption ∧
      a.preimage (encodingHashChain Abi.beNat) = stored.preimage (encodingHashChain Abi.beNat) := by
  have hchecked : (requestAuthorization sampleUuid sampleRequest).toOption.isSome = true := by
    decide +kernel
  have hinserted : (createOrderIntentRequest sampleUuid sampleRequest).toOption.isSome = true := by
    decide +kernel
  obtain ⟨a, ha⟩ := exists_ok hchecked
  obtain ⟨row, hrow⟩ := exists_ok hinserted
  obtain ⟨x, stored, _, hweb, hrequest, hstored, _, hpreimage, _⟩ :=
    preimage_agrees (encodingHashChain_hash Abi.beNat) sampleUuid_readsHex
      sampleRequest_validated ha hrow
  refine ⟨a, row, stored, ha, hrow, hstored, ?_, ?_⟩
  · rw [hweb sampleRequest ⟨rfl, rfl, rfl, rfl, rfl, rfl, rfl, rfl, rfl, rfl, rfl⟩, hpreimage]
    rfl
  · rw [hrequest, hpreimage]

end PrismBackend.Api
