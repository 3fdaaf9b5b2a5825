import Mathlib.Tactic.NormNum
import Mathlib.Tactic.Tauto
import PrismBackend.Api.Database

/-!
# API: from a request to a row and back

The request message with the rules of its text fields, the row that
`CreateOrderIntentRequestWithOutbox` writes, and the authorization and the CLOB
order that `settlementV2.go` rebuilds from a row.
-/

namespace PrismBackend.Api

open PrismBackend.Lib PrismBackend.Clob PrismBackend.PrismV2

structure PrismPredictionIntentRequest where
  txId : Str
  net : Str
  marketId : Str
  accountId : Str
  sig : Str
  publicKey : Str
  evmAddress : Str
  keyType : Nat
  chainId : Nat
  verifyingContract : Str
  side : Nat
  action : Nat
  limitYesPrice : Nat
  qtyShares : Nat
  collateralCap : Nat
  deadline : Nat

/-! ## Patterns -/

/-- A pattern without repetition: one class of characters for each place. -/
def matchesPattern : List (Char → Bool) → Str → Bool
  | [], [] => true
  | cls :: pattern, ch :: s => cls ch && matchesPattern pattern s
  | _, _ => false

def isHexDigit (ch : Char) : Bool := (hexDigit ch).isSome
def isDash (ch : Char) : Bool := ch == '-'
def isSeven (ch : Char) : Bool := ch == '7'
def isVariant (ch : Char) : Bool := ['8', '9', 'a', 'b'].contains ch.toLower

/-- The pattern of a UUIDv7, digits of either case. -/
def uuidV7Pattern : List (Char → Bool) :=
  List.replicate 8 isHexDigit ++ isDash :: List.replicate 4 isHexDigit ++
    isDash :: isSeven :: List.replicate 3 isHexDigit ++
    isDash :: isVariant :: List.replicate 3 isHexDigit ++
    isDash :: List.replicate 12 isHexDigit

def isUuidV7 (s : Str) : Bool := matchesPattern uuidV7Pattern s

def uuidDigits (s : Str) : Str := s.filter (· != '-')

/-- `uuid.Parse` reads the digits of the text, of either case. -/
def Uuid.ReadsHex (uuid : Uuid) : Prop :=
  ∀ (s : Str) (n : Uint128), isUuidV7 s = true → hexNat (uuidDigits s) = some n.val →
    uuid.parse s = .ok n

/-- The rules of the request's text fields that the authorization uses. -/
structure PrismPredictionIntentRequest.Validated (req : PrismPredictionIntentRequest) : Prop where
  txId : isUuidV7 req.txId = true
  marketId : isUuidV7 req.marketId = true
  evmAddress : isHex40 req.evmAddress
  verifyingContract : isHex40 req.verifyingContract

/-! ## The row of a request -/

def maxInt64 : Nat := 2 ^ 63 - 1

/-- The conversion of a 32-bit number to a signed one. -/
def int32 (n : Nat) : Int := Int.bmod n (2 ^ 32)

/-- The columns that `CreateOrderIntentRequestWithOutbox` inserts. -/
def createOrderIntentRequest (uuid : Uuid) (req : PrismPredictionIntentRequest) :
    Except String OrderTerms := do
  revertIf (req.limitYesPrice > PrismV2.priceScale ∨ req.qtyShares > maxInt64 ∨
    req.collateralCap > maxInt64 ∨ req.chainId > maxInt64 ∨ req.deadline > maxInt64)
    "authorization field out of range"
  let txUUID ← (uuid.parse req.txId).mapError ("invalid txId uuid: " ++ ·)
  let marketUUID ← (uuid.parse req.marketId).mapError ("invalid marketId uuid: " ++ ·)
  .ok {
    txID := txUUID
    net := req.net
    marketID := marketUUID
    accountID := req.accountId
    sig := req.sig
    publicKeyHex := req.publicKey
    evmaddress := req.evmAddress
    keytype := int32 req.keyType
    protocolVersion := 2
    chainID := some req.chainId
    verifyingContract := some (toAsciiLowercase req.verifyingContract)
    side := some req.side
    action := some req.action
    limitYesPrice := some req.limitYesPrice
    qtyShares := some req.qtyShares
    collateralCap := some req.collateralCap
    deadline := some req.deadline }

/-- The authorization that `CreatePredictionIntent` checks, from the request. -/
def requestAuthorization (uuid : Uuid) (req : PrismPredictionIntentRequest) :
    Except String AuthorizationV2 :=
  newAuthorizationV2 uuid.parse req.chainId req.verifyingContract req.evmAddress req.marketId
    req.txId req.side req.action req.limitYesPrice req.qtyShares req.collateralCap req.deadline

/-! ## Reading a row -/

/-- `strconv.ParseUint` on the text of a non-negative numeric column. -/
def parseUint (n : Nat) : Except String Nat := do
  revertIf (2 ^ 64 ≤ n) ("strconv.ParseUint: parsing \"" ++ toString n ++ "\": value out of range")
  .ok n

def parseNumeric : Option Nat → Except String Nat
  | none => .error "missing value"
  | some n => parseUint n

/-- The number that `parseNumeric` returns even with an error: none is zero, and
`strconv.ParseUint` saturates. -/
def numericValue (n : Option Nat) : Nat := min (n.getD 0) (2 ^ 64 - 1)

/-- Rebuilds the signed authorization from a persisted order. -/
def authorizationFromIntent (uuid : Uuid) (row : OrderTerms) : Except String AuthorizationV2 :=
  match row.chainID, row.verifyingContract, row.side, row.action, row.limitYesPrice,
      row.deadline with
  | some chainID, some verifyingContract, some side, some action, some limitYesPrice,
      some deadline => do
    let qty ← (parseNumeric row.qtyShares).mapError ("qty_shares: " ++ ·)
    let collateralCap ← (parseNumeric row.collateralCap).mapError ("collateral_cap: " ++ ·)
    newAuthorizationV2 uuid.parse chainID verifyingContract row.evmaddress
      (uuid.string row.marketID) (uuid.string row.txID) side action limitYesPrice qty
      collateralCap deadline
  | _, _, _, _, _, _ => .error "missing V2 authorization fields"

/-- The CLOB's representation of a persisted order and its fill state. -/
def clobOrderFromIntent (uuid : Uuid) (row : PredictionIntent) :
    Except String CreateOrderRequestClob := do
  let a ← authorizationFromIntent uuid row.toOrderTerms
  let sharesFilled ← (parseUint row.sharesFilled).mapError ("shares_filled: " ++ ·)
  let collateralFilled ← (parseUint row.collateralFilled).mapError ("collateral_filled: " ++ ·)
  .ok {
    txId := uuid.string row.txID
    net := row.net
    marketId := uuid.string row.marketID
    accountId := row.accountID
    sig := row.sig
    publicKey := row.publicKeyHex
    evmAddress := row.evmaddress
    keyType := row.keytype
    chainId := a.chainId
    verifyingContract := trimPrefix ['0', 'x'] a.verifyingContract
    side := a.side
    action := a.action
    limitYesPrice := a.limitYesPrice
    qtyShares := a.qtyShares
    collateralCap := a.collateralCap
    deadline := a.deadline
    sharesFilled
    collateralFilled }

/-! ## What an authorization is assembled from -/

/-- What `NewAuthorizationV2` returns: the fields it was given, in a valid authorization. -/
structure Assembled (parse : UuidParse) (chainId : Nat)
    (verifyingContract signer marketId txId : Str)
    (side action limitYesPrice qtyShares collateralCap deadline : Nat) (a : AuthorizationV2) :
    Prop where
  market : parse marketId = .ok a.marketId
  tx : parse txId = .ok a.txId
  valid : a.validate 0 = .ok ()
  version : a.version = authorizationVersion
  chainId : a.chainId = chainId
  verifyingContract : a.verifyingContract = normalizeAddress verifyingContract
  signer : a.signer = normalizeAddress signer
  side : a.side = side
  action : a.action = action
  limitYesPrice : a.limitYesPrice = limitYesPrice
  qtyShares : a.qtyShares = qtyShares
  collateralCap : a.collateralCap = collateralCap
  deadline : a.deadline = deadline
  cap_ne_zero : a.action = Api.actionBuy → a.collateralCap ≠ 0

theorem newAuthorizationV2_assembled {parse : UuidParse} {chainId : Nat}
    {verifyingContract signer marketId txId : Str}
    {side action limitYesPrice qtyShares collateralCap deadline : Nat} {a : AuthorizationV2}
    (h : newAuthorizationV2 parse chainId verifyingContract signer marketId txId side action
      limitYesPrice qtyShares collateralCap deadline = .ok a) :
    Assembled parse chainId verifyingContract signer marketId txId side action limitYesPrice
      qtyShares collateralCap deadline a := by
  simp only [newAuthorizationV2, bind_ok_iff, mapError_ok_iff, revertIf_ok_iff, exists_const,
    not_and, Except.ok.injEq] at h
  obtain ⟨market, hmarket, tx, htx, _, _, hvalid, hcap, rfl⟩ := h
  exact ⟨hmarket, htx, hvalid, rfl, rfl, rfl, rfl, rfl, rfl, rfl, rfl, rfl, rfl, hcap⟩

/-! ## UUID texts -/

/-- Where every class of a pattern is the dash or takes digits only, the digits of a matching
text are as many as the classes that take them. -/
theorem uuidDigits_of_matches {pattern : List (Char → Bool)} {s : Str}
    (hpattern : ∀ cls ∈ pattern, cls '-' = true → cls = isDash)
    (hclass : ∀ cls ∈ pattern, ∀ ch, cls ch = true → ch ≠ '-' → (hexDigit ch).isSome)
    (h : matchesPattern pattern s = true) :
    (uuidDigits s).length = (pattern.filter fun cls => !cls '-').length ∧
      ∀ ch ∈ uuidDigits s, (hexDigit ch).isSome := by
  induction pattern generalizing s with
  | nil =>
      cases s with
      | nil => exact ⟨rfl, fun ch hch => absurd hch (by simp [uuidDigits])⟩
      | cons ch s => exact absurd h (by simp [matchesPattern])
  | cons cls pattern ih =>
      cases s with
      | nil => exact absurd h (by simp [matchesPattern])
      | cons ch s =>
          rw [matchesPattern, Bool.and_eq_true] at h
          have hrest := ih (fun cls' hmem => hpattern cls' (List.mem_cons_of_mem _ hmem))
            (fun cls' hmem => hclass cls' (List.mem_cons_of_mem _ hmem)) h.2
          by_cases hdash : ch = '-'
          · subst hdash
            have hskip : uuidDigits ('-' :: s) = uuidDigits s := by simp [uuidDigits]
            rw [hskip, List.filter_cons_of_neg (by simp [h.1])]
            exact hrest
          · have hkeep : uuidDigits (ch :: s) = ch :: uuidDigits s := by
              simp [uuidDigits, hdash]
            have hcls : cls '-' = false := by
              by_contra hne
              have heq := hpattern cls List.mem_cons_self (by simpa using hne)
              rw [heq] at h
              exact hdash (by simpa [isDash] using h.1)
            rw [hkeep, List.filter_cons_of_pos (by simp [hcls]), List.length_cons,
              List.length_cons, hrest.1]
            refine ⟨rfl, ?_⟩
            intro other hother
            rcases List.mem_cons.mp hother with rfl | hother
            · exact hclass cls List.mem_cons_self other h.1 hdash
            · exact hrest.2 other hother

theorem mem_uuidV7Pattern {cls : Char → Bool} (h : cls ∈ uuidV7Pattern) :
    cls = isHexDigit ∨ cls = isDash ∨ cls = isSeven ∨ cls = isVariant := by
  simp only [uuidV7Pattern, List.mem_append, List.mem_cons, List.mem_replicate] at h
  tauto

theorem isVariant_digit {ch : Char} (h : isVariant ch = true) : (hexDigit ch).isSome := by
  simp only [isVariant, List.contains_eq_mem, decide_eq_true_eq, List.mem_cons,
    List.not_mem_nil, or_false] at h
  rw [← hexDigit_toLower]
  rcases h with h | h | h | h
  all_goals
    rw [h]
    decide

theorem uuidDigits_spec {s : Str} (h : isUuidV7 s = true) :
    (uuidDigits s).length = 32 ∧ ∀ ch ∈ uuidDigits s, (hexDigit ch).isSome := by
  apply uuidDigits_of_matches _ _ h
  · intro cls hcls hdash
    rcases mem_uuidV7Pattern hcls with rfl | rfl | rfl | rfl
    · exact absurd hdash (by decide)
    · rfl
    · exact absurd hdash (by decide)
    · exact absurd hdash (by decide)
  · intro cls hcls ch hch hdash
    rcases mem_uuidV7Pattern hcls with rfl | rfl | rfl | rfl
    · exact hch
    · exact absurd (by simpa [isDash] using hch) hdash
    · have hseven : ch = '7' := by simpa [isSeven] using hch
      rw [hseven]
      decide
    · exact isVariant_digit hch

theorem hexNat_uuidDigits {s : Str} (h : isUuidV7 s = true) :
    ∃ n : Uint128, hexNat (uuidDigits s) = some n.val := by
  obtain ⟨hlength, hdigits⟩ := uuidDigits_spec h
  obtain ⟨n, hn⟩ := hexNat_isSome hdigits
  have hbound : n < 2 ^ 128 := by
    calc n < 16 ^ (uuidDigits s).length := hexNat_lt hn
      _ = 2 ^ 128 := by rw [hlength]; norm_num
  exact ⟨⟨n, hbound⟩, hn⟩

theorem toLower_bne_dash (ch : Char) : (ch.toLower != '-') = (ch != '-') := by
  by_cases hdash : ch = '-'
  · subst hdash
    rfl
  · have hlower : ch.toLower ≠ '-' := by
      intro heq
      unfold Char.toLower at heq
      split at heq
      · next h =>
        have hval := congrArg (fun c : Char => c.val.toNat) heq
        simp only [UInt32.le_iff_toNat_le, ge_iff_le, UInt32.toNat_add] at h hval
        have hlow : 'A'.val.toNat = 65 := rfl
        have hhigh : 'Z'.val.toNat = 90 := rfl
        have hshift : ('a'.val - 'A'.val).toNat = 32 := rfl
        have hdashVal : '-'.val.toNat = 45 := rfl
        omega
      · exact hdash heq
    rw [bne_iff_ne.mpr hdash, bne_iff_ne.mpr hlower]

theorem uuidDigits_toLower (s : Str) :
    uuidDigits (toAsciiLowercase s) = (uuidDigits s).map Char.toLower := by
  induction s with
  | nil => rfl
  | cons ch s ih =>
      rw [toAsciiLowercase] at ih
      simp only [uuidDigits, toAsciiLowercase, List.map_cons, List.filter_cons,
        toLower_bne_dash] at ih ⊢
      split
      · rw [List.map_cons, ih]
      · exact ih

/-! ## A sample package -/

def uuidText (u : Uint128) : Str :=
  let digits := hexText 32 u.val
  digits.take 8 ++ '-' :: ((digits.drop 8).take 4 ++ '-' :: ((digits.drop 12).take 4 ++
    '-' :: ((digits.drop 16).take 4 ++ '-' :: digits.drop 20)))

def parseUuidText (s : Str) : Except String Uint128 :=
  match hexNat (uuidDigits s) with
  | some n => if h : n < 2 ^ 128 then .ok ⟨n, h⟩ else .error "invalid UUID length"
  | none => .error "invalid UUID format"

theorem uuidDigits_append (s t : Str) : uuidDigits (s ++ t) = uuidDigits s ++ uuidDigits t :=
  List.filter_append s t

theorem uuidDigits_dash (s : Str) : uuidDigits ('-' :: s) = uuidDigits s := by simp [uuidDigits]

theorem uuidDigits_hex {s : Str} (h : ∀ ch ∈ s, (hexDigit ch).isSome) : uuidDigits s = s := by
  rw [uuidDigits, List.filter_eq_self]
  intro ch hch
  rw [bne_iff_ne]
  rintro rfl
  exact absurd (h _ hch) (by decide)

theorem uuidDigits_uuidText (u : Uint128) : uuidDigits (uuidText u) = hexText 32 u.val := by
  let digits := hexText 32 u.val
  have hdigits : ∀ ch ∈ digits, (hexDigit ch).isSome :=
    isSome_of_hexNat (hexNat_hexText 32 u.val)
  have htake (n k : Nat) : uuidDigits ((digits.drop n).take k) = (digits.drop n).take k :=
    uuidDigits_hex fun ch hch => hdigits ch (List.mem_of_mem_drop (List.mem_of_mem_take hch))
  have hfirst : uuidDigits (digits.take 8) = digits.take 8 :=
    uuidDigits_hex fun ch hch => hdigits ch (List.mem_of_mem_take hch)
  have hlast : uuidDigits (digits.drop 20) = digits.drop 20 :=
    uuidDigits_hex fun ch hch => hdigits ch (List.mem_of_mem_drop hch)
  have hjoin (n k : Nat) : (digits.drop n).take k ++ digits.drop (n + k) = digits.drop n := by
    rw [← List.drop_drop, List.take_append_drop]
  calc uuidDigits (uuidText u) = digits.take 8 ++ ((digits.drop 8).take 4 ++
        ((digits.drop 12).take 4 ++ ((digits.drop 16).take 4 ++ digits.drop 20))) := by
        simp only [uuidText, uuidDigits_append, uuidDigits_dash]
        rw [hfirst, htake, htake, htake, hlast]
    _ = hexText 32 u.val := by
        rw [hjoin 16 4, hjoin 12 4, hjoin 8 4, List.take_append_drop]

def sampleUuid : Uuid where
  parse := parseUuidText
  string := uuidText
  parse_string := by
    intro u
    rw [parseUuidText, uuidDigits_uuidText, hexNat_hexText]
    exact dif_pos u.isLt

theorem sampleUuid_readsHex : sampleUuid.ReadsHex := by
  intro s n _ hn
  show parseUuidText s = .ok n
  rw [parseUuidText, hn]
  exact dif_pos n.isLt

end PrismBackend.Api
