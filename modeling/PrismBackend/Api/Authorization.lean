import PrismBackend.Lib.Hex
import PrismBackend.Lib.Revert
import PrismBackend.Clob.Matching
import PrismBackend.PrismV2.Types

/-!
# API: authorizations

`authorization_v2.go` and the part of `settlement_v2.go` that assembles an
authorization from an order's fields. The UUID package's parser is a parameter.
-/

namespace PrismBackend.Api

open PrismBackend.Lib PrismBackend.Clob PrismBackend.PrismV2

/-- `uuid.Parse`: the sixteen bytes read as one number, or the package's error text. -/
abbrev UuidParse := Str → Except String Uint128

/-- `strings.TrimPrefix`. -/
def trimPrefix (pre s : Str) : Str := if pre.isPrefixOf s then s.drop pre.length else s

def normalizeAddress (value : Str) : Str :=
  ['0', 'x'] ++ toAsciiLowercase (trimPrefix ['0', 'X'] (trimPrefix ['0', 'x'] value))

/-- `addressBytes`: the twenty bytes read as one number. -/
def addressBytes (value : Str) : Option Address :=
  let value := trimPrefix ['0', 'x'] value
  if value.length ≠ 40 then none else (hexNat value).map (Fin.ofNat (2 ^ 160))

/-- The authorization as the API holds it: addresses are text, enumerations are numbers. -/
structure AuthorizationV2 where
  version : Nat
  chainId : Nat
  verifyingContract : Str
  signer : Str
  marketId : Uint128
  txId : Uint128
  side : Nat
  action : Nat
  limitYesPrice : Nat
  qtyShares : Nat
  collateralCap : Nat
  deadline : Nat

def sideNo : Nat := 1
def actionBuy : Nat := 0
def actionSell : Nat := 1

def validUint256 (v : Nat) : Prop := v < 2 ^ 256

instance (v : Nat) : Decidable (validUint256 v) := inferInstanceAs (Decidable (_ < _))

def AuthorizationV2.validate (a : AuthorizationV2) (now : Nat) : Except String Unit := do
  revertIf (a.version ≠ authorizationVersion) "authorization version must be 2"
  revertIf (a.chainId = 0 ∨ ¬validUint256 a.chainId) "chainId must be a positive uint256"
  revertIf (addressBytes a.verifyingContract = none) "invalid verifyingContract"
  revertIf (addressBytes a.signer = none) "invalid signer"
  revertIf (a.side > sideNo ∨ a.action > actionSell) "invalid side or action"
  revertIf (¬validUint256 a.limitYesPrice ∨ a.limitYesPrice > PrismV2.priceScale)
    "limitYesPrice must be between 0 and 1_000_000"
  revertIf (¬validUint256 a.qtyShares ∨ a.qtyShares = 0) "qtyShares must be a positive uint256"
  revertIf (¬validUint256 a.collateralCap) "collateralCap must be a uint256"
  revertIf (a.deadline ≤ now) "authorization has expired"

def newAuthorizationV2 (parse : UuidParse) (chainId : Nat)
    (verifyingContract signer marketId txId : Str)
    (side action limitYesPrice qtyShares collateralCap deadline : Nat) :
    Except String AuthorizationV2 := do
  let market ← (parse marketId).mapError ("invalid marketId: " ++ ·)
  let tx ← (parse txId).mapError ("invalid txId: " ++ ·)
  revertIf (side > sideNo ∨ action > actionSell) "invalid side or action"
  let a : AuthorizationV2 :=
    { version := authorizationVersion
      chainId
      verifyingContract := normalizeAddress verifyingContract
      signer := normalizeAddress signer
      marketId := market
      txId := tx
      side
      action
      limitYesPrice
      qtyShares
      collateralCap
      deadline }
  a.validate 0
  revertIf (a.action = actionBuy ∧ collateralCap = 0) "collateralCap must be positive for a BUY"
  .ok a

def sideOfWord : Nat → Option Side
  | 0 => some .yes
  | 1 => some .no
  | _ => none

def actionOfWord : Nat → Option Action
  | 0 => some .buy
  | 1 => some .sell
  | _ => none

/-- The tuple that the contract decodes from `ABIEncode`. -/
def AuthorizationV2.decoded (a : AuthorizationV2) : Option Authorization := do
  let verifyingContract ← addressBytes a.verifyingContract
  let signer ← addressBytes a.signer
  let side ← sideOfWord a.side
  let action ← actionOfWord a.action
  return {
    version := a.version
    chainId := a.chainId
    verifyingContract
    signer
    marketId := a.marketId
    txId := a.txId
    side
    action
    limitYesPrice := a.limitYesPrice
    qtyShares := a.qtyShares
    collateralCap := a.collateralCap
    deadline := a.deadline }

/-- The authorization of an order of the CLOB, as it reaches the contract. -/
def signedOrder (parse : UuidParse) (o : CreateOrderRequestClob) : Option Authorization :=
  (newAuthorizationV2 parse o.chainId o.verifyingContract o.evmAddress o.marketId o.txId o.side
    o.action o.limitYesPrice o.qtyShares o.collateralCap o.deadline).toOption.bind
      AuthorizationV2.decoded

/-! ## What an assembled authorization satisfies -/

structure Signs (parse : UuidParse) (o : CreateOrderRequestClob) (x : Authorization) : Prop where
  version : x.version = authorizationVersion
  chainId : x.chainId = o.chainId
  signer : addressBytes (normalizeAddress o.evmAddress) = some x.signer
  marketId : parse o.marketId = .ok x.marketId
  txId : parse o.txId = .ok x.txId
  side : sideOfWord o.side = some x.side
  action : actionOfWord o.action = some x.action
  limitYesPrice : x.limitYesPrice = o.limitYesPrice
  limit_le : x.limitYesPrice ≤ PrismV2.priceScale
  qtyShares : x.qtyShares = o.qtyShares
  qty_ne_zero : x.qtyShares ≠ 0
  collateralCap : x.collateralCap = o.collateralCap
  cap_ne_zero : x.action = .buy → x.collateralCap ≠ 0

theorem actionOfWord_buy {word : Nat} (h : actionOfWord word = some .buy) : word = actionBuy := by
  unfold actionOfWord at h
  split at h
  · rfl
  · exact absurd h (by simp)
  · exact absurd h (by simp)

theorem signs_of_signedOrder {parse : UuidParse} {o : CreateOrderRequestClob} {x : Authorization}
    (h : signedOrder parse o = some x) : Signs parse o x := by
  obtain ⟨a, ha, hdecoded⟩ := Option.bind_eq_some_iff.mp h
  rw [toOption_eq_some_iff] at ha
  simp only [newAuthorizationV2, AuthorizationV2.validate, bind_ok_iff, mapError_ok_iff,
    revertIf_ok_iff, exists_const, not_or, not_and, not_lt, not_not, Except.ok.injEq] at ha
  obtain ⟨market, hmarket, tx, htx, _, ⟨_, _, _, _, _, ⟨_, hlimit⟩, ⟨_, hqty⟩, _⟩, hcap, rfl⟩ := ha
  simp only [AuthorizationV2.decoded, Option.bind_eq_bind, Option.bind_eq_some_iff,
    Option.pure_def, Option.some.injEq] at hdecoded
  obtain ⟨contract, _, signer, hsigner, side, hside, action, haction, rfl⟩ := hdecoded
  refine ⟨rfl, rfl, hsigner, hmarket, htx, hside, haction, rfl, hlimit, rfl, hqty, rfl, ?_⟩
  intro hbuy
  rw [show action = Action.buy from hbuy] at haction
  exact hcap (actionOfWord_buy haction)

/-! ## Addresses -/

/-- The pattern of an address in a request: forty digits and nothing before them. -/
def isHex40 (s : Str) : Prop := s.length = 40 ∧ ∀ ch ∈ s, (hexDigit ch).isSome

instance (s : Str) : Decidable (isHex40 s) :=
  decidable_of_iff (s.length = 40 ∧ (s.all fun ch => (hexDigit ch).isSome) = true)
    (and_congr_right fun _ => List.all_eq_true)

theorem hexDigit_x : hexDigit 'x' = none ∧ hexDigit 'X' = none := by decide

/-- Digits do not begin with a marker that could be trimmed. -/
theorem trimPrefix_hex {s : Str} (h : ∀ ch ∈ s, (hexDigit ch).isSome) {mark : Char}
    (hmark : hexDigit mark = none) : trimPrefix ['0', mark] s = s := by
  unfold trimPrefix
  rw [if_neg]
  intro hprefix
  rw [List.isPrefixOf_iff_prefix] at hprefix
  have hmem : mark ∈ s := hprefix.subset (by simp)
  have hdigit := h mark hmem
  rw [hmark] at hdigit
  exact absurd hdigit (by decide)

theorem trimStart0x_hex {s : Str} (h : ∀ ch ∈ s, (hexDigit ch).isSome) : trimStart0x s = s := by
  unfold trimStart0x
  split
  · next rest =>
    have hdigit := h 'x' (by simp)
    rw [hexDigit_x.1] at hdigit
    exact absurd hdigit (by decide)
  · rfl

theorem addressBytes_normalize {s : Str} (h : isHex40 s) {account : Address}
    (haddress : addressBytes (normalizeAddress s) = some account) :
    hexNat s = some account.val := by
  have hlower : trimPrefix ['0', 'x'] (normalizeAddress s) = toAsciiLowercase s := by
    unfold normalizeAddress
    rw [trimPrefix_hex h.2 hexDigit_x.1, trimPrefix_hex h.2 hexDigit_x.2]
    rfl
  simp only [addressBytes, hlower] at haddress
  have hlength : (toAsciiLowercase s).length = 40 := by
    rw [toAsciiLowercase, List.length_map, h.1]
  rw [if_neg (not_not.mpr hlength), toAsciiLowercase, hexNat_map_toLower] at haddress
  obtain ⟨n, hn, rfl⟩ := Option.map_eq_some_iff.mp haddress
  have hbound : n < 2 ^ 160 := by
    have hlt := hexNat_lt hn
    rw [h.1] at hlt
    exact hlt.trans_le (by decide)
  rw [hn, Fin.val_ofNat, Nat.mod_eq_of_lt hbound]

theorem sameTrader_of_signer {parse : UuidParse} {o o' : CreateOrderRequestClob}
    {x x' : Authorization} (ho : isHex40 o.evmAddress) (ho' : isHex40 o'.evmAddress)
    (hx : Signs parse o x) (hx' : Signs parse o' x') (h : x.signer = x'.signer) :
    sameTrader o o' = true := by
  have hvalue := addressBytes_normalize ho hx.signer
  have hvalue' := addressBytes_normalize ho' hx'.signer
  rw [← h] at hvalue'
  have hlower : toAsciiLowercase o.evmAddress = toAsciiLowercase o'.evmAddress :=
    map_toLower_eq_of_hexNat (ho.1.trans ho'.1.symm) hvalue hvalue'
  unfold sameTrader
  simp only [trimStart0x_hex ho.2, trimStart0x_hex ho'.2, hlower, beq_self_eq_true, Bool.true_or]

end PrismBackend.Api
