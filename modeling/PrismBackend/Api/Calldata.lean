import Mathlib.Data.Nat.Digits.Lemmas
import PrismBackend.Lib.Abi
import PrismBackend.PrismV2.Runs
import PrismBackend.Api.Authorization

/-!
# API: the calldata of a settlement

`ABIEncode` and `EncodeSettleCalldata`, byte by byte, and what the contract
decodes from the bytes they produce. Keccak is a parameter.
-/

namespace PrismBackend.Api

open PrismBackend.Lib PrismBackend.Clob PrismBackend.PrismV2
open PrismBackend.Lib.Abi (beBytes word)

/-! ## The encoder -/

/-- `big.Int.Bytes`: no leading zeros. -/
def bigBytes (v : Nat) : Bytes := ((Nat.digits 256 v).map UInt8.ofNat).reverse

/-- `leftPad`; its callers never pass more than `width` bytes. -/
def leftPad (src : Bytes) (width : Nat) : Bytes := List.replicate (width - src.length) 0 ++ src

def uintWord (v : Nat) : Bytes := leftPad (bigBytes v) 32

/-- The bytes that `addressBytes` returns, none for a text it refuses. -/
def addressField (value : Str) : Bytes :=
  ((addressBytes value).map fun account => beBytes 20 account.val).getD []

def AuthorizationV2.abiEncode (a : AuthorizationV2) : Except String Bytes := do
  a.validate 0
  .ok (uintWord a.version ++ uintWord a.chainId ++ leftPad (addressField a.verifyingContract) 32 ++
    leftPad (addressField a.signer) 32 ++ leftPad (beBytes 16 a.marketId.val) 32 ++
    leftPad (beBytes 16 a.txId.val) 32 ++ uintWord a.side ++ uintWord a.action ++
    uintWord a.limitYesPrice ++ uintWord a.qtyShares ++ uintWord a.collateralCap ++
    uintWord a.deadline)

def settleSignature : Bytes := utf8
  "settle((uint8,uint256,address,address,uint128,uint128,uint8,uint8,uint256,uint256,uint256,uint64),bytes,(uint8,uint256,address,address,uint128,uint128,uint8,uint8,uint256,uint256,uint256,uint64),bytes,uint256,uint256,bytes32)"

def encodeBytes (value : Bytes) : Bytes :=
  let padded := (value.length + 31) / 32 * 32
  uintWord value.length ++ (value ++ List.replicate (padded - value.length) 0)

def headWords : Nat := 12 + 1 + 12 + 1 + 3

def encodeSettleCalldata (keccak256 : Bytes → Bytes) (a : AuthorizationV2) (signatureA : Bytes)
    (b : AuthorizationV2) (signatureB : Bytes) (fillShares executionYesPrice : Nat)
    (matchId : Bytes32) : Except String Bytes := do
  let tupleA ← a.abiEncode.mapError ("authorization a: " ++ ·)
  let tupleB ← b.abiEncode.mapError ("authorization b: " ++ ·)
  let offsetA := headWords * 32
  let offsetB := offsetA + (encodeBytes signatureA).length
  .ok ((keccak256 settleSignature).take 4 ++ tupleA ++ uintWord offsetA ++ tupleB ++
    uintWord offsetB ++ uintWord fillShares ++ uintWord executionYesPrice ++ bytes32 matchId ++
    encodeBytes signatureA ++ encodeBytes signatureB)

/-- The arguments of one call of `EncodeSettleCalldata`. -/
structure SettleArgs where
  a : AuthorizationV2
  signatureA : Bytes
  b : AuthorizationV2
  signatureB : Bytes
  fillShares : Nat
  executionYesPrice : Nat
  matchId : Bytes32

def SettleArgs.calldata (keccak256 : Bytes → Bytes) (args : SettleArgs) : Except String Bytes :=
  encodeSettleCalldata keccak256 args.a args.signatureA args.b args.signatureB args.fillShares
    args.executionYesPrice args.matchId

def SettleArgs.call (args : SettleArgs) : Option Call := do
  let a ← args.a.decoded
  let b ← args.b.decoded
  return .settle a args.signatureA b args.signatureB args.fillShares args.executionYesPrice
    args.matchId

/-- Valid authorizations, and values that their Go types hold: the calldata is one slice, whose
length is an `int`. -/
structure SettleArgs.Valid (args : SettleArgs) : Prop where
  a : args.a.validate 0 = .ok ()
  b : args.b.validate 0 = .ok ()
  deadlineA : args.a.deadline < 2 ^ 64
  deadlineB : args.b.deadline < 2 ^ 64
  fillShares : args.fillShares < 2 ^ 64
  executionYesPrice : args.executionYesPrice < 2 ^ 64
  matchId : args.matchId < 2 ^ 256
  slice : 4 + headWords * 32 + (encodeBytes args.signatureA).length +
    (encodeBytes args.signatureB).length < 2 ^ 63

/-! ## The decoder -/

/-- The canonical types of the members of the contract's `Authorization`. -/
def authorizationTypes : String :=
  "(uint8,uint256,address,address,uint128,uint128,uint8,uint8,uint256,uint256,uint256,uint64)"

/-- The canonical signature of `settle` in the contract. -/
def settleCanonical : Bytes :=
  utf8 "settle(" ++ utf8 authorizationTypes ++ utf8 ",bytes," ++ utf8 authorizationTypes ++
    utf8 ",bytes,uint256,uint256,bytes32)"

theorem settleSignature_eq_canonical : settleSignature = settleCanonical := by decide +kernel

def settleShapes : List Abi.Shape :=
  [.static 12, .dynamic, .static 12, .dynamic, .static 3]

def addressOfWord (w : Nat) : Option Address :=
  if h : w < 2 ^ 160 then some ⟨w, h⟩ else none

def uint128OfWord (w : Nat) : Option Uint128 :=
  if h : w < 2 ^ 128 then some ⟨w, h⟩ else none

/-- A decoded tuple: a member that does not fit its type is refused. -/
def authorizationOfWords : List Nat → Option Authorization
  | [version, chainId, verifyingContract, signer, marketId, txId, side, action, limitYesPrice,
      qtyShares, collateralCap, deadline] => do
    let verifyingContract ← addressOfWord verifyingContract
    let signer ← addressOfWord signer
    let marketId ← uint128OfWord marketId
    let txId ← uint128OfWord txId
    let side ← sideOfWord side
    let action ← actionOfWord action
    if version < 2 ^ 8 ∧ deadline < 2 ^ 64 then
      return {
        version
        chainId
        verifyingContract
        signer
        marketId
        txId
        side
        action
        limitYesPrice
        qtyShares
        collateralCap
        deadline }
    else none
  | _ => none

def settleOfComponents : List Abi.Component → Option Call
  | [.static a, .dynamic signatureA, .static b, .dynamic signatureB,
      .static [fillShares, executionYesPrice, matchId]] => do
    let a ← authorizationOfWords a
    let b ← authorizationOfWords b
    return .settle a signatureA b signatureB fillShares executionYesPrice matchId
  | _ => none

/-- The call that the contract makes of calldata with the selector of `settle`. -/
def decodeSettle (keccak256 : Bytes → Bytes) (data : Bytes) : Option Call :=
  if data.take 4 = (keccak256 settleCanonical).take 4 then
    (Abi.decode settleShapes (data.drop 4)).bind settleOfComponents
  else none

/-! ## Words -/

theorem bigBytes_eq (v : Nat) : bigBytes v = beBytes (Nat.digits 256 v).length v := by
  induction v using Nat.strong_induction_on with
  | _ v ih =>
      rcases Nat.eq_zero_or_pos v with hzero | hpos
      · subst hzero
        rfl
      · have hdigits : Nat.digits 256 v = v % 256 :: Nat.digits 256 (v / 256) :=
          Nat.digits_def' (by decide) hpos
        have hrest := ih (v / 256) (Nat.div_lt_self hpos (by decide))
        have hbyte : UInt8.ofNat (v % 256) = UInt8.ofNat v := by
          apply UInt8.toNat.inj
          simp
        rw [bigBytes] at hrest ⊢
        rw [hdigits, List.map_cons, List.reverse_cons, hrest, List.length_cons, beBytes, hbyte]

theorem leftPad_beBytes {width v : Nat} (hwidth : width ≤ 32) (h : v < 256 ^ width) :
    leftPad (beBytes width v) 32 = word v := by
  have hadd := Abi.beBytes_add (32 - width) h
  rw [Nat.sub_add_cancel hwidth] at hadd
  rw [leftPad, Abi.length_beBytes, word, hadd]

theorem uintWord_eq {v : Nat} (h : v < 2 ^ 256) : uintWord v = word v := by
  have hpow : v < 256 ^ 32 := h.trans_eq (by norm_num)
  have hlength : (Nat.digits 256 v).length ≤ 32 :=
    Nat.digits_length_le_iff (by decide) v |>.mpr hpow
  rw [uintWord, bigBytes_eq]
  apply leftPad_beBytes hlength
  exact Nat.lt_base_pow_length_digits (by decide)

theorem bytes32_eq (h : Bytes32) : bytes32 h = word h := by
  rw [word, Abi.beBytes_eq_map]
  rfl

theorem addressField_word {value : Str} {account : Address}
    (h : addressBytes value = some account) :
    leftPad (addressField value) 32 = word account.val := by
  rw [addressField, h]
  apply leftPad_beBytes (by decide)
  exact account.isLt.trans_eq (by norm_num)

theorem uuid_word (id : Uint128) : leftPad (beBytes 16 id.val) 32 = word id.val := by
  apply leftPad_beBytes (by decide)
  exact id.isLt.trans_eq (by norm_num)

theorem encodeBytes_eq {value : Bytes} (h : value.length < 2 ^ 63) :
    encodeBytes value = (Abi.Component.dynamic value).tail := by
  have hpadding : (value.length + 31) / 32 * 32 - value.length =
      (32 - value.length % 32) % 32 := by omega
  have hlength : value.length < 2 ^ 256 := h.trans (by norm_num)
  simp only [encodeBytes, Abi.Component.tail, Abi.padded, uintWord_eq hlength, hpadding]

/-! ## Authorizations -/

/-- The words of an authorization in an encoding of its tuple. -/
def tupleWords (x : Authorization) : List Nat :=
  [x.version, x.chainId, x.verifyingContract.val, x.signer.val, x.marketId.val, x.txId.val,
    x.side.toWord, x.action.toWord, x.limitYesPrice, x.qtyShares, x.collateralCap, x.deadline]

structure InRange (x : Authorization) : Prop where
  version : x.version < 2 ^ 8
  chainId : x.chainId < 2 ^ 256
  limitYesPrice : x.limitYesPrice < 2 ^ 256
  qtyShares : x.qtyShares < 2 ^ 256
  collateralCap : x.collateralCap < 2 ^ 256
  deadline : x.deadline < 2 ^ 64

theorem sideOfWord_toWord (side : Side) : sideOfWord side.toWord = some side := by
  cases side <;> rfl

theorem actionOfWord_toWord (action : Action) : actionOfWord action.toWord = some action := by
  cases action <;> rfl

theorem toWord_of_sideOfWord {w : Nat} {side : Side} (h : sideOfWord w = some side) :
    side.toWord = w := by
  unfold sideOfWord at h
  split at h
  · cases h
    rfl
  · cases h
    rfl
  · exact absurd h (by simp)

theorem toWord_of_actionOfWord {w : Nat} {action : Action} (h : actionOfWord w = some action) :
    action.toWord = w := by
  unfold actionOfWord at h
  split at h
  · cases h
    rfl
  · cases h
    rfl
  · exact absurd h (by simp)

/-- An authorization and the tuple that the contract makes of it. -/
structure Decodes (a : AuthorizationV2) (x : Authorization) : Prop where
  version : x.version = a.version
  chainId : x.chainId = a.chainId
  verifyingContract : addressBytes a.verifyingContract = some x.verifyingContract
  signer : addressBytes a.signer = some x.signer
  marketId : x.marketId = a.marketId
  txId : x.txId = a.txId
  side : a.side = x.side.toWord
  action : a.action = x.action.toWord
  limitYesPrice : x.limitYesPrice = a.limitYesPrice
  qtyShares : x.qtyShares = a.qtyShares
  collateralCap : x.collateralCap = a.collateralCap
  deadline : x.deadline = a.deadline

theorem decodes_of_decoded {a : AuthorizationV2} {x : Authorization} (h : a.decoded = some x) :
    Decodes a x := by
  simp only [AuthorizationV2.decoded, Option.bind_eq_bind, Option.bind_eq_some_iff,
    Option.pure_def, Option.some.injEq] at h
  obtain ⟨contract, hcontract, signer, hsigner, side, hside, action, haction, rfl⟩ := h
  exact ⟨rfl, rfl, hcontract, hsigner, rfl, rfl, (toWord_of_sideOfWord hside).symm,
    (toWord_of_actionOfWord haction).symm, rfl, rfl, rfl, rfl⟩

theorem addressOfWord_val (account : Address) : addressOfWord account.val = some account := by
  rw [addressOfWord, dif_pos account.isLt]

theorem uint128OfWord_val (id : Uint128) : uint128OfWord id.val = some id := by
  rw [uint128OfWord, dif_pos id.isLt]

theorem authorizationOfWords_tupleWords {x : Authorization} (h : InRange x) :
    authorizationOfWords (tupleWords x) = some x := by
  have hrange : x.version < 2 ^ 8 ∧ x.deadline < 2 ^ 64 := ⟨h.version, h.deadline⟩
  simp only [tupleWords, authorizationOfWords, addressOfWord_val, uint128OfWord_val,
    sideOfWord_toWord, actionOfWord_toWord, Option.bind_eq_bind, Option.bind_some, if_pos hrange]
  rfl

theorem toWord_lt (x : Authorization) : x.side.toWord < 2 ∧ x.action.toWord < 2 := by
  constructor
  · cases x.side <;> decide
  · cases x.action <;> decide

theorem tupleWords_lt {x : Authorization} (h : InRange x) :
    ∀ value ∈ tupleWords x, value < 2 ^ 256 := by
  have haddress (account : Address) : account.val < 2 ^ 256 := account.isLt.trans (by norm_num)
  have huuid (id : Uint128) : id.val < 2 ^ 256 := id.isLt.trans (by norm_num)
  have hsmall {value : Nat} (hvalue : value < 2) : value < 2 ^ 256 := hvalue.trans (by norm_num)
  intro value hvalue
  simp only [tupleWords, List.mem_cons, List.not_mem_nil, or_false] at hvalue
  rcases hvalue with rfl | rfl | rfl | rfl | rfl | rfl | rfl | rfl | rfl | rfl | rfl | rfl
  · exact h.version.trans (by norm_num)
  · exact h.chainId
  · exact haddress _
  · exact haddress _
  · exact huuid _
  · exact huuid _
  · exact hsmall (toWord_lt x).1
  · exact hsmall (toWord_lt x).2
  · exact h.limitYesPrice
  · exact h.qtyShares
  · exact h.collateralCap
  · exact h.deadline.trans (by norm_num)

theorem sideOfWord_of_le {side : Nat} (h : side ≤ sideNo) :
    ∃ x, sideOfWord side = some x ∧ x.toWord = side := by
  have hcases : side = 0 ∨ side = 1 := by
    unfold sideNo at h
    omega
  rcases hcases with rfl | rfl
  · exact ⟨.yes, rfl, rfl⟩
  · exact ⟨.no, rfl, rfl⟩

theorem actionOfWord_of_le {action : Nat} (h : action ≤ actionSell) :
    ∃ x, actionOfWord action = some x ∧ x.toWord = action := by
  have hcases : action = 0 ∨ action = 1 := by
    unfold actionSell at h
    omega
  rcases hcases with rfl | rfl
  · exact ⟨.buy, rfl, rfl⟩
  · exact ⟨.sell, rfl, rfl⟩

/-- A valid authorization is one tuple of the contract, and `ABIEncode` is its encoding. -/
theorem abiEncode_eq {a : AuthorizationV2} (hvalid : a.validate 0 = .ok ())
    (hdeadline : a.deadline < 2 ^ 64) :
    ∃ x, a.decoded = some x ∧ InRange x ∧ a.abiEncode = .ok (Abi.words (tupleWords x)) := by
  have hchecks := hvalid
  simp only [AuthorizationV2.validate, bind_ok_iff, revertIf_ok_iff, exists_const, not_or,
    not_not] at hchecks
  simp only [validUint256] at hchecks
  obtain ⟨hversion, ⟨_, hchain⟩, hvc, hsignerSome, ⟨hside, haction⟩, ⟨hlimit, _⟩, ⟨hqty, _⟩, hcap,
    _⟩ := hchecks
  obtain ⟨contract, hcontract⟩ := Option.ne_none_iff_exists'.mp hvc
  obtain ⟨signer, hsigner⟩ := Option.ne_none_iff_exists'.mp hsignerSome
  obtain ⟨side, hsideWord, hsideVal⟩ := sideOfWord_of_le (Nat.le_of_not_lt hside)
  obtain ⟨action, hactionWord, hactionVal⟩ := actionOfWord_of_le (Nat.le_of_not_lt haction)
  have hsmall {value : Nat} (hvalue : value < 2) : value < 2 ^ 256 := hvalue.trans (by norm_num)
  let x : Authorization :=
    { version := a.version
      chainId := a.chainId
      verifyingContract := contract
      signer
      marketId := a.marketId
      txId := a.txId
      side
      action
      limitYesPrice := a.limitYesPrice
      qtyShares := a.qtyShares
      collateralCap := a.collateralCap
      deadline := a.deadline }
  have hdecoded : a.decoded = some x := by
    rw [AuthorizationV2.decoded, hcontract, hsigner, hsideWord, hactionWord]
    rfl
  have hrange : InRange x := by
    refine ⟨?_, hchain, hlimit, hqty, hcap, hdeadline⟩
    show a.version < 2 ^ 8
    rw [hversion]
    decide
  have hwords := tupleWords_lt hrange
  refine ⟨x, hdecoded, hrange, ?_⟩
  have hversionWord : a.version < 2 ^ 256 := hwords _ (by simp [tupleWords, x])
  have hsideBound : a.side < 2 ^ 256 := by
    rw [← hsideVal]
    exact hsmall (toWord_lt x).1
  have hactionBound : a.action < 2 ^ 256 := by
    rw [← hactionVal]
    exact hsmall (toWord_lt x).2
  have hdeadlineWord : a.deadline < 2 ^ 256 := hdeadline.trans (by norm_num)
  rw [AuthorizationV2.abiEncode, hvalid, uintWord_eq hversionWord, uintWord_eq hchain,
    addressField_word hcontract, addressField_word hsigner, uuid_word, uuid_word,
    uintWord_eq hsideBound, uintWord_eq hactionBound, uintWord_eq hlimit, uintWord_eq hqty,
    uintWord_eq hcap, uintWord_eq hdeadlineWord]
  show Except.ok _ = Except.ok _
  simp only [Abi.words, tupleWords, x, hsideVal, hactionVal, List.flatMap_cons, List.flatMap_nil,
    List.append_assoc, List.append_nil]

/-! ## Calldata -/

/-- The arguments of `settle` as the ABI lays them out. -/
def settleComponents (x : Authorization) (signatureA : Bytes) (y : Authorization)
    (signatureB : Bytes) (fillShares executionYesPrice : Nat) (matchId : Bytes32) :
    List Abi.Component :=
  [.static (tupleWords x), .dynamic signatureA, .static (tupleWords y), .dynamic signatureB,
    .static [fillShares, executionYesPrice, matchId]]

theorem headSize_settle (x : Authorization) (signatureA : Bytes) (y : Authorization)
    (signatureB : Bytes) (fillShares executionYesPrice : Nat) (matchId : Bytes32) :
    Abi.headSize (settleComponents x signatureA y signatureB fillShares executionYesPrice matchId) =
      headWords * 32 := by
  simp only [settleComponents, Abi.headSize, List.map_cons, List.map_nil, List.sum_cons,
    List.sum_nil, Abi.Component.headSize, tupleWords, List.length_cons, List.length_nil]
  norm_num [headWords]

theorem length_encodeBytes (value : Bytes) : value.length ≤ (encodeBytes value).length := by
  rw [encodeBytes, List.length_append, List.length_append]
  omega

/-- What a valid call encodes to: the selector, and the encoding of its arguments. -/
theorem calldata_eq_encode (keccak256 : Bytes → Bytes) {args : SettleArgs} (h : args.Valid) :
    ∃ x y, args.a.decoded = some x ∧ args.b.decoded = some y ∧ InRange x ∧ InRange y ∧
      args.calldata keccak256 = .ok ((keccak256 settleSignature).take 4 ++
        Abi.encode (settleComponents x args.signatureA y args.signatureB args.fillShares
          args.executionYesPrice args.matchId)) := by
  obtain ⟨x, hx, hxRange, hxWords⟩ := abiEncode_eq h.a h.deadlineA
  obtain ⟨y, hy, hyRange, hyWords⟩ := abiEncode_eq h.b h.deadlineB
  have hlengthA := length_encodeBytes args.signatureA
  have hlengthB := length_encodeBytes args.signatureB
  have hslice := h.slice
  have htailA : encodeBytes args.signatureA = (Abi.Component.dynamic args.signatureA).tail :=
    encodeBytes_eq (by omega)
  have htailB : encodeBytes args.signatureB = (Abi.Component.dynamic args.signatureB).tail :=
    encodeBytes_eq (by omega)
  have hoffsetA : headWords * 32 < 2 ^ 256 := by norm_num [headWords]
  have hoffsetB : headWords * 32 + (encodeBytes args.signatureA).length < 2 ^ 256 := by
    calc headWords * 32 + (encodeBytes args.signatureA).length < 2 ^ 63 := by omega
      _ < 2 ^ 256 := by norm_num
  have hfill : args.fillShares < 2 ^ 256 := h.fillShares.trans (by norm_num)
  have hprice : args.executionYesPrice < 2 ^ 256 := h.executionYesPrice.trans (by norm_num)
  refine ⟨x, y, hx, hy, hxRange, hyRange, ?_⟩
  rw [SettleArgs.calldata, encodeSettleCalldata, hxWords, hyWords]
  show Except.ok _ = Except.ok _
  rw [uintWord_eq hoffsetA, uintWord_eq hoffsetB, uintWord_eq hfill, uintWord_eq hprice,
    bytes32_eq, Abi.encode, headSize_settle, htailA, htailB]
  simp only [settleComponents, Abi.heads, Abi.tails, Abi.Component.tail, Abi.words,
    List.flatMap_cons, List.flatMap_nil, List.append_assoc, List.nil_append, List.append_nil]

theorem settleOfComponents_eq {x y : Authorization} (hx : InRange x) (hy : InRange y)
    (signatureA signatureB : Bytes) (fillShares executionYesPrice : Nat) (matchId : Bytes32) :
    settleOfComponents (settleComponents x signatureA y signatureB fillShares executionYesPrice
      matchId) = some (.settle x signatureA y signatureB fillShares executionYesPrice matchId) := by
  rw [settleComponents, settleOfComponents, authorizationOfWords_tupleWords hx,
    authorizationOfWords_tupleWords hy]
  rfl

theorem decodeSettle_calldata {keccak256 : Bytes → Bytes}
    (hkeccak : ∀ text, (keccak256 text).length = 32) {args : SettleArgs} (h : args.Valid) :
    ∃ data call, args.calldata keccak256 = .ok data ∧ args.call = some call ∧
      decodeSettle keccak256 data = some call := by
  obtain ⟨x, y, hx, hy, hxRange, hyRange, hdata⟩ := calldata_eq_encode keccak256 h
  refine ⟨_, .settle x args.signatureA y args.signatureB args.fillShares args.executionYesPrice
    args.matchId, hdata, ?_, ?_⟩
  · rw [SettleArgs.call, hx, hy]
    rfl
  · let components := settleComponents x args.signatureA y args.signatureB args.fillShares
      args.executionYesPrice args.matchId
    have hselector : ((keccak256 settleSignature).take 4).length = 4 := by
      rw [List.length_take, hkeccak]
      rfl
    have hwords : Abi.WordsFit components := by
      intro values hvalues
      simp only [components, settleComponents, List.mem_cons, List.not_mem_nil, or_false,
        Abi.Component.static.injEq, reduceCtorEq, false_or] at hvalues
      rcases hvalues with rfl | rfl | rfl
      · exact tupleWords_lt hxRange
      · exact tupleWords_lt hyRange
      · intro value hvalue
        simp only [List.mem_cons, List.not_mem_nil, or_false] at hvalue
        rcases hvalue with rfl | rfl | rfl
        · exact h.fillShares.trans (by norm_num)
        · exact h.executionYesPrice.trans (by norm_num)
        · exact h.matchId
    have hlength : (Abi.encode components).length < 2 ^ 64 := by
      have hslice := h.slice
      have hlengthA := length_encodeBytes args.signatureA
      have hlengthB := length_encodeBytes args.signatureB
      rw [encodeBytes_eq (by omega), encodeBytes_eq (by omega)] at hslice
      rw [Abi.encode, List.length_append, Abi.length_heads, headSize_settle]
      simp only [components, settleComponents, Abi.tails, Abi.Component.tail, List.flatMap_cons,
        List.flatMap_nil, List.nil_append, List.append_nil, List.length_append] at hslice ⊢
      omega
    have hdecode : Abi.decode settleShapes (Abi.encode components) = some components :=
      Abi.decode_encode hwords hlength
    rw [decodeSettle, List.take_left' hselector, List.drop_left' hselector,
      ← settleSignature_eq_canonical, if_pos rfl, hdecode]
    exact settleOfComponents_eq hxRange hyRange _ _ _ _ _

/-- The calldata is an encoding of the call: it decodes to the arguments, and no other
arguments have it. -/
theorem encodeSettleCalldata_correct {keccak256 : Bytes → Bytes}
    (hkeccak : ∀ text, (keccak256 text).length = 32) :
    (∀ args : SettleArgs, args.Valid → ∃ data call, args.calldata keccak256 = .ok data ∧
      args.call = some call ∧ decodeSettle keccak256 data = some call) ∧
    ∀ args args' : SettleArgs, args.Valid → args'.Valid →
      args.calldata keccak256 = args'.calldata keccak256 → args.call = args'.call := by
  constructor
  · intro args h
    exact decodeSettle_calldata hkeccak h
  · intro args args' h h' heq
    obtain ⟨data, call, hdata, hcall, hread⟩ := decodeSettle_calldata hkeccak h
    obtain ⟨data', call', hdata', hcall', hread'⟩ := decodeSettle_calldata hkeccak h'
    rw [hdata, hdata'] at heq
    cases heq
    rw [hcall, hcall', ← hread, ← hread']

def keccakSample (_ : Bytes) : Bytes := [0xf0, 0x8f, 0xae, 0xed] ++ List.replicate 28 0

def settleArgsSample : SettleArgs where
  a :=
    { version := 2
      chainId := 296
      verifyingContract := "0x1111111111111111111111111111111111111111".toList
      signer := "0x2222222222222222222222222222222222222222".toList
      marketId := 7
      txId := 1
      side := 0
      action := 0
      limitYesPrice := 625000
      qtyShares := 10000000
      collateralCap := 6250000
      deadline := 2000000000 }
  signatureA := List.replicate 70 0xab
  b :=
    { version := 2
      chainId := 296
      verifyingContract := "0x1111111111111111111111111111111111111111".toList
      signer := "0x3333333333333333333333333333333333333333".toList
      marketId := 7
      txId := 2
      side := 1
      action := 0
      limitYesPrice := 600000
      qtyShares := 4000000
      collateralCap := 1600000
      deadline := 2000000000 }
  signatureB := List.replicate 3 0xcd
  fillShares := 4000000
  executionYesPrice := 600000
  matchId := 5

theorem encodeSettleCalldata_sample :
    ∃ data call, settleArgsSample.calldata keccakSample = .ok data ∧
      settleArgsSample.call = some call ∧ decodeSettle keccakSample data = some call := by
  apply (encodeSettleCalldata_correct fun _ => rfl).1
  constructor
  · decide +kernel
  · decide +kernel
  · decide
  · decide
  · decide
  · decide
  · decide
  · simp [settleArgsSample, headWords, encodeBytes, uintWord_eq]

end PrismBackend.Api
