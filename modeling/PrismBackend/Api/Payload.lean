import PrismBackend.Lib.Fields
import PrismBackend.Api.Orders

/-!
# API: the message of an order

The message that `CreatePredictionIntent` leaves in the outbox, as Go's encoder
writes it, and the order that the CLOB reads from it.
-/

namespace PrismBackend.Api

open PrismBackend.Lib PrismBackend.Clob PrismBackend.PrismV2

/-! ## Encoding -/

/-- `clobRequestObj`. -/
def clobRequest (req : PrismPredictionIntentRequest) : CreateOrderRequestClob where
  txId := req.txId
  net := toAsciiLowercase req.net
  marketId := req.marketId
  accountId := req.accountId
  sig := req.sig
  publicKey := req.publicKey
  evmAddress := req.evmAddress
  keyType := int32 req.keyType
  chainId := req.chainId
  verifyingContract := toAsciiLowercase req.verifyingContract
  side := req.side
  action := req.action
  limitYesPrice := req.limitYesPrice
  qtyShares := req.qtyShares
  collateralCap := req.collateralCap
  deadline := req.deadline
  sharesFilled := 0
  collateralFilled := 0

/-- The fields of the generated message, under the names of its JSON tags. -/
def orderFields (o : CreateOrderRequestClob) : Fields :=
  [("tx_id".toList, .str o.txId),
    ("net".toList, .str o.net),
    ("market_id".toList, .str o.marketId),
    ("account_id".toList, .str o.accountId),
    ("sig".toList, .str o.sig),
    ("public_key".toList, .str o.publicKey),
    ("evm_address".toList, .str o.evmAddress),
    ("key_type".toList, .num o.keyType),
    ("chain_id".toList, .num o.chainId),
    ("verifying_contract".toList, .str o.verifyingContract),
    ("side".toList, .num o.side),
    ("action".toList, .num o.action),
    ("limit_yes_price".toList, .num o.limitYesPrice),
    ("qty_shares".toList, .num o.qtyShares),
    ("collateral_cap".toList, .num o.collateralCap),
    ("deadline".toList, .num o.deadline),
    ("shares_filled".toList, .num o.sharesFilled),
    ("collateral_filled".toList, .num o.collateralFilled)]

/-- `json.Marshal`: every tag has `omitempty`. -/
def marshalOrder (o : CreateOrderRequestClob) : Fields := (orderFields o).omitEmpty

/-! ## Decoding -/

/-- `serde_json::from_slice` with `#[serde(default)]`: a field that occurs twice is an error, and
one that is not known is skipped. -/
def readOrder (payload : Fields) : Option CreateOrderRequestClob :=
  let text (key : String) : Option Str := Fields.readStr (payload.get key.toList)
  let unsigned (bits : Nat) (key : String) : Option Nat :=
    Fields.readNat bits (payload.get key.toList)
  if ¬payload.keys.Nodup then none
  else do
    let txId ← text "tx_id"
    let net ← text "net"
    let marketId ← text "market_id"
    let accountId ← text "account_id"
    let sig ← text "sig"
    let publicKey ← text "public_key"
    let evmAddress ← text "evm_address"
    let keyType ← Fields.readInt (-2 ^ 31) (2 ^ 31) (payload.get "key_type".toList)
    let chainId ← unsigned 64 "chain_id"
    let verifyingContract ← text "verifying_contract"
    let side ← unsigned 32 "side"
    let action ← unsigned 32 "action"
    let limitYesPrice ← unsigned 64 "limit_yes_price"
    let qtyShares ← unsigned 64 "qty_shares"
    let collateralCap ← unsigned 64 "collateral_cap"
    let deadline ← unsigned 64 "deadline"
    let sharesFilled ← unsigned 64 "shares_filled"
    let collateralFilled ← unsigned 64 "collateral_filled"
    return {
      txId, net, marketId, accountId, sig, publicKey, evmAddress, keyType, chainId
      verifyingContract, side, action, limitYesPrice, qtyShares, collateralCap, deadline
      sharesFilled, collateralFilled }

/-! ## Round trip -/

/-- The numbers of a message fit the types of its fields. -/
structure TypedOrder (o : CreateOrderRequestClob) : Prop where
  keyType_ge : -2 ^ 31 ≤ o.keyType
  keyType_lt : o.keyType < 2 ^ 31
  chainId : o.chainId < 2 ^ 64
  side : o.side < 2 ^ 32
  action : o.action < 2 ^ 32
  limitYesPrice : o.limitYesPrice < 2 ^ 64
  qtyShares : o.qtyShares < 2 ^ 64
  collateralCap : o.collateralCap < 2 ^ 64
  deadline : o.deadline < 2 ^ 64
  sharesFilled : o.sharesFilled < 2 ^ 64
  collateralFilled : o.collateralFilled < 2 ^ 64

/-- The numbers of a request fit the types of its fields. -/
structure PrismPredictionIntentRequest.Typed (req : PrismPredictionIntentRequest) : Prop where
  keyType : req.keyType < 2 ^ 32
  chainId : req.chainId < 2 ^ 64
  side : req.side < 2 ^ 32
  action : req.action < 2 ^ 32
  limitYesPrice : req.limitYesPrice < 2 ^ 64
  qtyShares : req.qtyShares < 2 ^ 64
  collateralCap : req.collateralCap < 2 ^ 64
  deadline : req.deadline < 2 ^ 64

theorem int32_bounds (n : Nat) : -2 ^ 31 ≤ int32 n ∧ int32 n < 2 ^ 31 := by
  unfold int32
  have hlow := Int.le_bmod (x := n) (m := 2 ^ 32) (by decide)
  have hhigh := Int.bmod_lt (x := n) (m := 2 ^ 32) (by decide)
  omega

theorem typedOrder_clobRequest {req : PrismPredictionIntentRequest} (h : req.Typed) :
    TypedOrder (clobRequest req) := by
  have hkey : (clobRequest req).keyType = int32 req.keyType := by rw [clobRequest]
  have hbounds := int32_bounds req.keyType
  rw [← hkey] at hbounds
  exact {
    keyType_ge := hbounds.1
    keyType_lt := hbounds.2
    chainId := h.chainId
    side := h.side
    action := h.action
    limitYesPrice := h.limitYesPrice
    qtyShares := h.qtyShares
    collateralCap := h.collateralCap
    deadline := h.deadline
    sharesFilled := Nat.two_pow_pos 64
    collateralFilled := Nat.two_pow_pos 64 }

def orderTags : List String :=
  ["tx_id", "net", "market_id", "account_id", "sig", "public_key", "evm_address", "key_type",
    "chain_id", "verifying_contract", "side", "action", "limit_yes_price", "qty_shares",
    "collateral_cap", "deadline", "shares_filled", "collateral_filled"]

theorem orderFields_nodup (o : CreateOrderRequestClob) : (orderFields o).keys.Nodup := by
  have hkeys : (orderFields o).keys = orderTags.map String.toList := rfl
  rw [hkeys]
  exact List.Nodup.map (fun _ _ h => String.toList_inj.mp h) (by decide)

/-- The order is read off the fields, whatever was omitted and in whatever order they come. -/
theorem readOrder_of_get {o : CreateOrderRequestClob} (h : TypedOrder o) {payload : Fields}
    (hnodup : payload.keys.Nodup)
    (hread : ∀ key,
      payload.get key = ((orderFields o).get key).filter fun value => !value.isZero) :
    readOrder payload = some o := by
  have hget (key : String) (value : Scalar) (hmem : (key.toList, value) ∈ orderFields o) :
      payload.get key.toList = (some value).filter fun value => !value.isZero := by
    rw [hread, (Fields.get_eq_some (orderFields_nodup o)).mpr hmem]
  have hstr (key : String) (s : Str) (hmem : (key.toList, Scalar.str s) ∈ orderFields o) :
      Fields.readStr (payload.get key.toList) = some s := by
    rw [hget key _ hmem, Fields.readStr_filter]
  have hnat (bits : Nat) (key : String) (n : Nat)
      (hmem : (key.toList, Scalar.num n) ∈ orderFields o) (hn : n < 2 ^ bits) :
      Fields.readNat bits (payload.get key.toList) = some n := by
    rw [hget key _ hmem, Fields.readNat_filter hn]
  have hkey : Fields.readInt (-2 ^ 31) (2 ^ 31) (payload.get "key_type".toList) =
      some o.keyType := by
    rw [hget "key_type" (.num o.keyType) (by simp [orderFields]),
      Fields.readInt_filter h.keyType_ge h.keyType_lt]
  unfold readOrder
  rw [if_neg (not_not.mpr hnodup)]
  simp only [hkey, hstr "tx_id" o.txId (by simp [orderFields]),
    hstr "net" o.net (by simp [orderFields]),
    hstr "market_id" o.marketId (by simp [orderFields]),
    hstr "account_id" o.accountId (by simp [orderFields]),
    hstr "sig" o.sig (by simp [orderFields]),
    hstr "public_key" o.publicKey (by simp [orderFields]),
    hstr "evm_address" o.evmAddress (by simp [orderFields]),
    hstr "verifying_contract" o.verifyingContract (by simp [orderFields]),
    hnat 64 "chain_id" o.chainId (by simp [orderFields]) h.chainId,
    hnat 32 "side" o.side (by simp [orderFields]) h.side,
    hnat 32 "action" o.action (by simp [orderFields]) h.action,
    hnat 64 "limit_yes_price" o.limitYesPrice (by simp [orderFields]) h.limitYesPrice,
    hnat 64 "qty_shares" o.qtyShares (by simp [orderFields]) h.qtyShares,
    hnat 64 "collateral_cap" o.collateralCap (by simp [orderFields]) h.collateralCap,
    hnat 64 "deadline" o.deadline (by simp [orderFields]) h.deadline,
    hnat 64 "shares_filled" o.sharesFilled (by simp [orderFields]) h.sharesFilled,
    hnat 64 "collateral_filled" o.collateralFilled (by simp [orderFields]) h.collateralFilled]
  rfl

theorem readOrder_marshalOrder {o : CreateOrderRequestClob} (h : TypedOrder o) :
    readOrder (marshalOrder o) = some o :=
  readOrder_of_get h (Fields.nodup_omitEmpty (orderFields_nodup o))
    (Fields.get_omitEmpty (orderFields_nodup o))

theorem readOrder_stored {o : CreateOrderRequestClob} (h : TypedOrder o) :
    readOrder (marshalOrder o).stored = some o :=
  readOrder_of_get h (Fields.nodup_stored (Fields.nodup_omitEmpty (orderFields_nodup o)))
    (Fields.get_stored (orderFields_nodup o))

end PrismBackend.Api
