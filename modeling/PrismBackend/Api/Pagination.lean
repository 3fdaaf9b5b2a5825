import Mathlib.Data.List.Sort
import PrismBackend.Api.Orders

/-!
# API: pages of a list

`ClampLimit` and `NewPagination` of `pagination.go`, the LIMIT and OFFSET of a
query, and the list endpoints that are built from them. The environment's
`DB_MAX_ROWS` is what `strconv.Atoi` reads from it.
-/

namespace PrismBackend.Api

open PrismBackend.Lib PrismBackend.Clob PrismBackend.PrismV2

def LIMIT : Int := 50

def toInt32 (n : Int) : Int := n.bmod (2 ^ 32)

theorem toInt32_of_lt {n : Int} (h : 0 ≤ n) (hlt : n < 2 ^ 31) : toInt32 n = n := by
  apply Int.bmod_eq_of_le
  · omega
  · omega

theorem toInt32_neg {n : Int} (h : 2 ^ 31 ≤ n) (hlt : n < 2 ^ 32) : toInt32 n < 0 := by
  have hmod : n % ((2 ^ 32 : Nat) : Int) = n := Int.emod_eq_of_lt (by omega) (by omega)
  have hneg := Int.bmod_neg n (2 ^ 32) (by omega)
  unfold toInt32
  omega

structure PaginationRes where
  limit : Int
  offset : Int
  total : Nat
  hasMore : Bool
  nextOffset : Int
  deriving DecidableEq, Repr

/-- `ClampLimit`. -/
def clampLimit (dbMaxRows : Option Int) (limit : Int) : Int :=
  let limit := if limit ≤ 0 then LIMIT else limit
  let maxRows := match dbMaxRows with
    | some maxRows => if maxRows ≤ 0 then LIMIT else maxRows
    | none => LIMIT
  if toInt32 maxRows < limit then toInt32 maxRows else limit

/-- `NewPagination`. -/
def newPagination (limit offset : Int) (total returned : Nat) : PaginationRes :=
  let consumed := offset + returned
  let hasMore := decide (consumed < total)
  { limit, offset, total, hasMore, nextOffset := if hasMore then toInt32 consumed else offset }

/-- `LIMIT $1 OFFSET $2`; the database refuses a negative one. -/
def selectPage {Row : Type} (rows : List Row) (limit offset : Int) : Option (List Row) :=
  if limit < 0 ∨ offset < 0 then none else some ((rows.drop offset.toNat).take limit.toNat)

/-- A list endpoint over the rows that match, in the order of its query, which every request finds
the same: the rows of the page that can be rendered, with a pagination that counts these. -/
def listEndpoint {Row Item : Type} (render : Row → Option Item) (rows : List Row)
    (dbMaxRows : Option Int) (limit offset : Int) : Option (List Item × PaginationRes) := do
  let limit := clampLimit dbMaxRows limit
  let page ← selectPage rows limit offset
  let items := page.filterMap render
  some (items, newPagination limit offset rows.length items.length)

theorem clampLimit_le (dbMaxRows : Option Int) {limit : Int} (h : 0 < limit) :
    clampLimit dbMaxRows limit ≤ limit := by
  have hpos : ¬limit ≤ 0 := by omega
  simp only [clampLimit, if_neg hpos]
  generalize toInt32 _ = maxRows
  split
  · omega
  · exact le_refl limit

/-! ## The prediction intents -/

/-- A row of `prediction_intents` with what `GetAllPredictionIntents` orders and filters by. -/
structure StoredIntent where
  row : PredictionIntent
  generatedAt : Nat
  marketDeleted : Bool

structure IntentTable where
  rows : List StoredIntent
  unique : (rows.map fun stored => stored.row.txID).Nodup

/-- The rows of the query without its LIMIT, `ORDER BY pi.generated_at DESC`; rows of one time are
returned in one order at every request. -/
def IntentTable.listed (table : IntentTable) : List PredictionIntent :=
  ((table.rows.filter fun stored => !stored.marketDeleted).insertionSort
    fun a b => b.generatedAt ≤ a.generatedAt).map StoredIntent.row

/-- What the endpoint shows of a row: nothing of one that has no authorization. -/
def shownIntent (uuid : Uuid) (row : PredictionIntent) : Option PrismPredictionIntentRequest :=
  match clobOrderFromIntent uuid row with
  | .error _ => none
  | .ok order => some {
      txId := order.txId
      net := order.net
      marketId := order.marketId
      accountId := order.accountId
      sig := order.sig
      publicKey := order.publicKey
      evmAddress := order.evmAddress
      keyType := (order.keyType % 2 ^ 32).toNat
      chainId := order.chainId
      verifyingContract := order.verifyingContract
      side := order.side
      action := order.action
      limitYesPrice := order.limitYesPrice
      qtyShares := order.qtyShares
      collateralCap := order.collateralCap
      deadline := order.deadline }

def getAllPredictionIntents (uuid : Uuid) (table : IntentTable) (dbMaxRows : Option Int)
    (limit offset : Int) : Option (List PrismPredictionIntentRequest × PaginationRes) :=
  listEndpoint (shownIntent uuid) table.listed dbMaxRows limit offset

theorem shownIntent_txId {uuid : Uuid} {row : PredictionIntent}
    {shown : PrismPredictionIntentRequest} (h : shownIntent uuid row = some shown) :
    shown.txId = uuid.string row.txID := by
  unfold shownIntent at h
  split at h
  · exact absurd h (by simp)
  · next order horder =>
    simp only [clobOrderFromIntent, bind_ok_iff, Except.ok.injEq] at horder
    obtain ⟨_, _, _, _, _, _, rfl⟩ := horder
    rw [Option.some.injEq] at h
    rw [← h]

theorem IntentTable.listed_unique (table : IntentTable) :
    (table.listed.map fun row => row.txID).Nodup := by
  unfold IntentTable.listed
  rw [List.map_map]
  have hperm := List.perm_insertionSort (fun a b : StoredIntent => b.generatedAt ≤ a.generatedAt)
    (table.rows.filter fun stored => !stored.marketDeleted)
  rw [(hperm.map _).nodup_iff]
  exact table.unique.sublist (List.filter_sublist.map _)

/-- No two of the orders that the endpoint shows are the same. -/
theorem IntentTable.shown_nodup (uuid : Uuid) (table : IntentTable) :
    (table.listed.filterMap (shownIntent uuid)).Nodup := by
  have hunique := table.listed_unique
  unfold List.Nodup at hunique ⊢
  rw [List.pairwise_map] at hunique
  apply List.Pairwise.filterMap _ _ hunique
  intro row row' hne shown hshown shown' hshown' heq
  apply hne
  apply uuid.string_injective
  rw [← shownIntent_txId hshown, ← shownIntent_txId hshown', heq]

end PrismBackend.Api
