import PrismBackend.Lib.Table
import PrismBackend.Api.Authorization

/-!
# API: the database

The tables `prediction_intents`, `matches` and `markets`, and the queries that
settlement and the rebuild of the book run on them. Each query is one statement
or one transaction of the database. A nullable time stamp is kept as whether it
is set.
-/

namespace PrismBackend.Api

open PrismBackend.Lib PrismBackend.Clob PrismBackend.PrismV2

/-- The UUID package: `uuid.Parse` reads back what `String` writes. -/
structure Uuid where
  parse : UuidParse
  string : Uint128 → Str
  parse_string : ∀ u, parse (string u) = .ok u

theorem Uuid.string_injective (uuid : Uuid) : Function.Injective uuid.string := by
  intro u v h
  have hparse := congrArg uuid.parse h
  rw [uuid.parse_string, uuid.parse_string, Except.ok.injEq] at hparse
  exact hparse

/-! ## Rows -/

/-- The columns of an order that are written once, with the order. -/
structure OrderTerms where
  txID : Uint128
  net : Str
  marketID : Uint128
  accountID : Str
  sig : Str
  publicKeyHex : Str
  evmaddress : Str
  keytype : Int
  protocolVersion : Nat
  chainID : Option Nat
  verifyingContract : Option Str
  side : Option Nat
  action : Option Nat
  limitYesPrice : Option Nat
  qtyShares : Option Nat
  collateralCap : Option Nat
  deadline : Option Nat

/-- A row of `prediction_intents`; `qtyRem` is in shares, before the division that the display
column makes. -/
structure PredictionIntent extends OrderTerms where
  sharesFilled : Nat
  collateralFilled : Nat
  qtyRem : Nat
  cancelledAt : Bool
  fullyMatchedAt : Bool
  evictedAt : Bool

inductive MatchStatus
  | pending
  | submitted
  | finalized
  | failed
  deriving DecidableEq, Repr

/-- The columns of a match that are written once, with the match. -/
structure MatchTerms where
  marketID : Uint128
  txId1 : Uint128
  txId2 : Uint128
  matchID : Str
  protocolVersion : Nat
  fillShares : Option Nat
  executionYesPrice : Option Nat
  yesCollateral : Option Nat
  noCollateral : Option Nat

structure Match extends MatchTerms where
  txHash : Str
  status : MatchStatus
  attempts : Nat
  lastError : Option String

structure MarketRow where
  marketID : Uint128
  smartContractID : Str
  closesAt : Nat
  deletedAt : Bool
  resolvedAt : Bool
  isSuspended : Bool
  isPaused : Bool

structure Db where
  intents : Table PredictionIntent Uint128 fun row => row.txID
  matches_ : Table Match Str fun row => row.matchID
  markets : Table MarketRow Uint128 fun row => row.marketID

def Db.empty : Db := ⟨.empty, .empty, .empty⟩

/-- `repositories.MatchV2`: one fill, the bid being the buyer of YES exposure. -/
structure MatchV2 where
  marketID : Uint128
  bidTxID : Uint128
  askTxID : Uint128
  matchID : Str
  fillShares : Nat
  executionYesPrice : Nat
  yesCollateral : Nat
  noCollateral : Nat
  bidCollateral : Nat
  askCollateral : Nat
  unitScale : Nat

/-! ## Orders -/

def noRows : String := "sql: no rows in result set"

def Db.getPredictionIntentByTxId (db : Db) (uuid : Uuid) (txId : Str) :
    Except String PredictionIntent := do
  let txUUID ← (uuid.parse txId).mapError ("invalid txId uuid: " ++ ·)
  match db.intents.find txUUID with
  | some row => .ok row
  | none => .error ("GetPredictionIntentByTxId failed: " ++ noRows)

theorem Db.getPredictionIntentByTxId_ok {db : Db} {uuid : Uuid} {txId : Str}
    {row : PredictionIntent} (h : db.getPredictionIntentByTxId uuid txId = .ok row) :
    uuid.parse txId = .ok row.txID ∧ db.intents.find row.txID = some row := by
  simp only [Db.getPredictionIntentByTxId, bind_ok_iff, mapError_ok_iff] at h
  obtain ⟨txUUID, hparse, hfind⟩ := h
  split at hfind
  · next found hfound =>
    cases hfind
    rw [(Table.find_eq_some.mp hfound).2]
    exact ⟨hparse, hfound⟩
  · exact absurd hfind (by simp)

def PredictionIntent.filled (row : PredictionIntent) (fillShares fillCollateral : Nat) :
    PredictionIntent :=
  { row with
    sharesFilled := row.sharesFilled + fillShares
    collateralFilled := row.collateralFilled + fillCollateral
    qtyRem := row.qtyShares.getD 0 - (row.sharesFilled + fillShares)
    fullyMatchedAt := row.fullyMatchedAt ||
      row.qtyShares.any fun qtyShares => row.sharesFilled + fillShares ≥ qtyShares }

/-- `AddPredictionIntentFill`, with the constraint that no order is filled beyond its
quantity. -/
def Db.addPredictionIntentFill (db : Db) (txID : Uint128) (fillShares fillCollateral : Nat) :
    Except String Db := do
  match db.intents.find txID with
  | none => .error noRows
  | some row =>
    revertIf (row.protocolVersion ≠ 2) noRows
    revertIf (row.qtyShares.any fun qtyShares => row.sharesFilled + fillShares > qtyShares)
      "prediction_intents_shares_filled_check"
    .ok { db with
      intents := db.intents.modify txID (·.filled fillShares fillCollateral) fun _ => rfl }

/-- `CancelPredictionIntent`. -/
def Db.cancelPredictionIntent (db : Db) (txID : Uint128) : Db :=
  let cancelled (row : PredictionIntent) : PredictionIntent :=
    { row with
      cancelledAt := row.cancelledAt || (!row.fullyMatchedAt && !row.evictedAt) }
  { db with intents := db.intents.modify txID cancelled fun _ => rfl }

def Db.markPredictionIntentAsEvicted (db : Db) (txID : Uint128) : Db :=
  { db with
    intents := db.intents.modify txID (fun row => { row with evictedAt := true }) fun _ => rfl }

def Db.markPredictionIntentAsFullyMatched (db : Db) (marketID txID : Uint128) : Db :=
  let matched (row : PredictionIntent) : PredictionIntent :=
    { row with fullyMatchedAt := row.fullyMatchedAt || row.marketID == marketID }
  { db with intents := db.intents.modify txID matched fun _ => rfl }

/-! ## Markets -/

def Db.getMarketById (db : Db) (uuid : Uuid) (marketId : Str) (isAdmin : Bool) :
    Except String MarketRow := do
  let marketUUID ← (uuid.parse marketId).mapError ("invalid marketId uuid: " ++ ·)
  match db.markets.find marketUUID with
  | some row =>
    revertIf (row.deletedAt = true ∨
      ¬(isAdmin = true ∨ row.isSuspended = false ∧ row.isPaused = false))
      ("GetMarketById failed: " ++ noRows)
    .ok row
  | none => .error ("GetMarketById failed: " ++ noRows)

/-! ## Matches -/

def notYetAvailable : Str := "notYetAvailable".toList

def MatchV2.row (m : MatchV2) : Match where
  marketID := m.marketID
  txId1 := m.bidTxID
  txId2 := m.askTxID
  matchID := m.matchID
  protocolVersion := 2
  fillShares := some m.fillShares
  executionYesPrice := some m.executionYesPrice
  yesCollateral := some m.yesCollateral
  noCollateral := some m.noCollateral
  txHash := notYetAvailable
  status := .pending
  attempts := 0
  lastError := none

/-- `CreateMatchV2`: a match that is there already is returned unchanged. -/
def Db.createMatchV2 (db : Db) (m : MatchV2) : Db × Match :=
  match db.matches_.find m.matchID with
  | some row => (db, row)
  | none => ({ db with matches_ := db.matches_.insert m.row }, m.row)

/-- An update of the rows of one match that are not finalized. -/
def Db.updateMatch (db : Db) (matchID : Str) (f : Match → Match)
    (hf : ∀ row, (f row).matchID = row.matchID) : Db :=
  { db with
    matches_ := db.matches_.modify matchID
      (fun row => if row.status = .finalized then row else f row) fun row => by
        split
        · rfl
        · exact hf row }

def Db.markMatchSubmitted (db : Db) (matchID txHash : Str) : Db :=
  db.updateMatch matchID
    (fun row => { row with
      status := .submitted
      attempts := row.attempts + 1
      lastError := none
      txHash }) fun _ => rfl

def Db.markMatchFailed (db : Db) (matchID : Str) (cause : String) : Db :=
  db.updateMatch matchID
    (fun row => { row with
      status := .failed
      lastError := some cause }) fun _ => rfl

def Db.finalizeMatch (db : Db) (matchID txHash : Str) : Db :=
  db.updateMatch matchID
    (fun row => { row with
      status := .finalized
      txHash
      lastError := none }) fun _ => rfl

/-- `FinalizeMatchV2`: one transaction. A match that is finalized already, or not there, stays
as it is, and a fill that cannot be applied rolls everything back. -/
def Db.finalizeMatchV2 (db : Db) (uuid : Uuid) (m : MatchV2) (txHash : Str) :
    Except String (Db × Bool) := do
  match db.matches_.find m.matchID with
  | none => .ok (db, false)
  | some row =>
    if row.status = .finalized then .ok (db, false)
    else
      let applying (txID : Uint128) (err : String) : String :=
        "apply fill to " ++ String.ofList (uuid.string txID) ++ ": " ++ err
      let db := db.finalizeMatch m.matchID txHash
      let db ← (db.addPredictionIntentFill m.bidTxID m.fillShares m.bidCollateral).mapError
        (applying m.bidTxID)
      let db ← (db.addPredictionIntentFill m.askTxID m.fillShares m.askCollateral).mapError
        (applying m.askTxID)
      .ok (db, true)

/-! ## What the updates leave -/

/-- An update of a row that touches only its fill state. -/
structure PredictionIntent.FilledFrom (row row' : PredictionIntent) : Prop where
  terms : row'.toOrderTerms = row.toOrderTerms
  cancelledAt : row'.cancelledAt = row.cancelledAt
  evictedAt : row'.evictedAt = row.evictedAt

theorem PredictionIntent.filled_txID (row : PredictionIntent) (shares collateral : Nat) :
    (row.filled shares collateral).txID = row.txID := rfl

theorem PredictionIntent.filledFrom_filled (row : PredictionIntent) (shares collateral : Nat) :
    row.FilledFrom (row.filled shares collateral) := ⟨rfl, rfl, rfl⟩

theorem Db.addPredictionIntentFill_ok {db db' : Db} {txID : Uint128} {shares collateral : Nat}
    (h : db.addPredictionIntentFill txID shares collateral = .ok db') :
    ∃ row, db.intents.find txID = some row ∧ row.protocolVersion = 2 ∧
      (∀ qtyShares, row.qtyShares = some qtyShares → row.sharesFilled + shares ≤ qtyShares) ∧
      db' = { db with
        intents := db.intents.modify txID (·.filled shares collateral) fun _ => rfl } := by
  unfold Db.addPredictionIntentFill at h
  split at h
  · exact absurd h (by simp)
  · next row hrow =>
    simp only [bind_ok_iff, revertIf_ok_iff, exists_const, Except.ok.injEq] at h
    obtain ⟨hversion, hqty, rfl⟩ := h
    refine ⟨row, hrow, not_not.mp hversion, ?_, rfl⟩
    intro qtyShares hshares
    rw [hshares] at hqty
    simpa using hqty

/-- A match that is finalized now: both fills were applied, each within its order. -/
theorem Db.finalizeMatchV2_ok {db db' : Db} {uuid : Uuid} {m : MatchV2} {txHash : Str}
    {applied : Bool} (h : db.finalizeMatchV2 uuid m txHash = .ok (db', applied)) :
    (applied = false ∧ db' = db) ∨
      (applied = true ∧ ∃ row middle, db.matches_.find m.matchID = some row ∧
        row.status ≠ .finalized ∧
        (db.finalizeMatch m.matchID txHash).addPredictionIntentFill m.bidTxID m.fillShares
          m.bidCollateral = .ok middle ∧
        middle.addPredictionIntentFill m.askTxID m.fillShares m.askCollateral = .ok db') := by
  unfold Db.finalizeMatchV2 at h
  split at h
  · cases h
    exact Or.inl ⟨rfl, rfl⟩
  · next row hrow =>
    split at h
    · cases h
      exact Or.inl ⟨rfl, rfl⟩
    · next hopen =>
      simp only [bind_ok_iff, mapError_ok_iff, Except.ok.injEq, Prod.mk.injEq] at h
      obtain ⟨middle, hmiddle, last, hlast, rfl, rfl⟩ := h
      exact Or.inr ⟨rfl, row, middle, hrow, hopen, hmiddle, hlast⟩

theorem Db.addPredictionIntentFill_find {db db' : Db} {txID : Uint128} {shares collateral : Nat}
    (h : db.addPredictionIntentFill txID shares collateral = .ok db') (k : Uint128) :
    ∃ g, db'.intents.find k = (db.intents.find k).map g ∧
      ∀ row : PredictionIntent, row.FilledFrom (g row) := by
  obtain ⟨_, _, _, _, rfl⟩ := Db.addPredictionIntentFill_ok h
  refine ⟨fun row => if k = txID then row.filled shares collateral else row, ?_, ?_⟩
  · exact Table.find_modify_map (fun row => row.filled_txID shares collateral) k
  · intro row
    dsimp only
    split
    · exact row.filledFrom_filled shares collateral
    · exact ⟨rfl, rfl, rfl⟩

theorem Db.finalizeMatchV2_find {db db' : Db} {uuid : Uuid} {m : MatchV2} {txHash : Str}
    {applied : Bool} (h : db.finalizeMatchV2 uuid m txHash = .ok (db', applied)) (k : Uint128) :
    ∃ g, db'.intents.find k = (db.intents.find k).map g ∧
      ∀ row : PredictionIntent, row.FilledFrom (g row) := by
  rcases Db.finalizeMatchV2_ok h with ⟨_, rfl⟩ | ⟨_, _, middle, _, _, hbid, hask⟩
  · exact ⟨id, by simp, fun _ => ⟨rfl, rfl, rfl⟩⟩
  · obtain ⟨f, hf, hbidRow⟩ := Db.addPredictionIntentFill_find hbid k
    obtain ⟨g, hg, haskRow⟩ := Db.addPredictionIntentFill_find hask k
    refine ⟨g ∘ f, ?_, ?_⟩
    · rw [hg, hf, Option.map_map]
      rfl
    · intro row
      have hfirst := hbidRow row
      have hsecond := haskRow (f row)
      exact ⟨hsecond.terms.trans hfirst.terms, hsecond.cancelledAt.trans hfirst.cancelledAt,
        hsecond.evictedAt.trans hfirst.evictedAt⟩

end PrismBackend.Api
