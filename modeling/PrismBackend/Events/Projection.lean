import PrismBackend.Api.Orders
import PrismBackend.Events.Messages
import PrismBackend.Lib.Decimal
import PrismBackend.Lib.Hex
import PrismBackend.Lib.Interact
import PrismBackend.Lib.Revert
import PrismBackend.Lib.System

/-!
# Events: the projection

`handlePrismV2Event` as a program that stores the raw event first and the rows
and marks that follow from it afterwards. Any number of deliveries run beside
each other, each may fail at any of its writes, and a write that is reported as
failed may have taken place.
-/

namespace PrismBackend.Events

open PrismBackend.Lib PrismBackend.Clob PrismBackend.PrismV2
open PrismBackend.Api (Uuid sampleUuid)
open Program (request attempt andThen)

/-! ## Derived rows -/

structure MarketResolvedRow where
  net : Str
  smartContractID : Str
  timestampNano : Str
  txHash : Str
  hostname : Str
  md5Uniq : Str
  marketID : Str
  outcome : Nat
  deriving DecidableEq

/-- The amount is kept as a whole number. -/
structure WinningsRedeemedRow where
  net : Str
  smartContractID : Str
  timestampNano : Str
  txHash : Str
  hostname : Str
  md5Uniq : Str
  marketID : Str
  winner : Str
  amount : Int
  deriving DecidableEq

/-- The columns of an order that the projection reads and writes. -/
structure IntentRow where
  txID : Uint128
  marketID : Uint128
  evmaddress : Str
  redeemedAt : Bool

/-! ## Parsing -/

def getArg (args : List (Str × Str)) (name : String) : Option Str :=
  (args.find? fun arg => arg.1 == name.toList).map (·.2)

/-- `fmt.Sprintf("%v", …)` of an argument that may be missing. -/
def printArg (args : List (Str × Str)) (name : String) : Str :=
  (getArg args name).getD "<nil>".toList

def readDigits (s : Str) : Option Nat :=
  if s ≠ [] ∧ s.all Char.isDigit then some (decimalValue s) else none

/-- `big.Int.SetString` in base 10. -/
def setString : Str → Option Int
  | '-' :: s => (readDigits s).map fun n => -(n : Int)
  | '+' :: s => (readDigits s).map fun n => (n : Int)
  | s => (readDigits s).map fun n => (n : Int)

/-- `%032x`. -/
def hex32 : Int → Str
  | .ofNat n => hexText 32 n
  | .negSucc n => '-' :: hexText 31 (n + 1)

def bigintToUuid7 (bigIntValue : Int) : Except String Str :=
  let hexString := hex32 bigIntValue
  if hexString.length ≠ 32 then .error "bigIntValue does not represent a valid UUID7"
  else
    .ok (hexString.take 8 ++ '-' :: (hexString.drop 8).take 4 ++ '-' ::
      (hexString.drop 12).take 4 ++
      '-' :: (hexString.drop 16).take 4 ++ '-' :: hexString.drop 20)

/-- What an event leads to beside its raw row. -/
inductive Derived
  | nothing
  | resolution (row : MarketResolvedRow)
  | redemption (row : WinningsRedeemedRow)

section Rows

variable (encoding : Encoding) (message : Message)

def parseMarketId : Except String Str :=
  match setString (printArg message.evt.args "marketId") with
  | none => .error "failed to parse marketId from event"
  | some bigIntValue =>
    (bigintToUuid7 bigIntValue).mapError fun _ => "failed to convert marketId to UUID7"

/-- The state of a market as a legacy outcome, when it is a resolution. -/
def legacyOutcome (state : Str) : Option Nat :=
  if state = ['4'] then some 1
  else if state = ['5'] then some 0
  else if state = ['6'] then some 2
  else none

def marketResolvedRow (outcome : Nat) : Except String MarketResolvedRow := do
  let marketID ← parseMarketId message
  .ok {
    net := message.network
    smartContractID := message.contractId
    timestampNano := message.evt.timestamp
    txHash := message.evt.txHash
    hostname := message.evt.host
    md5Uniq := encoding.md5uniq message
    marketID
    outcome }

def winningsRedeemedRow : Except String WinningsRedeemedRow := do
  let marketID ← parseMarketId message
  match setString (printArg message.evt.args "net") with
  | none => .error "failed to parse amount from event"
  | some amount => .ok {
      net := message.network
      smartContractID := message.contractId
      timestampNano := message.evt.timestamp
      txHash := message.evt.txHash
      hostname := message.evt.host
      md5Uniq := encoding.md5uniq message
      marketID
      winner := (getArg message.evt.args "account").getD []
      amount }

def derived : Except String Derived :=
  if message.evt.event = "MarketStateChanged".toList then
    match legacyOutcome (printArg message.evt.args "state") with
    | none => .ok .nothing
    | some outcome => (marketResolvedRow encoding message outcome).map .resolution
  else if message.evt.event = "Redeemed".toList then
    (winningsRedeemedRow encoding message).map .redemption
  else .ok .nothing

end Rows

/-! ## The program -/

inductive EventRequest
  | createEventV2 (row : SmartContractEventV2)
  | createMarketResolvedEvent (row : MarketResolvedRow)
  | createWinningsRedeemedEvent (row : WinningsRedeemedRow)
  | markPredictionIntentAsRedeemedForAccount (marketId evmAddress : Str)

abbrev EventRequest.Answer : EventRequest → Type
  /- whether a row was inserted -/
  | .createEventV2 _ => Except String Bool
  | .createMarketResolvedEvent _ => Except String Unit
  | .createWinningsRedeemedEvent _ => Except String Unit
  | .markPredictionIntentAsRedeemedForAccount _ _ => Except String Unit

abbrev EventM := Program EventRequest EventRequest.Answer

/-- What the code logs is the result here. -/
abbrev EventProgram := EventM (Except String Unit)

def markRedeemed (row : WinningsRedeemedRow) : EventProgram :=
  request (EventRequest.markPredictionIntentAsRedeemedForAccount row.marketID row.winner)

def storeDerived : Derived → EventProgram
  | .nothing => pure (.ok ())
  | .resolution row => request (EventRequest.createMarketResolvedEvent row)
  | .redemption row =>
    andThen (request (EventRequest.createWinningsRedeemedEvent row)) fun _ => markRedeemed row

/-- `handlePrismV2Event`. -/
def handlePrismV2Event (encoding : Encoding) (message : Message) : EventProgram :=
  andThen (request (EventRequest.createEventV2 (message.row encoding))) fun inserted =>
  -- a redelivery ends here
  if inserted = false then pure (.ok ())
  else attempt (derived encoding message) storeDerived

/-! ## State -/

structure EventTables where
  events : EventRows
  marketResolved : Table MarketResolvedRow Str fun row => row.md5Uniq
  winningsRedeemed : Table WinningsRedeemedRow Str fun row => row.md5Uniq
  intents : Table IntentRow Uint128 fun row => row.txID

/-- A delivery, what is left of its handler, and whether it inserted the raw event. -/
structure Delivery where
  id : Nat
  message : Message
  program : EventProgram
  stored : Bool

structure Projection where
  tables : EventTables
  deliveries : Table Delivery Nat fun delivery => delivery.id

inductive ProjectionEvent
  | deliver (id : Nat) (message : Message)
  /- a write of a delivery is answered, and takes place or not -/
  | serve (id : Nat) (answer : (r : EventRequest) → r.Answer) (commit : Bool)
  /- a delivery is lost -/
  | stop (id : Nat)

/-! ## Writes -/

/-- `replace(…, '0x', '')`. -/
def replace0x : Str → Str
  | '0' :: 'x' :: s => replace0x s
  | c :: s => c :: replace0x s
  | [] => []

def IntentRow.isOf (row : IntentRow) (marketID : Uint128) (evmAddress : Str) : Bool :=
  row.marketID == marketID &&
    toAsciiLowercase (replace0x row.evmaddress) == toAsciiLowercase (replace0x evmAddress)

def redeemedIntent (marketID : Uint128) (evmAddress : Str) (row : IntentRow) : IntentRow :=
  if row.isOf marketID evmAddress then { row with redeemedAt := true } else row

theorem redeemedIntent_txID (marketID : Uint128) (evmAddress : Str) (row : IntentRow) :
    (redeemedIntent marketID evmAddress row).txID = row.txID := by
  unfold redeemedIntent
  split
  · rfl
  · rfl

namespace EventTables

variable (uuid : Uuid) (t : EventTables)

/-- The unique constraints. -/
def isFree : EventRequest → Bool
  | .createMarketResolvedEvent row => t.marketResolved.rows.all fun old =>
      old.md5Uniq != row.md5Uniq && old.marketID != row.marketID
  | .createWinningsRedeemedEvent row => t.winningsRedeemed.rows.all fun old =>
      old.md5Uniq != row.md5Uniq && !(old.marketID == row.marketID && old.winner == row.winner)
  | .markPredictionIntentAsRedeemedForAccount marketId _ => (uuid.parse marketId).toOption.isSome
  | .createEventV2 _ => true

def write (r : EventRequest) : EventTables :=
  if t.isFree uuid r = false then t
  else
    match r with
    | .createEventV2 row => { t with events := t.events.insert row }
    | .createMarketResolvedEvent row => { t with marketResolved := t.marketResolved.insert row }
    | .createWinningsRedeemedEvent row =>
      { t with winningsRedeemed := t.winningsRedeemed.insert row }
    | .markPredictionIntentAsRedeemedForAccount marketId evmAddress =>
      match uuid.parse marketId with
      | .error _ => t
      | .ok marketID =>
        { t with
          intents := t.intents.modifyAll (redeemedIntent marketID evmAddress)
            (redeemedIntent_txID marketID evmAddress) }

/-- What an answer may say: a write that is reported has taken place, and a raw event was inserted
when there was none. -/
def Honest : (r : EventRequest) → r.Answer → Bool → Prop
  | .createEventV2 row, .ok inserted, commit =>
    commit = true ∧ inserted = (t.events.find row.md5uniq).isNone
  | .createMarketResolvedEvent row, .ok _, commit =>
    commit = true ∧ t.isFree uuid (.createMarketResolvedEvent row) = true
  | .createWinningsRedeemedEvent row, .ok _, commit =>
    commit = true ∧ t.isFree uuid (.createWinningsRedeemedEvent row) = true
  | .markPredictionIntentAsRedeemedForAccount marketId evmAddress, .ok _, commit =>
    commit = true ∧
      t.isFree uuid (.markPredictionIntentAsRedeemedForAccount marketId evmAddress) = true
  | _, _, _ => True

end EventTables

namespace Projection

variable (uuid : Uuid) (encoding : Encoding) (s : Projection)

/-! ## Steps -/

def answered (delivery : Delivery) (r : EventRequest) (commit : Bool) (program : EventProgram) :
    Delivery :=
  match r with
  | .createEventV2 row =>
    { delivery with
      program
      stored := delivery.stored || commit && (s.tables.events.find row.md5uniq).isNone }
  | _ => { delivery with program }

def serve (id : Nat) (answer : (r : EventRequest) → r.Answer) (commit : Bool) : Projection :=
  match s.deliveries.find id with
  | none => s
  | some delivery =>
    match delivery.program with
    | .ret _ => s
    | .call r rest => {
        tables := if commit then s.tables.write uuid r else s.tables
        deliveries := s.deliveries.put (s.answered delivery r commit (rest (answer r))) }

def lost (delivery : Delivery) : Delivery := { delivery with program := .ret (.error "lost") }

def next : ProjectionEvent → Projection
  | .deliver id message =>
    { s with
      deliveries := s.deliveries.insert
        ⟨id, message, handlePrismV2Event encoding message, false⟩ }
  | .serve id answer commit => s.serve uuid id answer commit
  | .stop id => { s with deliveries := s.deliveries.modify id lost fun _ => rfl }

def Allowed : ProjectionEvent → Prop
  | .deliver id _ => s.deliveries.find id = none
  | .serve id answer commit => ∀ delivery r rest, s.deliveries.find id = some delivery →
      delivery.program = .call r rest → s.tables.Honest uuid r (answer r) commit
  | .stop _ => True

end Projection

def projection (uuid : Uuid) (encoding : Encoding) : System Projection ProjectionEvent where
  next := Projection.next uuid encoding
  Allowed := Projection.Allowed uuid

/-! ## The property -/

section Shown

variable (uuid : Uuid) (encoding : Encoding)

def EventTables.ShowsDerived (t : EventTables) : Derived → Prop
  | .nothing => True
  | .resolution row => t.marketResolved.find row.md5Uniq = some row
  | .redemption row => t.winningsRedeemed.find row.md5Uniq = some row ∧
      ∀ marketID, uuid.parse row.marketID = .ok marketID → ∀ intent ∈ t.intents.rows,
        intent.isOf marketID row.winner = true → intent.redeemedAt = true

/-- The tables have the raw event and what is derived from it; each table has one row for a key. -/
structure EventTables.Shows (t : EventTables) (message : Message) : Prop where
  raw : t.events.find (encoding.md5uniq message) = some (message.row encoding)
  derived : ∀ d, derived encoding message = .ok d → t.ShowsDerived uuid d

/-- Every event that a delivery has processed without failure is shown. -/
def Projection.AllShown (s : Projection) : Prop :=
  ∀ delivery ∈ s.deliveries.rows, delivery.program = .ret (.ok ()) →
    s.tables.Shows uuid encoding delivery.message

/-- The raw event is looked for only when a delivery that inserted it has been processed without
failure; and different messages have different digests. -/
def Projection.InOneGo (s : Projection) : ProjectionEvent → Prop
  | .deliver _ message => ∀ delivery ∈ s.deliveries.rows,
      encoding.md5uniq delivery.message = encoding.md5uniq message → delivery.message = message
  | .serve id _ _ => ∀ delivery row rest, s.deliveries.find id = some delivery →
      delivery.program = .call (.createEventV2 row) rest → ∀ other ∈ s.deliveries.rows,
        other.stored = true →
          encoding.md5uniq other.message = encoding.md5uniq delivery.message →
            other.program = .ret (.ok ())
  | .stop _ => True

end Shown

/-! ## Tables that grow -/

structure EventTables.Grows (t t' : EventTables) : Prop where
  events : ∀ key row, t.events.find key = some row → t'.events.find key = some row
  marketResolved : ∀ key row, t.marketResolved.find key = some row →
    t'.marketResolved.find key = some row
  winningsRedeemed : ∀ key row, t.winningsRedeemed.find key = some row →
    t'.winningsRedeemed.find key = some row
  intents : ∀ intent' ∈ t'.intents.rows, ∃ intent ∈ t.intents.rows,
    intent'.marketID = intent.marketID ∧ intent'.evmaddress = intent.evmaddress ∧
      (intent.redeemedAt = true → intent'.redeemedAt = true)

section Growing

variable {uuid : Uuid} {encoding : Encoding} {t t' : EventTables} {message : Message}

theorem EventTables.Grows.refl (t : EventTables) : t.Grows t :=
  ⟨fun _ _ h => h, fun _ _ h => h, fun _ _ h => h,
    fun intent h => ⟨intent, h, rfl, rfl, fun hredeemed => hredeemed⟩⟩

theorem redeemedIntent_kept (marketID : Uint128) (evmAddress : Str) (row : IntentRow) :
    (redeemedIntent marketID evmAddress row).marketID = row.marketID ∧
      (redeemedIntent marketID evmAddress row).evmaddress = row.evmaddress ∧
      (row.redeemedAt = true → (redeemedIntent marketID evmAddress row).redeemedAt = true) := by
  unfold redeemedIntent
  split
  · exact ⟨rfl, rfl, fun _ => rfl⟩
  · exact ⟨rfl, rfl, fun h => h⟩

theorem EventTables.grows_write (t : EventTables) (r : EventRequest) :
    t.Grows (t.write uuid r) := by
  have hrefl := EventTables.Grows.refl t
  unfold EventTables.write
  split
  · exact hrefl
  cases r with
  | createEventV2 row => exact { hrefl with events := fun _ _ h => Table.find_insert h }
  | createMarketResolvedEvent row =>
      exact { hrefl with marketResolved := fun _ _ h => Table.find_insert h }
  | createWinningsRedeemedEvent row =>
      exact { hrefl with winningsRedeemed := fun _ _ h => Table.find_insert h }
  | markPredictionIntentAsRedeemedForAccount marketId evmAddress =>
      dsimp only
      split
      · exact hrefl
      next marketID hparse =>
      refine ⟨hrefl.events, hrefl.marketResolved, hrefl.winningsRedeemed, fun intent' hmem => ?_⟩
      obtain ⟨intent, hintent, rfl⟩ := List.mem_map.mp hmem
      exact ⟨intent, hintent, redeemedIntent_kept marketID evmAddress intent⟩

theorem EventTables.grows_if (uuid : Uuid) (t : EventTables) (r : EventRequest) (commit : Bool) :
    t.Grows (if commit then t.write uuid r else t) := by
  split
  · exact t.grows_write r
  · exact .refl t

theorem EventTables.ShowsDerived.grows {d : Derived} (h : t.ShowsDerived uuid d)
    (hgrows : t.Grows t') : t'.ShowsDerived uuid d := by
  cases d with
  | nothing => trivial
  | resolution row => exact hgrows.marketResolved _ _ h
  | redemption row =>
      refine ⟨hgrows.winningsRedeemed _ _ h.1, fun marketID hparse intent' hmem hof => ?_⟩
      obtain ⟨intent, hintent, hmarket, haddress, hredeemed⟩ := hgrows.intents intent' hmem
      apply hredeemed
      apply h.2 marketID hparse intent hintent
      unfold IntentRow.isOf at hof ⊢
      rw [← hmarket, ← haddress]
      exact hof

theorem EventTables.Shows.grows (h : t.Shows uuid encoding message) (hgrows : t.Grows t') :
    t'.Shows uuid encoding message :=
  ⟨hgrows.events _ _ h.raw, fun d hd => (h.derived d hd).grows hgrows⟩

end Growing

/-! ## Stages -/

/-- Where a delivery can be, with what the tables show there, and whether it inserted the raw
event. -/
inductive Stage (uuid : Uuid) (encoding : Encoding) (t : EventTables) (message : Message) :
    EventProgram → Bool → Prop
  | start : Stage uuid encoding t message (handlePrismV2Event encoding message) false
  | derived (d : Derived) (hd : derived encoding message = .ok d)
      (hraw : t.events.find (encoding.md5uniq message) = some (message.row encoding)) :
      Stage uuid encoding t message (storeDerived d) true
  | mark (row : WinningsRedeemedRow) (hd : Events.derived encoding message = .ok (.redemption row))
      (hraw : t.events.find (encoding.md5uniq message) = some (message.row encoding))
      (hrow : t.winningsRedeemed.find row.md5Uniq = some row) :
      Stage uuid encoding t message (markRedeemed row) true
  | shown (stored : Bool) (h : t.Shows uuid encoding message) :
      Stage uuid encoding t message (.ret (.ok ())) stored
  | failed (err : String) (stored : Bool) : Stage uuid encoding t message (.ret (.error err)) stored

section Stages

variable {uuid : Uuid} {encoding : Encoding} {t t' : EventTables} {message : Message}
  {program : EventProgram} {stored : Bool}

theorem Stage.grows (h : Stage uuid encoding t message program stored) (hgrows : t.Grows t') :
    Stage uuid encoding t' message program stored := by
  cases h with
  | start => exact .start
  | derived d hd hraw => exact .derived d hd (hgrows.events _ _ hraw)
  | mark row hd hraw hrow =>
      exact .mark row hd (hgrows.events _ _ hraw) (hgrows.winningsRedeemed _ _ hrow)
  | shown stored h => exact .shown stored (h.grows hgrows)
  | failed err stored => exact .failed err stored

theorem Stage.shows (h : Stage uuid encoding t message (.ret (.ok ())) stored) :
    t.Shows uuid encoding message := by
  generalize hprogram : (Program.ret (.ok ()) : EventProgram) = program at h
  cases h with
  | start => cases hprogram
  | derived d hd hraw =>
      cases d with
      | nothing =>
          refine ⟨hraw, fun d hd' => ?_⟩
          cases hd.symm.trans hd'
          trivial
      | resolution row => cases hprogram
      | redemption row => cases hprogram
  | mark row hd hraw hrow => cases hprogram
  | shown stored h => exact h
  | failed err stored => cases hprogram

/-- Only the first write of a delivery stores the raw event. -/
theorem Stage.of_creates {row : SmartContractEventV2} {rest : Except String Bool → EventProgram}
    (h : Stage uuid encoding t message (.call (.createEventV2 row) rest) stored) :
    encoding.md5uniq message = row.md5uniq := by
  generalize hprogram : (Program.call (.createEventV2 row) rest : EventProgram) = program at h
  cases h with
  | start =>
      cases hprogram
      rfl
  | derived d hd hraw =>
      cases d with
      | nothing => cases hprogram
      | resolution row => cases hprogram
      | redemption row => cases hprogram
  | mark row hd hraw hrow => cases hprogram
  | shown stored h => cases hprogram
  | failed err stored => cases hprogram

theorem events_of_write {r : EventRequest} {key : Str} {row : SmartContractEventV2}
    (hnone : t.events.find key = none) (hrow : (t.write uuid r).events.find key = some row) :
    ∃ new, r = .createEventV2 new ∧ new.md5uniq = key := by
  have hold (h : t.events.find key = some row) : False := by
    rw [hnone] at h
    exact absurd h (by simp)
  unfold EventTables.write at hrow
  split at hrow
  · exact (hold hrow).elim
  cases r with
  | createEventV2 new =>
      refine ⟨new, rfl, ?_⟩
      by_contra hne
      have hinsert : (t.events.insert new).find key = some row := hrow
      rw [Table.find_insert_of_ne hne] at hinsert
      exact hold hinsert
  | createMarketResolvedEvent new => exact (hold hrow).elim
  | createWinningsRedeemedEvent new => exact (hold hrow).elim
  | markPredictionIntentAsRedeemedForAccount marketId evmAddress =>
      dsimp only at hrow
      split at hrow
      · exact (hold hrow).elim
      · exact (hold hrow).elim

theorem find_insert_md5 {row : SmartContractEventV2} (h : t.events.find row.md5uniq = none) :
    (t.write uuid (.createEventV2 row)).events.find row.md5uniq = some row :=
  Table.find_insert_self h

theorem find_write_resolved {row : MarketResolvedRow}
    (h : t.isFree uuid (.createMarketResolvedEvent row) = true) :
    (t.write uuid (.createMarketResolvedEvent row)).marketResolved.find row.md5Uniq = some row := by
  have hnone : t.marketResolved.find row.md5Uniq = none := by
    rw [Table.find_eq_none]
    intro old hold
    have hfree := List.all_eq_true.mp h old hold
    rw [Bool.and_eq_true, bne_iff_ne] at hfree
    exact hfree.1
  unfold EventTables.write
  rw [if_neg (by rw [h]; simp)]
  exact Table.find_insert_self hnone

theorem find_write_redeemed {row : WinningsRedeemedRow}
    (h : t.isFree uuid (.createWinningsRedeemedEvent row) = true) :
    (t.write uuid (.createWinningsRedeemedEvent row)).winningsRedeemed.find row.md5Uniq =
      some row := by
  have hnone : t.winningsRedeemed.find row.md5Uniq = none := by
    rw [Table.find_eq_none]
    intro old hold
    have hfree := List.all_eq_true.mp h old hold
    rw [Bool.and_eq_true, bne_iff_ne] at hfree
    exact hfree.1
  unfold EventTables.write
  rw [if_neg (by rw [h]; simp)]
  exact Table.find_insert_self hnone

theorem redeemed_write {marketId evmAddress : Str} {marketID : Uint128}
    (hparse : uuid.parse marketId = .ok marketID) :
    ∀ intent ∈ (t.write uuid (.markPredictionIntentAsRedeemedForAccount marketId
      evmAddress)).intents.rows, intent.isOf marketID evmAddress = true →
        intent.redeemedAt = true := by
  have hwrite : (t.write uuid (.markPredictionIntentAsRedeemedForAccount marketId
      evmAddress)).intents.rows = t.intents.rows.map (redeemedIntent marketID evmAddress) := by
    have hfree : t.isFree uuid (.markPredictionIntentAsRedeemedForAccount marketId evmAddress) =
        true := by
      show (uuid.parse marketId).toOption.isSome = true
      rw [hparse]
      rfl
    unfold EventTables.write
    rw [if_neg (by rw [hfree]; simp)]
    simp only [hparse]
    rfl
  rw [hwrite]
  intro intent' hmem hof
  obtain ⟨intent, _, rfl⟩ := List.mem_map.mp hmem
  unfold redeemedIntent at hof ⊢
  split
  · rfl
  · next hnot =>
    rw [if_neg hnot] at hof
    exact absurd hof hnot

end Stages

def Delivery.Stage (uuid : Uuid) (encoding : Encoding) (t : EventTables) (delivery : Delivery) :
    Prop :=
  Events.Stage uuid encoding t delivery.message delivery.program delivery.stored

section Answers

variable {uuid : Uuid} {encoding : Encoding} {s : Projection} {delivery : Delivery}

/-- A write takes a delivery from one stage to the next; a raw event that is there already is shown
by an earlier delivery. -/
theorem Delivery.Stage.answered {r : EventRequest} {rest : r.Answer → EventProgram}
    (h : delivery.Stage uuid encoding s.tables) (hprogram : delivery.program = .call r rest)
    {answer : r.Answer} {commit : Bool} (hhonest : s.tables.Honest uuid r answer commit)
    (hthere : ∀ row, r = .createEventV2 row → (s.tables.events.find row.md5uniq).isSome = true →
      s.tables.Shows uuid encoding delivery.message) :
    (s.answered delivery r commit (rest answer)).Stage uuid encoding
      (if commit then s.tables.write uuid r else s.tables) := by
  obtain ⟨id, message, program, stored⟩ := delivery
  have hgrows := s.tables.grows_if uuid r commit
  have hstage : Events.Stage uuid encoding s.tables message program stored := h
  have hcall : program = .call r rest := hprogram
  clear h hprogram
  cases hstage with
  | start =>
      cases hcall
      cases answer with
      | error err => exact .failed err _
      | ok inserted =>
          obtain ⟨rfl, hinserted⟩ := hhonest
          show Events.Stage uuid encoding
            (s.tables.write uuid (.createEventV2 (message.row encoding))) message
            (if inserted = false then pure (.ok ()) else attempt
              (derived encoding message) storeDerived)
            (false || true && (s.tables.events.find (message.row encoding).md5uniq).isNone)
          cases hfind : s.tables.events.find (message.row encoding).md5uniq with
          | none =>
              have hraw : (s.tables.write uuid (.createEventV2 (message.row encoding))).events.find
                  (encoding.md5uniq message) = some (message.row encoding) := find_insert_md5 hfind
              rw [hfind, Option.isNone_none] at hinserted
              rw [hinserted, if_neg (by simp)]
              cases hd : derived encoding message with
              | error err => exact .failed err _
              | ok d => exact .derived d hd hraw
          | some row =>
              rw [hfind, Option.isNone_some] at hinserted
              rw [hinserted, if_pos rfl]
              exact .shown _ ((hthere _ rfl (by rw [hfind]; rfl)).grows hgrows)
  | derived d hd hraw =>
      cases d with
      | nothing => cases hcall
      | resolution row =>
          cases hcall
          cases answer with
          | error err => exact .failed err _
          | ok u =>
              obtain ⟨rfl, hfree⟩ := hhonest
              refine .shown _ ⟨hgrows.events _ _ hraw, fun d' hd' => ?_⟩
              cases hd.symm.trans hd'
              exact find_write_resolved hfree
      | redemption row =>
          cases hcall
          cases answer with
          | error err => exact .failed err _
          | ok u =>
              obtain ⟨rfl, hfree⟩ := hhonest
              exact .mark row hd (hgrows.events _ _ hraw) (find_write_redeemed hfree)
  | mark row hd hraw hrow =>
      cases hcall
      cases answer with
      | error err => exact .failed err _
      | ok u =>
          obtain ⟨rfl, hfree⟩ := hhonest
          refine .shown _ ⟨hgrows.events _ _ hraw, fun d' hd' => ?_⟩
          cases hd.symm.trans hd'
          exact ⟨hgrows.winningsRedeemed _ _ hrow, fun marketID hparse => redeemed_write hparse⟩
  | shown stored h => cases hcall
  | failed err stored => cases hcall

end Answers

/-! ## Runs -/

namespace Projection

variable {uuid : Uuid} {encoding : Encoding} {s : Projection} {e : ProjectionEvent}

/-- Each delivery is at a stage, each raw event was inserted by a delivery, and deliveries with one
digest have one message. -/
structure Projected (uuid : Uuid) (encoding : Encoding) (s : Projection) : Prop where
  stages : ∀ id delivery, s.deliveries.find id = some delivery →
    delivery.Stage uuid encoding s.tables
  origin : ∀ key row, s.tables.events.find key = some row → ∃ id delivery,
    s.deliveries.find id = some delivery ∧ delivery.stored = true ∧
      encoding.md5uniq delivery.message = key
  digests : ∀ id id' delivery delivery', s.deliveries.find id = some delivery →
    s.deliveries.find id' = some delivery' →
      encoding.md5uniq delivery.message = encoding.md5uniq delivery'.message →
        delivery.message = delivery'.message

theorem Projected.allShown (h : s.Projected uuid encoding) : s.AllShown uuid encoding := by
  intro delivery hmem hprocessed
  have hstage : Stage uuid encoding s.tables delivery.message delivery.program delivery.stored :=
    h.stages delivery.id delivery (Table.find_key hmem)
  rw [hprocessed] at hstage
  exact hstage.shows

theorem answered_kept (s : Projection) (delivery : Delivery) (r : EventRequest) (commit : Bool)
    (program : EventProgram) :
    (s.answered delivery r commit program).id = delivery.id ∧
      (s.answered delivery r commit program).message = delivery.message ∧
      (delivery.stored = true → (s.answered delivery r commit program).stored = true) := by
  cases r with
  | createEventV2 row => exact ⟨rfl, rfl, fun h => by simp [answered, h]⟩
  | _ => exact ⟨rfl, rfl, fun h => h⟩

theorem Projected.of_delivery (h : s.Projected uuid encoding) {s' : Projection} {id : Nat}
    {delivery delivery' : Delivery} (hgrows : s.tables.Grows s'.tables)
    (hfind : s.deliveries.find id = some delivery)
    (hdeliveries : ∀ k, s'.deliveries.find k = if k = id then some delivery'
      else s.deliveries.find k)
    (hmessage : delivery'.message = delivery.message)
    (hkept : delivery.stored = true → delivery'.stored = true)
    (hstage : delivery'.Stage uuid encoding s'.tables)
    (horigin : ∀ key row, s'.tables.events.find key = some row →
      (s.tables.events.find key).isSome = true ∨
        (delivery'.stored = true ∧ encoding.md5uniq delivery'.message = key)) :
    s'.Projected uuid encoding := by
  have hself : s'.deliveries.find id = some delivery' := by rw [hdeliveries id, if_pos rfl]
  have hmessages : ∀ k other, s'.deliveries.find k = some other →
      ∃ old, s.deliveries.find k = some old ∧ other.message = old.message := by
    intro k other hother
    rw [hdeliveries k] at hother
    split at hother
    · next hk =>
      subst hk
      cases hother
      exact ⟨delivery, hfind, hmessage⟩
    · exact ⟨other, hother, rfl⟩
  constructor
  · intro k other hother
    rw [hdeliveries k] at hother
    split at hother
    · cases hother
      exact hstage
    · exact (h.stages k other hother).grows hgrows
  · intro key row hrow
    rcases horigin key row hrow with hold | hnew
    · obtain ⟨old, hold⟩ := Option.isSome_iff_exists.mp hold
      obtain ⟨k, other, hother, hstored, hkey⟩ := h.origin key old hold
      by_cases hk : k = id
      · subst hk
        cases Option.some.inj (hfind.symm.trans hother)
        exact ⟨k, delivery', hself, hkept hstored, hmessage ▸ hkey⟩
      · exact ⟨k, other, by rw [hdeliveries k, if_neg hk, hother], hstored, hkey⟩
    · exact ⟨id, delivery', hself, hnew⟩
  · intro k k' first second hfirst hsecond hkeys
    obtain ⟨old, hold, hsame⟩ := hmessages k first hfirst
    obtain ⟨old', hold', hsame'⟩ := hmessages k' second hsecond
    rw [hsame, hsame'] at hkeys ⊢
    exact h.digests k k' old old' hold hold' hkeys

theorem Projected.serve (h : s.Projected uuid encoding) {id : Nat}
    {answer : (r : EventRequest) → r.Answer} {commit : Bool}
    (hallowed : s.Allowed uuid (.serve id answer commit))
    (hcondition : s.InOneGo encoding (.serve id answer commit)) :
    (s.serve uuid id answer commit).Projected uuid encoding := by
  unfold Projection.serve
  split
  · exact h
  next delivery hfind =>
  split
  · exact h
  next r rest hprogram =>
  obtain ⟨hid, hmessage, hkept⟩ := s.answered_kept delivery r commit (rest (answer r))
  have hkey : delivery.id = id := (Table.find_eq_some.mp hfind).2
  have hstage := h.stages id delivery hfind
  refine h.of_delivery (s.tables.grows_if uuid r commit) hfind (fun k => ?_) hmessage hkept ?_ ?_
  · dsimp only
    rw [Table.find_put, hid, hkey]
    split
    · next hk =>
      subst hk
      rw [hfind, Option.map_some]
    · rfl
  · apply hstage.answered hprogram (hallowed delivery r rest hfind hprogram)
    -- the delivery that inserted the raw event has been processed without failure
    rintro row rfl hthere
    have hrow : encoding.md5uniq delivery.message = row.md5uniq := by
      have hstage' : Stage uuid encoding s.tables delivery.message delivery.program
        delivery.stored :=
        hstage
      rw [hprogram] at hstage'
      exact hstage'.of_creates
    obtain ⟨old, hold⟩ := Option.isSome_iff_exists.mp hthere
    obtain ⟨k, other, hother, hstored, hkey'⟩ := h.origin _ old hold
    have hsame : encoding.md5uniq other.message = encoding.md5uniq delivery.message :=
      hkey'.trans hrow.symm
    have hprocessed := hcondition delivery row rest hfind hprogram other
      (Table.find_eq_some.mp hother).1 hstored hsame
    rw [h.digests id k delivery other hfind hother hsame.symm]
    exact h.allShown other (Table.find_eq_some.mp hother).1 hprocessed
  · intro key row hrow
    by_cases hold : (s.tables.events.find key).isSome = true
    · exact Or.inl hold
    right
    rw [Bool.not_eq_true, Option.isSome_eq_false_iff, Option.isNone_iff_eq_none] at hold
    have hcommit : commit = true := by
      by_contra hnot
      rw [Bool.not_eq_true] at hnot
      subst hnot
      exact absurd (hold.symm.trans hrow) (by simp)
    subst hcommit
    obtain ⟨new, rfl, hmd5⟩ := events_of_write hold hrow
    have hstage' : Stage uuid encoding s.tables delivery.message delivery.program delivery.stored :=
      hstage
    rw [hprogram] at hstage'
    have hcreates := hstage'.of_creates
    rw [hmd5] at hcreates
    refine ⟨?_, hmessage ▸ hcreates⟩
    show (delivery.stored || true && (s.tables.events.find new.md5uniq).isNone) = true
    rw [hmd5, hold]
    simp

theorem Projected.next (h : s.Projected uuid encoding) (hallowed : s.Allowed uuid e)
    (hcondition : s.InOneGo encoding e) : (s.next uuid encoding e).Projected uuid encoding := by
  cases e with
  | serve id answer commit => exact h.serve hallowed hcondition
  | deliver id message =>
      have hnew : s.deliveries.find id = none := hallowed
      have hcases : ∀ k delivery, (s.next uuid encoding (.deliver id message)).deliveries.find k =
          some delivery → s.deliveries.find k = some delivery ∨
            delivery = ⟨id, message, handlePrismV2Event encoding message, false⟩ := by
        intro k delivery hdelivery
        obtain ⟨hmem, hkey⟩ := Table.find_eq_some.mp hdelivery
        rcases Table.mem_of_mem_insert hmem with hold | hnew
        · exact Or.inl (Table.find_eq_some.mpr ⟨hold, hkey⟩)
        · exact Or.inr hnew
      constructor
      · intro k delivery hdelivery
        rcases hcases k delivery hdelivery with hold | rfl
        · exact h.stages k delivery hold
        · exact .start
      · intro key row hrow
        obtain ⟨k, delivery, hdelivery, hstored, hkey⟩ := h.origin key row hrow
        exact ⟨k, delivery, Table.find_insert hdelivery, hstored, hkey⟩
      · intro k k' first second hfirst hsecond hkeys
        rcases hcases k first hfirst with hold | rfl
        · rcases hcases k' second hsecond with hold' | rfl
          · exact h.digests k k' first second hold hold' hkeys
          · exact hcondition first (Table.find_eq_some.mp hold).1 hkeys
        · rcases hcases k' second hsecond with hold' | rfl
          · exact (hcondition second (Table.find_eq_some.mp hold').1 hkeys.symm).symm
          · rfl
  | stop id =>
      cases hfind : s.deliveries.find id with
      | none =>
          have hsame : (s.deliveries.modify id lost fun _ => rfl).rows = s.deliveries.rows :=
            Table.modify_of_none hfind
          have hall (k : Nat) : (s.next uuid encoding (.stop id)).deliveries.find k =
              s.deliveries.find k := congrArg (List.find? _) hsame
          constructor
          · intro k delivery hdelivery
            exact h.stages k delivery (hall k ▸ hdelivery)
          · intro key row hrow
            obtain ⟨k, delivery, hdelivery, hrest⟩ := h.origin key row hrow
            exact ⟨k, delivery, (hall k).trans hdelivery, hrest⟩
          · intro k k' first second hfirst hsecond
            exact h.digests k k' first second (hall k ▸ hfirst) (hall k' ▸ hsecond)
      | some delivery =>
          have hmessage : (lost delivery).message = delivery.message := rfl
          have hlost : (lost delivery).Stage uuid encoding s.tables := .failed _ _
          refine h.of_delivery (.refl _) hfind (fun k => ?_) hmessage (fun h => h) hlost ?_
          swap
          · intro key row hrow
            have hold : s.tables.events.find key = some row := hrow
            exact Or.inl (by rw [hold]; rfl)
          show (s.deliveries.modify id lost fun _ => rfl).find k = _
          rw [Table.find_modify_map (f := lost) fun _ => rfl]
          split
          · next hk =>
            subst hk
            rw [hfind, Option.map_some]
          · exact Option.map_id'

structure Fresh (s : Projection) : Prop where
  deliveries : s.deliveries = .empty
  events : s.tables.events = .empty

theorem Fresh.projected (h : s.Fresh) : s.Projected uuid encoding := by
  have hnone (id : Nat) (delivery : Delivery) : s.deliveries.find id ≠ some delivery := by
    rw [h.deliveries]
    simp [Table.find, Table.empty]
  refine ⟨fun id delivery hfind => absurd hfind (hnone id delivery), ?_,
    fun id _ delivery _ hfind => absurd hfind (hnone id delivery)⟩
  intro key row hrow
  rw [h.events] at hrow
  exact absurd hrow (by simp [Table.find, Table.empty])

/-- In every state of a run in which a raw event is looked for only when a delivery that inserted it
has been processed, every event that was processed without failure is shown. -/
theorem events_shown (hfresh : s.Fresh) {events : List ProjectionEvent}
    (hruns : (projection uuid encoding).Runs (InOneGo encoding) s events) :
    ((projection uuid encoding).run s events).AllShown uuid encoding := by
  have hprojected : ((projection uuid encoding).run s events).Projected uuid encoding :=
    hruns.preserves (fun _ _ h hallowed hcondition => h.next hallowed hcondition) hfresh.projected
  exact hprojected.allShown

theorem allowed_serve {id : Nat} {delivery : Delivery} {r : EventRequest}
    {rest : r.Answer → EventProgram} {answer : (r : EventRequest) → r.Answer} {commit : Bool}
    (hfind : s.deliveries.find id = some delivery) (hprogram : delivery.program = .call r rest)
    (h : s.tables.Honest uuid r (answer r) commit) : s.Allowed uuid (.serve id answer commit) := by
  intro delivery' r' rest' hfind' hprogram'
  cases Option.some.inj (hfind.symm.trans hfind')
  cases hprogram.symm.trans hprogram'
  exact h

/-- Every delivery that inserted a raw event has been processed, or the write is another one. -/
theorem inOneGo_serve {id : Nat} {answer : (r : EventRequest) → r.Answer} {commit : Bool}
    (h : (∀ other ∈ s.deliveries.rows, other.stored = true → other.program = .ret (.ok ())) ∨
      ∃ delivery r rest, s.deliveries.find id = some delivery ∧ delivery.program = .call r rest ∧
        ∀ row, r ≠ .createEventV2 row) : s.InOneGo encoding (.serve id answer commit) := by
  intro delivery row rest hfind hprogram other hother hstored _
  rcases h with hall | ⟨delivery', r, rest', hfind', hprogram', hne⟩
  · exact hall other hother hstored
  · cases Option.some.inj (hfind'.symm.trans hfind)
    cases hprogram'.symm.trans hprogram
    exact absurd rfl (hne row)

theorem inOneGo_deliver {id : Nat} {message : Message}
    (h : ∀ delivery ∈ s.deliveries.rows, delivery.message = message) :
    s.InOneGo encoding (.deliver id message) :=
  fun delivery hmem _ => h delivery hmem

def sampleResolution : Message where
  contractId := "0.0.7001".toList
  evt := {
    net := "testnet".toList
    event := "MarketStateChanged".toList
    args := [("marketId".toList, "5".toList), ("state".toList, "4".toList)]
    timestamp := "1778689217.019002918".toList
    txHash := "0xbc".toList
    host := "a".toList }

def sampleProjection : Projection where
  tables := ⟨.empty, .empty, .empty, .empty⟩
  deliveries := .empty

def sampleWrite (inserted : Bool) : (r : EventRequest) → r.Answer
  | .createEventV2 _ => .ok inserted
  | .createMarketResolvedEvent _ => .ok ()
  | .createWinningsRedeemedEvent _ => .ok ()
  | .markPredictionIntentAsRedeemedForAccount _ _ => .ok ()

/-- Two deliveries of one event, the first of which stores the raw event and the resolution. -/
theorem events_shown_sample : ((projection sampleUuid sampleEncoding).run sampleProjection
    [.deliver 1 sampleResolution, .serve 1 (sampleWrite true) true,
      .serve 1 (sampleWrite true) true,
      .deliver 2 sampleResolution, .serve 2 (sampleWrite false) true]).AllShown sampleUuid
        sampleEncoding := by
  apply events_shown ⟨rfl, rfl⟩
  refine ⟨rfl, fun _ h => absurd h List.not_mem_nil, ?_⟩
  refine ⟨allowed_serve rfl rfl ⟨rfl, rfl⟩, inOneGo_serve (Or.inl ?_), ?_⟩
  · intro other hother hstored
    rw [List.mem_singleton.mp hother] at hstored
    exact absurd hstored Bool.false_ne_true
  refine ⟨allowed_serve rfl rfl ⟨rfl, rfl⟩, inOneGo_serve (Or.inr ⟨_, _, _, rfl, rfl, by simp⟩), ?_⟩
  refine ⟨rfl, inOneGo_deliver fun delivery hmem => ?_, ?_⟩
  · rw [List.mem_singleton.mp hmem]
    rfl
  refine ⟨allowed_serve rfl rfl ⟨rfl, rfl⟩, inOneGo_serve (Or.inl ?_), trivial⟩
  intro other hother hstored
  rcases List.mem_cons.mp hother with rfl | hother
  · rfl
  · rw [List.mem_singleton.mp hother] at hstored
    exact absurd hstored Bool.false_ne_true

/-- The delivery that inserts the raw event is lost before it stores the resolution, and the next
one takes the event for stored. -/
theorem event_not_shown :
    (projection sampleUuid sampleEncoding).Runs (fun _ _ => True) sampleProjection
        [.deliver 1 sampleResolution, .serve 1 (sampleWrite true) true, .stop 1,
          .deliver 2 sampleResolution, .serve 2 (sampleWrite false) true] ∧
      ¬((projection sampleUuid sampleEncoding).run sampleProjection
        [.deliver 1 sampleResolution, .serve 1 (sampleWrite true) true, .stop 1,
          .deliver 2 sampleResolution, .serve 2 (sampleWrite false) true]).AllShown sampleUuid
            sampleEncoding := by
  constructor
  · refine ⟨rfl, trivial, allowed_serve rfl rfl ⟨rfl, rfl⟩, trivial, trivial, trivial,
      rfl, trivial, ?_⟩
    exact ⟨allowed_serve rfl rfl ⟨rfl, rfl⟩, trivial, trivial⟩
  · intro h
    have hshown := h _ (List.mem_cons_of_mem _ (List.mem_singleton_self _)) rfl
    have hresolved := hshown.derived _ rfl
    cases hresolved

end Projection

end PrismBackend.Events
