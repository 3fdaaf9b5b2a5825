import PrismBackend.Lib.System
import PrismBackend.Api.Tasks
import PrismBackend.Clob.Service

/-!
# API and CLOB: the life of orders

Any number of processes of the API run tasks on one database, and each may be
lost between two of its requests. Messages go through a stream that stores,
deduplicates and redelivers them, and the CLOB may restart with an empty book.
-/

namespace PrismBackend.Api

open PrismBackend.Lib PrismBackend.Clob PrismBackend.PrismV2

/-! ## State -/

/-- A task, what is left of it, and what was answered so far. -/
structure Task where
  kind : TaskKind
  program : OrderM Unit
  answers : List ((r : OrderRequest) × r.Answer)

/-- A message that the stream has taken; it is done once its consumer has acknowledged it. -/
structure StreamMessage where
  subject : Str
  messageID : Str
  payload : Fields
  storedAt : Nat
  done : Bool

structure Exchange where
  clock : Nat
  db : Db
  outbox : Outbox
  tasks : List Task
  stream : List StreamMessage
  /- the ids of the messages whose publication was acknowledged to the API -/
  acknowledged : List Str
  clob : OrderBookService
  fills : List ClobMatch

inductive Event
  | tick (seconds : Nat)
  | start (kind : TaskKind)
  /- a request of a task is answered, and its effect takes place or not; a new row of the outbox
  gets the id -/
  | serve (i : Nat) (answer : (r : OrderRequest) → r.Answer) (commit : Bool) (id : Nat)
  /- a task has returned, or is lost -/
  | stop (i : Nat)
  /- a message reaches the CLOB, and the acknowledgement may be lost -/
  | deliver (j : Nat) (now : Nat) (acks : Bool)
  | expire (j : Nat)
  | restartClob
  | closeMarket (marketId : Str)
  | settle (m : MatchV2) (txHash : Str)
  | fullyMatched (marketID txID : Uint128)
  | markets (rows : Table MarketRow Uint128 fun row => row.marketID)
  | matches_ (rows : Table Match Str fun row => row.matchID)

section Steps

variable (p : Platform) (sdk : Sdk)

/-! ## The stream -/

def Exchange.isDuplicate (s : Exchange) (messageID : Str) : Bool :=
  p.jetStream.knows (s.stream.map fun m => (m.messageID, m.storedAt)) s.clock messageID

/-- The stream takes a message that is no duplicate. -/
def Exchange.publish (s : Exchange) (subject : Str) (payload : Fields) (messageID : Str) :
    Exchange :=
  if s.isDuplicate p messageID then s
  else { s with stream := s.stream ++ [⟨subject, messageID, payload, s.clock, false⟩] }

/-- `subscribe_and_place_orders`: a message is acknowledged unless its market is not found. -/
def Exchange.deliver (s : Exchange) (j : Nat) (now : Nat) (acks : Bool) : Exchange :=
  match s.stream[j]? with
  | none => s
  | some m =>
    if m.done ∨ m.subject ≠ subjectClobOrders then s
    else
      let handled := { s with stream := s.stream.set j { m with done := acks } }
      match readOrder m.payload with
      | none => handled
      | some order =>
        if s.clob.orderExists order.txId then handled
        else if (s.clob.bookOf order.marketId).isNone then s
        else
          let placed := s.clob.placeOrder order now
          { handled with clob := placed.1, fills := s.fills ++ placed.2 }

def Exchange.expire (s : Exchange) (j : Nat) : Exchange :=
  match s.stream[j]? with
  | none => s
  | some m => { s with stream := s.stream.set j { m with done := true } }

/-! ## The outbox -/

def Outbox.pending (outbox : Outbox) (now : Nat) : List OutboxRow :=
  (outbox.rows.filter fun row => !row.deliveredAt && decide (row.nextAttemptAt ≤ now)).mergeSort
    fun row row' => row.id ≤ row'.id

def maxBackoff : Nat := 5 * 60

def backoff (attempts : Nat) : Nat := min maxBackoff (2 ^ min attempts 8)

/-- `RecordOrderOutboxFailure`. -/
def Outbox.recordFailure (outbox : Outbox) (id : Nat) (cause : String) (now : Nat) : Outbox :=
  outbox.modify id (fun row => if row.deliveredAt then row else
    { row with
      attempts := row.attempts + 1
      lastError := some cause
      nextAttemptAt := now + backoff row.attempts }) fun row => by
        split
        · rfl
        · rfl

/-- `MarkOrderOutboxDelivered`. -/
def Outbox.markDelivered (outbox : Outbox) (id : Nat) : Outbox :=
  outbox.modify id (fun row => if row.deliveredAt then row else
    { row with
      deliveredAt := true
      lastError := none }) fun row => by
        split
        · rfl
        · rfl

/-! ## Effects and answers -/

def Exchange.effect (s : Exchange) (id : Nat) : (r : OrderRequest) → r.Answer → Exchange
  | .createOrderIntentRequestWithOutbox req subject payload, _ =>
    match s.db.createOrderIntentRequestWithOutbox s.outbox p.uuid req subject payload
      id s.clock with
    | .ok (db, outbox) => { s with db, outbox }
    | .error _ => s
  | .publishWithID subject payload messageID, answer =>
    match answer with
    | .ok _ =>
      { s.publish p subject payload messageID with acknowledged := messageID :: s.acknowledged }
    | .error _ => s.publish p subject payload messageID
  | .recordOrderOutboxFailure id cause, _ =>
    { s with outbox := s.outbox.recordFailure id cause s.clock }
  | .markOrderOutboxDelivered id, _ => { s with outbox := s.outbox.markDelivered id }
  | .cancelPredictionIntent txId, _ =>
    match p.uuid.parse txId with
    | .ok txID => { s with db := s.db.cancelPredictionIntent txID }
    | .error _ => s
  | .cancelOrder marketId txId, _ => { s with clob := (s.clob.cancelOrder marketId txId).1 }
  | .markPredictionIntentAsEvicted txID, _ =>
    { s with db := s.db.markPredictionIntentAsEvicted txID }
  | .createMarketOnClob marketId, _ => { s with clob := (s.clob.addMarket marketId).1 }
  | _, _ => s

/-- What an answer may say: a row that was read is the row, a write that was reported has taken
place, and an error may come with or without the effect. -/
def Exchange.Honest (s : Exchange) : (r : OrderRequest) → r.Answer → Bool → Prop
  | .isDuplicateTxId txUUID, .ok seen, _ => seen = (s.db.intents.find txUUID).isSome
  | .isMarketTradeable marketId, .ok tradeable, _ =>
    s.db.isMarketTradeable p.uuid marketId s.clock = .ok tradeable
  | .getMarketById marketId, .ok row, _ => s.db.getMarketById p.uuid marketId true = .ok row
  | .getUserPositionBalancesV2 _ _ _ _, .ok balances, _ =>
    balances.1 < 2 ^ 64 ∧ balances.2 < 2 ^ 64
  | .getAllOpenPredictionIntentsByMarketIdAndAccountId marketID accountID, .ok rows, _ =>
    rows.Perm (s.db.openPredictionIntentsOf marketID accountID)
  | .createOrderIntentRequestWithOutbox req subject payload, .ok _, commit =>
    commit = true ∧ ∃ tables,
      s.db.createOrderIntentRequestWithOutbox s.outbox p.uuid req subject payload 0 s.clock =
        .ok tables
  | .pendingOrderOutbox limit, .ok rows, _ => rows = (s.outbox.pending s.clock).take limit
  | .publishWithID _ _ _, .ok _, commit => commit = true
  | .recordOrderOutboxFailure _ _, .ok _, commit => commit = true
  | .markOrderOutboxDelivered _, .ok _, commit => commit = true
  | .getPredictionIntentByTxId txId, .ok row, _ =>
    s.db.getPredictionIntentByTxId p.uuid txId = .ok row
  | .cancelPredictionIntent txId, .ok _, commit => commit = true ∧
    ∃ txID, p.uuid.parse txId = .ok txID
  | .cancelOrder marketId txId, .ok _, commit =>
    commit = true ∧ (s.clob.cancelOrder marketId txId).2 = some true
  | .markPredictionIntentAsEvicted _, .ok _, commit => commit = true
  | .getAllUnresolvedMarkets, .ok rows, _ =>
    rows.Perm (s.db.markets.rows.filter (·.tradeable s.clock))
  | .createMarketOnClob marketId, .ok _, commit =>
    commit = true ∧ (s.clob.addMarket marketId).2 = true
  | .getAllOpenPredictionIntentsByMarketId marketId, .ok rows, _ =>
    ∃ marketID, p.uuid.parse marketId = .ok marketID ∧
      rows.Perm (s.db.openPredictionIntents marketID)
  | .getAllMatchesForMarketIdTxId marketID txID, .ok rows, _ =>
    rows.Perm (s.db.matches_.rows.filter fun row =>
      row.marketID == marketID && (row.txId1 == txID || row.txId2 == txID))
  | _, _, _ => True

/-! ## Steps -/

def Exchange.serve (s : Exchange) (i : Nat) (answer : (r : OrderRequest) → r.Answer)
    (commit : Bool) (id : Nat) : Exchange :=
  match s.tasks[i]? with
  | none => s
  | some task =>
    match task.program with
    | .ret _ => s
    | .call r rest =>
      let task : Task := ⟨task.kind, rest (answer r), task.answers ++ [⟨r, answer r⟩]⟩
      { (if commit then s.effect p id r (answer r) else s) with tasks := s.tasks.set i task }

def Exchange.next (s : Exchange) : Event → Exchange
  | .tick seconds => { s with clock := s.clock + seconds }
  | .start kind => { s with tasks := s.tasks ++ [⟨kind, kind.program p sdk, []⟩] }
  | .serve i answer commit id => s.serve p i answer commit id
  | .stop i => { s with tasks := s.tasks.eraseIdx i }
  | .deliver j now acks => s.deliver j now acks
  | .expire j => s.expire j
  | .restartClob => { s with clob := .new }
  | .closeMarket marketId => { s with clob := s.clob.closeMarket marketId }
  | .settle m txHash =>
    { s with db := ((s.db.finalizeMatchV2 p.uuid m txHash).toOption.map Prod.fst).getD s.db }
  | .fullyMatched marketID txID =>
    { s with db := s.db.markPredictionIntentAsFullyMatched marketID txID }
  | .markets rows => { s with db := { s.db with markets := rows } }
  | .matches_ rows => { s with db := { s.db with matches_ := rows } }

/-- What can happen: requests satisfy the rules of their message, answers are honest, the sequence
gives new ids, a leg of a fill pays no more than its shares, the kick-out takes an order that is
there, and a market that appears was not deleted before, or is new. -/
def Exchange.Allowed (s : Exchange) : Event → Prop
  | .start (.create req) => req.Validated ∧ req.Typed
  | .start (.evict marketID txID) =>
    ∃ row, s.db.intents.find txID = some row ∧ row.marketID = marketID
  | .serve i answer commit id => (∀ row ∈ s.outbox.rows, row.id ≠ id) ∧
    ∀ task r rest, s.tasks[i]? = some task → task.program = .call r rest →
      s.Honest p r (answer r) commit
  | .settle m _ => m.bidCollateral ≤ m.fillShares ∧ m.askCollateral ≤ m.fillShares
  | .markets rows => ∀ marketID, (rows.find marketID).any (!·.deletedAt) →
    s.db.isLive marketID ∨ ∀ row ∈ s.db.intents.rows, row.marketID ≠ marketID
  | _ => True

def exchange : System Exchange Event where
  next := Exchange.next p sdk
  Allowed := Exchange.Allowed p

end Steps

/-! ## Tasks -/

section Tasks

variable {p : Platform} {sdk : Sdk} {s : Exchange} {e : Event}

theorem Exchange.publish_frame (s : Exchange) (subject : Str) (payload : Fields) (messageID : Str) :
    (s.publish p subject payload messageID).db = s.db ∧
      (s.publish p subject payload messageID).outbox = s.outbox ∧
      (s.publish p subject payload messageID).acknowledged = s.acknowledged := by
  unfold Exchange.publish
  split
  · exact ⟨rfl, rfl, rfl⟩
  · exact ⟨rfl, rfl, rfl⟩

theorem Exchange.deliver_frame (s : Exchange) (j now : Nat) (acks : Bool) :
    (s.deliver j now acks).tasks = s.tasks ∧ (s.deliver j now acks).db = s.db ∧
      (s.deliver j now acks).outbox = s.outbox ∧
      (s.deliver j now acks).acknowledged = s.acknowledged ∧
      (s.deliver j now acks).clock = s.clock := by
  unfold Exchange.deliver
  split
  · exact ⟨rfl, rfl, rfl, rfl, rfl⟩
  split
  · exact ⟨rfl, rfl, rfl, rfl, rfl⟩
  dsimp only
  split
  · exact ⟨rfl, rfl, rfl, rfl, rfl⟩
  split
  · exact ⟨rfl, rfl, rfl, rfl, rfl⟩
  split
  · exact ⟨rfl, rfl, rfl, rfl, rfl⟩
  · exact ⟨rfl, rfl, rfl, rfl, rfl⟩

theorem Exchange.expire_frame (s : Exchange) (j : Nat) :
    (s.expire j).tasks = s.tasks ∧ (s.expire j).db = s.db ∧ (s.expire j).outbox = s.outbox ∧
      (s.expire j).acknowledged = s.acknowledged ∧ (s.expire j).clock = s.clock := by
  unfold Exchange.expire
  split
  · exact ⟨rfl, rfl, rfl, rfl, rfl⟩
  · exact ⟨rfl, rfl, rfl, rfl, rfl⟩

/-- Where a task comes from: it was there, it was just started, or one of its requests was just
answered. -/
theorem Exchange.mem_tasks_next {task' : Task} (h : task' ∈ (s.next p sdk e).tasks) :
    task' ∈ s.tasks ∨ (∃ kind, e = .start kind ∧ task' = ⟨kind, kind.program p sdk, []⟩) ∨
      ∃ i answer commit id task r rest, e = .serve i answer commit id ∧
        s.tasks[i]? = some task ∧ task.program = .call r rest ∧
        task' = ⟨task.kind, rest (answer r), task.answers ++ [⟨r, answer r⟩]⟩ := by
  cases e with
  | start kind =>
      rcases List.mem_append.mp h with h | h
      · exact Or.inl h
      · exact Or.inr (Or.inl ⟨kind, rfl, List.mem_singleton.mp h⟩)
  | serve i answer commit id =>
      simp only [Exchange.next, Exchange.serve] at h
      split at h
      · exact Or.inl h
      next task htask =>
      split at h
      · exact Or.inl h
      next r rest hprogram =>
      rcases List.mem_or_eq_of_mem_set h with h | h
      · exact Or.inl h
      · exact Or.inr (Or.inr ⟨i, answer, commit, id, task, r, rest, rfl, htask, hprogram, h⟩)
  | stop i => exact Or.inl (List.mem_of_mem_eraseIdx h)
  | deliver j now acks => exact Or.inl ((s.deliver_frame j now acks).1 ▸ h)
  | expire j => exact Or.inl ((s.expire_frame j).1 ▸ h)
  | _ => exact Or.inl h

def TaskKind.Started : TaskKind → Prop
  | .create req => req.Validated ∧ req.Typed
  | _ => True

def Exchange.OnPath (p : Platform) (sdk : Sdk) (s : Exchange) : Prop :=
  ∀ task ∈ s.tasks, (task.kind.program p sdk).Path task.answers task.program ∧ task.kind.Started

theorem Exchange.OnPath.next (hs : s.OnPath p sdk) (hallowed : s.Allowed p e) :
    (s.next p sdk e).OnPath p sdk := by
  intro task' hmem
  rcases Exchange.mem_tasks_next hmem with hold | ⟨kind, rfl, rfl⟩ |
    ⟨i, answer, commit, id, task, r, rest, rfl, htask, hprogram, rfl⟩
  · exact hs task' hold
  · refine ⟨.nil _, ?_⟩
    cases kind with
    | create req => exact hallowed
    | _ => trivial
  · obtain ⟨hpath, hstarted⟩ := hs task (List.mem_of_getElem? htask)
    rw [hprogram] at hpath
    exact ⟨hpath.concat (answer r), hstarted⟩

/-! ## Who asks for what -/

def OrderRequest.Sweeps : OrderRequest → Prop
  | .pendingOrderOutbox _ => True
  | .publishWithID _ _ _ => True
  | .recordOrderOutboxFailure _ _ => True
  | .markOrderOutboxDelivered _ => True
  | _ => False

def OrderRequest.Cancels : OrderRequest → Prop
  | .getPublicKey _ _ => True
  | .getPredictionIntentByTxId _ => True
  | .cancelPredictionIntent _ => True
  | .cancelOrder _ _ => True
  | _ => False

def OrderRequest.Evicts : OrderRequest → Prop
  | .cancelPredictionIntent _ => True
  | .cancelOrder _ _ => True
  | .markPredictionIntentAsEvicted _ => True
  | _ => False

def OrderRequest.Restores : OrderRequest → Prop
  | .getAllUnresolvedMarkets => True
  | .createMarketOnClob _ => True
  | .getAllOpenPredictionIntentsByMarketId _ => True
  | .getAllMatchesForMarketIdTxId _ _ => True
  | .publishWithID _ _ _ => True
  | .markPredictionIntentAsRegenerated _ => True
  | _ => False

def TaskKind.Asks : TaskKind → OrderRequest → Prop
  | .create _, r => r.Checks ∨ r.isCreate
  | .sweep, r => r.Sweeps
  | .cancel _, r => r.Cancels
  | .evict _ _, r => r.Evicts
  | .recreate, r => r.Restores

theorem publishRecords_makes (p : Platform) (records : List OutboxRow) :
    (publishRecords p records).Makes OrderRequest.Sweeps := by
  induction records with
  | nil => trivial
  | cons record records ih =>
      refine ⟨trivial, ?_⟩
      intro answer
      cases answer with
      | error err => exact ⟨trivial, fun _ => ih⟩
      | ok _ => exact ⟨trivial, fun _ => ih⟩

theorem sweepOutbox_makes (p : Platform) : (sweepOutbox p).Makes OrderRequest.Sweeps := by
  refine ⟨trivial, ?_⟩
  intro answer
  cases answer with
  | error err => trivial
  | ok records => exact publishRecords_makes p records

theorem cancelNoSigCheck_makes {P : OrderRequest → Prop} {marketId txId : Str}
    (hmark : P (.cancelPredictionIntent txId)) (hremove : P (.cancelOrder marketId txId)) :
    (cancelPredictionIntentNoSigCheck marketId txId).Makes P :=
  Program.makes_andThen (ask_makes (Program.makes_request hmark) _) fun _ =>
    Program.makes_andThen (ask_makes (Program.makes_request hremove) _) fun _ => trivial

theorem cancelPredictionIntent_makes (p : Platform) (sdk : Sdk) (req : CancelOrderRequest) :
    (cancelPredictionIntent p sdk req).Makes OrderRequest.Cancels :=
  Program.makes_attempt fun _ _ =>
    Program.makes_andThen (ask_makes (Program.makes_request (by exact trivial)) _) fun _ =>
      Program.makes_attempt fun _ _ =>
        Program.makes_andThen (ask_makes (Program.makes_request (by exact trivial)) _) fun _ =>
          Program.makes_attempt fun _ _ => cancelNoSigCheck_makes trivial trivial

theorem evict_makes (p : Platform) (marketID txID : Uint128) :
    (evict p marketID txID).Makes OrderRequest.Evicts := by
  refine Program.makes_bind (cancelNoSigCheck_makes trivial trivial) ?_
  intro result
  cases result with
  | error err => trivial
  | ok _ => exact ⟨trivial, fun _ => trivial⟩

section Restore

variable {P : OrderRequest → Prop}
  (hmatches : ∀ marketID txID, P (.getAllMatchesForMarketIdTxId marketID txID))
  (hpublish : ∀ subject payload messageID, P (.publishWithID subject payload messageID))
  (hmark : ∀ txId, P (.markPredictionIntentAsRegenerated txId))

include hmatches hpublish hmark

theorem restoreOrders_makes (p : Platform) (rows : List PredictionIntent) :
    (restoreOrders p rows).Makes P := by
  induction rows with
  | nil => trivial
  | cons row rows ih =>
      unfold restoreOrders
      split
      · exact ih
      · refine Program.makes_andThen (ask_makes (Program.makes_request (hmatches _ _)) _) ?_
        intro matches_
        dsimp only
        split
        · exact ih
        · exact Program.makes_andThen (ask_makes (Program.makes_request (hpublish _ _ _)) _)
            fun _ => Program.makes_andThen (ask_makes (Program.makes_request (hmark _)) _)
              fun _ => ih

theorem restoreMarkets_makes (hcreate : ∀ marketId, P (.createMarketOnClob marketId))
    (hopen : ∀ marketId, P (.getAllOpenPredictionIntentsByMarketId marketId)) (p : Platform)
    (markets : List MarketRow) : (restoreMarkets p markets).Makes P := by
  induction markets with
  | nil => trivial
  | cons market markets ih =>
      exact Program.makes_andThen (ask_makes (Program.makes_request (hcreate _)) _)
        fun _ => Program.makes_andThen (ask_makes (Program.makes_request (hopen _)) _)
          fun _ => Program.makes_andThen (restoreOrders_makes hmatches hpublish hmark p _)
            fun _ => ih

end Restore

theorem recreate_makes (p : Platform) : (triggerRecreateClob p).Makes OrderRequest.Restores :=
  Program.makes_andThen (ask_makes (Program.makes_request (by exact trivial)) _) fun _ =>
    restoreMarkets_makes (fun _ _ => trivial) (fun _ _ _ => trivial) (fun _ => trivial)
      (fun _ => trivial) (fun _ => trivial) p _

theorem TaskKind.program_makes (p : Platform) (sdk : Sdk) (kind : TaskKind) :
    (kind.program p sdk).Makes kind.Asks := by
  cases kind with
  | create req => exact Program.makes_bind (createPredictionIntent_makes p sdk req) fun _ => trivial
  | sweep => exact sweepOutbox_makes p
  | cancel req => exact Program.makes_bind (cancelPredictionIntent_makes p sdk req) fun _ => trivial
  | evict marketID txID => exact evict_makes p marketID txID
  | recreate => exact Program.makes_bind (recreate_makes p) fun _ => trivial

theorem Exchange.OnPath.asks (hs : s.OnPath p sdk) {task : Task} (htask : task ∈ s.tasks)
    {r : OrderRequest} {rest : r.Answer → OrderM Unit} (hprogram : task.program = .call r rest) :
    task.kind.Asks r := by
  have hpath := (hs task htask).1
  rw [hprogram] at hpath
  exact (hpath.makes (task.kind.program_makes p sdk)).1

/-- A path to a request through a program whose result is dropped. -/
theorem path_dropped {α : Type} {program : OrderM α}
    {answers : List ((r : OrderRequest) × r.Answer)} {r : OrderRequest}
    {rest : r.Answer → OrderM Unit}
    (h : (program >>= fun _ => pure ()).Path answers (.call r rest)) :
    ∃ rest', program.Path answers (.call r rest') ∧
      rest = fun answer => rest' answer >>= fun _ => pure () := by
  rcases Program.path_bind_call h with hfirst | ⟨_, _, _, _, _, hret⟩
  · exact hfirst
  · exact absurd hret Program.not_path_pure

/-- Where a creation commits, the request passed its checks, and it is what is committed. -/
structure Task.Creates (p : Platform) (sdk : Sdk) (task : Task) (r : OrderRequest)
    (req : PrismPredictionIntentRequest) (c : Draft) : Prop where
  kind : task.kind = .create req
  validated : req.Validated
  typed : req.Typed
  request : r = .createOrderIntentRequestWithOutbox req subjectClobOrders
    (marshalOrder (clobRequest req))
  draft : draftOrder p sdk req = .ok c
  sell : c.auth.action ≠ actionBuy → SellChecked p req c task.answers

/-- Only a creation commits, and what it commits is the request that it checked. -/
theorem Exchange.OnPath.create (hs : s.OnPath p sdk) {task : Task} (htask : task ∈ s.tasks)
    {r : OrderRequest} {rest : r.Answer → OrderM Unit} (hprogram : task.program = .call r rest)
    (hr : r.isCreate) : ∃ req c, task.Creates p sdk r req c := by
  have hasks := hs.asks htask hprogram
  obtain ⟨hpath, hstarted⟩ := hs task htask
  rw [hprogram] at hpath
  cases hkind : task.kind with
  | create req =>
      rw [hkind] at hpath hstarted
      obtain ⟨rest', hfirst, _⟩ := path_dropped hpath
      obtain ⟨heq, c, now, txUUID, hdraft, hterms, hsell⟩ := createPredictionIntent_path hfirst hr
      exact ⟨req, c, hkind, hstarted.1, hstarted.2, heq, hdraft, hsell⟩
  | _ =>
      rw [hkind] at hasks
      cases r <;> first | exact absurd hr not_false | exact absurd hasks not_false

end Tasks

/-! ## Rows -/

/-- What the tables keep of a fill state. -/
structure PredictionIntent.Kept (row : PredictionIntent) : Prop where
  qty_isSome : row.qtyShares.isSome = true
  filled_le : row.sharesFilled ≤ row.qtyShares.getD 0
  collateral_le : row.collateralFilled ≤ row.sharesFilled
  qtyRem_eq : row.qtyRem = row.qtyShares.getD 0 - row.sharesFilled

/-- A row and what later updates make of it: its terms stay, fills add up, marks stay. -/
structure PredictionIntent.Later (row row' : PredictionIntent) : Prop where
  terms : row'.toOrderTerms = row.toOrderTerms
  filled : row.sharesFilled ≤ row'.sharesFilled
  cancelled : row.cancelledAt = true → row'.cancelledAt = true
  fullyMatched : row.fullyMatchedAt = true → row'.fullyMatchedAt = true
  evicted : row.evictedAt = true → row'.evictedAt = true
  kept : row.Kept → row'.Kept

theorem PredictionIntent.Later.refl (row : PredictionIntent) : row.Later row :=
  ⟨rfl, le_rfl, id, id, id, id⟩

theorem PredictionIntent.Later.trans {row row' row'' : PredictionIntent} (h : row.Later row')
    (h' : row'.Later row'') : row.Later row'' where
  terms := h'.terms.trans h.terms
  filled := h.filled.trans h'.filled
  cancelled hmark := h'.cancelled (h.cancelled hmark)
  fullyMatched hmark := h'.fullyMatched (h.fullyMatched hmark)
  evicted hmark := h'.evicted (h.evicted hmark)
  kept hkept := h'.kept (h.kept hkept)

theorem PredictionIntent.Later.isOpen {row row' : PredictionIntent} (h : row.Later row')
    (hkept : row.Kept) (hopen : isOpenPredictionIntent row' = true) :
    isOpenPredictionIntent row = true := by
  have hrem := hkept.qtyRem_eq
  have hrem' := (h.kept hkept).qtyRem_eq
  have hfilled := h.filled
  simp only [isOpenPredictionIntent, Bool.and_eq_true, decide_eq_true_eq, Bool.not_eq_true',
    h.terms] at hopen hrem' ⊢
  obtain ⟨⟨⟨hpos, hcancelled⟩, hmatched⟩, hevicted⟩ := hopen
  refine ⟨⟨⟨by omega, ?_⟩, ?_⟩, ?_⟩
  · exact eq_false_of_ne_true fun hmark => by simp [h.cancelled hmark] at hcancelled
  · exact eq_false_of_ne_true fun hmark => by simp [h.fullyMatched hmark] at hmatched
  · exact eq_false_of_ne_true fun hmark => by simp [h.evicted hmark] at hevicted

/-- Every row is there, as it was or later, and no other. -/
structure Db.Onward (db db' : Db) : Prop where
  some : ∀ k row, db.intents.find k = some row →
    ∃ row', db'.intents.find k = some row' ∧ row.Later row'
  none : ∀ k, db.intents.find k = none → db'.intents.find k = none
  live : ∀ marketID, db'.isLive marketID →
    db.isLive marketID ∨ ∀ row ∈ db.intents.rows, row.marketID ≠ marketID

theorem Db.Onward.refl (db : Db) : db.Onward db :=
  ⟨fun _ row h => ⟨row, h, PredictionIntent.Later.refl row⟩, fun _ => id, fun _ => Or.inl⟩

theorem Db.Onward.trans {db db' db'' : Db} (h : db.Onward db') (h' : db'.Onward db'') :
    db.Onward db'' := by
  refine ⟨?_, fun k hnone => h'.none k (h.none k hnone), ?_⟩
  · intro k row hrow
    obtain ⟨row', hrow', hlater⟩ := h.some k row hrow
    obtain ⟨row'', hrow'', hlater'⟩ := h'.some k row' hrow'
    exact ⟨row'', hrow'', hlater.trans hlater'⟩
  · intro marketID hlive
    rcases h'.live marketID hlive with hlive' | hother
    · exact h.live marketID hlive'
    · right
      intro row hrow
      obtain ⟨row', hrow', hlater⟩ := h.some _ row (Table.find_key hrow)
      have hmarket := hother row' (Table.find_eq_some.mp hrow').1
      rwa [hlater.terms] at hmarket

theorem Db.onward_modify (db : Db) (txID : Uint128) {f : PredictionIntent → PredictionIntent}
    (hf : ∀ row, (f row).txID = row.txID)
    (hlater : ∀ row : PredictionIntent, db.intents.find txID = some row → row.Later (f row)) :
    db.Onward { db with intents := db.intents.modify txID f hf } := by
  refine ⟨?_, ?_, fun _ => Or.inl⟩
  · intro k row hrow
    have hfind : (db.intents.modify txID f hf).find k = _ := Table.find_modify hrow
    refine ⟨_, hfind, ?_⟩
    split
    · next heq => exact hlater row (heq ▸ hrow)
    · exact PredictionIntent.Later.refl row
  · intro k hnone
    show (db.intents.modify txID f hf).find k = Option.none
    rw [Table.find_modify_map hf, hnone, Option.map_none]

theorem Db.onward_cancel (db : Db) (txID : Uint128) :
    db.Onward (db.cancelPredictionIntent txID) := by
  apply Db.onward_modify
  intro row _
  exact ⟨rfl, le_rfl, fun hmark => by simp [hmark], id, id, fun h => ⟨h.1, h.2, h.3, h.4⟩⟩

theorem Db.onward_evict (db : Db) (txID : Uint128) :
    db.Onward (db.markPredictionIntentAsEvicted txID) := by
  apply Db.onward_modify
  intro row _
  exact ⟨rfl, le_rfl, id, id, fun _ => rfl, fun h => ⟨h.1, h.2, h.3, h.4⟩⟩

theorem Db.onward_fullyMatched (db : Db) (marketID txID : Uint128) :
    db.Onward (db.markPredictionIntentAsFullyMatched marketID txID) := by
  apply Db.onward_modify
  intro row _
  exact ⟨rfl, le_rfl, id, fun hmark => by simp [hmark], id, fun h => ⟨h.1, h.2, h.3, h.4⟩⟩

theorem Db.onward_fill {db db' : Db} {txID : Uint128} {shares collateral : Nat}
    (h : db.addPredictionIntentFill txID shares collateral = .ok db')
    (hcollateral : collateral ≤ shares) : db.Onward db' := by
  obtain ⟨row, hrow, _, hroom, rfl⟩ := Db.addPredictionIntentFill_ok h
  apply Db.onward_modify
  intro row' hrow'
  rw [hrow, Option.some.injEq] at hrow'
  subst hrow'
  refine ⟨rfl, Nat.le_add_right _ _, id, ?_, id, ?_⟩
  · intro hmark
    show (row.fullyMatchedAt || _) = true
    rw [hmark, Bool.true_or]
  · intro hkept
    obtain ⟨qty, hqty⟩ := Option.isSome_iff_exists.mp hkept.qty_isSome
    refine ⟨hkept.qty_isSome, ?_, Nat.add_le_add hkept.collateral_le hcollateral, rfl⟩
    show row.sharesFilled + shares ≤ row.qtyShares.getD 0
    rw [hqty]
    exact hroom qty hqty

/-- A fill that is finalized, its legs paying no more than its shares. -/
theorem Db.onward_finalize {db db' : Db} {uuid : Uuid} {m : MatchV2} {txHash : Str} {applied : Bool}
    (h : db.finalizeMatchV2 uuid m txHash = .ok (db', applied))
    (hbid : m.bidCollateral ≤ m.fillShares) (hask : m.askCollateral ≤ m.fillShares) :
    db.Onward db' := by
  rcases Db.finalizeMatchV2_ok h with ⟨_, rfl⟩ | ⟨_, _, middle, _, _, hmiddle, hlast⟩
  · exact Db.Onward.refl _
  · have hfirst := Db.onward_fill hmiddle hbid
    have hsecond := Db.onward_fill hlast hask
    exact Db.Onward.trans ⟨hfirst.some, hfirst.none, hfirst.live⟩ hsecond

/-! ## What a step does to the rows -/

section Rows

variable {p : Platform} {sdk : Sdk} {s : Exchange} {e : Event}

structure Exchange.Commits (p : Platform) (s : Exchange) (e : Event) (task : Task)
    (req : PrismPredictionIntentRequest) (terms : OrderTerms) : Prop where
  mem : task ∈ s.tasks
  event : ∃ i answer id, e = .serve i answer true id ∧ s.tasks[i]? = some task
  request : ∃ subject payload rest,
    task.program = .call (.createOrderIntentRequestWithOutbox req subject payload) rest
  created : createOrderIntentRequest p.uuid req = .ok terms
  new : s.db.intents.find terms.txID = none

theorem Db.createOrder_ok {db db' : Db} {outbox outbox' : Outbox} {uuid : Uuid}
    {req : PrismPredictionIntentRequest} {subject : Str} {payload : Fields} {id now : Nat}
    (h : db.createOrderIntentRequestWithOutbox outbox uuid req subject payload id now =
      .ok (db', outbox')) :
    ∃ terms, createOrderIntentRequest uuid req = .ok terms ∧
      db.intents.find terms.txID = none ∧
      db' = { db with intents := db.intents.insert (.new terms) } ∧
      ((∃ row ∈ outbox.rows, row.txID = terms.txID ∧ row.subject = subject) ∧ outbox' = outbox ∨
        (∀ row ∈ outbox.rows, row.txID = terms.txID → row.subject ≠ subject) ∧
          outbox' = outbox.insert ⟨id, terms.txID, subject, payload.stored, 0, now,
            false, none⟩) := by
  simp only [Db.createOrderIntentRequestWithOutbox, bind_ok_iff, revertIf_ok_iff, exists_const] at h
  obtain ⟨terms, hterms, hnew, htables⟩ := h
  refine ⟨terms, hterms, by simpa using hnew, ?_⟩
  split at htables
  · next htaken =>
    cases htables
    refine ⟨rfl, Or.inl ⟨?_, rfl⟩⟩
    simpa using htaken
  · next hfree =>
    cases htables
    refine ⟨rfl, Or.inr ⟨?_, rfl⟩⟩
    simpa using hfree

variable (sdk) in
theorem Exchange.Commits.next_db {task : Task} {req : PrismPredictionIntentRequest}
    {terms : OrderTerms} (h : s.Commits p e task req terms) :
    (s.next p sdk e).db = { s.db with intents := s.db.intents.insert (.new terms) } := by
  obtain ⟨i, answer, id, rfl, htask⟩ := h.event
  obtain ⟨subject, payload, rest, hprogram⟩ := h.request
  simp only [Exchange.next, Exchange.serve, htask, hprogram]
  have htables : ∃ outbox, s.db.createOrderIntentRequestWithOutbox s.outbox p.uuid req subject
      payload id s.clock =
        .ok ({ s.db with intents := s.db.intents.insert (.new terms) }, outbox) := by
    have hnew : revertIf ((s.db.intents.find terms.txID).isSome = true)
        "CreatePredictionIntent failed: duplicate key value violates unique constraint" =
          .ok () := by
      rw [revertIf_ok_iff, h.new]
      exact Bool.false_ne_true
    rw [Db.createOrderIntentRequestWithOutbox, h.created, ok_bind, hnew, ok_bind]
    dsimp only
    split
    · exact ⟨_, rfl⟩
    · exact ⟨_, rfl⟩
  obtain ⟨outbox, htables⟩ := htables
  simp only [Exchange.effect, htables, if_true]

/-- The effect of a request on the rows: a new order, or updates. -/
theorem Exchange.effect_rows (s : Exchange) (id : Nat) (r : OrderRequest) (answer : r.Answer) :
    (∃ req subject payload terms, r = .createOrderIntentRequestWithOutbox req subject payload ∧
        createOrderIntentRequest p.uuid req = .ok terms ∧ s.db.intents.find terms.txID = none ∧
        (s.effect p id r answer).db = { s.db with intents := s.db.intents.insert (.new terms) }) ∨
      s.db.Onward (s.effect p id r answer).db := by
  cases r with
  | createOrderIntentRequestWithOutbox req subject payload =>
      simp only [Exchange.effect]
      split
      · next db outbox htables =>
        obtain ⟨terms, hterms, hnew, rfl, _⟩ := Db.createOrder_ok htables
        exact Or.inl ⟨req, subject, payload, terms, rfl, hterms, hnew, rfl⟩
      · exact Or.inr (Db.Onward.refl _)
  | publishWithID subject payload messageID =>
      right
      cases answer with
      | ok _ =>
          show s.db.Onward (s.publish p subject payload messageID).db
          rw [(s.publish_frame subject payload messageID).1]
          exact Db.Onward.refl _
      | error err =>
          show s.db.Onward (s.publish p subject payload messageID).db
          rw [(s.publish_frame subject payload messageID).1]
          exact Db.Onward.refl _
  | cancelPredictionIntent txId =>
      right
      simp only [Exchange.effect]
      split
      · exact Db.onward_cancel _ _
      · exact Db.Onward.refl _
  | markPredictionIntentAsEvicted txID => exact Or.inr (Db.onward_evict _ _)
  | _ => exact Or.inr (Db.Onward.refl _)

variable (sdk) in
/-- A step commits one order, or it updates the rows that are there. -/
theorem Exchange.next_rows (hallowed : s.Allowed p e) :
    (∃ task req terms, s.Commits p e task req terms ∧
        (s.next p sdk e).db = { s.db with intents := s.db.intents.insert (.new terms) }) ∨
      s.db.Onward (s.next p sdk e).db := by
  cases e with
  | serve i answer commit id =>
      simp only [Exchange.next, Exchange.serve]
      split
      · exact Or.inr (Db.Onward.refl _)
      next task htask =>
      split
      · exact Or.inr (Db.Onward.refl _)
      next r rest hprogram =>
      cases commit with
      | false => exact Or.inr (Db.Onward.refl _)
      | true =>
          rcases s.effect_rows (p := p) id r (answer r) with
            ⟨req, subject, payload, terms, rfl, hterms, hnew, hdb⟩ | honward
          · refine Or.inl ⟨task, req, terms, ?_, hdb⟩
            exact ⟨List.mem_of_getElem? htask, ⟨i, answer, id, rfl, htask⟩,
              ⟨subject, payload, rest, hprogram⟩, hterms, hnew⟩
          · exact Or.inr honward
  | deliver j now acks =>
      right
      show s.db.Onward (s.deliver j now acks).db
      rw [(s.deliver_frame j now acks).2.1]
      exact Db.Onward.refl _
  | expire j =>
      right
      show s.db.Onward (s.expire j).db
      rw [(s.expire_frame j).2.1]
      exact Db.Onward.refl _
  | settle m txHash =>
      right
      simp only [Exchange.next]
      cases h : s.db.finalizeMatchV2 p.uuid m txHash with
      | error err => exact Db.Onward.refl _
      | ok applied => exact Db.onward_finalize h hallowed.1 hallowed.2
  | fullyMatched marketID txID => exact Or.inr (Db.onward_fullyMatched _ _ _)
  | markets rows => exact Or.inr ⟨(Db.Onward.refl s.db).some, (Db.Onward.refl s.db).none, hallowed⟩
  | matches_ rows =>
      exact Or.inr ⟨(Db.Onward.refl s.db).some, (Db.Onward.refl s.db).none, fun _ => Or.inl⟩
  | _ => exact Or.inr (Db.Onward.refl _)

variable (sdk) in
theorem Exchange.row_next (hallowed : s.Allowed p e) {k : Uint128} {row : PredictionIntent}
    (h : s.db.intents.find k = some row) :
    ∃ row', (s.next p sdk e).db.intents.find k = some row' ∧ row.Later row' := by
  rcases s.next_rows sdk hallowed with ⟨task, req, terms, hcommits, hdb⟩ | honward
  · refine ⟨row, ?_, PredictionIntent.Later.refl row⟩
    rw [hdb]
    exact Table.find_insert h
  · exact honward.some k row h

/-! ## Orders that were accepted -/

/-- An order that some request asked for, and that passed its checks. -/
structure Accepted (p : Platform) (row : PredictionIntent) : Prop where
  request : ∃ req a, req.Validated ∧ req.Typed ∧ requestAuthorization p.uuid req = .ok a ∧
    createOrderIntentRequest p.uuid req = .ok row.toOrderTerms
  kept : row.Kept

theorem PredictionIntent.kept_new {uuid : Uuid} {req : PrismPredictionIntentRequest}
    {terms : OrderTerms} (h : createOrderIntentRequest uuid req = .ok terms) :
    (PredictionIntent.new terms).Kept := by
  simp only [createOrderIntentRequest, bind_ok_iff, Except.ok.injEq] at h
  obtain ⟨_, _, _, _, _, _, rfl⟩ := h
  exact ⟨rfl, Nat.zero_le _, le_rfl, rfl⟩

theorem draftOrder_ok {req : PrismPredictionIntentRequest} {c : Draft}
    (h : draftOrder p sdk req = .ok c) : requestAuthorization p.uuid req = .ok c.auth := by
  simp only [draftOrder, bind_ok_iff, mapError_ok_iff, Except.ok.injEq] at h
  obtain ⟨_, _, _, _, _, _, _, _, _, _, _, hauth, rfl⟩ := h
  exact hauth

def Exchange.AllAccepted (p : Platform) (s : Exchange) : Prop :=
  ∀ row ∈ s.db.intents.rows, Accepted p row

theorem Exchange.AllAccepted.next (hs : s.AllAccepted p) (hpath : s.OnPath p sdk)
    (hallowed : s.Allowed p e) : (s.next p sdk e).AllAccepted p := by
  intro row' hmem
  rcases s.next_rows sdk hallowed with ⟨task, req, terms, hcommits, hdb⟩ | honward
  · rw [hdb] at hmem
    rcases Table.mem_of_mem_insert hmem with hold | rfl
    · exact hs row' hold
    · obtain ⟨subject, payload, rest, hprogram⟩ := hcommits.request
      obtain ⟨req', c, hcreates⟩ := hpath.create hcommits.mem hprogram trivial
      cases hcreates.request
      exact ⟨⟨req, c.auth, hcreates.validated, hcreates.typed, draftOrder_ok hcreates.draft,
          hcommits.created⟩,
        PredictionIntent.kept_new hcommits.created⟩
  · have hfind := Table.find_key hmem
    cases hold : s.db.intents.find row'.txID with
    | none =>
        rw [honward.none _ hold] at hfind
        exact absurd hfind (by simp)
    | some row =>
        obtain ⟨later, hlater, hfrom⟩ := honward.some _ row hold
        rw [hfind, Option.some.injEq] at hlater
        subst hlater
        obtain ⟨⟨req, a, hvalid, htyped, ha, hcreated⟩, hkept⟩ :=
          hs row (Table.find_eq_some.mp hold).1
        exact ⟨⟨req, a, hvalid, htyped, ha, hfrom.terms ▸ hcreated⟩, hfrom.kept hkept⟩

end Rows

/-! ## Prompt answers -/

section Replies

variable (p : Platform) (sdk : Sdk)

/-- Answers from the state itself, by accounts of one key that hold ten shares of either side. -/
def Exchange.reply (s : Exchange) : (r : OrderRequest) → r.Answer
  | .now => s.clock
  | .isDuplicateTxId txUUID => .ok (s.db.intents.find txUUID).isSome
  | .getPublicKey _ _ => .ok (['k'], keyTypeEd25519)
  | .evmAddressToHederaAccountId _ _ => .ok "0.0.1001".toList
  | .isMarketTradeable marketId => s.db.isMarketTradeable p.uuid marketId s.clock
  | .getMarketById marketId => s.db.getMarketById p.uuid marketId true
  | .getMarketV2 _ _ _ => .ok (.«open», s.clock + 1000)
  | .getMarketDepthQty _ => .ok (0, 0)
  | .getSpenderAllowance _ _ _ _ => .ok 0
  | .getUsdcBalanceUsd _ _ => .ok 0
  | .getUserPositionBalancesV2 _ _ _ _ => .ok (10, 10)
  | .getAllOpenPredictionIntentsByMarketIdAndAccountId marketID accountID =>
    .ok (s.db.openPredictionIntentsOf marketID accountID)
  | .createOrderIntentRequestWithOutbox req subject payload =>
    (s.db.createOrderIntentRequestWithOutbox s.outbox p.uuid req subject payload 0 s.clock).map
      fun _ => ()
  | .pendingOrderOutbox limit => .ok ((s.outbox.pending s.clock).take limit)
  | .publishWithID _ _ _ => .ok ()
  | .recordOrderOutboxFailure _ _ => .ok ()
  | .markOrderOutboxDelivered _ => .ok ()
  | .getPredictionIntentByTxId txId => s.db.getPredictionIntentByTxId p.uuid txId
  | .cancelPredictionIntent txId => (p.uuid.parse txId).map fun _ => ()
  | .cancelOrder marketId txId =>
    if (s.clob.cancelOrder marketId txId).2 = some true then .ok () else .error "not found"
  | .markPredictionIntentAsEvicted _ => .ok ()
  | .getAllUnresolvedMarkets => .ok (s.db.markets.rows.filter (·.tradeable s.clock))
  | .createMarketOnClob marketId =>
    if (s.clob.addMarket marketId).2 then .ok () else .error "could not add market"
  | .getAllOpenPredictionIntentsByMarketId marketId =>
    (p.uuid.parse marketId).map fun marketID => s.db.openPredictionIntents marketID
  | .getAllMatchesForMarketIdTxId marketID txID =>
    .ok (s.db.matches_.rows.filter fun row =>
      row.marketID == marketID && (row.txId1 == txID || row.txId2 == txID))
  | .markPredictionIntentAsRegenerated _ => .ok ()

theorem Exchange.reply_honest (s : Exchange) (r : OrderRequest) :
    s.Honest p r (s.reply p r) true := by
  cases r with
  | isMarketTradeable marketId =>
      simp only [Exchange.reply]
      cases h : s.db.isMarketTradeable p.uuid marketId s.clock with
      | error err => trivial
      | ok tradeable => exact h
  | getMarketById marketId =>
      simp only [Exchange.reply]
      cases h : s.db.getMarketById p.uuid marketId true with
      | error err => trivial
      | ok row => exact h
  | getUserPositionBalancesV2 net contractID marketId evmAddress =>
      exact ⟨by decide, by decide⟩
  | createOrderIntentRequestWithOutbox req subject payload =>
      simp only [Exchange.reply]
      cases h : s.db.createOrderIntentRequestWithOutbox s.outbox p.uuid req subject payload 0
          s.clock with
      | error err => trivial
      | ok tables => exact ⟨rfl, tables, h⟩
  | getPredictionIntentByTxId txId =>
      simp only [Exchange.reply]
      cases h : s.db.getPredictionIntentByTxId p.uuid txId with
      | error err => trivial
      | ok row => exact h
  | cancelPredictionIntent txId =>
      simp only [Exchange.reply]
      cases h : p.uuid.parse txId with
      | error err => trivial
      | ok txID => exact ⟨rfl, txID, h⟩
  | cancelOrder marketId txId =>
      simp only [Exchange.reply]
      split
      · next h => exact ⟨rfl, h⟩
      · trivial
  | createMarketOnClob marketId =>
      simp only [Exchange.reply]
      split
      · next h => exact ⟨rfl, h⟩
      · trivial
  | getAllOpenPredictionIntentsByMarketId marketId =>
      simp only [Exchange.reply]
      cases h : p.uuid.parse marketId with
      | error err => trivial
      | ok marketID => exact ⟨marketID, h, .refl _⟩
  | _ => first | trivial | exact rfl | exact .refl _

def Outbox.freshId (outbox : Outbox) : Nat := (outbox.rows.map (·.id)).sum + 1

theorem Outbox.ne_freshId {outbox : Outbox} {row : OutboxRow} (h : row ∈ outbox.rows) :
    row.id ≠ outbox.freshId := by
  have hle := List.le_sum_of_mem (List.mem_map_of_mem (f := (·.id)) h)
  unfold Outbox.freshId
  omega

def Exchange.promptly (s : Exchange) (i : Nat) : Event :=
  .serve i (s.reply p) true s.outbox.freshId

theorem Exchange.promptly_allowed (s : Exchange) (i : Nat) :
    s.Allowed p (s.promptly p i) :=
  ⟨fun _ => Outbox.ne_freshId, fun _ r _ _ _ => s.reply_honest p r⟩

def Exchange.replies (i : Nat) : Nat → Exchange → List Event
  | 0, _ => []
  | count + 1, s => s.promptly p i :: Exchange.replies i count (s.next p sdk (s.promptly p i))

/-- A test that holds in every state on the way. -/
def Exchange.allAlong (test : Exchange → Bool) (i : Nat) : Nat → Exchange → Bool
  | 0, s => test s
  | count + 1, s =>
    test s && Exchange.allAlong test i count (s.next p sdk (s.promptly p i))

theorem Exchange.runs_replies {condition : Exchange → Event → Prop} {test : Exchange → Bool}
    (htest : ∀ s e, test s = true → condition s e) {i count : Nat} {s : Exchange}
    (h : Exchange.allAlong p sdk test i count s = true) :
    (exchange p sdk).Runs condition s (Exchange.replies p sdk i count s) := by
  induction count generalizing s with
  | zero => trivial
  | succ count ih =>
      rw [Exchange.allAlong, Bool.and_eq_true] at h
      exact ⟨s.promptly_allowed p i, htest s _ h.1, ih h.2⟩

theorem Exchange.runs_replies_any (i count : Nat) (s : Exchange) :
    (exchange p sdk).Runs (fun _ _ => True) s (Exchange.replies p sdk i count s) := by
  induction count generalizing s with
  | zero => trivial
  | succ count ih => exact ⟨s.promptly_allowed p i, trivial, ih _⟩

end Replies

end PrismBackend.Api
