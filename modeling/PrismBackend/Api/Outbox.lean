import PrismBackend.Lib.Entries
import PrismBackend.Api.Exchange
import PrismBackend.Api.Preimage

/-!
# API: the outbox of orders

An order and its message are committed together, and sweeps publish the message
until the stream has acknowledged it. The rebuild of the book publishes orders as
well, from their rows.
-/

namespace PrismBackend.Api

open PrismBackend.Lib PrismBackend.Clob PrismBackend.PrismV2

/-! ## What a message denotes -/

/-- An order of the CLOB is the one that a row keeps. -/
structure Denotes (uuid : Uuid) (o : CreateOrderRequestClob) (row : OrderTerms) : Prop where
  txID : uuid.parse o.txId = .ok row.txID
  marketID : uuid.parse o.marketId = .ok row.marketID
  side : row.side = some o.side
  action : row.action = some o.action
  limitYesPrice : row.limitYesPrice = some o.limitYesPrice
  qtyShares : row.qtyShares = some o.qtyShares
  collateralCap : row.collateralCap = some o.collateralCap
  evmAddress : row.evmaddress = o.evmAddress
  deadline : row.deadline = some o.deadline

section Denotes

variable {p : Platform} {uuid : Uuid}

theorem denotes_clobRequest {req : PrismPredictionIntentRequest} {terms : OrderTerms}
    (h : createOrderIntentRequest uuid req = .ok terms) : Denotes uuid (clobRequest req) terms := by
  simp only [createOrderIntentRequest, bind_ok_iff, mapError_ok_iff, Except.ok.injEq] at h
  obtain ⟨_, _, tx, htx, market, hmarket, rfl⟩ := h
  exact ⟨htx, hmarket, rfl, rfl, rfl, rfl, rfl, rfl, rfl⟩

/-- The order that is made from an accepted row is the one that the row keeps. -/
theorem Accepted.denotes {row : PredictionIntent} (h : Accepted p row)
    {o : CreateOrderRequestClob} (ho : clobOrderFromIntent p.uuid row = .ok o) :
    Denotes p.uuid o row.toOrderTerms ∧ TypedOrder o := by
  obtain ⟨⟨req, a, hvalid, htyped, ha, hcreated⟩, _⟩ := h
  have hassembled := newAuthorizationV2_assembled ha
  have hauth : authorizationFromIntent p.uuid row.toOrderTerms = .ok a := by
    rw [authorizationFromIntent_eq hvalid hcreated, ha]
  simp only [createOrderIntentRequest, bind_ok_iff, mapError_ok_iff, Except.ok.injEq] at hcreated
  obtain ⟨_, _, tx, htx, market, hmarket, hterms⟩ := hcreated
  simp only [clobOrderFromIntent, hauth, ok_bind, bind_ok_iff, mapError_ok_iff, parseUint,
    revertIf_ok_iff, exists_const, not_le, Except.ok.injEq] at ho
  obtain ⟨shares, ⟨hshares, rfl⟩, collateral, ⟨hcollateral, rfl⟩, rfl⟩ := ho
  refine ⟨?_, ?_⟩
  · refine ⟨p.uuid.parse_string _, p.uuid.parse_string _, ?_, ?_, ?_, ?_, ?_, rfl, ?_⟩
    · rw [hassembled.side, ← hterms]
    · rw [hassembled.action, ← hterms]
    · rw [hassembled.limitYesPrice, ← hterms]
    · rw [hassembled.qtyShares, ← hterms]
    · rw [hassembled.collateralCap, ← hterms]
    · rw [hassembled.deadline, ← hterms]
  · have hkey : row.keytype = int32 req.keyType := by simp only [← hterms]
    have hbounds := int32_bounds req.keyType
    rw [← hkey] at hbounds
    exact {
      keyType_ge := hbounds.1
      keyType_lt := hbounds.2
      chainId := hassembled.chainId ▸ htyped.chainId
      side := hassembled.side ▸ htyped.side
      action := hassembled.action ▸ htyped.action
      limitYesPrice := hassembled.limitYesPrice ▸ htyped.limitYesPrice
      qtyShares := hassembled.qtyShares ▸ htyped.qtyShares
      collateralCap := hassembled.collateralCap ▸ htyped.collateralCap
      deadline := hassembled.deadline ▸ htyped.deadline
      sharesFilled := hshares
      collateralFilled := hcollateral }

/-- A fill that is added to an order leaves what it denotes. -/
theorem Denotes.withUnsettledFill {o : CreateOrderRequestClob} {row : OrderTerms}
    (h : Denotes uuid o row ∧ TypedOrder o) (m : Match) :
    Denotes uuid (withUnsettledFill o m) row ∧ TypedOrder (withUnsettledFill o m) := by
  unfold Api.withUnsettledFill
  split
  · exact h
  split
  · exact h
  · obtain ⟨hdenotes, htyped⟩ := h
    have hbound (a b : Nat) : add64 a b < 2 ^ 64 := Nat.mod_lt _ (Nat.two_pow_pos 64)
    exact ⟨⟨hdenotes.1, hdenotes.2, hdenotes.3, hdenotes.4, hdenotes.5, hdenotes.6, hdenotes.7,
        hdenotes.8, hdenotes.9⟩,
      ⟨htyped.1, htyped.2, htyped.3, htyped.4, htyped.5, htyped.6, htyped.7, htyped.8, htyped.9,
        hbound _ _, hbound _ _⟩⟩

theorem Denotes.withUnsettledFills {o : CreateOrderRequestClob} {row : OrderTerms}
    (h : Denotes uuid o row ∧ TypedOrder o) (matches_ : List Match) :
    Denotes uuid (matches_.foldl Api.withUnsettledFill o) row ∧
      TypedOrder (matches_.foldl Api.withUnsettledFill o) := by
  induction matches_ generalizing o with
  | nil => exact h
  | cons m matches_ ih => exact ih (Denotes.withUnsettledFill h m)

end Denotes

/-! ## Who publishes -/

section Paths

variable {p : Platform} {answers : List ((r : OrderRequest) × r.Answer)} {r : OrderRequest}
  {rest : r.Answer → OrderM Unit}

inductive SweepAsks (p : Platform) (answers : List ((r : OrderRequest) × r.Answer))
    (record : OutboxRow) : OrderRequest → Prop
  | publish : SweepAsks p answers record
      (.publishWithID record.subject record.payload (p.uuid.string record.txID))
  | failed (cause : String) : SweepAsks p answers record (.recordOrderOutboxFailure record.id cause)
  | delivered
      (h : ⟨.publishWithID record.subject record.payload (p.uuid.string record.txID), .ok ()⟩ ∈
        answers) :
      SweepAsks p answers record (.markOrderOutboxDelivered record.id)

theorem SweepAsks.mono {answers' : List ((r : OrderRequest) × r.Answer)} {record : OutboxRow}
    (h : SweepAsks p answers record r) (hsub : ∀ answered ∈ answers, answered ∈ answers') :
    SweepAsks p answers' record r := by
  cases h with
  | publish => exact .publish
  | failed cause => exact .failed cause
  | delivered h => exact .delivered (hsub _ h)

theorem publishRecords_path {records : List OutboxRow}
    (h : (publishRecords p records).Path answers (.call r rest)) :
    ∃ record ∈ records, SweepAsks p answers record r := by
  induction records generalizing answers with
  | nil => exact absurd h Program.not_path_pure
  | cons record records ih =>
      have hmono {later : List ((r : OrderRequest) × r.Answer)}
        {a b : (r : OrderRequest) × r.Answer}
          (hpath : (publishRecords p records).Path later (.call r rest)) :
          ∃ record' ∈ record :: records, SweepAsks p (a :: b :: later) record' r := by
        obtain ⟨record', hmem, hasks⟩ := ih hpath
        exact ⟨record', List.mem_cons_of_mem _ hmem, hasks.mono fun _ hanswer =>
          List.mem_cons_of_mem _ (List.mem_cons_of_mem _ hanswer)⟩
      rcases Program.path_call_iff.mp h with ⟨_, htarget⟩ | ⟨answer, later, rfl, hlater⟩
      · cases htarget
        exact ⟨record, List.mem_cons_self, .publish⟩
      cases answer with
      | error err =>
          rcases Program.path_call_iff.mp hlater with ⟨_, htarget⟩ | ⟨answer', later', rfl, hlater'⟩
          · cases htarget
            exact ⟨record, List.mem_cons_self, .failed err⟩
          · exact hmono hlater'
      | ok _ =>
          rcases Program.path_call_iff.mp hlater with ⟨rfl, htarget⟩ | ⟨answer',
            later', rfl, hlater'⟩
          · cases htarget
            exact ⟨record, List.mem_cons_self, .delivered List.mem_cons_self⟩
          · exact hmono hlater'

/-- After its poll a sweep works on what the poll found. -/
theorem sweepOutbox_path (h : (sweepOutbox p).Path answers (.call r rest)) :
    r = .pendingOrderOutbox sweepLimit ∨
      ∃ records, ⟨.pendingOrderOutbox sweepLimit, .ok records⟩ ∈ answers ∧
        ∃ record ∈ records, SweepAsks p answers record r := by
  rcases Program.path_call_iff.mp h with ⟨_, htarget⟩ | ⟨answer, later, rfl, hlater⟩
  · cases htarget
    exact Or.inl rfl
  cases answer with
  | error err => exact absurd hlater Program.not_path_pure
  | ok records =>
      obtain ⟨record, hmem, hasks⟩ := publishRecords_path hlater
      exact Or.inr ⟨records, List.mem_cons_self, record, hmem, hasks.mono fun _ hanswer =>
        List.mem_cons_of_mem _ hanswer⟩

/-- A sweep that has ended has asked to publish all that its poll found. -/
theorem publishRecords_path_ret {records : List OutboxRow}
    (h : (publishRecords p records).Path answers (.ret ())) :
    ∀ record ∈ records, ∃ result,
      ⟨.publishWithID record.subject record.payload (p.uuid.string record.txID), result⟩ ∈
        answers := by
  induction records generalizing answers with
  | nil => exact fun record hmem => absurd hmem List.not_mem_nil
  | cons record records ih =>
      rcases Program.path_call_iff.mp h with ⟨_, htarget⟩ | ⟨answer, later, rfl, hlater⟩
      · exact absurd htarget (by simp)
      have hrest : ∃ answered later', later = answered :: later' ∧
          (publishRecords p records).Path later' (.ret ()) := by
        cases answer with
        | error err =>
            rcases Program.path_call_iff.mp hlater with ⟨_, htarget⟩ | ⟨_, later', rfl, hlater'⟩
            · exact absurd htarget (by simp)
            · exact ⟨_, later', rfl, hlater'⟩
        | ok _ =>
            rcases Program.path_call_iff.mp hlater with ⟨_, htarget⟩ | ⟨_, later', rfl, hlater'⟩
            · exact absurd htarget (by simp)
            · exact ⟨_, later', rfl, hlater'⟩
      obtain ⟨answered, later', rfl, hlater'⟩ := hrest
      intro record' hmem
      rcases List.mem_cons.mp hmem with rfl | hmem
      · exact ⟨answer, List.mem_cons_self⟩
      · obtain ⟨result, hresult⟩ := ih hlater' record' hmem
        exact ⟨result, List.mem_cons_of_mem _ (List.mem_cons_of_mem _ hresult)⟩

/-- What the rebuild publishes is an order that is made from one of the rows. -/
def Republishes (p : Platform) (rows : List PredictionIntent) : OrderRequest → Prop
  | .publishWithID subject payload messageID =>
    subject = subjectClobOrders ∧ messageID = [] ∧ ∃ row ∈ rows, ∃ order,
      clobOrderFromIntent p.uuid row = .ok order ∧ ∃ matches_ : List Match,
        payload = marshalOrder (matches_.foldl withUnsettledFill order)
  | _ => True

theorem restoreOrders_republishes {rows all : List PredictionIntent} (h : rows ⊆ all) :
    (restoreOrders p rows).Makes (Republishes p all) := by
  induction rows with
  | nil => trivial
  | cons row rows ih =>
      have hrest := ih fun _ hmem => h (List.mem_cons_of_mem row hmem)
      unfold restoreOrders
      split
      · exact hrest
      · next order horder =>
        refine Program.makes_andThen (ask_makes (Program.makes_request (by exact trivial)) _) ?_
        intro matches_
        dsimp only
        split
        · exact hrest
        · have hmakes : Republishes p all (.publishWithID subjectClobOrders
              (marshalOrder (matches_.foldl withUnsettledFill order)) []) :=
            ⟨rfl, rfl, row, h List.mem_cons_self, order, horder, matches_, rfl⟩
          exact Program.makes_andThen (ask_makes (Program.makes_request hmakes) _) fun _ =>
            Program.makes_andThen (ask_makes (Program.makes_request (by exact trivial)) _)
              fun _ => hrest

theorem restoreMarkets_path {markets : List MarketRow} {subject messageID : Str} {payload : Fields}
    {rest : Except String Unit → OrderM (Except String Unit)}
    (h : (restoreMarkets p markets).Path answers
      (.call (.publishWithID subject payload messageID) rest)) :
    ∃ marketId rows, ⟨.getAllOpenPredictionIntentsByMarketId marketId, .ok rows⟩ ∈ answers ∧
      Republishes p rows (.publishWithID subject payload messageID) := by
  induction markets generalizing answers with
  | nil => exact absurd h Program.not_path_pure
  | cons market markets ih =>
      obtain ⟨_, _, later, rfl, _, hopened⟩ := Program.path_past h
        (P := (· ≠ OrderRequest.publishWithID subject payload messageID))
        (ask_makes (Program.makes_request (by simp)) _) (not_not.mpr rfl)
      obtain ⟨rows, earlier, later', rfl, hread, hrestore⟩ := Program.path_past hopened
        (P := (· ≠ OrderRequest.publishWithID subject payload messageID))
        (ask_makes (Program.makes_request (by simp)) _) (not_not.mpr rfl)
      have hanswered := Program.path_request (path_ask hread)
      rcases Program.path_andThen hrestore with ⟨rest', hhere⟩ | ⟨_, _, later'', rfl, _, hmarkets⟩
      · refine ⟨p.uuid.string market.marketID, rows, ?_, ?_⟩
        · simp [hanswered]
        · exact (hhere.makes (restoreOrders_republishes (List.Subset.refl rows))).1
      · obtain ⟨marketId, rows', hmem, hpublish⟩ := ih hmarkets
        refine ⟨marketId, rows', ?_, hpublish⟩
        simp [hmem]

/-- Where a message of an order comes from: a sweep has polled it, or the rebuild has read the row
of its order. -/
theorem Exchange.OnPath.publishes {sdk : Sdk} {s : Exchange} (hs : s.OnPath p sdk) {task : Task}
    (htask : task ∈ s.tasks) {subject messageID : Str} {payload : Fields}
    {rest : Except String Unit → OrderM Unit}
    (hprogram : task.program = .call (.publishWithID subject payload messageID) rest) :
    (∃ records, ⟨.pendingOrderOutbox sweepLimit, .ok records⟩ ∈ task.answers ∧
        ∃ record ∈ records, subject = record.subject ∧ payload = record.payload ∧
          messageID = p.uuid.string record.txID) ∨
      ∃ marketId rows, ⟨.getAllOpenPredictionIntentsByMarketId marketId, .ok rows⟩ ∈ task.answers ∧
        Republishes p rows (.publishWithID subject payload messageID) := by
  have hrole := hs.asks htask hprogram
  have hpath := (hs task htask).1
  rw [hprogram] at hpath
  cases hkind : task.kind with
  | sweep =>
      rw [hkind] at hpath
      rcases sweepOutbox_path hpath with hpoll | ⟨records, hanswer, record, hmem, hasks⟩
      · exact absurd hpoll (by simp)
      · cases hasks
        exact Or.inl ⟨records, hanswer, record, hmem, rfl, rfl, rfl⟩
  | recreate =>
      rw [hkind] at hpath
      obtain ⟨rest', hrecreate, _⟩ := path_dropped hpath
      obtain ⟨_, _, later, hanswers, _, hmarkets⟩ := Program.path_past hrecreate
        (P := (· ≠ OrderRequest.publishWithID subject payload messageID))
        (ask_makes (Program.makes_request (by simp)) _) (not_not.mpr rfl)
      obtain ⟨marketId, rows, hmem, hpublish⟩ := restoreMarkets_path hmarkets
      refine Or.inr ⟨marketId, rows, ?_, hpublish⟩
      rw [hanswers]
      exact List.mem_append_right _ hmem
  | create req =>
      rw [hkind] at hrole
      exact absurd hrole (by rintro (h | h) <;> exact h)
  | _ =>
      rw [hkind] at hrole
      exact absurd hrole not_false

/-- A message is marked as delivered after its publication was acknowledged. -/
theorem Exchange.OnPath.marks {sdk : Sdk} {s : Exchange} (hs : s.OnPath p sdk) {task : Task}
    (htask : task ∈ s.tasks) {id : Nat} {rest : Except String Unit → OrderM Unit}
    (hprogram : task.program = .call (.markOrderOutboxDelivered id) rest) :
    ∃ records, ⟨.pendingOrderOutbox sweepLimit, .ok records⟩ ∈ task.answers ∧
      ∃ record ∈ records, record.id = id ∧
        ⟨.publishWithID record.subject record.payload (p.uuid.string record.txID), .ok ()⟩ ∈
          task.answers := by
  have hrole := hs.asks htask hprogram
  have hpath := (hs task htask).1
  rw [hprogram] at hpath
  cases hkind : task.kind with
  | sweep =>
      rw [hkind] at hpath
      rcases sweepOutbox_path hpath with hpoll | ⟨records, hanswer, record, hmem, hasks⟩
      · exact absurd hpoll (by simp)
      · cases hasks with
        | delivered hpublished => exact ⟨records, hanswer, record, hmem, rfl, hpublished⟩
  | create req =>
      rw [hkind] at hrole
      exact absurd hrole (by rintro (h | h) <;> exact h)
  | _ =>
      rw [hkind] at hrole
      exact absurd hrole not_false

end Paths

/-! ## What a step does to the messages -/

def StreamMessage.sent (m : StreamMessage) : StreamMessage := { m with done := false }

inductive Exchange.Posts (p : Platform) (s : Exchange) (e : Event) (s' : Exchange) : Prop
  | quiet (rows : s.db.Onward s'.db) (outbox : s'.outbox = s.outbox)
      (acknowledged : s'.acknowledged = s.acknowledged)
      (stream : s'.stream.map (·.sent) = s.stream.map (·.sent))
  | committed {task : Task} {req : PrismPredictionIntentRequest} {terms : OrderTerms}
      {subject : Str} {payload : Fields} {id : Nat} (commits : s.Commits p e task req terms)
      (request : ∃ rest,
        task.program = .call (.createOrderIntentRequestWithOutbox req subject payload) rest)
      (rows : s'.db = { s.db with intents := s.db.intents.insert (.new terms) })
      (outbox : (∃ row ∈ s.outbox.rows, row.txID = terms.txID ∧ row.subject = subject) ∧
          s'.outbox = s.outbox ∨
        (∀ row ∈ s.outbox.rows, row.id ≠ id) ∧ s'.outbox =
          s.outbox.insert ⟨id, terms.txID, subject, payload.stored, 0, s.clock, false, none⟩)
      (acknowledged : s'.acknowledged = s.acknowledged) (stream : s'.stream = s.stream)
  | published {task : Task} {subject messageID : Str} {payload : Fields} (mem : task ∈ s.tasks)
      (request : ∃ rest, task.program = .call (.publishWithID subject payload messageID) rest)
      (rows : s'.db = s.db) (outbox : s'.outbox = s.outbox)
      (acknowledged : s'.acknowledged = s.acknowledged ∨
        s'.acknowledged = messageID :: s.acknowledged)
      (stream : s'.stream = (s.publish p subject payload messageID).stream)
  | failed {id : Nat} {cause : String} (rows : s'.db = s.db)
      (outbox : s'.outbox = s.outbox.recordFailure id cause s.clock)
      (acknowledged : s'.acknowledged = s.acknowledged) (stream : s'.stream = s.stream)
  | delivered {task : Task} {id : Nat} (mem : task ∈ s.tasks)
      (request : ∃ rest, task.program = .call (.markOrderOutboxDelivered id) rest)
      (rows : s'.db = s.db) (outbox : s'.outbox = s.outbox.markDelivered id)
      (acknowledged : s'.acknowledged = s.acknowledged) (stream : s'.stream = s.stream)

section Steps

variable {p : Platform} {sdk : Sdk} {s : Exchange} {e : Event}

theorem Exchange.deliver_sent (s : Exchange) (j now : Nat) (acks : Bool) :
    (s.deliver j now acks).stream.map (·.sent) = s.stream.map (·.sent) := by
  unfold Exchange.deliver
  split
  · rfl
  next m hm =>
  have hset : (s.stream.set j { m with done := acks }).map (·.sent) = s.stream.map (·.sent) :=
    map_set_same hm rfl
  split
  · rfl
  dsimp only
  split
  · exact hset
  split
  · exact hset
  split
  · rfl
  · exact hset

theorem Exchange.expire_sent (s : Exchange) (j : Nat) :
    (s.expire j).stream.map (·.sent) = s.stream.map (·.sent) := by
  unfold Exchange.expire
  split
  · rfl
  · next m hm => exact map_set_same hm rfl

theorem Exchange.effect_posts {i : Nat} {answer : (r : OrderRequest) → r.Answer} {id : Nat}
    {task : Task} (htask : s.tasks[i]? = some task) {r : OrderRequest}
    {rest : r.Answer → OrderM Unit}
    (hprogram : task.program = .call r rest) (hid : ∀ row ∈ s.outbox.rows, row.id ≠ id) :
    s.Posts p (.serve i answer true id) (s.effect p id r (answer r)) := by
  have hmem := List.mem_of_getElem? htask
  have hquiet : s.Posts p (.serve i answer true id) s := .quiet (Db.Onward.refl _) rfl rfl rfl
  cases r with
  | createOrderIntentRequestWithOutbox req subject payload =>
      simp only [Exchange.effect]
      split
      · next db outbox htables =>
        obtain ⟨terms, hterms, hnew, hdb, houtbox⟩ := Db.createOrder_ok htables
        have hcommits : s.Commits p (.serve i answer true id) task req terms :=
          ⟨hmem, ⟨i, answer, id, rfl, htask⟩, ⟨subject, payload, rest, hprogram⟩, hterms, hnew⟩
        have htables' : (∃ row ∈ s.outbox.rows, row.txID = terms.txID ∧ row.subject = subject) ∧
            outbox = s.outbox ∨ (∀ row ∈ s.outbox.rows, row.id ≠ id) ∧ outbox =
              s.outbox.insert ⟨id, terms.txID, subject, payload.stored, 0, s.clock, false, none⟩ :=
          houtbox.imp_right fun h => ⟨hid, h.2⟩
        exact .committed hcommits ⟨rest, hprogram⟩ hdb htables' rfl rfl
      · exact hquiet
  | publishWithID subject payload messageID =>
      obtain ⟨hdb, houtbox, hacknowledged⟩ := s.publish_frame (p := p) subject payload messageID
      cases hanswer : answer (.publishWithID subject payload messageID) with
      | ok _ =>
          have hmore : messageID :: s.acknowledged = s.acknowledged ∨
              messageID :: s.acknowledged = messageID :: s.acknowledged := Or.inr rfl
          exact .published hmem ⟨rest, hprogram⟩ hdb houtbox hmore rfl
      | error err =>
          exact .published hmem ⟨rest, hprogram⟩ hdb houtbox (Or.inl hacknowledged) rfl
  | recordOrderOutboxFailure id' cause => exact .failed rfl rfl rfl rfl
  | markOrderOutboxDelivered id' => exact .delivered hmem ⟨rest, hprogram⟩ rfl rfl rfl rfl
  | cancelPredictionIntent txId =>
      simp only [Exchange.effect]
      split
      · exact .quiet (Db.onward_cancel _ _) rfl rfl rfl
      · exact hquiet
  | markPredictionIntentAsEvicted txID => exact .quiet (Db.onward_evict _ _) rfl rfl rfl
  | _ => exact .quiet (Db.Onward.refl _) rfl rfl rfl

variable (sdk) in
theorem Exchange.posts (hallowed : s.Allowed p e) : s.Posts p e (s.next p sdk e) := by
  have hrows (hno : ∀ i answer id, e ≠ .serve i answer true id) :
      s.db.Onward (s.next p sdk e).db := by
    rcases s.next_rows sdk hallowed with ⟨task, req, terms, hcommits, _⟩ | honward
    · obtain ⟨i, answer, id, heq, _⟩ := hcommits.event
      exact absurd heq (hno i answer id)
    · exact honward
  cases e with
  | serve i answer commit id =>
      simp only [Exchange.next, Exchange.serve]
      split
      · exact .quiet (Db.Onward.refl _) rfl rfl rfl
      next task htask =>
      split
      · exact .quiet (Db.Onward.refl _) rfl rfl rfl
      next r rest hprogram =>
      cases commit with
      | false => exact .quiet (Db.Onward.refl _) rfl rfl rfl
      | true =>
          -- the tasks take no part
          have heffect : s.Posts p (.serve i answer true id) (s.effect p id r (answer r)) :=
            s.effect_posts htask hprogram hallowed.1
          cases heffect with
          | quiet rows outbox acknowledged stream => exact .quiet rows outbox acknowledged stream
          | committed commits request rows outbox acknowledged stream =>
              exact .committed commits request rows outbox acknowledged stream
          | published mem request rows outbox acknowledged stream =>
              exact .published mem request rows outbox acknowledged stream
          | failed rows outbox acknowledged stream => exact .failed rows outbox acknowledged stream
          | delivered mem request rows outbox acknowledged stream =>
              exact .delivered mem request rows outbox acknowledged stream
  | deliver j now acks =>
      obtain ⟨_, _, houtbox, hacknowledged, _⟩ := s.deliver_frame j now acks
      exact .quiet (hrows (by simp)) houtbox hacknowledged (s.deliver_sent j now acks)
  | expire j =>
      obtain ⟨_, _, houtbox, hacknowledged, _⟩ := s.expire_frame j
      exact .quiet (hrows (by simp)) houtbox hacknowledged (s.expire_sent j)
  | _ => exact .quiet (hrows (by simp)) rfl rfl rfl

/-! ## Rows of the outbox -/

/-- A row of the outbox is about the same message as another one. -/
structure OutboxRow.Same (r r' : OutboxRow) : Prop where
  id : r'.id = r.id
  txID : r'.txID = r.txID
  subject : r'.subject = r.subject
  payload : r'.payload = r.payload

theorem OutboxRow.Same.refl (r : OutboxRow) : r.Same r := ⟨rfl, rfl, rfl, rfl⟩

theorem OutboxRow.Same.trans {r r' r'' : OutboxRow} (h : r.Same r') (h' : r'.Same r'') :
    r.Same r'' :=
  ⟨h'.id.trans h.id, h'.txID.trans h.txID, h'.subject.trans h.subject,
    h'.payload.trans h.payload⟩

theorem backoff_le (attempts : Nat) : backoff attempts ≤ maxBackoff := Nat.min_le_left _ _

/-- Where a row of the outbox comes from: it was there, with its marks, or an order was just
committed with it. -/
theorem Exchange.Posts.outbox_from {s' : Exchange} (h : s.Posts p e s') {r' : OutboxRow}
    (hmem : r' ∈ s'.outbox.rows) :
    (∃ r ∈ s.outbox.rows, r.Same r' ∧
        r'.nextAttemptAt ≤ max r.nextAttemptAt (s.clock + maxBackoff) ∧
        (r'.deliveredAt = true → r.deliveredAt = true ∨ ∃ task ∈ s.tasks, ∃ rest,
          task.program = .call (.markOrderOutboxDelivered r.id) rest) ∧
        (r.deliveredAt = true → r'.deliveredAt = true)) ∨
      ∃ task req terms subject payload id, s.Commits p e task req terms ∧
        (∃ rest,
          task.program = .call (.createOrderIntentRequestWithOutbox req subject payload) rest) ∧
        r' = ⟨id, terms.txID, subject, payload.stored, 0, s.clock, false, none⟩ := by
  have hold (hmem : r' ∈ s.outbox.rows) : ∃ r ∈ s.outbox.rows, r.Same r' ∧
      r'.nextAttemptAt ≤ max r.nextAttemptAt (s.clock + maxBackoff) ∧
      (r'.deliveredAt = true → r.deliveredAt = true ∨ ∃ task ∈ s.tasks, ∃ rest,
        task.program = .call (.markOrderOutboxDelivered r.id) rest) ∧
      (r.deliveredAt = true → r'.deliveredAt = true) :=
    ⟨r', hmem, .refl r', Nat.le_max_left _ _, Or.inl, id⟩
  cases h with
  | quiet rows outbox => exact Or.inl (hold (outbox ▸ hmem))
  | published mem request rows outbox => exact Or.inl (hold (outbox ▸ hmem))
  | committed commits request rows outbox =>
      rcases outbox with ⟨_, hsame⟩ | ⟨_, hinsert⟩
      · exact Or.inl (hold (hsame ▸ hmem))
      · rw [hinsert] at hmem
        rcases Table.mem_of_mem_insert hmem with hthere | rfl
        · exact Or.inl (hold hthere)
        · exact Or.inr ⟨_, _, _, _, _, _, commits, request, rfl⟩
  | failed rows outbox =>
      rw [outbox] at hmem
      obtain ⟨r, hr, rfl⟩ := Table.mem_modify.mp hmem
      refine Or.inl ⟨r, hr, ?_⟩
      have hbackoff := backoff_le r.attempts
      split
      · split
        · exact ⟨.refl r, Nat.le_max_left _ _, Or.inl, id⟩
        · refine ⟨⟨rfl, rfl, rfl, rfl⟩, ?_, Or.inl, id⟩
          show s.clock + backoff r.attempts ≤ _
          omega
      · exact ⟨.refl r, Nat.le_max_left _ _, Or.inl, id⟩
  | delivered mem request rows outbox =>
      rw [outbox] at hmem
      obtain ⟨r, hr, rfl⟩ := Table.mem_modify.mp hmem
      refine Or.inl ⟨r, hr, ?_⟩
      obtain ⟨rest, hprogram⟩ := request
      split
      · next hid =>
        subst hid
        split
        · exact ⟨.refl r, Nat.le_max_left _ _, Or.inl, id⟩
        · exact ⟨⟨rfl, rfl, rfl, rfl⟩, Nat.le_max_left _ _,
            fun _ => Or.inr ⟨_, mem, rest, hprogram⟩, fun _ => rfl⟩
      · exact ⟨.refl r, Nat.le_max_left _ _, Or.inl, id⟩

theorem Exchange.Posts.outbox_to {s' : Exchange} (h : s.Posts p e s') {r : OutboxRow}
    (hmem : r ∈ s.outbox.rows) : ∃ r' ∈ s'.outbox.rows, r.Same r' := by
  cases h with
  | quiet rows outbox => exact ⟨r, outbox ▸ hmem, .refl r⟩
  | published mem request rows outbox => exact ⟨r, outbox ▸ hmem, .refl r⟩
  | committed commits request rows outbox =>
      rcases outbox with ⟨_, hsame⟩ | ⟨_, hinsert⟩
      · exact ⟨r, hsame ▸ hmem, .refl r⟩
      · exact ⟨r, hinsert ▸ Table.mem_insert hmem, .refl r⟩
  | failed rows outbox =>
      rw [outbox]
      refine ⟨_, Table.mem_modify.mpr ⟨r, hmem, rfl⟩, ?_⟩
      split
      · split
        · exact .refl r
        · exact ⟨rfl, rfl, rfl, rfl⟩
      · exact .refl r
  | delivered mem request rows outbox =>
      rw [outbox]
      refine ⟨_, Table.mem_modify.mpr ⟨r, hmem, rfl⟩, ?_⟩
      split
      · split
        · exact .refl r
        · exact ⟨rfl, rfl, rfl, rfl⟩
      · exact .refl r

theorem Exchange.Posts.acknowledged_to {s' : Exchange} (h : s.Posts p e s') {messageID : Str}
    (hmem : messageID ∈ s.acknowledged) : messageID ∈ s'.acknowledged := by
  cases h with
  | published mem request rows outbox acknowledged =>
      rcases acknowledged with hsame | hmore
      · exact hsame ▸ hmem
      · exact hmore ▸ List.mem_cons_of_mem _ hmem
  | quiet rows outbox acknowledged => exact acknowledged ▸ hmem
  | committed commits request rows outbox acknowledged => exact acknowledged ▸ hmem
  | failed rows outbox acknowledged => exact acknowledged ▸ hmem
  | delivered mem request rows outbox acknowledged => exact acknowledged ▸ hmem

end Steps

end PrismBackend.Api
