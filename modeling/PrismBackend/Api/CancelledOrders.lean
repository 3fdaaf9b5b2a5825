import PrismBackend.Api.Removal
import PrismBackend.Api.TxIdentity

/-!
# API: no cancelled order rests

A removal that comes after the last message of its order is final: the order does
not rest again, and is not matched. One that comes before is lost, because the
mark of the order refuses a second cancellation.
-/

namespace PrismBackend.Api

open PrismBackend.Lib PrismBackend.Clob PrismBackend.PrismV2

section Steps

variable {p : Platform} {sdk : Sdk} {s : Exchange} {e : Event} {txID : Uint128} {txId : Str}

/-! ## What a step does to the CLOB -/

/-- The stream has a message that is not done, and this is its order. -/
def Exchange.Sent (s : Exchange) (order : CreateOrderRequestClob) : Prop :=
  ∃ m ∈ s.stream, m.done = false ∧ readOrder m.payload = some order

/-- What a step can make of the CLOB. -/
inductive Exchange.Turns (s : Exchange) (e : Event) : OrderBookService → Prop
  | same : s.Turns e s.clob
  | request (r : ClobRequest) (ofApi : ofApi r = true)
      (sent : ∀ order now, r = .deliverOrder order now → s.Sent order) :
      s.Turns e (s.clob.step r).1
  | restarted (event : e = .restartClob) : s.Turns e .new

theorem Exchange.publish_clob (s : Exchange) (subject : Str) (payload : Fields)
    (messageID : Str) : (s.publish p subject payload messageID).clob = s.clob := by
  unfold Exchange.publish
  split
  · rfl
  · rfl

theorem Exchange.effect_turns (s : Exchange) (e : Event) (id : Nat) (r : OrderRequest)
    (answer : r.Answer) : s.Turns e (s.effect p id r answer).clob := by
  cases r with
  | createOrderIntentRequestWithOutbox req subject payload =>
      simp only [Exchange.effect]
      split
      · exact .same
      · exact .same
  | publishWithID subject payload messageID =>
      have hclob := s.publish_clob (p := p) subject payload messageID
      cases answer with
      | ok _ =>
          show s.Turns e (s.publish p subject payload messageID).clob
          exact hclob ▸ .same
      | error err =>
          show s.Turns e (s.publish p subject payload messageID).clob
          exact hclob ▸ .same
  | cancelPredictionIntent txId =>
      simp only [Exchange.effect]
      split
      · exact .same
      · exact .same
  | cancelOrder marketId txId => exact .request (.cancelOrder marketId txId) rfl (by simp)
  | createMarketOnClob marketId => exact .request (.createMarket marketId) rfl (by simp)
  | _ => exact .same

theorem Exchange.deliver_turns (s : Exchange) (j now : Nat) (acks : Bool) :
    s.Turns e (s.deliver j now acks).clob := by
  unfold Exchange.deliver
  split
  · exact .same
  next m hm =>
  split
  · exact .same
  next hopen =>
  dsimp only
  split
  · exact .same
  next order hread =>
  split
  · exact .same
  next hnew =>
  split
  · exact .same
  · have hsent : s.Sent order :=
      ⟨m, List.mem_of_getElem? hm, Bool.eq_false_iff.mpr fun h => hopen (Or.inl h), hread⟩
    have hstep : s.clob.step (.deliverOrder order now) = s.clob.placeOrder order now := if_neg hnew
    show s.Turns e (s.clob.placeOrder order now).1
    rw [← hstep]
    refine .request (.deliverOrder order now) rfl ?_
    rintro _ _ ⟨⟩
    exact hsent

variable (p sdk) in
theorem Exchange.turns (s : Exchange) (e : Event) : s.Turns e (s.next p sdk e).clob := by
  cases e with
  | serve i answer commit id =>
      simp only [Exchange.next, Exchange.serve]
      split
      · exact .same
      split
      · exact .same
      · next r rest _ =>
        cases commit with
        | false => exact .same
        | true => exact s.effect_turns _ id r (answer r)
  | deliver j now acks => exact s.deliver_turns j now acks
  | expire j =>
      have hclob : (s.expire j).clob = s.clob := by
        unfold Exchange.expire
        split
        · rfl
        · rfl
      show s.Turns _ (s.expire j).clob
      exact hclob ▸ .same
  | restartClob => exact .restarted rfl
  | closeMarket marketId => exact .request (.closeMarket marketId) rfl (by simp)
  | _ => exact .same

/-- What rests after a step rested before, or was sent and is new to the CLOB. -/
theorem Exchange.Turns.rests {clob : OrderBookService} (h : s.Turns e clob) (htidy : s.clob.Tidy)
    {key id : Str} (hrests : clob.Rests key id) :
    s.clob.Rests key id ∨ ∃ order, s.Sent order ∧ s.clob.orderExists order.txId = false ∧
      key = toAsciiLowercase order.marketId ∧ id = order.txId := by
  cases h with
  | same => exact Or.inl hrests
  | request r hapi hsent =>
      rcases (step_tidy htidy hapi).2 key id hrests with hbefore | ⟨order, now, hr, hplaced⟩
      · exact Or.inl hbefore
      · exact Or.inr ⟨order, hsent order now hr, hplaced⟩
  | restarted _ =>
      obtain ⟨book, hbook, _⟩ := hrests
      exact absurd hbook (by simp [OrderBookService.new])

theorem Exchange.Turns.tidy {clob : OrderBookService} (h : s.Turns e clob)
    (htidy : s.clob.Tidy) : clob.Tidy := by
  cases h with
  | same => exact htidy
  | request r hapi _ => exact (step_tidy htidy hapi).1
  | restarted _ => exact OrderBookService.tidy_new

theorem Exchange.Turns.registered {clob : OrderBookService} (h : s.Turns e clob)
    (hruns : e ≠ .restartClob) {id : Str} (hmem : id ∈ s.clob.txIdLut) : id ∈ clob.txIdLut := by
  cases h with
  | same => exact hmem
  | request r hapi _ =>
      rw [step_txIdLut hapi]
      exact List.mem_append_right _ hmem
  | restarted event => exact absurd event hruns

/-! ## What a step does to the messages -/

theorem Exchange.effect_stream (s : Exchange) (id : Nat) (r : OrderRequest) (answer : r.Answer) :
    (s.effect p id r answer).stream = s.stream ∨ ∃ subject payload messageID,
      r = .publishWithID subject payload messageID ∧
        (s.effect p id r answer).stream = (s.publish p subject payload messageID).stream := by
  cases r with
  | createOrderIntentRequestWithOutbox req subject payload =>
      left
      simp only [Exchange.effect]
      split
      · rfl
      · rfl
  | publishWithID subject payload messageID =>
      refine Or.inr ⟨subject, payload, messageID, rfl, ?_⟩
      cases answer with
      | ok _ => rfl
      | error err => rfl
  | cancelPredictionIntent txId =>
      left
      simp only [Exchange.effect]
      split
      · rfl
      · rfl
  | _ => exact Or.inl rfl

theorem Exchange.mem_publish {subject messageID : Str} {payload : Fields} {m : StreamMessage}
    (h : m ∈ (s.publish p subject payload messageID).stream) :
    m ∈ s.stream ∨ m.payload = payload := by
  unfold Exchange.publish at h
  split at h
  · exact Or.inl h
  · rcases List.mem_append.mp h with hthere | hnew
    · exact Or.inl hthere
    · rw [List.mem_singleton.mp hnew]
      exact Or.inr rfl

theorem Exchange.deliver_stream {j now : Nat} {acks : Bool} {m' : StreamMessage}
    (hmem : m' ∈ (s.deliver j now acks).stream) :
    m' ∈ s.stream ∨ ∃ m ∈ s.stream, m.done = false ∧ m.payload = m'.payload := by
  unfold Exchange.deliver at hmem
  split at hmem
  · exact Or.inl hmem
  next m hm =>
  split at hmem
  · exact Or.inl hmem
  next hopen =>
  have hset (h : m' ∈ s.stream.set j { m with done := acks }) :
      m' ∈ s.stream ∨ ∃ m ∈ s.stream, m.done = false ∧ m.payload = m'.payload := by
    rcases List.mem_or_eq_of_mem_set h with hthere | rfl
    · exact Or.inl hthere
    · exact Or.inr ⟨m, List.mem_of_getElem? hm,
        Bool.eq_false_iff.mpr fun h => hopen (Or.inl h), rfl⟩
  dsimp only at hmem
  split at hmem
  · exact hset hmem
  split at hmem
  · exact hset hmem
  split at hmem
  · exact Or.inl hmem
  · exact hset hmem

variable (p sdk) in
/-- A message that is not done was not done before, or a task just published it. -/
theorem Exchange.stream_from (s : Exchange) (e : Event) {m' : StreamMessage}
    (hmem : m' ∈ (s.next p sdk e).stream) (hopen : m'.done = false) :
    (∃ m ∈ s.stream, m.done = false ∧ m.payload = m'.payload) ∨
      ∃ task ∈ s.tasks, ∃ subject messageID rest,
        task.program = .call (.publishWithID subject m'.payload messageID) rest := by
  have hold (h : m' ∈ s.stream) : ∃ m ∈ s.stream, m.done = false ∧ m.payload = m'.payload :=
    ⟨m', h, hopen, rfl⟩
  cases e with
  | serve i answer commit id =>
      simp only [Exchange.next, Exchange.serve] at hmem
      split at hmem
      · exact Or.inl (hold hmem)
      next task htask =>
      split at hmem
      · exact Or.inl (hold hmem)
      next r rest hprogram =>
      cases commit with
      | false => exact Or.inl (hold hmem)
      | true =>
          rcases s.effect_stream (p := p) id r (answer r) with
            hsame | ⟨subject, payload, messageID, rfl, hpublished⟩
          · exact Or.inl (hold (hsame ▸ hmem))
          · rcases Exchange.mem_publish (hpublished ▸ hmem) with hthere | rfl
            · exact Or.inl (hold hthere)
            · exact Or.inr ⟨task, List.mem_of_getElem? htask, subject, messageID, rest, hprogram⟩
  | deliver j now acks =>
      rcases Exchange.deliver_stream hmem with hthere | hbefore
      · exact Or.inl (hold hthere)
      · exact Or.inl hbefore
  | expire j =>
      simp only [Exchange.next, Exchange.expire] at hmem
      split at hmem
      · exact Or.inl (hold hmem)
      · rcases List.mem_or_eq_of_mem_set hmem with hthere | rfl
        · exact Or.inl (hold hthere)
        · exact absurd hopen (by simp)
  | _ => exact Or.inl (hold hmem)

/-- A message of an order is on its way since before, or the order is new, or it is open and the
rebuild has just read it. -/
theorem Exchange.Posted.outstanding_from (hs : s.Posted p sdk) (hallowed : s.Allowed p e)
    (h : (s.next p sdk e).Outstanding p txID txId) :
    s.Outstanding p txID txId ∨ s.db.intents.find txID = none ∨
      ∃ row, s.db.intents.find txID = some row ∧ isOpenPredictionIntent row = true := by
  cases h with
  | @sent m' hmem hopen hcarries =>
      left
      rcases s.stream_from p sdk e hmem hopen with
        ⟨m, hm, hopen', hpayload⟩ | ⟨task, htask, subject, messageID, rest, hprogram⟩
      · exact .sent hm hopen' (hpayload ▸ hcarries)
      · exact .held htask (hs.holds htask hprogram hcarries)
  | @pending r' hmem hdelivered hcarries =>
      rcases (Exchange.posts sdk hallowed).outbox_from hmem with
        ⟨r, hr, hsame, _, _, hmark⟩ | ⟨task, req, terms, subject, payload, id, hcommits, hrequest,
          rfl⟩
      · left
        refine .pending hr (Bool.eq_false_iff.mpr fun h => ?_) (hsame.payload ▸ hcarries)
        exact absurd (hmark h) (Bool.eq_false_iff.mp hdelivered)
      · have hkey : (PredictionIntent.new terms).txID = txID :=
          (hs.commits hcommits hrequest).carried hcarries
        exact Or.inr (Or.inl (hkey ▸ hcommits.new))
  | @held task' hmem hholds =>
      rcases Exchange.mem_tasks_next hmem with hold | ⟨kind, rfl, rfl⟩ |
        ⟨i, answer, commit, id, task, r, rest, rfl, htask, hprogram, rfl⟩
      · exact Or.inl (.held hold hholds)
      · rcases hholds.read with ⟨_, _, _, hnone, _⟩ | ⟨_, _, _, hnone, _⟩
        · exact absurd hnone List.not_mem_nil
        · exact absurd hnone List.not_mem_nil
      · have hhonest := hallowed.2 task r rest htask hprogram
        rcases hholds.answered hprogram with hbefore |
          ⟨limit, records, record, hanswer, hrecord, hcarries⟩ |
          ⟨marketId, rows, row, hanswer, hrow, hkey⟩
        · exact Or.inl (.held (List.mem_of_getElem? htask) hbefore)
        · left
          rw [Sigma.mk.injEq] at hanswer
          obtain ⟨rfl, hanswer⟩ := hanswer
          rw [eq_of_heq hanswer] at hhonest
          have hpolled : record ∈ s.outbox.pending s.clock :=
            List.mem_of_mem_take (hhonest ▸ hrecord)
          obtain ⟨hthere, hdelivered, _⟩ := Outbox.mem_pending.mp hpolled
          exact .pending hthere hdelivered hcarries
        · right
          right
          rw [Sigma.mk.injEq] at hanswer
          obtain ⟨rfl, hanswer⟩ := hanswer
          rw [eq_of_heq hanswer] at hhonest
          obtain ⟨marketID, _, hperm⟩ := hhonest
          have hopen := hperm.mem_iff.mp hrow
          unfold Db.openPredictionIntents at hopen
          split at hopen
          · obtain ⟨hthere, htest⟩ := List.mem_filter.mp hopen
            rw [Bool.and_eq_true] at htest
            exact ⟨row, hkey ▸ Table.find_key hthere, htest.2⟩
          · exact absurd hopen List.not_mem_nil

/-! ## Rows that were cancelled or evicted -/

def Db.ShutsNone (db db' : Db) : Prop :=
  ∀ row' ∈ db'.intents.rows, row'.isShut = true →
    ∃ row, db.intents.find row'.txID = some row ∧ row.isShut = true

theorem Db.ShutsNone.of_eq {db db' : Db} (h : db'.intents = db.intents) : db.ShutsNone db' :=
  fun row' hmem hshut => ⟨row', Table.find_key (h ▸ hmem), hshut⟩

theorem Db.ShutsNone.trans {db db' db'' : Db} (h : db.ShutsNone db') (h' : db'.ShutsNone db'') :
    db.ShutsNone db'' := by
  intro row'' hmem hshut
  obtain ⟨row', hrow', hshut'⟩ := h' row'' hmem hshut
  obtain ⟨hmem', hkey⟩ := Table.find_eq_some.mp hrow'
  rw [← hkey]
  exact h row' hmem' hshut'

theorem Db.shutsNone_modify (db : Db) (k : Uint128) {f : PredictionIntent → PredictionIntent}
    (hf : ∀ row, (f row).txID = row.txID) (hsame : ∀ row, (f row).isShut = row.isShut) :
    db.ShutsNone { db with intents := db.intents.modify k f hf } := by
  intro row' hmem hshut
  obtain ⟨row, hrow, rfl | ⟨_, rfl⟩⟩ := Table.find_of_mem_modify hf hmem
  · exact ⟨row', hrow, hshut⟩
  · exact ⟨row, hrow, hsame row ▸ hshut⟩

theorem Db.shutsNone_fill {db db' : Db} {k : Uint128} {shares collateral : Nat}
    (h : db.addPredictionIntentFill k shares collateral = .ok db') : db.ShutsNone db' := by
  obtain ⟨_, _, _, _, rfl⟩ := Db.addPredictionIntentFill_ok h
  exact db.shutsNone_modify k _ fun _ => rfl

theorem Db.shutsNone_finalize {db db' : Db} {uuid : Uuid} {m : MatchV2} {txHash : Str}
    {applied : Bool} (h : db.finalizeMatchV2 uuid m txHash = .ok (db', applied)) :
    db.ShutsNone db' := by
  rcases Db.finalizeMatchV2_ok h with ⟨_, rfl⟩ | ⟨_, _, middle, _, _, hmiddle, hlast⟩
  · exact .of_eq rfl
  · have hmatch : db.ShutsNone (db.finalizeMatch m.matchID txHash) := .of_eq rfl
    exact (hmatch.trans (Db.shutsNone_fill hmiddle)).trans (Db.shutsNone_fill hlast)

theorem Db.shut_cancel {db : Db} {k : Uint128} {row' : PredictionIntent}
    (hmem : row' ∈ (db.cancelPredictionIntent k).intents.rows) (hshut : row'.isShut = true) :
    (∃ row, db.intents.find row'.txID = some row ∧ row.isShut = true) ∨ row'.txID = k := by
  unfold Db.cancelPredictionIntent at hmem
  dsimp only at hmem
  obtain ⟨row, hrow, rfl | ⟨hkey, _⟩⟩ := Table.find_of_mem_modify (fun _ => by rfl) hmem
  · exact Or.inl ⟨row', hrow, hshut⟩
  · exact Or.inr hkey

theorem Db.shut_evict {db : Db} {k : Uint128} {row' : PredictionIntent}
    (hmem : row' ∈ (db.markPredictionIntentAsEvicted k).intents.rows) (hshut : row'.isShut = true) :
    (∃ row, db.intents.find row'.txID = some row ∧ row.isShut = true) ∨ row'.txID = k := by
  unfold Db.markPredictionIntentAsEvicted at hmem
  dsimp only at hmem
  obtain ⟨row, hrow, rfl | ⟨hkey, _⟩⟩ := Table.find_of_mem_modify (fun _ => by rfl) hmem
  · exact Or.inl ⟨row', hrow, hshut⟩
  · exact Or.inr hkey

def Marks (p : Platform) (txID : Uint128) : OrderRequest → Prop
  | .cancelPredictionIntent txId => p.uuid.parse txId = .ok txID
  | .markPredictionIntentAsEvicted txID' => txID' = txID
  | _ => False

theorem Exchange.effect_shut (s : Exchange) (id : Nat) (r : OrderRequest) (answer : r.Answer)
    {row' : PredictionIntent} (hmem : row' ∈ (s.effect p id r answer).db.intents.rows)
    (hshut : row'.isShut = true) :
    (∃ row, s.db.intents.find row'.txID = some row ∧ row.isShut = true) ∨
      Marks p row'.txID r := by
  have hold (h : row' ∈ s.db.intents.rows) :
      ∃ row, s.db.intents.find row'.txID = some row ∧ row.isShut = true :=
    ⟨row', Table.find_key h, hshut⟩
  cases r with
  | createOrderIntentRequestWithOutbox req subject payload =>
      left
      simp only [Exchange.effect] at hmem
      split at hmem
      · next db outbox htables =>
        obtain ⟨terms, _, _, rfl, _⟩ := Db.createOrder_ok htables
        rcases Table.mem_of_mem_insert hmem with hthere | rfl
        · exact hold hthere
        · exact absurd hshut Bool.false_ne_true
      · exact hold hmem
  | publishWithID subject payload messageID =>
      left
      have hdb := (s.publish_frame (p := p) subject payload messageID).1
      cases answer with
      | ok _ => exact hold (hdb ▸ hmem)
      | error err => exact hold (hdb ▸ hmem)
  | cancelPredictionIntent txId =>
      simp only [Exchange.effect] at hmem
      split at hmem
      · next txID hparse =>
        refine (Db.shut_cancel hmem hshut).imp_right ?_
        rintro rfl
        exact hparse
      · exact Or.inl (hold hmem)
  | markPredictionIntentAsEvicted txID => exact (Db.shut_evict hmem hshut).imp_right Eq.symm
  | _ => exact Or.inl (hold hmem)

variable (p sdk) in
/-- An order that is shut was shut before, or a task has just marked it. -/
theorem Exchange.shut_from (s : Exchange) (e : Event) {row' : PredictionIntent}
    (hmem : row' ∈ (s.next p sdk e).db.intents.rows) (hshut : row'.isShut = true) :
    (∃ row, s.db.intents.find row'.txID = some row ∧ row.isShut = true) ∨
      ∃ i answer id task r rest, e = .serve i answer true id ∧ s.tasks[i]? = some task ∧
        task.program = .call r rest ∧ Marks p row'.txID r := by
  have hold (h : s.db.ShutsNone (s.next p sdk e).db) :
      ∃ row, s.db.intents.find row'.txID = some row ∧ row.isShut = true := h row' hmem hshut
  cases e with
  | serve i answer commit id =>
      simp only [Exchange.next, Exchange.serve] at hmem
      split at hmem
      · exact Or.inl ⟨row', Table.find_key hmem, hshut⟩
      next task htask =>
      split at hmem
      · exact Or.inl ⟨row', Table.find_key hmem, hshut⟩
      next r rest hprogram =>
      cases commit with
      | false => exact Or.inl ⟨row', Table.find_key hmem, hshut⟩
      | true =>
          refine (s.effect_shut id r (answer r) hmem hshut).imp_right fun hmarks => ?_
          exact ⟨i, answer, id, task, r, rest, rfl, htask, hprogram, hmarks⟩
  | deliver j now acks =>
      exact Or.inl (hold (.of_eq (congrArg Db.intents (s.deliver_frame j now acks).2.1)))
  | expire j => exact Or.inl (hold (.of_eq (congrArg Db.intents (s.expire_frame j).2.1)))
  | settle m txHash =>
      left
      apply hold
      simp only [Exchange.next]
      cases h : s.db.finalizeMatchV2 p.uuid m txHash with
      | error err => exact .of_eq rfl
      | ok applied => exact Db.shutsNone_finalize h
  | fullyMatched marketID txID =>
      exact Or.inl (hold (s.db.shutsNone_modify txID _ fun _ => rfl))
  | _ => exact Or.inl (hold (.of_eq rfl))

/-! ## Orders that do not rest -/

/-- A task has marked the order, and is about to remove it from the book. -/
def Task.Removing (p : Platform) (task : Task) (txID : Uint128) : Prop :=
  ∃ marketId txId rest, task.program = .call (.cancelOrder marketId txId) rest ∧
    p.uuid.parse txId = .ok txID

/-- The order was cancelled or evicted, or its eviction has removed it. -/
def Exchange.Withdrawn (p : Platform) (s : Exchange) (txID : Uint128) : Prop :=
  (∃ row, s.db.intents.find txID = some row ∧ row.isShut = true) ∨
    ∃ task ∈ s.tasks, task.Removed p txID

/-- A removal takes out all that rests of the order, and the CLOB has registered every message of it
that is still on its way. -/
structure Exchange.Reaches (p : Platform) (s : Exchange) (marketId txId : Str) (commit : Bool)
    (txID : Uint128) : Prop where
  rests : ∀ key id, s.clob.Rests key id → p.uuid.parse id = .ok txID →
    commit = true ∧ key = toAsciiLowercase marketId ∧ id = txId
  registered : ∀ txId', s.Outstanding p txID txId' → txId' ∈ s.clob.txIdLut

/-- How a run has to go: a mark that is made is reported, the removal is made after the last message
of its order, a task that is lost between the two leaves nothing behind, and the CLOB restarts when
no message of a withdrawn order is on its way. -/
def Exchange.Orderly (p : Platform) (s : Exchange) : Event → Prop
  | .serve i answer commit _ => ∀ task, s.tasks[i]? = some task →
    (∀ txId rest, task.program = .call (.cancelPredictionIntent txId) rest → commit = true →
      answer (.cancelPredictionIntent txId) = .ok ()) ∧
    ∀ marketId txId txID rest, task.program = .call (.cancelOrder marketId txId) rest →
      p.uuid.parse txId = .ok txID → s.Reaches p marketId txId commit txID
  | .stop i => ∀ task txID, s.tasks[i]? = some task → task.Removing p txID → s.Cleared p txID
  | .restartClob => ∀ txID, s.Withdrawn p txID → ∀ txId, ¬s.Outstanding p txID txId
  | _ => True

theorem Exchange.Posted.outstanding_of_closed (hs : s.Posted p sdk) (hallowed : s.Allowed p e)
    {row : PredictionIntent} (hrow : s.db.intents.find txID = some row)
    (hclosed : row.isClosed = true) (h : (s.next p sdk e).Outstanding p txID txId) :
    s.Outstanding p txID txId := by
  rcases hs.outstanding_from hallowed h with hbefore | hnone | ⟨row', hrow', hopen⟩
  · exact hbefore
  · exact absurd (hnone.symm.trans hrow) (by simp)
  · obtain rfl := Option.some.inj (hrow'.symm.trans hrow)
    exact absurd hclosed (Bool.eq_false_iff.mp (PredictionIntent.isClosed_of_isOpen hopen))

theorem Exchange.Cleared.next (hcleared : s.Cleared p txID) (hs : s.Posted p sdk)
    (htidy : s.clob.Tidy) (hallowed : s.Allowed p e) {row : PredictionIntent}
    (hrow : s.db.intents.find txID = some row) (hclosed : row.isClosed = true)
    (hrestart : e = .restartClob → ∀ txId, ¬s.Outstanding p txID txId) :
    (s.next p sdk e).Cleared p txID := by
  have hturns := s.turns p sdk e
  refine ⟨?_, ?_⟩
  · intro key id hrests hparse
    rcases hturns.rests htidy hrests with hbefore | ⟨order, ⟨m, hm, hopen, hread⟩, hnew, _, rfl⟩
    · exact hcleared.rests key id hbefore hparse
    · have hknown := hcleared.registered order.txId (.sent hm hopen ⟨order, hread, rfl, hparse⟩)
      exact absurd hnew (by simp [OrderBookService.orderExists, hknown])
  · intro txId houtstanding
    have hbefore := hs.outstanding_of_closed hallowed hrow hclosed houtstanding
    refine hturns.registered ?_ (hcleared.registered txId hbefore)
    rintro rfl
    exact hrestart rfl txId hbefore

theorem Exchange.Reaches.next {i : Nat} {answer : (r : OrderRequest) → r.Answer} {commit : Bool}
    {id : Nat} {task : Task} {marketId : Str} {rest : Except String Unit → OrderM Unit}
    (hreaches : s.Reaches p marketId txId commit txID) (hs : s.Posted p sdk)
    (htidy : s.clob.Tidy) (hallowed : s.Allowed p (.serve i answer commit id))
    (htask : s.tasks[i]? = some task)
    (hprogram : task.program = .call (.cancelOrder marketId txId) rest)
    {row : PredictionIntent} (hrow : s.db.intents.find txID = some row)
    (hclosed : row.isClosed = true) :
    (s.next p sdk (.serve i answer commit id)).Cleared p txID := by
  cases commit with
  | false =>
      have hcleared : s.Cleared p txID := by
        refine ⟨fun key id hrests hparse => ?_, hreaches.registered⟩
        exact Bool.false_ne_true (hreaches.rests key id hrests hparse).1
      exact hcleared.next hs htidy hallowed hrow hclosed (by simp)
  | true =>
      have hclob : (s.next p sdk (.serve i answer true id)).clob =
          (s.clob.cancelOrder marketId txId).1 := by
        simp only [Exchange.next, Exchange.serve, htask, hprogram, Exchange.effect, if_true]
      refine ⟨?_, ?_⟩
      · intro key id' hrests hparse
        rw [hclob] at hrests
        obtain ⟨hbefore, hgone⟩ := OrderBookService.rests_cancelOrder hrests
        obtain ⟨_, hkey, hid⟩ := hreaches.rests key id' hbefore hparse
        exact hgone htidy hkey hid
      · intro txId' houtstanding
        have hbefore := hs.outstanding_of_closed hallowed hrow hclosed houtstanding
        exact (s.turns p sdk _).registered (by simp) (hreaches.registered txId' hbefore)

/-! ## What holds in every state -/

variable (p sdk) in
/-- A task stays as it is, unless it is stopped or served. -/
theorem Exchange.task_next (s : Exchange) (e : Event) {task : Task} (h : task ∈ s.tasks) :
    task ∈ (s.next p sdk e).tasks ∨ (∃ i, e = .stop i ∧ s.tasks[i]? = some task) ∨
      ∃ i answer commit id, e = .serve i answer commit id ∧ s.tasks[i]? = some task := by
  obtain ⟨j, hj⟩ := List.getElem?_of_mem h
  cases e with
  | start kind => exact Or.inl (List.mem_append_left _ h)
  | serve i answer commit id =>
      by_cases heq : i = j
      · subst heq
        exact Or.inr (Or.inr ⟨i, answer, commit, id, rfl, hj⟩)
      · left
        simp only [Exchange.next, Exchange.serve]
        split
        · exact h
        split
        · exact h
        · exact List.mem_of_getElem? ((List.getElem?_set_ne heq).trans hj)
  | stop i =>
      by_cases heq : i = j
      · subst heq
        exact Or.inr (Or.inl ⟨i, rfl, hj⟩)
      · exact Or.inl (List.mem_eraseIdx_iff_getElem?.mpr ⟨j, Ne.symm heq, hj⟩)
  | deliver j now acks => exact Or.inl ((s.deliver_frame j now acks).1 ▸ h)
  | expire j => exact Or.inl ((s.expire_frame j).1 ▸ h)
  | _ => exact Or.inl h

theorem Db.find_cancel {db : Db} {k : Uint128} {row : PredictionIntent}
    (h : db.intents.find k = some row) :
    ∃ row', (db.cancelPredictionIntent k).intents.find k = some row' ∧ row'.isClosed = true := by
  have hfind : (db.cancelPredictionIntent k).intents.find k = _ :=
    Table.find_modify_map (fun _ => by rfl) k
  rw [h, Option.map_some, if_pos rfl] at hfind
  refine ⟨_, hfind, ?_⟩
  unfold PredictionIntent.isClosed
  cases row.fullyMatchedAt <;> cases row.evictedAt <;> simp

/-- Orders that are withdrawn do not rest, or a task is about to remove them. -/
structure Exchange.KeepsOff (p : Platform) (sdk : Sdk) (s : Exchange) : Prop where
  posted : s.Posted p sdk
  tidy : s.clob.Tidy
  marked : ∀ task ∈ s.tasks, ∀ marketID txID, task.kind = .evict marketID txID →
    ∃ row, s.db.intents.find txID = some row ∧
      (⟨.cancelPredictionIntent (p.uuid.string txID), .ok ()⟩ ∈ task.answers →
        row.isClosed = true)
  removed : ∀ task ∈ s.tasks, ∀ txID, task.Removed p txID → s.Cleared p txID
  shut : ∀ txID row, s.db.intents.find txID = some row → row.isShut = true →
    (∃ task ∈ s.tasks, task.Removing p txID) ∨ s.Cleared p txID

theorem Exchange.KeepsOff.closed (hs : s.KeepsOff p sdk) {task : Task} (htask : task ∈ s.tasks)
    (h : task.Removed p txID) :
    ∃ row, s.db.intents.find txID = some row ∧ row.isClosed = true := by
  have hmark := hs.posted.path.marked htask h
  obtain ⟨marketID, _, hkind, _⟩ := h
  obtain ⟨row, hrow, hclosed⟩ := hs.marked task htask marketID txID hkind
  exact ⟨row, hrow, hclosed hmark⟩

theorem Exchange.KeepsOff.marked_next (hs : s.KeepsOff p sdk) (hallowed : s.Allowed p e) :
    ∀ task ∈ (s.next p sdk e).tasks, ∀ marketID txID, task.kind = .evict marketID txID →
      ∃ row, (s.next p sdk e).db.intents.find txID = some row ∧
        (⟨.cancelPredictionIntent (p.uuid.string txID), .ok ()⟩ ∈ task.answers →
          row.isClosed = true) := by
  intro task' htask' marketID txID hkind
  have hkeep {task : Task} (htask : task ∈ s.tasks) (hkind : task.kind = .evict marketID txID) :
      ∃ row, (s.next p sdk e).db.intents.find txID = some row ∧
        (⟨.cancelPredictionIntent (p.uuid.string txID), .ok ()⟩ ∈ task.answers →
          row.isClosed = true) := by
    obtain ⟨row, hrow, hclosed⟩ := hs.marked task htask marketID txID hkind
    obtain ⟨row', hrow', hlater⟩ := s.row_next sdk hallowed hrow
    exact ⟨row', hrow', fun hmark => hlater.isClosed (hclosed hmark)⟩
  rcases Exchange.mem_tasks_next htask' with hold | ⟨kind, rfl, rfl⟩ |
    ⟨i, answer, commit, id, task, r, rest, rfl, htask, hprogram, rfl⟩
  · exact hkeep hold hkind
  · subst hkind
    obtain ⟨row, hrow, _⟩ := hallowed
    exact ⟨row, hrow, fun hmark => absurd hmark List.not_mem_nil⟩
  · have hmem := List.mem_of_getElem? htask
    obtain ⟨row', hrow', hclosed⟩ := hkeep hmem hkind
    by_cases hlast : (⟨r, answer r⟩ : (r : OrderRequest) × r.Answer) =
        ⟨.cancelPredictionIntent (p.uuid.string txID), .ok ()⟩
    · rw [Sigma.mk.injEq] at hlast
      obtain ⟨rfl, hanswer⟩ := hlast
      have hhonest := hallowed.2 task _ rest htask hprogram
      rw [eq_of_heq hanswer] at hhonest
      obtain rfl := hhonest.1
      obtain ⟨row, hrow, _⟩ := hs.marked task hmem marketID txID hkind
      obtain ⟨row'', hrow'', hclosed''⟩ := Db.find_cancel hrow
      refine ⟨row'', ?_, fun _ => hclosed''⟩
      simp only [Exchange.next, Exchange.serve, htask, hprogram, Exchange.effect,
        p.uuid.parse_string, if_true]
      exact hrow''
    · refine ⟨row', hrow', fun hmark => ?_⟩
      rcases List.mem_append.mp hmark with hbefore | hnow
      · exact hclosed hbefore
      · exact absurd (List.mem_singleton.mp hnow).symm hlast

theorem Exchange.KeepsOff.removed_next (hs : s.KeepsOff p sdk) (hallowed : s.Allowed p e)
    (horderly : s.Orderly p e) :
    ∀ task ∈ (s.next p sdk e).tasks, ∀ txID, task.Removed p txID →
      (s.next p sdk e).Cleared p txID := by
  intro task' htask' txID hremoved
  have hkeep {task : Task} (htask : task ∈ s.tasks) (h : task.Removed p txID) :
      (s.next p sdk e).Cleared p txID := by
    obtain ⟨row, hrow, hclosed⟩ := hs.closed htask h
    refine (hs.removed task htask txID h).next hs.posted hs.tidy hallowed hrow hclosed ?_
    rintro rfl
    exact horderly txID (Or.inr ⟨task, htask, h⟩)
  have hmarked := (hs.posted.path.next hallowed).marked htask' hremoved
  obtain ⟨marketID, marketId, hkind, hanswer⟩ := hremoved
  rcases Exchange.mem_tasks_next htask' with hold | ⟨kind, rfl, rfl⟩ |
    ⟨i, answer, commit, id, task, r, rest, rfl, htask, hprogram, rfl⟩
  · exact hkeep hold ⟨marketID, marketId, hkind, hanswer⟩
  · exact absurd hanswer List.not_mem_nil
  · have hmem := List.mem_of_getElem? htask
    rcases List.mem_append.mp hanswer with hbefore | hnow
    · exact hkeep hmem ⟨marketID, marketId, hkind, hbefore⟩
    · -- this is the removal
      have heq := List.mem_singleton.mp hnow
      rw [Sigma.mk.injEq] at heq
      obtain ⟨rfl, _⟩ := heq
      have hreaches := (horderly task htask).2 _ _ txID rest hprogram (p.uuid.parse_string txID)
      have hbefore : ⟨.cancelPredictionIntent (p.uuid.string txID), .ok ()⟩ ∈ task.answers := by
        rcases List.mem_append.mp hmarked with hbefore | hlast
        · exact hbefore
        · exact absurd (List.mem_singleton.mp hlast) (by simp)
      obtain ⟨row, hrow, hclosed⟩ := hs.marked task hmem marketID txID hkind
      exact hreaches.next hs.posted hs.tidy hallowed htask hprogram hrow (hclosed hbefore)

theorem Exchange.KeepsOff.shut_next (hs : s.KeepsOff p sdk) (hallowed : s.Allowed p e)
    (horderly : s.Orderly p e) :
    ∀ txID row, (s.next p sdk e).db.intents.find txID = some row → row.isShut = true →
      (∃ task ∈ (s.next p sdk e).tasks, task.Removing p txID) ∨
        (s.next p sdk e).Cleared p txID := by
  intro txID row' hrow' hshut
  obtain ⟨hmem, rfl⟩ := Table.find_eq_some.mp hrow'
  rcases s.shut_from p sdk e hmem hshut with ⟨row, hrow, hbefore⟩ |
    ⟨i, answer, id, task, r, rest, rfl, htask, hprogram, hmarks⟩
  · have hclosed := PredictionIntent.isClosed_of_isShut hbefore
    rcases hs.shut _ row hrow hbefore with ⟨task, htask, hremoving⟩ | hcleared
    · rcases s.task_next p sdk e htask with hstays | ⟨i, rfl, hi⟩ |
        ⟨i, answer, commit, id, rfl, hi⟩
      · exact Or.inl ⟨task, hstays, hremoving⟩
      · have hcleared := horderly task _ hi hremoving
        exact Or.inr (hcleared.next hs.posted hs.tidy hallowed hrow hclosed (by simp))
      · obtain ⟨marketId, txId, rest, hprogram, hparse⟩ := hremoving
        have hreaches := (horderly task hi).2 marketId txId _ rest hprogram hparse
        exact Or.inr (hreaches.next hs.posted hs.tidy hallowed hi hprogram hrow hclosed)
    · refine Or.inr (hcleared.next hs.posted hs.tidy hallowed hrow hclosed ?_)
      rintro rfl
      exact horderly _ (Or.inl ⟨row, hrow, hbefore⟩)
  · have htask' := List.mem_of_getElem? htask
    cases r with
    | cancelPredictionIntent txId =>
        left
        have hanswer := (horderly task htask).1 txId rest hprogram rfl
        obtain ⟨marketId, rest', hnext⟩ := hs.posted.path.mark htask' hprogram
        rw [← hanswer] at hnext
        refine ⟨⟨task.kind, rest (answer (.cancelPredictionIntent txId)),
          task.answers ++ [⟨_, answer (.cancelPredictionIntent txId)⟩]⟩, ?_,
          marketId, txId, rest', hnext, hmarks⟩
        simp only [Exchange.next, Exchange.serve, htask, hprogram]
        exact List.mem_set (List.getElem?_eq_some_iff.mp htask).1 _
    | markPredictionIntentAsEvicted txID =>
        right
        obtain rfl : txID = row'.txID := hmarks
        have hremoved := hs.posted.path.evict htask' hprogram
        obtain ⟨row, hrow, hclosed⟩ := hs.closed htask' hremoved
        exact (hs.removed task htask' _ hremoved).next hs.posted hs.tidy hallowed hrow hclosed
          (by simp)
    | _ => exact absurd hmarks not_false

theorem Exchange.KeepsOff.next (hs : s.KeepsOff p sdk) (hallowed : s.Allowed p e)
    (horderly : s.Orderly p e) : (s.next p sdk e).KeepsOff p sdk where
  posted := hs.posted.next hallowed
  tidy := (s.turns p sdk e).tidy hs.tidy
  marked := hs.marked_next hallowed
  removed := hs.removed_next hallowed horderly
  shut := hs.shut_next hallowed horderly

theorem Exchange.Fresh.keepsOff (h : s.Fresh) (htidy : s.clob.Tidy) : s.KeepsOff p sdk where
  posted := h.posted
  tidy := htidy
  marked _ htask := absurd (h.tasks ▸ htask) List.not_mem_nil
  removed _ htask := absurd (h.tasks ▸ htask) List.not_mem_nil
  shut _ _ hrow := absurd (h.intents ▸ (Table.find_eq_some.mp hrow).1) List.not_mem_nil

/-- No delivery makes a fill of an order that does not rest and is not on its way. -/
theorem Exchange.Cleared.unmatched (h : s.Cleared p txID) (j now : Nat) (acks : Bool) :
    ∃ fills, (s.deliver j now acks).fills = s.fills ++ fills ∧
      ∀ m ∈ fills, ∀ id, m.involves id = true → p.uuid.parse id ≠ .ok txID := by
  have hnone {s' : Exchange} (hsame : s'.fills = s.fills) : ∃ fills, s'.fills = s.fills ++ fills ∧
      ∀ m ∈ fills, ∀ id, m.involves id = true → p.uuid.parse id ≠ .ok txID :=
    ⟨[], hsame.trans (List.append_nil _).symm, fun m hm => absurd hm List.not_mem_nil⟩
  unfold Exchange.deliver
  split
  · exact hnone rfl
  next m hm =>
  split
  · exact hnone rfl
  next hopen =>
  dsimp only
  split
  · exact hnone rfl
  next order hread =>
  split
  · exact hnone rfl
  next hnew =>
  split
  · exact hnone rfl
  · refine ⟨_, rfl, ?_⟩
    intro fill hfill id hinvolves hparse
    rcases (s.clob.placeOrder_rests order now).2.2 fill hfill id hinvolves with rfl | ⟨key, hrests⟩
    · have hundone : m.done = false := Bool.eq_false_iff.mpr fun h => hopen (Or.inl h)
      have hknown := h.registered order.txId
        (.sent (List.mem_of_getElem? hm) hundone ⟨order, hread, rfl, hparse⟩)
      exact absurd (List.contains_iff_mem.mpr hknown) hnew
    · exact h.rests key id hrests hparse

/-- In an orderly run a cancelled or evicted order that no task is about to remove does not rest,
and no delivery brings it back or fills it. -/
theorem cancelled_orders_stay_off {start : Exchange} (hstart : start.Fresh)
    (htidy : start.clob.Tidy) {events : List Event}
    (hruns : (exchange p sdk).Runs (Exchange.Orderly p) start events) :
    ∀ row ∈ ((exchange p sdk).run start events).db.intents.rows, row.isShut = true →
      (∀ task ∈ ((exchange p sdk).run start events).tasks, ¬task.Removing p row.txID) →
      ((exchange p sdk).run start events).Cleared p row.txID ∧
        ∀ j now acks, ∃ fills,
          (((exchange p sdk).run start events).deliver j now acks).fills =
            ((exchange p sdk).run start events).fills ++ fills ∧
          ∀ m ∈ fills, ∀ id, m.involves id = true → p.uuid.parse id ≠ .ok row.txID := by
  have hkeeps : ((exchange p sdk).run start events).KeepsOff p sdk :=
    hruns.preserves (fun _ _ hs hallowed horderly => hs.next hallowed horderly)
      (hstart.keepsOff htidy)
  intro row hrow hshut hquiet
  have hcleared : ((exchange p sdk).run start events).Cleared p row.txID := by
    rcases hkeeps.shut _ row (Table.find_key hrow) hshut with ⟨task, htask, hremoving⟩ | hcleared
    · exact absurd hremoving (hquiet task htask)
    · exact hcleared
  exact ⟨hcleared, hcleared.unmatched⟩

/-! ## Runs of tasks in turn -/

variable (p sdk) in
def Exchange.perform (s : Exchange) (kind : TaskKind) (count : Nat) : List Event :=
  .start kind :: Exchange.replies p sdk s.tasks.length count (s.next p sdk (.start kind))

/-- What rests came by a message of the stream. -/
structure Exchange.Stocked (s : Exchange) : Prop where
  tidy : s.clob.Tidy
  sent : ∀ key id, s.clob.Rests key id → ∃ m ∈ s.stream, ∃ order,
    readOrder m.payload = some order ∧ key = toAsciiLowercase order.marketId ∧ id = order.txId

variable (sdk) in
theorem Exchange.stream_to (hallowed : s.Allowed p e) {m : StreamMessage} (hm : m ∈ s.stream) :
    ∃ m' ∈ (s.next p sdk e).stream, m'.payload = m.payload := by
  cases Exchange.posts sdk hallowed with
  | quiet rows outbox acknowledged stream =>
      have hsent : m.sent ∈ (s.next p sdk e).stream.map (·.sent) :=
        stream ▸ List.mem_map_of_mem hm
      obtain ⟨m', hm', heq⟩ := List.mem_map.mp hsent
      have hpayload : m'.sent.payload = m.sent.payload := congrArg StreamMessage.payload heq
      exact ⟨m', hm', hpayload⟩
  | published mem request rows outbox acknowledged stream =>
      rw [stream]
      unfold Exchange.publish
      split
      · exact ⟨m, hm, rfl⟩
      · exact ⟨m, List.mem_append_left _ hm, rfl⟩
  | committed commits request rows outbox acknowledged stream => exact ⟨m, stream ▸ hm, rfl⟩
  | failed rows outbox acknowledged stream => exact ⟨m, stream ▸ hm, rfl⟩
  | delivered mem request rows outbox acknowledged stream => exact ⟨m, stream ▸ hm, rfl⟩

variable (sdk) in
theorem Exchange.Stocked.next (hs : s.Stocked) (hallowed : s.Allowed p e) :
    (s.next p sdk e).Stocked := by
  have hturns := s.turns p sdk e
  refine ⟨hturns.tidy hs.tidy, ?_⟩
  intro key id hrests
  have hmessage : ∃ m ∈ s.stream, ∃ order, readOrder m.payload = some order ∧
      key = toAsciiLowercase order.marketId ∧ id = order.txId := by
    rcases hturns.rests hs.tidy hrests with hbefore | ⟨order, ⟨m, hm, _, hread⟩, _, hplaced⟩
    · exact hs.sent key id hbefore
    · exact ⟨m, hm, order, hread, hplaced⟩
  obtain ⟨m, hm, order, hread, hplaced⟩ := hmessage
  obtain ⟨m', hm', hpayload⟩ := Exchange.stream_to sdk hallowed hm
  exact ⟨m', hm', order, hpayload ▸ hread, hplaced⟩

def OrderRequest.readsOrders : OrderRequest → Bool
  | .pendingOrderOutbox _ => true
  | .getAllOpenPredictionIntentsByMarketId _ => true
  | _ => false

/-- The task has ended, or it has read no orders that it could publish. -/
def Task.isIdle (task : Task) : Bool :=
  task.program.asks.isNone || task.answers.all fun answered => !answered.1.readsOrders

theorem Task.not_holds {task : Task} (h : task.isIdle = true) : ¬task.Holds p txID txId := by
  intro hholds
  rcases Bool.or_eq_true_iff.mp h with hended | hread
  · apply hholds.publishes
    cases hprogram : task.program with
    | ret value => trivial
    | call r rest =>
        rw [hprogram] at hended
        exact absurd hended Bool.false_ne_true
  · rw [List.all_eq_true] at hread
    rcases hholds.read with ⟨_, _, _, hmem, _⟩ | ⟨_, _, _, hmem, _⟩
    · exact absurd (hread _ hmem) Bool.false_ne_true
    · exact absurd (hread _ hmem) Bool.false_ne_true

/-- What is on its way is in the stream, and the CLOB has registered it. -/
def Exchange.isQuiet (s : Exchange) : Bool :=
  (s.stream.all fun m => m.done || (readOrder m.payload).all (s.clob.orderExists ·.txId)) &&
    s.outbox.rows.all (·.deliveredAt) && s.tasks.all (·.isIdle)

theorem Exchange.registered_of_isQuiet (h : s.isQuiet = true) (hout : s.Outstanding p txID txId) :
    txId ∈ s.clob.txIdLut := by
  simp only [Exchange.isQuiet, Bool.and_eq_true, List.all_eq_true] at h
  obtain ⟨⟨hstream, houtbox⟩, htasks⟩ := h
  cases hout with
  | sent mem done carries =>
      obtain ⟨order, hread, rfl, _⟩ := carries
      have hknown := hstream _ mem
      rw [done, Bool.false_or, hread] at hknown
      exact List.contains_iff_mem.mp hknown
  | pending mem delivered _ =>
      exact absurd (houtbox _ mem) (Bool.eq_false_iff.mp delivered)
  | held mem holds => exact absurd holds (Task.not_holds (htasks _ mem))

def Exchange.isAbout (s : Exchange) (marketId txId : Str) : Bool :=
  s.stream.all fun m => (readOrder m.payload).all fun order =>
    decide (order.marketId = marketId ∧ order.txId = txId)

def Exchange.isOrderly (p : Platform) (i : Nat) (s : Exchange) : Bool :=
  match s.tasks[i]?.bind (·.program.asks) with
  | some (.cancelPredictionIntent txId) => (p.uuid.parse txId).isOk
  | some (.cancelOrder marketId txId) => s.isQuiet && s.isAbout marketId txId
  | _ => true

theorem Exchange.orderly_promptly {i : Nat} (hs : s.Stocked) (h : s.isOrderly p i = true) :
    s.Orderly p (s.promptly p i) := by
  intro task htask
  refine ⟨?_, ?_⟩
  · intro txId rest hprogram _
    simp only [Exchange.isOrderly, htask, hprogram, Option.bind_some, Program.asks] at h
    show (p.uuid.parse txId).map (fun _ => ()) = .ok ()
    cases hparse : p.uuid.parse txId with
    | error err =>
        rw [hparse] at h
        exact absurd h Bool.false_ne_true
    | ok txID => rfl
  · intro marketId txId txID rest hprogram _
    simp only [Exchange.isOrderly, htask, hprogram, Option.bind_some, Program.asks,
      Bool.and_eq_true] at h
    refine ⟨?_, fun txId' => Exchange.registered_of_isQuiet h.1⟩
    intro key id hrests _
    obtain ⟨m, hm, order, hread, rfl, rfl⟩ := hs.sent key id hrests
    have habout := List.all_eq_true.mp h.2 m hm
    rw [hread] at habout
    obtain ⟨rfl, rfl⟩ := of_decide_eq_true habout
    exact ⟨rfl, rfl, rfl⟩

variable (sdk) in
theorem Exchange.runs_orderly {i count : Nat} (hs : s.Stocked)
    (h : Exchange.allAlong p sdk (Exchange.isOrderly p i) i count s = true) :
    (exchange p sdk).Runs (Exchange.Orderly p) s (Exchange.replies p sdk i count s) := by
  induction count generalizing s with
  | zero => trivial
  | succ count ih =>
      rw [Exchange.allAlong, Bool.and_eq_true] at h
      have hallowed := s.promptly_allowed p i
      exact ⟨hallowed, Exchange.orderly_promptly hs h.1, ih (hs.next sdk hallowed) h.2⟩

theorem Exchange.runs_perform {kind : TaskKind} {count : Nat} {parts : List (Exchange → List Event)}
    (hs : s.Stocked) (hallowed : s.Allowed p (.start kind))
    (h : Exchange.allAlong p sdk (Exchange.isOrderly p s.tasks.length) s.tasks.length count
      (s.next p sdk (.start kind)) = true)
    (hrest : ∀ s', s' = (exchange p sdk).run s (s.perform p sdk kind count) → s'.Stocked →
      (exchange p sdk).Runs (Exchange.Orderly p) s' ((exchange p sdk).script parts s')) :
    (exchange p sdk).Runs (Exchange.Orderly p) s
      ((exchange p sdk).script ((·.perform p sdk kind count) :: parts) s) := by
  have hruns : (exchange p sdk).Runs (Exchange.Orderly p) s (s.perform p sdk kind count) :=
    ⟨hallowed, trivial, Exchange.runs_orderly sdk (hs.next sdk hallowed) h⟩
  have hstocked := hruns.preserves (fun _ _ hs hallowed _ => hs.next sdk hallowed) hs
  exact System.runs_script_cons.mpr ⟨hruns, hrest _ rfl hstocked⟩

end Steps

/-! ## One order, cancelled in time or too early -/

def sampleCancel : CancelOrderRequest where
  net := sampleSell.net
  marketId := sampleSell.marketId
  txId := sampleSell.txId
  accountId := sampleSell.accountId
  sig := sampleSell.sig
  publicKey := ['k']
  keyType := keyTypeEd25519

/-- The SELL reaches the book, but the acknowledgement of its message is lost. It is cancelled, and
its message is delivered once more. -/
def cancelledInTime : List Event :=
  (exchange samplePlatform sampleSdk).script
    [(·.perform samplePlatform sampleSdk .recreate 3),
      (·.perform samplePlatform sampleSdk (.create sampleSell) 10),
      (·.perform samplePlatform sampleSdk .sweep 3),
      fun _ => [.deliver 0 0 false],
      (·.perform samplePlatform sampleSdk (.cancel sampleCancel) 4),
      fun _ => [.deliver 0 0 true]] sampleExchange

/-- The SELL is cancelled before its message is published, and a second cancellation is refused. -/
def cancelledTooEarly : List Event :=
  (exchange samplePlatform sampleSdk).script
    [(·.perform samplePlatform sampleSdk .recreate 3),
      (·.perform samplePlatform sampleSdk (.create sampleSell) 10),
      (·.perform samplePlatform sampleSdk (.cancel sampleCancel) 4),
      (·.perform samplePlatform sampleSdk .sweep 3),
      fun _ => [.deliver 0 0 true],
      (·.perform samplePlatform sampleSdk (.cancel sampleCancel) 2)] sampleExchange

theorem sampleExchange_stocked : sampleExchange.Stocked := by
  refine ⟨OrderBookService.tidy_new, ?_⟩
  rintro key id ⟨book, hbook, _⟩
  exact absurd hbook (by simp [sampleExchange, OrderBookService.new])

theorem cancelledInTime_runs : (exchange samplePlatform sampleSdk).Runs
    (Exchange.Orderly samplePlatform) sampleExchange cancelledInTime := by
  refine Exchange.runs_perform sampleExchange_stocked trivial (by decide +kernel) ?_
  intro rebuilt hrebuilt hs
  have hallowed := sampleSell_allowed rebuilt (show sampleSell ∈ _ by simp)
  refine Exchange.runs_perform hs hallowed (by rw [hrebuilt]; decide +kernel) ?_
  intro created hcreated hs
  refine Exchange.runs_perform hs trivial (by rw [hcreated, hrebuilt]; decide +kernel) ?_
  intro swept hswept hs
  refine System.runs_script_cons.mpr ⟨⟨trivial, trivial, trivial⟩, ?_⟩
  have hplaced : (swept.next samplePlatform sampleSdk (.deliver 0 0 false)).Stocked :=
    hs.next sampleSdk trivial
  refine Exchange.runs_perform hplaced trivial
    (by rw [hswept, hcreated, hrebuilt]; decide +kernel) ?_
  intro cancelled _ _
  exact ⟨trivial, trivial, trivial⟩

theorem Exchange.not_removing {p : Platform} {s : Exchange}
    (h : s.tasks.all (·.program.asks.isNone) = true) (txID : Uint128) :
    ∀ task ∈ s.tasks, ¬task.Removing p txID := by
  rintro task htask ⟨_, _, _, hprogram, _⟩
  have hended := List.all_eq_true.mp h task htask
  rw [hprogram] at hended
  exact absurd hended Bool.false_ne_true

theorem cancelled_orders_stay_off_in_time :
    ((exchange samplePlatform sampleSdk).run sampleExchange cancelledInTime).db.intents.rows.map
        (·.isShut) = [true] ∧
      ∀ row ∈ ((exchange samplePlatform sampleSdk).run sampleExchange
          cancelledInTime).db.intents.rows,
        ((exchange samplePlatform sampleSdk).run sampleExchange cancelledInTime).Cleared
          samplePlatform row.txID := by
  have hfresh : sampleExchange.Fresh := ⟨rfl, rfl, rfl, rfl⟩
  have hoff := cancelled_orders_stay_off hfresh OrderBookService.tidy_new cancelledInTime_runs
  have hended : ((exchange samplePlatform sampleSdk).run sampleExchange cancelledInTime).tasks.all
      (·.program.asks.isNone) = true := by decide +kernel
  have hmarks : ((exchange samplePlatform sampleSdk).run sampleExchange
      cancelledInTime).db.intents.rows.map (·.isShut) = [true] := by decide +kernel
  generalize (exchange samplePlatform sampleSdk).run sampleExchange cancelledInTime = s at *
  refine ⟨hmarks, fun row hrow => ?_⟩
  have hshut : row.isShut = true := by
    have hmark : row.isShut ∈ s.db.intents.rows.map (·.isShut) := List.mem_map_of_mem hrow
    rw [hmarks] at hmark
    exact List.mem_singleton.mp hmark
  exact (hoff row hrow hshut (Exchange.not_removing hended row.txID)).1

/-- Some row is shut, and an order of its id rests in the book of the market. -/
def Exchange.restsShut (p : Platform) (marketId : Str) (s : Exchange) : Bool :=
  s.db.intents.rows.any fun row => row.isShut && (s.clob.bookOf marketId).any fun book =>
    book.txIds.any fun id => decide ((p.uuid.parse id).toOption = some row.txID)

theorem Exchange.rests_of_restsShut {p : Platform} {marketId : Str} {s : Exchange}
    (h : s.restsShut p marketId = true) :
    ∃ row ∈ s.db.intents.rows, row.isShut = true ∧ ∃ key id, s.clob.Rests key id ∧
      p.uuid.parse id = .ok row.txID := by
  obtain ⟨row, hrow, htest⟩ := List.any_eq_true.mp h
  obtain ⟨hshut, hbook⟩ := Bool.and_eq_true_iff.mp htest
  obtain ⟨book, hfound, hids⟩ := (Option.any_eq_true _ _).mp hbook
  obtain ⟨id, hid, hparse⟩ := List.any_eq_true.mp hids
  exact ⟨row, hrow, hshut, _, id, ⟨book, hfound, hid⟩,
    toOption_eq_some_iff.mp (of_decide_eq_true hparse)⟩

theorem cancelledTooEarly_runs : (exchange samplePlatform sampleSdk).Runs (fun _ _ => True)
    sampleExchange cancelledTooEarly := by
  have hperform {s : Exchange} {kind : TaskKind} {count : Nat}
      (hallowed : s.Allowed samplePlatform (.start kind)) :
      (exchange samplePlatform sampleSdk).Runs (fun _ _ => True) s
        (s.perform samplePlatform sampleSdk kind count) :=
    ⟨hallowed, trivial, Exchange.runs_replies_any _ _ _ _ _⟩
  refine System.runs_script_cons.mpr ⟨hperform trivial, ?_⟩
  refine System.runs_script_cons.mpr ⟨hperform (sampleSell_allowed _ (by simp)), ?_⟩
  refine System.runs_script_cons.mpr ⟨hperform trivial, ?_⟩
  refine System.runs_script_cons.mpr ⟨hperform trivial, ?_⟩
  refine System.runs_script_cons.mpr ⟨⟨trivial, trivial, trivial⟩, ?_⟩
  exact System.runs_script_cons.mpr ⟨hperform trivial, trivial⟩

/-- Every message is delivered, every task has ended, a second cancellation was refused, and the
cancelled order rests. -/
theorem cancelled_order_rests :
    sampleExchange.Fresh ∧ sampleExchange.clob.Tidy ∧
      (exchange samplePlatform sampleSdk).Runs (fun _ _ => True) sampleExchange
        cancelledTooEarly ∧
      let s := (exchange samplePlatform sampleSdk).run sampleExchange cancelledTooEarly
      s.tasks.all (·.program.asks.isNone) = true ∧ s.stream.all (·.done) = true ∧
        s.outbox.rows.all (·.deliveredAt) = true ∧
        ∃ row ∈ s.db.intents.rows, row.isShut = true ∧ ∃ key id, s.clob.Rests key id ∧
          samplePlatform.uuid.parse id = .ok row.txID := by
  have hrests : ((exchange samplePlatform sampleSdk).run sampleExchange
      cancelledTooEarly).restsShut samplePlatform sampleSell.marketId = true := by
    decide +kernel
  exact ⟨⟨rfl, rfl, rfl, rfl⟩, OrderBookService.tidy_new, cancelledTooEarly_runs,
    by decide +kernel, by decide +kernel, by decide +kernel, Exchange.rests_of_restsShut hrests⟩

end PrismBackend.Api
