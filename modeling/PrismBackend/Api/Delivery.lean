import PrismBackend.Api.Outbox
import PrismBackend.Api.SellAdmission

/-!
# API: every order is announced to the CLOB

In every state that the system reaches, a message is about an order that is
committed and denotes it, and an order that the stream has not acknowledged has a
row in the outbox that a later sweep publishes.
-/

namespace PrismBackend.Api

open PrismBackend.Lib PrismBackend.Clob PrismBackend.PrismV2

/-- A message announces an order that is committed: the CLOB reads the order of the row. The
messages of the rebuild have no id. -/
structure Exchange.Announces (p : Platform) (s : Exchange) (subject : Str) (payload : Fields)
    (messageID : Str) (row : PredictionIntent) : Prop where
  committed : s.db.intents.find row.txID = some row
  subject_eq : subject = subjectClobOrders
  messageID_eq : messageID = [] ∨ messageID = p.uuid.string row.txID
  order : ∃ o, readOrder payload = some o ∧ Denotes p.uuid o row.toOrderTerms

/-- A message that was stored later than another one of its id: the window was over. -/
def Spaced (m m' : StreamMessage) : Prop :=
  m.messageID ≠ [] → m'.messageID = m.messageID → m.storedAt + duplicateWindow ≤ m'.storedAt

/-- The publication of a message was acknowledged, and the stream has the message. -/
def Exchange.Taken (s : Exchange) (messageID : Str) : Prop :=
  messageID ∈ s.acknowledged ∧ messageID ∈ s.stream.map (·.messageID)

structure Exchange.Posted (p : Platform) (sdk : Sdk) (s : Exchange) : Prop where
  path : s.OnPath p sdk
  accepted : s.AllAccepted p
  rows : ∀ r ∈ s.outbox.rows, ∃ row, row.txID = r.txID ∧
    s.Announces p r.subject r.payload (p.uuid.string r.txID) row
  kept : ∀ row ∈ s.db.intents.rows, ∃ r ∈ s.outbox.rows, r.txID = row.txID
  delivered : ∀ r ∈ s.outbox.rows, r.deliveredAt = true → s.Taken (p.uuid.string r.txID)
  due : ∀ r ∈ s.outbox.rows, r.nextAttemptAt ≤ s.clock + maxBackoff
  stream : ∀ m ∈ s.stream, ∃ row, s.Announces p m.subject m.payload m.messageID row
  spaced : s.stream.Pairwise Spaced
  polled : ∀ task ∈ s.tasks, ∀ limit records,
    ⟨.pendingOrderOutbox limit, .ok records⟩ ∈ task.answers →
      ∀ record ∈ records, ∃ r ∈ s.outbox.rows, record.Same r
  acknowledged : ∀ task ∈ s.tasks, ∀ subject payload messageID,
    ⟨.publishWithID subject payload messageID, .ok ()⟩ ∈ task.answers → s.Taken messageID
  reopened : ∀ task ∈ s.tasks, ∀ marketId rows,
    ⟨.getAllOpenPredictionIntentsByMarketId marketId, .ok rows⟩ ∈ task.answers →
      ∀ read ∈ rows, Accepted p read ∧
        ∃ row, s.db.intents.find read.txID = some row ∧ read.Later row

section Posted

variable {p : Platform} {sdk : Sdk} {s : Exchange} {e : Event}

theorem Exchange.published_stored (s : Exchange) (subject : Str) (payload : Fields)
    (messageID : Str) :
    messageID ∈ (s.publish p subject payload messageID).stream.map (·.messageID) := by
  unfold Exchange.publish
  split
  · next hknown =>
    have hstored := p.jetStream.stored hknown
    rwa [List.map_map] at hstored
  · rw [List.map_append]
    exact List.mem_append_right _ (List.mem_singleton_self _)

theorem Exchange.Posts.taken_to {s' : Exchange} (h : s.Posts p e s') {messageID : Str}
    (htaken : s.Taken messageID) : s'.Taken messageID := by
  refine ⟨h.acknowledged_to htaken.1, ?_⟩
  cases h with
  | quiet rows outbox acknowledged stream =>
      have hids := congrArg (List.map fun m : StreamMessage => m.messageID) stream
      rw [List.map_map, List.map_map] at hids
      exact hids ▸ htaken.2
  | published mem request rows outbox acknowledged stream =>
      rw [stream]
      unfold Exchange.publish
      split
      · exact htaken.2
      · rw [List.map_append]
        exact List.mem_append_left _ htaken.2
  | committed commits request rows outbox acknowledged stream => exact stream ▸ htaken.2
  | failed rows outbox acknowledged stream => exact stream ▸ htaken.2
  | delivered mem request rows outbox acknowledged stream => exact stream ▸ htaken.2

variable (sdk) in
theorem Exchange.Announces.next {subject messageID : Str} {payload : Fields}
    {row : PredictionIntent} (h : s.Announces p subject payload messageID row)
    (hallowed : s.Allowed p e) :
    ∃ row', row'.txID = row.txID ∧
      (s.next p sdk e).Announces p subject payload messageID row' := by
  obtain ⟨row', hrow', hlater⟩ := s.row_next sdk hallowed h.committed
  obtain ⟨o, hread, hdenotes⟩ := h.order
  have hkey : row'.txID = row.txID := by rw [hlater.terms]
  refine ⟨row', hkey, hkey ▸ hrow', h.subject_eq, hkey ▸ h.messageID_eq, o, hread, ?_⟩
  rw [hlater.terms]
  exact hdenotes

theorem Exchange.Posted.publishes (hs : s.Posted p sdk) {task : Task} (htask : task ∈ s.tasks)
    {subject messageID : Str} {payload : Fields} {rest : Except String Unit → OrderM Unit}
    (hprogram : task.program = .call (.publishWithID subject payload messageID) rest) :
    ∃ row, s.Announces p subject payload messageID row := by
  rcases hs.path.publishes htask hprogram with
    ⟨records, hanswer, record, hmem, rfl, rfl, rfl⟩ | ⟨marketId, rows, hanswer, hrepublishes⟩
  · obtain ⟨r, hr, hsame⟩ := hs.polled task htask _ _ hanswer record hmem
    obtain ⟨row, _, hannounces⟩ := hs.rows r hr
    rw [hsame.subject, hsame.payload, hsame.txID] at hannounces
    exact ⟨row, hannounces⟩
  · obtain ⟨rfl, rfl, read, hmem, order, horder, matches_, rfl⟩ := hrepublishes
    obtain ⟨haccepted, row, hrow, hlater⟩ := hs.reopened task htask _ _ hanswer read hmem
    obtain ⟨hdenotes, htyped⟩ := Denotes.withUnsettledFills (haccepted.denotes horder) matches_
    have hkey : row.txID = read.txID := by rw [hlater.terms]
    refine ⟨row, hkey ▸ hrow, rfl, Or.inl rfl, _, readOrder_marshalOrder htyped, ?_⟩
    rw [hlater.terms]
    exact hdenotes

theorem Exchange.Posted.commits (hs : s.Posted p sdk) {task : Task}
    {req : PrismPredictionIntentRequest} {terms : OrderTerms} {subject : Str} {payload : Fields}
    (hcommits : s.Commits p e task req terms)
    (hrequest : ∃ rest,
      task.program = .call (.createOrderIntentRequestWithOutbox req subject payload) rest) :
    (s.next p sdk e).Announces p subject payload.stored (p.uuid.string terms.txID)
    (.new terms) := by
  obtain ⟨rest, hprogram⟩ := hrequest
  obtain ⟨req', c, hcreates⟩ := hs.path.create hcommits.mem hprogram trivial
  cases hcreates.request
  refine ⟨?_, rfl, Or.inr rfl, _, readOrder_stored (typedOrder_clobRequest hcreates.typed), ?_⟩
  · have hnew : s.db.intents.find (PredictionIntent.new terms).txID = none := hcommits.new
    rw [hcommits.next_db sdk]
    exact Table.find_insert_self hnew
  · exact denotes_clobRequest hcommits.created

theorem Exchange.Posted.rows_next (hs : s.Posted p sdk) (hallowed : s.Allowed p e) :
    ∀ r ∈ (s.next p sdk e).outbox.rows, ∃ row, row.txID = r.txID ∧
      (s.next p sdk e).Announces p r.subject r.payload (p.uuid.string r.txID) row := by
  intro r' hr'
  rcases (Exchange.posts sdk hallowed).outbox_from hr' with
    ⟨r, hr, hsame, _⟩ | ⟨task, req, terms, subject, payload, id, hcommits, hrequest, rfl⟩
  · obtain ⟨row, hkey, hannounces⟩ := hs.rows r hr
    obtain ⟨row', hkey', hannounces'⟩ := hannounces.next sdk hallowed
    rw [hsame.txID, hsame.subject, hsame.payload]
    exact ⟨row', hkey'.trans hkey, hannounces'⟩
  · exact ⟨.new terms, rfl, hs.commits hcommits hrequest⟩

theorem Exchange.Posted.kept_next (hs : s.Posted p sdk) (hallowed : s.Allowed p e) :
    ∀ row ∈ (s.next p sdk e).db.intents.rows, ∃ r ∈ (s.next p sdk e).outbox.rows,
      r.txID = row.txID := by
  intro row hrow
  have hposts := Exchange.posts sdk hallowed
  have hold (k : Uint128) (h : (s.db.intents.find k).isSome = true) :
      ∃ r ∈ (s.next p sdk e).outbox.rows, r.txID = k := by
    obtain ⟨before, hbefore⟩ := Option.isSome_iff_exists.mp h
    obtain ⟨hmem, rfl⟩ := Table.find_eq_some.mp hbefore
    obtain ⟨r, hr, hkey⟩ := hs.kept before hmem
    obtain ⟨r', hr', hsame⟩ := hposts.outbox_to hr
    exact ⟨r', hr', hsame.txID.trans hkey⟩
  have honward (h : s.db.Onward (s.next p sdk e).db) :
    (s.db.intents.find row.txID).isSome = true := by
    cases hfind : s.db.intents.find row.txID with
    | some before => rfl
    | none =>
        have hnone := h.none _ hfind
        rw [Table.find_key hrow] at hnone
        exact absurd hnone (by simp)
  cases hposts with
  | quiet rows => exact hold _ (honward rows)
  | published mem request rows => exact hold _ (honward (rows ▸ Db.Onward.refl _))
  | failed rows => exact hold _ (honward (rows ▸ Db.Onward.refl _))
  | delivered mem request rows => exact hold _ (honward (rows ▸ Db.Onward.refl _))
  | committed commits request rows outbox =>
      rw [rows] at hrow
      rcases Table.mem_of_mem_insert hrow with hthere | rfl
      · exact hold _ (by rw [Table.find_key hthere]; rfl)
      · rcases outbox with ⟨⟨r, hr, hkey, _⟩, hsame⟩ | ⟨hid, hinsert⟩
        · exact ⟨r, hsame ▸ hr, hkey⟩
        · rw [hinsert, Table.rows_insert (Table.find_eq_none.mpr hid)]
          exact ⟨_, List.mem_append_right _ List.mem_cons_self, rfl⟩

theorem Exchange.Posted.delivered_next (hs : s.Posted p sdk) (hallowed : s.Allowed p e) :
    ∀ r ∈ (s.next p sdk e).outbox.rows, r.deliveredAt = true →
      (s.next p sdk e).Taken (p.uuid.string r.txID) := by
  intro r' hr' hmark
  have hposts := Exchange.posts sdk hallowed
  rcases hposts.outbox_from hr' with
    ⟨r, hr, hsame, _, hmarked, _⟩ | ⟨_, _, _, _, _, _, _, _, rfl⟩
  · rw [hsame.txID]
    apply hposts.taken_to
    rcases hmarked hmark with hbefore | ⟨task, htask, rest, hprogram⟩
    · exact hs.delivered r hr hbefore
    · obtain ⟨records, hanswer, record, hmem, hid, hpublished⟩ := hs.path.marks htask hprogram
      obtain ⟨r'', hr'', hrecord⟩ := hs.polled task htask _ _ hanswer record hmem
      have heq : r'' = r := Table.eq_of_key hr'' hr (hrecord.id.trans hid)
      rw [← heq, hrecord.txID]
      exact hs.acknowledged task htask _ _ _ hpublished
  · exact absurd hmark Bool.false_ne_true

theorem Exchange.clock_effect (s : Exchange) (id : Nat) (r : OrderRequest) (answer : r.Answer) :
    (s.effect p id r answer).clock = s.clock := by
  cases r with
  | createOrderIntentRequestWithOutbox req subject payload =>
      simp only [Exchange.effect]
      split <;> rfl
  | cancelPredictionIntent txId =>
      simp only [Exchange.effect]
      split <;> rfl
  | publishWithID subject payload messageID =>
      have hpublish : (s.publish p subject payload messageID).clock = s.clock := by
        unfold Exchange.publish
        split <;> rfl
      cases answer with
      | ok _ => exact hpublish
      | error err => exact hpublish
  | _ => rfl

variable (p sdk) in
theorem Exchange.clock_next (s : Exchange) (e : Event) : s.clock ≤ (s.next p sdk e).clock := by
  cases e with
  | tick seconds => exact Nat.le_add_right _ _
  | serve i answer commit id =>
      simp only [Exchange.next, Exchange.serve]
      split
      · exact le_rfl
      split
      · exact le_rfl
      · show s.clock ≤ (if commit = true then _ else s).clock
        split
        · exact (s.clock_effect _ _ _).ge
        · exact le_rfl
  | deliver j now acks => exact (s.deliver_frame j now acks).2.2.2.2.ge
  | expire j => exact (s.expire_frame j).2.2.2.2.ge
  | _ => exact le_rfl

theorem Exchange.Posted.due_next (hs : s.Posted p sdk) (hallowed : s.Allowed p e) :
    ∀ r ∈ (s.next p sdk e).outbox.rows,
      r.nextAttemptAt ≤ (s.next p sdk e).clock + maxBackoff := by
  intro r' hr'
  have hclock := s.clock_next p sdk e
  rcases (Exchange.posts sdk hallowed).outbox_from hr' with
    ⟨r, hr, _, hle, _⟩ | ⟨_, _, _, _, _, _, _, _, rfl⟩
  · have hdue := hs.due r hr
    omega
  · show s.clock ≤ _
    omega

theorem Exchange.Posted.stream_next (hs : s.Posted p sdk) (hallowed : s.Allowed p e) :
    (∀ m ∈ (s.next p sdk e).stream, ∃ row,
      (s.next p sdk e).Announces p m.subject m.payload m.messageID row) ∧
      (s.next p sdk e).stream.Pairwise Spaced := by
  have hold {subject messageID : Str} {payload : Fields}
      (h : ∃ row, s.Announces p subject payload messageID row) :
      ∃ row, (s.next p sdk e).Announces p subject payload messageID row := by
    obtain ⟨row, hannounces⟩ := h
    obtain ⟨row', _, hannounces'⟩ := hannounces.next sdk hallowed
    exact ⟨row', hannounces'⟩
  have hsame (h : (s.next p sdk e).stream = s.stream) :
      (∀ m ∈ (s.next p sdk e).stream, ∃ row,
        (s.next p sdk e).Announces p m.subject m.payload m.messageID row) ∧
        (s.next p sdk e).stream.Pairwise Spaced := by
    rw [h]
    exact ⟨fun m hm => hold (hs.stream m hm), hs.spaced⟩
  cases Exchange.posts sdk hallowed with
  | committed commits request rows outbox acknowledged stream => exact hsame stream
  | failed rows outbox acknowledged stream => exact hsame stream
  | delivered mem request rows outbox acknowledged stream => exact hsame stream
  | quiet rows outbox acknowledged stream =>
      refine ⟨?_, ?_⟩
      · intro m' hm'
        have hmem : m'.sent ∈ s.stream.map (·.sent) := stream ▸ List.mem_map_of_mem hm'
        obtain ⟨m, hm, heq⟩ := List.mem_map.mp hmem
        have hannounces := hold (hs.stream m hm)
        simp only [StreamMessage.sent, StreamMessage.mk.injEq] at heq
        rwa [heq.1, heq.2.1, heq.2.2.1] at hannounces
      · have hspaced : (s.stream.map (·.sent)).Pairwise Spaced :=
          List.pairwise_map.mpr hs.spaced
        rw [← stream] at hspaced
        have hspaced' := List.pairwise_map.mp hspaced
        exact hspaced'
  | @published task subject messageID payload mem request rows outbox acknowledged stream =>
      obtain ⟨rest, hprogram⟩ := request
      unfold Exchange.publish at stream
      split at stream
      · exact hsame stream
      · next hnew =>
        rw [stream]
        refine ⟨?_, ?_⟩
        · intro m hm
          rcases List.mem_append.mp hm with hthere | hsent
          · exact hold (hs.stream m hthere)
          · rw [List.mem_singleton.mp hsent]
            exact hold (hs.publishes mem hprogram)
        · refine List.pairwise_append.mpr ⟨hs.spaced, List.pairwise_singleton _ _, ?_⟩
          intro m hm m' hm' hid hsameID
          obtain rfl := List.mem_singleton.mp hm'
          have hknown : messageID = m.messageID := hsameID
          -- the stream did not know the id any more
          have hforgotten : ¬s.clock < m.storedAt + duplicateWindow := by
            intro hrecent
            have hstored : (messageID, m.storedAt) ∈
                s.stream.map fun m => (m.messageID, m.storedAt) :=
              List.mem_map.mpr ⟨m, hm, by rw [hknown]⟩
            exact hnew (p.jetStream.remembers hstored (hknown ▸ hid) hrecent)
          exact Nat.le_of_not_lt hforgotten

/-- What was answered before is still so, and what is answered now is so. -/
theorem Exchange.answered_next {r : OrderRequest} {answer : r.Answer} {Q Q' : Prop}
    {task' : Task} (htask' : task' ∈ (s.next p sdk e).tasks)
    (hanswer : ⟨r, answer⟩ ∈ task'.answers)
    (hbefore : ∀ task ∈ s.tasks, ⟨r, answer⟩ ∈ task.answers → Q) (hkeep : Q → Q')
    (hnow : ∀ i reply commit id task rest, e = .serve i reply commit id →
      s.tasks[i]? = some task → task.program = .call r rest → reply r = answer → Q') : Q' := by
  rcases Exchange.mem_tasks_next htask' with hold | ⟨kind, rfl, rfl⟩ |
    ⟨i, reply, commit, id, task, r', rest, rfl, htask, hprogram, rfl⟩
  · exact hkeep (hbefore task' hold hanswer)
  · exact absurd hanswer List.not_mem_nil
  · rcases List.mem_append.mp hanswer with hearlier | hlast
    · exact hkeep (hbefore task (List.mem_of_getElem? htask) hearlier)
    · have heq := List.mem_singleton.mp hlast
      rw [Sigma.mk.injEq] at heq
      obtain ⟨rfl, heq⟩ := heq
      exact hnow i reply commit id task rest rfl htask hprogram (eq_of_heq heq).symm

theorem Exchange.Posted.next (hs : s.Posted p sdk) (hallowed : s.Allowed p e) :
    (s.next p sdk e).Posted p sdk := by
  have hposts := Exchange.posts sdk hallowed
  obtain ⟨hstream, hspaced⟩ := hs.stream_next hallowed
  refine ⟨hs.path.next hallowed, hs.accepted.next hs.path hallowed, hs.rows_next hallowed,
    hs.kept_next hallowed, hs.delivered_next hallowed, hs.due_next hallowed, hstream, hspaced,
    ?_, ?_, ?_⟩
  · intro task' htask' limit records hanswer record hmem
    apply Exchange.answered_next htask' hanswer (Q := ∃ r ∈ s.outbox.rows, record.Same r)
    · intro task htask hbefore
      exact hs.polled task htask limit records hbefore record hmem
    · rintro ⟨r, hr, hsame⟩
      obtain ⟨r', hr', hsame'⟩ := hposts.outbox_to hr
      exact ⟨r', hr', hsame.trans hsame'⟩
    · rintro i reply commit id task rest rfl htask hprogram hreply
      have hhonest := hallowed.2 task _ rest htask hprogram
      rw [hreply] at hhonest
      have hpending : record ∈ s.outbox.pending s.clock :=
        List.mem_of_mem_take (hhonest ▸ hmem)
      have hthere : record ∈ s.outbox.rows :=
        (List.mem_filter.mp (List.mem_mergeSort.mp hpending)).1
      exact hposts.outbox_to hthere
  · intro task' htask' subject payload messageID hanswer
    apply Exchange.answered_next htask' hanswer (Q := s.Taken messageID)
    · exact fun task htask hbefore => hs.acknowledged task htask _ _ _ hbefore
    · exact hposts.taken_to
    · rintro i reply commit id task rest rfl htask hprogram hreply
      have hhonest := hallowed.2 task _ rest htask hprogram
      rw [hreply] at hhonest
      have hcommit : commit = true := hhonest
      subst hcommit
      simp only [Exchange.next, Exchange.serve, htask, hprogram, Exchange.effect, hreply]
      exact ⟨List.mem_cons_self, s.published_stored subject payload messageID⟩
  · intro task' htask' marketId rows hanswer read hmem
    apply Exchange.answered_next htask' hanswer (Q := Accepted p read ∧
      ∃ row, s.db.intents.find read.txID = some row ∧ read.Later row)
    · exact fun task htask hbefore => hs.reopened task htask _ _ hbefore read hmem
    · rintro ⟨haccepted, row, hrow, hlater⟩
      obtain ⟨row', hrow', hlater'⟩ := s.row_next sdk hallowed hrow
      exact ⟨haccepted, row', hrow', hlater.trans hlater'⟩
    · rintro i reply commit id task rest rfl htask hprogram hreply
      have hhonest := hallowed.2 task _ rest htask hprogram
      rw [hreply] at hhonest
      obtain ⟨marketID, _, hperm⟩ := hhonest
      have hthere : read ∈ s.db.intents.rows := by
        have hopen := hperm.mem_iff.mp hmem
        unfold Db.openPredictionIntents at hopen
        split at hopen
        · exact (List.mem_filter.mp hopen).1
        · exact absurd hopen List.not_mem_nil
      exact ⟨hs.accepted read hthere, s.row_next sdk hallowed (Table.find_key hthere)⟩

/-- Before any order. -/
structure Exchange.Fresh (s : Exchange) : Prop where
  tasks : s.tasks = []
  intents : s.db.intents.rows = []
  outbox : s.outbox.rows = []
  stream : s.stream = []

theorem Exchange.Fresh.posted (h : s.Fresh) : s.Posted p sdk := by
  refine ⟨?_, ?_, ?_, ?_, ?_, ?_, ?_, ?_, ?_, ?_, ?_⟩
  · exact fun task htask => absurd (h.tasks ▸ htask) List.not_mem_nil
  · exact fun row hrow => absurd (h.intents ▸ hrow) List.not_mem_nil
  · exact fun r hr => absurd (h.outbox ▸ hr) List.not_mem_nil
  · exact fun row hrow => absurd (h.intents ▸ hrow) List.not_mem_nil
  · exact fun r hr => absurd (h.outbox ▸ hr) List.not_mem_nil
  · exact fun r hr => absurd (h.outbox ▸ hr) List.not_mem_nil
  · exact fun m hm => absurd (h.stream ▸ hm) List.not_mem_nil
  · rw [h.stream]
    exact .nil
  · exact fun task htask => absurd (h.tasks ▸ htask) List.not_mem_nil
  · exact fun task htask => absurd (h.tasks ▸ htask) List.not_mem_nil
  · exact fun task htask => absurd (h.tasks ▸ htask) List.not_mem_nil

/-! ## Sweeps -/

/-- A poll finds a row that is due, or it is full of rows with smaller ids. -/
theorem Outbox.mem_poll {outbox : Outbox} {now : Nat} {r : OutboxRow}
    (h : r ∈ outbox.pending now) (limit : Nat) :
    r ∈ (outbox.pending now).take limit ∨
      ((outbox.pending now).take limit).length = limit ∧
        ∀ r' ∈ (outbox.pending now).take limit, r'.id ≤ r.id := by
  have hsorted : (outbox.pending now).Pairwise fun r r' => r.id ≤ r'.id := by
    have hmerge : (outbox.pending now).Pairwise fun r r' => decide (r.id ≤ r'.id) = true := by
      apply List.pairwise_mergeSort
      · intro a b c hab hbc
        simp only [decide_eq_true_eq] at *
        omega
      · intro a b
        simp only [Bool.or_eq_true, decide_eq_true_eq]
        omega
    exact hmerge.imp of_decide_eq_true
  rw [← List.take_append_drop limit (outbox.pending now)] at h hsorted
  rcases List.mem_append.mp h with htaken | hleft
  · exact Or.inl htaken
  · right
    have hlong : limit ≤ (outbox.pending now).length := by
      by_contra hshort
      rw [List.drop_eq_nil_of_le (by omega)] at hleft
      exact absurd hleft List.not_mem_nil
    refine ⟨List.length_take_of_le hlong, ?_⟩
    intro r' hr'
    exact (List.pairwise_append.mp hsorted).2.2 r' hr' r hleft

theorem Outbox.mem_pending {outbox : Outbox} {now : Nat} {r : OutboxRow} :
    r ∈ outbox.pending now ↔
      r ∈ outbox.rows ∧ r.deliveredAt = false ∧ r.nextAttemptAt ≤ now := by
  unfold Outbox.pending
  rw [List.mem_mergeSort, List.mem_filter]
  simp

variable (sdk) in
theorem Exchange.next_promptly {i : Nat} {task : Task} (htask : s.tasks[i]? = some task)
    {r : OrderRequest} {rest : r.Answer → OrderM Unit} (hprogram : task.program = .call r rest) :
    s.next p sdk (s.promptly p i) =
      { s.effect p s.outbox.freshId r (s.reply p r) with
        tasks := s.tasks.set i
          ⟨task.kind, rest (s.reply p r), task.answers ++ [⟨r, s.reply p r⟩]⟩ } := by
  simp only [Exchange.promptly, Exchange.next, Exchange.serve, htask, hprogram, if_true]

def Outbox.markAllDelivered (outbox : Outbox) (records : List OutboxRow) : Outbox :=
  records.foldl (fun outbox record => outbox.markDelivered record.id) outbox

theorem Outbox.mem_markAllDelivered {outbox : Outbox} {records : List OutboxRow} {r' : OutboxRow}
    (h : r' ∈ (outbox.markAllDelivered records).rows) :
    ∃ r ∈ outbox.rows, r.Same r' ∧ r'.nextAttemptAt = r.nextAttemptAt ∧
      (r'.deliveredAt = false → r.deliveredAt = false ∧ ∀ record ∈ records, record.id ≠ r.id) := by
  induction records generalizing outbox with
  | nil => exact ⟨r', h, .refl r', rfl, fun hmark => ⟨hmark, by simp⟩⟩
  | cons record records ih =>
      obtain ⟨middle, hmiddle, hsame, hdue, hmarks⟩ := ih h
      obtain ⟨r, hr, rfl⟩ := Table.mem_modify.mp hmiddle
      refine ⟨r, hr, ?_⟩
      split at hsame
      · next hid =>
        split at hsame
        · next hmark =>
          rw [if_pos hid, if_pos hmark] at hdue hmarks
          refine ⟨hsame, hdue, fun hnot => ?_⟩
          rw [(hmarks hnot).1] at hmark
          exact absurd hmark Bool.false_ne_true
        · next hmark =>
          rw [if_pos hid, if_neg hmark] at hdue hmarks
          refine ⟨⟨hsame.id, hsame.txID, hsame.subject, hsame.payload⟩, hdue, fun hnot => ?_⟩
          exact absurd (hmarks hnot).1 (by simp)
      · next hid =>
        rw [if_neg hid] at hdue hmarks
        refine ⟨hsame, hdue, fun hnot => ⟨(hmarks hnot).1, ?_⟩⟩
        intro record' hmem
        rcases List.mem_cons.mp hmem with rfl | hmem
        · exact fun heq => hid heq.symm
        · exact (hmarks hnot).2 record' hmem

theorem Outbox.markAllDelivered_to {outbox : Outbox} {records : List OutboxRow} {r : OutboxRow}
    (h : r ∈ outbox.rows) : ∃ r' ∈ (outbox.markAllDelivered records).rows,
      r.Same r' ∧ r'.nextAttemptAt = r.nextAttemptAt := by
  induction records generalizing outbox r with
  | nil => exact ⟨r, h, .refl r, rfl⟩
  | cons record records ih =>
      have hmiddle : _ ∈ (outbox.markDelivered record.id).rows :=
        Table.mem_modify.mpr ⟨r, h, rfl⟩
      obtain ⟨r', hr', hsame, hdue⟩ := ih hmiddle
      refine ⟨r', hr', ?_⟩
      split at hsame
      · next hid =>
        rw [if_pos hid] at hdue
        split at hsame
        · next hmark =>
          rw [if_pos hmark] at hdue
          exact ⟨hsame, hdue⟩
        · next hmark =>
          rw [if_neg hmark] at hdue
          exact ⟨⟨hsame.id, hsame.txID, hsame.subject, hsame.payload⟩, hdue⟩
      · next hid =>
        rw [if_neg hid] at hdue
        exact ⟨hsame, hdue⟩

variable (sdk) in
theorem Exchange.publish_and_mark {i : Nat} {kind : TaskKind} {record : OutboxRow}
    {records : List OutboxRow} {answers : List ((r : OrderRequest) × r.Answer)}
    (h : s.tasks[i]? = some ⟨kind, publishRecords p (record :: records), answers⟩) :
    ∃ s' answers', (s.next p sdk (s.promptly p i)).next p sdk
        ((s.next p sdk (s.promptly p i)).promptly p i) = s' ∧
      s'.tasks[i]? = some ⟨kind, publishRecords p records, answers'⟩ ∧ s'.clock = s.clock ∧
      s'.outbox = s.outbox.markDelivered record.id ∧
      s'.acknowledged = p.uuid.string record.txID :: s.acknowledged := by
  obtain ⟨_, houtbox, hacknowledged⟩ :=
    s.publish_frame record.subject record.payload (p.uuid.string record.txID)
  have hlength : i < s.tasks.length := (List.getElem?_eq_some_iff.mp h).1
  have hpublish : s.next p sdk (s.promptly p i) = _ :=
    Exchange.next_promptly sdk (r := .publishWithID record.subject record.payload
      (p.uuid.string record.txID)) h rfl
  have hnext : (s.next p sdk (s.promptly p i)).tasks[i]? = some ⟨kind,
      .call (.markOrderOutboxDelivered record.id) fun _ => publishRecords p records,
      answers ++ [⟨.publishWithID record.subject record.payload (p.uuid.string record.txID),
        .ok ()⟩]⟩ := by
    rw [hpublish]
    exact List.getElem?_set_self hlength
  have hmark := Exchange.next_promptly (p := p) sdk hnext rfl
  refine ⟨_, _, hmark, List.getElem?_set_self (List.getElem?_eq_some_iff.mp hnext).1, ?_, ?_, ?_⟩
  · show (s.next p sdk (s.promptly p i)).clock = s.clock
    rw [hpublish]
    exact s.clock_effect _ _ _
  · show (s.next p sdk (s.promptly p i)).outbox.markDelivered record.id = _
    rw [hpublish]
    exact congrArg (Outbox.markDelivered · record.id) houtbox
  · show (s.next p sdk (s.promptly p i)).acknowledged = _
    rw [hpublish]
    rfl

variable (sdk) in
theorem Exchange.run_publishRecords {i : Nat} {kind : TaskKind} {records : List OutboxRow}
    {answers : List ((r : OrderRequest) × r.Answer)}
    (h : s.tasks[i]? = some ⟨kind, publishRecords p records, answers⟩) :
    ((exchange p sdk).run s (Exchange.replies p sdk i (2 * records.length) s)).clock = s.clock ∧
      ((exchange p sdk).run s (Exchange.replies p sdk i (2 * records.length) s)).outbox =
        s.outbox.markAllDelivered records ∧
      ∀ messageID, messageID ∈ s.acknowledged ∨
          (∃ record ∈ records, messageID = p.uuid.string record.txID) →
        messageID ∈ ((exchange p sdk).run s
          (Exchange.replies p sdk i (2 * records.length) s)).acknowledged := by
  induction records generalizing s answers with
  | nil =>
      refine ⟨rfl, rfl, ?_⟩
      rintro messageID (hmem | ⟨record, hrecord, _⟩)
      · exact hmem
      · exact absurd hrecord List.not_mem_nil
  | cons record records ih =>
      obtain ⟨s', answers', htwo, htask, hclock, houtbox, hacknowledged⟩ :=
        Exchange.publish_and_mark sdk h
      have hrun : (exchange p sdk).run s
            (Exchange.replies p sdk i (2 * (record :: records).length) s) =
          (exchange p sdk).run s' (Exchange.replies p sdk i (2 * records.length) s') := by
        rw [← htwo]
        rfl
      obtain ⟨hclock', houtbox', hmore⟩ := ih htask
      rw [hrun]
      refine ⟨hclock'.trans hclock, ?_, ?_⟩
      · rw [houtbox', houtbox]
        rfl
      · rintro messageID (hmem | ⟨record', hrecord', rfl⟩)
        · exact hmore messageID (Or.inl (hacknowledged ▸ List.mem_cons_of_mem _ hmem))
        · rcases List.mem_cons.mp hrecord' with rfl | hmem
          · exact hmore _ (Or.inl (hacknowledged ▸ List.mem_cons_self))
          · exact hmore _ (Or.inr ⟨record', hmem, rfl⟩)

variable (p sdk) in
def Exchange.sweepOnce (s : Exchange) : List Event :=
  .start .sweep :: Exchange.replies p sdk s.tasks.length
    (2 * ((s.outbox.pending s.clock).take sweepLimit).length + 1) (s.next p sdk (.start .sweep))

variable (p sdk) in
def Exchange.sweeps : Nat → Exchange → List Event
  | 0, _ => []
  | count + 1, s =>
    s.sweepOnce p sdk ++ Exchange.sweeps count ((exchange p sdk).run s (s.sweepOnce p sdk))

variable (p sdk) in
theorem Exchange.run_sweeps_succ (count : Nat) (s : Exchange) :
    (exchange p sdk).run s (Exchange.sweeps p sdk (count + 1) s) =
      (exchange p sdk).run ((exchange p sdk).run s (s.sweepOnce p sdk))
        (Exchange.sweeps p sdk count ((exchange p sdk).run s (s.sweepOnce p sdk))) :=
  System.run_append s _ _

variable (p sdk) in
theorem Exchange.runs_sweepOnce (s : Exchange) :
    (exchange p sdk).Runs (fun _ _ => True) s (s.sweepOnce p sdk) :=
  ⟨trivial, trivial, Exchange.runs_replies_any p sdk _ _ _⟩

variable (p sdk) in
theorem Exchange.runs_sweeps (count : Nat) (s : Exchange) :
    (exchange p sdk).Runs (fun _ _ => True) s (Exchange.sweeps p sdk count s) := by
  induction count generalizing s with
  | zero => trivial
  | succ count ih => exact System.runs_append.mpr ⟨s.runs_sweepOnce p sdk, ih _⟩

variable (p sdk) in
theorem Exchange.run_sweepOnce (s : Exchange) :
    ((exchange p sdk).run s (s.sweepOnce p sdk)).clock = s.clock ∧
      ((exchange p sdk).run s (s.sweepOnce p sdk)).outbox =
        s.outbox.markAllDelivered ((s.outbox.pending s.clock).take sweepLimit) ∧
      ∀ record ∈ (s.outbox.pending s.clock).take sweepLimit,
        p.uuid.string record.txID ∈
          ((exchange p sdk).run s (s.sweepOnce p sdk)).acknowledged := by
  have hstart : (s.next p sdk (.start .sweep)).tasks[s.tasks.length]? =
      some ⟨.sweep, sweepOutbox p, []⟩ := List.getElem?_concat_length
  have hpoll := Exchange.next_promptly (p := p) sdk hstart rfl
  have htask : ((s.next p sdk (.start .sweep)).next p sdk
      ((s.next p sdk (.start .sweep)).promptly p s.tasks.length)).tasks[s.tasks.length]? =
        some ⟨.sweep, publishRecords p ((s.outbox.pending s.clock).take sweepLimit),
          [⟨.pendingOrderOutbox sweepLimit,
            .ok ((s.outbox.pending s.clock).take sweepLimit)⟩]⟩ := by
    rw [hpoll]
    exact List.getElem?_set_self (List.getElem?_eq_some_iff.mp hstart).1
  obtain ⟨hclock, houtbox, hmore⟩ := Exchange.run_publishRecords sdk htask
  refine ⟨hclock.trans ?_, houtbox.trans ?_, ?_⟩
  · rw [hpoll]
    rfl
  · rw [hpoll]
    rfl
  · intro record hrecord
    exact hmore _ (Or.inr ⟨record, hrecord, rfl⟩)

/-- The ids of the rows that are due, up to some id. -/
def Outbox.ahead (outbox : Outbox) (now id : Nat) : Finset Nat :=
  (((outbox.pending now).filter fun r => r.id ≤ id).map (·.id)).toFinset

theorem Outbox.mem_ahead {outbox : Outbox} {now id k : Nat} :
    k ∈ outbox.ahead now id ↔
      ∃ r ∈ outbox.rows, r.deliveredAt = false ∧ r.nextAttemptAt ≤ now ∧ r.id ≤ id ∧ r.id = k := by
  unfold Outbox.ahead
  rw [List.mem_toFinset, List.mem_map]
  constructor
  · rintro ⟨r, hmem, hkey⟩
    obtain ⟨hpending, hle⟩ := List.mem_filter.mp hmem
    obtain ⟨hr, hmark, hdue⟩ := Outbox.mem_pending.mp hpending
    exact ⟨r, hr, hmark, hdue, of_decide_eq_true hle, hkey⟩
  · rintro ⟨r, hr, hmark, hdue, hle, hkey⟩
    exact ⟨r, List.mem_filter.mpr ⟨Outbox.mem_pending.mpr ⟨hr, hmark, hdue⟩,
      decide_eq_true hle⟩, hkey⟩

theorem Outbox.ahead_markAllDelivered {outbox : Outbox} {now : Nat} {r record : OutboxRow}
    {records : List OutboxRow} (hrecords : ∀ record ∈ records, record ∈ outbox.pending now)
    (hmem : record ∈ records) (hle : record.id ≤ r.id) :
    ((outbox.markAllDelivered records).ahead now r.id).card < (outbox.ahead now r.id).card := by
  apply Finset.card_lt_card
  rw [Finset.ssubset_iff_of_subset]
  · obtain ⟨hthere, hmark, hdue⟩ := Outbox.mem_pending.mp (hrecords record hmem)
    refine ⟨record.id, Outbox.mem_ahead.mpr ⟨record, hthere, hmark, hdue, hle, rfl⟩, ?_⟩
    intro hafter
    obtain ⟨r', hr', hmark', _, _, hkey⟩ := Outbox.mem_ahead.mp hafter
    obtain ⟨before, _, hsame, _, hmarks⟩ := Outbox.mem_markAllDelivered hr'
    exact (hmarks hmark').2 record hmem (hkey.symm.trans hsame.id)
  · intro k hk
    obtain ⟨r', hr', hmark', hdue', hle', hkey⟩ := Outbox.mem_ahead.mp hk
    obtain ⟨before, hbefore, hsame, hdue, hmarks⟩ := Outbox.mem_markAllDelivered hr'
    exact Outbox.mem_ahead.mpr ⟨before, hbefore, (hmarks hmark').1, hdue ▸ hdue',
      hsame.id ▸ hle', hsame.id.symm.trans hkey⟩

variable (p sdk) in
/-- Sweeps go on until a row that is due is published: each takes it, or takes others away from
those that are ahead of it. -/
theorem Exchange.Posted.sweeps_publish (hs : s.Posted p sdk) {r : OutboxRow}
    (hr : r ∈ s.outbox.rows) (hdue : r.nextAttemptAt ≤ s.clock) :
    ∃ count, p.uuid.string r.txID ∈
      ((exchange p sdk).run s (Exchange.sweeps p sdk count s)).acknowledged := by
  induction hcard : (s.outbox.ahead s.clock r.id).card using Nat.strong_induction_on
    generalizing s r with
  | _ card ih =>
      cases hmark : r.deliveredAt with
      | true => exact ⟨0, (hs.delivered r hr hmark).1⟩
      | false =>
          obtain ⟨hclock, houtbox, hpublished⟩ := s.run_sweepOnce p sdk
          have hpending := Outbox.mem_pending.mpr ⟨hr, hmark, hdue⟩
          rcases Outbox.mem_poll hpending sweepLimit with hpolled | ⟨hfull, hbefore⟩
          · refine ⟨1, ?_⟩
            rw [Exchange.run_sweeps_succ]
            exact hpublished r hpolled
          · have hs' : ((exchange p sdk).run s (s.sweepOnce p sdk)).Posted p sdk :=
              (s.runs_sweepOnce p sdk).preserves (fun s e hs hallowed _ => hs.next hallowed) hs
            obtain ⟨r', hr', hsame, hdue'⟩ : ∃ r' ∈ (s.outbox.markAllDelivered
                ((s.outbox.pending s.clock).take sweepLimit)).rows,
                r.Same r' ∧ r'.nextAttemptAt = r.nextAttemptAt := Outbox.markAllDelivered_to hr
            have hpositive : 0 < ((s.outbox.pending s.clock).take sweepLimit).length := by
              rw [hfull]
              decide
            obtain ⟨record, hrecord⟩ := List.exists_mem_of_length_pos hpositive
            have hfewer := Outbox.ahead_markAllDelivered
              (fun _ hmem => List.mem_of_mem_take hmem) hrecord (hbefore record hrecord)
            rw [← houtbox, hcard] at hfewer
            rw [← houtbox] at hr'
            obtain ⟨count, hcount⟩ := ih _ hfewer hs' hr' (by rw [hclock, hdue']; exact hdue)
              (by rw [hclock, hsame.id])
            refine ⟨count + 1, ?_⟩
            rw [Exchange.run_sweeps_succ, ← hsame.txID]
            exact hcount

/-! ## The outbox as a whole -/

structure Exchange.Delivers (p : Platform) (sdk : Sdk) (s : Exchange) : Prop where
  /- what is about to be published announces a committed order -/
  asked : ∀ task ∈ s.tasks, ∀ subject payload messageID rest,
    task.program = .call (.publishWithID subject payload messageID) rest →
      ∃ row, s.Announces p subject payload messageID row
  /- and so does what the stream has taken -/
  stored : ∀ m ∈ s.stream, ∃ row, s.Announces p m.subject m.payload m.messageID row
  /- an order that is not acknowledged is pending, due in a while, and sweeps publish it -/
  pending : ∀ row ∈ s.db.intents.rows, p.uuid.string row.txID ∉ s.acknowledged →
    ∃ r ∈ s.outbox.rows, r.txID = row.txID ∧ r.deliveredAt = false ∧
      r.nextAttemptAt ≤ s.clock + maxBackoff ∧
      ∃ count, (exchange p sdk).Runs (fun _ _ => True) (s.next p sdk (.tick maxBackoff))
          (Exchange.sweeps p sdk count (s.next p sdk (.tick maxBackoff))) ∧
        p.uuid.string row.txID ∈ ((exchange p sdk).run (s.next p sdk (.tick maxBackoff))
          (Exchange.sweeps p sdk count (s.next p sdk (.tick maxBackoff)))).acknowledged
  /- a poll leaves a row that is due to the next one only for rows with smaller ids -/
  polls : ∀ r ∈ s.outbox.pending s.clock, ∀ limit,
    r ∈ (s.outbox.pending s.clock).take limit ∨
      ((s.outbox.pending s.clock).take limit).length = limit ∧
        ∀ r' ∈ (s.outbox.pending s.clock).take limit, r'.id ≤ r.id
  /- a sweep that has ended has asked to publish all that it polled -/
  ended : ∀ task ∈ s.tasks, task.kind = .sweep → task.program = .ret () → ∀ limit records,
    ⟨.pendingOrderOutbox limit, .ok records⟩ ∈ task.answers → ∀ record ∈ records, ∃ result,
      ⟨.publishWithID record.subject record.payload (p.uuid.string record.txID), result⟩ ∈
        task.answers
  /- a row is marked only after its message was acknowledged, and the stream has it then -/
  delivered : ∀ r ∈ s.outbox.rows, r.deliveredAt = true → s.Taken (p.uuid.string r.txID)
  /- within the window a message is stored once -/
  once : s.stream.Pairwise Spaced

theorem Exchange.Posted.ended (hs : s.Posted p sdk) {task : Task} (htask : task ∈ s.tasks)
    (hkind : task.kind = .sweep) (hprogram : task.program = .ret ()) {limit : Nat}
    {records : List OutboxRow} (hanswer : ⟨.pendingOrderOutbox limit, .ok records⟩ ∈ task.answers) :
    ∀ record ∈ records, ∃ result,
      ⟨.publishWithID record.subject record.payload (p.uuid.string record.txID), result⟩ ∈
        task.answers := by
  have hpath := (hs.path task htask).1
  rw [hkind, hprogram] at hpath
  rcases Program.path_call_iff.mp hpath with ⟨_, htarget⟩ | ⟨answer, later, hanswers, hlater⟩
  · exact absurd htarget (by simp)
  rw [hanswers] at hanswer ⊢
  cases answer with
  | error err =>
      obtain ⟨rfl, _⟩ := Program.path_ret_iff.mp hlater
      exact absurd (List.mem_singleton.mp hanswer) (by simp)
  | ok polled =>
      rcases List.mem_cons.mp hanswer with hfirst | hmore
      · cases hfirst
        intro record hmem
        obtain ⟨result, hresult⟩ := publishRecords_path_ret hlater record hmem
        exact ⟨result, List.mem_cons_of_mem _ hresult⟩
      · -- a sweep polls once
        obtain ⟨earlier, _, rest, _, hthere⟩ := hlater.of_mem hmore
        obtain ⟨record, _, hasks⟩ := publishRecords_path hthere
        cases hasks

theorem Exchange.Posted.delivers (hs : s.Posted p sdk) : s.Delivers p sdk := by
  refine ⟨?_, hs.stream, ?_, ?_, ?_, hs.delivered, hs.spaced⟩
  · exact fun task htask _ _ _ _ hprogram => hs.publishes htask hprogram
  · intro row hrow hnot
    obtain ⟨r, hr, hkey⟩ := hs.kept row hrow
    have hmark : r.deliveredAt = false := by
      apply eq_false_of_ne_true
      intro hmark
      exact hnot (hkey ▸ (hs.delivered r hr hmark).1)
    have hdue := hs.due r hr
    have hlater : (s.next p sdk (.tick maxBackoff)).Posted p sdk := hs.next trivial
    obtain ⟨count, hcount⟩ := hlater.sweeps_publish p sdk hr hdue
    exact ⟨r, hr, hkey, hmark, hdue, count, Exchange.runs_sweeps p sdk count _, hkey ▸ hcount⟩
  · exact fun r hr limit => Outbox.mem_poll hr limit
  · exact fun task htask hkind hprogram limit records hanswer =>
      hs.ended htask hkind hprogram hanswer

/-- In every run from before any order: what is published announces a committed order, an order
that was not acknowledged will be published, marks follow acknowledgements, and the stream takes
each message once within the window. -/
theorem outbox_delivers {start : Exchange} (hstart : start.Fresh) {events : List Event}
    (hruns : (exchange p sdk).Runs (fun _ _ => True) start events) :
    ((exchange p sdk).run start events).Delivers p sdk := by
  have hposted : ((exchange p sdk).run start events).Posted p sdk :=
    hruns.preserves (fun s e hs hallowed _ => hs.next hallowed) hstart.posted
  exact hposted.delivers

end Posted

def announcedSell : List Event :=
  let checked := (exchange samplePlatform sampleSdk).run sampleExchange oneSell
  let commit := Exchange.replies samplePlatform sampleSdk 0 1 checked
  oneSell ++ (commit ++
    ((exchange samplePlatform sampleSdk).run checked commit).sweepOnce samplePlatform sampleSdk)

theorem outbox_delivers_sell :
    (((exchange samplePlatform sampleSdk).run sampleExchange announcedSell).stream.map
        (·.messageID) = ["01890f3e-7c10-7cc1-98bc-0242ac120003".toList]) ∧
      ((exchange samplePlatform sampleSdk).run sampleExchange announcedSell).Delivers samplePlatform
        sampleSdk := by
  have hfresh : sampleExchange.Fresh := ⟨rfl, rfl, rfl, rfl⟩
  have hruns : (exchange samplePlatform sampleSdk).Runs (fun _ _ => True) sampleExchange
      announcedSell := by
    refine System.runs_append.mpr ⟨?_, System.runs_append.mpr
      ⟨Exchange.runs_replies_any _ _ _ _ _, Exchange.runs_sweepOnce _ _ _⟩⟩
    exact ⟨sampleSell_allowed sampleExchange (by simp), trivial,
      Exchange.runs_replies_any _ _ _ _ _⟩
  exact ⟨by decide +kernel, outbox_delivers hfresh hruns⟩

end PrismBackend.Api
