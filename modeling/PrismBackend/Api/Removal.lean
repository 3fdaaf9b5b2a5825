import PrismBackend.Api.Delivery
import PrismBackend.Clob.Registry

/-!
# API: cancelled orders and the book

A cancellation marks the order in the database, and then removes it from the
book. The order itself reaches the book through the outbox and the stream, so a
removal can come too early, or be lost.
-/

namespace PrismBackend.Api

open PrismBackend.Lib PrismBackend.Clob PrismBackend.PrismV2

/-! ## The two steps of a cancellation -/

section Paths

variable {p : Platform} {sdk : Sdk} {answers : List ((r : OrderRequest) × r.Answer)}
  {r : OrderRequest}

theorem ask_path {α : Type} {r r' : OrderRequest} {program : OrderM (Except String α)}
    (hprogram : program.Makes (· = r')) {what : String}
    {rest : r.Answer → OrderM (Except String α)}
    (h : (ask program what).Path answers (.call r rest)) : r = r' :=
  (h.makes (ask_makes hprogram what)).1

theorem cancelNoSigCheck_path {marketId txId : Str} {rest : r.Answer → OrderM (Except String Str)}
    (h : (cancelPredictionIntentNoSigCheck marketId txId).Path answers (.call r rest)) :
    r = .cancelPredictionIntent txId ∨
      r = .cancelOrder marketId txId ∧ ⟨.cancelPredictionIntent txId, .ok ()⟩ ∈ answers := by
  rcases Program.path_andThen h with ⟨rest', hmark⟩ | ⟨_, earlier, later, rfl, hmarked, hremove⟩
  · exact Or.inl (ask_path (Program.makes_request rfl) hmark)
  · have hanswered := Program.path_request (path_ask hmarked)
    rcases Program.path_andThen hremove with ⟨rest', hremove⟩ | ⟨_, _, _, _, _, hret⟩
    · refine Or.inr ⟨ask_path (Program.makes_request rfl) hremove, ?_⟩
      rw [hanswered]
      exact List.mem_append_left _ List.mem_cons_self
    · exact absurd hret Program.not_path_pure

theorem cancelNoSigCheck_path_ret {marketId txId message : Str}
    (h : (cancelPredictionIntentNoSigCheck marketId txId).Path answers (.ret (.ok message))) :
    ⟨.cancelOrder marketId txId, .ok ()⟩ ∈ answers := by
  obtain ⟨_, earlier, later, rfl, _, hrest⟩ := Program.path_andThen_ret h
  obtain ⟨_, earlier', later', rfl, hremoved, _⟩ := Program.path_andThen_ret hrest
  rw [Program.path_request (path_ask hremoved)]
  exact List.mem_append_right _ (List.mem_append_left _ List.mem_cons_self)

/-- What a task that is about to mark an order does next. -/
def RemovesNext (txId : Str) {α : Type} (rest : Except String Unit → OrderM α) : Prop :=
  ∃ marketId rest', rest (.ok ()) = .call (.cancelOrder marketId txId) rest'

theorem RemovesNext.bind {α β : Type} {txId : Str} {rest : Except String Unit → OrderM α}
    (h : RemovesNext txId rest) (k : α → OrderM β) :
    RemovesNext txId fun answer => rest answer >>= k := by
  obtain ⟨marketId, rest', hrest⟩ := h
  refine ⟨marketId, fun answer => rest' answer >>= k, ?_⟩
  show rest (.ok ()) >>= k = _
  rw [hrest, Program.call_bind]

theorem cancelNoSigCheck_removesNext {marketId txId txId' : Str}
    {rest : Except String Unit → OrderM (Except String Str)}
    (h : (cancelPredictionIntentNoSigCheck marketId txId).Path answers
      (.call (.cancelPredictionIntent txId') rest)) : RemovesNext txId' rest := by
  rcases Program.path_call_iff.mp h with ⟨_, htarget⟩ | ⟨answer, later, rfl, hlater⟩
  · cases htarget
    exact ⟨marketId, _, rfl⟩
  · cases answer with
    | error err => exact absurd hlater Program.not_path_pure
    | ok _ =>
        rcases Program.path_call_iff.mp hlater with ⟨_, htarget⟩ | ⟨answer', _, _, hlater'⟩
        · cases htarget
        · cases answer' with
          | error err => exact absurd hlater' Program.not_path_pure
          | ok _ => exact absurd hlater' Program.not_path_pure

theorem cancelPredictionIntent_removesNext {req : CancelOrderRequest} {txId : Str}
    {rest : Except String Unit → OrderM (Except String Str)}
    (h : (cancelPredictionIntent p sdk req).Path answers
      (.call (.cancelPredictionIntent txId) rest)) : RemovesNext txId rest := by
  obtain ⟨accountId, _, hkey⟩ := Program.path_attempt h
  obtain ⟨found, _, _, _, _, hfound⟩ := Program.path_past hkey
    (P := (· ≠ OrderRequest.cancelPredictionIntent txId))
    (ask_makes (Program.makes_request (by simp)) _) (not_not.mpr rfl)
  obtain ⟨publicKey, _, hrow⟩ := Program.path_attempt hfound
  obtain ⟨row, _, _, _, _, hrest⟩ := Program.path_past hrow
    (P := (· ≠ OrderRequest.cancelPredictionIntent txId))
    (ask_makes (Program.makes_request (by simp)) _) (not_not.mpr rfl)
  obtain ⟨_, _, hcancel⟩ := Program.path_attempt hrest
  exact cancelNoSigCheck_removesNext hcancel

/-- Where the eviction of an order is: in its cancellation, or at the mark that follows. -/
theorem evict_path {marketID txID : Uint128} {rest : r.Answer → OrderM Unit}
    (h : (evict p marketID txID).Path answers (.call r rest)) :
    (∃ rest' k, (cancelPredictionIntentNoSigCheck (p.uuid.string marketID)
        (p.uuid.string txID)).Path answers (.call r rest') ∧
          rest = fun answer => rest' answer >>= k) ∨
      r = .markPredictionIntentAsEvicted txID ∧
        ⟨.cancelOrder (p.uuid.string marketID) (p.uuid.string txID), .ok ()⟩ ∈ answers := by
  rcases Program.path_bind_call h with
    ⟨rest', hfirst, hrest⟩ | ⟨result, earlier, later, rfl, hcancelled, hmark⟩
  · exact Or.inl ⟨rest', _, hfirst, hrest⟩
  · cases result with
    | error err => exact absurd hmark Program.not_path_pure
    | ok message =>
        refine Or.inr ⟨?_, List.mem_append_left _ (cancelNoSigCheck_path_ret hcancelled)⟩
        rcases Program.path_call_iff.mp hmark with ⟨_, htarget⟩ | ⟨_, _, _, hlater⟩
        · cases htarget
          rfl
        · exact absurd hlater Program.not_path_pure

variable {s : Exchange} {task : Task}

/-- A task that is about to mark an order removes it next. -/
theorem Exchange.OnPath.mark (hs : s.OnPath p sdk) (htask : task ∈ s.tasks) {txId : Str}
    {rest : Except String Unit → OrderM Unit}
    (hprogram : task.program = .call (.cancelPredictionIntent txId) rest) :
    RemovesNext txId rest := by
  have hrole := hs.asks htask hprogram
  have hpath := (hs task htask).1
  rw [hprogram] at hpath
  cases hkind : task.kind with
  | cancel req =>
      rw [hkind] at hpath
      obtain ⟨rest', hfirst, rfl⟩ := path_dropped hpath
      exact (cancelPredictionIntent_removesNext hfirst).bind _
  | evict marketID txID =>
      rw [hkind] at hpath
      rcases evict_path hpath with ⟨rest', k, hfirst, rfl⟩ | ⟨hevict, _⟩
      · exact (cancelNoSigCheck_removesNext hfirst).bind k
      · exact absurd hevict (by simp)
  | create req =>
      rw [hkind] at hrole
      exact absurd hrole (by rintro (h | h) <;> exact h)
  | _ =>
      rw [hkind] at hrole
      exact absurd hrole not_false

/-- The eviction has removed the order from the book. -/
def Task.Removed (p : Platform) (task : Task) (txID : Uint128) : Prop :=
  ∃ marketID marketId, task.kind = .evict marketID txID ∧
    ⟨.cancelOrder marketId (p.uuid.string txID), .ok ()⟩ ∈ task.answers

theorem Exchange.OnPath.marked (hs : s.OnPath p sdk) (htask : task ∈ s.tasks) {txID : Uint128}
    (h : task.Removed p txID) :
    ⟨.cancelPredictionIntent (p.uuid.string txID), .ok ()⟩ ∈ task.answers := by
  obtain ⟨marketID, marketId, hkind, hremoved⟩ := h
  have hpath := (hs task htask).1
  rw [hkind] at hpath
  obtain ⟨earlier, later, rest, hanswers, hremove⟩ := hpath.of_mem hremoved
  rw [hanswers]
  apply List.mem_append_left
  rcases evict_path hremove with ⟨rest', k, hfirst, _⟩ | ⟨hevict, _⟩
  · rcases cancelNoSigCheck_path hfirst with hmark | ⟨_, hmarked⟩
    · exact absurd hmark (by simp)
    · exact hmarked
  · exact absurd hevict (by simp)

theorem Exchange.OnPath.evict (hs : s.OnPath p sdk) (htask : task ∈ s.tasks) {txID : Uint128}
    {rest : Except String Unit → OrderM Unit}
    (hprogram : task.program = .call (.markPredictionIntentAsEvicted txID) rest) :
    task.Removed p txID := by
  have hrole := hs.asks htask hprogram
  have hpath := (hs task htask).1
  rw [hprogram] at hpath
  cases hkind : task.kind with
  | evict marketID txID' =>
      rw [hkind] at hpath
      rcases evict_path hpath with ⟨rest', k, hfirst, _⟩ | ⟨hevict, hremoved⟩
      · rcases cancelNoSigCheck_path hfirst with hmark | ⟨hremove, _⟩
        · exact absurd hmark (by simp)
        · exact absurd hremove (by simp)
      · cases hevict
        exact ⟨marketID, _, hkind, hremoved⟩
  | create req =>
      rw [hkind] at hrole
      exact absurd hrole (by rintro (h | h) <;> exact h)
  | _ =>
      rw [hkind] at hrole
      exact absurd hrole not_false

end Paths

/-! ## What is still on its way -/

/-- The payload is an order, under this text of its id. -/
def Carries (p : Platform) (payload : Fields) (txID : Uint128) (txId : Str) : Prop :=
  ∃ o, readOrder payload = some o ∧ o.txId = txId ∧ p.uuid.parse o.txId = .ok txID

def NotPublishing (p : Platform) (txID : Uint128) (txId : Str) : OrderRequest → Prop
  | .publishWithID _ payload _ => ¬Carries p payload txID txId
  | _ => True

/-- The task has read the order from the outbox or from its row, and may still publish it. -/
structure Task.Holds (p : Platform) (txID : Uint128) (txId : Str) (task : Task) : Prop where
  read : (∃ limit records record, ⟨.pendingOrderOutbox limit, .ok records⟩ ∈ task.answers ∧
      record ∈ records ∧ Carries p record.payload txID txId) ∨
    ∃ marketId rows row,
      ⟨.getAllOpenPredictionIntentsByMarketId marketId, .ok rows⟩ ∈ task.answers ∧
        row ∈ rows ∧ row.txID = txID ∧ txId = p.uuid.string txID
  publishes : ¬task.program.Makes (NotPublishing p txID txId)

/-- A message of the order is on its way to the book: in the stream, in the outbox or in a task. -/
inductive Exchange.Outstanding (p : Platform) (s : Exchange) (txID : Uint128) (txId : Str) : Prop
  | sent {m : StreamMessage} (mem : m ∈ s.stream) (done : m.done = false)
      (carries : Carries p m.payload txID txId)
  | pending {r : OutboxRow} (mem : r ∈ s.outbox.rows) (delivered : r.deliveredAt = false)
      (carries : Carries p r.payload txID txId)
  | held {task : Task} (mem : task ∈ s.tasks) (holds : task.Holds p txID txId)

/-- The order does not rest, and every message that is on its way was registered by the CLOB,
which therefore skips it. -/
structure Exchange.Cleared (p : Platform) (s : Exchange) (txID : Uint128) : Prop where
  rests : ∀ key id, s.clob.Rests key id → p.uuid.parse id ≠ .ok txID
  registered : ∀ txId, s.Outstanding p txID txId → txId ∈ s.clob.txIdLut

/-- The order was cancelled or evicted. -/
def PredictionIntent.isShut (row : PredictionIntent) : Bool := row.cancelledAt || row.evictedAt

/-- The order has one of the marks for which the rebuild passes it over. -/
def PredictionIntent.isClosed (row : PredictionIntent) : Bool :=
  row.cancelledAt || row.fullyMatchedAt || row.evictedAt

section Outstanding

variable {p : Platform} {sdk : Sdk} {s : Exchange} {e : Event} {txID : Uint128} {txId : Str}

theorem PredictionIntent.isClosed_of_isOpen {row : PredictionIntent}
    (h : isOpenPredictionIntent row = true) : row.isClosed = false := by
  simp only [isOpenPredictionIntent, Bool.and_eq_true, Bool.not_eq_true'] at h
  obtain ⟨⟨⟨_, hcancelled⟩, hmatched⟩, hevicted⟩ := h
  rw [PredictionIntent.isClosed, hcancelled, hmatched, hevicted]
  rfl

theorem PredictionIntent.isClosed_of_isShut {row : PredictionIntent} (h : row.isShut = true) :
    row.isClosed = true := by
  rw [PredictionIntent.isShut, Bool.or_eq_true] at h
  rw [PredictionIntent.isClosed, Bool.or_eq_true, Bool.or_eq_true]
  exact h.imp_left Or.inl

theorem PredictionIntent.Later.isClosed {row row' : PredictionIntent} (h : row.Later row')
    (hclosed : row.isClosed = true) : row'.isClosed = true := by
  rw [PredictionIntent.isClosed, Bool.or_eq_true, Bool.or_eq_true] at hclosed ⊢
  exact hclosed.imp (Or.imp h.cancelled h.fullyMatched) h.evicted

theorem Exchange.Announces.carried {subject messageID : Str} {payload : Fields}
    {row : PredictionIntent} (h : s.Announces p subject payload messageID row)
    (hcarries : Carries p payload txID txId) : row.txID = txID := by
  obtain ⟨o, hread, hdenotes⟩ := h.order
  obtain ⟨o', hread', _, hparse⟩ := hcarries
  rw [hread, Option.some.injEq] at hread'
  subst hread'
  have hkey := hdenotes.txID.symm.trans hparse
  exact Except.ok.inj hkey

theorem withUnsettledFills_txId (matches_ : List Match) (o : CreateOrderRequestClob) :
    (matches_.foldl withUnsettledFill o).txId = o.txId := by
  induction matches_ generalizing o with
  | nil => rfl
  | cons m matches_ ih =>
      rw [List.foldl_cons, ih]
      unfold withUnsettledFill
      split
      · rfl
      · split
        · rfl
        · rfl

theorem clobOrderFromIntent_txId {uuid : Uuid} {row : PredictionIntent}
    {o : CreateOrderRequestClob} (h : clobOrderFromIntent uuid row = .ok o) :
    o.txId = uuid.string row.txID := by
  simp only [clobOrderFromIntent, bind_ok_iff, Except.ok.injEq] at h
  obtain ⟨_, _, _, _, _, _, rfl⟩ := h
  rfl

/-- A task that is about to publish an order has it in hand. -/
theorem Exchange.Posted.holds (hs : s.Posted p sdk) {task : Task} (htask : task ∈ s.tasks)
    {subject messageID : Str} {payload : Fields} {rest : Except String Unit → OrderM Unit}
    (hprogram : task.program = .call (.publishWithID subject payload messageID) rest)
    (hcarries : Carries p payload txID txId) : task.Holds p txID txId := by
  refine ⟨?_, ?_⟩
  · rcases hs.path.publishes htask hprogram with
      ⟨records, hanswer, record, hmem, _, rfl, _⟩ | ⟨marketId, rows, hanswer, hrepublishes⟩
    · exact Or.inl ⟨_, records, record, hanswer, hmem, hcarries⟩
    · obtain ⟨_, _, read, hmem, order, horder, matches_, rfl⟩ := hrepublishes
      obtain ⟨haccepted, _⟩ := hs.reopened task htask _ _ hanswer read hmem
      obtain ⟨_, htyped⟩ := Denotes.withUnsettledFills (haccepted.denotes horder) matches_
      obtain ⟨o, hread, htext, hparse⟩ := hcarries
      rw [readOrder_marshalOrder htyped, Option.some.injEq] at hread
      have hkey : o.txId = p.uuid.string read.txID := by
        rw [← hread, withUnsettledFills_txId]
        exact clobOrderFromIntent_txId horder
      rw [hkey, p.uuid.parse_string, Except.ok.injEq] at hparse
      refine Or.inr ⟨marketId, rows, read, hanswer, hmem, hparse, ?_⟩
      rw [← htext, hkey, hparse]
  · intro hmakes
    rw [hprogram] at hmakes
    exact hmakes.1 hcarries

/-- What a task holds after an answer it held before, or the answer brought it. -/
theorem Task.Holds.answered {task : Task} {r : OrderRequest} {rest : r.Answer → OrderM Unit}
    {answer : r.Answer} (hprogram : task.program = .call r rest)
    (h : Task.Holds p txID txId ⟨task.kind, rest answer, task.answers ++ [⟨r, answer⟩]⟩) :
    task.Holds p txID txId ∨
      (∃ limit records record, (⟨r, answer⟩ : (r : OrderRequest) × r.Answer) =
          ⟨.pendingOrderOutbox limit, .ok records⟩ ∧ record ∈ records ∧
            Carries p record.payload txID txId) ∨
      ∃ marketId rows row, (⟨r, answer⟩ : (r : OrderRequest) × r.Answer) =
        ⟨.getAllOpenPredictionIntentsByMarketId marketId, .ok rows⟩ ∧ row ∈ rows ∧
          row.txID = txID := by
  have hpublishes : ¬task.program.Makes (NotPublishing p txID txId) := by
    intro hmakes
    rw [hprogram] at hmakes
    exact h.publishes (hmakes.2 answer)
  rcases h.read with ⟨limit, records, record, hmem, hrecord, hcarries⟩ |
    ⟨marketId, rows, row, hmem, hrow, hkey, htext⟩
  · rcases List.mem_append.mp hmem with hbefore | hnow
    · exact Or.inl ⟨Or.inl ⟨limit, records, record, hbefore, hrecord, hcarries⟩, hpublishes⟩
    · exact Or.inr (Or.inl ⟨limit, records, record, (List.mem_singleton.mp hnow).symm, hrecord,
        hcarries⟩)
  · rcases List.mem_append.mp hmem with hbefore | hnow
    · exact Or.inl ⟨Or.inr ⟨marketId, rows, row, hbefore, hrow, hkey, htext⟩, hpublishes⟩
    · exact Or.inr (Or.inr ⟨marketId, rows, row, (List.mem_singleton.mp hnow).symm, hrow, hkey⟩)

end Outstanding

end PrismBackend.Api
