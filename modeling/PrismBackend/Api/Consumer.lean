import PrismBackend.Lib.System
import PrismBackend.Api.Settleable

/-!
# API: the settlement consumer

Handlers that settle delivered matches, among everything that happens beside
them: orders are created, cancelled and kicked out, the network orders what it
was given, and a handler is lost at any point. A handler's request is served on
the state at that moment, and the answer says no more than that state allows.
-/

namespace PrismBackend.Api

open PrismBackend.Lib PrismBackend.Clob PrismBackend.PrismV2

/-! ## State -/

structure Network where
  c : Chain
  d : Deployment c

/-- A submission that a node has taken; its result is open until the network orders it. -/
structure Sent where
  txId : Str
  net : Str
  calldata : Bytes
  result : Option Bool

/-- A delivered match, what is left to do for it, and what was answered so far. -/
structure Handler where
  msg : ClobMatch
  program : SettleM Settlement
  answers : Answers

structure World where
  db : Db
  handlers : List Handler
  sent : List Sent
  history : Str → List Tx

inductive Label
  | deliver (m : ClobMatch)
  /- a request of a handler is answered, and its effect takes place or not -/
  | serve (i : Nat) (answer : (r : SettlementRequest) → r.Answer) (commit : Bool)
  /- a handler has returned, or is lost -/
  | stop (i : Nat)
  /- the network orders a submission -/
  | order (k : Nat) (env : Env)
  /- a transaction of someone else -/
  | external (net : Str) (tx : Tx)
  | createOrder (row : PredictionIntent)
  | cancel (txID : Uint128)
  | evict (txID : Uint128)
  | fullyMatched (marketID txID : Uint128)
  | markets (rows : Table MarketRow Uint128 fun row => row.marketID)

section Steps

variable (p : Platform) (nets : Str → Network)

def World.contract (w : World) (net : Str) : State :=
  run (nets net).c (nets net).d.state (w.history net)

/-! ## Effects and answers -/

def World.effect (w : World) : (r : SettlementRequest) → r.Answer → World
  | .createMatchV2 record, _ => { w with db := (w.db.createMatchV2 record).1 }
  | .markMatchFailed matchID cause, _ => { w with db := w.db.markMatchFailed matchID cause }
  | .execute net _ calldata, answer =>
    { w with sent := w.sent ++ [⟨answer.toOption.getD [], net, calldata, none⟩] }
  | .markMatchSubmitted matchID hederaTxID, _ =>
    { w with db := w.db.markMatchSubmitted matchID hederaTxID }
  | .finalizeMatchV2 record txHash, _ =>
    { w with db := ((w.db.finalizeMatchV2 p.uuid record txHash).toOption.map Prod.fst).getD w.db }
  | _, _ => w

/-- What an answer may say: a row that was read is the row, a mirror node may lag behind but
knows no match that was not executed, and an error may come with or without the effect. -/
def World.Honest (w : World) : (r : SettlementRequest) → r.Answer → Bool → Prop
  | .getPredictionIntentByTxId txId, .ok row, _ =>
    w.db.getPredictionIntentByTxId p.uuid txId = .ok row
  | .getMarketById marketId, .ok row, _ => w.db.getMarketById p.uuid marketId true = .ok row
  | .createMatchV2 record, .ok row, commit => commit = true ∧ row = (w.db.createMatchV2 record).2
  | .isMatchExecutedV2 net _ matchID, .ok true, _ =>
    (w.contract nets net).executedMatches matchID = true
  | .markMatchFailed _ _, .ok _, commit => commit = true
  | .execute _ _ _, .ok txId, commit => commit = true ∧ ∀ s ∈ w.sent, s.txId ≠ txId
  | .markMatchSubmitted _ _, .ok _, commit => commit = true
  | .getReceipt txId, .ok status, _ =>
    status = receiptSuccess → ∃ s ∈ w.sent, s.txId = txId ∧ s.result = some true
  | .finalizeMatchV2 record txHash, .ok applied, commit =>
    commit = true ∧ ∃ db, w.db.finalizeMatchV2 p.uuid record txHash = .ok (db, applied)
  | _, _, _ => True

/-! ## Steps -/

def World.serve (w : World) (i : Nat) (answer : (r : SettlementRequest) → r.Answer)
    (commit : Bool) : World :=
  match w.handlers[i]? with
  | none => w
  | some h =>
    match h.program with
    | .ret _ => w
    | .call r rest =>
      let handler : Handler := ⟨h.msg, rest (answer r), h.answers ++ [⟨r, answer r⟩]⟩
      { (if commit then w.effect p r (answer r) else w) with
        handlers := w.handlers.set i handler }

/-- The network runs a submission, unless it has a result already or is no call of `settle`. -/
def World.order (w : World) (k : Nat) (env : Env) : World :=
  match w.sent[k]? with
  | none => w
  | some s =>
    match s.result, decodeSettle p.keccak256 s.calldata with
    | none, some call =>
      let succeeded := (exec (nets s.net).c ⟨env, call⟩ (w.contract nets s.net)).toOption.isSome
      { w with
        sent := w.sent.set k { s with result := some succeeded }
        history := Function.update w.history s.net (w.history s.net ++ [⟨env, call⟩]) }
    | none, none => { w with sent := w.sent.set k { s with result := some false } }
    | some _, _ => w

def World.next (w : World) : Label → World
  | .deliver m => { w with handlers := w.handlers ++ [⟨m, settleMatchV2 p m, []⟩] }
  | .serve i answer commit => w.serve p i answer commit
  | .stop i => { w with handlers := w.handlers.eraseIdx i }
  | .order k env => w.order p nets k env
  | .external net tx =>
    { w with history := Function.update w.history net (w.history net ++ [tx]) }
  | .createOrder row => { w with db := { w.db with intents := w.db.intents.insert row } }
  | .cancel txID => { w with db := w.db.cancelPredictionIntent txID }
  | .evict txID => { w with db := w.db.markPredictionIntentAsEvicted txID }
  | .fullyMatched marketID txID =>
    { w with db := w.db.markPredictionIntentAsFullyMatched marketID txID }
  | .markets rows => { w with db := { w.db with markets := rows } }

def Call.isSettle : Call → Prop
  | .settle _ _ _ _ _ _ _ => True
  | _ => False

/-- What can happen: messages hold words, answers are honest, only the API's key settles, and a
new row keeps the table's constraints and starts unfilled. -/
def World.Allowed (w : World) : Label → Prop
  | .deliver m => m.fillShares < 2 ^ 64
  | .serve i answer commit => ∀ h r rest, w.handlers[i]? = some h → h.program = .call r rest →
    w.Honest p nets r (answer r) commit
  | .external _ tx => ¬Call.isSettle tx.call
  | .createOrder row => Stored row ∧ row.sharesFilled = 0 ∧ row.collateralFilled = 0
  | _ => True

def consumer : System World Label where
  next := World.next p nets
  Allowed := World.Allowed p nets

def World.run (w : World) (ls : List Label) : World := (consumer p nets).run w ls

def World.Runs (condition : World → Label → Prop) (w : World) (ls : List Label) : Prop :=
  (consumer p nets).Runs condition w ls

end Steps

section Runs

variable {p : Platform} {nets : Str → Network}

@[simp] theorem World.run_cons (w : World) (l : Label) (ls : List Label) :
    w.run p nets (l :: ls) = (w.next p nets l).run p nets ls := rfl

variable (p nets) in
theorem World.run_append (w : World) (ls ls' : List Label) :
    w.run p nets (ls ++ ls') = (w.run p nets ls).run p nets ls' := System.run_append w ls ls'

theorem World.runs_append {condition : World → Label → Prop} {w : World} {ls ls' : List Label} :
    w.Runs p nets condition (ls ++ ls') ↔
      w.Runs p nets condition ls ∧ (w.run p nets ls).Runs p nets condition ls' :=
  System.runs_append

/-! ## Handlers -/

theorem World.order_handlers (w : World) (k : Nat) (env : Env) :
    (w.order p nets k env).handlers = w.handlers := by
  unfold World.order
  split
  · rfl
  · split <;> rfl

theorem World.order_db (w : World) (k : Nat) (env : Env) : (w.order p nets k env).db = w.db := by
  unfold World.order
  split
  · rfl
  · split <;> rfl

/-- Where a handler comes from: it was there, it was just delivered, or one of its requests was
just answered. -/
theorem World.mem_handlers_next {w : World} {l : Label} {h' : Handler}
    (h : h' ∈ (w.next p nets l).handlers) :
    h' ∈ w.handlers ∨ (∃ m, l = .deliver m ∧ h' = ⟨m, settleMatchV2 p m, []⟩) ∨
      ∃ i answer commit handler r rest, l = .serve i answer commit ∧
        w.handlers[i]? = some handler ∧ handler.program = .call r rest ∧
        h' = ⟨handler.msg, rest (answer r), handler.answers ++ [⟨r, answer r⟩]⟩ := by
  cases l with
  | deliver m =>
      rcases List.mem_append.mp h with h | h
      · exact Or.inl h
      · exact Or.inr (Or.inl ⟨m, rfl, List.mem_singleton.mp h⟩)
  | serve i answer commit =>
      simp only [World.next, World.serve] at h
      split at h
      · exact Or.inl h
      next handler hhandler =>
      split at h
      · exact Or.inl h
      next r rest hprogram =>
      rcases List.mem_or_eq_of_mem_set h with h | h
      · exact Or.inl h
      · exact Or.inr (Or.inr ⟨i, answer, commit, handler, r, rest, rfl, hhandler, hprogram, h⟩)
  | stop i => exact Or.inl (List.mem_of_mem_eraseIdx h)
  | order k env =>
      rw [World.next, World.order_handlers] at h
      exact Or.inl h
  | external net tx => exact Or.inl h
  | createOrder row => exact Or.inl h
  | cancel txID => exact Or.inl h
  | evict txID => exact Or.inl h
  | fullyMatched marketID txID => exact Or.inl h
  | markets rows => exact Or.inl h

/-- What a handler was answered by a step's end was answered before, or honestly by the step. -/
theorem World.answered_next {w : World} {l : Label} {h' : Handler}
    (hmem : h' ∈ (w.next p nets l).handlers) (hallowed : w.Allowed p nets l)
    {r : SettlementRequest} {a : r.Answer} (ha : ⟨r, a⟩ ∈ h'.answers) :
    (∃ h ∈ w.handlers, ⟨r, a⟩ ∈ h.answers ∧
        ∀ P : SettlementRequest → Prop, h.program.Makes P → h'.program.Makes P) ∨
      ∃ i answer commit, l = .serve i answer commit ∧ w.Honest p nets r a commit := by
  rcases World.mem_handlers_next hmem with hold | ⟨m, rfl, rfl⟩ |
    ⟨i, answer, commit, handler, r', rest, rfl, hhandler, hprogram, rfl⟩
  · exact Or.inl ⟨h', hold, ha, fun _ => id⟩
  · exact absurd ha List.not_mem_nil
  · rcases List.mem_append.mp ha with hbefore | hnew
    · refine Or.inl ⟨handler, List.mem_of_getElem? hhandler, hbefore, ?_⟩
      intro P hmakes
      rw [hprogram] at hmakes
      exact hmakes.2 (answer r')
    · have hanswer := List.mem_singleton.mp hnew
      have hhonest := hallowed handler r' rest hhandler hprogram
      rw [Sigma.mk.injEq] at hanswer
      obtain ⟨rfl, hanswer⟩ := hanswer
      rw [← eq_of_heq hanswer] at hhonest
      exact Or.inr ⟨i, answer, commit, rfl, hhonest⟩

def World.OnPath (p : Platform) (w : World) : Prop :=
  ∀ h ∈ w.handlers, (settleMatchV2 p h.msg).Path h.answers h.program ∧ h.msg.fillShares < 2 ^ 64

theorem World.OnPath.next {w : World} (hw : w.OnPath p) {l : Label}
    (hallowed : w.Allowed p nets l) : (w.next p nets l).OnPath p := by
  intro h' hmem
  rcases World.mem_handlers_next hmem with hold | ⟨m, rfl, rfl⟩ |
    ⟨i, answer, commit, handler, r, rest, rfl, hhandler, hprogram, rfl⟩
  · exact hw h' hold
  · exact ⟨.nil _, hallowed⟩
  · obtain ⟨hpath, hfill⟩ := hw handler (List.mem_of_getElem? hhandler)
    rw [hprogram] at hpath
    exact ⟨hpath.concat (answer r), hfill⟩

/-! ## Rows -/

/-- What a request does to an order is at most a fill. -/
theorem World.effect_find (w : World) (r : SettlementRequest) (answer : r.Answer) (k : Uint128) :
    ∃ g, (w.effect p r answer).db.intents.find k = (w.db.intents.find k).map g ∧
      ∀ row : PredictionIntent, row.FilledFrom (g row) := by
  have hsame : ∃ g, w.db.intents.find k = (w.db.intents.find k).map g ∧
      ∀ row : PredictionIntent, row.FilledFrom (g row) :=
    ⟨id, by simp, fun _ => ⟨rfl, rfl, rfl⟩⟩
  cases r with
  | createMatchV2 record =>
      simp only [World.effect, Db.createMatchV2]
      split
      · exact hsame
      · exact hsame
  | finalizeMatchV2 record txHash =>
      simp only [World.effect]
      cases h : w.db.finalizeMatchV2 p.uuid record txHash with
      | error err => exact hsame
      | ok applied => exact Db.finalizeMatchV2_find h k
  | _ => exact hsame

/-- What a step makes of a row. Marks are set by their own labels only, and stay. -/
structure RowStep (l : Label) (row row' : PredictionIntent) : Prop where
  terms : row'.toOrderTerms = row.toOrderTerms
  cancelled : row'.cancelledAt = true → row.cancelledAt = true ∨ l = .cancel row.txID
  evicted : row'.evictedAt = true → row.evictedAt = true ∨ l = .evict row.txID
  cancelledStays : row.cancelledAt = true → row'.cancelledAt = true
  evictedStays : row.evictedAt = true → row'.evictedAt = true

theorem RowStep.of_filledFrom {l : Label} {row row' : PredictionIntent}
    (h : row.FilledFrom row') : RowStep l row row' := by
  refine ⟨h.terms, ?_, ?_, ?_, ?_⟩
  · intro hmark
    exact Or.inl (h.cancelledAt ▸ hmark)
  · intro hmark
    exact Or.inl (h.evictedAt ▸ hmark)
  · intro hmark
    exact h.cancelledAt.trans hmark
  · intro hmark
    exact h.evictedAt.trans hmark

variable (p) in
theorem World.serve_find (w : World) (i : Nat) (answer : (r : SettlementRequest) → r.Answer)
    (commit : Bool) (k : Uint128) :
    ∃ g, (w.serve p i answer commit).db.intents.find k = (w.db.intents.find k).map g ∧
      ∀ row : PredictionIntent, row.FilledFrom (g row) := by
  have hsame : ∃ g, w.db.intents.find k = (w.db.intents.find k).map g ∧
      ∀ row : PredictionIntent, row.FilledFrom (g row) :=
    ⟨id, by simp, fun _ => ⟨rfl, rfl, rfl⟩⟩
  unfold World.serve
  split
  · exact hsame
  split
  · exact hsame
  next r rest _ =>
  cases commit with
  | false => exact hsame
  | true => exact w.effect_find r (answer r) k

variable (p nets) in
theorem World.next_find (w : World) {l : Label} (hl : ∀ row, l ≠ .createOrder row) (k : Uint128) :
    ∃ g, (w.next p nets l).db.intents.find k = (w.db.intents.find k).map g ∧
      ∀ row : PredictionIntent, row.txID = k → RowStep l row (g row) := by
  have hfilled {g : PredictionIntent → PredictionIntent} (hg : ∀ r, r.FilledFrom (g r))
      (row : PredictionIntent) (_ : row.txID = k) : RowStep l row (g row) := .of_filledFrom (hg row)
  have hsame : ∃ g, w.db.intents.find k = (w.db.intents.find k).map g ∧
      ∀ row : PredictionIntent, row.txID = k → RowStep l row (g row) :=
    ⟨id, by simp, hfilled fun _ => ⟨rfl, rfl, rfl⟩⟩
  cases l with
  | createOrder row => exact absurd rfl (hl row)
  | serve i answer commit =>
      obtain ⟨g, hg, hrow⟩ := w.serve_find p i answer commit k
      exact ⟨g, hg, hfilled hrow⟩
  | order j env =>
      rw [World.next, World.order_db]
      exact hsame
  | cancel txID =>
      refine ⟨fun row => if k = txID then { row with
        cancelledAt := row.cancelledAt || (!row.fullyMatchedAt && !row.evictedAt) } else row,
        Table.find_modify_map (fun _ => by rfl) k, ?_⟩
      intro row hkey
      dsimp only
      split
      · next heq =>
        refine ⟨rfl, fun _ => Or.inr (by rw [hkey, heq]), Or.inl, ?_, id⟩
        intro hmark
        simp [hmark]
      · exact .of_filledFrom ⟨rfl, rfl, rfl⟩
  | evict txID =>
      refine ⟨fun row => if k = txID then { row with evictedAt := true } else row,
        Table.find_modify_map (fun _ => by rfl) k, ?_⟩
      intro row hkey
      dsimp only
      split
      · next heq => exact ⟨rfl, Or.inl, fun _ => Or.inr (by rw [hkey, heq]), id, fun _ => rfl⟩
      · exact .of_filledFrom ⟨rfl, rfl, rfl⟩
  | fullyMatched marketID txID =>
      refine ⟨fun row => if k = txID then { row with
        fullyMatchedAt := row.fullyMatchedAt || row.marketID == marketID } else row,
        Table.find_modify_map (fun _ => by rfl) k, ?_⟩
      intro row hkey
      dsimp only
      split
      · exact .of_filledFrom ⟨rfl, rfl, rfl⟩
      · exact .of_filledFrom ⟨rfl, rfl, rfl⟩
  | _ => exact hsame

variable (p nets) in
theorem World.find_next (w : World) (l : Label) {k : Uint128} {row : PredictionIntent}
    (h : w.db.intents.find k = some row) :
    ∃ row', (w.next p nets l).db.intents.find k = some row' ∧ RowStep l row row' := by
  by_cases hl : ∀ created, l ≠ .createOrder created
  · obtain ⟨g, hg, hrow⟩ := w.next_find p nets hl k
    refine ⟨g row, ?_, hrow row (Table.find_eq_some.mp h).2⟩
    rw [hg, h, Option.map_some]
  · obtain ⟨created, hcreated⟩ := not_forall.mp hl
    rw [not_not.mp hcreated]
    exact ⟨row, Table.find_insert h, .of_filledFrom ⟨rfl, rfl, rfl⟩⟩

theorem World.find_next_new (w : World) {l : Label} {k : Uint128} {row : PredictionIntent}
    (h : w.db.intents.find k = none)
    (hrow : (w.next p nets l).db.intents.find k = some row) : l = .createOrder row := by
  by_cases hl : ∀ created, l ≠ .createOrder created
  · obtain ⟨g, hg, _⟩ := w.next_find p nets hl k
    rw [hg, h] at hrow
    exact absurd hrow (by simp)
  · obtain ⟨created, hcreated⟩ := not_forall.mp hl
    rw [not_not.mp hcreated] at hrow ⊢
    have hfound : (w.db.intents.insert created).find k = some row := hrow
    by_cases hkey : created.txID = k
    · subst hkey
      rw [Table.find_insert_self h, Option.some.injEq] at hfound
      rw [hfound]
    · have hother : (w.db.intents.insert created).find k = w.db.intents.find k :=
        Table.find_insert_of_ne hkey
      rw [hother, h] at hfound
      exact absurd hfound (by simp)

def World.Stored (w : World) : Prop := ∀ row ∈ w.db.intents.rows, Api.Stored row

theorem World.Stored.next {w : World} (hw : w.Stored) {l : Label} (hallowed : w.Allowed p nets l) :
    (w.next p nets l).Stored := by
  intro row' hmem
  have hfind := Table.find_key hmem
  cases h : w.db.intents.find row'.txID with
  | none =>
      have hl := w.find_next_new h hfind
      subst hl
      exact hallowed.1
  | some row =>
      obtain ⟨row'', hrow'', hstep⟩ := w.find_next p nets l h
      rw [hfind, Option.some.injEq] at hrow''
      subst hrow''
      obtain ⟨haddress, hdeadline⟩ := hw row (Table.find_eq_some.mp h).1
      refine ⟨?_, ?_⟩
      · rw [hstep.terms]
        exact haddress
      · rw [hstep.terms]
        exact hdeadline

theorem World.find_run (w : World) (ls : List Label) {k : Uint128} {row : PredictionIntent}
    (h : w.db.intents.find k = some row) :
    ∃ row', (w.run p nets ls).db.intents.find k = some row' ∧
      row'.toOrderTerms = row.toOrderTerms := by
  induction ls generalizing w row with
  | nil => exact ⟨row, h, rfl⟩
  | cons l ls ih =>
      obtain ⟨row', hrow', hstep⟩ := w.find_next p nets l h
      obtain ⟨row'', hrow'', hterms⟩ := ih (w.next p nets l) hrow'
      exact ⟨row'', hrow'', hterms.trans hstep.terms⟩

/-! ## Prompt answers -/

/-- Answers from the state itself, by a mirror node that knows of no execution and a network that
is busy. -/
def World.reply (p : Platform) (w : World) : (r : SettlementRequest) → r.Answer
  | .getPredictionIntentByTxId txId => w.db.getPredictionIntentByTxId p.uuid txId
  | .getMarketById marketId => w.db.getMarketById p.uuid marketId true
  | .createMatchV2 record => .ok (w.db.createMatchV2 record).2
  | .isMatchExecutedV2 _ _ _ => .ok false
  | .markMatchFailed _ _ => .ok ()
  | .now => 20
  | .execute _ _ _ => .error "busy"
  | .markMatchSubmitted _ _ => .ok ()
  | .getReceipt _ => .error "lost"
  | .finalizeMatchV2 _ _ => .error "busy"

theorem World.reply_honest (w : World) (r : SettlementRequest) :
    w.Honest p nets r (w.reply p r) true := by
  cases r with
  | getPredictionIntentByTxId txId =>
      simp only [World.reply]
      cases h : w.db.getPredictionIntentByTxId p.uuid txId with
      | error err => trivial
      | ok row => exact h
  | getMarketById marketId =>
      simp only [World.reply]
      cases h : w.db.getMarketById p.uuid marketId true with
      | error err => trivial
      | ok row => exact h
  | createMatchV2 record => exact ⟨rfl, rfl⟩
  | markMatchFailed matchID cause => exact rfl
  | markMatchSubmitted matchID hederaTxID => exact rfl
  | _ => trivial

def World.replies (p : Platform) (nets : Str → Network) : Nat → World → List Label
  | 0, _ => []
  | count + 1, w =>
    let l := .serve 0 (w.reply p) true
    l :: World.replies p nets count (w.next p nets l)

theorem World.effect_history (w : World) (r : SettlementRequest) (answer : r.Answer) :
    (w.effect p r answer).history = w.history := by
  cases r <;> rfl

theorem World.serve_history (w : World) (i : Nat) (answer : (r : SettlementRequest) → r.Answer)
    (commit : Bool) : (w.serve p i answer commit).history = w.history := by
  unfold World.serve
  split
  · rfl
  split
  · rfl
  next r rest _ =>
  cases commit with
  | false => rfl
  | true => exact w.effect_history r (answer r)

theorem World.replies_history (w : World) (count : Nat) :
    (w.run p nets (World.replies p nets count w)).history = w.history := by
  induction count generalizing w with
  | zero => rfl
  | succ count ih => exact (ih _).trans (w.serve_history 0 (w.reply p) true)

theorem World.runs_replies {condition : World → Label → Prop} {w : World}
    (h : ∀ w' : World, w'.history = w.history → condition w' (.serve 0 (w'.reply p) true))
    (count : Nat) : w.Runs p nets condition (World.replies p nets count w) := by
  induction count generalizing w with
  | zero => trivial
  | succ count ih =>
      refine ⟨fun h r rest _ _ => w.reply_honest r, h w rfl, ih ?_⟩
      intro w' hw'
      exact h w' (hw'.trans (w.serve_history 0 (w.reply p) true))

end Runs

end PrismBackend.Api
