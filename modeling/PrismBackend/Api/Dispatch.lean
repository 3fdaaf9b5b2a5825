import PrismBackend.Lib.Entries
import PrismBackend.Api.FillBookkeeping
import PrismBackend.Api.Finalization

/-!
# API: submissions and what is known of them

What an answer has said stays true, whatever happens afterwards; and every
settlement that the contract ran is a submission of a prepared match.
-/

namespace PrismBackend.Api

open PrismBackend.Lib PrismBackend.Clob PrismBackend.PrismV2

section Dispatch

variable (p : Platform) (nets : Str → Network)

def World.Holds (w : World) (row : PredictionIntent) : Prop :=
  ∃ row', w.db.intents.find row.txID = some row' ∧ row'.toOrderTerms = row.toOrderTerms

/-- A submission that may have got its result in the meantime. -/
structure Sent.Became (s s' : Sent) : Prop where
  txId : s'.txId = s.txId
  net : s'.net = s.net
  calldata : s'.calldata = s.calldata
  kept : s.result = some true → s'.result = some true

/-- A world that came after another one has forgotten nothing. -/
structure World.Later (w w' : World) : Prop where
  executed : ∀ net matchID, (w.contract nets net).executedMatches matchID = true →
    (w'.contract nets net).executedMatches matchID = true
  recorded : ∀ id row, w.db.matches_.find id = some row →
    ∃ row', w'.db.matches_.find id = some row' ∧ row'.toMatchTerms = row.toMatchTerms
  sent : ∀ s ∈ w.sent, ∃ s' ∈ w'.sent, s.Became s'
  holds : ∀ row : PredictionIntent, w.Holds row → w'.Holds row

def World.Says (w : World) : (r : SettlementRequest) → r.Answer → Prop
  | .createMatchV2 record, .ok _ => ∃ row, w.db.matches_.find record.matchID = some row
  | .isMatchExecutedV2 net _ matchID, .ok true =>
    (w.contract nets net).executedMatches matchID = true
  | .execute net _ calldata, .ok txId => txId ≠ [] ∧
    ∃ s ∈ w.sent, s.txId = txId ∧ s.net = net ∧ s.calldata = calldata
  | .getReceipt txId, .ok status => status = receiptSuccess →
    ∃ s ∈ w.sent, s.txId = txId ∧ s.result = some true
  | _, _ => True

def World.Informed (w : World) : Prop :=
  ∀ h ∈ w.handlers, ∀ r a, ⟨r, a⟩ ∈ h.answers → w.Says nets r a

/-- Messages are of the given ones, and what the network has taken has a name. -/
def Label.Of (messages : Set ClobMatch) : Label → Prop
  | .deliver m => m ∈ messages
  | .serve _ answer _ => ∀ net contractID calldata,
    answer (.execute net contractID calldata) ≠ .ok []
  | _ => True

/-- The match was prepared from one of the messages and the rows of its orders. -/
def World.Prepares (messages : Set ClobMatch) (w : World) (q : Prepared) : Prop :=
  ∃ m ∈ messages, ∃ bid ask, PreparedOf p m bid ask q ∧ Api.Stored q.bidRow ∧ Api.Stored q.askRow ∧
    w.Holds q.bidRow ∧ w.Holds q.askRow

/-- The handlers are on their paths, and know what they were told. -/
structure World.Tracks (messages : Set ClobMatch) (w : World) : Prop where
  sane : w.Sane p
  read : w.ReadTerms p
  delivered : ∀ h ∈ w.handlers, h.msg ∈ messages
  informed : w.Informed nets

structure World.Dispatched (messages : Set ClobMatch) (w : World) : Prop where
  /- a name is the name of one submission -/
  named : ∀ s ∈ w.sent, ∀ s' ∈ w.sent, s.txId = s'.txId → s.txId ≠ [] →
    s.net = s'.net ∧ s.calldata = s'.calldata
  /- a submission is of a prepared match that is recorded -/
  origin : ∀ s ∈ w.sent, ∃ q, w.Prepares p messages q ∧ s.net = q.cfg.net ∧
    q.calldata p = .ok s.calldata ∧ ∃ row, w.db.matches_.find q.record.matchID = some row
  /- one that succeeded has executed its match -/
  ran : ∀ s ∈ w.sent, s.result = some true → ∃ call matchID,
    decodeSettle p.keccak256 s.calldata = some call ∧ call.matchIdOf = some matchID ∧
    (w.contract nets s.net).executedMatches matchID = true
  /- and the contract runs nothing else that settles -/
  history : ∀ net, ∀ tx ∈ w.history net, Call.isSettle tx.call →
    ∃ s ∈ w.sent, s.net = net ∧ decodeSettle p.keccak256 s.calldata = some tx.call

end Dispatch

/-! ## Receipts -/

theorem books_executed_iff {c : Chain} {env : Env} {s s' : State} {call : Call}
    (h : Books c env s s' call) {matchId : Bytes32} : s'.executedMatches matchId = true ↔
      s.executedMatches matchId = true ∨ call.matchIdOf = some matchId := by
  cases h with
  | other _ hnone _ _ hsame =>
      rw [hsame, hnone]
      simp
  | @settle _ _ _ _ _ _ settled _ _ _ hsame _ =>
      rw [hsame, Function.update_apply, Call.matchIdOf, Option.some.injEq]
      by_cases heq : matchId = settled
      · subst heq
        simp
      · rw [if_neg heq]
        simp [Ne.symm heq]

/-- A match is executed after a run if it was before, or if the run has a receipt of it. -/
theorem run_executed_iff {c : Chain} {s : State} {txs : List Tx} {matchId : Bytes32} :
    (PrismV2.run c s txs).executedMatches matchId = true ↔
      s.executedMatches matchId = true ∨ matchId ∈ matchIdsOf (trace c s txs) := by
  induction txs generalizing s with
  | nil => simp [trace, matchIdsOf]
  | cons tx txs ih =>
      cases hexec : exec c tx s with
      | error err => rw [PrismV2.run_cons, apply_error hexec, trace_cons_error hexec, ih]
      | ok r =>
          rw [PrismV2.run_cons, apply_ok hexec, trace_cons_ok hexec, ih,
            books_executed_iff (effect_books (exec_effect hexec)), or_assoc]
          simp only [matchIdsOf, List.filterMap_cons]
          cases hmatch : tx.call.matchIdOf with
          | none => simp
          | some settled =>
              rw [List.mem_cons, Option.some.injEq]
              exact or_congr_right (or_congr_left eq_comm)

theorem deployment_executed {c : Chain} (d : Deployment c) (matchId : Bytes32) :
    d.state.executedMatches matchId = false := by
  obtain ⟨_, _, _, _, _, _, _, hstate⟩ :=
    (initialize_ok_iff _ _ _ _ _ _ _ _ _).mp d.initialized
  rw [hstate]
  rfl

/-! ## Rows of matches -/

/-- What may become of the row of a match: its terms, its attempts and its finalization stay. -/
structure Match.Became (row row' : Match) : Prop where
  terms : row'.toMatchTerms = row.toMatchTerms
  attempts : row.attempts ≤ row'.attempts
  finalized : row.status = .finalized → row'.status = .finalized

theorem Match.Became.refl (row : Match) : row.Became row := ⟨rfl, le_rfl, id⟩

def KeepsMatches (db db' : Db) : Prop :=
  ∀ id row, db.matches_.find id = some row →
    ∃ row', db'.matches_.find id = some row' ∧ row.Became row'

theorem KeepsMatches.of_eq {db db' : Db} (h : db'.matches_ = db.matches_) :
    KeepsMatches db db' := by
  intro id row hrow
  rw [h]
  exact ⟨row, hrow, .refl row⟩

theorem keepsMatches_create (db : Db) (record : MatchV2) :
    KeepsMatches db (db.createMatchV2 record).1 := by
  unfold Db.createMatchV2
  intro id row hrow
  split
  · exact ⟨row, hrow, .refl row⟩
  · exact ⟨row, Table.find_insert hrow, .refl row⟩

theorem Db.createMatchV2_find (db : Db) (record : MatchV2) :
    ∃ row, (db.createMatchV2 record).1.matches_.find record.matchID = some row := by
  unfold Db.createMatchV2
  split
  · next row hrow => exact ⟨row, hrow⟩
  · next hnone =>
      have hnew : db.matches_.find record.row.matchID = none := hnone
      exact ⟨record.row, Table.find_insert_self hnew⟩

theorem keepsMatches_update (db : Db) (matchID : Str) (f : Match → Match)
    (hf : ∀ row, (f row).matchID = row.matchID)
    (hterms : ∀ row : Match, (f row).toMatchTerms = row.toMatchTerms)
    (hattempts : ∀ row, row.attempts ≤ (f row).attempts) :
    KeepsMatches db (db.updateMatch matchID f hf) := by
  intro id row hrow
  rw [Db.updateMatch_find, hrow, Option.map_some]
  refine ⟨_, rfl, ?_⟩
  by_cases hid : id = matchID
  · rw [if_pos hid]
    split
    · exact .refl row
    · next hopen => exact ⟨hterms row, hattempts row, fun hfinal => absurd hfinal hopen⟩
  · rw [if_neg hid]
    exact .refl row

/-- A finalization changes the rows of matches in one status only. -/
theorem Db.finalizeMatchV2_matches {db db' : Db} {uuid : Uuid} {record : MatchV2} {txHash : Str}
    {applied : Bool} (h : db.finalizeMatchV2 uuid record txHash = .ok (db', applied)) :
    db'.matches_ = db.matches_ ∨
      db'.matches_ = (db.finalizeMatch record.matchID txHash).matches_ := by
  rcases Db.finalizeMatchV2_ok h with ⟨_, rfl⟩ | ⟨_, _, _, _, _, hbid, hask⟩
  · exact Or.inl rfl
  · right
    obtain ⟨_, _, _, _, rfl⟩ := Db.addPredictionIntentFill_ok hask
    obtain ⟨_, _, _, _, rfl⟩ := Db.addPredictionIntentFill_ok hbid
    rfl

/-! ## Steps -/

/-- What becomes of a match that is not finalized, by the request that marks it. -/
def failedMatch (cause : String) (row : Match) : Match :=
  { row with
    status := .failed
    lastError := some cause }

def submittedMatch (txHash : Str) (row : Match) : Match :=
  { row with
    status := .submitted
    attempts := row.attempts + 1
    lastError := none
    txHash }

def finalizedMatch (txHash : Str) (row : Match) : Match :=
  { row with
    status := .finalized
    txHash
    lastError := none }

section Steps

variable {p : Platform} {nets : Str → Network}

theorem World.effect_keepsMatches (w : World) (r : SettlementRequest) (answer : r.Answer) :
    KeepsMatches w.db (w.effect p r answer).db := by
  cases r with
  | createMatchV2 record => exact keepsMatches_create w.db record
  | markMatchFailed matchID cause =>
      exact keepsMatches_update w.db matchID (failedMatch cause) (fun _ => rfl) (fun _ => rfl)
        fun _ => le_rfl
  | markMatchSubmitted matchID hederaTxID =>
      exact keepsMatches_update w.db matchID (submittedMatch hederaTxID) (fun _ => rfl)
        (fun _ => rfl) fun _ => Nat.le_succ _
  | finalizeMatchV2 record txHash =>
      simp only [World.effect]
      cases h : w.db.finalizeMatchV2 p.uuid record txHash with
      | error err => exact .of_eq rfl
      | ok result =>
          rcases Db.finalizeMatchV2_matches h with hsame | hfinal
          · exact .of_eq hsame
          · have hkeeps : KeepsMatches w.db (w.db.finalizeMatch record.matchID txHash) :=
              keepsMatches_update w.db record.matchID (finalizedMatch txHash) (fun _ => rfl)
                (fun _ => rfl) fun _ => le_rfl
            intro id row hrow
            obtain ⟨row', hrow', hbecame⟩ := hkeeps id row hrow
            refine ⟨row', ?_, hbecame⟩
            show result.1.matches_.find id = some row'
            rw [hfinal]
            exact hrow'
  | _ => exact .of_eq rfl

variable (p nets) in
theorem World.next_keepsMatches (w : World) (l : Label) :
    KeepsMatches w.db (w.next p nets l).db := by
  cases l with
  | serve i answer commit =>
      simp only [World.next, World.serve]
      split
      · exact .of_eq rfl
      split
      · exact .of_eq rfl
      next r rest _ =>
      cases commit with
      | false => exact .of_eq rfl
      | true => exact w.effect_keepsMatches r (answer r)
  | order k env =>
      rw [World.next, World.order_db]
      exact .of_eq rfl
  | _ => exact .of_eq rfl

variable (p nets) in
theorem World.history_next (w : World) (l : Label) (net : Str) :
    ∃ txs, (w.next p nets l).history net = w.history net ++ txs := by
  have hupdate (net' : Str) (tx : Tx) : ∃ txs,
      Function.update w.history net' (w.history net' ++ [tx]) net = w.history net ++ txs := by
    by_cases heq : net = net'
    · subst heq
      exact ⟨[tx], Function.update_self ..⟩
    · exact ⟨[], by rw [Function.update_of_ne heq, List.append_nil]⟩
  have hsame : ∃ txs, w.history net = w.history net ++ txs := ⟨[], (List.append_nil _).symm⟩
  cases l with
  | serve i answer commit =>
      rw [World.next, World.serve_history]
      exact hsame
  | order k env =>
      simp only [World.next, World.order]
      split
      · exact hsame
      · split
        · exact hupdate _ _
        · exact hsame
        · exact hsame
  | external net' tx => exact hupdate net' tx
  | _ => exact hsame

variable (p nets) in
theorem World.executed_next (w : World) (l : Label) {net : Str} {matchID : Bytes32}
    (h : (w.contract nets net).executedMatches matchID = true) :
    ((w.next p nets l).contract nets net).executedMatches matchID = true := by
  obtain ⟨txs, htxs⟩ := w.history_next p nets l net
  unfold World.contract
  rw [htxs, PrismV2.run_append]
  exact run_executed_iff.mpr (Or.inl h)

structure World.Orders (p : Platform) (nets : Str → Network) (w : World) (k : Nat) (env : Env)
    (s s' : Sent) : Prop where
  sent : w.sent[k]? = some s
  pending : s.result = none
  became : s.Became s'
  succeeded : s'.result = some true → ∃ call r, decodeSettle p.keccak256 s.calldata = some call ∧
    exec (nets s.net).c ⟨env, call⟩ (w.contract nets s.net) = .ok r ∧
    (w.next p nets (.order k env)).history s.net = w.history s.net ++ [⟨env, call⟩]

/-- A handler hands a settlement to the network. -/
structure World.Hands (w : World) (i : Nat) (answer : (r : SettlementRequest) → r.Answer)
    (s : Sent) : Prop where
  handed : ∃ handler contractID rest, w.handlers[i]? = some handler ∧
    handler.program = .call (.execute s.net contractID s.calldata) rest ∧
    s.txId = (answer (.execute s.net contractID s.calldata)).toOption.getD []
  pending : s.result = none

/-- Where a submission comes from: it was there, perhaps without its result, or a handler has
just made it. -/
theorem World.mem_sent_next {w : World} {l : Label} {s' : Sent}
    (h : s' ∈ (w.next p nets l).sent) :
    s' ∈ w.sent ∨ (∃ k env s, l = .order k env ∧ w.Orders p nets k env s s') ∨
      ∃ i answer, l = .serve i answer true ∧ w.Hands i answer s' := by
  cases l with
  | serve i answer commit =>
      simp only [World.next, World.serve] at h
      split at h
      · exact Or.inl h
      next handler hhandler =>
      split at h
      · exact Or.inl h
      next r rest hprogram =>
      cases commit with
      | false => exact Or.inl h
      | true =>
          cases r with
          | execute net contractID calldata =>
              rcases List.mem_append.mp h with hold | hnew
              · exact Or.inl hold
              · refine Or.inr (Or.inr ⟨i, answer, rfl, ?_⟩)
                rw [List.mem_singleton.mp hnew]
                exact ⟨⟨handler, contractID, rest, hhandler, hprogram, rfl⟩, rfl⟩
          | _ => exact Or.inl h
  | order k env =>
      cases hs : w.sent[k]? with
      | none =>
          simp only [World.next, World.order, hs] at h
          exact Or.inl h
      | some s =>
          cases hresult : s.result with
          | some result =>
              simp only [World.next, World.order, hs, hresult] at h
              exact Or.inl h
          | none =>
              cases hdecode : decodeSettle p.keccak256 s.calldata with
              | none =>
                  simp only [World.next, World.order, hs, hresult, hdecode] at h
                  rcases List.mem_or_eq_of_mem_set h with hold | rfl
                  · exact Or.inl hold
                  · refine Or.inr (Or.inl ⟨k, env, s, rfl, hs, hresult, ⟨rfl, rfl, rfl, ?_⟩, ?_⟩)
                    · intro hdone
                      exact absurd (hresult.symm.trans hdone) (by simp)
                    · intro hfailed
                      exact absurd hfailed (by simp)
              | some call =>
                  simp only [World.next, World.order, hs, hresult, hdecode] at h
                  rcases List.mem_or_eq_of_mem_set h with hold | rfl
                  · exact Or.inl hold
                  · refine Or.inr (Or.inl ⟨k, env, s, rfl, hs, hresult, ⟨rfl, rfl, rfl, ?_⟩, ?_⟩)
                    · intro hdone
                      exact absurd (hresult.symm.trans hdone) (by simp)
                    · intro hsucceeded
                      rw [Option.some.injEq] at hsucceeded
                      cases hexec : exec (nets s.net).c ⟨env, call⟩ (w.contract nets s.net) with
                      | error err =>
                          rw [hexec] at hsucceeded
                          exact absurd hsucceeded (by simp [Except.toOption])
                      | ok r =>
                          refine ⟨call, r, hdecode, hexec, ?_⟩
                          simp only [World.next, World.order, hs, hresult, hdecode,
                            Function.update_self]
  | _ => exact Or.inl h

/-! ## Knowledge -/

theorem Sent.Became.refl (s : Sent) : s.Became s := ⟨rfl, rfl, rfl, id⟩

variable (p nets) in
theorem World.sent_next (w : World) (l : Label) {s : Sent} (hs : s ∈ w.sent) :
    ∃ s' ∈ (w.next p nets l).sent, s.Became s' := by
  cases l with
  | serve i answer commit =>
      refine ⟨s, ?_, .refl s⟩
      simp only [World.next, World.serve]
      split
      · exact hs
      split
      · exact hs
      next r rest _ =>
      cases commit with
      | false => exact hs
      | true =>
          cases r with
          | execute net contractID calldata => exact List.mem_append_left _ hs
          | _ => exact hs
  | order k env =>
      simp only [World.next, World.order]
      split
      · exact ⟨s, hs, .refl s⟩
      next found hfound =>
      have hset (hpending : found.result = none) (result : Option Bool) :
          ∃ s' ∈ w.sent.set k { found with result }, s.Became s' := by
        rcases mem_set_kept hs with hkept | hsame
        · exact ⟨s, hkept, .refl s⟩
        · rw [hfound, Option.some.injEq] at hsame
          subst hsame
          obtain ⟨hlt, _⟩ := List.getElem?_eq_some_iff.mp hfound
          refine ⟨_, List.mem_set hlt _, ⟨rfl, rfl, rfl, ?_⟩⟩
          intro hdone
          exact absurd (hpending.symm.trans hdone) (by simp)
      split
      · next hpending _ => exact hset hpending _
      · next hpending _ => exact hset hpending _
      · exact ⟨s, hs, .refl s⟩
  | _ => exact ⟨s, hs, .refl s⟩

variable (p nets) in
theorem World.later_next (w : World) (l : Label) : w.Later nets (w.next p nets l) where
  executed _ _ h := w.executed_next p nets l h
  recorded id row hrow := by
    obtain ⟨row', hrow', hbecame⟩ := w.next_keepsMatches p nets l id row hrow
    exact ⟨row', hrow', hbecame.terms⟩
  sent s hs := w.sent_next p nets l hs
  holds row h := by
    obtain ⟨row', hrow', hterms⟩ := h
    obtain ⟨row'', hrow'', hstep⟩ := w.find_next p nets l hrow'
    exact ⟨row'', hrow'', hstep.terms.trans hterms⟩

theorem World.Later.says {w w' : World} (h : w.Later nets w') {r : SettlementRequest}
    {a : r.Answer} (hclaim : w.Says nets r a) : w'.Says nets r a := by
  cases r with
  | createMatchV2 record =>
      cases a with
      | error err => trivial
      | ok row =>
          obtain ⟨row, hrow⟩ := hclaim
          obtain ⟨row', hrow', _⟩ := h.recorded _ row hrow
          exact ⟨row', hrow'⟩
  | isMatchExecutedV2 net contractID matchID =>
      rcases a with err | executed
      · trivial
      · cases executed with
        | false => trivial
        | true => exact h.executed net matchID hclaim
  | execute net contractID calldata =>
      cases a with
      | error err => trivial
      | ok txId =>
          obtain ⟨hnamed, s, hs, htx, hnet, hdata⟩ := hclaim
          obtain ⟨s', hs', hbecame⟩ := h.sent s hs
          exact ⟨hnamed, s', hs', hbecame.txId.trans htx, hbecame.net.trans hnet,
            hbecame.calldata.trans hdata⟩
  | getReceipt txId =>
      cases a with
      | error err => trivial
      | ok status =>
          intro hstatus
          obtain ⟨s, hs, htx, hresult⟩ := hclaim hstatus
          obtain ⟨s', hs', hbecame⟩ := h.sent s hs
          exact ⟨s', hs', hbecame.txId.trans htx, hbecame.kept hresult⟩
  | _ => trivial

theorem World.next_serve {w : World} {i : Nat} {handler : Handler} {r : SettlementRequest} {rest}
    (hhandler : w.handlers[i]? = some handler) (hprogram : handler.program = .call r rest)
    (answer : (r : SettlementRequest) → r.Answer) :
    w.next p nets (.serve i answer true) = { w.effect p r (answer r) with
      handlers := w.handlers.set i
        ⟨handler.msg, rest (answer r), handler.answers ++ [⟨r, answer r⟩]⟩ } := by
  simp only [World.next, World.serve, hhandler, hprogram, if_true]

theorem World.says_next {w : World} {i : Nat} {answer : (r : SettlementRequest) → r.Answer}
    {commit : Bool} {handler : Handler} {r : SettlementRequest} {rest}
    (hhandler : w.handlers[i]? = some handler) (hprogram : handler.program = .call r rest)
    (hallowed : w.Allowed p nets (.serve i answer commit)) {messages : Set ClobMatch}
    (hof : Label.Of messages (.serve i answer commit)) :
    (w.next p nets (.serve i answer commit)).Says nets r (answer r) := by
  have hhonest := hallowed handler r rest hhandler hprogram
  have hlater := w.later_next p nets (.serve i answer commit)
  cases r with
  | createMatchV2 record =>
      cases hanswer : answer (.createMatchV2 record) with
      | error err => trivial
      | ok row =>
          rw [hanswer] at hhonest
          obtain ⟨rfl, _⟩ := hhonest
          rw [World.next_serve hhandler hprogram]
          exact w.db.createMatchV2_find record
  | isMatchExecutedV2 net contractID matchID =>
      rcases hanswer : answer (.isMatchExecutedV2 net contractID matchID) with err | executed
      · trivial
      · cases executed with
        | false => trivial
        | true =>
            rw [hanswer] at hhonest
            exact hlater.executed net matchID hhonest
  | execute net contractID calldata =>
      cases hanswer : answer (.execute net contractID calldata) with
      | error err => trivial
      | ok txId =>
          rw [hanswer] at hhonest
          obtain ⟨rfl, _⟩ := hhonest
          have hnamed : txId ≠ [] := by
            rintro rfl
            exact hof net contractID calldata hanswer
          rw [World.next_serve hhandler hprogram]
          refine ⟨hnamed, ⟨txId, net, calldata, none⟩, ?_, rfl, rfl, rfl⟩
          simp [World.effect, hanswer, Except.toOption]
  | getReceipt txId =>
      cases hanswer : answer (.getReceipt txId) with
      | error err => trivial
      | ok status =>
          rw [hanswer] at hhonest
          intro hstatus
          obtain ⟨s, hs, htx, hresult⟩ := hhonest hstatus
          obtain ⟨s', hs', hbecame⟩ := hlater.sent s hs
          exact ⟨s', hs', hbecame.txId.trans htx, hbecame.kept hresult⟩
  | _ => trivial

section Messages

variable {messages : Set ClobMatch}

theorem World.Tracks.next {w : World} (hw : w.Tracks p nets messages) {l : Label}
    (hallowed : w.Allowed p nets l) (hof : l.Of messages) :
    (w.next p nets l).Tracks p nets messages := by
  refine ⟨hw.sane.next hallowed, hw.read.next hallowed, ?_, ?_⟩
  · intro h' hmem
    rcases World.mem_handlers_next hmem with hold | ⟨m, rfl, rfl⟩ |
      ⟨i, answer, commit, handler, r, rest, rfl, hhandler, hprogram, rfl⟩
    · exact hw.delivered h' hold
    · exact hof
    · exact hw.delivered handler (List.mem_of_getElem? hhandler)
  · intro h' hmem r a ha
    have hlater := w.later_next p nets l
    rcases World.mem_handlers_next hmem with hold | ⟨m, rfl, rfl⟩ |
      ⟨i, answer, commit, handler, r', rest, rfl, hhandler, hprogram, rfl⟩
    · exact hlater.says (hw.informed h' hold r a ha)
    · exact absurd ha List.not_mem_nil
    · rcases List.mem_append.mp ha with hbefore | hnew
      · exact hlater.says (hw.informed handler (List.mem_of_getElem? hhandler) r a hbefore)
      · have hanswer := List.mem_singleton.mp hnew
        rw [Sigma.mk.injEq] at hanswer
        obtain ⟨rfl, hanswer⟩ := hanswer
        rw [eq_of_heq hanswer]
        exact World.says_next hhandler hprogram hallowed hof

/-! ## Prepared matches -/

theorem World.Prepares.later {w w' : World} {q : Prepared} (h : w.Prepares p messages q)
    (hlater : w.Later nets w') : w'.Prepares p messages q := by
  obtain ⟨m, hm, bid, ask, hprepared, hbid, hask, hbidRow, haskRow⟩ := h
  exact ⟨m, hm, bid, ask, hprepared, hbid, hask, hlater.holds _ hbidRow, hlater.holds _ haskRow⟩

theorem World.Prepares.of_mem {w : World} {m : ClobMatch} {q : Prepared}
    (h : w.Prepares p {m} q) (hm : m ∈ messages) : w.Prepares p messages q := by
  obtain ⟨_, rfl, hrest⟩ := h
  exact ⟨_, hm, hrest⟩

/-- What a handler prepares from the rows that it has read is the match of its message. -/
theorem World.Tracks.prepares_of {w : World} (hw : w.Tracks p nets messages) {h : Handler}
    (hh : h ∈ w.handlers) {bid ask : CreateOrderRequestClob} {bidRow askRow : PredictionIntent}
    {cfg : PrismV2Network} {market : MarketRow} {q : Prepared} (hbid : h.msg.bid = some bid)
    (hask : h.msg.ask = some ask)
    (hbidRead : ⟨.getPredictionIntentByTxId bid.txId, .ok bidRow⟩ ∈ h.answers)
    (haskRead : ⟨.getPredictionIntentByTxId ask.txId, .ok askRow⟩ ∈ h.answers)
    (hrows : checkRows p h.msg bidRow askRow = .ok ())
    (hcfg : p.getPrismV2Network bidRow.net = .ok cfg)
    (hq : prepare p h.msg bid ask bidRow askRow cfg market = .ok q) :
    w.Prepares p {h.msg} q := by
  have hpre := prepare_ok hbid hask hq
  have hread {txId : Str} {row : PredictionIntent}
      (hmem : ⟨.getPredictionIntentByTxId txId, .ok row⟩ ∈ h.answers) :
      p.uuid.parse txId = .ok row.txID ∧ Api.Stored row ∧ w.Holds row := by
    obtain ⟨hparse, hholds⟩ := hw.read h hh txId row hmem
    exact ⟨hparse, (hw.sane.read h hh row ⟨txId, hmem⟩).1, hholds⟩
  obtain ⟨hbidId, hbidStored, hbidHolds⟩ := hread hbidRead
  obtain ⟨haskId, haskStored, haskHolds⟩ := hread haskRead
  have hbidOrder := hpre.bidOrder
  have haskOrder := hpre.askOrder
  have hnetwork := hpre.network
  subst hbidOrder haskOrder hnetwork
  exact ⟨h.msg, rfl, bid, ask, ⟨hbid, hask, hbidId, haskId, hrows, hcfg, market, hq⟩, hbidStored,
    haskStored, hbidHolds, haskHolds⟩

theorem World.Tracks.prepares {w : World} (hw : w.Tracks p nets messages) {h : Handler}
    (hh : h ∈ w.handlers) {r : SettlementRequest} {rest} (hr : ¬r.isLookup)
    (hprogram : h.program = .call r rest) :
    ∃ q later, w.Prepares p messages q ∧ (∀ a ∈ later, a ∈ h.answers) ∧
      (settlePrepared p q).Path later (.call r rest) := by
  obtain ⟨hpath, _⟩ := hw.sane.onPath h hh
  rw [hprogram] at hpath
  obtain ⟨bid, ask, bidRow, askRow, cfg, market, q, later, hbid, hask, hrows, hcfg, hq, hanswers,
    hprepared⟩ := settleMatchV2_path hr hpath
  have hprepares := hw.prepares_of hh hbid hask (by simp [hanswers]) (by simp [hanswers]) hrows
    hcfg hq
  refine ⟨q, later, hprepares.of_mem (hw.delivered h hh), ?_, hprepared⟩
  intro a ha
  rw [hanswers]
  simp [ha]

theorem World.Prepares.same {w : World} {q q' : Prepared}
    (hkeccak : ∀ text, (p.keccak256 text).length = 32) (hwords : ∀ m ∈ messages, InWords m)
    (hcollision : Set.InjOn p.keccak256 (fillPreimages p messages))
    (h : w.Prepares p messages q) (h' : w.Prepares p messages q') (hid : q.matchID = q'.matchID) :
    q.cfg = q'.cfg ∧ q.bidAuth = q'.bidAuth ∧ q.askAuth = q'.askAuth ∧ q.record = q'.record := by
  obtain ⟨m, hm, bid, ask, hprepared, _, _, hbidRow, haskRow⟩ := h
  obtain ⟨m', hm', bid', ask', hprepared', _, _, hbidRow', haskRow'⟩ := h'
  obtain ⟨hbid, hask, hfill, hprice⟩ := prepared_inj hkeccak hcollision hprepared hprepared' hm hm'
    (hwords m hm) (hwords m' hm') hid
  have hterms {row row' : PredictionIntent} (hrow : w.Holds row) (hrow' : w.Holds row')
      (hkey : row.txID = row'.txID) : row.toOrderTerms = row'.toOrderTerms := by
    obtain ⟨stored, hfind, hstored⟩ := hrow
    obtain ⟨stored', hfind', hstored'⟩ := hrow'
    rw [hkey, hfind', Option.some.injEq] at hfind
    subst hfind
    exact hstored.symm.trans hstored'
  exact prepared_same hprepared hprepared' hid (hterms hbidRow hbidRow' hbid)
    (hterms haskRow haskRow' hask) hfill hprice

/-- What the network is asked to run for a prepared match. -/
theorem World.Prepares.call {w : World} {q : Prepared} (h : w.Prepares p messages q)
    (hkeccak : ∀ text, (p.keccak256 text).length = 32)
    (hsignatures : ∀ row signature, p.signatureMap row = .ok signature →
      signature.length < 2 ^ 32) (hwords : ∀ m ∈ messages, InWords m) {calldata : Bytes}
    (hdata : q.calldata p = .ok calldata) {call : Call}
    (hcall : decodeSettle p.keccak256 calldata = some call) :
    ∃ x y signatureA signatureB, OrderOf q.bidRow q.bidAuth x ∧ OrderOf q.askRow q.askAuth y ∧
      call = .settle x signatureA y signatureB q.record.fillShares q.record.executionYesPrice
        q.matchID := by
  obtain ⟨m, hm, bid, ask, hprepared, hbidStored, haskStored, _, _⟩ := h
  obtain ⟨market, hprepare⟩ := hprepared.prepared
  refine prepared_call hkeccak hsignatures hprepared.bid_eq hprepared.ask_eq (hwords m hm).1
    hbidStored haskStored hprepare ?_
  rw [Prepared.call, hdata]
  exact hcall

/-- A handler that asks for a submission asks for its prepared match. -/
theorem World.Tracks.hands {w : World} (hw : w.Tracks p nets messages) {i : Nat}
    {answer : (r : SettlementRequest) → r.Answer} {s : Sent} (h : w.Hands i answer s) :
    ∃ q, w.Prepares p messages q ∧ s.net = q.cfg.net ∧ q.calldata p = .ok s.calldata ∧
      ∃ row, w.db.matches_.find q.record.matchID = some row := by
  obtain ⟨handler, contractID, rest, hhandler, hprogram, _⟩ := h.handed
  have hh := List.mem_of_getElem? hhandler
  obtain ⟨q, later, hprepares, hsub, hpath⟩ := hw.prepares hh id hprogram
  obtain ⟨_, _, _, _, _, hdata, hnet, _, _⟩ := settlePrepared_execute hpath
  obtain ⟨row, hcreated⟩ := settlePrepared_recorded hpath id
  exact ⟨q, hprepares, hnet, hdata, hw.informed handler hh _ _ (hsub _ hcreated)⟩

/-! ## Submissions -/

theorem World.mem_sent_before {w : World} {l : Label} {s' : Sent}
    (h : s' ∈ (w.next p nets l).sent) :
    (∃ s ∈ w.sent, s.Became s') ∨ ∃ i answer, l = .serve i answer true ∧ w.Hands i answer s' := by
  rcases World.mem_sent_next h with hold | ⟨k, env, s, _, horders⟩ | hnew
  · exact Or.inl ⟨s', hold, .refl s'⟩
  · exact Or.inl ⟨s, List.mem_of_getElem? horders.sent, horders.became⟩
  · exact Or.inr hnew

theorem World.Hands.fresh {w : World} {i : Nat} {answer : (r : SettlementRequest) → r.Answer}
    {s' : Sent} (h : w.Hands i answer s') (hallowed : w.Allowed p nets (.serve i answer true))
    (hnamed : s'.txId ≠ []) : ∀ s ∈ w.sent, s.txId ≠ s'.txId := by
  obtain ⟨handler, contractID, rest, hhandler, hprogram, htxId⟩ := h.handed
  have hhonest := hallowed handler _ rest hhandler hprogram
  cases hanswer : answer (.execute s'.net contractID s'.calldata) with
  | error err =>
      rw [hanswer] at htxId
      exact absurd htxId hnamed
  | ok txId =>
      rw [hanswer] at hhonest htxId
      rw [htxId]
      exact hhonest.2

theorem World.Hands.same {w : World} {i : Nat} {answer : (r : SettlementRequest) → r.Answer}
    {s s' : Sent} (h : w.Hands i answer s) (h' : w.Hands i answer s') :
    s.net = s'.net ∧ s.calldata = s'.calldata := by
  obtain ⟨handler, contractID, rest, hhandler, hprogram, _⟩ := h.handed
  obtain ⟨handler', contractID', rest', hhandler', hprogram', _⟩ := h'.handed
  rw [hhandler, Option.some.injEq] at hhandler'
  subst hhandler'
  rw [hprogram, Program.call.injEq, SettlementRequest.execute.injEq] at hprogram'
  exact ⟨hprogram'.1.1, hprogram'.1.2.2⟩

theorem World.mem_history_next {w : World} {l : Label} {net : Str} {tx : Tx}
    (h : tx ∈ (w.next p nets l).history net) :
    tx ∈ w.history net ∨ l = .external net tx ∨
      ∃ s ∈ w.sent, s.net = net ∧ decodeSettle p.keccak256 s.calldata = some tx.call := by
  have hupdate {net' : Str} {tx' : Tx}
      (h : tx ∈ Function.update w.history net' (w.history net' ++ [tx']) net) :
      tx ∈ w.history net ∨ net' = net ∧ tx = tx' := by
    by_cases heq : net = net'
    · subst heq
      rw [Function.update_self, List.mem_append, List.mem_singleton] at h
      exact h.imp_right fun htx => ⟨rfl, htx⟩
    · rw [Function.update_of_ne heq] at h
      exact Or.inl h
  cases l with
  | serve i answer commit =>
      rw [World.next, World.serve_history] at h
      exact Or.inl h
  | order k env =>
      simp only [World.next, World.order] at h
      split at h
      · exact Or.inl h
      next s hs =>
      split at h
      · next call hdecode =>
        rcases hupdate h with hold | ⟨rfl, rfl⟩
        · exact Or.inl hold
        · exact Or.inr (Or.inr ⟨s, List.mem_of_getElem? hs, rfl, hdecode⟩)
      · exact Or.inl h
      · exact Or.inl h
  | external net' tx' =>
      rcases hupdate h with hold | ⟨rfl, rfl⟩
      · exact Or.inl hold
      · exact Or.inr (Or.inl rfl)
  | _ => exact Or.inl h

theorem World.Dispatched.next {w : World} (hw : w.Dispatched p nets messages)
    (htracks : w.Tracks p nets messages) (hkeccak : ∀ text, (p.keccak256 text).length = 32)
    (hsignatures : ∀ row signature, p.signatureMap row = .ok signature →
      signature.length < 2 ^ 32) (hwords : ∀ m ∈ messages, InWords m) {l : Label}
    (hallowed : w.Allowed p nets l) : (w.next p nets l).Dispatched p nets messages := by
  have hlater := w.later_next p nets l
  constructor
  · intro s hs s' hs' htx hnamed
    rcases World.mem_sent_before hs with ⟨old, hold, hbecame⟩ | ⟨i, answer, rfl, hhands⟩
    · rcases World.mem_sent_before hs' with ⟨old', hold', hbecame'⟩ | ⟨i, answer, rfl, hhands⟩
      · rw [hbecame.txId] at htx hnamed
        rw [hbecame'.txId] at htx
        rw [hbecame.net, hbecame'.net, hbecame.calldata, hbecame'.calldata]
        exact hw.named old hold old' hold' htx hnamed
      · exact absurd (hbecame.txId.symm.trans htx) (hhands.fresh hallowed (htx ▸ hnamed) old hold)
    · rcases World.mem_sent_before hs' with ⟨old', hold', hbecame'⟩ | ⟨_, _, heq, hhands'⟩
      · exact absurd (hbecame'.txId.symm.trans htx.symm) (hhands.fresh hallowed hnamed old' hold')
      · cases heq
        exact hhands.same hhands'
  · intro s hs
    rcases World.mem_sent_before hs with ⟨old, hold, hbecame⟩ | ⟨i, answer, rfl, hhands⟩
    · obtain ⟨q, hprepares, hnet, hdata, row, hrow⟩ := hw.origin old hold
      obtain ⟨row', hrow', _⟩ := hlater.recorded _ row hrow
      refine ⟨q, hprepares.later hlater, hbecame.net.trans hnet, ?_, row', hrow'⟩
      rw [hbecame.calldata]
      exact hdata
    · obtain ⟨q, hprepares, hnet, hdata, row, hrow⟩ := htracks.hands hhands
      obtain ⟨row', hrow', _⟩ := hlater.recorded _ row hrow
      exact ⟨q, hprepares.later hlater, hnet, hdata, row', hrow'⟩
  · intro s hs hresult
    rcases World.mem_sent_next hs with hold | ⟨k, env, old, rfl, horders⟩ | ⟨i, answer, rfl, hhands⟩
    · obtain ⟨call, matchID, hcall, hmatch, hexecuted⟩ := hw.ran s hold hresult
      exact ⟨call, matchID, hcall, hmatch, hlater.executed _ _ hexecuted⟩
    · obtain ⟨call, r, hcall, hexec, hhistory⟩ := horders.succeeded hresult
      obtain ⟨q, hprepares, _, hdata, _⟩ := hw.origin old (List.mem_of_getElem? horders.sent)
      obtain ⟨x, y, signatureA, signatureB, _, _, hsettle⟩ :=
        hprepares.call hkeccak hsignatures hwords hdata hcall
      have hmatch : call.matchIdOf = some q.matchID := by rw [hsettle, Call.matchIdOf]
      have hran : (w.next p nets (.order k env)).contract nets old.net = r.1 := by
        unfold World.contract
        rw [hhistory, PrismV2.run_append]
        exact apply_ok hexec
      refine ⟨call, q.matchID, ?_, hmatch, ?_⟩
      · rw [horders.became.calldata]
        exact hcall
      · rw [horders.became.net, hran]
        exact ((effect_books (exec_effect hexec)).fresh hmatch).2
    · exact absurd (hhands.pending.symm.trans hresult) (by simp)
  · intro net tx htx hsettle
    have hkept (s : Sent) (hs : s ∈ w.sent) (hnet : s.net = net)
        (hcall : decodeSettle p.keccak256 s.calldata = some tx.call) :
        ∃ s' ∈ (w.next p nets l).sent, s'.net = net ∧
          decodeSettle p.keccak256 s'.calldata = some tx.call := by
      obtain ⟨s', hs', hbecame⟩ := hlater.sent s hs
      refine ⟨s', hs', hbecame.net.trans hnet, ?_⟩
      rw [hbecame.calldata]
      exact hcall
    rcases World.mem_history_next htx with hold | rfl | ⟨s, hs, hnet, hcall⟩
    · obtain ⟨s, hs, hnet, hcall⟩ := hw.history net tx hold hsettle
      exact hkept s hs hnet hcall
    · exact absurd hsettle hallowed
    · exact hkept s hs hnet hcall

/-- What tells a handler that its match is executed is true. -/
theorem World.Dispatched.executed {w : World} (hw : w.Dispatched p nets messages)
    (hkeccak : ∀ text, (p.keccak256 text).length = 32)
    (hsignatures : ∀ row signature, p.signatureMap row = .ok signature →
      signature.length < 2 ^ 32) (hwords : ∀ m ∈ messages, InWords m) {q : Prepared}
    (hprepares : w.Prepares p messages q) {answers : Answers}
    (hclaim : ∀ r a, ⟨r, a⟩ ∈ answers → w.Says nets r a) (h : Evidence p q answers) :
    (w.contract nets q.cfg.net).executedMatches q.matchID = true := by
  rcases h with hasked | ⟨calldata, txId, hdata, hexecute, hreceipt⟩
  · exact hclaim _ _ hasked
  · obtain ⟨hnamed, s, hs, htx, hnet, hcalldata⟩ := hclaim _ _ hexecute
    obtain ⟨s', hs', htx', hresult⟩ := hclaim _ _ hreceipt rfl
    obtain ⟨call, matchID, hcall, hmatch, hexecuted⟩ := hw.ran s' hs' hresult
    obtain ⟨hsameNet, hsameData⟩ := hw.named s hs s' hs' (htx.trans htx'.symm) (htx ▸ hnamed)
    rw [← hsameData, hcalldata] at hcall
    obtain ⟨x, y, signatureA, signatureB, _, _, rfl⟩ :=
      hprepares.call hkeccak hsignatures hwords hdata hcall
    rw [Call.matchIdOf, Option.some.injEq] at hmatch
    rw [← hsameNet, hnet, ← hmatch] at hexecuted
    exact hexecuted

end Messages

end Steps

end PrismBackend.Api
