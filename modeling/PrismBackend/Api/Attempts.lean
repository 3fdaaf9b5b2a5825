import PrismBackend.Api.Outcomes
import PrismBackend.Api.Redelivery

/-!
# API: attempts at a settlement

Which matches were submitted, what the answers of a handler vouch for, and when
the mark of an attempt stands for every submission: as long as each submission
is reported and marked, and no message is handled twice at the same time.
-/

namespace PrismBackend.Api

open PrismBackend.Lib PrismBackend.Clob PrismBackend.PrismV2

section Attempts

variable (p : Platform)

/-- The match was given to the network. -/
def World.HasSubmitted (w : World) (matchID : Bytes32) : Prop :=
  ∃ s ∈ w.sent, ∃ call, decodeSettle p.keccak256 s.calldata = some call ∧
    call.matchIdOf = some matchID

/-- A submission of the match is recorded, or it is finalized. -/
def World.Tried (w : World) (matchID : Str) : Prop :=
  ∃ row, w.db.matches_.find matchID = some row ∧ (0 < row.attempts ∨ row.status = .finalized)

def World.OnContract (w : World) (marketId contractID : Str) : Prop :=
  ∃ u row, p.uuid.parse marketId = .ok u ∧ w.db.markets.find u = some row ∧
    row.smartContractID = contractID

/-- What an answer tells of the database for good. -/
def World.Vouches (w : World) : (r : SettlementRequest) → r.Answer → Prop
  | .getMarketById marketId, .ok market => w.OnContract p marketId market.smartContractID
  | .createMatchV2 record, .ok row => row.status = .finalized → w.db.finalized record.matchID = true
  | .finalizeMatchV2 record _, .ok _ => w.db.finalized record.matchID = true
  | _, _ => True

abbrev MarketTable := Table MarketRow Uint128 fun row => row.marketID

/-- `smart_contract_id` is written when a market is created, and by no update. -/
def KeepsContracts (markets markets' : MarketTable) : Prop :=
  ∀ u row, markets.find u = some row →
    ∃ row', markets'.find u = some row' ∧ row'.smartContractID = row.smartContractID

def World.KeepsMarkets (w : World) : Label → Prop
  | .markets rows => KeepsContracts w.db.markets rows
  | _ => True

/-- The handler is about to mark a submission of the match. -/
def Handler.Marking (h : Handler) (matchID : Str) : Prop :=
  ∃ hederaTxID rest, h.program = .call (.markMatchSubmitted matchID hederaTxID) rest

/-- A submission that takes place is reported, and its mark is written. -/
def SettlementRequest.Reported : (r : SettlementRequest) → r.Answer → Bool → Prop
  | .execute _ _ _, answer, commit => commit = true → ∃ txHash, answer = .ok txHash
  | .markMatchSubmitted _ _, _, commit => commit = true
  | _, _, _ => True

/-- A message is delivered when nobody handles it, submissions are reported and marked, and no
handler is lost between the two. -/
def World.Careful (w : World) : Label → Prop
  | .deliver m => ∀ h ∈ w.handlers, h.msg ≠ m
  | .serve i answer commit => ∀ h r rest, w.handlers[i]? = some h → h.program = .call r rest →
    r.Reported (answer r) commit
  | .stop i => ∀ h matchID, w.handlers[i]? = some h → ¬h.Marking matchID
  | _ => True

/-- The match that a handler has prepared, on the contract of the market that it has read. -/
structure World.Handles (w : World) (h : Handler) (q : Prepared) : Prop where
  prepares : w.Prepares p {h.msg} q
  markets : ∀ bid ask, h.msg.bid = some bid → h.msg.ask = some ask →
    bid.marketId = h.msg.marketId ∧ ask.marketId = h.msg.marketId
  market : ∃ market, ⟨.getMarketById h.msg.marketId, .ok market⟩ ∈ h.answers ∧
    market.smartContractID = q.cfg.contractID

/-- What a message was prepared to when it was submitted. -/
structure World.Submitted (w : World) (m : ClobMatch) (q : Prepared) : Prop where
  prepares : w.Prepares p {m} q
  markets : ∀ bid ask, m.bid = some bid → m.ask = some ask →
    bid.marketId = m.marketId ∧ ask.marketId = m.marketId
  contract : w.OnContract p m.marketId q.cfg.contractID
  calldata : ∃ calldata, q.calldata p = .ok calldata

/-- A match id that a message can be prepared to. -/
def Names (m : ClobMatch) (matchID : Bytes32) : Prop :=
  ∃ bid ask q, PreparedOf p m bid ask q ∧ q.matchID = matchID

/-- Each match is announced by one message. -/
def OneMessage (messages : Set ClobMatch) : Prop :=
  ∀ m ∈ messages, ∀ m' ∈ messages, ∀ matchID, Names p m matchID → Names p m' matchID → m = m'

structure World.Marks (messages : Set ClobMatch) (w : World) : Prop where
  alone : (w.handlers.map Handler.msg).Nodup
  vouched : ∀ h ∈ w.handlers, ∀ r a, ⟨r, a⟩ ∈ h.answers → w.Vouches p r a
  /- a submission is marked, or its handler is about to mark it -/
  submitted : ∀ matchID, w.HasSubmitted p matchID →
    ∃ m ∈ messages, ∃ q, w.Submitted p m q ∧ q.matchID = matchID ∧
      (w.Tried q.record.matchID ∨ ∃ h ∈ w.handlers, h.msg = m ∧ h.Marking q.record.matchID)
  /- a handler that has found no attempt and made none knows that there is none -/
  untried : ∀ h ∈ w.handlers, ∀ record row matchID, ⟨.createMatchV2 record, .ok row⟩ ∈ h.answers →
    record.matchID = matchIDText matchID → row.status ≠ .finalized → Untried row h.answers →
      ¬w.HasSubmitted p matchID

end Attempts

section Steps

variable {p : Platform} {nets : Str → Network} {messages : Set ClobMatch} {w : World} {l : Label}

/-! ## Matches and markets -/

theorem Db.finalized_iff {db : Db} {matchID : Str} : db.finalized matchID = true ↔
    ∃ row, db.matches_.find matchID = some row ∧ row.status = .finalized := by
  simp [Db.finalized, Option.any_eq_true]

theorem World.finalized_next {matchID : Str} (h : w.db.finalized matchID = true) :
    (w.next p nets l).db.finalized matchID = true := by
  obtain ⟨row, hrow, hfinal⟩ := Db.finalized_iff.mp h
  obtain ⟨row', hrow', hbecame⟩ := w.next_keepsMatches p nets l matchID row hrow
  exact Db.finalized_iff.mpr ⟨row', hrow', hbecame.finalized hfinal⟩

theorem World.Tried.next {matchID : Str} (h : w.Tried matchID) :
    (w.next p nets l).Tried matchID := by
  obtain ⟨row, hrow, htried⟩ := h
  obtain ⟨row', hrow', hbecame⟩ := w.next_keepsMatches p nets l matchID row hrow
  refine ⟨row', hrow', ?_⟩
  rcases htried with hattempts | hfinal
  · exact Or.inl (hattempts.trans_le hbecame.attempts)
  · exact Or.inr (hbecame.finalized hfinal)

theorem World.effect_markets (w : World) (r : SettlementRequest) (answer : r.Answer) :
    (w.effect p r answer).db.markets = w.db.markets := by
  cases r with
  | createMatchV2 record =>
      simp only [World.effect, Db.createMatchV2]
      split
      · rfl
      · rfl
  | finalizeMatchV2 record txHash =>
      simp only [World.effect]
      cases h : w.db.finalizeMatchV2 p.uuid record txHash with
      | error err => rfl
      | ok result =>
          show result.1.markets = w.db.markets
          rcases Db.finalizeMatchV2_ok h with ⟨_, heq⟩ | ⟨_, _, _, _, _, hbid, hask⟩
          · rw [heq]
          · obtain ⟨_, _, _, _, hresult⟩ := Db.addPredictionIntentFill_ok hask
            obtain ⟨_, _, _, _, rfl⟩ := Db.addPredictionIntentFill_ok hbid
            rw [hresult]
            rfl
  | _ => rfl

theorem KeepsContracts.of_eq {markets markets' : MarketTable} (h : markets' = markets) :
    KeepsContracts markets markets' := by
  intro u row hrow
  rw [h]
  exact ⟨row, hrow, rfl⟩

theorem World.contracts_next (hkeeps : w.KeepsMarkets l) :
    KeepsContracts w.db.markets (w.next p nets l).db.markets := by
  cases l with
  | serve i answer commit =>
      simp only [World.next, World.serve]
      split
      · exact .of_eq rfl
      split
      · exact .of_eq rfl
      next r rest _ =>
      cases commit with
      | false => exact .of_eq rfl
      | true => exact .of_eq (w.effect_markets r (answer r))
  | order k env =>
      rw [World.next, World.order_db]
      exact .of_eq rfl
  | markets rows => exact hkeeps
  | _ => exact .of_eq rfl

theorem World.OnContract.next {marketId contractID : Str} (h : w.OnContract p marketId contractID)
    (hkeeps : w.KeepsMarkets l) : (w.next p nets l).OnContract p marketId contractID := by
  obtain ⟨u, row, hparse, hrow, hcontract⟩ := h
  have hmarkets : KeepsContracts w.db.markets (w.next p nets l).db.markets :=
    World.contracts_next hkeeps
  obtain ⟨row', hrow', hsame⟩ := hmarkets u row hrow
  exact ⟨u, row', hparse, hrow', hsame.trans hcontract⟩

theorem World.OnContract.eq {marketId contractID contractID' : Str}
    (h : w.OnContract p marketId contractID) (h' : w.OnContract p marketId contractID') :
    contractID = contractID' := by
  obtain ⟨u, row, hparse, hrow, rfl⟩ := h
  obtain ⟨u', row', hparse', hrow', rfl⟩ := h'
  rw [hparse, Except.ok.injEq] at hparse'
  rw [← hparse', hrow, Option.some.injEq] at hrow'
  rw [hrow']

theorem Db.getMarketById_ok {db : Db} {uuid : Uuid} {marketId : Str} {isAdmin : Bool}
    {market : MarketRow} (h : db.getMarketById uuid marketId isAdmin = .ok market) :
    ∃ u, uuid.parse marketId = .ok u ∧ db.markets.find u = some market := by
  simp only [Db.getMarketById, bind_ok_iff, mapError_ok_iff] at h
  obtain ⟨u, hparse, h⟩ := h
  refine ⟨u, hparse, ?_⟩
  split at h
  · next row hrow =>
    simp only [bind_ok_iff, Except.ok.injEq] at h
    obtain ⟨_, _, rfl⟩ := h
    exact hrow
  · exact absurd h (by simp)

/-! ## What answers vouch for -/

theorem World.Vouches.next {r : SettlementRequest} {a : r.Answer} (h : w.Vouches p r a)
    (hkeeps : w.KeepsMarkets l) : (w.next p nets l).Vouches p r a := by
  cases r with
  | getMarketById marketId =>
      cases a with
      | error err => trivial
      | ok market => exact World.OnContract.next h hkeeps
  | createMatchV2 record =>
      cases a with
      | error err => trivial
      | ok row => exact fun hfinal => World.finalized_next (h hfinal)
  | finalizeMatchV2 record txHash =>
      cases a with
      | error err => trivial
      | ok applied => exact World.finalized_next h
  | _ => trivial

theorem Db.createMatchV2_kept {db : Db} {record : MatchV2} {row : Match}
    (h : db.matches_.find record.matchID = some row) : (db.createMatchV2 record).2 = row := by
  rw [Db.createMatchV2, h]

theorem Db.createMatchV2_row (db : Db) (record : MatchV2) :
    db.matches_.find record.matchID = some (db.createMatchV2 record).2 ∨
      (db.createMatchV2 record).2 = record.row := by
  unfold Db.createMatchV2
  split
  · next row hrow => exact Or.inl hrow
  · exact Or.inr rfl

theorem Db.finalizeMatchV2_closes {db db' : Db} {uuid : Uuid} {record : MatchV2} {txHash : Str}
    {applied : Bool} (h : db.finalizeMatchV2 uuid record txHash = .ok (db', applied)) {row : Match}
    (hrow : db.matches_.find record.matchID = some row) : db'.finalized record.matchID = true := by
  rcases Db.finalizeMatchV2_finalized h with ⟨rfl, rfl⟩ | ⟨_, _, hfinal⟩
  · by_contra hopen
    have hstatus : row.status ≠ .finalized :=
      fun hstatus => hopen (Db.finalized_iff.mpr ⟨row, hrow, hstatus⟩)
    simp [Db.finalizeMatchV2, hrow, hstatus] at h
  · exact (hfinal _).mpr (Or.inl rfl)

/-- A handler that is past the lookups has prepared the match of its message. -/
theorem World.Tracks.handles (htracks : w.Tracks p nets messages) {h : Handler}
    (hh : h ∈ w.handlers) {earlier : Answers} (hsub : ∀ a ∈ earlier, a ∈ h.answers)
    {r : SettlementRequest} {rest} (hr : ¬r.isLookup)
    (hpath : (settleMatchV2 p h.msg).Path earlier (.call r rest)) :
    ∃ q later, w.Handles p h q ∧ (∀ a ∈ later, a ∈ earlier) ∧
      (settlePrepared p q).Path later (.call r rest) := by
  obtain ⟨bid, ask, bidRow, askRow, cfg, market, q, later, hbid, hask, hrows, hcfg, hq, hanswers,
    hprepared⟩ := settleMatchV2_path hr hpath
  have hprepares := htracks.prepares_of hh hbid hask (hsub _ (by simp [hanswers]))
    (hsub _ (by simp [hanswers])) hrows hcfg hq
  refine ⟨q, later, ⟨hprepares, ?_, market, hsub _ (by simp [hanswers]), ?_⟩, ?_, hprepared⟩
  · intro bid ask hbid hask
    exact settleMatchV2_markets hpath hbid hask
  · rw [(prepare_ok hbid hask hq).network]
    exact prepare_contract hq
  · intro a ha
    rw [hanswers]
    simp [ha]

theorem World.Tracks.handles_now (htracks : w.Tracks p nets messages) {h : Handler}
    (hh : h ∈ w.handlers) {r : SettlementRequest} {rest} (hr : ¬r.isLookup)
    (hprogram : h.program = .call r rest) :
    ∃ q later, w.Handles p h q ∧ (∀ a ∈ later, a ∈ h.answers) ∧
      (settlePrepared p q).Path later (.call r rest) :=
  htracks.handles hh (fun _ ha => ha) hr (hprogram ▸ (htracks.sane.onPath h hh).1)

/-- The match that a handler records is the match of its message. -/
theorem World.Tracks.handles_created (htracks : w.Tracks p nets messages) {h : Handler}
    (hh : h ∈ w.handlers) {record : MatchV2} {a : Except String Match}
    (ha : ⟨.createMatchV2 record, a⟩ ∈ h.answers) : ∃ q, w.Handles p h q ∧ record = q.record := by
  obtain ⟨earlier, later, rest, hanswers, hpath⟩ := (htracks.sane.onPath h hh).1.of_mem ha
  obtain ⟨q, later', hq, _, hcreate⟩ := htracks.handles hh (by simp +contextual [hanswers]) id hpath
  exact ⟨q, hq, settlePrepared_create hcreate⟩

theorem World.Tracks.recorded (htracks : w.Tracks p nets messages) {h : Handler}
    (hh : h ∈ w.handlers) {r : SettlementRequest} {rest} (hlookup : ¬r.isLookup)
    (hcreate : ¬r.isCreate) (hprogram : h.program = .call r rest) :
    ∃ q row, w.Handles p h q ∧ w.db.matches_.find q.record.matchID = some row := by
  obtain ⟨q, later, hq, hsub, hpath⟩ := htracks.handles_now hh hlookup hprogram
  obtain ⟨row, hcreated⟩ := settlePrepared_recorded hpath hcreate
  obtain ⟨row', hrow'⟩ := htracks.informed h hh _ _ (hsub _ hcreated)
  exact ⟨q, row', hq, hrow'⟩

theorem World.vouches_serve (htracks : w.Tracks p nets messages) {i : Nat}
    {answer : (r : SettlementRequest) → r.Answer} {commit : Bool} {handler : Handler}
    {r : SettlementRequest} {rest} (hhandler : w.handlers[i]? = some handler)
    (hprogram : handler.program = .call r rest)
    (hallowed : w.Allowed p nets (.serve i answer commit)) :
    (w.next p nets (.serve i answer commit)).Vouches p r (answer r) := by
  have hhonest := hallowed handler r rest hhandler hprogram
  cases r with
  | getMarketById marketId =>
      cases hanswer : answer (.getMarketById marketId) with
      | error err => trivial
      | ok market =>
          rw [hanswer] at hhonest
          obtain ⟨u, hparse, hmarket⟩ := Db.getMarketById_ok hhonest
          have hcontract : w.OnContract p marketId market.smartContractID :=
            ⟨u, market, hparse, hmarket, rfl⟩
          exact hcontract.next trivial
  | createMatchV2 record =>
      cases hanswer : answer (.createMatchV2 record) with
      | error err => trivial
      | ok row =>
          rw [hanswer] at hhonest
          obtain ⟨_, rfl⟩ := hhonest
          intro hfinal
          rcases w.db.createMatchV2_row record with hfound | hnew
          · exact World.finalized_next (Db.finalized_iff.mpr ⟨_, hfound, hfinal⟩)
          · rw [hnew] at hfinal
            exact absurd hfinal nofun
  | finalizeMatchV2 record txHash =>
      cases hanswer : answer (.finalizeMatchV2 record txHash) with
      | error err => trivial
      | ok applied =>
          rw [hanswer] at hhonest
          obtain ⟨rfl, db, hdb⟩ := hhonest
          have hh := List.mem_of_getElem? hhandler
          obtain ⟨q, later, _, hsub, hpath⟩ := htracks.handles_now hh id hprogram
          obtain ⟨row, hcreated⟩ := settlePrepared_recorded hpath id
          obtain ⟨row', hrow'⟩ := htracks.informed handler hh _ _ (hsub _ hcreated)
          obtain ⟨rfl, _⟩ := settlePrepared_finalize hpath
          have hclosed := Db.finalizeMatchV2_closes hdb hrow'
          rw [World.next_serve hhandler hprogram]
          simp only [World.Vouches, World.effect, hdb]
          exact hclosed
  | _ => trivial

/-! ## Submissions -/

theorem World.Prepares.names {m : ClobMatch} {q : Prepared} (h : w.Prepares p {m} q) :
    Names p m q.matchID := by
  obtain ⟨_, rfl, bid, ask, hprepared, _⟩ := h
  exact ⟨bid, ask, q, hprepared, rfl⟩

theorem World.Submitted.next {m : ClobMatch} {q : Prepared} (h : w.Submitted p m q)
    (hkeeps : w.KeepsMarkets l) : (w.next p nets l).Submitted p m q :=
  ⟨h.prepares.later (w.later_next p nets l), h.markets, h.contract.next hkeeps, h.calldata⟩

structure World.Submitting (p : Platform) (w : World) (i : Nat) (h : Handler) (q : Prepared) :
    Prop where
  handler : w.handlers[i]? = some h
  handles : w.Handles p h q
  program : ∃ net contractID calldata rest,
    h.program = .call (.execute net contractID calldata) rest ∧ q.calldata p = .ok calldata
  marks : MarksNext q h.program

/-- What a contract has executed was submitted. -/
theorem World.Dispatched.hasSubmitted (h : w.Dispatched p nets messages) {net : Str}
    {matchID : Bytes32} (hexecuted : (w.contract nets net).executedMatches matchID = true) :
    w.HasSubmitted p matchID := by
  obtain ⟨r, hr, hid⟩ := (w.executed_iff nets net matchID).mp hexecuted
  have hsettle : Call.isSettle r.tx.call := by
    cases hcall : r.tx.call with
    | settle => trivial
    | _ =>
        rw [hcall] at hid
        exact absurd hid (by simp [Call.matchIdOf])
  obtain ⟨s, hs, _, hdecode⟩ := h.history net r.tx (trace_tx_mem hr) hsettle
  exact ⟨s, hs, r.tx.call, hdecode, hid⟩

section Submissions

variable (hkeccak : ∀ text, (p.keccak256 text).length = 32)
  (hsignatures : ∀ row signature, p.signatureMap row = .ok signature → signature.length < 2 ^ 32)
  (hwords : ∀ m ∈ messages, InWords m)
include hkeccak hsignatures hwords

theorem World.hasSubmitted_next (htracks : w.Tracks p nets messages) {matchID : Bytes32}
    (h : (w.next p nets l).HasSubmitted p matchID) : w.HasSubmitted p matchID ∨
      ∃ i answer handler q, l = .serve i answer true ∧ w.Submitting p i handler q ∧
        q.matchID = matchID := by
  obtain ⟨s', hs', call, hdecode, hid⟩ := h
  rcases World.mem_sent_before hs' with ⟨s, hs, hbecame⟩ | ⟨i, answer, rfl, hhands⟩
  · rw [hbecame.calldata] at hdecode
    exact Or.inl ⟨s, hs, call, hdecode, hid⟩
  · obtain ⟨handler, contractID, rest, hhandler, hprogram, _⟩ := hhands.handed
    have hh := List.mem_of_getElem? hhandler
    obtain ⟨q, later, hhandles, _, hpath⟩ := htracks.handles_now hh id hprogram
    obtain ⟨_, _, _, _, _, hdata, _, _, _⟩ := settlePrepared_execute hpath
    have hword : ∀ m ∈ ({handler.msg} : Set ClobMatch), InWords m := by
      rintro _ rfl
      exact hwords _ (htracks.delivered handler hh)
    obtain ⟨x, y, signatureA, signatureB, _, _, rfl⟩ :=
      hhandles.prepares.call hkeccak hsignatures hword hdata hdecode
    refine Or.inr ⟨i, answer, handler, q, rfl, ⟨hhandler, hhandles, ?_, ?_⟩, ?_⟩
    · exact ⟨_, contractID, _, rest, hprogram, hdata⟩
    · rw [hprogram]
      exact hpath.always (settlePrepared_marks p q)
    · exact Option.some.inj hid

/-! ## Steps of the invariant -/

omit hkeccak hsignatures hwords in
theorem World.Marks.same (h : w.Marks p messages) {h₁ h₂ : Handler} (h₁mem : h₁ ∈ w.handlers)
    (h₂mem : h₂ ∈ w.handlers) (hmsg : h₁.msg = h₂.msg) : h₁ = h₂ :=
  List.inj_on_of_nodup_map h.alone h₁mem h₂mem hmsg

end Submissions

variable (p nets) in
theorem World.serve_msgs (w : World) (i : Nat) (answer : (r : SettlementRequest) → r.Answer)
    (commit : Bool) : (w.next p nets (.serve i answer commit)).handlers.map Handler.msg =
      w.handlers.map Handler.msg := by
  simp only [World.next, World.serve]
  split
  · rfl
  next h hh =>
  split
  · rfl
  · exact map_set_same hh rfl

variable (p nets) in
theorem World.next_alone (halone : (w.handlers.map Handler.msg).Nodup) (hcareful : w.Careful l) :
    ((w.next p nets l).handlers.map Handler.msg).Nodup := by
  cases l with
  | deliver m =>
      have hfree : m ∉ w.handlers.map Handler.msg := by
        intro hmem
        obtain ⟨h, hh, rfl⟩ := List.mem_map.mp hmem
        exact hcareful h hh rfl
      simp only [World.next, List.map_append, List.map_cons, List.map_nil]
      exact halone.append (List.nodup_singleton m) (by simpa using hfree)
  | serve i answer commit =>
      rw [World.serve_msgs]
      exact halone
  | stop i => exact halone.sublist ((List.eraseIdx_sublist _ i).map _)
  | order k env =>
      rw [World.next, World.order_handlers]
      exact halone
  | _ => exact halone

variable (p nets l) in
/-- A handler stays until it is served, stops or is lost. -/
theorem World.handler_next {h : Handler} (hh : h ∈ w.handlers) :
    h ∈ (w.next p nets l).handlers ∨ ∃ i, w.handlers[i]? = some h ∧
      (l = .stop i ∨ ∃ answer commit, l = .serve i answer commit) := by
  cases l with
  | deliver m => exact Or.inl (List.mem_append_left _ hh)
  | serve i answer commit =>
      simp only [World.next, World.serve]
      split
      · exact Or.inl hh
      split
      · exact Or.inl hh
      rcases mem_set_kept hh with hkept | hserved
      · exact Or.inl hkept
      · exact Or.inr ⟨i, hserved, Or.inr ⟨answer, commit, rfl⟩⟩
  | stop i =>
      cases hi : w.handlers[i]? with
      | none =>
          refine Or.inl ?_
          rw [World.next, List.eraseIdx_of_length_le (List.getElem?_eq_none_iff.mp hi)]
          exact hh
      | some h' =>
          rcases mem_eraseIdx_or hi hh with rfl | hkept
          · exact Or.inr ⟨i, hi, Or.inl rfl⟩
          · exact Or.inl hkept
  | order k env =>
      rw [World.next, World.order_handlers]
      exact Or.inl hh
  | _ => exact Or.inl hh

theorem World.Marks.vouched_next (h : w.Marks p messages) (htracks : w.Tracks p nets messages)
    (hallowed : w.Allowed p nets l) (hkeeps : w.KeepsMarkets l) :
    ∀ h' ∈ (w.next p nets l).handlers, ∀ r a, ⟨r, a⟩ ∈ h'.answers →
      (w.next p nets l).Vouches p r a := by
  intro h' hmem r a ha
  rcases World.mem_handlers_next hmem with hold | ⟨m, rfl, rfl⟩ |
    ⟨i, answer, commit, handler, r', rest, rfl, hhandler, hprogram, rfl⟩
  · exact (h.vouched h' hold r a ha).next hkeeps
  · exact absurd ha List.not_mem_nil
  · rcases List.mem_append.mp ha with hbefore | hnew
    · exact (h.vouched handler (List.mem_of_getElem? hhandler) r a hbefore).next hkeeps
    · cases List.mem_singleton.mp hnew
      exact World.vouches_serve htracks hhandler hprogram hallowed

theorem Db.markMatchSubmitted_tried {db : Db} {matchID hederaTxID : Str} {row : Match}
    (hrow : db.matches_.find matchID = some row) :
    ∃ row', (db.markMatchSubmitted matchID hederaTxID).matches_.find matchID = some row' ∧
      (0 < row'.attempts ∨ row'.status = .finalized) := by
  rw [Db.markMatchSubmitted, Db.updateMatch_find, hrow, Option.map_some, if_pos rfl]
  refine ⟨_, rfl, ?_⟩
  split
  · next hfinal => exact Or.inr hfinal
  · exact Or.inl (Nat.succ_pos _)

/-- A handler that is about to mark its submission has marked it after the step, or goes on. -/
theorem World.Careful.marked (hcareful : w.Careful l) (htracks : w.Tracks p nets messages)
    {h : Handler} (hh : h ∈ w.handlers) {q : Prepared} (hq : w.Prepares p {h.msg} q)
    (hmarking : h.Marking q.record.matchID) :
    (w.next p nets l).Tried q.record.matchID ∨ h ∈ (w.next p nets l).handlers := by
  rcases w.handler_next p nets l hh with hkept | ⟨i, hi, rfl | ⟨answer, commit, rfl⟩⟩
  · exact Or.inr hkept
  · exact absurd hmarking (hcareful h _ hi)
  · obtain ⟨hederaTxID, rest, hprogram⟩ := hmarking
    have hwritten : commit = true := hcareful h _ rest hi hprogram
    subst hwritten
    obtain ⟨q', row, hhandles, hrow⟩ := htracks.recorded hh id id hprogram
    have hid := hq.matchID_eq hhandles.prepares
    rw [hhandles.prepares.recordID, ← hid, ← hq.recordID] at hrow
    rw [World.next_serve hi hprogram]
    exact Or.inl (Db.markMatchSubmitted_tried hrow)

section Preserved

variable (hkeccak : ∀ text, (p.keccak256 text).length = 32)
  (hsignatures : ∀ row signature, p.signatureMap row = .ok signature → signature.length < 2 ^ 32)
  (hwords : ∀ m ∈ messages, InWords m) (h : w.Marks p messages)
  (htracks : w.Tracks p nets messages)
include hkeccak hsignatures hwords h htracks

theorem World.Marks.submitted_next (hkeeps : w.KeepsMarkets l) (hcareful : w.Careful l)
    {matchID : Bytes32} (hsubmitted : (w.next p nets l).HasSubmitted p matchID) :
    ∃ m ∈ messages, ∃ q, (w.next p nets l).Submitted p m q ∧ q.matchID = matchID ∧
      ((w.next p nets l).Tried q.record.matchID ∨
        ∃ h ∈ (w.next p nets l).handlers, h.msg = m ∧ h.Marking q.record.matchID) := by
  rcases World.hasSubmitted_next hkeccak hsignatures hwords htracks hsubmitted with hold |
    ⟨i, answer, handler, q, rfl, hsubmitting, hid⟩
  · obtain ⟨m, hm, q, hq, hid, htried⟩ := h.submitted matchID hold
    refine ⟨m, hm, q, hq.next hkeeps, hid, ?_⟩
    rcases htried with htried | ⟨g, hg, rfl, hmarking⟩
    · exact Or.inl htried.next
    · rcases hcareful.marked htracks hg hq.prepares hmarking with htried | hkept
      · exact Or.inl htried
      · exact Or.inr ⟨g, hkept, rfl, hmarking⟩
  · have hh := List.mem_of_getElem? hsubmitting.handler
    obtain ⟨net, contractID, calldata, rest, hprogram, hdata⟩ := hsubmitting.program
    obtain ⟨market, hmarket, hcontract⟩ := hsubmitting.handles.market
    have hsub : w.Submitted p handler.msg q := by
      refine ⟨hsubmitting.handles.prepares, hsubmitting.handles.markets, ?_, calldata, hdata⟩
      rw [← hcontract]
      exact h.vouched handler hh _ _ hmarket
    obtain ⟨txHash, hanswer⟩ := hcareful handler _ rest hsubmitting.handler hprogram rfl
    obtain ⟨later, hlater⟩ := hsubmitting.marks _ _ _ _ hprogram txHash
    refine ⟨handler.msg, htracks.delivered handler hh, q, hsub.next hkeeps, hid, Or.inr ?_⟩
    rw [World.next_serve hsubmitting.handler hprogram]
    refine ⟨_, List.mem_set (List.getElem?_eq_some_iff.mp hsubmitting.handler).1 _, rfl, txHash,
      later, ?_⟩
    dsimp only
    rw [hanswer]
    exact hlater

theorem World.Marks.untried_next (hone : OneMessage p messages)
    (hallowed : w.Allowed p nets l) (hof : l.Of messages) (hcareful : w.Careful l) :
    ∀ h' ∈ (w.next p nets l).handlers, ∀ record row matchID,
      ⟨.createMatchV2 record, .ok row⟩ ∈ h'.answers → record.matchID = matchIDText matchID →
        row.status ≠ .finalized → Untried row h'.answers →
          ¬(w.next p nets l).HasSubmitted p matchID := by
  intro h' hmem record row matchID hcreate hrecord hopen huntried hsubmitted
  have htracks' := htracks.next hallowed hof
  have hnames : Names p h'.msg matchID := by
    obtain ⟨q, hq, rfl⟩ := htracks'.handles_created hmem hcreate
    rw [hq.prepares.recordID] at hrecord
    rw [← matchIDText_injective hrecord]
    exact hq.prepares.names
  rcases World.hasSubmitted_next hkeccak hsignatures hwords htracks hsubmitted with hold |
    ⟨i, answer, g, q, rfl, hsubmitting, rfl⟩
  · rcases World.mem_handlers_next hmem with hkept | ⟨m, rfl, rfl⟩ |
      ⟨i, answer, commit, g, r, rest, rfl, hhandler, hprogram, rfl⟩
    · exact h.untried h' hkept record row matchID hcreate hrecord hopen huntried hold
    · exact absurd hcreate List.not_mem_nil
    have hg := List.mem_of_getElem? hhandler
    rcases List.mem_append.mp hcreate with hbefore | hnew
    · refine h.untried g hg record row matchID hbefore hrecord hopen ⟨huntried.1, ?_⟩ hold
      exact fun a ha => huntried.2 a (List.mem_append_left _ ha)
    -- the row that the handler has just been given is the row of the recorded attempt
    · have hhonest := hallowed g r rest hhandler hprogram
      rw [List.mem_singleton, Sigma.mk.injEq] at hnew
      obtain ⟨rfl, hanswer⟩ := hnew
      rw [← eq_of_heq hanswer] at hhonest
      obtain ⟨m, hm, q, hq, rfl, htried⟩ := h.submitted matchID hold
      have hmsg := hone m hm g.msg (htracks.delivered g hg) _ hq.prepares.names hnames
      rcases htried with ⟨old, hfind, htried⟩ | ⟨g', hg', hmsg', hederaTxID, later, hmarking⟩
      · rw [hq.prepares.recordID, ← hrecord] at hfind
        obtain rfl : row = old := hhonest.2.trans (Db.createMatchV2_kept hfind)
        exact htried.elim (fun hattempts => hattempts.ne' huntried.1) hopen
      · obtain rfl := h.same hg' hg (hmsg'.trans hmsg)
        rw [hprogram] at hmarking
        exact absurd hmarking (by simp)
  -- the handler that submits now has the same message, so it is this one
  · have hg := List.mem_of_getElem? hsubmitting.handler
    obtain ⟨net, contractID, calldata, rest, hprogram, _⟩ := hsubmitting.program
    have halone := w.next_alone p nets h.alone hcareful
    have hmsg := hone g.msg (htracks.delivered g hg) h'.msg (htracks'.delivered h' hmem) _
      hsubmitting.handles.prepares.names hnames
    have hserved : (⟨g.msg, rest (answer _), g.answers ++
        [⟨.execute net contractID calldata, answer _⟩]⟩ : Handler) ∈
        (w.next p nets (.serve i answer true)).handlers := by
      rw [World.next_serve hsubmitting.handler hprogram]
      exact List.mem_set (List.getElem?_eq_some_iff.mp hsubmitting.handler).1 _
    obtain rfl := List.inj_on_of_nodup_map halone hserved hmem hmsg
    exact huntried.2 _ (List.mem_append_right _ List.mem_cons_self) trivial

theorem World.Marks.next (hone : OneMessage p messages) (hallowed : w.Allowed p nets l)
    (hof : l.Of messages) (hkeeps : w.KeepsMarkets l) (hcareful : w.Careful l) :
    (w.next p nets l).Marks p messages where
  alone := w.next_alone p nets h.alone hcareful
  vouched := h.vouched_next htracks hallowed hkeeps
  submitted _ hsubmitted :=
    h.submitted_next hkeccak hsignatures hwords htracks hkeeps hcareful hsubmitted
  untried := h.untried_next hkeccak hsignatures hwords htracks hone hallowed hof hcareful

end Preserved

/-! ## Outcomes -/

section Outcomes

variable {g : Handler} {q : Prepared}

/-- What a handler reads of a match that was submitted before is what it was prepared from. -/
structure World.Rereads (p : Platform) (g : Handler) (bid ask : CreateOrderRequestClob)
    (q : Prepared) : Prop where
  prepared : PreparedOf p g.msg bid ask q
  bidRow : ∀ row, ⟨.getPredictionIntentByTxId bid.txId, .ok row⟩ ∈ g.answers →
    row.toOrderTerms = q.bidRow.toOrderTerms
  askRow : ∀ row, ⟨.getPredictionIntentByTxId ask.txId, .ok row⟩ ∈ g.answers →
    row.toOrderTerms = q.askRow.toOrderTerms
  market : ∀ market, ⟨.getMarketById g.msg.marketId, .ok market⟩ ∈ g.answers →
    market.smartContractID = q.cfg.contractID

theorem World.Submitted.rereads (hsubmitted : w.Submitted p g.msg q)
    (htracks : w.Tracks p nets messages) (hmarks : w.Marks p messages) (hg : g ∈ w.handlers) :
    ∃ bid ask, World.Rereads p g bid ask q := by
  obtain ⟨_, rfl, bid, ask, hprepared, _, _, hbidHolds, haskHolds⟩ := hsubmitted.prepares
  have hsame {txId : Str} {row row' : PredictionIntent} (hholds : w.Holds row')
      (hparse : p.uuid.parse txId = .ok row'.txID)
      (hread : ⟨.getPredictionIntentByTxId txId, .ok row⟩ ∈ g.answers) :
      row.toOrderTerms = row'.toOrderTerms := by
    obtain ⟨hparse', stored, hfind, hterms⟩ := htracks.read g hg txId row hread
    obtain ⟨hmem, hkey⟩ := Table.find_eq_some.mp hfind
    rw [hparse, Except.ok.injEq] at hparse'
    exact hterms.symm.trans (hholds.terms hmem (hkey.trans hparse'.symm))
  refine ⟨bid, ask, hprepared, fun row => hsame hbidHolds hprepared.bidId,
    fun row => hsame haskHolds hprepared.askId, ?_⟩
  intro market hmarket
  exact World.OnContract.eq (hmarks.vouched g hg _ _ hmarket) hsubmitted.contract

theorem World.Rereads.prepare {bid ask : CreateOrderRequestClob} (h : World.Rereads p g bid ask q)
    {bidRow askRow : PredictionIntent} {cfg : PrismV2Network} {market : MarketRow}
    (hbid : ⟨.getPredictionIntentByTxId bid.txId, .ok bidRow⟩ ∈ g.answers)
    (hask : ⟨.getPredictionIntentByTxId ask.txId, .ok askRow⟩ ∈ g.answers)
    (hmarket : ⟨.getMarketById g.msg.marketId, .ok market⟩ ∈ g.answers)
    (hcfg : p.getPrismV2Network bidRow.net = .ok cfg) :
    prepare p g.msg bid ask bidRow askRow cfg market =
      .ok { q with bidRow := bidRow, askRow := askRow } := by
  obtain ⟨market', hprepare⟩ := h.prepared.prepared
  have hnetwork := h.prepared.network
  rw [← h.bidRow bidRow hbid, hcfg, Except.ok.injEq] at hnetwork
  rw [hnetwork]
  exact prepare_of_terms (h.bidRow bidRow hbid) (h.askRow askRow hask)
    ((h.market market hmarket).trans (prepare_contract hprepare).symm) hprepare

theorem World.Rereads.passes {bid ask : CreateOrderRequestClob} (h : World.Rereads p g bid ask q)
    (hmarkets : bid.marketId = g.msg.marketId ∧ ask.marketId = g.msg.marketId) :
    Passes p g.msg bid ask g.answers := by
  refine ⟨h.prepared.bid_eq, h.prepared.ask_eq, hmarkets, ?_⟩
  intro bidRow askRow hbid hask
  refine ⟨?_, fun cfg market hcfg hmarket => ⟨_, h.prepare hbid hask hmarket hcfg⟩⟩
  rw [checkRows_of_terms (h.bidRow bidRow hbid) (h.askRow askRow hask)]
  exact h.prepared.rows

/-- A match is only rejected when it was never submitted. -/
theorem World.Marks.rejected (hmarks : w.Marks p messages) (htracks : w.Tracks p nets messages)
    (hone : OneMessage p messages) (hg : g ∈ w.handlers) {settlement : Settlement}
    (hprogram : g.program = .ret settlement) (hrejected : settlement.1 = .rejected)
    {matchID : Bytes32} (hnames : Names p g.msg matchID) : ¬w.HasSubmitted p matchID := by
  intro hsubmitted
  obtain ⟨m, hm, q, hq, rfl, _⟩ := hmarks.submitted matchID hsubmitted
  obtain rfl := hone m hm g.msg (htracks.delivered g hg) _ hq.prepares.names hnames
  obtain ⟨bid, ask, hrereads⟩ := hq.rereads htracks hmarks hg
  have hmarkets := hq.markets bid ask hrereads.prepared.bid_eq hrereads.prepared.ask_eq
  have hpath := (htracks.sane.onPath g hg).1
  rw [hprogram] at hpath
  rcases settleMatchV2_ret hpath (by simp [hrejected]) with ⟨_, hfails⟩ |
    ⟨bid', ask', bidRow, askRow, cfg, market, q', later, hbid, hask, _, hcfg, hprepare, hanswers,
      hreturned⟩
  · exact hfails bid ask (hrereads.passes hmarkets)
  · cases hbid.symm.trans hrereads.prepared.bid_eq
    cases hask.symm.trans hrereads.prepared.ask_eq
    have hbidRead : ⟨.getPredictionIntentByTxId bid.txId, .ok bidRow⟩ ∈ g.answers := by
      simp [hanswers]
    have haskRead : ⟨.getPredictionIntentByTxId ask.txId, .ok askRow⟩ ∈ g.answers := by
      simp [hanswers]
    have hmarketRead : ⟨.getMarketById g.msg.marketId, .ok market⟩ ∈ g.answers := by
      simp [hanswers]
    have hsame := hrereads.prepare hbidRead haskRead hmarketRead hcfg
    rw [hprepare, Except.ok.injEq] at hsame
    subst hsame
    rcases (settlePrepared_ret hreturned).2 hrejected with ⟨err, hfailure⟩ |
      ⟨row, hcreate, hopen, hattempts, hnone⟩
    · obtain ⟨calldata, hdata⟩ := hq.calldata
      rw [calldata_of_terms (hrereads.bidRow bidRow hbidRead) (hrereads.askRow askRow haskRead) q
        rfl rfl, hdata] at hfailure
      exact absurd hfailure (by simp)
    · refine hmarks.untried g hg _ row q.matchID ?_ hq.prepares.recordID hopen ⟨hattempts, ?_⟩
        hsubmitted
      · simp [hanswers, hcreate]
      · rw [hanswers]
        simp only [List.forall_mem_cons]
        exact ⟨id, id, id, hnone⟩

/-- A match that a handler is done with is finalized. -/
theorem World.Marks.done (hmarks : w.Marks p messages) (htracks : w.Tracks p nets messages)
    (hg : g ∈ w.handlers) {settlement : Settlement} (hprogram : g.program = .ret settlement)
    (hdone : settlement.1 = .done) :
    ∃ q, w.Prepares p {g.msg} q ∧ w.db.finalized q.record.matchID = true := by
  have hpath := (htracks.sane.onPath g hg).1
  rw [hprogram] at hpath
  rcases settleMatchV2_ret hpath (by simp [hdone]) with ⟨hrejected, _⟩ |
    ⟨bid, ask, bidRow, askRow, cfg, market, q, later, hbid, hask, hrows, hcfg, hprepare, hanswers,
      hreturned⟩
  · exact absurd (hdone.symm.trans hrejected) nofun
  · have hlater {a} (ha : a ∈ later) : a ∈ g.answers := by simp [hanswers, ha]
    refine ⟨q, htracks.prepares_of hg hbid hask (by simp [hanswers]) (by simp [hanswers]) hrows hcfg
      hprepare, ?_⟩
    rcases (settlePrepared_ret hreturned).1 hdone with ⟨txHash, applied, hfinalize⟩ |
      ⟨row, hcreate, hfinal⟩
    · exact hmarks.vouched g hg _ _ (hlater hfinalize)
    · exact hmarks.vouched g hg _ _ (hlater hcreate) hfinal

end Outcomes

end Steps

end PrismBackend.Api
