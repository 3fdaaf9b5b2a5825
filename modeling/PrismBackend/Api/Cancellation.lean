import PrismBackend.Api.Consumer

/-!
# API: cancellations that race with a settlement

A handler checks the marks of both orders on the rows that it read first, before
it asked the mirror node. A cancellation is honoured unless it falls between that
read and the submission.
-/

namespace PrismBackend.Api

open PrismBackend.Lib PrismBackend.Clob PrismBackend.PrismV2

/-! ## Cancelled orders and submissions -/

/-- The order is cancelled or kicked out. -/
def Db.Revoked (db : Db) (txID : Uint128) : Prop :=
  ∃ row, db.intents.find txID = some row ∧ (row.cancelledAt = true ∨ row.evictedAt = true)

def filledOrders : Call → List Uint128
  | .settle a _ b _ _ _ _ => [a.txId, b.txId]
  | _ => []

section Race

variable (p : Platform) (nets : Str → Network)

def World.Sends (w : World) (l : Label) (call : Call) : Prop :=
  ∃ i answer commit h net contractID calldata rest, l = .serve i answer commit ∧
    w.handlers[i]? = some h ∧ h.program = .call (.execute net contractID calldata) rest ∧
    decodeSettle p.keccak256 calldata = some call

def Handler.HasRead (h : Handler) (row : PredictionIntent) : Prop :=
  ∃ txId, ⟨.getPredictionIntentByTxId txId, .ok row⟩ ∈ h.answers

def Handler.MaySubmit (h : Handler) : Prop := ¬h.program.Makes fun r => ¬r.isExecute

/-- No handler that has read the order has its submission ahead. -/
def World.Quiet (w : World) (txID : Uint128) : Prop :=
  ∀ h ∈ w.handlers, ∀ row, h.HasRead row → row.txID = txID → ¬h.MaySubmit

/-- A mark of an order does not fall between a read of the order and the submission that follows,
and the mirror node knows of an execution when it is asked. -/
def World.NoRace (w : World) : Label → Prop
  | .cancel txID => w.Quiet txID
  | .evict txID => w.Quiet txID
  | .serve i answer _ => ∀ h net contractID matchID rest, w.handlers[i]? = some h →
    h.program = .call (.isMatchExecutedV2 net contractID matchID) rest →
    (w.contract nets net).executedMatches matchID = true →
    answer (.isMatchExecutedV2 net contractID matchID) = .ok true
  | _ => True

end Race

section Runs

variable {p : Platform} {nets : Str → Network}

/-! ## What the handlers have read -/

/-- The handlers are on their paths, and have read rows of the table. -/
structure World.Sane (p : Platform) (w : World) : Prop where
  onPath : w.OnPath p
  stored : w.Stored
  read : ∀ h ∈ w.handlers, ∀ row, h.HasRead row →
    Api.Stored row ∧ ∃ row', w.db.intents.find row.txID = some row'

/-- A row that a handler has read after a step was read before, or is the answer. -/
theorem World.hasRead_next {w : World} {l : Label} {h' : Handler}
    (hmem : h' ∈ (w.next p nets l).handlers) (hallowed : w.Allowed p nets l)
    {row : PredictionIntent} (hread : h'.HasRead row) :
    (∃ h ∈ w.handlers, h.HasRead row ∧ (h'.MaySubmit → h.MaySubmit)) ∨
      (∃ i answer commit, l = .serve i answer commit) ∧ w.db.intents.find row.txID = some row := by
  obtain ⟨txId, hread⟩ := hread
  rcases World.answered_next hmem hallowed hread with ⟨h, hh, hbefore, hmakes⟩ |
    ⟨i, answer, commit, hl, hhonest⟩
  · exact Or.inl ⟨h, hh, ⟨txId, hbefore⟩, fun hmay hnot => hmay (hmakes _ hnot)⟩
  · exact Or.inr ⟨⟨i, answer, commit, hl⟩, (Db.getPredictionIntentByTxId_ok hhonest).2⟩

theorem World.Sane.next {w : World} (hw : w.Sane p) {l : Label} (hallowed : w.Allowed p nets l) :
    (w.next p nets l).Sane p := by
  refine ⟨hw.onPath.next hallowed, hw.stored.next hallowed, ?_⟩
  intro h' hmem row hread
  rcases World.hasRead_next hmem hallowed hread with ⟨h, hh, hbefore, _⟩ | ⟨_, hfound⟩
  · obtain ⟨hstored, row', hrow'⟩ := hw.read h hh row hbefore
    obtain ⟨row'', hrow'', _⟩ := w.find_next p nets l hrow'
    exact ⟨hstored, row'', hrow''⟩
  · obtain ⟨row'', hrow'', _⟩ := w.find_next p nets l hfound
    exact ⟨hw.stored row (Table.find_eq_some.mp hfound).1, row'', hrow''⟩

theorem World.Sane.run {condition : World → Label → Prop} {w : World} (hw : w.Sane p)
    {ls : List Label} (h : w.Runs p nets condition ls) : (w.run p nets ls).Sane p :=
  System.Runs.preserves h (fun _ _ hw hallowed _ => hw.next hallowed) hw

/-- What a handler read of an order's marks still holds while its submission is ahead. -/
def World.Current (w : World) : Prop :=
  ∀ h ∈ w.handlers, ∀ row, h.HasRead row → h.MaySubmit →
    w.db.Revoked row.txID → row.cancelledAt = true ∨ row.evictedAt = true

theorem World.revoked_next {w : World} {l : Label} {txID : Uint128}
    {row : PredictionIntent} (hrow : w.db.intents.find txID = some row)
    (h : (w.next p nets l).db.Revoked txID) :
    w.db.Revoked txID ∨ l = .cancel txID ∨ l = .evict txID := by
  obtain ⟨row', hfind, hmark⟩ := h
  obtain ⟨row'', hrow'', hstep⟩ := w.find_next p nets l hrow
  have hkey := (Table.find_eq_some.mp hrow).2
  rw [hfind, Option.some.injEq] at hrow''
  subst hrow''
  rw [← hkey]
  rcases hmark with hcancelled | hevicted
  · rcases hstep.cancelled hcancelled with hbefore | hlabel
    · exact Or.inl ⟨row, hkey ▸ hrow, Or.inl hbefore⟩
    · exact Or.inr (Or.inl hlabel)
  · rcases hstep.evicted hevicted with hbefore | hlabel
    · exact Or.inl ⟨row, hkey ▸ hrow, Or.inr hbefore⟩
    · exact Or.inr (Or.inr hlabel)

theorem World.revoked_stays {w : World} {txID : Uint128} (h : w.db.Revoked txID) (l : Label) :
    (w.next p nets l).db.Revoked txID := by
  obtain ⟨row, hfind, hmark⟩ := h
  obtain ⟨row', hrow', hstep⟩ := w.find_next p nets l hfind
  exact ⟨row', hrow', hmark.imp hstep.cancelledStays hstep.evictedStays⟩

theorem World.Current.next {w : World} (hw : w.Current) (hsane : w.Sane p) {l : Label}
    (hallowed : w.Allowed p nets l) (hrace : w.NoRace nets l) : (w.next p nets l).Current := by
  intro h' hmem row hread hmay hrevoked
  rcases World.hasRead_next hmem hallowed hread with ⟨h, hh, hbefore, hmayBefore⟩ | ⟨hserve, hfound⟩
  · obtain ⟨_, row', hrow'⟩ := hsane.read h hh row hbefore
    rcases World.revoked_next hrow' hrevoked with hrevoked | rfl | rfl
    · exact hw h hh row hbefore (hmayBefore hmay) hrevoked
    · exact absurd (hmayBefore hmay) (hrace h hh row hbefore rfl)
    · exact absurd (hmayBefore hmay) (hrace h hh row hbefore rfl)
  · obtain ⟨i, answer, commit, rfl⟩ := hserve
    rcases World.revoked_next hfound hrevoked with ⟨row', hrow', hmark⟩ | hlabel | hlabel
    · rw [hfound, Option.some.injEq] at hrow'
      subst hrow'
      exact hmark
    · exact absurd hlabel (by simp)
    · exact absurd hlabel (by simp)

/-! ## Finalization -/

theorem settleMatchV2_recovers (p : Platform) (m : ClobMatch) :
    (settleMatchV2 p m).Always Recovers := by
  unfold settleMatchV2
  split
  · next bid ask hbid hask =>
    split
    · exact recovers_ret _
    rw [Program.request_bind]
    refine ⟨recovers_call (by simp), ?_⟩
    intro answer
    cases answer with
    | error err => exact recovers_ret _
    | ok bidRow =>
      dsimp only
      rw [Program.request_bind]
      refine ⟨recovers_call (by simp), ?_⟩
      intro answer
      cases answer with
      | error err => exact recovers_ret _
      | ok askRow =>
        dsimp only [settleRows]
        split
        · exact recovers_ret _
        split
        · exact recovers_ret _
        rw [Program.request_bind]
        refine ⟨recovers_call (by simp), ?_⟩
        intro answer
        cases answer with
        | error err => exact recovers_ret _
        | ok market =>
          dsimp only
          split
          · exact recovers_ret _
          next q hq => exact settlePrepared_recovers (prepare_ok hbid hask hq).recordID p
  · exact recovers_ret _

/-- Two rows that may differ in their marks. -/
structure SameFill (row row' : PredictionIntent) : Prop where
  terms : row'.toOrderTerms = row.toOrderTerms
  sharesFilled : row'.sharesFilled = row.sharesFilled

structure SameButMarks (db db' : Db) : Prop where
  matches_ : db'.matches_ = db.matches_
  intents : ∀ k, Option.Rel SameFill (db.intents.find k) (db'.intents.find k)

theorem rel_map {f g : PredictionIntent → PredictionIntent} {row row' : Option PredictionIntent}
    (h : Option.Rel SameFill row row') (hfg : ∀ r r', SameFill r r' → SameFill (f r) (g r')) :
    Option.Rel SameFill (row.map f) (row'.map g) := by
  cases h with
  | none => exact .none
  | some h => exact .some (hfg _ _ h)

theorem rel_of_map {f : PredictionIntent → PredictionIntent} (row : Option PredictionIntent)
    (hf : ∀ r, SameFill r (f r)) : Option.Rel SameFill row (row.map f) := by
  cases row with
  | none => exact .none
  | some row => exact .some (hf row)

theorem sameButMarks_cancel (db : Db) (txID : Uint128) :
    SameButMarks db (db.cancelPredictionIntent txID) := by
  refine ⟨rfl, ?_⟩
  intro k
  have hfind : (db.cancelPredictionIntent txID).intents.find k = _ :=
    Table.find_modify_map (fun _ => by rfl) k
  rw [hfind]
  apply rel_of_map
  intro row
  split
  · exact ⟨rfl, rfl⟩
  · exact ⟨rfl, rfl⟩

theorem sameButMarks_evict (db : Db) (txID : Uint128) :
    SameButMarks db (db.markPredictionIntentAsEvicted txID) := by
  refine ⟨rfl, ?_⟩
  intro k
  have hfind : (db.markPredictionIntentAsEvicted txID).intents.find k = _ :=
    Table.find_modify_map (fun _ => by rfl) k
  rw [hfind]
  apply rel_of_map
  intro row
  split
  · exact ⟨rfl, rfl⟩
  · exact ⟨rfl, rfl⟩

def fillCheck (shares : Nat) : Option PredictionIntent → Except String Unit
  | none => .error noRows
  | some row => do
    revertIf (row.protocolVersion ≠ 2) noRows
    revertIf (row.qtyShares.any fun qtyShares => row.sharesFilled + shares > qtyShares)
      "prediction_intents_shares_filled_check"

theorem addPredictionIntentFill_eq (db : Db) (txID : Uint128) (shares collateral : Nat) :
    db.addPredictionIntentFill txID shares collateral = (do
      fillCheck shares (db.intents.find txID)
      .ok { db with
        intents := db.intents.modify txID (·.filled shares collateral) fun _ => rfl }) := by
  unfold Db.addPredictionIntentFill fillCheck
  cases db.intents.find txID with
  | none => rfl
  | some row => simp only [bind_assoc]

theorem fillCheck_congr {shares : Nat} {row row' : Option PredictionIntent}
    (h : Option.Rel SameFill row row') : fillCheck shares row' = fillCheck shares row := by
  cases h with
  | none => rfl
  | some h => simp only [fillCheck, h.terms, h.sharesFilled]

/-- A fill is applied to both databases or to neither, for the same reason. -/
theorem SameButMarks.addPredictionIntentFill {db db' : Db} (h : SameButMarks db db')
    (txID : Uint128) (shares collateral : Nat) :
    (∃ err, db.addPredictionIntentFill txID shares collateral = .error err ∧
      db'.addPredictionIntentFill txID shares collateral = .error err) ∨
    ∃ after after', db.addPredictionIntentFill txID shares collateral = .ok after ∧
      db'.addPredictionIntentFill txID shares collateral = .ok after' ∧
      SameButMarks after after' := by
  rw [addPredictionIntentFill_eq, addPredictionIntentFill_eq, fillCheck_congr (h.intents txID)]
  cases fillCheck shares (db.intents.find txID) with
  | error err => exact Or.inl ⟨err, rfl, rfl⟩
  | ok u =>
      refine Or.inr ⟨_, _, rfl, rfl, h.matches_, ?_⟩
      intro k
      dsimp only
      rw [Table.find_modify_map (fun _ => by rfl) k, Table.find_modify_map (fun _ => by rfl) k]
      apply rel_map (h.intents k)
      intro row row' hsame
      split
      · exact ⟨hsame.terms, congrArg (· + shares) hsame.sharesFilled⟩
      · exact hsame

theorem SameButMarks.finalizeMatch {db db' : Db} (h : SameButMarks db db') (matchID txHash : Str) :
    SameButMarks (db.finalizeMatch matchID txHash) (db'.finalizeMatch matchID txHash) := by
  refine ⟨?_, h.intents⟩
  unfold Db.finalizeMatch Db.updateMatch
  rw [h.matches_]

/-- A finalization does not look at the marks of the two orders. -/
theorem SameButMarks.finalizeMatchV2 {db db' : Db} (h : SameButMarks db db') (uuid : Uuid)
    (m : MatchV2) (txHash : Str) :
    (db'.finalizeMatchV2 uuid m txHash).map Prod.snd =
      (db.finalizeMatchV2 uuid m txHash).map Prod.snd := by
  unfold Db.finalizeMatchV2
  rw [h.matches_]
  cases db.matches_.find m.matchID with
  | none => rfl
  | some row =>
      dsimp only
      split
      · rfl
      have hfinal := h.finalizeMatch m.matchID txHash
      rcases hfinal.addPredictionIntentFill m.bidTxID m.fillShares m.bidCollateral with
        ⟨err, hbid, hbid'⟩ | ⟨middle, middle', hbid, hbid', hmiddle⟩
      · rw [hbid, hbid']
      rw [hbid, hbid']
      rcases hmiddle.addPredictionIntentFill m.askTxID m.fillShares m.askCollateral with
        ⟨err, hask, hask'⟩ | ⟨last, last', hask, hask', _⟩
      · simp only [Except.mapError, ok_bind, hask, hask']
      · simp only [Except.mapError, ok_bind, hask, hask']
        rfl

/-! ## Cancellations are honoured -/

theorem checkLive_ok {p : Platform} {row : PredictionIntent} (h : checkLive p row = .ok ()) :
    ¬(row.cancelledAt = true ∨ row.evictedAt = true) := by
  simpa only [checkLive, revertIf_ok_iff] using h

/-- A call that is handed to the network fills two orders that the handler has read, and found
live. -/
theorem World.Sane.sends {w : World} (hw : w.Sane p)
    (hkeccak : ∀ text, (p.keccak256 text).length = 32)
    (hsignatures : ∀ row signature, p.signatureMap row = .ok signature →
      signature.length < 2 ^ 32)
    {l : Label} {call : Call} (h : w.Sends p l call) {txID : Uint128}
    (hfills : txID ∈ filledOrders call) :
    ∃ handler ∈ w.handlers, handler.MaySubmit ∧ ∃ row, handler.HasRead row ∧ row.txID = txID ∧
      ¬(row.cancelledAt = true ∨ row.evictedAt = true) := by
  obtain ⟨i, answer, commit, handler, net, contractID, calldata, rest, rfl, hhandler, hprogram,
    hcall⟩ := h
  have hmem := List.mem_of_getElem? hhandler
  obtain ⟨hpath, hfill⟩ := hw.onPath handler hmem
  rw [hprogram] at hpath
  obtain ⟨q, x, y, hsubmitted⟩ := submittedFill hkeccak hsignatures hfill hpath
    fun txId row hread => (hw.read handler hmem row ⟨txId, hread⟩).1
  have hmay : handler.MaySubmit := by
    intro hmakes
    rw [hprogram] at hmakes
    exact hmakes.1 trivial
  obtain ⟨signatureA, signatureB, hsettle⟩ := hsubmitted.call
  rw [hsettle, Option.some.injEq] at hcall
  rw [← hcall, filledOrders, List.mem_pair] at hfills
  refine ⟨handler, hmem, hmay, ?_⟩
  rcases hfills with rfl | rfl
  · exact ⟨q.bidRow, hsubmitted.bidRead, hsubmitted.bid.txId.symm, checkLive_ok hsubmitted.bidLive⟩
  · exact ⟨q.askRow, hsubmitted.askRead, hsubmitted.ask.txId.symm, checkLive_ok hsubmitted.askLive⟩

/-- A handler at its submission sends a call that fills an order of the table. -/
theorem World.Sane.exists_sends {w : World} (hw : w.Sane p)
    (hkeccak : ∀ text, (p.keccak256 text).length = 32)
    (hsignatures : ∀ row signature, p.signatureMap row = .ok signature →
      signature.length < 2 ^ 32)
    {i : Nat} {h : Handler} (hh : w.handlers[i]? = some h) {net contractID : Str}
    {calldata : Bytes} {rest} (hprogram : h.program = .call (.execute net contractID calldata) rest)
    (answer : (r : SettlementRequest) → r.Answer) (commit : Bool) :
    ∃ call, w.Sends p (.serve i answer commit) call ∧
      ∃ txID ∈ filledOrders call, ∃ row, w.db.intents.find txID = some row := by
  have hmem := List.mem_of_getElem? hh
  obtain ⟨hpath, hfill⟩ := hw.onPath h hmem
  rw [hprogram] at hpath
  obtain ⟨q, x, y, hsubmitted⟩ := submittedFill hkeccak hsignatures hfill hpath
    fun txId row hread => (hw.read h hmem row ⟨txId, hread⟩).1
  obtain ⟨signatureA, signatureB, hsettle⟩ := hsubmitted.call
  refine ⟨_, ⟨i, answer, commit, h, net, contractID, calldata, rest, rfl, hh, hprogram, hsettle⟩,
    x.txId, List.mem_cons_self, ?_⟩
  obtain ⟨_, hfound⟩ := hw.read h hmem q.bidRow hsubmitted.bidRead
  rw [hsubmitted.bid.txId]
  exact hfound

/-- In every run in which no order is marked between a handler's read and its submission, no
step hands a settlement of a cancelled or evicted order to the network, marks stay, and a match
that the contract has executed when a handler asks goes on to its finalization, which no mark
can stop. -/
theorem cancellation_honoured (hkeccak : ∀ text, (p.keccak256 text).length = 32)
    (hsignatures : ∀ row signature, p.signatureMap row = .ok signature →
      signature.length < 2 ^ 32)
    {w : World} (hhandlers : w.handlers = []) (hstored : w.Stored) :
    (∀ before l after, w.Runs p nets (World.NoRace nets) (before ++ l :: after) →
      (∀ call, (w.run p nets before).Sends p l call → ∀ txID ∈ filledOrders call,
        ¬(w.run p nets before).db.Revoked txID) ∧
      (∀ txID, (w.run p nets before).db.Revoked txID →
        ((w.run p nets before).next p nets l).db.Revoked txID) ∧
      ∀ i answer commit h net contractID matchID rest, l = .serve i answer commit →
        (w.run p nets before).handlers[i]? = some h →
        h.program = .call (.isMatchExecutedV2 net contractID matchID) rest →
        ((w.run p nets before).contract nets net).executedMatches matchID = true →
        ∃ record txHash later, record.matchID = matchIDText matchID ∧
          (((w.run p nets before).next p nets l).handlers[i]?).map (·.program) =
            some (.call (.finalizeMatchV2 record txHash) later) ∧
          ∀ applied, later (.ok applied) = .ret (.done, none)) ∧
    ∀ (db : Db) (txID : Uint128) (record : MatchV2) (txHash : Str),
      ((db.cancelPredictionIntent txID).finalizeMatchV2 p.uuid record txHash).map Prod.snd =
        (db.finalizeMatchV2 p.uuid record txHash).map Prod.snd ∧
      ((db.markPredictionIntentAsEvicted txID).finalizeMatchV2 p.uuid record txHash).map Prod.snd =
        (db.finalizeMatchV2 p.uuid record txHash).map Prod.snd := by
  constructor
  · intro before l after hruns
    have hstart : w.Sane p ∧ w.Current := by
      refine ⟨⟨?_, hstored, ?_⟩, ?_⟩
      · intro h hh
        rw [hhandlers] at hh
        exact absurd hh List.not_mem_nil
      · intro h hh
        rw [hhandlers] at hh
        exact absurd hh List.not_mem_nil
      · intro h hh
        rw [hhandlers] at hh
        exact absurd hh List.not_mem_nil
    obtain ⟨⟨hsane, hcurrent⟩, hallowed, hrace⟩ := System.Runs.at hruns
      (P := fun w => w.Sane p ∧ w.Current)
      (fun w l hw hallowed hrace => ⟨hw.1.next hallowed, hw.2.next hw.1 hallowed hrace⟩)
      hstart
    refine ⟨?_, ?_, ?_⟩
    · intro call hsends txID hfills hrevoked
      obtain ⟨h, hh, hmay, row, hread, rfl, hlive⟩ :=
        hsane.sends hkeccak hsignatures hsends hfills
      exact hlive (hcurrent h hh row hread hmay hrevoked)
    · intro txID hrevoked
      exact World.revoked_stays hrevoked l
    · rintro i answer commit h net contractID matchID rest rfl hh hprogram hexecuted
      have hanswer := hrace h net contractID matchID rest hh hprogram hexecuted
      have hpath := (hsane.onPath h (List.mem_of_getElem? hh)).1
      obtain ⟨record, txHash, later, hrest, hid, hdone⟩ :=
        hpath.always (settleMatchV2_recovers p h.msg) net contractID matchID rest hprogram
      refine ⟨record, txHash, later, hid, ?_, hdone⟩
      simp only [World.next, World.serve, hh, hprogram]
      obtain ⟨hlt, _⟩ := List.getElem?_eq_some_iff.mp hh
      rw [List.getElem?_set_self hlt, Option.map_some, hanswer, hrest]
  · intro db txID record txHash
    exact ⟨(sameButMarks_cancel db txID).finalizeMatchV2 p.uuid record txHash,
      (sameButMarks_evict db txID).finalizeMatchV2 p.uuid record txHash⟩

end Runs

/-! ## A cancellation that comes too late -/

def sampleNetworks (_ : Str) : Network :=
  ⟨encodingChain, sampleDeployment encodingChain encodingChain_self⟩

def sampleDb : Db where
  intents := (Table.empty.insert (sampleBid 0)).insert sampleAsk
  matches_ := .empty
  markets := Table.empty.insert sampleMarketRow

def sampleWorld : World := ⟨sampleDb, [], [], fun _ => sampleOpened⟩

def sampleDelivered : World :=
  sampleWorld.next samplePlatform sampleNetworks (.deliver sampleFill)

def atSubmission : List Label :=
  .deliver sampleFill :: World.replies samplePlatform sampleNetworks 6 sampleDelivered

/-- Both orders are cancelled after the handler has passed its gates. -/
def lateCancellation : List Label := atSubmission ++ [.cancel 1, .cancel 2]

abbrev lateWorld : World := sampleWorld.run samplePlatform sampleNetworks lateCancellation

def lateSubmission : Label := .serve 0 (lateWorld.reply samplePlatform) true

theorem sampleWorld_stored : sampleWorld.Stored := by
  have hrows : sampleWorld.db.intents.rows = [sampleBid 0, sampleAsk] := rfl
  intro row hrow
  rw [hrows, List.mem_pair] at hrow
  exact sampleRow_stored hrow

theorem sampleWorld_sane : sampleWorld.Sane samplePlatform := by
  refine ⟨?_, sampleWorld_stored, ?_⟩
  · intro h hh
    exact absurd hh List.not_mem_nil
  · intro h hh
    exact absurd hh List.not_mem_nil

/-- On the sample market nothing was executed, so no answer misses an execution. -/
theorem sample_noRace {w : World} (hw : w.history = sampleWorld.history) :
    w.NoRace sampleNetworks (.serve 0 (w.reply samplePlatform) true) := by
  intro h net contractID matchID rest _ _ hexecuted
  have hfresh : sampleOpenState.executedMatches matchID = false := rfl
  rw [World.contract, hw] at hexecuted
  exact absurd (hexecuted.symm.trans hfresh) (by decide)

theorem atSubmission_runs : sampleWorld.Runs samplePlatform sampleNetworks
    (World.NoRace sampleNetworks) atSubmission := by
  have hfill : sampleFill.fillShares < 2 ^ 64 := by decide
  have hreplies : sampleDelivered.Runs samplePlatform sampleNetworks
      (World.NoRace sampleNetworks)
      (World.replies samplePlatform sampleNetworks 6 sampleDelivered) := by
    apply World.runs_replies
    intro w hw
    exact sample_noRace hw
  exact ⟨hfill, trivial, hreplies⟩

def World.asking (w : World) : Option SettlementRequest :=
  w.handlers[0]?.bind fun h => h.program.asks

def SettlementRequest.executing : SettlementRequest → Bool
  | .execute _ _ _ => true
  | _ => false

/-- From the sample orders, a run that has brought the first handler to its submission sends. -/
theorem sampleWorld_sends {condition : World → Label → Prop} {ls : List Label}
    (hruns : sampleWorld.Runs samplePlatform sampleNetworks condition ls)
    (hasks : (sampleWorld.run samplePlatform sampleNetworks ls).asking.any
      SettlementRequest.executing = true)
    (answer : (r : SettlementRequest) → r.Answer) :
    ∃ call, (sampleWorld.run samplePlatform sampleNetworks ls).Sends samplePlatform
        (.serve 0 answer true) call ∧
      ∃ txID ∈ filledOrders call, ∃ row,
        (sampleWorld.run samplePlatform sampleNetworks ls).db.intents.find txID = some row := by
  obtain ⟨r, hr, hexecuting⟩ := (Option.any_eq_true _ _).mp hasks
  obtain ⟨h, hh, hask⟩ := Option.bind_eq_some_iff.mp hr
  cases r with
  | execute net contractID calldata =>
      obtain ⟨rest, hrest⟩ := Program.exists_call hask
      exact (sampleWorld_sane.run hruns).exists_sends (fun _ => rfl) sampleSignatures hh hrest
        answer true
  | _ => exact absurd hexecuting Bool.false_ne_true

abbrev submittingWorld : World := sampleWorld.run samplePlatform sampleNetworks atSubmission

theorem submittingWorld_history : submittingWorld.history = sampleWorld.history := by
  have hreplies : (sampleDelivered.run samplePlatform sampleNetworks
      (World.replies samplePlatform sampleNetworks 6 sampleDelivered)).history =
        sampleDelivered.history :=
    World.replies_history sampleDelivered 6
  rw [submittingWorld, atSubmission, World.run_cons]
  exact hreplies

def cancelledWorld : World :=
  sampleDelivered.next samplePlatform sampleNetworks (.cancel 1)

/-- An order is cancelled before the handler reads it, and the handler is served to its end. -/
def earlyCancellation : List Label :=
  .deliver sampleFill :: .cancel 1 :: World.replies samplePlatform sampleNetworks 6 cancelledWorld

abbrev earlyWorld : World := sampleWorld.run samplePlatform sampleNetworks earlyCancellation

def Handler.isRefused (h : Handler) : Bool :=
  match h.program with
  | .ret (.rejected, some _) => true
  | _ => false

theorem earlyCancellation_runs : sampleWorld.Runs samplePlatform sampleNetworks
    (World.NoRace sampleNetworks) earlyCancellation := by
  have hquiet : sampleDelivered.Quiet 1 := by
    rintro h hh row ⟨txId, hread⟩
    rw [List.mem_singleton.mp hh] at hread
    exact absurd hread List.not_mem_nil
  have hfill : sampleFill.fillShares < 2 ^ 64 := by decide
  refine ⟨hfill, trivial, trivial, hquiet, World.runs_replies ?_ 6⟩
  exact fun w hw => sample_noRace hw

theorem cancellation_honoured_sample :
    (∃ call, submittingWorld.Sends samplePlatform
        (.serve 0 (submittingWorld.reply samplePlatform) true) call ∧
      ∀ txID ∈ filledOrders call, ¬submittingWorld.db.Revoked txID) ∧
    earlyWorld.handlers.all Handler.isRefused = true ∧
    ∀ before l after, earlyCancellation = before ++ l :: after → ∀ call,
      (sampleWorld.run samplePlatform sampleNetworks before).Sends samplePlatform l call →
        ∀ txID ∈ filledOrders call,
          ¬(sampleWorld.run samplePlatform sampleNetworks before).db.Revoked txID := by
  have honoured := (@cancellation_honoured samplePlatform sampleNetworks (fun _ => rfl)
    sampleSignatures sampleWorld rfl sampleWorld_stored).1
  refine ⟨?_, by decide +kernel, ?_⟩
  · have hexecuting : submittingWorld.asking.any SettlementRequest.executing = true := by
      decide +kernel
    obtain ⟨call, hsends, _⟩ := sampleWorld_sends atSubmission_runs hexecuting
      (submittingWorld.reply samplePlatform)
    refine ⟨call, hsends, (honoured atSubmission _ [] ?_).1 call hsends⟩
    refine World.runs_append.mpr
      ⟨atSubmission_runs, ?_, sample_noRace submittingWorld_history, trivial⟩
    intro h r rest _ _
    exact submittingWorld.reply_honest r
  · intro before l after hsplit
    have hruns := earlyCancellation_runs
    rw [hsplit] at hruns
    exact (honoured before l after hruns).1

theorem lateCancellation_runs : sampleWorld.Runs samplePlatform sampleNetworks (fun _ _ => True)
    (lateCancellation ++ [lateSubmission]) := by
  have hruns := atSubmission_runs
  refine World.runs_append.mpr ⟨World.runs_append.mpr ⟨?_, ?_⟩, ?_⟩
  · exact ⟨hruns.1, trivial, World.runs_replies (fun _ _ => trivial) 6⟩
  · exact ⟨trivial, trivial, trivial, trivial, trivial⟩
  · exact ⟨fun h r rest _ _ => lateWorld.reply_honest r, trivial, trivial⟩

/-- Neither read nor gate sees a cancellation that commits right before the submission: a
settlement of a cancelled order is handed to the network. -/
theorem cancellation_late :
    sampleWorld.Runs samplePlatform sampleNetworks (fun _ _ => True)
      (lateCancellation ++ [lateSubmission]) ∧
    ∃ call, lateWorld.Sends samplePlatform lateSubmission call ∧
      ∃ txID ∈ filledOrders call, lateWorld.db.Revoked txID := by
  have hexecuting : lateWorld.asking.any SettlementRequest.executing = true := by
    decide +kernel
  have hrevoked : lateWorld.db.intents.rows.all (·.cancelledAt) = true := by
    decide +kernel
  refine ⟨lateCancellation_runs, ?_⟩
  obtain ⟨call, hsends, txID, hfilled, row, hrow⟩ := sampleWorld_sends
    (World.runs_append.mp lateCancellation_runs).1 hexecuting (lateWorld.reply samplePlatform)
  refine ⟨call, hsends, txID, hfilled, row, hrow, Or.inl ?_⟩
  exact List.all_eq_true.mp hrevoked row (Table.find_eq_some.mp hrow).1

end PrismBackend.Api
