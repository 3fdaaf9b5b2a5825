import PrismBackend.Api.FillColumns

/-!
# API: what an outcome rests on

A handler rejects a match that does not pass a check of the rows it has read, or
one that no submission was recorded of; it is done with a match that is
finalized; and after a node has taken its submission it marks the match.
-/

namespace PrismBackend.Api

open PrismBackend.Lib PrismBackend.Clob PrismBackend.PrismV2

/-! ## Outcomes of a prepared match -/

section Prepared

variable {p : Platform} {q : Prepared} {answers : Answers} {settlement : Settlement}

@[simp] theorem retry_fst (err : String) : (retry err).1 = .retry := rfl

@[simp] theorem rejected_fst (err : String) : (rejected err).1 = .rejected := rfl

def Finalizes (q : Prepared) (answers : Answers) : Prop :=
  ∃ txHash applied, ⟨.finalizeMatchV2 q.record txHash, .ok applied⟩ ∈ answers

/-- Past the gates a match is not rejected, and done with only when it is finalized. -/
structure Concludes (q : Prepared) (answers : Answers) (settlement : Settlement) : Prop where
  kept : settlement.1 ≠ .rejected
  done : settlement.1 = .done → Finalizes q answers

theorem Concludes.mono {answers' : Answers} (h : Concludes q answers settlement)
    (hsub : ∀ a ∈ answers, a ∈ answers') : Concludes q answers' settlement := by
  refine ⟨h.kept, fun hdone => ?_⟩
  obtain ⟨txHash, applied, hmem⟩ := h.done hdone
  exact ⟨txHash, applied, hsub _ hmem⟩

theorem finalizeMatch_concludes {hash : Str}
    (h : (finalizeMatch q hash).Path answers (.ret settlement)) :
    Concludes q answers settlement := by
  simp only [finalizeMatch, Program.request_bind] at h
  rcases Program.path_call_iff.mp h with ⟨_, heq⟩ | ⟨answer, later, rfl, hpath⟩
  · cases heq
  cases answer with
  | error err =>
      obtain ⟨rfl, heq⟩ := Program.path_ret_iff.mp hpath
      cases heq
      exact ⟨by simp, by simp⟩
  | ok applied =>
      obtain ⟨rfl, heq⟩ := Program.path_ret_iff.mp hpath
      cases heq
      exact ⟨by simp, fun _ => ⟨_, applied, List.mem_cons_self⟩⟩

theorem markMatchFailed_ret {matchID : Str} {cause : String} {outcome : Settlement}
    (h : Program.Path
      (do let _ ← markMatchFailed matchID cause; return outcome : SettleM Settlement) answers
      (.ret settlement)) : settlement = outcome := by
  rw [Program.request_bind] at h
  rcases Program.path_call_iff.mp h with ⟨_, heq⟩ | ⟨answer, later, _, hpath⟩
  · cases heq
  · cases (Program.path_ret_iff.mp hpath).2
    rfl

theorem afterSubmission_concludes {hash : Str} {err : Option String}
    (h : (afterSubmission q hash err).Path answers (.ret settlement)) :
    Concludes q answers settlement := by
  cases err with
  | none => exact finalizeMatch_concludes h
  | some err =>
      have hfailed {answers : Answers} (hpath : Program.Path (do
          let _ ← markMatchFailed q.record.matchID err
          return retry ("settle " ++ text q.record.matchID ++ ": " ++ err) : SettleM Settlement)
          answers (.ret settlement)) : Concludes q answers settlement := by
        rw [markMatchFailed_ret hpath]
        exact ⟨by simp, by simp⟩
      rw [afterSubmission, Program.request_bind] at h
      rcases Program.path_call_iff.mp h with ⟨_, heq⟩ | ⟨answer, later, rfl, hpath⟩
      · cases heq
      have hconcludes : Concludes q later settlement := by
        rcases answer with failure | executed
        · exact hfailed hpath
        · cases executed with
          | false => exact hfailed hpath
          | true => exact finalizeMatch_concludes hpath
      exact hconcludes.mono fun a ha => List.mem_cons_of_mem _ ha

theorem submitMatch_concludes {calldata : Bytes}
    (h : (submitMatch q calldata).Path answers (.ret settlement)) :
    Concludes q answers settlement := by
  obtain ⟨⟨hash, err⟩, earlier, later, rfl, _, hafter⟩ := Program.path_bind_ret h
  exact (afterSubmission_concludes hafter).mono fun a ha => List.mem_append_right _ ha

theorem reject_ret {row : Match} {err : String}
    (h : (reject q row err).Path answers (.ret settlement)) :
    settlement.1 ≠ .done ∧ (settlement.1 = .rejected → row.attempts = 0) := by
  rw [markMatchFailed_ret h]
  split
  · exact ⟨by simp, by simp⟩
  · next hnone => exact ⟨by simp, fun _ => Nat.eq_zero_of_not_pos hnone⟩

theorem calldata_fails (p : Platform) (q : Prepared) :
    Fails (fun settlement => settlement.1 = .rejected) (q.calldata p) := by
  refine fails_bind (fails_mapError fun _ => rfl) fun _ => ?_
  exact fails_bind (fails_mapError fun _ => rfl) fun _ => fails_mapError fun _ => rfl

/-- No submission was tried: not by a handler before, as far as it is recorded, nor by this one. -/
def Untried (row : Match) (answers : Answers) : Prop :=
  row.attempts = 0 ∧ ∀ a ∈ answers, ¬a.1.isExecute

theorem gateMatch_ret {row : Match} (h : (gateMatch p q row).Path answers (.ret settlement)) :
    (settlement.1 = .done → Finalizes q answers) ∧
      (settlement.1 = .rejected → (∃ err, q.calldata p = .error err) ∨ Untried row answers) := by
  have hreject {answers : Answers} {err : String}
      (hpath : (reject q row err).Path answers (.ret settlement)) :
      settlement.1 ≠ .done ∧ (settlement.1 = .rejected → Untried row answers) := by
    obtain ⟨hnot, hattempts⟩ := reject_ret hpath
    exact ⟨hnot, fun hrejected => ⟨hattempts hrejected,
      hpath.made (reject_makes settling_not_execute q row err)⟩⟩
  unfold gateMatch at h
  split at h
  · obtain ⟨hnot, huntried⟩ := hreject h
    exact ⟨fun hdone => absurd hdone hnot, fun hrejected => Or.inr (huntried hrejected)⟩
  · cases (Program.path_ret_iff.mp h).2
    exact ⟨by simp, by simp⟩
  · rw [Program.request_bind] at h
    rcases Program.path_call_iff.mp h with ⟨_, heq⟩ | ⟨now, later, rfl, hpath⟩
    · cases heq
    split at hpath
    · obtain ⟨hnot, huntried⟩ := hreject hpath
      refine ⟨fun hdone => absurd hdone hnot, fun hrejected => Or.inr ?_⟩
      obtain ⟨hattempts, hnone⟩ := huntried hrejected
      exact ⟨hattempts, List.forall_mem_cons.mpr ⟨id, hnone⟩⟩
    · cases (Program.path_ret_iff.mp hpath).2
      exact ⟨by simp, by simp⟩
    · split at hpath
      · next failure hfailure =>
        cases (Program.path_ret_iff.mp hpath).2
        have hrejected := calldata_fails p q _ hfailure
        exact ⟨fun hdone => absurd (hrejected.symm.trans hdone) (by simp),
          fun _ => Or.inl ⟨_, hfailure⟩⟩
      · have hconcludes := submitMatch_concludes hpath
        refine ⟨fun hdone => ?_, fun hrejected => absurd hrejected hconcludes.kept⟩
        exact (hconcludes.mono fun a ha => List.mem_cons_of_mem _ ha).done hdone

/-- What a handler has been told of a match that it is done with. -/
def Closes (q : Prepared) (answers : Answers) : Prop :=
  Finalizes q answers ∨
    ∃ row, ⟨.createMatchV2 q.record, .ok row⟩ ∈ answers ∧ row.status = .finalized

/-- A match that is rejected past its record: it has no calldata, or no submission was tried. -/
def Refuses (p : Platform) (q : Prepared) (answers : Answers) : Prop :=
  (∃ err, q.calldata p = .error err) ∨ ∃ row, ⟨.createMatchV2 q.record, .ok row⟩ ∈ answers ∧
    row.status ≠ .finalized ∧ Untried row answers

theorem settlePrepared_ret (h : (settlePrepared p q).Path answers (.ret settlement)) :
    (settlement.1 = .done → Closes q answers) ∧
      (settlement.1 = .rejected → Refuses p q answers) := by
  rw [settlePrepared, Program.request_bind] at h
  rcases Program.path_call_iff.mp h with ⟨_, heq⟩ | ⟨recorded, later, rfl, hrecorded⟩
  · cases heq
  cases recorded with
  | error err =>
      cases (Program.path_ret_iff.mp hrecorded).2
      exact ⟨by simp, by simp⟩
  | ok row =>
      dsimp only at hrecorded
      split at hrecorded
      · next hfinal =>
        cases (Program.path_ret_iff.mp hrecorded).2
        exact ⟨fun _ => Or.inr ⟨row, List.mem_cons_self, hfinal⟩, by simp⟩
      next hopen =>
      rw [Program.request_bind] at hrecorded
      rcases Program.path_call_iff.mp hrecorded with ⟨_, heq⟩ | ⟨executed, later', rfl, hpath⟩
      · cases heq
      have hsub (a) (ha : a ∈ later') : a ∈ ⟨.createMatchV2 q.record, .ok row⟩ ::
          ⟨.isMatchExecutedV2 q.cfg.net q.cfg.contractID q.matchID, executed⟩ :: later' :=
        List.mem_cons_of_mem _ (List.mem_cons_of_mem _ ha)
      rcases executed with err | executed
      · cases (Program.path_ret_iff.mp hpath).2
        exact ⟨by simp, by simp⟩
      cases executed with
      | true =>
          have hconcludes := finalizeMatch_concludes hpath
          exact ⟨fun hdone => Or.inl ((hconcludes.mono hsub).done hdone),
            fun hrejected => absurd hrejected hconcludes.kept⟩
      | false =>
          obtain ⟨hdone, hrejected⟩ := gateMatch_ret hpath
          refine ⟨fun h => ?_, fun h => ?_⟩
          · obtain ⟨txHash, applied, hmem⟩ := hdone h
            exact Or.inl ⟨txHash, applied, hsub _ hmem⟩
          · rcases hrejected h with hfailure | ⟨hattempts, hnone⟩
            · exact Or.inl hfailure
            · exact Or.inr ⟨row, List.mem_cons_self, hopen, hattempts,
                List.forall_mem_cons.mpr ⟨id, List.forall_mem_cons.mpr ⟨id, hnone⟩⟩⟩

/-! ## The mark of a submission -/

/-- If the program asks for a submission, it marks the match once a node has taken it. -/
def MarksNext (q : Prepared) (program : SettleM Settlement) : Prop :=
  ∀ net contractID calldata rest, program = .call (.execute net contractID calldata) rest →
    ∀ txHash, ∃ later, rest (.ok txHash) = .call (.markMatchSubmitted q.record.matchID txHash) later

theorem marksNext_of_makes {program : SettleM Settlement}
    (h : program.Makes fun r => ¬r.isExecute) : program.Always (MarksNext q) := by
  induction program with
  | ret outcome => exact fun _ _ _ _ heq => absurd heq (by simp)
  | call r rest ih =>
      refine ⟨?_, fun answer => ih answer (h.2 answer)⟩
      intro net contractID calldata rest' heq
      cases heq
      exact absurd trivial h.1

theorem submitMatch_marks (q : Prepared) (calldata : Bytes) :
    (submitMatch q calldata).Always (MarksNext q) := by
  obtain ⟨rest, heq, hrest⟩ := submitMatch_request settling_not_execute q calldata
  rw [heq]
  refine ⟨?_, fun answer => marksNext_of_makes (hrest answer)⟩
  intro net contractID calldata' rest' heq'
  cases heq'
  simp only [submitMatch, submitSettlement, Program.request_bind, Program.call_bind,
    Program.call.injEq, true_and, heq_eq_eq] at heq
  subst heq
  exact fun txHash => ⟨_, rfl⟩

theorem gateMatch_marks (p : Platform) (q : Prepared) (row : Match) :
    (gateMatch p q row).Always (MarksNext q) := by
  unfold gateMatch
  split
  · exact marksNext_of_makes (reject_makes settling_not_execute q row _)
  · exact marksNext_of_makes trivial
  · rw [Program.request_bind]
    refine ⟨fun _ _ _ _ heq => absurd heq (by simp), ?_⟩
    intro now
    dsimp only
    split
    · exact marksNext_of_makes (reject_makes settling_not_execute q row _)
    · exact marksNext_of_makes trivial
    · split
      · exact marksNext_of_makes trivial
      · exact submitMatch_marks q _

theorem settlePrepared_marks (p : Platform) (q : Prepared) :
    (settlePrepared p q).Always (MarksNext q) := by
  rw [settlePrepared, Program.request_bind]
  refine ⟨fun _ _ _ _ heq => absurd heq (by simp), ?_⟩
  intro recorded
  cases recorded with
  | error err => exact marksNext_of_makes trivial
  | ok row =>
      dsimp only
      split
      · exact marksNext_of_makes trivial
      · rw [Program.request_bind]
        refine ⟨fun _ _ _ _ heq => absurd heq (by simp), ?_⟩
        intro executed
        rcases executed with err | executed
        · exact marksNext_of_makes trivial
        cases executed with
        | false => exact gateMatch_marks p q row
        | true => exact marksNext_of_makes (finalizeMatch_makes settling_not_execute q row.txHash)

end Prepared

/-! ## Checks of what was read -/

section Terms

variable {p : Platform} {m : ClobMatch} {bidRow askRow bidRow' askRow' : PredictionIntent}
  (hbid : bidRow'.toOrderTerms = bidRow.toOrderTerms)
  (haskRow : askRow'.toOrderTerms = askRow.toOrderTerms)
include hbid haskRow

theorem checkRows_of_terms : checkRows p m bidRow' askRow' = checkRows p m bidRow askRow := by
  simp only [checkRows, checkRow, hbid, haskRow]

/-- What is prepared from rows with the same terms and a market on the same contract is the same,
apart from the rows. -/
theorem prepare_of_terms {bid ask : CreateOrderRequestClob} {cfg : PrismV2Network}
    {market market' : MarketRow} {q : Prepared}
    (hmarket : market'.smartContractID = market.smartContractID)
    (h : prepare p m bid ask bidRow askRow cfg market = .ok q) :
    prepare p m bid ask bidRow' askRow' cfg market' =
      .ok { q with bidRow := bidRow', askRow := askRow' } := by
  simp only [prepare, hbid, haskRow, hmarket, bind_ok_iff, mapError_ok_iff, Except.ok.injEq] at h ⊢
  obtain ⟨_, hcontract, bidAuth, hbidAuth, askAuth, haskAuth, _, hdomain, _, hdomain', _, hkind,
    split, hsplit, _, hsame, matchID, hid, unitScale, hunit, rfl⟩ := h
  exact ⟨_, hcontract, bidAuth, hbidAuth, askAuth, haskAuth, _, hdomain, _, hdomain', _, hkind,
    split, hsplit, _, hsame, matchID, hid, unitScale, hunit, rfl⟩

theorem calldata_of_terms (q : Prepared) (hbidRow : q.bidRow = bidRow) (hask : q.askRow = askRow) :
    ({ q with bidRow := bidRow', askRow := askRow' } : Prepared).calldata p = q.calldata p := by
  subst hbidRow hask
  simp only [Prepared.calldata, hbid, haskRow]

end Terms

theorem prepare_contract {p : Platform} {m : ClobMatch} {bid ask : CreateOrderRequestClob}
    {bidRow askRow : PredictionIntent} {cfg : PrismV2Network} {market : MarketRow} {q : Prepared}
    (h : prepare p m bid ask bidRow askRow cfg market = .ok q) :
    market.smartContractID = cfg.contractID := by
  simp only [prepare, bind_ok_iff, revertIf_ok_iff, not_not] at h
  exact h.choose_spec.1

/-! ## Outcomes of a message -/

section Message

variable {p : Platform} {m : ClobMatch}

theorem checkRows_fails (bidRow askRow : PredictionIntent) :
    Fails (fun settlement => settlement.1 = .rejected) (checkRows p m bidRow askRow) := by
  have hrow (row : PredictionIntent) :
      Fails (fun settlement => settlement.1 = .rejected) (checkRow p m row) :=
    fails_bind (fails_revertIf rfl) fun _ => fails_revertIf rfl
  refine fails_bind (hrow bidRow) fun _ => fails_bind (hrow askRow) fun _ => ?_
  exact fails_bind (fails_revertIf rfl) fun _ => fails_revertIf rfl

theorem prepare_fails (bid ask : CreateOrderRequestClob) (bidRow askRow : PredictionIntent)
    (cfg : PrismV2Network) (market : MarketRow) :
    Fails (fun settlement => settlement.1 ≠ .done)
      (prepare p m bid ask bidRow askRow cfg market) := by
  refine fails_bind (fails_revertIf nofun) fun _ => ?_
  refine fails_bind (fails_mapError fun _ => nofun) fun bidAuth => ?_
  refine fails_bind (fails_mapError fun _ => nofun) fun askAuth => ?_
  refine fails_bind (fails_revertIf nofun) fun _ => fails_bind (fails_revertIf nofun) fun _ => ?_
  refine fails_bind (fails_revertIf nofun) fun _ => ?_
  refine fails_bind (fails_mapError fun _ => nofun) fun split => ?_
  refine fails_bind (fails_revertIf nofun) fun _ => ?_
  refine fails_bind (fails_mapError fun _ => nofun) fun matchID => ?_
  exact fails_bind (fails_mapError fun _ => nofun) fun unitScale => fails_ok _

/-- The checks before the recording of a match pass on whatever was read for it. -/
structure Passes (p : Platform) (m : ClobMatch) (bid ask : CreateOrderRequestClob)
    (answers : Answers) : Prop where
  bid_eq : m.bid = some bid
  ask_eq : m.ask = some ask
  markets : bid.marketId = m.marketId ∧ ask.marketId = m.marketId
  rows : ∀ bidRow askRow, ⟨.getPredictionIntentByTxId bid.txId, .ok bidRow⟩ ∈ answers →
    ⟨.getPredictionIntentByTxId ask.txId, .ok askRow⟩ ∈ answers →
      checkRows p m bidRow askRow = .ok () ∧ ∀ cfg market,
        p.getPrismV2Network bidRow.net = .ok cfg →
          ⟨.getMarketById m.marketId, .ok market⟩ ∈ answers →
            ∃ q, prepare p m bid ask bidRow askRow cfg market = .ok q

/-- A message is done with or rejected by one of the early checks, or as a prepared match. -/
theorem settleMatchV2_ret {answers : Answers} {settlement : Settlement}
    (h : (settleMatchV2 p m).Path answers (.ret settlement)) (hsettled : settlement.1 ≠ .retry) :
    (settlement.1 = .rejected ∧ ∀ bid ask, ¬Passes p m bid ask answers) ∨
      ∃ bid ask bidRow askRow cfg market q later, m.bid = some bid ∧ m.ask = some ask ∧
        checkRows p m bidRow askRow = .ok () ∧ p.getPrismV2Network bidRow.net = .ok cfg ∧
        prepare p m bid ask bidRow askRow cfg market = .ok q ∧
        answers = ⟨.getPredictionIntentByTxId bid.txId, .ok bidRow⟩ ::
          ⟨.getPredictionIntentByTxId ask.txId, .ok askRow⟩ ::
          ⟨.getMarketById m.marketId, .ok market⟩ :: later ∧
        (settlePrepared p q).Path later (.ret settlement) := by
  have hretried {program : SettleM Settlement} {answers : Answers} {err : String}
      (hpath : program.Path answers (.ret settlement)) (heq : program = .ret (retry err)) :
      False := by
    subst heq
    cases (Program.path_ret_iff.mp hpath).2
    exact hsettled rfl
  unfold settleMatchV2 at h
  split at h
  · next bid ask hbid hask =>
    split at h
    · next hmarkets =>
      cases (Program.path_ret_iff.mp h).2
      refine Or.inl ⟨rfl, fun bid' ask' hpasses => ?_⟩
      cases hbid.symm.trans hpasses.bid_eq
      cases hask.symm.trans hpasses.ask_eq
      exact hmarkets.elim (fun hne => hne hpasses.markets.1) fun hne => hne hpasses.markets.2
    rw [Program.request_bind, Program.path_call_iff] at h
    rcases h with ⟨_, heq⟩ | ⟨bidRow, later, rfl, h⟩
    · cases heq
    cases bidRow with
    | error err => exact (hretried h rfl).elim
    | ok bidRow =>
      dsimp only at h
      rw [Program.request_bind, Program.path_call_iff] at h
      rcases h with ⟨_, heq⟩ | ⟨askRow, later', rfl, h⟩
      · cases heq
      cases askRow with
      | error err => exact (hretried h rfl).elim
      | ok askRow =>
        dsimp only [settleRows] at h
        have hpassing {bid' ask' : CreateOrderRequestClob} {rest : Answers}
            (hpasses : Passes p m bid' ask' (⟨.getPredictionIntentByTxId bid.txId, .ok bidRow⟩ ::
              ⟨.getPredictionIntentByTxId ask.txId, .ok askRow⟩ :: rest)) :
            checkRows p m bidRow askRow = .ok () ∧ ∀ cfg market,
              p.getPrismV2Network bidRow.net = .ok cfg →
                ⟨.getMarketById m.marketId, .ok market⟩ ∈ rest →
                  ∃ q, prepare p m bid ask bidRow askRow cfg market = .ok q := by
          cases hbid.symm.trans hpasses.bid_eq
          cases hask.symm.trans hpasses.ask_eq
          obtain ⟨hrows, hprepared⟩ := hpasses.rows bidRow askRow (by simp) (by simp)
          exact ⟨hrows, fun cfg market hcfg hmem => hprepared cfg market hcfg (by simp [hmem])⟩
        split at h
        · next failure hfailure =>
          cases (Program.path_ret_iff.mp h).2
          refine Or.inl ⟨checkRows_fails bidRow askRow _ hfailure, fun bid' ask' hpasses => ?_⟩
          exact absurd (hfailure.symm.trans (hpassing hpasses).1) (by simp)
        next u hrows =>
        split at h
        · exact (hretried h rfl).elim
        next cfg hcfg =>
        rw [Program.request_bind, Program.path_call_iff] at h
        rcases h with ⟨_, heq⟩ | ⟨market, later'', rfl, h⟩
        · cases heq
        cases market with
        | error err => exact (hretried h rfl).elim
        | ok market =>
          dsimp only at h
          split at h
          · next failure hfailure =>
            cases (Program.path_ret_iff.mp h).2
            refine Or.inl ⟨?_, fun bid' ask' hpasses => ?_⟩
            · have hnot := prepare_fails bid ask bidRow askRow cfg market _ hfailure
              cases hkind : settlement.1 with
              | done => exact absurd hkind hnot
              | retry => exact absurd hkind hsettled
              | rejected => rfl
            · obtain ⟨q, hq⟩ := (hpassing hpasses).2 cfg market hcfg List.mem_cons_self
              exact absurd (hfailure.symm.trans hq) (by simp)
          next q hq =>
          exact Or.inr ⟨bid, ask, bidRow, askRow, cfg, market, q, later'', hbid, hask, hrows, hcfg,
            hq, rfl, h⟩
  · next hmissing =>
    cases (Program.path_ret_iff.mp h).2
    exact Or.inl ⟨rfl, fun bid ask hpasses => hmissing bid ask hpasses.bid_eq hpasses.ask_eq⟩

/-- A handler that makes a request has a match whose orders name its market. -/
theorem settleMatchV2_markets {answers : Answers} {r : SettlementRequest} {rest}
    (h : (settleMatchV2 p m).Path answers (.call r rest)) {bid ask : CreateOrderRequestClob}
    (hbid : m.bid = some bid) (hask : m.ask = some ask) :
    bid.marketId = m.marketId ∧ ask.marketId = m.marketId := by
  by_contra hmarkets
  rw [settleMatchV2, hbid, hask] at h
  dsimp only at h
  rw [if_pos (not_and_or.mp hmarkets)] at h
  exact Program.not_path_pure h

end Message

end PrismBackend.Api
