import PrismBackend.Lib.Interact
import PrismBackend.Api.Gates

/-!
# API: the settlement of one match

`settleMatchV2` as a program that makes requests: to the database, to the mirror
node, to the network and to the clock. Between two requests anything may happen
to what they read.
-/

namespace PrismBackend.Api

open PrismBackend.Lib PrismBackend.Clob PrismBackend.PrismV2

/-! ## Requests -/

inductive SettlementRequest
  | getPredictionIntentByTxId (txId : Str)
  | getMarketById (marketId : Str)
  | createMatchV2 (record : MatchV2)
  | isMatchExecutedV2 (net contractID : Str) (matchID : Bytes32)
  | markMatchFailed (matchID : Str) (cause : String)
  | now
  | execute (net contractID : Str) (calldata : Bytes)
  | markMatchSubmitted (matchID hederaTxID : Str)
  | getReceipt (hederaTxID : Str)
  | finalizeMatchV2 (record : MatchV2) (txHash : Str)

abbrev SettlementRequest.Answer : SettlementRequest → Type
  | .getPredictionIntentByTxId _ => Except String PredictionIntent
  | .getMarketById _ => Except String MarketRow
  | .createMatchV2 _ => Except String Match
  | .isMatchExecutedV2 _ _ _ => Except String Bool
  | .markMatchFailed _ _ => Except String Unit
  | .now => Nat
  /- the id of the transaction, once a node of the network has taken it -/
  | .execute _ _ _ => Except String Str
  | .markMatchSubmitted _ _ => Except String Unit
  /- the status of the transaction -/
  | .getReceipt _ => Except String String
  | .finalizeMatchV2 _ _ => Except String Bool

abbrev SettleM := Program SettlementRequest SettlementRequest.Answer

/-! Each request as a program of its own. -/

abbrev getPredictionIntentByTxId (txId : Str) : SettleM (Except String PredictionIntent) :=
  .request (SettlementRequest.getPredictionIntentByTxId txId)

abbrev getMarketById (marketId : Str) : SettleM (Except String MarketRow) :=
  .request (SettlementRequest.getMarketById marketId)

abbrev createMatchV2 (record : MatchV2) : SettleM (Except String Match) :=
  .request (SettlementRequest.createMatchV2 record)

abbrev isMatchExecutedV2 (q : Prepared) : SettleM (Except String Bool) :=
  .request (SettlementRequest.isMatchExecutedV2 q.cfg.net q.cfg.contractID q.matchID)

abbrev markMatchFailed (matchID : Str) (cause : String) : SettleM (Except String Unit) :=
  .request (SettlementRequest.markMatchFailed matchID cause)

abbrev timeNow : SettleM Nat := .request SettlementRequest.now

abbrev execute (q : Prepared) (calldata : Bytes) : SettleM (Except String Str) :=
  .request (SettlementRequest.execute q.cfg.net q.cfg.contractID calldata)

abbrev markMatchSubmitted (matchID hederaTxID : Str) : SettleM (Except String Unit) :=
  .request (SettlementRequest.markMatchSubmitted matchID hederaTxID)

abbrev getReceipt (hederaTxID : Str) : SettleM (Except String String) :=
  .request (SettlementRequest.getReceipt hederaTxID)

abbrev finalizeMatchV2 (record : MatchV2) (txHash : Str) : SettleM (Except String Bool) :=
  .request (SettlementRequest.finalizeMatchV2 record txHash)

section Program

variable (p : Platform)

/-! ## Recording what happened -/

/-- Records a settlement on chain. A database failure is retried: the redelivery finds the match
executed and finalizes without a new submission. -/
def finalizeMatch (q : Prepared) (txHash : Str) : SettleM Settlement := do
  let txHash :=
    if txHash = [] ∨ txHash = notYetAvailable then "executed:".toList ++ q.record.matchID
    else txHash
  match ← finalizeMatchV2 q.record txHash with
  | .error err => return retry err
  | .ok _ => return (.done, none)

def reject (q : Prepared) (row : Match) (err : String) : SettleM Settlement := do
  let _ ← markMatchFailed q.record.matchID err
  -- an earlier submission may have executed without having reached the mirror node yet
  return if row.attempts > 0 then retry err else rejected err

/-! ## Submission -/

def receiptSuccess : String := "SUCCESS"

/-- `SubmitSettlement`: the transaction id, if there is one, and the error. -/
def submitSettlement (q : Prepared) (calldata : Bytes) : SettleM (Str × Option String) := do
  match ← execute q calldata with
  | .error err => return ([], some ("submit settle: " ++ err))
  | .ok txHash =>
    let _ ← markMatchSubmitted q.record.matchID txHash
    match ← getReceipt txHash with
    | .error err => return (txHash, some ("settle receipt: " ++ err))
    | .ok status =>
      return (txHash, if status = receiptSuccess then none else some ("settle status " ++ status))

def afterSubmission (q : Prepared) (txHash : Str) : Option String → SettleM Settlement
  | none => finalizeMatch q txHash
  | some err => do
    -- a revert or a lost receipt may still mean that the match executed
    match ← isMatchExecutedV2 q with
    | .ok true => finalizeMatch q txHash
    | _ =>
      let _ ← markMatchFailed q.record.matchID err
      return retry ("settle " ++ text q.record.matchID ++ ": " ++ err)

def submitMatch (q : Prepared) (calldata : Bytes) : SettleM Settlement := do
  let (txHash, err) ← submitSettlement q calldata
  afterSubmission q txHash err

/-- The gates of a new submission. They come after the checks for an execution: a fill that
executed is finalized even when an order has since been cancelled, expired or filled further. -/
def gateMatch (q : Prepared) (row : Match) : SettleM Settlement := do
  match (do checkLive p q.bidRow; checkLive p q.askRow) with
  | .error (.reject err) => reject q row err
  | .error (.retry err) => return retry err
  | .ok () =>
    let now ← timeNow
    match (do
        checkLeg p q.record now q.bidAuth q.bidRow
        checkLeg p q.record now q.askAuth q.askRow) with
    | .error (.reject err) => reject q row err
    | .error (.retry err) => return retry err
    | .ok () =>
      match q.calldata p with
      | .error settlement => return settlement
      | .ok calldata => submitMatch q calldata

/-! ## A match -/

def settlePrepared (q : Prepared) : SettleM Settlement := do
  match ← createMatchV2 q.record with
  | .error err => return retry err
  | .ok row =>
    if row.status = .finalized then return (.done, none)
    else
      match ← isMatchExecutedV2 q with
      | .error err => return retry ("check executedMatches: " ++ err)
      | .ok true => finalizeMatch q row.txHash
      | .ok false => gateMatch p q row

def settleRows (m : ClobMatch) (bid ask : CreateOrderRequestClob)
    (bidRow askRow : PredictionIntent) : SettleM Settlement := do
  match checkRows p m bidRow askRow with
  | .error settlement => return settlement
  | .ok () =>
    match p.getPrismV2Network bidRow.net with
    | .error err => return retry ("PrismV2 configuration: " ++ err)
    | .ok cfg =>
      match ← getMarketById m.marketId with
      | .error err => return retry ("load market " ++ text m.marketId ++ ": " ++ err)
      | .ok market =>
        match prepare p m bid ask bidRow askRow cfg market with
        | .error settlement => return settlement
        | .ok q => settlePrepared p q

/-- Settles one fill of the book. The persisted orders are authoritative; the message only says
which orders matched, how much and at what price. -/
def settleMatchV2 (m : ClobMatch) : SettleM Settlement := do
  match m.bid, m.ask with
  | some bid, some ask =>
    if bid.marketId ≠ m.marketId ∨ ask.marketId ≠ m.marketId then
      return rejected ("market mismatch: match=" ++ text m.marketId ++ " bid=" ++
        text bid.marketId ++ " ask=" ++ text ask.marketId)
    else
      match ← getPredictionIntentByTxId bid.txId with
      | .error err => return retry ("load bid " ++ text bid.txId ++ ": " ++ err)
      | .ok bidRow =>
        match ← getPredictionIntentByTxId ask.txId with
        | .error err => return retry ("load ask " ++ text ask.txId ++ ": " ++ err)
        | .ok askRow => settleRows p m bid ask bidRow askRow
  | _, _ => return rejected "incomplete match message"

end Program

/-! ## What reaches the network -/

/-- What a submission rests on: the rows that were read, and every check of them. -/
structure Submits (p : Platform) (m : ClobMatch) (bidRow askRow : PredictionIntent) (now : Nat)
    (q : Prepared) (calldata : Bytes) : Prop where
  rows : checkRows p m bidRow askRow = .ok ()
  prepared : ∃ bid ask cfg market, m.bid = some bid ∧ m.ask = some ask ∧
    p.getPrismV2Network bidRow.net = .ok cfg ∧ prepare p m bid ask bidRow askRow cfg market = .ok q
  bidLive : checkLive p q.bidRow = .ok ()
  askLive : checkLive p q.askRow = .ok ()
  bidLeg : checkLeg p q.record now q.bidAuth q.bidRow = .ok ()
  askLeg : checkLeg p q.record now q.askAuth q.askRow = .ok ()
  calldata : q.calldata p = .ok calldata

abbrev Answers := List ((r : SettlementRequest) × r.Answer)

def SettlementRequest.isExecute : SettlementRequest → Prop
  | .execute _ _ _ => True
  | _ => False

theorem not_path_execute {program : SettleM Settlement}
    (h : program.Makes fun r => ¬r.isExecute) {answers : Answers} {net contractID : Str}
    {calldata : Bytes} {rest} :
    ¬program.Path answers (.call (.execute net contractID calldata) rest) := by
  intro hpath
  exact (hpath.makes h).1 trivial

structure Settling (P : SettlementRequest → Prop) : Prop where
  isMatchExecutedV2 : ∀ net contractID matchID, P (.isMatchExecutedV2 net contractID matchID)
  now : P .now
  markMatchFailed : ∀ matchID cause, P (.markMatchFailed matchID cause)
  markMatchSubmitted : ∀ matchID hederaTxID, P (.markMatchSubmitted matchID hederaTxID)
  getReceipt : ∀ hederaTxID, P (.getReceipt hederaTxID)
  finalizeMatchV2 : ∀ record txHash, P (.finalizeMatchV2 record txHash)

theorem settling_not_execute : Settling fun r => ¬r.isExecute :=
  ⟨fun _ _ _ => id, id, fun _ _ => id, fun _ _ => id, fun _ => id, fun _ _ => id⟩

section Makes

variable {P : SettlementRequest → Prop} (hP : Settling P)
include hP

theorem finalizeMatch_makes (q : Prepared) (txHash : Str) : (finalizeMatch q txHash).Makes P := by
  simp only [finalizeMatch, Program.request_bind, Program.makes_call]
  refine ⟨hP.finalizeMatchV2 _ _, ?_⟩
  intro answer
  cases answer with
  | error err => trivial
  | ok applied => trivial

theorem reject_makes (q : Prepared) (row : Match) (err : String) : (reject q row err).Makes P := by
  simp only [reject, Program.request_bind, Program.makes_call]
  exact ⟨hP.markMatchFailed _ _, fun _ => trivial⟩

theorem afterSubmission_makes (q : Prepared) (txHash : Str) (err : Option String) :
    (afterSubmission q txHash err).Makes P := by
  cases err with
  | none => exact finalizeMatch_makes hP q txHash
  | some err =>
      simp only [afterSubmission, Program.request_bind, Program.makes_call]
      refine ⟨hP.isMatchExecutedV2 _ _ _, ?_⟩
      intro answer
      rcases answer with failure | executed
      · exact ⟨hP.markMatchFailed _ _, fun _ => trivial⟩
      · cases executed with
        | false => exact ⟨hP.markMatchFailed _ _, fun _ => trivial⟩
        | true => exact finalizeMatch_makes hP q txHash

theorem submitMatch_request (q : Prepared) (calldata : Bytes) :
    ∃ rest, submitMatch q calldata =
        .call (.execute q.cfg.net q.cfg.contractID calldata) rest ∧
      ∀ answer, (rest answer).Makes P := by
  simp only [submitMatch, submitSettlement, Program.request_bind, Program.call_bind]
  refine ⟨_, rfl, ?_⟩
  intro answer
  cases answer with
  | error err => exact afterSubmission_makes hP q [] (some ("submit settle: " ++ err))
  | ok txHash =>
      refine ⟨hP.markMatchSubmitted _ _, fun _ => ⟨hP.getReceipt _, ?_⟩⟩
      intro receipt
      cases receipt with
      | error err => exact afterSubmission_makes hP q txHash (some ("settle receipt: " ++ err))
      | ok status =>
          exact afterSubmission_makes hP q txHash
            (if status = receiptSuccess then none else some ("settle status " ++ status))

theorem gateMatch_makes (hexecute : ∀ net contractID calldata, P (.execute net contractID calldata))
    (p : Platform) (q : Prepared) (row : Match) : (gateMatch p q row).Makes P := by
  unfold gateMatch
  split
  · exact reject_makes hP q row _
  · trivial
  · rw [Program.request_bind]
    refine ⟨hP.now, ?_⟩
    intro now
    dsimp only
    split
    · exact reject_makes hP q row _
    · trivial
    · split
      · trivial
      · obtain ⟨rest, heq, hrest⟩ := submitMatch_request hP q _
        rw [heq]
        exact ⟨hexecute _ _ _, hrest⟩

end Makes

theorem submitMatch_execute {q : Prepared} {calldata calldata' : Bytes} {answers : Answers}
    {net contractID : Str} {rest}
    (h : (submitMatch q calldata).Path answers (.call (.execute net contractID calldata') rest)) :
    net = q.cfg.net ∧ contractID = q.cfg.contractID ∧ calldata' = calldata := by
  obtain ⟨after, heq, hafter⟩ := submitMatch_request settling_not_execute q calldata
  rw [heq] at h
  rcases Program.path_call_iff.mp h with ⟨_, heq⟩ | ⟨answer, later, _, hpath⟩
  · cases heq
    exact ⟨rfl, rfl, rfl⟩
  · exact absurd hpath (not_path_execute (hafter answer))

/-- The gates let a submission through only when each of them passed. -/
theorem gateMatch_execute {p : Platform} {q : Prepared} {row : Match} {answers : Answers}
    {net contractID : Str} {calldata : Bytes} {rest}
    (h : (gateMatch p q row).Path answers (.call (.execute net contractID calldata) rest)) :
    ∃ now, checkLive p q.bidRow = .ok () ∧ checkLive p q.askRow = .ok () ∧
      checkLeg p q.record now q.bidAuth q.bidRow = .ok () ∧
      checkLeg p q.record now q.askAuth q.askRow = .ok () ∧ q.calldata p = .ok calldata ∧
      net = q.cfg.net ∧ contractID = q.cfg.contractID ∧ ⟨.now, now⟩ ∈ answers := by
  unfold gateMatch at h
  split at h
  · next err _ => exact absurd h (not_path_execute (reject_makes settling_not_execute q row err))
  · exact absurd h Program.not_path_pure
  · next u hlive =>
    simp only [bind_ok_iff] at hlive
    obtain ⟨_, hbid, hask⟩ := hlive
    rw [Program.request_bind, Program.path_call_iff] at h
    rcases h with ⟨_, heq⟩ | ⟨now, later, hanswers, h⟩
    · cases heq
    · split at h
      · next err _ =>
        exact absurd h (not_path_execute (reject_makes settling_not_execute q row err))
      · exact absurd h Program.not_path_pure
      · next u' hlegs =>
        simp only [bind_ok_iff] at hlegs
        obtain ⟨_, hbidLeg, haskLeg⟩ := hlegs
        split at h
        · exact absurd h Program.not_path_pure
        · next data hdata =>
          obtain ⟨hnet, hcontract, hcalldata⟩ := submitMatch_execute h
          refine ⟨now, hbid, hask, hbidLeg, haskLeg, ?_, hnet, hcontract, ?_⟩
          · rw [hcalldata]
            exact hdata
          · rw [hanswers]
            exact List.mem_cons_self

theorem settlePrepared_execute {p : Platform} {q : Prepared} {answers : Answers}
    {net contractID : Str} {calldata : Bytes} {rest}
    (h : (settlePrepared p q).Path answers (.call (.execute net contractID calldata) rest)) :
    ∃ now, checkLive p q.bidRow = .ok () ∧ checkLive p q.askRow = .ok () ∧
      checkLeg p q.record now q.bidAuth q.bidRow = .ok () ∧
      checkLeg p q.record now q.askAuth q.askRow = .ok () ∧ q.calldata p = .ok calldata ∧
      net = q.cfg.net ∧ contractID = q.cfg.contractID ∧ ⟨.now, now⟩ ∈ answers := by
  rw [settlePrepared, Program.request_bind, Program.path_call_iff] at h
  rcases h with ⟨_, heq⟩ | ⟨recorded, later, rfl, h⟩
  · cases heq
  cases recorded with
  | error err => exact absurd h Program.not_path_pure
  | ok row =>
      dsimp only at h
      split at h
      · exact absurd h Program.not_path_pure
      · rw [Program.request_bind, Program.path_call_iff] at h
        rcases h with ⟨_, heq⟩ | ⟨executed, later', rfl, h⟩
        · cases heq
        rcases executed with err | executed
        · exact absurd h Program.not_path_pure
        cases executed with
        | true =>
            exact absurd h
              (not_path_execute (finalizeMatch_makes settling_not_execute q row.txHash))
        | false =>
            obtain ⟨now, hbid, hask, hbidLeg, haskLeg, hdata, hnet, hcontract, hmem⟩ :=
              gateMatch_execute h
            exact ⟨now, hbid, hask, hbidLeg, haskLeg, hdata, hnet, hcontract,
              List.mem_cons_of_mem _ (List.mem_cons_of_mem _ hmem)⟩

def SettlementRequest.isCreate : SettlementRequest → Prop
  | .createMatchV2 _ => True
  | _ => False

theorem settlePrepared_create {p : Platform} {q : Prepared} {answers : Answers} {record : MatchV2}
    {rest} (h : (settlePrepared p q).Path answers (.call (.createMatchV2 record) rest)) :
    record = q.record := by
  have hsettling : Settling fun r => ¬r.isCreate :=
    ⟨fun _ _ _ => id, id, fun _ _ => id, fun _ _ => id, fun _ => id, fun _ _ => id⟩
  have hnot {program : SettleM Settlement} (hmakes : program.Makes fun r => ¬r.isCreate)
      {answers : Answers} {rest} : ¬program.Path answers (.call (.createMatchV2 record) rest) :=
    fun hpath => (hpath.makes hmakes).1 trivial
  rw [settlePrepared, Program.request_bind, Program.path_call_iff] at h
  rcases h with ⟨_, heq⟩ | ⟨recorded, later, _, h⟩
  · cases heq
    rfl
  cases recorded with
  | error err => exact absurd h Program.not_path_pure
  | ok row =>
      refine absurd h (hnot ?_)
      dsimp only
      split
      · trivial
      · rw [Program.request_bind]
        refine ⟨id, ?_⟩
        intro executed
        rcases executed with err | executed
        · trivial
        cases executed with
        | true => exact finalizeMatch_makes hsettling q row.txHash
        | false => exact gateMatch_makes hsettling (fun _ _ _ => id) p q row

def SettlementRequest.isLookup : SettlementRequest → Prop
  | .getPredictionIntentByTxId _ => True
  | .getMarketById _ => True
  | _ => False

/-- Past the lookups, a match is prepared from the rows and the market that were read. -/
theorem settleMatchV2_path {p : Platform} {m : ClobMatch} {answers : Answers}
    {r : SettlementRequest} {rest} (hr : ¬r.isLookup)
    (h : (settleMatchV2 p m).Path answers (.call r rest)) :
    ∃ bid ask bidRow askRow cfg market q later, m.bid = some bid ∧ m.ask = some ask ∧
      checkRows p m bidRow askRow = .ok () ∧ p.getPrismV2Network bidRow.net = .ok cfg ∧
      prepare p m bid ask bidRow askRow cfg market = .ok q ∧
      answers = ⟨.getPredictionIntentByTxId bid.txId, .ok bidRow⟩ ::
        ⟨.getPredictionIntentByTxId ask.txId, .ok askRow⟩ ::
        ⟨.getMarketById m.marketId, .ok market⟩ :: later ∧
      (settlePrepared p q).Path later (.call r rest) := by
  unfold settleMatchV2 at h
  split at h
  · next bid ask hbid hask =>
    split at h
    · exact absurd h Program.not_path_pure
    rw [Program.request_bind, Program.path_call_iff] at h
    rcases h with ⟨_, heq⟩ | ⟨bidRow, later, rfl, h⟩
    · cases heq
      exact absurd trivial hr
    cases bidRow with
    | error err => exact absurd h Program.not_path_pure
    | ok bidRow =>
      dsimp only at h
      rw [Program.request_bind, Program.path_call_iff] at h
      rcases h with ⟨_, heq⟩ | ⟨askRow, later', rfl, h⟩
      · cases heq
        exact absurd trivial hr
      cases askRow with
      | error err => exact absurd h Program.not_path_pure
      | ok askRow =>
        dsimp only [settleRows] at h
        split at h
        · exact absurd h Program.not_path_pure
        next u hrows =>
        split at h
        · exact absurd h Program.not_path_pure
        next cfg hcfg =>
        rw [Program.request_bind, Program.path_call_iff] at h
        rcases h with ⟨_, heq⟩ | ⟨market, later'', rfl, h⟩
        · cases heq
          exact absurd trivial hr
        cases market with
        | error err => exact absurd h Program.not_path_pure
        | ok market =>
          dsimp only at h
          split at h
          · exact absurd h Program.not_path_pure
          next q hq =>
          exact ⟨bid, ask, bidRow, askRow, cfg, market, q, later'', hbid, hask, hrows, hcfg, hq,
            rfl, h⟩
  · exact absurd h Program.not_path_pure

/-- A match reaches the network only with the rows that were read, past every check. -/
theorem settleMatchV2_execute {p : Platform} {m : ClobMatch} {answers : Answers}
    {net contractID : Str} {calldata : Bytes} {rest}
    (h : (settleMatchV2 p m).Path answers (.call (.execute net contractID calldata) rest)) :
    ∃ bid ask bidRow askRow now q, m.bid = some bid ∧ m.ask = some ask ∧
      ⟨.getPredictionIntentByTxId bid.txId, .ok bidRow⟩ ∈ answers ∧
      ⟨.getPredictionIntentByTxId ask.txId, .ok askRow⟩ ∈ answers ∧ ⟨.now, now⟩ ∈ answers ∧
      net = q.cfg.net ∧ contractID = q.cfg.contractID ∧
      Submits p m bidRow askRow now q calldata := by
  obtain ⟨bid, ask, bidRow, askRow, cfg, market, q, later, hbid, hask, hrows, hcfg, hq, rfl,
    hpath⟩ := settleMatchV2_path id h
  obtain ⟨now, hbidLive, haskLive, hbidLeg, haskLeg, hdata, hnet, hcontract, hmem⟩ :=
    settlePrepared_execute hpath
  refine ⟨bid, ask, bidRow, askRow, now, q, hbid, hask, ?_, ?_, ?_, hnet, hcontract, ?_⟩
  · exact List.mem_cons_self
  · exact List.mem_cons_of_mem _ List.mem_cons_self
  · exact List.mem_cons_of_mem _ (List.mem_cons_of_mem _ (List.mem_cons_of_mem _ hmem))
  · exact ⟨hrows, ⟨bid, ask, cfg, market, hbid, hask, hcfg, hq⟩, hbidLive, haskLive, hbidLeg,
      haskLeg, hdata⟩

/-! ## What an executed match becomes -/

/-- If the program asks whether a match is executed, the answer that it is leads straight to its
finalization, and the finalized match is done with. -/
def Recovers (program : SettleM Settlement) : Prop :=
  ∀ net contractID matchID rest, program = .call (.isMatchExecutedV2 net contractID matchID) rest →
    ∃ record txHash later, rest (.ok true) = .call (.finalizeMatchV2 record txHash) later ∧
      record.matchID = matchIDText matchID ∧ ∀ applied, later (.ok applied) = .ret (.done, none)

theorem recovers_ret (settlement : Settlement) : Recovers (.ret settlement) := by
  intro net contractID matchID rest h
  cases h

theorem recovers_call {r : SettlementRequest} {rest : r.Answer → SettleM Settlement}
    (h : ∀ net contractID matchID, r ≠ .isMatchExecutedV2 net contractID matchID) :
    Recovers (.call r rest) := by
  intro net contractID matchID rest' heq
  cases heq
  exact absurd rfl (h net contractID matchID)

theorem recovers_ask {q : Prepared} (hid : q.record.matchID = matchIDText q.matchID)
    {rest : Except String Bool → SettleM Settlement} (txHash : Str)
    (h : rest (.ok true) = finalizeMatch q txHash) :
    Recovers (.call (.isMatchExecutedV2 q.cfg.net q.cfg.contractID q.matchID) rest) := by
  intro net contractID matchID rest' heq
  cases heq
  exact ⟨_, _, _, h, hid, fun _ => rfl⟩

theorem finalizeMatch_recovers (q : Prepared) (txHash : Str) :
    (finalizeMatch q txHash).Always Recovers := by
  simp only [finalizeMatch, Program.request_bind]
  refine ⟨recovers_call fun _ _ _ => nofun, ?_⟩
  intro answer
  cases answer with
  | error err => exact recovers_ret _
  | ok applied => exact recovers_ret _

theorem markMatchFailed_recovers (matchID : Str) (err : String) (settlement : Settlement) :
    (do let _ ← markMatchFailed matchID err; return settlement : SettleM Settlement).Always
      Recovers := by
  rw [Program.request_bind]
  exact ⟨recovers_call (by simp), fun _ => recovers_ret settlement⟩

section Recovery

variable {q : Prepared} (hid : q.record.matchID = matchIDText q.matchID)
include hid

theorem afterSubmission_recovers (txHash : Str) (err : Option String) :
    (afterSubmission q txHash err).Always Recovers := by
  cases err with
  | none => exact finalizeMatch_recovers q txHash
  | some err =>
      rw [afterSubmission, Program.request_bind]
      refine ⟨recovers_ask hid txHash rfl, ?_⟩
      intro answer
      rcases answer with failure | executed
      · exact markMatchFailed_recovers _ _ _
      · cases executed with
        | false => exact markMatchFailed_recovers _ _ _
        | true => exact finalizeMatch_recovers q txHash

theorem submitMatch_recovers (calldata : Bytes) :
    (submitMatch q calldata).Always Recovers := by
  simp only [submitMatch, submitSettlement, Program.request_bind, Program.call_bind]
  refine ⟨recovers_call (by simp), ?_⟩
  intro answer
  cases answer with
  | error err => exact afterSubmission_recovers hid [] (some ("submit settle: " ++ err))
  | ok txHash =>
      refine ⟨recovers_call (by simp), fun _ => ⟨recovers_call (by simp), ?_⟩⟩
      intro receipt
      cases receipt with
      | error err => exact afterSubmission_recovers hid txHash (some ("settle receipt: " ++ err))
      | ok status =>
          exact afterSubmission_recovers hid txHash
            (if status = receiptSuccess then none else some ("settle status " ++ status))

theorem gateMatch_recovers (p : Platform) (row : Match) :
    (gateMatch p q row).Always Recovers := by
  unfold gateMatch
  split
  · exact markMatchFailed_recovers _ _ _
  · exact recovers_ret _
  · rw [Program.request_bind]
    refine ⟨recovers_call (by simp), ?_⟩
    intro now
    dsimp only
    split
    · exact markMatchFailed_recovers _ _ _
    · exact recovers_ret _
    · split
      · exact recovers_ret _
      · exact submitMatch_recovers hid _

theorem settlePrepared_recovers (p : Platform) : (settlePrepared p q).Always Recovers := by
  rw [settlePrepared, Program.request_bind]
  refine ⟨recovers_call (by simp), ?_⟩
  intro answer
  cases answer with
  | error err => exact recovers_ret _
  | ok row =>
      dsimp only
      split
      · exact recovers_ret _
      · rw [Program.request_bind]
        refine ⟨recovers_ask hid row.txHash rfl, ?_⟩
        intro answer
        rcases answer with err | executed
        · exact recovers_ret _
        · cases executed with
          | false => exact gateMatch_recovers hid p row
          | true => exact finalizeMatch_recovers q row.txHash

end Recovery

end PrismBackend.Api
