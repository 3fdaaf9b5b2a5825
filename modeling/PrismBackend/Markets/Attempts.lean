import PrismBackend.Lib.System
import PrismBackend.Markets.Stores

/-!
# Markets: attempts

Attempts to create or to resolve a market that may fail or crash at every
request, with restarts of the CLOB and other activity between them. However many
there are, the contract does the operation once.
-/

namespace PrismBackend.Markets

open PrismBackend.Lib PrismBackend.Clob
open PrismBackend.PrismV2 (Uint128 MarketState Market Call)
open PrismBackend.Api (Platform text isValidNetwork)
open Program (request attempt andThen named)

/-! ## Calls of the contract -/

section Contract

variable {c : PrismV2.Chain} {env : PrismV2.Env} {s s' : PrismV2.State}
  {event : Option PrismV2.Redeemed}

theorem exec_createMarket {marketId : Uint128} {statement : PrismV2.Bytes} {closeTime : Nat}
    (h : PrismV2.exec c ⟨env, .createMarket marketId statement closeTime⟩ s = .ok (s', event)) :
    (s.markets marketId).state = .uninitialized ∧
      s' = { s.setMarket marketId ⟨.open, closeTime, s.defaultRakeBps, 0, 0, 0⟩ with
        statements := Function.update s.statements marketId statement } := by
  have heffect : PrismV2.Effect c env s _ s' event := PrismV2.exec_effect h
  cases heffect with
  | configure hcall => cases hcall
  | create _ _ _ hnew => exact ⟨hnew, rfl⟩
  | transition _ _ hcall => cases hcall

def isLive (state : MarketState) : Bool :=
  state == .open || state == .halted || state == .closed

theorem isLive_iff {state : MarketState} :
    isLive state = true ↔ state = .open ∨ state = .halted ∨ state = .closed := by
  cases state <;> decide

theorem targetState_ok {outcome : Int} {want : MarketState} :
    targetState outcome = .ok want ↔ (outcome = 0 ∧ want = .resolvedNo) ∨
      (outcome = 1 ∧ want = .resolvedYes) ∨ (outcome = 2 ∧ want = .void) := by
  unfold targetState
  split
  · next h => simp [h, eq_comm]
  · next h =>
      split
      · next h' => simp [h', eq_comm]
      · next h' =>
          split
          · next h'' => simp [h'', eq_comm]
          · next h'' => simp [h, h', h'']

/-- Every call that records an outcome moves a live market to the state of the outcome. -/
theorem outcomeCall_transitions (marketId : Uint128) {outcome : Int} {want : MarketState}
    (h : targetState outcome = .ok want) :
    (outcomeCall marketId outcome).transitions = some (marketId, want) ∧
      (want = .resolvedNo ∨ want = .resolvedYes ∨ want = .void) := by
  rcases targetState_ok.mp h with ⟨rfl, rfl⟩ | ⟨rfl, rfl⟩ | ⟨rfl, rfl⟩
  · exact ⟨rfl, Or.inl rfl⟩
  · exact ⟨rfl, Or.inr (Or.inl rfl)⟩
  · exact ⟨rfl, Or.inr (Or.inr rfl)⟩

theorem exec_outcomeCall {marketId : Uint128} {outcome : Int} {want : MarketState}
    (hwant : targetState outcome = .ok want)
    (h : PrismV2.exec c ⟨env, outcomeCall marketId outcome⟩ s = .ok (s', event)) :
    isLive (s.markets marketId).state = true ∧
      s' = s.setMarket marketId { s.markets marketId with state := want } := by
  obtain ⟨htransitions, hfinal⟩ := outcomeCall_transitions marketId hwant
  have heffect : PrismV2.Effect c env s _ s' event := PrismV2.exec_effect h
  generalize outcomeCall marketId outcome = call at htransitions heffect
  cases heffect with
  | configure hcall => cases call <;> simp_all [Call.configures, Call.transitions]
  | transition marketId' state' hcall hmove =>
      rw [htransitions, Option.some.injEq, Prod.mk.injEq] at hcall
      obtain ⟨rfl, rfl⟩ := hcall
      refine ⟨?_, rfl⟩
      generalize hstate : (s.markets marketId).state = state at hmove
      rw [isLive_iff]
      cases hmove with
      | halt => exact absurd hfinal (by decide)
      | resume => exact absurd hfinal (by decide)
      | close => exact absurd hfinal (by decide)
      | resolve _ hlive => exact hlive
      | void hlive => exact hlive
  | create | cancel | settle | redeem | tokenTransfer => cases htransitions

end Contract

/-! ## Operations -/

inductive MarketOp
  | create (req : CreateMarketv2Request)
  | resolve (marketId : Str) (outcome : Int)

abbrev MarketOp.Reply : MarketOp → Type
  | .create _ => MarketResponse
  | .resolve _ _ => Bool

structure Place where
  net : Str
  contractID : Str
  marketID : Uint128

def Stores.market (w : Stores) (place : Place) : Market :=
  w.onChain place.net place.contractID place.marketID

def Stores.statement (w : Stores) (place : Place) : PrismV2.Bytes :=
  (w.contracts (place.net, place.contractID)).statements place.marketID

section Operations

variable (p : MarketPlatform) (place : Place)

def MarketOp.program (now : Nat) : (op : MarketOp) → MarketM (Except String op.Reply)
  | .create req => createMarketv2 p now req
  | .resolve marketId outcome => resolveMarket p marketId outcome

def MarketOp.Names : MarketOp → Prop
  | .create req => req.net = place.net ∧ p.uuid.parse req.marketId = .ok place.marketID ∧
      ∃ cfg, p.getPrismV2Network req.net = .ok cfg ∧ cfg.contractID = place.contractID
  | .resolve marketId _ => p.uuid.parse marketId = .ok place.marketID

/-- The row of a market that is resolved leads to the place. -/
def MarketOp.Recorded (w : Stores) : MarketOp → Prop
  | .create _ => True
  | .resolve _ _ => ∃ row, w.markets.find place.marketID = some row ∧ row.net = place.net ∧
      p.contractIDFromString row.smartContractID = .ok place.contractID

def MarketOp.isStep : MarketOp → Call → Bool
  | .create _, .createMarket marketId _ _ => marketId == place.marketID
  | .resolve _ _, .resolveMarket marketId _ => marketId == place.marketID
  | .resolve _ _, .voidMarket marketId => marketId == place.marketID
  | _, _ => false

def MarketOp.steps (w : Stores) (op : MarketOp) : Nat := w.executed.countP (op.isStep place)

def MarketOp.Pending (w : Stores) : MarketOp → Prop
  | .create _ => (w.market place).state = .uninitialized
  | .resolve _ _ => isLive (w.market place).state = true

def MarketOp.Past (w : Stores) : MarketOp → Prop
  | .create req => (w.market place).state ≠ .uninitialized ∧
      w.statement place = textBytes req.statement
  | .resolve _ _ => (w.market place).state ≠ .uninitialized ∧ isLive (w.market place).state = false

structure MarketOp.Fresh (w : Stores) (op : MarketOp) : Prop where
  names : op.Names p place
  recorded : op.Recorded p place w
  pending : op.Pending place w
  steps : op.steps place w = 0

def MarketOp.Calls (function : Call) : MarketOp → Prop
  | .create req => ∃ marketIdBig closeTime,
      function = .createMarket marketIdBig (textBytes req.statement) closeTime
  | .resolve _ outcome => ∃ marketIdBig want, targetState outcome = .ok want ∧
      function = outcomeCall marketIdBig outcome

def MarketOp.Once (w : Stores) (op : MarketOp) : Prop :=
  (op.Pending place w ∧ op.steps place w = 0) ∨ (op.Past place w ∧ op.steps place w ≤ 1)

end Operations

/-! ## One submission -/

section Submission

variable {p : MarketPlatform} {place : Place} {w w' : Stores} {op : MarketOp} {function : Call}
  {s : PrismV2.State}

theorem setMarket_self {marketID : Uint128} {market : Market} :
    (s.setMarket marketID market).markets marketID = market := Function.update_self _ _ _

theorem market_executes :
    (w.executes place.net place.contractID function s).market place = s.markets place.marketID := by
  show ((Function.update w.contracts _ s) _).markets _ = _
  rw [Function.update_self]

theorem statement_executes : (w.executes place.net place.contractID function s).statement place =
    s.statements place.marketID := by
  show ((Function.update w.contracts _ s) _).statements _ = _
  rw [Function.update_self]

theorem steps_executes {net contractID : Str} :
    op.steps place (w.executes net contractID function s) =
      op.steps place w + if op.isStep place function then 1 else 0 := by
  rw [MarketOp.steps, Stores.executes, List.countP_append, List.countP_singleton]
  rfl

theorem isStep_outcomeCall {marketId : Str} {outcome : Int} {marketID : Uint128} :
    (MarketOp.resolve marketId outcome).isStep place (outcomeCall marketID outcome) =
      (marketID == place.marketID) := by
  unfold outcomeCall
  split <;> rfl

theorem MarketOp.Once.congr (h : op.Once place w)
    (hstate : (w'.market place).state = (w.market place).state)
    (hstatement : w'.statement place = w.statement place)
    (hsteps : op.steps place w' = op.steps place w) : op.Once place w' := by
  unfold MarketOp.Once
  rw [hsteps]
  cases op with
  | create req =>
      unfold MarketOp.Pending MarketOp.Past
      rw [hstate, hstatement]
      exact h
  | resolve marketId outcome =>
      unfold MarketOp.Pending MarketOp.Past
      rw [hstate]
      exact h

/-- A market that a call is not about stays as it is. -/
theorem MarketOp.Once.executes_other (h : op.Once place w)
    (hmarket : s.markets place.marketID =
      (w.contracts (place.net, place.contractID)).markets place.marketID)
    (hstatement : s.statements place.marketID =
      (w.contracts (place.net, place.contractID)).statements place.marketID)
    (hstep : op.isStep place function = false) :
    op.Once place (w.executes place.net place.contractID function s) := by
  apply h.congr
  · rw [market_executes, hmarket]
    rfl
  · rw [statement_executes, hstatement]
    rfl
  · rw [steps_executes, hstep]
    rfl

/-- A submission of the operation takes effect where it has not before. -/
theorem MarketOp.Once.executes (h : op.Once place w) (hcalls : op.Calls function)
    (hexec : w.Executes p place.net place.contractID function w') : op.Once place w' := by
  obtain ⟨s, event, hexec, rfl⟩ := hexec
  cases op with
  | create req =>
      obtain ⟨marketIdBig, closeTime, rfl⟩ := hcalls
      obtain ⟨hnew, rfl⟩ := exec_createMarket hexec
      by_cases hid : marketIdBig = place.marketID
      · subst hid
        have hpending : (w.market place).state = .uninitialized := hnew
        rcases h with ⟨_, hsteps⟩ | ⟨⟨hpast, _⟩, _⟩
        · refine Or.inr ⟨⟨?_, ?_⟩, ?_⟩
          · rw [market_executes]
            simp [PrismV2.State.setMarket]
          · rw [statement_executes]
            exact Function.update_self _ _ _
          · rw [steps_executes, hsteps]
            split <;> omega
        · exact absurd hpending hpast
      · apply h.executes_other
        · exact Function.update_of_ne (Ne.symm hid) _ _
        · exact Function.update_of_ne (Ne.symm hid) _ _
        · exact beq_false_of_ne hid
  | resolve marketId outcome =>
      obtain ⟨marketIdBig, want, hwant, rfl⟩ := hcalls
      obtain ⟨hlive, rfl⟩ := exec_outcomeCall hwant hexec
      by_cases hid : marketIdBig = place.marketID
      · subst hid
        have hpending : isLive (w.market place).state = true := hlive
        rcases h with ⟨_, hsteps⟩ | ⟨⟨_, hpast⟩, _⟩
        · have hpast : want ≠ .uninitialized ∧ isLive want = false := by
            rcases (outcomeCall_transitions place.marketID hwant).2 with rfl | rfl | rfl <;> decide
          refine Or.inr ⟨?_, ?_⟩
          · unfold MarketOp.Past
            rw [market_executes, setMarket_self]
            exact hpast
          · rw [steps_executes, hsteps]
            split <;> omega
        · exact absurd hpending (by rw [hpast]; decide)
      · apply h.executes_other
        · exact Function.update_of_ne (Ne.symm hid) _ _
        · rfl
        · rw [isStep_outcomeCall]
          exact beq_false_of_ne hid

end Submission

/-! ## Runs -/

structure Attempts (op : MarketOp) where
  stores : Stores
  program : Option (MarketM (Except String op.Reply))

/-- What can happen: an attempt begins, its request is answered with or without having taken effect,
and it crashes; the CLOB restarts, a market is restored in it from the database, time passes, and
something else is done. -/
inductive MarketEvent
  | start
  | serve (answer : (r : MarketRequest) → r.Answer) (effective : Bool)
  | crash
  | restartClob
  | recreate (marketID : Uint128)
  | elapse (milliseconds : Nat)
  | elsewhere (stores : Stores)

section Runs

variable (p : MarketPlatform) (place : Place)

def isEarlier (earlier state : MarketState) : Prop :=
  earlier = .uninitialized ∨ (isLive earlier = true ∧ state ≠ .uninitialized)

/-- An answer is the true one, or an error whether or not the request took effect, or, from the
mirror node, an earlier state of the market. -/
def Stores.Honest (w : Stores) : (r : MarketRequest) → r.Answer → Bool → Prop
  | .getMarketV2 net contractID marketID, answer, _ =>
    ∀ market, answer = .ok market →
      market = w.onChain net contractID marketID ∨
        isEarlier market.state (w.onChain net contractID marketID).state
  | r, answer, effective =>
    (answer = (w.serve p r).1 ∧ effective = true) ∨ ∃ err, answer = .error err

/-- Other activity leaves the state of the market, its statement, the submissions of the operation
and where the row leads to as they are. -/
structure MarketOp.Apart (op : MarketOp) (w w' : Stores) : Prop where
  state : (w'.market place).state = (w.market place).state
  statement : w'.statement place = w.statement place
  steps : op.steps place w' = op.steps place w
  recorded : op.Recorded p place w → op.Recorded p place w'

def Attempts.next {op : MarketOp} (s : Attempts op) : MarketEvent → Attempts op
  | .start => { s with program := some (op.program p s.stores.clock) }
  | .serve answer effective =>
    match s.program with
    | some (.call r rest) =>
      ⟨if effective then (s.stores.serve p r).2 else s.stores, some (rest (answer r))⟩
    | _ => s
  | .crash => { s with program := none }
  | .restartClob => { s with stores := { s.stores with clob := .new } }
  | .recreate marketID =>
    { s with stores := { s.stores with
        clob := (s.stores.clob.addMarket (p.uuid.string marketID)).1 } }
  | .elapse milliseconds =>
    { s with stores := { s.stores with clock := s.stores.clock + milliseconds } }
  | .elsewhere stores => { s with stores }

def Attempts.Allowed {op : MarketOp} (s : Attempts op) : MarketEvent → Prop
  | .serve answer effective =>
    ∀ r rest, s.program = some (.call r rest) → s.stores.Honest p r (answer r) effective
  | .recreate marketID => ∃ row, s.stores.markets.find marketID = some row ∧
      row.isUnresolved s.stores.clock = true
  | .elsewhere stores => op.Apart p place s.stores stores
  | _ => True

def attempts (op : MarketOp) : System (Attempts op) MarketEvent where
  next s e := s.next p e
  Allowed s e := s.Allowed p place e

def MarketOp.Asks (op : MarketOp) : MarketRequest → Prop
  | .executeAdminCall net contractID function =>
    net = place.net ∧ contractID = place.contractID ∧ op.Calls function
  | .getMarketById marketID _ => marketID = place.marketID ∧
      ∃ marketId outcome, op = .resolve marketId outcome
  | _ => True

def LeadsTo : (r : MarketRequest) → r.Answer → Prop
  | .getMarketById _ _, answer => ∀ row, answer = .ok row → row.net = place.net ∧
      p.contractIDFromString row.smartContractID = .ok place.contractID
  | _, _ => True

variable {p place}

theorem makes_submitNewMarket {req : CreateMarketv2Request} {contractID : Str} {closesAt : Int}
    (hnet : req.net = place.net) (hcontract : contractID = place.contractID) :
    (submitNewMarket contractID req.marketId req.statement req.net closesAt).Makes
      ((MarketOp.create req).Asks place) := by
  apply Program.makes_attempt
  intro marketIdBig _
  apply Program.makes_andThen
  · exact Program.makes_request ⟨hnet, hcontract, marketIdBig, _, rfl⟩
  · exact fun _ => trivial

theorem makes_createNewMarket {req : CreateMarketv2Request} {closesAt : Int}
    (hnames : (MarketOp.create req).Names p place) :
    (createNewMarket p req.marketId req.statement req.net closesAt).Makes
      ((MarketOp.create req).Asks place) := by
  obtain ⟨hnet, _, cfg, hcfg, hcontract⟩ := hnames
  apply Program.makes_attempt
  intro cfg' hcfg'
  cases hcfg.symm.trans hcfg'
  apply Program.makes_attempt
  intro id _
  refine ⟨trivial, ?_⟩
  intro existing
  dsimp only [Program.bind]
  split
  · exact makes_submitNewMarket hnet hcontract
  · split
    · exact makes_submitNewMarket hnet hcontract
    · trivial
    · trivial

theorem makes_createMarketv2 {req : CreateMarketv2Request} {now : Nat}
    (hnames : (MarketOp.create req).Names p place) :
    (createMarketv2 p now req).Makes ((MarketOp.create req).Asks place) := by
  apply Program.makes_attempt
  intro closesAt _
  apply Program.makes_andThen
  · apply Program.makes_named
    apply Program.makes_attempt
    intro _ _
    exact Program.makes_andThen (Program.makes_request trivial) fun _ => trivial
  intro imgUrl
  apply Program.makes_andThen (Program.makes_named (makes_createNewMarket hnames))
  intro contractID
  apply Program.makes_andThen (Program.makes_named (Program.makes_request trivial))
  intro _
  apply Program.makes_andThen
  · apply Program.makes_named
    apply Program.makes_attempt
    intro _ _
    apply Program.makes_attempt
    intro _ _
    apply Program.makes_attempt
    intro _ _
    exact Program.makes_request trivial
  intro market
  apply Program.makes_andThen
  · apply Program.makes_named
    apply Program.makes_attempt
    intro _ _
    exact Program.makes_andThen (Program.makes_request trivial) fun _ => trivial
  intro categoryIds
  exact Program.makes_andThen (Program.makes_named (Program.makes_request trivial)) fun _ => trivial

theorem makes_submitOutcome {marketId : Str} {outcome : Int} {want : MarketState}
    (hwant : targetState outcome = .ok want) :
    (submitOutcome place.contractID marketId place.net outcome).Makes
      ((MarketOp.resolve marketId outcome).Asks place) := by
  apply Program.makes_attempt
  intro marketIdBig _
  exact Program.makes_request ⟨rfl, rfl, marketIdBig, want, hwant, rfl⟩

theorem makes_resolveMarketOnChain {marketId contractIdStr : Str} {outcome : Int}
    (hcontract : p.contractIDFromString contractIdStr = .ok place.contractID) :
    (resolveMarketOnChain p place.net marketId contractIdStr outcome).Makes
      ((MarketOp.resolve marketId outcome).Asks place) := by
  apply Program.makes_attempt
  intro contractId hcontractId
  cases hcontract.symm.trans (mapError_ok_iff.mp hcontractId)
  apply Program.makes_attempt
  intro id _
  apply Program.makes_attempt
  intro want hwant
  refine ⟨trivial, ?_⟩
  intro existing
  cases existing with
  | error err => exact makes_submitOutcome hwant
  | ok market =>
      show Program.Makes _ (if market.state = want then _ else _)
      split
      · trivial
      · exact makes_submitOutcome hwant

/-- A resolution is submitted to the contract that the row leads to. -/
theorem makesUnder_resolveMarket {marketId : Str} {outcome : Int}
    (hid : p.uuid.parse marketId = .ok place.marketID) :
    (resolveMarket p marketId outcome).MakesUnder (LeadsTo p place)
      ((MarketOp.resolve marketId outcome).Asks place) := by
  rw [resolveMarket, hid]
  refine ⟨⟨rfl, marketId, outcome, rfl⟩, ?_⟩
  intro answer hleads
  apply Program.Makes.under
  cases answer with
  | error err => trivial
  | ok row =>
      obtain ⟨hnet, hcontract⟩ := hleads row rfl
      apply Program.makes_andThen
      · apply Program.makes_named
        rw [hnet]
        exact makes_resolveMarketOnChain hcontract
      intro _
      apply Program.makes_andThen
      · apply Program.makes_named
        apply Program.makes_attempt
        intro _ _
        exact Program.makes_andThen (Program.makes_request trivial) fun _ => trivial
      intro isOK
      apply Program.makes_attempt
      intro _ _
      apply Program.makes_andThen (Program.makes_named (Program.makes_request trivial))
      intro _
      apply Program.makes_andThen
      · apply Program.makes_named
        apply Program.makes_attempt
        intro _ _
        exact Program.makes_request trivial
      · exact fun _ => trivial

theorem MarketOp.program_makes (op : MarketOp) (hnames : op.Names p place) (now : Nat) :
    (op.program p now).MakesUnder (LeadsTo p place) (op.Asks place) := by
  cases op with
  | create req => exact (makes_createMarketv2 hnames).under _
  | resolve marketId outcome => exact makesUnder_resolveMarket hnames

/-- In every state of a run: where the row leads to, that the operation took effect at most once,
and what the attempt may still ask. -/
structure Attempts.Good (p : MarketPlatform) (place : Place) {op : MarketOp} (s : Attempts op) :
    Prop where
  recorded : op.Recorded p place s.stores
  once : op.Once place s.stores
  program : ∀ program, s.program = some program →
    program.MakesUnder (LeadsTo p place) (op.Asks place)

variable {op : MarketOp} {w : Stores} {s : Attempts op}

/-- Where a row leads to outlives what keeps the row's network and contract. -/
theorem MarketOp.Recorded.mono {w' : Stores} (h : op.Recorded p place w)
    (hrows : ∀ row, w.markets.find place.marketID = some row →
      ∃ row', w'.markets.find place.marketID = some row' ∧ row'.net = row.net ∧
        row'.smartContractID = row.smartContractID) : op.Recorded p place w' := by
  cases op with
  | create req => trivial
  | resolve marketId outcome =>
      obtain ⟨row, hrow, hnet, hcontract⟩ := h
      obtain ⟨row', hrow', hnet', hcontract'⟩ := hrows row hrow
      exact ⟨row', hrow', hnet'.trans hnet, hcontract' ▸ hcontract⟩

/-- Every request of the operation keeps what is known of the stores. -/
theorem serve_keeps {r : MarketRequest} (hrecorded : op.Recorded p place w)
    (honce : op.Once place w) (hasks : op.Asks place r) :
    op.Recorded p place (w.serve p r).2 ∧ op.Once place (w.serve p r).2 := by
  refine ⟨hrecorded.mono fun row hrow => serve_rows hrow, ?_⟩
  by_cases hcall : ∃ net contractID function, r = .executeAdminCall net contractID function
  · obtain ⟨net, contractID, function, rfl⟩ := hcall
    obtain ⟨rfl, rfl, hcalls⟩ := hasks
    rcases serve_executeAdminCall (p := p) (w := w) with hsame | hexec
    · rw [hsame]
      exact honce
    · exact honce.executes hcalls hexec
  · obtain ⟨hcontracts, hexecuted⟩ :=
      serve_contracts (p := p) (w := w) fun net contractID function heq =>
      hcall ⟨net, contractID, function, heq⟩
    apply honce.congr
    · rw [Stores.market, Stores.onChain, hcontracts]
      rfl
    · rw [Stores.statement, hcontracts]
      rfl
    · rw [MarketOp.steps, hexecuted]
      rfl

/-- An honest answer of the database tells where the row leads to. -/
theorem leadsTo_of_honest {r : MarketRequest} {answer : r.Answer} {effective : Bool}
    (hrecorded : op.Recorded p place w) (hasks : op.Asks place r)
    (hhonest : w.Honest p r answer effective) : LeadsTo p place r answer := by
  cases r with
  | getMarketById marketID isAdmin =>
      obtain ⟨rfl, marketId, outcome, rfl⟩ := hasks
      obtain ⟨row, hrow, hnet, hcontract⟩ := hrecorded
      intro row' hanswer
      rcases hhonest with ⟨hserved, _⟩ | ⟨err, herr⟩
      · have hread : (w.serve p (.getMarketById place.marketID isAdmin)).1 = .ok row' :=
          hserved.symm.trans hanswer
        simp only [Stores.serve, hrow] at hread
        split at hread
        · cases hread
          exact ⟨hnet, hcontract⟩
        · cases hread
      · exact absurd (hanswer.symm.trans herr) (by simp)
  | _ => trivial

theorem Attempts.Good.next (hnames : op.Names p place) (h : s.Good p place) {e : MarketEvent}
    (hallowed : s.Allowed p place e) : (s.next p e).Good p place := by
  cases e with
  | start =>
      have hmakes := op.program_makes hnames s.stores.clock
      exact ⟨h.recorded, h.once, fun _ heq => Option.some.inj heq ▸ hmakes⟩
  | serve answer effective =>
      simp only [Attempts.next]
      split
      · next r rest hprogram =>
          obtain ⟨hasks, hrest⟩ := h.program _ hprogram
          have hleads := leadsTo_of_honest h.recorded hasks (hallowed r rest hprogram)
          have hkeeps := serve_keeps (p := p) h.recorded h.once hasks
          cases effective with
          | true => exact ⟨hkeeps.1, hkeeps.2, fun _ heq => Option.some.inj heq ▸ hrest _ hleads⟩
          | false => exact ⟨h.recorded, h.once, fun _ heq => Option.some.inj heq ▸ hrest _ hleads⟩
      · exact h
  | crash => exact ⟨h.recorded, h.once, fun _ heq => absurd heq (by simp [Attempts.next])⟩
  | restartClob | recreate | elapse => exact ⟨h.recorded, h.once, h.program⟩
  | elsewhere stores =>
      exact ⟨hallowed.recorded h.recorded,
        h.once.congr hallowed.state hallowed.statement hallowed.steps,
        h.program⟩

theorem good_of_run (hnames : op.Names p place) {events : List MarketEvent}
    (hgood : s.Good p place) (hruns : (attempts p place op).Runs (fun _ _ => True) s events) :
    ((attempts p place op).run s events).Good p place :=
  hruns.preserves (fun _ _ h hallowed _ => h.next hnames hallowed) hgood

theorem MarketOp.Once.steps_le (h : op.Once place w) : op.steps place w ≤ 1 := by
  rcases h with ⟨_, hsteps⟩ | ⟨_, hsteps⟩
  · omega
  · exact hsteps

theorem MarketOp.Fresh.good (h : op.Fresh p place w) :
    (⟨w, none⟩ : Attempts op).Good p place :=
  ⟨h.recorded, Or.inl ⟨h.pending, h.steps⟩, fun _ heq => absurd heq (by simp)⟩

theorem steps_of_run (hfresh : op.Fresh p place w) (events : List MarketEvent)
    (hruns : (attempts p place op).Runs (fun _ _ => True) ⟨w, none⟩ events) :
    op.steps place ((attempts p place op).run ⟨w, none⟩ events).stores ≤ 1 :=
  (good_of_run hfresh.names hfresh.good hruns).once.steps_le

end Runs

end PrismBackend.Markets
