import PrismBackend.Api.Settleable
import PrismBackend.Api.Outbox
import PrismBackend.Api.Spelling
import PrismBackend.Clob.Shelves

/-!
# API: the spelling of a market

The book of a market takes orders whose market ids are spelled in any case, and
`settleMatchV2` compares the spellings of a match with those of its two orders.
-/

namespace PrismBackend.Api

open PrismBackend.Lib PrismBackend.Clob PrismBackend.PrismV2

/-! ## Refusals over a market -/

/-- The two texts with which `settleMatchV2` refuses a match over its market. -/
def MarketMismatch (p : Platform) (err : String) : Prop :=
  "market mismatch: ".toList <+: err.toList ∨
    ∃ txID, ("order " ++ p.idText txID ++ " belongs to market ").toList <+: err.toList

def RejectsMarket (p : Platform) (settlement : Settlement) : Prop :=
  ∃ err, settlement = rejected err ∧ MarketMismatch p err

section Texts

variable {p : Platform} {err : String}

theorem idText_toList (p : Platform) (u : Uint128) : (p.idText u).toList = p.uuid.string u :=
  String.toList_ofList

theorem not_rejectsMarket_retry (err : String) : ¬RejectsMarket p (retry err) := by
  rintro ⟨err', heq, _⟩
  cases heq

theorem not_rejectsMarket_done : ¬RejectsMarket p (.done, none) := by
  rintro ⟨err', heq, _⟩
  cases heq

theorem not_rejectsMarket_rejected (h : ¬MarketMismatch p err) :
    ¬RejectsMarket p (rejected err) := by
  rintro ⟨err', heq, hmismatch⟩
  cases heq
  exact h hmismatch

/-- However it goes on, the text is not over the market. -/
def Elsewhere (p : Platform) (err : String) : Prop := ∀ more, ¬MarketMismatch p (err ++ more)

theorem Elsewhere.append (h : Elsewhere p err) (more : String) : Elsewhere p (err ++ more) := by
  intro more'
  rw [String.append_assoc]
  exact h (more ++ more')

theorem Elsewhere.not_mismatch (h : Elsewhere p err) : ¬MarketMismatch p err := by
  have hself := h ""
  rwa [String.append_empty] at hself

theorem elsewhere_head {ch : Char} {rest : Str} (herr : err.toList = ch :: rest) (hm : ch ≠ 'm')
    (ho : ch ≠ 'o') : Elsewhere p err := by
  rintro more (hstarts | ⟨txID, hstarts⟩)
  · rw [String.toList_append, herr] at hstarts
    exact hm (List.cons_prefix_cons.mp hstarts).1.symm
  · simp only [String.toList_append, herr, List.append_assoc] at hstarts
    exact ho (List.cons_prefix_cons.mp hstarts).1.symm

theorem uuidText_length (u : Uint128) : (uuidText u).length = 36 := by
  have hlength : (hexText 32 u.val).length = 32 := hexText_length (by simp) (by decide)
  show (uuidGroups (hexText 32 u.val)).length = 36
  simp only [uuidGroups, List.length_append, List.length_cons, List.length_take, List.length_drop,
    hlength, Nat.reduceSub, Nat.reduceAdd, Nat.min_def]
  rfl

/-- What else is said of an order: the text goes on otherwise after the id. -/
theorem elsewhere_order (hwrites : p.uuid.WritesHex) (txID : Uint128) {tail : String}
    {a b : Char} {rest : Str} (htail : tail.toList = a :: b :: rest) (hne : ¬(a = ' ' ∧ b = 'b')) :
    Elsewhere p ("order " ++ p.idText txID ++ tail) := by
  rintro more (hstarts | ⟨txID', hstarts⟩)
  · simp only [String.toList_append, List.append_assoc] at hstarts
    exact absurd (List.cons_prefix_cons.mp hstarts).1 (by decide)
  · simp only [String.toList_append, List.append_assoc, idText_toList,
      List.prefix_append_right_inj, htail] at hstarts
    obtain ⟨rest', heq⟩ := hstarts
    rw [List.append_assoc] at heq
    have hlength : (p.uuid.string txID').length = (p.uuid.string txID).length := by
      rw [hwrites, hwrites, uuidText_length, uuidText_length]
    have htexts : ' ' :: 'b' :: ("elongs to market ".toList ++ rest') =
        a :: b :: (rest ++ more.toList) := (List.append_inj heq hlength).2
    simp only [List.cons.injEq] at htexts
    exact hne ⟨htexts.1.symm, htexts.2.1.symm⟩

/-- What is said of the market itself: the id is no word. -/
theorem elsewhere_market {marketId : Str} (hmarket : isUuidV7 marketId = true) :
    Elsewhere p ("market " ++ text marketId) := by
  cases marketId with
  | nil => exact absurd hmarket (by decide)
  | cons ch rest =>
      have hch : isHexDigit ch = true := by
        have hpattern : (isHexDigit ch && matchesPattern uuidV7Pattern.tail rest) = true := hmarket
        exact (Bool.and_eq_true _ _ ▸ hpattern).1
      rintro more (hstarts | ⟨txID, hstarts⟩)
      · simp only [String.toList_append, text, String.toList_ofList, List.append_assoc] at hstarts
        have hword : 'm' :: "ismatch: ".toList <+: ch :: (rest ++ more.toList) :=
          (List.prefix_append_right_inj "market ".toList).mp hstarts
        rw [← (List.cons_prefix_cons.mp hword).1] at hch
        exact absurd hch (by decide)
      · simp only [String.toList_append, List.append_assoc] at hstarts
        exact absurd (List.cons_prefix_cons.mp hstarts).1 (by decide)

end Texts

/-! ## The refusals of `settleMatchV2` -/

section Program

variable {p : Platform} {m : ClobMatch}

abbrev Past (p : Platform) (settlement : Settlement) : Prop := ¬RejectsMarket p settlement

theorem past_rejected {err : String} (h : Elsewhere p err) : Past p (rejected err) :=
  not_rejectsMarket_rejected h.not_mismatch

theorem past_of_elsewhere {α : Type} {x : Except String α} (h : Raises (Elsewhere p) x) :
    Raises (Past p) (x.mapError rejected) :=
  h.mapError fun _ => past_rejected

theorem checkRow_past (hwrites : p.uuid.WritesHex) {row : PredictionIntent}
    (hmarket : p.uuid.string row.marketID = toAsciiLowercase m.marketId) :
    Raises (Past p) (checkRow p m row) := by
  refine Raises.bind (raises_revertIf fun _ => ?_) fun _ _ => raises_revertIf fun hne => ?_
  · exact past_rejected (elsewhere_order hwrites row.txID rfl (by decide))
  · exact absurd hmarket hne

theorem checkRows_past (hwrites : p.uuid.WritesHex) {bidRow askRow : PredictionIntent}
    (hbid : p.uuid.string bidRow.marketID = toAsciiLowercase m.marketId)
    (hask : p.uuid.string askRow.marketID = toAsciiLowercase m.marketId) :
    Raises (Past p) (checkRows p m bidRow askRow) := by
  refine (checkRow_past hwrites hbid).bind fun _ _ =>
    (checkRow_past hwrites hask).bind fun _ _ => ?_
  refine Raises.bind (raises_revertIf fun _ => ?_) fun _ _ => raises_revertIf fun _ => ?_
  · apply past_rejected
    exact (((elsewhere_head rfl (by decide) (by decide)).append _).append _).append _
  · exact past_rejected (elsewhere_head rfl (by decide) (by decide))

theorem splitCollateralV2_elsewhere (fill price : Nat) :
    Raises (Elsewhere p) (splitCollateralV2 fill price) := by
  refine Raises.bind (raises_revertIf fun _ => elsewhere_head rfl (by decide) (by decide)) ?_
  intro _ _
  refine Raises.bind (raises_revertIf fun _ => elsewhere_head rfl (by decide) (by decide)) ?_
  intro _ _
  exact raises_ok _

theorem matchIDV2_elsewhere {contract : Str} {market bid ask : Uint128}
    {bidBefore askBefore fill price : Nat} : Raises (Elsewhere p)
      (matchIDV2 p.keccak256 contract market bid ask bidBefore askBefore fill price) := by
  refine Raises.bind (raises_revertIf fun _ => elsewhere_head rfl (by decide) (by decide)) ?_
  intro _ _
  exact raises_ok _

/-- An error of a leg comes after the name of the leg. -/
theorem past_leg {leg : String} {ch : Char} {rest : Str} (hleg : leg.toList = ch :: rest)
    (hm : ch ≠ 'm') (ho : ch ≠ 'o') (txID : Uint128) (err : String) :
    Past p (rejected (leg ++ p.idText txID ++ ": " ++ err)) :=
  past_rejected ((((elsewhere_head hleg hm ho).append _).append _).append _)

theorem prepare_past (hwrites : p.uuid.WritesHex) (hmarket : isUuidV7 m.marketId = true)
    {bid ask : CreateOrderRequestClob} {bidRow askRow : PredictionIntent} {cfg : PrismV2Network}
    {market : MarketRow} : Raises (Past p) (prepare p m bid ask bidRow askRow cfg market) := by
  unfold prepare
  refine Raises.bind (raises_revertIf fun _ => past_rejected ?_) fun _ _ => ?_
  · exact (((elsewhere_market hmarket).append _).append _).append _ |>.append _
  refine Raises.bind (raises_mapError (fun err => ?_) _) fun bidAuth _ => ?_
  · exact past_leg rfl (by decide) (by decide) bidRow.txID err
  refine Raises.bind (raises_mapError (fun err => ?_) _) fun askAuth _ => ?_
  · exact past_leg rfl (by decide) (by decide) askRow.txID err
  have hdomain (a : AuthorizationV2) : Raises (Past p) (checkDomain p cfg a) :=
    raises_revertIf fun _ => past_rejected (elsewhere_order hwrites a.txId rfl (by decide))
  refine (hdomain bidAuth).bind fun _ _ => (hdomain askAuth).bind fun _ _ => ?_
  refine Raises.bind (raises_revertIf fun _ => past_rejected ?_) fun _ _ => ?_
  · exact elsewhere_head rfl (by decide) (by decide)
  refine (past_of_elsewhere (splitCollateralV2_elsewhere _ _)).bind fun legs _ => ?_
  refine Raises.bind (raises_revertIf fun _ => past_rejected ?_) fun _ _ => ?_
  · simp only [String.append_assoc]
    exact (elsewhere_head rfl (by decide) (by decide)).append _
  refine (past_of_elsewhere matchIDV2_elsewhere).bind fun matchID _ => ?_
  refine Raises.bind (raises_mapError (f := retry) not_rejectsMarket_retry _) fun _ _ => ?_
  exact raises_ok _

theorem calldata_past (q : Prepared) : Raises (Past p) (q.calldata p) := by
  unfold Prepared.calldata
  refine Raises.bind (raises_mapError (fun err => ?_) _) fun _ _ => ?_
  · exact past_leg rfl (by decide) (by decide) q.bidRow.txID err
  refine Raises.bind (raises_mapError (fun err => ?_) _) fun _ _ => ?_
  · exact past_leg rfl (by decide) (by decide) q.askRow.txID err
  refine past_of_elsewhere ?_
  refine Raises.bind (raises_mapError (fun err => ?_) _) fun _ _ => ?_
  · exact (elsewhere_head rfl (by decide) (by decide)).append err
  refine Raises.bind (raises_mapError (fun err => ?_) _) fun _ _ => raises_ok _
  exact (elsewhere_head rfl (by decide) (by decide)).append err

theorem finalizeMatch_past (q : Prepared) (txHash : Str) :
    (finalizeMatch q txHash).Returns (Past p) := by
  intro answer
  cases answer with
  | error err => exact not_rejectsMarket_retry err
  | ok applied => exact not_rejectsMarket_done

theorem reject_past (q : Prepared) (row : Match) {err : String} (h : Elsewhere p err) :
    (reject q row err).Returns (Past p) := by
  intro _
  show Past p (if row.attempts > 0 then retry err else rejected err)
  split
  · exact not_rejectsMarket_retry err
  · exact past_rejected h

theorem afterSubmission_past (q : Prepared) (txHash : Str) (err : Option String) :
    (afterSubmission q txHash err).Returns (Past p) := by
  cases err with
  | none => exact finalizeMatch_past q txHash
  | some err =>
      intro answer
      rcases answer with failure | executed
      · exact fun _ => not_rejectsMarket_retry _
      · cases executed with
        | false => exact fun _ => not_rejectsMarket_retry _
        | true => exact finalizeMatch_past q txHash

theorem submitMatch_past (q : Prepared) (calldata : Bytes) :
    (submitMatch q calldata).Returns (Past p) := by
  intro answer
  cases answer with
  | error err => exact afterSubmission_past q [] (some ("submit settle: " ++ err))
  | ok txHash =>
      intro _ receipt
      cases receipt with
      | error err => exact afterSubmission_past q txHash (some ("settle receipt: " ++ err))
      | ok status =>
          exact afterSubmission_past q txHash
            (if status = receiptSuccess then none else some ("settle status " ++ status))

/-- A refusal of a gate, unless it is only for now. -/
def Refusal.Elsewhere (p : Platform) : Refusal → Prop
  | .reject err => Api.Elsewhere p err
  | .retry _ => True

theorem checkLive_elsewhere (hwrites : p.uuid.WritesHex) (row : PredictionIntent) :
    Raises (Refusal.Elsewhere p) (checkLive p row) :=
  raises_revertIf fun _ => elsewhere_order hwrites row.txID rfl (by decide)

theorem checkLeg_elsewhere (hwrites : p.uuid.WritesHex) (record : MatchV2) (now : Nat)
    (a : AuthorizationV2) (row : PredictionIntent) :
    Raises (Refusal.Elsewhere p) (checkLeg p record now a row) := by
  unfold checkLeg
  have hcolon (err : String) :
      Refusal.Elsewhere p (.reject ("order " ++ p.idText a.txId ++ ": " ++ err)) :=
    (elsewhere_order hwrites a.txId rfl (by decide)).append err
  refine Raises.bind (raises_mapError hcolon _) fun _ _ => ?_
  refine Raises.bind (raises_revertIf fun _ => ?_) fun _ _ => ?_
  · exact (elsewhere_order hwrites a.txId rfl (by decide)).append _
  refine Raises.bind (raises_mapError (fun err => trivial) _) fun _ _ => ?_
  refine Raises.bind (raises_revertIf fun _ => ?_) fun _ _ => ?_
  · exact ((elsewhere_order hwrites a.txId rfl (by decide)).append _).append _
  split
  · refine Raises.bind (raises_mapError (fun err => trivial) _) fun _ _ => ?_
    exact raises_revertIf fun _ => elsewhere_order hwrites a.txId rfl (by decide)
  · exact raises_ok ()

theorem gateMatch_past (hwrites : p.uuid.WritesHex) (q : Prepared) (row : Match) :
    (gateMatch p q row).Returns (Past p) := by
  unfold gateMatch
  have hlive : Raises (Refusal.Elsewhere p) (do checkLive p q.bidRow; checkLive p q.askRow) :=
    (checkLive_elsewhere hwrites q.bidRow).bind fun _ _ => checkLive_elsewhere hwrites q.askRow
  split
  · next err heq => exact reject_past q row (hlive _ heq)
  · exact not_rejectsMarket_retry _
  rw [Program.request_bind]
  intro now
  have hlegs : Raises (Refusal.Elsewhere p) (do
      checkLeg p q.record now q.bidAuth q.bidRow
      checkLeg p q.record now q.askAuth q.askRow) :=
    (checkLeg_elsewhere hwrites _ now _ _).bind fun _ _ => checkLeg_elsewhere hwrites _ now _ _
  dsimp only
  split
  · next err heq => exact reject_past q row (hlegs _ heq)
  · exact not_rejectsMarket_retry _
  · split
    · next settlement heq => exact calldata_past q _ heq
    · exact submitMatch_past q _

theorem settlePrepared_past (hwrites : p.uuid.WritesHex) (q : Prepared) :
    (settlePrepared p q).Returns (Past p) := by
  rw [settlePrepared, Program.request_bind]
  intro recorded
  cases recorded with
  | error err => exact not_rejectsMarket_retry err
  | ok row =>
      dsimp only
      split
      · exact not_rejectsMarket_done
      · rw [Program.request_bind]
        intro executed
        rcases executed with err | executed
        · exact not_rejectsMarket_retry _
        cases executed with
        | true => exact finalizeMatch_past q row.txHash
        | false => exact gateMatch_past hwrites q row

/-- Where the rows are of the market of the match, what follows does not reject it over that. -/
theorem settleRows_past (hwrites : p.uuid.WritesHex) (hmarket : isUuidV7 m.marketId = true)
    {bid ask : CreateOrderRequestClob} {bidRow askRow : PredictionIntent}
    (hbid : p.uuid.string bidRow.marketID = toAsciiLowercase m.marketId)
    (hask : p.uuid.string askRow.marketID = toAsciiLowercase m.marketId) :
    (settleRows p m bid ask bidRow askRow).Returns (Past p) := by
  unfold settleRows
  split
  · next settlement heq => exact checkRows_past hwrites hbid hask _ heq
  split
  · exact not_rejectsMarket_retry _
  rw [Program.request_bind]
  intro found
  cases found with
  | error err => exact not_rejectsMarket_retry _
  | ok market =>
      dsimp only
      split
      · next settlement heq => exact prepare_past hwrites hmarket _ heq
      · exact settlePrepared_past hwrites _

end Program

/-! ## Orders of one market -/

/-- What the API sends to the CLOB for the order of a row: the message of its creation, or at a
rebuild the order of the row with the fills that are still being settled. -/
inductive SentOrder (p : Platform) (terms : OrderTerms) : CreateOrderRequestClob → Prop
  | created (req : PrismPredictionIntentRequest) (hvalid : req.Validated)
      (hcreated : createOrderIntentRequest p.uuid req = .ok terms) :
        SentOrder p terms (clobRequest req)
  | restored (row : PredictionIntent) (matches_ : List Match) (order : CreateOrderRequestClob)
      (haccepted : Accepted p row) (hterms : row.toOrderTerms = terms)
      (horder : clobOrderFromIntent p.uuid row = .ok order) :
      SentOrder p terms (matches_.foldl withUnsettledFill order)

section SentOrder

variable {p : Platform} {terms : OrderTerms} {o : CreateOrderRequestClob}

theorem withUnsettledFills_unfilled (order : CreateOrderRequestClob) (matches_ : List Match) :
    unfilled (matches_.foldl withUnsettledFill order) = unfilled order := by
  induction matches_ generalizing order with
  | nil => rfl
  | cons m matches_ ih =>
      refine (ih _).trans ?_
      unfold withUnsettledFill
      split
      · rfl
      split
      · rfl
      · rfl

/-- The market of an accepted order, as its request spells it. -/
theorem createOrderIntentRequest_market (hreads : p.uuid.ReadsHex) (hwrites : p.uuid.WritesHex)
    {req : PrismPredictionIntentRequest} (hvalid : req.Validated)
    (hcreated : createOrderIntentRequest p.uuid req = .ok terms) :
    p.uuid.parse req.txId = .ok terms.txID ∧
      p.uuid.string terms.marketID = toAsciiLowercase req.marketId := by
  simp only [createOrderIntentRequest, bind_ok_iff, mapError_ok_iff, Except.ok.injEq] at hcreated
  obtain ⟨_, _, tx, htx, market, hmarket, rfl⟩ := hcreated
  exact ⟨htx, (Uuid.string_of_parse hreads hwrites hvalid.marketId hmarket).1⟩

theorem SentOrder.market (h : SentOrder p terms o) (hreads : p.uuid.ReadsHex)
    (hwrites : p.uuid.WritesHex) :
    p.uuid.parse o.txId = .ok terms.txID ∧ isUuidV7 o.marketId = true ∧
      p.uuid.string terms.marketID = toAsciiLowercase o.marketId := by
  cases h with
  | created req hvalid hcreated =>
      obtain ⟨htx, hmarket⟩ := createOrderIntentRequest_market hreads hwrites hvalid hcreated
      exact ⟨htx, hvalid.marketId, hmarket⟩
  | restored row matches_ order haccepted hterms horder =>
      obtain ⟨⟨req, a, hvalid, _, _, hcreated⟩, _⟩ := haccepted
      obtain ⟨_, hmarket⟩ := createOrderIntentRequest_market hreads hwrites hvalid hcreated
      have hsame := withUnsettledFills_unfilled order matches_
      rw [txId_of_unfilled hsame, marketId_of_unfilled hsame, ← hterms]
      simp only [clobOrderFromIntent, bind_ok_iff, mapError_ok_iff, Except.ok.injEq] at horder
      obtain ⟨_, _, _, _, _, _, rfl⟩ := horder
      dsimp only
      rw [hmarket, toAsciiLowercase_idem]
      exact ⟨p.uuid.parse_string _, isUuidV7_lowercase hvalid.marketId, rfl⟩

end SentOrder

/-- The rows that are read are those of accepted orders, whose terms never change. -/
def ReadsTerms (p : Platform) (terms : Uint128 → Option OrderTerms) (answers : Answers) : Prop :=
  ∀ txId row, ⟨.getPredictionIntentByTxId txId, .ok row⟩ ∈ answers →
    ∃ txID, p.uuid.parse txId = .ok txID ∧ terms txID = some row.toOrderTerms

def AllSent (p : Platform) (terms : Uint128 → Option OrderTerms)
    (orders : List CreateOrderRequestClob) : Prop :=
  ∀ o ∈ orders, ∃ t, terms t.txID = some t ∧ SentOrder p t o

/-- The row of an order that came in has its market. -/
theorem AllSent.row_market {p : Platform} {terms : Uint128 → Option OrderTerms}
    {orders : List CreateOrderRequestClob} (h : AllSent p terms orders) (hreads : p.uuid.ReadsHex)
    (hwrites : p.uuid.WritesHex) {o : CreateOrderRequestClob}
    (ho : ∃ o' ∈ orders, unfilled o = unfilled o') {row : PredictionIntent} {answers : Answers}
    (hrows : ReadsTerms p terms answers)
    (hrow : ⟨.getPredictionIntentByTxId o.txId, .ok row⟩ ∈ answers) :
    p.uuid.string row.marketID = toAsciiLowercase o.marketId := by
  obtain ⟨o', ho', heq⟩ := ho
  obtain ⟨t, hterms, hsent⟩ := h o' ho'
  obtain ⟨htx, _, hmarket⟩ := hsent.market hreads hwrites
  obtain ⟨txID, hparse, hread⟩ := hrows _ row hrow
  rw [txId_of_unfilled heq, htx, Except.ok.injEq] at hparse
  rw [← hparse, hterms, Option.some.injEq] at hread
  rw [marketId_of_unfilled heq, ← hmarket, hread]

/-- A fill of the CLOB is rejected over its market exactly where its two orders spell the market
differently. -/
theorem rejectsMarket_iff (p : Platform) (hreads : p.uuid.ReadsHex) (hwrites : p.uuid.WritesHex)
    (terms : Uint128 → Option OrderTerms) (requests : List ClobRequest)
    (hsent : AllSent p terms (offeredOrders requests)) (m : ClobMatch)
    (hm : m ∈ (runProcess requests).fills) (answers : Answers) (hrows : ReadsTerms p terms answers)
    (settlement : Settlement) (hpath : (settleMatchV2 p m).Path answers (.ret settlement)) :
    RejectsMarket p settlement ↔ m.bid.map (·.marketId) ≠ m.ask.map (·.marketId) := by
  obtain ⟨bid, ask, hpairs⟩ := (runProcess_shelved requests).2 m hm
  rw [hpairs.bid_eq, hpairs.ask_eq, Option.map_some, Option.map_some, Ne, Option.some.injEq]
  simp only [settleMatchV2, hpairs.bid_eq, hpairs.ask_eq] at hpath
  by_cases hsame : bid.marketId = ask.marketId
  · have hbid : bid.marketId = m.marketId := by
      rcases hpairs.market with heq | heq
      · exact heq.symm
      · exact hsame.trans heq.symm
    have hask : ask.marketId = m.marketId := hsame.symm.trans hbid
    have hmarket : isUuidV7 m.marketId = true := by
      obtain ⟨o, ho, heq⟩ := hpairs.bid_came
      obtain ⟨t, _, hsent⟩ := hsent o ho
      rw [← hbid, marketId_of_unfilled heq]
      exact (hsent.market hreads hwrites).2.1
    refine iff_of_false ?_ (not_not.mpr hsame)
    rw [if_neg (by simp [hbid, hask]), Program.request_bind] at hpath
    rcases Program.path_call_iff.mp hpath with ⟨_, heq⟩ | ⟨bidRead, later, rfl, hafterBid⟩
    · cases heq
    cases bidRead with
    | error err =>
        cases (Program.path_ret_iff.mp hafterBid).2
        exact not_rejectsMarket_retry _
    | ok bidRow =>
        dsimp only at hafterBid
        rw [Program.request_bind] at hafterBid
        rcases Program.path_call_iff.mp hafterBid with ⟨_, heq⟩ | ⟨askRead, later, rfl, hafterAsk⟩
        · cases heq
        cases askRead with
        | error err =>
            cases (Program.path_ret_iff.mp hafterAsk).2
            exact not_rejectsMarket_retry _
        | ok askRow =>
            have hbidRow := hsent.row_market hreads hwrites hpairs.bid_came hrows List.mem_cons_self
            have haskRow := hsent.row_market hreads hwrites hpairs.ask_came hrows
              (List.mem_cons_of_mem _ List.mem_cons_self)
            rw [hbid] at hbidRow
            rw [hask] at haskRow
            dsimp only at hafterAsk
            exact hafterAsk.returns (settleRows_past hwrites hmarket hbidRow haskRow)
  · refine iff_of_true ?_ hsame
    have hmismatch : bid.marketId ≠ m.marketId ∨ ask.marketId ≠ m.marketId := by
      by_contra hnot
      obtain ⟨hbid, hask⟩ := not_or.mp hnot
      exact hsame ((not_not.mp hbid).trans (not_not.mp hask).symm)
    rw [if_pos hmismatch] at hpath
    cases (Program.path_ret_iff.mp hpath).2
    refine ⟨_, rfl, Or.inl ?_⟩
    have hword : "market mismatch: match=" = "market mismatch: " ++ "match=" := by decide
    rw [hword]
    simp only [String.toList_append, List.append_assoc]
    exact List.prefix_append _ _

/-! ## Two spellings of one market -/

def sampleUpper : PrismPredictionIntentRequest :=
  { sampleRequest with
    txId := "01890f3e-7c10-7cc1-98bc-0242ac120004".toList
    marketId := "01890F3E-7C10-7CC1-98BC-0242AC120002".toList
    accountId := "0.0.1002".toList
    evmAddress := "0000000000000000000000000000000000000023".toList
    side := sideYes
    limitYesPrice := 700000 }

def sampleMeeting : List ClobRequest :=
  [.createMarket sampleRequest.marketId, .deliverOrder (clobRequest sampleRequest) 10,
    .deliverOrder (clobRequest sampleUpper) 20]

def sampleMixedMatch : ClobMatch where
  marketId := sampleUpper.marketId
  bid := some (clobRequest sampleUpper)
  ask := some (clobRequest sampleRequest)
  fillShares := 10000000
  executionYesPrice := 625000
  yesCollateral := 6250000
  noCollateral := 3750000

theorem sampleUpper_validated : sampleUpper.Validated := by
  constructor
  · decide +kernel
  · decide +kernel
  · decide +kernel
  · decide +kernel

theorem sampleMeeting_fills : (runProcess sampleMeeting).fills = [sampleMixedMatch] := by
  decide +kernel

theorem sampleMixedMatch_settled :
    settleMatchV2 samplePlatform sampleMixedMatch = .ret (rejected ("market mismatch: match=" ++
      text sampleUpper.marketId ++ " bid=" ++ text sampleUpper.marketId ++ " ask=" ++
      text sampleRequest.marketId)) := by
  have hmismatch : (clobRequest sampleUpper).marketId ≠ sampleMixedMatch.marketId ∨
      (clobRequest sampleRequest).marketId ≠ sampleMixedMatch.marketId :=
    Or.inr (by decide +kernel)
  unfold settleMatchV2
  exact if_pos hmismatch

theorem sample_created (req : PrismPredictionIntentRequest) (txID : Uint128)
    (h : (createOrderIntentRequest sampleUuid req).toOption.map (·.txID) = some txID) :
    ∃ t, createOrderIntentRequest sampleUuid req = .ok t ∧ t.txID = txID := by
  cases hcreated : createOrderIntentRequest sampleUuid req with
  | error err =>
      rw [hcreated] at h
      cases h
  | ok t =>
      rw [hcreated] at h
      exact ⟨t, rfl, Option.some.inj h⟩

theorem rejectsMarket_iff_sample : ∃ settlement,
    (settleMatchV2 samplePlatform sampleMixedMatch).Path [] (.ret settlement) ∧
      (RejectsMarket samplePlatform settlement ↔
        sampleMixedMatch.bid.map (·.marketId) ≠ sampleMixedMatch.ask.map (·.marketId)) := by
  obtain ⟨ask, hask, haskTx⟩ := sample_created sampleRequest
    0x01890F3E7C107CC198BC0242AC120003 (by decide +kernel)
  obtain ⟨bid, hbid, hbidTx⟩ := sample_created sampleUpper
    0x01890F3E7C107CC198BC0242AC120004 (by decide +kernel)
  let terms (txID : Uint128) : Option OrderTerms := [ask, bid].find? (·.txID = txID)
  have hne : ask.txID ≠ bid.txID := by
    rw [haskTx, hbidTx]
    decide
  have hpath : (settleMatchV2 samplePlatform sampleMixedMatch).Path []
      (settleMatchV2 samplePlatform sampleMixedMatch) := .nil _
  rw [sampleMixedMatch_settled] at hpath
  refine ⟨_, sampleMixedMatch_settled ▸ hpath, rejectsMarket_iff samplePlatform sampleUuid_readsHex
    sampleUuid_writesHex terms sampleMeeting ?_ _ ?_ [] ?_ _ (sampleMixedMatch_settled ▸ hpath)⟩
  · intro o ho
    have hmem : o = clobRequest sampleRequest ∨ o = clobRequest sampleUpper := by
      simpa [sampleMeeting, offeredOrders, ClobRequest.order, eq_comm] using ho
    rcases hmem with rfl | rfl
    · exact ⟨ask, by simp [terms], .created sampleRequest sampleRequest_validated hask⟩
    · exact ⟨bid, by simp [terms, hne], .created sampleUpper sampleUpper_validated hbid⟩
  · rw [sampleMeeting_fills]
    exact List.mem_singleton_self _
  · intro txId row hmem
    exact absurd hmem List.not_mem_nil

/-- Two accepted orders of one market whose fill is rejected over the market. -/
theorem match_rejected_over_market :
    sampleRequest.Validated ∧ sampleUpper.Validated ∧
      sampleUuid.parse sampleRequest.marketId = sampleUuid.parse sampleUpper.marketId ∧
      ∃ m ∈ (runProcess sampleMeeting).fills, ∃ settlement,
        settleMatchV2 samplePlatform m = .ret settlement ∧
          RejectsMarket samplePlatform settlement := by
  refine ⟨sampleRequest_validated, sampleUpper_validated, ?_, sampleMixedMatch, ?_, _,
    sampleMixedMatch_settled, _, rfl, Or.inl ?_⟩
  · show parseUuidText sampleRequest.marketId = parseUuidText sampleUpper.marketId
    decide +kernel
  · rw [sampleMeeting_fills]
    exact List.mem_singleton_self _
  · have hword : "market mismatch: match=" = "market mismatch: " ++ "match=" := by decide
    rw [hword]
    simp only [String.toList_append, List.append_assoc]
    exact List.prefix_append _ _

end PrismBackend.Api
