import PrismBackend.Api.FillIdentity

/-!
# API: what a finalization rests on

A handler asks for the finalization of the match that it prepared and recorded,
and only after the mirror node told of its execution or its own submission had a
successful receipt. Matches with one id are one match, as long as the hash does
not collide on the fills that are delivered.
-/

namespace PrismBackend.Api

open PrismBackend.Lib PrismBackend.Clob PrismBackend.PrismV2

/-! ## Paths to a finalization -/

/-- What tells a handler that its match is executed. -/
def Evidence (p : Platform) (q : Prepared) (answers : Answers) : Prop :=
  ⟨.isMatchExecutedV2 q.cfg.net q.cfg.contractID q.matchID, .ok true⟩ ∈ answers ∨
    ∃ calldata txId, q.calldata p = .ok calldata ∧
      ⟨.execute q.cfg.net q.cfg.contractID calldata, .ok txId⟩ ∈ answers ∧
      ⟨.getReceipt txId, .ok receiptSuccess⟩ ∈ answers

theorem Evidence.mono {p : Platform} {q : Prepared} {answers answers' : Answers}
    (h : Evidence p q answers) (hsub : ∀ a ∈ answers, a ∈ answers') : Evidence p q answers' := by
  rcases h with hasked | ⟨calldata, txId, hdata, hexecute, hreceipt⟩
  · exact Or.inl (hsub _ hasked)
  · exact Or.inr ⟨calldata, txId, hdata, hsub _ hexecute, hsub _ hreceipt⟩

section Paths

variable {p : Platform} {q : Prepared} {answers : Answers} {record : MatchV2} {txHash : Str} {rest}

theorem finalizeMatch_finalize {hash : Str}
    (h : (finalizeMatch q hash).Path answers (.call (.finalizeMatchV2 record txHash) rest)) :
    record = q.record := by
  simp only [finalizeMatch, Program.request_bind] at h
  rcases Program.path_call_iff.mp h with ⟨_, heq⟩ | ⟨answer, later, _, hpath⟩
  · cases heq
    rfl
  · cases answer with
    | error err => exact absurd hpath Program.not_path_pure
    | ok applied => exact absurd hpath Program.not_path_pure

theorem not_path_markMatchFailed {matchID : Str} {err : String} {settlement : Settlement} :
    ¬Program.Path (do let _ ← markMatchFailed matchID err; return settlement : SettleM Settlement)
      answers (.call (.finalizeMatchV2 record txHash) rest) := by
  intro h
  rw [Program.request_bind] at h
  rcases Program.path_call_iff.mp h with ⟨_, heq⟩ | ⟨answer, later, _, hpath⟩
  · cases heq
  · exact absurd hpath Program.not_path_pure

theorem afterSubmission_finalize {hash : Str} {err : Option String}
    (h : (afterSubmission q hash err).Path answers (.call (.finalizeMatchV2 record txHash) rest)) :
    record = q.record ∧ (err = none ∨
      ⟨.isMatchExecutedV2 q.cfg.net q.cfg.contractID q.matchID, .ok true⟩ ∈ answers) := by
  cases err with
  | none => exact ⟨finalizeMatch_finalize h, Or.inl rfl⟩
  | some err =>
      rw [afterSubmission, Program.request_bind] at h
      rcases Program.path_call_iff.mp h with ⟨_, heq⟩ | ⟨answer, later, rfl, hpath⟩
      · cases heq
      rcases answer with failure | executed
      · exact absurd hpath not_path_markMatchFailed
      · cases executed with
        | false => exact absurd hpath not_path_markMatchFailed
        | true => exact ⟨finalizeMatch_finalize hpath, Or.inr List.mem_cons_self⟩

theorem submitMatch_finalize {calldata : Bytes} (hdata : q.calldata p = .ok calldata)
    (h : (submitMatch q calldata).Path answers (.call (.finalizeMatchV2 record txHash) rest)) :
    record = q.record ∧ Evidence p q answers := by
  simp only [submitMatch, submitSettlement, Program.request_bind, Program.call_bind] at h
  rcases Program.path_call_iff.mp h with ⟨_, heq⟩ | ⟨sent, later, hanswers, hsent⟩
  · cases heq
  subst hanswers
  clear h
  cases sent with
  | error err =>
      have hfailed : (afterSubmission q [] (some ("submit settle: " ++ err))).Path later
          (.call (.finalizeMatchV2 record txHash) rest) := hsent
      obtain ⟨hrecord, hnone | hasked⟩ := afterSubmission_finalize hfailed
      · exact absurd hnone (by simp)
      · exact ⟨hrecord, Or.inl (List.mem_cons_of_mem _ hasked)⟩
  | ok txId =>
      rcases Program.path_call_iff.mp hsent with ⟨_, heq⟩ | ⟨marked, later', rfl, hmarked⟩
      · cases heq
      rcases Program.path_call_iff.mp hmarked with ⟨_, heq⟩ | ⟨receipt, later'', rfl, hpath⟩
      · cases heq
      clear hsent hmarked
      have hafter (err : Option String) (hpath : (afterSubmission q txId err).Path later''
          (.call (.finalizeMatchV2 record txHash) rest)) (hreceipt : err = none →
          receipt = .ok receiptSuccess) : record = q.record ∧ Evidence p q
            (⟨.execute q.cfg.net q.cfg.contractID calldata, .ok txId⟩ ::
              ⟨.markMatchSubmitted q.record.matchID txId, marked⟩ ::
              ⟨.getReceipt txId, receipt⟩ :: later'') := by
        obtain ⟨hrecord, hnone | hasked⟩ := afterSubmission_finalize hpath
        · refine ⟨hrecord, Or.inr ⟨calldata, txId, hdata, List.mem_cons_self, ?_⟩⟩
          rw [← hreceipt hnone]
          simp
        · refine ⟨hrecord, Or.inl ?_⟩
          simp [hasked]
      cases receipt with
      | error err => exact hafter (some ("settle receipt: " ++ err)) hpath (by simp)
      | ok status =>
          refine hafter (if status = receiptSuccess then none
            else some ("settle status " ++ status)) hpath ?_
          intro hnone
          by_cases hstatus : status = receiptSuccess
          · rw [hstatus]
          · rw [if_neg hstatus] at hnone
            exact absurd hnone (by simp)

theorem gateMatch_finalize {row : Match}
    (h : (gateMatch p q row).Path answers (.call (.finalizeMatchV2 record txHash) rest)) :
    record = q.record ∧ Evidence p q answers := by
  unfold gateMatch at h
  split at h
  · exact absurd h not_path_markMatchFailed
  · exact absurd h Program.not_path_pure
  · rw [Program.request_bind] at h
    rcases Program.path_call_iff.mp h with ⟨_, heq⟩ | ⟨now, later, rfl, hpath⟩
    · cases heq
    · split at hpath
      · exact absurd hpath not_path_markMatchFailed
      · exact absurd hpath Program.not_path_pure
      · split at hpath
        · exact absurd hpath Program.not_path_pure
        · next calldata hdata =>
          obtain ⟨hrecord, hevidence⟩ := submitMatch_finalize hdata hpath
          exact ⟨hrecord, hevidence.mono fun a ha => List.mem_cons_of_mem _ ha⟩

theorem settlePrepared_finalize
    (h : (settlePrepared p q).Path answers (.call (.finalizeMatchV2 record txHash) rest)) :
    record = q.record ∧ Evidence p q answers := by
  rw [settlePrepared, Program.request_bind] at h
  rcases Program.path_call_iff.mp h with ⟨_, heq⟩ | ⟨recorded, later, hanswers, hrecorded⟩
  · cases heq
  subst hanswers
  clear h
  cases recorded with
  | error err => exact absurd hrecorded Program.not_path_pure
  | ok row =>
      dsimp only at hrecorded
      split at hrecorded
      · exact absurd hrecorded Program.not_path_pure
      rw [Program.request_bind] at hrecorded
      rcases Program.path_call_iff.mp hrecorded with ⟨_, heq⟩ | ⟨executed, later', rfl, hpath⟩
      · cases heq
      clear hrecorded
      rcases executed with err | executed
      · exact absurd hpath Program.not_path_pure
      cases executed with
      | true =>
          refine ⟨finalizeMatch_finalize hpath, Or.inl ?_⟩
          simp
      | false =>
          obtain ⟨hrecord, hevidence⟩ := gateMatch_finalize hpath
          refine ⟨hrecord, hevidence.mono ?_⟩
          intro a ha
          exact List.mem_cons_of_mem _ (List.mem_cons_of_mem _ ha)

/-- Whatever follows the recording of a match, its recording was confirmed. -/
theorem settlePrepared_recorded {r : SettlementRequest} {rest}
    (h : (settlePrepared p q).Path answers (.call r rest)) (hr : ¬r.isCreate) :
    ∃ row, ⟨.createMatchV2 q.record, .ok row⟩ ∈ answers := by
  rw [settlePrepared, Program.request_bind] at h
  rcases Program.path_call_iff.mp h with ⟨_, heq⟩ | ⟨recorded, later, rfl, hrecorded⟩
  · cases heq
    exact absurd trivial hr
  cases recorded with
  | error err => exact absurd hrecorded Program.not_path_pure
  | ok row => exact ⟨row, List.mem_cons_self⟩

end Paths

/-! ## One id, one match -/

/-- The numbers of a message are words of 64 bits. -/
def InWords (m : ClobMatch) : Prop :=
  m.fillShares < 2 ^ 64 ∧ ∀ o, m.bid = some o ∨ m.ask = some o → o.sharesFilled < 2 ^ 64

/-- A match that a message and the two rows that it names were prepared to. -/
structure PreparedOf (p : Platform) (m : ClobMatch) (bid ask : CreateOrderRequestClob)
    (q : Prepared) : Prop where
  bid_eq : m.bid = some bid
  ask_eq : m.ask = some ask
  bidId : p.uuid.parse bid.txId = .ok q.bidRow.txID
  askId : p.uuid.parse ask.txId = .ok q.askRow.txID
  rows : checkRows p m q.bidRow q.askRow = .ok ()
  network : p.getPrismV2Network q.bidRow.net = .ok q.cfg
  prepared : ∃ market, prepare p m bid ask q.bidRow q.askRow q.cfg market = .ok q

/-- What the ids of the matches of some messages are the hashes of. -/
def fillPreimages (p : Platform) (messages : Set ClobMatch) : Set Bytes :=
  {bytes | ∃ m ∈ messages, ∃ bid ask q, PreparedOf p m bid ask q ∧ bytes = q.preimage p bid ask}

theorem prepare_unitScale {p : Platform} {m : ClobMatch} {bid ask : CreateOrderRequestClob}
    {bidRow askRow : PredictionIntent} {cfg : PrismV2Network} {market : MarketRow} {q : Prepared}
    (h : prepare p m bid ask bidRow askRow cfg market = .ok q) :
    p.collateralUnitScale = .ok q.record.unitScale := by
  simp only [prepare, bind_ok_iff, mapError_ok_iff, Except.ok.injEq] at h
  obtain ⟨_, _, _, _, _, _, _, _, _, _, _, _, _, _, _, _, _, _, unitScale, hunit, rfl⟩ := h
  exact hunit

/-- Every value that a match id hashes can be read back from its preimage. -/
theorem matchIDWords_values {keccak256 : Bytes → Bytes} {contract contract' : Bytes}
    {marketID bidTxID askTxID marketID' bidTxID' askTxID' : Uint128}
    {bidBefore askBefore fill price bidBefore' askBefore' fill' price' : Nat}
    (hcontract : (leftPad contract 32).length = (leftPad contract' 32).length)
    (hwords : ∀ value ∈ [bidBefore, askBefore, fill, price], value < 2 ^ 256)
    (hwords' : ∀ value ∈ [bidBefore', askBefore', fill', price'], value < 2 ^ 256)
    (h : matchIDWords keccak256 contract marketID bidTxID askTxID bidBefore askBefore fill price =
      matchIDWords keccak256 contract' marketID' bidTxID' askTxID' bidBefore' askBefore' fill'
        price') :
    [marketID.val, bidTxID.val, askTxID.val, bidBefore, askBefore, fill, price] =
      [marketID'.val, bidTxID'.val, askTxID'.val, bidBefore', askBefore', fill', price'] := by
  have hid (id : Uint128) : id.val < 2 ^ 256 := id.isLt.trans (by norm_num)
  have hbounds {market bidTx askTx : Uint128} {rest : List Nat}
      (hrest : ∀ value ∈ rest, value < 2 ^ 256) :
      ∀ value ∈ market.val :: bidTx.val :: askTx.val :: rest, value < 2 ^ 256 := by
    simp only [List.forall_mem_cons]
    exact ⟨hid _, hid _, hid _, hrest⟩
  have hpre {contract : Bytes} {market bidTx askTx : Uint128} {b a f pr : Nat}
      (hrest : ∀ value ∈ [b, a, f, pr], value < 2 ^ 256) :=
    matchIDWords_eq keccak256 contract market bidTx askTx (hrest b (by simp)) (hrest a (by simp))
      (hrest f (by simp)) (hrest pr (by simp))
  rw [hpre hwords, hpre hwords'] at h
  have htail := (List.append_inj (List.append_cancel_left h) hcontract).2
  exact Abi.words_injective (hbounds hwords) (hbounds hwords') rfl htail

theorem beNat_injective {bytes bytes' : Bytes} (hlength : bytes.length = bytes'.length)
    (h : Abi.beNat bytes = Abi.beNat bytes') : bytes = bytes' := by
  rw [← Abi.beBytes_beNat bytes, ← Abi.beBytes_beNat bytes', hlength, h]

attribute [ext] MatchV2

section Identity

variable {p : Platform} {m m' : ClobMatch} {bid ask bid' ask' : CreateOrderRequestClob}
  {q q' : Prepared}

theorem PreparedOf.preparedFor (h : PreparedOf p m bid ask q) :
    PreparedFor p m q.bidRow q.askRow q.cfg q := by
  obtain ⟨market, hprepare⟩ := h.prepared
  exact prepare_ok h.bid_eq h.ask_eq hprepare

/-- The match id is the hash of the preimage, whose values are words. -/
theorem PreparedOf.hashed (h : PreparedOf p m bid ask q) (hwords : InWords m) :
    q.matchID = Abi.beNat (p.keccak256 (q.preimage p bid ask)) ∧
      (leftPad (addressField q.cfg.proxyAddress) 32).length = 32 ∧
      ∀ value ∈ [bid.sharesFilled, ask.sharesFilled, q.record.fillShares,
        q.record.executionYesPrice], value < 2 ^ 256 := by
  have hq := h.preparedFor
  obtain ⟨bid', ask', hbid', hask', hid⟩ := hq.matchID
  rw [h.bid_eq, Option.some.injEq] at hbid'
  rw [h.ask_eq, Option.some.injEq] at hask'
  subst hbid' hask'
  simp only [matchIDV2, bind_ok_iff, revertIf_ok_iff, exists_const, Except.ok.injEq] at hid
  obtain ⟨hproxy, hid⟩ := hid
  obtain ⟨account, haccount⟩ := Option.ne_none_iff_exists'.mp hproxy
  have hprice := (splitCollateralV2_ok hwords.1 hq.split).2.2.1
  have hword : (2 : Nat) ^ 64 < 2 ^ 256 := by norm_num
  have hscale : PrismV2.priceScale < 2 ^ 256 := by decide
  have hbidFilled := hwords.2 bid (Or.inl h.bid_eq)
  have haskFilled := hwords.2 ask (Or.inr h.ask_eq)
  have hfill := hwords.1
  refine ⟨?_, ?_, ?_⟩
  · rw [Prepared.preimage, hq.fillShares, hq.executionYesPrice]
    exact hid.symm
  · rw [addressField_word haccount, Abi.length_word]
  · rw [hq.fillShares, hq.executionYesPrice]
    simp only [List.forall_mem_cons]
    refine ⟨?_, ?_, ?_, ?_, fun _ hnil => absurd hnil List.not_mem_nil⟩
    · omega
    · omega
    · omega
    · omega

/-- Two matches with one id are of the same orders, the same fill and the same price. -/
theorem prepared_inj {messages : Set ClobMatch} (hkeccak : ∀ text, (p.keccak256 text).length = 32)
    (hcollision : Set.InjOn p.keccak256 (fillPreimages p messages))
    (h : PreparedOf p m bid ask q) (h' : PreparedOf p m' bid' ask' q') (hm : m ∈ messages)
    (hm' : m' ∈ messages) (hwords : InWords m) (hwords' : InWords m')
    (hid : q.matchID = q'.matchID) :
    q.bidRow.txID = q'.bidRow.txID ∧ q.askRow.txID = q'.askRow.txID ∧
      q.record.fillShares = q'.record.fillShares ∧
      q.record.executionYesPrice = q'.record.executionYesPrice := by
  obtain ⟨hhash, hlength, hbounds⟩ := h.hashed hwords
  obtain ⟨hhash', hlength', hbounds'⟩ := h'.hashed hwords'
  rw [hhash, hhash'] at hid
  have hsame := hcollision ⟨m, hm, bid, ask, q, h, rfl⟩ ⟨m', hm', bid', ask', q', h', rfl⟩
    (beNat_injective ((hkeccak _).trans (hkeccak _).symm) hid)
  have hvalues := matchIDWords_values (hlength.trans hlength'.symm) hbounds hbounds' hsame
  simp only [List.cons.injEq, and_true] at hvalues
  obtain ⟨_, hbid, hask, _, _, hfill, hprice⟩ := hvalues
  have hbidTx := authorizationFromIntent_txId h.preparedFor.bidAuth
  have haskTx := authorizationFromIntent_txId h.preparedFor.askAuth
  have hbidTx' := authorizationFromIntent_txId h'.preparedFor.bidAuth
  have haskTx' := authorizationFromIntent_txId h'.preparedFor.askAuth
  refine ⟨?_, ?_, hfill, hprice⟩
  · rw [← hbidTx, ← hbidTx']
    exact Fin.ext hbid
  · rw [← haskTx, ← haskTx']
    exact Fin.ext hask

/-- What is prepared from rows with the same terms for the same fill is the same match. -/
theorem prepared_same (h : PreparedOf p m bid ask q) (h' : PreparedOf p m' bid' ask' q')
    (hid : q.matchID = q'.matchID) (hbid : q.bidRow.toOrderTerms = q'.bidRow.toOrderTerms)
    (hask : q.askRow.toOrderTerms = q'.askRow.toOrderTerms)
    (hfill : q.record.fillShares = q'.record.fillShares)
    (hprice : q.record.executionYesPrice = q'.record.executionYesPrice) :
    q.cfg = q'.cfg ∧ q.bidAuth = q'.bidAuth ∧ q.askAuth = q'.askAuth ∧ q.record = q'.record := by
  have hq := h.preparedFor
  have hq' := h'.preparedFor
  have hcfg := h.network
  have hbidAuth := hq.bidAuth
  have haskAuth := hq.askAuth
  have hsplit := hq.split
  obtain ⟨market, hprepare⟩ := h.prepared
  obtain ⟨market', hprepare'⟩ := h'.prepared
  have hunit := prepare_unitScale hprepare
  rw [hbid, h'.network, Except.ok.injEq] at hcfg
  rw [hbid, hq'.bidAuth, Except.ok.injEq] at hbidAuth
  rw [hask, hq'.askAuth, Except.ok.injEq] at haskAuth
  rw [← hq.fillShares, ← hq.executionYesPrice, hfill, hprice, hq'.fillShares,
    hq'.executionYesPrice, hq'.split, Except.ok.injEq, Prod.mk.injEq] at hsplit
  rw [prepare_unitScale hprepare', Except.ok.injEq] at hunit
  refine ⟨hcfg.symm, hbidAuth.symm, haskAuth.symm, ?_⟩
  apply MatchV2.ext
  · rw [hq.marketID, hq'.marketID, hbidAuth]
  · rw [hq.bidTxID, hq'.bidTxID, hbidAuth]
  · rw [hq.askTxID, hq'.askTxID, haskAuth]
  · rw [hq.recordID, hq'.recordID, hid]
  · exact hfill
  · exact hprice
  · exact hsplit.1.symm
  · exact hsplit.2.symm
  · rw [hq.bidCollateral, hq'.bidCollateral, hbidAuth, hsplit.1, hsplit.2]
  · rw [hq.askCollateral, hq'.askCollateral, haskAuth, hsplit.1, hsplit.2]
  · exact hunit.symm

end Identity

end PrismBackend.Api
