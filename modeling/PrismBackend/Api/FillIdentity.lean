import PrismBackend.Clob.Service
import PrismBackend.Api.Cancellation
import PrismBackend.Api.Submission

/-!
# API: the identity of a fill

The keys and message ids under which a process of the CLOB publishes its fills,
and the match ids under which the API settles them. Different fills never share
one, and a fill that is delivered again is settled under the same ones.
-/

namespace PrismBackend.Api

open PrismBackend.Lib PrismBackend.Clob PrismBackend.PrismV2

/-! ## Match ids -/

structure PreparedFrom (p : Platform) (db : Db) (m : ClobMatch) (bid ask : CreateOrderRequestClob)
    (q : Prepared) : Prop where
  bid_eq : m.bid = some bid
  ask_eq : m.ask = some ask
  prepared : ∃ bidRow askRow cfg market,
    db.getPredictionIntentByTxId p.uuid bid.txId = .ok bidRow ∧
    db.getPredictionIntentByTxId p.uuid ask.txId = .ok askRow ∧
    p.getPrismV2Network bidRow.net = .ok cfg ∧
    prepare p m bid ask bidRow askRow cfg market = .ok q

/-- What the match id of a prepared fill is the hash of. -/
def Prepared.preimage (p : Platform) (bid ask : CreateOrderRequestClob) (q : Prepared) : Bytes :=
  matchIDWords p.keccak256 (addressField q.cfg.proxyAddress) q.bidAuth.marketId q.bidAuth.txId
    q.askAuth.txId bid.sharesFilled ask.sharesFilled q.record.fillShares q.record.executionYesPrice

theorem matchIDWords_eq (keccak256 : Bytes → Bytes) (contract : Bytes)
    (marketID bidTxID askTxID : Uint128) {bidBefore askBefore fill price : Nat}
    (hbid : bidBefore < 2 ^ 256) (hask : askBefore < 2 ^ 256) (hfill : fill < 2 ^ 256)
    (hprice : price < 2 ^ 256) :
    matchIDWords keccak256 contract marketID bidTxID askTxID bidBefore askBefore fill price =
      matchIDTag keccak256 ++ (leftPad contract 32 ++ Abi.words [marketID.val, bidTxID.val,
        askTxID.val, bidBefore, askBefore, fill, price]) := by
  simp only [matchIDWords, uuid_word, uintWord_eq hbid, uintWord_eq hask, uintWord_eq hfill,
    uintWord_eq hprice, Abi.words, List.flatMap_cons, List.flatMap_nil, List.append_assoc,
    List.append_nil]

/-- Every word of a match id's preimage can be read back from it. -/
theorem matchIDWords_injective {keccak256 : Bytes → Bytes} {contract contract' : Bytes}
    {marketID bidTxID askTxID marketID' bidTxID' askTxID' : Uint128}
    {bidBefore askBefore fill price bidBefore' askBefore' fill' price' : Nat}
    (hcontract : (leftPad contract 32).length = (leftPad contract' 32).length)
    (hwords : ∀ value ∈ [bidBefore, askBefore, fill, price], value < 2 ^ 256)
    (hwords' : ∀ value ∈ [bidBefore', askBefore', fill', price'], value < 2 ^ 256)
    (h : matchIDWords keccak256 contract marketID bidTxID askTxID bidBefore askBefore fill price =
      matchIDWords keccak256 contract' marketID' bidTxID' askTxID' bidBefore' askBefore' fill'
        price') :
    bidTxID = bidTxID' ∧ askTxID = askTxID' ∧ bidBefore = bidBefore' ∧ askBefore = askBefore' := by
  simp only [List.forall_mem_cons] at hwords hwords'
  obtain ⟨hbid, hask, hfill, hprice, _⟩ := hwords
  obtain ⟨hbid', hask', hfill', hprice', _⟩ := hwords'
  rw [matchIDWords_eq _ _ _ _ _ hbid hask hfill hprice,
    matchIDWords_eq _ _ _ _ _ hbid' hask' hfill' hprice'] at h
  have htail := (List.append_inj (List.append_cancel_left h) hcontract).2
  have hid (id : Uint128) : id.val < 2 ^ 256 := id.isLt.trans (by norm_num)
  have hnone : ∀ value ∈ ([] : List Nat), value < 2 ^ 256 := fun _ h => absurd h List.not_mem_nil
  have hbounds : ∀ value ∈ [marketID.val, bidTxID.val, askTxID.val, bidBefore, askBefore, fill,
      price], value < 2 ^ 256 := by
    simp only [List.forall_mem_cons]
    exact ⟨hid _, hid _, hid _, hbid, hask, hfill, hprice, hnone⟩
  have hbounds' : ∀ value ∈ [marketID'.val, bidTxID'.val, askTxID'.val, bidBefore', askBefore',
      fill', price'], value < 2 ^ 256 := by
    simp only [List.forall_mem_cons]
    exact ⟨hid _, hid _, hid _, hbid', hask', hfill', hprice', hnone⟩
  have hvalues := Abi.words_injective hbounds hbounds' rfl htail
  rw [List.cons.injEq, List.cons.injEq, List.cons.injEq, List.cons.injEq,
    List.cons.injEq] at hvalues
  obtain ⟨_, hbidTx, haskTx, hbidEq, haskEq, _⟩ := hvalues
  exact ⟨Fin.ext hbidTx, Fin.ext haskTx, hbidEq, haskEq⟩

theorem authorizationFromIntent_txId {uuid : Uuid} {terms : OrderTerms} {a : AuthorizationV2}
    (h : authorizationFromIntent uuid terms = .ok a) : a.txId = terms.txID := by
  unfold authorizationFromIntent at h
  split at h
  · simp only [bind_ok_iff, mapError_ok_iff] at h
    obtain ⟨qty, _, cap, _, h⟩ := h
    have htx := (newAuthorizationV2_assembled h).tx
    rw [uuid.parse_string, Except.ok.injEq] at htx
    exact htx.symm
  · exact absurd h (by simp)

/-- What the match id of a prepared fill hashes: the ids of its two orders and what they had
filled before. -/
theorem PreparedFrom.spec {p : Platform} {db : Db} {m : ClobMatch}
    {bid ask : CreateOrderRequestClob} {q : Prepared} (h : PreparedFrom p db m bid ask q) :
    p.uuid.parse bid.txId = .ok q.bidAuth.txId ∧ p.uuid.parse ask.txId = .ok q.askAuth.txId ∧
      q.record.fillShares = m.fillShares ∧ q.record.executionYesPrice = m.executionYesPrice ∧
      (leftPad (addressField q.cfg.proxyAddress) 32).length = 32 ∧
      q.matchID = Abi.beNat (p.keccak256 (q.preimage p bid ask)) := by
  obtain ⟨bidRow, askRow, cfg, market, hbidRow, haskRow, _, hprepare⟩ := h.prepared
  have hq := prepare_ok h.bid_eq h.ask_eq hprepare
  obtain ⟨bid', ask', hbid', hask', hid⟩ := hq.matchID
  rw [h.bid_eq, Option.some.injEq] at hbid'
  rw [h.ask_eq, Option.some.injEq] at hask'
  subst hbid' hask'
  simp only [matchIDV2, bind_ok_iff, revertIf_ok_iff, exists_const, Except.ok.injEq] at hid
  obtain ⟨hproxy, hid⟩ := hid
  obtain ⟨account, haccount⟩ := Option.ne_none_iff_exists'.mp hproxy
  refine ⟨?_, ?_, hq.fillShares, hq.executionYesPrice, ?_, ?_⟩
  · rw [authorizationFromIntent_txId hq.bidAuth]
    exact (Db.getPredictionIntentByTxId_ok hbidRow).1
  · rw [authorizationFromIntent_txId hq.askAuth]
    exact (Db.getPredictionIntentByTxId_ok haskRow).1
  · rw [hq.network, addressField_word haccount, Abi.length_word]
  · rw [Prepared.preimage, hq.fillShares, hq.executionYesPrice, hq.network]
    exact hid.symm

/-! ## Redelivery -/

/-- The rows of one order lead to one match, whatever else has changed in them. -/
theorem prepare_congr {p : Platform} {m : ClobMatch} {bid ask : CreateOrderRequestClob}
    {bidRow askRow bidRow' askRow' : PredictionIntent} {cfg : PrismV2Network}
    {market market' : MarketRow} {q q' : Prepared}
    (hbid : bidRow'.toOrderTerms = bidRow.toOrderTerms)
    (hask : askRow'.toOrderTerms = askRow.toOrderTerms)
    (h : prepare p m bid ask bidRow askRow cfg market = .ok q)
    (h' : prepare p m bid ask bidRow' askRow' cfg market' = .ok q') : q'.record = q.record := by
  simp only [prepare, checkDomain, hbid, hask, bind_ok_iff, mapError_ok_iff,
    revertIf_ok_iff, exists_const,
    Except.ok.injEq] at h h'
  obtain ⟨_, bidAuth, hbidAuth, askAuth, haskAuth, _, _, _, ⟨yes, no⟩, hsplit, _, matchID,
    hmatchID, unitScale, hunit, rfl⟩ := h
  obtain ⟨_, bidAuth', hbidAuth', askAuth', haskAuth', _, _, _, ⟨yes', no'⟩, hsplit', _, matchID',
    hmatchID', unitScale', hunit', rfl⟩ := h'
  rw [hbidAuth, Except.ok.injEq] at hbidAuth'
  rw [haskAuth, Except.ok.injEq] at haskAuth'
  rw [hsplit, Except.ok.injEq, Prod.mk.injEq] at hsplit'
  subst hbidAuth' haskAuth'
  rw [hmatchID, Except.ok.injEq] at hmatchID'
  rw [hunit, Except.ok.injEq] at hunit'
  rw [hsplit'.1, hsplit'.2, hmatchID', hunit']

/-- Each answer to a lookup of an order is a row with the terms that the order has. -/
def World.ReadTerms (p : Platform) (w : World) : Prop :=
  ∀ h ∈ w.handlers, ∀ txId row, ⟨.getPredictionIntentByTxId txId, .ok row⟩ ∈ h.answers →
    p.uuid.parse txId = .ok row.txID ∧ ∃ row', w.db.intents.find row.txID = some row' ∧
      row'.toOrderTerms = row.toOrderTerms

section Redelivery

variable {p : Platform} {nets : Str → Network}

theorem World.ReadTerms.next {w : World} (hw : w.ReadTerms p) {l : Label}
    (hallowed : w.Allowed p nets l) : (w.next p nets l).ReadTerms p := by
  intro h' hmem txId row hread
  rcases World.answered_next hmem hallowed hread with ⟨h, hh, hbefore, _⟩ |
    ⟨i, answer, commit, hl, hhonest⟩
  · obtain ⟨hparse, row', hrow', hterms⟩ := hw h hh txId row hbefore
    obtain ⟨row'', hrow'', hstep⟩ := w.find_next p nets l hrow'
    exact ⟨hparse, row'', hrow'', hstep.terms.trans hterms⟩
  · obtain ⟨hparse, hfound⟩ := Db.getPredictionIntentByTxId_ok hhonest
    obtain ⟨row'', hrow'', hstep⟩ := w.find_next p nets l hfound
    exact ⟨hparse, row'', hrow'', hstep.terms⟩

/-- The match that a handler records is prepared from rows that it has read. -/
theorem recorded_prepared {m : ClobMatch} {answers : Answers} {target : SettleM Settlement}
    (hpath : (settleMatchV2 p m).Path answers target) {record : MatchV2} {a : Except String Match}
    (hrecord : ⟨.createMatchV2 record, a⟩ ∈ answers) :
    ∃ bid ask bidRow askRow cfg market q, m.bid = some bid ∧ m.ask = some ask ∧
      ⟨.getPredictionIntentByTxId bid.txId, .ok bidRow⟩ ∈ answers ∧
      ⟨.getPredictionIntentByTxId ask.txId, .ok askRow⟩ ∈ answers ∧
      p.getPrismV2Network bidRow.net = .ok cfg ∧
      prepare p m bid ask bidRow askRow cfg market = .ok q ∧ record = q.record := by
  obtain ⟨earlier, later, rest, rfl, hcreate⟩ := hpath.of_mem hrecord
  obtain ⟨bid, ask, bidRow, askRow, cfg, market, q, after, hbid, hask, _, hcfg, hq, rfl,
    hprepared⟩ := settleMatchV2_path id hcreate
  refine ⟨bid, ask, bidRow, askRow, cfg, market, q, hbid, hask, ?_, ?_, hcfg, hq,
    settlePrepared_create hprepared⟩
  · simp
  · simp

/-- Two deliveries of one message, at any two moments of a run, record one match. -/
theorem redelivery_same {condition : World → Label → Prop} {w : World}
    (hhandlers : w.handlers = []) {before after : List Label}
    (hruns : w.Runs p nets condition (before ++ after)) {h h' : Handler}
    (hh : h ∈ (w.run p nets before).handlers) (hh' : h' ∈ (w.run p nets (before ++ after)).handlers)
    (hmsg : h'.msg = h.msg) {record record' : MatchV2} {a a' : Except String Match}
    (hrecord : ⟨.createMatchV2 record, a⟩ ∈ h.answers)
    (hrecord' : ⟨.createMatchV2 record', a'⟩ ∈ h'.answers) : record' = record := by
  have hstart : w.OnPath p ∧ w.ReadTerms p := by
    refine ⟨?_, ?_⟩
    · intro handler hhandler
      rw [hhandlers] at hhandler
      exact absurd hhandler List.not_mem_nil
    · intro handler hhandler
      rw [hhandlers] at hhandler
      exact absurd hhandler List.not_mem_nil
  have hreach {ls : List Label} (hls : w.Runs p nets condition ls) :
      (w.run p nets ls).OnPath p ∧ (w.run p nets ls).ReadTerms p :=
    System.Runs.preserves hls (P := fun w => w.OnPath p ∧ w.ReadTerms p)
      (fun _ _ hw hallowed _ => ⟨hw.1.next hallowed, hw.2.next hallowed⟩) hstart
  obtain ⟨hpaths, hterms⟩ := hreach (World.runs_append.mp hruns).1
  obtain ⟨hpaths', hterms'⟩ := hreach hruns
  obtain ⟨bid, ask, bidRow, askRow, cfg, market, q, hbid, hask, hbidRead, haskRead,
    hcfg, hq, rfl⟩ :=
    recorded_prepared (hpaths h hh).1 hrecord
  obtain ⟨bid', ask', bidRow', askRow', cfg', market', q', hbid', hask', hbidRead', haskRead',
    hcfg', hq', rfl⟩ := recorded_prepared (hpaths' h' hh').1 hrecord'
  rw [hmsg, hbid, Option.some.injEq] at hbid'
  rw [hmsg, hask, Option.some.injEq] at hask'
  subst hbid' hask'
  have hsame {txId : Str} {row row' : PredictionIntent}
      (hread : ⟨.getPredictionIntentByTxId txId, .ok row⟩ ∈ h.answers)
      (hread' : ⟨.getPredictionIntentByTxId txId, .ok row'⟩ ∈ h'.answers) :
      row'.toOrderTerms = row.toOrderTerms := by
    obtain ⟨hparse, stored, hstored, hstoredTerms⟩ := hterms h hh txId row hread
    obtain ⟨hparse', stored', hstored', hstoredTerms'⟩ := hterms' h' hh' txId row' hread'
    obtain ⟨later, hlater, hlaterTerms⟩ := World.find_run _ after hstored
    rw [hparse, Except.ok.injEq] at hparse'
    rw [← hparse', World.run_append, hlater, Option.some.injEq] at hstored'
    subst hstored'
    exact hstoredTerms'.symm.trans (hlaterTerms.trans hstoredTerms)
  have hbidTerms := hsame hbidRead hbidRead'
  have haskTerms := hsame haskRead haskRead'
  rw [hbidTerms, hcfg, Except.ok.injEq] at hcfg'
  subst hcfg'
  rw [hmsg] at hq'
  exact prepare_congr hbidTerms haskTerms hq hq'

end Redelivery

/-! ## Fill identity -/

theorem colon_not_mem_uuid {s : Str} (h : isUuidV7 s = true) : ':' ∉ s := by
  intro hmem
  have hdigits : ':' ∈ uuidDigits s := List.mem_filter.mpr ⟨hmem, by decide⟩
  have hhex := (uuidDigits_spec h).2 ':' hdigits
  exact absurd hhex (by decide)

/-- The numbers of a fill of orders in words are words. -/
theorem fillOf_bounds {orders : List CreateOrderRequestClob}
    (hwords : ∀ o ∈ orders, o.qtyShares < 2 ^ 64) {m : ClobMatch} (h : FillOf orders m) :
    ∃ b ∈ orders, ∃ bid ask, m.bid = some bid ∧ m.ask = some ask ∧ bid.txId = b.txId ∧
      ∀ value ∈ [bid.sharesFilled, ask.sharesFilled, m.fillShares, m.executionYesPrice],
        value < 2 ^ 256 := by
  obtain ⟨b, hb, a, ha, before, hfair⟩ := h.fair
  refine ⟨b, hb, _, _, hfair.bid_eq, hfair.ask_eq, afterFills_txId b before, ?_⟩
  have hpos := hfair.fill_pos
  have hbidRoom := hfair.fill_le_bid
  have haskRoom := hfair.fill_le_ask
  have hbidQty : (afterFills b before).qtyShares = b.qtyShares := by rw [afterFills_eq]
  have haskQty : (afterFills a before).qtyShares = a.qtyShares := by rw [afterFills_eq]
  have hbidWord := hwords b hb
  have haskWord := hwords a ha
  have hword : (2 : Nat) ^ 64 < 2 ^ 256 := by norm_num
  have hprice : m.executionYesPrice < 2 ^ 256 := hfair.price_lt.trans (by decide)
  unfold remainingShares at hbidRoom haskRoom
  simp only [List.forall_mem_cons]
  refine ⟨?_, ?_, ?_, hprice, fun _ hnil => absurd hnil List.not_mem_nil⟩
  · omega
  · omega
  · omega

/-- Any two fills that one process of the CLOB emits have different keys, are published under
different message ids and have different preimages of their match ids, whatever rows the API
prepares them from; and two deliveries of one message have one key and record one match. -/
theorem fill_identity {p : Platform} {requests : List ClobRequest} (hnew : CreatesNew requests)
    (htexts : ∀ o ∈ offeredOrders requests, isUuidV7 o.marketId = true ∧ isUuidV7 o.txId = true)
    (hids : ∀ o ∈ offeredOrders requests, ∀ o' ∈ offeredOrders requests,
      p.uuid.parse o.txId = p.uuid.parse o'.txId → o.txId = o'.txId)
    (hwords : ∀ o ∈ offeredOrders requests, o.qtyShares < 2 ^ 64) :
    ((runProcess requests).fills.map fillKey).Nodup ∧
    ((runProcess requests).fills.map messageId).Nodup ∧
    (∀ m ∈ (runProcess requests).fills, ∀ m' ∈ (runProcess requests).fills, m ≠ m' →
      ∀ db db' bid ask bid' ask' q q', PreparedFrom p db m bid ask q →
        PreparedFrom p db' m' bid' ask' q' → q.preimage p bid ask ≠ q'.preimage p bid' ask') ∧
    ∀ (nets : Str → Network) (w : World) before after, w.handlers = [] →
      w.Runs p nets (fun _ _ => True) (before ++ after) →
      ∀ h ∈ (w.run p nets before).handlers, ∀ h' ∈ (w.run p nets (before ++ after)).handlers,
        h'.msg = h.msg → fillKey h'.msg = fillKey h.msg ∧
        ∀ record record' a a', ⟨.createMatchV2 record, a⟩ ∈ h.answers →
          ⟨.createMatchV2 record', a'⟩ ∈ h'.answers → record' = record := by
  obtain ⟨lives, htraced⟩ := runProcess_traced requests hnew
  obtain ⟨hkeys, hmessages⟩ := htraced.messageIds_nodup fun o ho =>
    ⟨colon_not_mem_uuid (htexts o ho).1, colon_not_mem_uuid (htexts o ho).2⟩
  refine ⟨hkeys, hmessages, ?_, ?_⟩
  · intro m hm m' hm' hne db db' bid ask bid' ask' q q' hq hq' heq
    apply hne
    apply List.inj_on_of_nodup_map htraced.bidKeys_nodup hm hm'
    obtain ⟨b, hb, bid₀, ask₀, hbid, hask, hbidTx, hvalues⟩ :=
      fillOf_bounds hwords (htraced.fillOf m hm)
    obtain ⟨b', hb', bid₀', ask₀', hbid', hask', hbidTx', hvalues'⟩ :=
      fillOf_bounds hwords (htraced.fillOf m' hm')
    obtain rfl := Option.some.inj (hbid.symm.trans hq.bid_eq)
    obtain rfl := Option.some.inj (hask.symm.trans hq.ask_eq)
    obtain rfl := Option.some.inj (hbid'.symm.trans hq'.bid_eq)
    obtain rfl := Option.some.inj (hask'.symm.trans hq'.ask_eq)
    obtain ⟨hparse, _, hfill, hprice, hlength, _⟩ := hq.spec
    obtain ⟨hparse', _, hfill', hprice', hlength', _⟩ := hq'.spec
    rw [← hfill, ← hprice] at hvalues
    rw [← hfill', ← hprice'] at hvalues'
    obtain ⟨hbidSame, _, hbefore, _⟩ :=
      matchIDWords_injective (hlength.trans hlength'.symm) hvalues hvalues' heq
    have hsame : b.txId = b'.txId := by
      apply hids b hb b' hb'
      rw [← hbidTx, ← hbidTx', hparse, hparse', hbidSame]
    rw [bidKey, bidKey, hbid, hbid', Option.map_some, Option.map_some, hbidTx, hbidTx', hsame,
      hbefore]
  · intro nets w before after hhandlers hruns h hh h' hh' hmsg
    refine ⟨congrArg fillKey hmsg, ?_⟩
    intro record record' a a' hrecord hrecord'
    exact redelivery_same hhandlers hruns hh hh' hmsg hrecord hrecord'

/-! ## Sample fills -/

/-- A buyer of YES meets two buyers of NO, and the message of the first is delivered again. -/
def sampleRequests : List ClobRequest :=
  [.createMarket "00000000-0000-7000-8000-000000000007".toList,
    .deliverOrder (sampleBuy '5' 0 600000) 10,
    .deliverOrder { sampleBuy '6' 1 500000 with qtyShares := 40 } 10,
    .deliverOrder (sampleBuy '5' 0 600000) 20,
    .deliverOrder (sampleBuy '8' 1 500000) 20]

theorem fill_identity_sample : (runProcess sampleRequests).fills.length = 2 ∧
    ((runProcess sampleRequests).fills.map messageId).Nodup := by
  refine ⟨by decide +kernel, (fill_identity (p := samplePlatform) ?_ ?_ ?_ ?_).2.1⟩
  · intro before order now after hsplit
    have hmem : ClobRequest.createOrder order now ∈ sampleRequests := by
      rw [hsplit]
      exact List.mem_append_right _ List.mem_cons_self
    simp [sampleRequests] at hmem
  · decide +kernel
  · decide +kernel
  · decide +kernel

end PrismBackend.Api
