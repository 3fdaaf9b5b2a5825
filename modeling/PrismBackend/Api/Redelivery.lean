import PrismBackend.Api.ExactlyOnce

/-!
# API: what a redelivery can change

A message may be handled any number of times, by handlers that are lost or
misinformed at any of their requests. It is prepared to one match whenever it is
handled, the contract settles that match once, and a finalized match is in the
columns of its two orders and in no others.
-/

namespace PrismBackend.Api

open PrismBackend.Lib PrismBackend.Clob PrismBackend.PrismV2

section Counts

variable (p : Platform) (nets : Str → Network)

structure World.CountsOnce (messages : Set ClobMatch) (w : World) : Prop where
  sums : w.db.Booked
  /- the sums are no more than what the contract has filled, and within the bounds of the order -/
  bounded : ∀ row ∈ w.db.intents.rows,
    row.sharesFilled ≤ row.qtyShares.getD 0 ∧
    (row.action.getD 0 = actionBuy → row.collateralFilled ≤ row.collateralCap.getD 0) ∧
    ∀ cfg a x, p.getPrismV2Network row.net = .ok cfg →
      authorizationFromIntent p.uuid row.toOrderTerms = .ok a → a.decoded = some x →
      row.sharesFilled ≤ (w.fillState nets cfg.net x).shares ∧
        row.collateralFilled ≤ (w.fillState nets cfg.net x).collateral
  /- a finalized match was executed, and counts for its two orders only -/
  counted : ∀ M ∈ w.db.matches_.rows, M.status = .finalized →
    (∃ net matchID, M.matchID = matchIDText matchID ∧
      (w.contract nets net).executedMatches matchID = true) ∧
    ∃ bid ∈ w.db.intents.rows, ∃ ask ∈ w.db.intents.rows,
      bid.txID = M.txId1 ∧ ask.txID = M.txId2 ∧ bid.txID ≠ ask.txID ∧
      ∀ row ∈ w.db.intents.rows, M.fills row.toOrderTerms = true ↔ row = bid ∨ row = ask
  /- whenever a message is handled, it is about the same match -/
  replayed : ∀ m ∈ messages, ∀ q q', w.Prepares p {m} q → w.Prepares p {m} q' →
    q.matchID = q'.matchID
  /- which is settled at most once, on at most one network -/
  transfers : ∀ net, (matchIdsOf (w.receipts nets net)).Nodup ∧
    ∀ net', ∀ matchID ∈ matchIdsOf (w.receipts nets net),
      matchID ∈ matchIdsOf (w.receipts nets net') → net = net'

end Counts

section Runs

variable {p : Platform} {nets : Str → Network} {messages : Set ClobMatch} {w : World}

theorem authorizationFromIntent_bounds {uuid : Uuid} {terms : OrderTerms} {a : AuthorizationV2}
    (h : authorizationFromIntent uuid terms = .ok a) :
    terms.qtyShares.getD 0 = a.qtyShares ∧ terms.collateralCap.getD 0 = a.collateralCap := by
  have hparsed {n : Option Nat} {value : Nat} (h : parseNumeric n = .ok value) :
      n.getD 0 = value := by
    cases n with
    | none => exact absurd h (by simp [parseNumeric])
    | some n =>
        simp only [parseNumeric, parseUint, bind_ok_iff, revertIf_ok_iff, exists_const,
          Except.ok.injEq] at h
        exact h.2
  unfold authorizationFromIntent at h
  split at h
  · simp only [bind_ok_iff, mapError_ok_iff] at h
    obtain ⟨qty, hqty, cap, hcap, hassemble⟩ := h
    have hassembled := newAuthorizationV2_assembled hassemble
    rw [hassembled.qtyShares, hassembled.collateralCap]
    exact ⟨hparsed hqty, hparsed hcap⟩
  · exact absurd h (by simp)

/-- What a message is prepared to is settled by the orders that it names. -/
theorem World.Prepares.matchID_eq {m : ClobMatch} {q q' : Prepared} (h : w.Prepares p {m} q)
    (h' : w.Prepares p {m} q') : q.matchID = q'.matchID := by
  obtain ⟨_, rfl, bid, ask, hq, _, _, hbid, hask⟩ := h
  obtain ⟨_, rfl, bid', ask', hq', _, _, hbid', hask'⟩ := h'
  have hsame {row row' : PredictionIntent} (hrow : w.Holds row) (hrow' : w.Holds row')
      (hkey : row.txID = row'.txID) : row.toOrderTerms = row'.toOrderTerms := by
    obtain ⟨stored, hfind, hterms⟩ := hrow
    obtain ⟨hmem, hid⟩ := Table.find_eq_some.mp hfind
    exact hterms.symm.trans (hrow'.terms hmem (hid.trans hkey))
  have hbidEq := hq.bid_eq
  have haskEq := hq.ask_eq
  rw [hq'.bid_eq, Option.some.injEq] at hbidEq
  rw [hq'.ask_eq, Option.some.injEq] at haskEq
  subst hbidEq haskEq
  have hbidTerms := hsame hbid hbid' (Except.ok.inj (hq.bidId.symm.trans hq'.bidId))
  have haskTerms := hsame hask hask' (Except.ok.inj (hq.askId.symm.trans hq'.askId))
  have hcfg := hq.network
  have hbidAuth := hq.preparedFor.bidAuth
  have haskAuth := hq.preparedFor.askAuth
  rw [hbidTerms, hq'.network, Except.ok.injEq] at hcfg
  rw [hbidTerms, hq'.preparedFor.bidAuth, Except.ok.injEq] at hbidAuth
  rw [haskTerms, hq'.preparedFor.askAuth, Except.ok.injEq] at haskAuth
  obtain ⟨b, a, hb, ha, hid⟩ := hq.preparedFor.matchID
  obtain ⟨b', a', hb', ha', hid'⟩ := hq'.preparedFor.matchID
  rw [hb, Option.some.injEq] at hb'
  rw [ha, Option.some.injEq] at ha'
  subst hb' ha'
  rw [hcfg, hbidAuth, haskAuth, hid, Except.ok.injEq] at hid'
  exact hid'

variable (hkeccak : ∀ text, (p.keccak256 text).length = 32)
  (hsignatures : ∀ row signature, p.signatureMap row = .ok signature → signature.length < 2 ^ 32)
  (hwords : ∀ m ∈ messages, InWords m)
  (hcollision : Set.InjOn p.keccak256 (fillPreimages p messages))

include hkeccak hsignatures hwords hcollision

/-- An order that a finalized match fills has an authorization for a configured network. -/
theorem World.Recorded.authorized (h : w.Recorded p nets messages)
    (hdispatched : w.Dispatched p nets messages) {row : PredictionIntent}
    (hrow : row ∈ w.db.intents.rows) {M : Match} (hM : M ∈ w.db.matches_.rows)
    (hfills : M.fills row.toOrderTerms = true) :
    ∃ cfg a x, p.getPrismV2Network row.net = .ok cfg ∧
      authorizationFromIntent p.uuid row.toOrderTerms = .ok a ∧ a.decoded = some x := by
  simp only [Match.fills, decide_eq_true_eq] at hfills
  obtain ⟨hfinal, hside⟩ := hfills
  obtain ⟨q, r, y, z, _, hran, hterms⟩ :=
    h.finalized_ran hdispatched hkeccak hsignatures hwords hcollision hM hfinal
  rw [hterms] at hside
  obtain ⟨leg, _, horder⟩ := hran.prepares.order hrow hside
  obtain ⟨x, hx, _⟩ := hran.order leg
  have hleg := hran.prepares.leg leg
  refine ⟨q.cfg, q.auth leg, x, ?_, ?_, hx.decoded⟩
  · rw [horder]
    exact hleg.network
  · rw [horder]
    exact hleg.auth

theorem World.Recorded.counted (h : w.Recorded p nets messages)
    (hdispatched : w.Dispatched p nets messages) {M : Match} (hM : M ∈ w.db.matches_.rows)
    (hfinal : M.status = .finalized) :
    ∃ bid ∈ w.db.intents.rows, ∃ ask ∈ w.db.intents.rows,
      bid.txID = M.txId1 ∧ ask.txID = M.txId2 ∧ bid.txID ≠ ask.txID ∧
      ∀ row ∈ w.db.intents.rows, M.fills row.toOrderTerms = true ↔ row = bid ∨ row = ask := by
  obtain ⟨q, _, _, _, _, hran, hterms⟩ :=
    h.finalized_ran hdispatched hkeccak hsignatures hwords hcollision hM hfinal
  have hprepares := hran.prepares
  have hstored (leg : Leg) : ∃ row ∈ w.db.intents.rows, row.txID = q.record.txIdOf leg := by
    obtain ⟨row, hfind, _⟩ := (hprepares.leg leg).holds
    obtain ⟨hrow, hkey⟩ := Table.find_eq_some.mp hfind
    exact ⟨row, hrow, hkey.trans (hprepares.leg leg).txID⟩
  obtain ⟨bid, hbid, hbidTx⟩ := hstored .bid
  obtain ⟨ask, hask, haskTx⟩ := hstored .ask
  have htx1 : M.txId1 = q.record.bidTxID := by
    rw [hterms]
    rfl
  have htx2 : M.txId2 = q.record.askTxID := by
    rw [hterms]
    rfl
  have hbidTx : bid.txID = M.txId1 := hbidTx.trans htx1.symm
  have haskTx : ask.txID = M.txId2 := haskTx.trans htx2.symm
  refine ⟨bid, hbid, ask, hask, hbidTx, haskTx, ?_, ?_⟩
  · rw [hbidTx, haskTx, htx1, htx2]
    exact hprepares.distinct
  · intro row hrow
    simp only [Match.fills, hfinal, true_and, decide_eq_true_eq]
    constructor
    · rintro (htx | htx)
      · exact Or.inl (Table.eq_of_key hrow hbid (htx.symm.trans hbidTx.symm))
      · exact Or.inr (Table.eq_of_key hrow hask (htx.symm.trans haskTx.symm))
    · rintro (rfl | rfl)
      · exact Or.inl hbidTx.symm
      · exact Or.inr haskTx.symm

theorem World.Recorded.bounded (hchains : ∀ net, (nets net).c.HashSound (w.authorizations p))
    (h : w.Recorded p nets messages) (hdispatched : w.Dispatched p nets messages)
    {row : PredictionIntent} (hrow : row ∈ w.db.intents.rows) :
    row.sharesFilled ≤ row.qtyShares.getD 0 ∧
      (row.action.getD 0 = actionBuy → row.collateralFilled ≤ row.collateralCap.getD 0) := by
  obtain ⟨hshares, hcollateral⟩ := h.booked row hrow
  by_cases hfilled : ∃ M ∈ w.db.matches_.rows, M.fills row.toOrderTerms = true
  · obtain ⟨M, hM, hfills⟩ := hfilled
    obtain ⟨cfg, a, x, hcfg, ha, hx⟩ :=
      h.authorized hkeccak hsignatures hwords hcollision hdispatched hrow hM hfills
    obtain ⟨hbehind, hqty, hbehind', hcap, _⟩ :=
      h.behind hdispatched hkeccak hsignatures hchains hwords hcollision hrow hcfg ha hx
    obtain ⟨hrowQty, hrowCap⟩ := authorizationFromIntent_bounds ha
    have hdecodes := decodes_of_decoded hx
    rw [hrowQty, hrowCap, ← hdecodes.qtyShares, ← hdecodes.collateralCap]
    refine ⟨hbehind.trans hqty, fun hbuy => hbehind'.trans (hcap ?_)⟩
    rw [(authorizationFromIntent_kind ha).2, hdecodes.action] at hbuy
    cases haction : x.action with
    | buy => rfl
    | sell =>
        rw [haction] at hbuy
        exact absurd hbuy (by decide)
  · have hnone (M : Match) (hM : M ∈ w.db.matches_.rows) : M.fills row.toOrderTerms = false :=
      Bool.eq_false_iff.mpr fun hfills => hfilled ⟨M, hM, hfills⟩
    rw [hshares, hcollateral, Table.sum_eq_zero fun M hM => by
      rw [Match.sharesFor, if_neg (by simp [hnone M hM])], Table.sum_eq_zero fun M hM => by
      rw [Match.collateralFor, if_neg (by simp [hnone M hM])]]
    exact ⟨Nat.zero_le _, fun _ => Nat.zero_le _⟩

/-- Messages delivered and handled any number of times, handlers lost between any two requests,
receipts that never come and mirrors that lag: every finalized match is executed and counted once
for each of its two orders, within what the contract has filled and the order allows, and no
redelivery settles a match again. -/
theorem redeliveries_count_once (hfresh : w.Fresh) {ls : List Label}
    (hruns : w.Runs p nets (fun _ l => l.Of messages) ls)
    (hchains : ∀ net, (nets net).c.HashSound ((w.run p nets ls).authorizations p)) :
    (w.run p nets ls).CountsOnce p nets messages := by
  obtain ⟨hdispatched, hrecorded⟩ :=
    hfresh.run hkeccak hsignatures hwords hcollision hruns
  refine ⟨hrecorded.booked, ?_, ?_, ?_, ?_⟩
  · intro row hrow
    obtain ⟨hqty, hcap⟩ := hrecorded.bounded hkeccak hsignatures hwords hcollision hchains
      hdispatched hrow
    refine ⟨hqty, hcap, ?_⟩
    intro cfg a x hcfg ha hx
    obtain ⟨hshares, _, hcollateral, _⟩ := hrecorded.behind hdispatched hkeccak hsignatures hchains
      hwords hcollision hrow hcfg ha hx
    exact ⟨hshares, hcollateral⟩
  · intro M hM hfinal
    obtain ⟨q, hq, hterms, hexecuted⟩ := hrecorded.prepared M hM
    refine ⟨⟨q.cfg.net, q.matchID, ?_, hexecuted hfinal⟩,
      hrecorded.counted hkeccak hsignatures hwords hcollision hdispatched hM hfinal⟩
    rw [hterms]
    exact hq.recordID
  · exact fun m _ q q' hq hq' => hq.matchID_eq hq'
  · intro net
    refine ⟨matchIdsOf_nodup _ _ _, ?_⟩
    intro net' matchID hmem hmem'
    exact hdispatched.one_network hkeccak hsignatures hwords hcollision hmem hmem'

end Runs

/-! ## A handler that is lost -/

/-- The handler is lost when its submission has been executed, and the match is delivered again. -/
def lostHandler : List Label :=
  [requestingWorld.grant samplePlatform packingNetworks, .order 0 sampleWallets, .stop 0,
    .deliver sampleFill]

abbrev lostWorld : World := requestingWorld.run samplePlatform packingNetworks lostHandler

def sampleRecovery : List Label :=
  packingRequests ++ (lostHandler ++ lostWorld.grants samplePlatform packingNetworks 6)

theorem sampleRecovery_runs : sampleWorld.Runs samplePlatform packingNetworks
    (fun _ l => l.Of {sampleFill}) sampleRecovery := by
  have hfill : sampleFill.fillShares < 2 ^ 64 := by decide
  have hsubmits : requestingWorld.grantable = true := by decide +kernel
  have hfinalizes : lostWorld.allGrantable samplePlatform packingNetworks 6 = true := by
    decide +kernel
  have hlost : requestingWorld.Runs samplePlatform packingNetworks (fun _ l => l.Of {sampleFill})
      lostHandler :=
    ⟨World.grant_allowed hsubmits, World.grant_of _, trivial, trivial, trivial, trivial, hfill,
      rfl, trivial⟩
  exact World.runs_append.mpr ⟨packingRequests_runs, World.runs_append.mpr ⟨hlost,
    World.runs_grants hfinalizes⟩⟩

/-- The match is executed for the first handler and finalized by the second. -/
theorem redeliveries_count_once_sample :
    let w := sampleWorld.run samplePlatform packingNetworks sampleRecovery
    w.CountsOnce samplePlatform packingNetworks {sampleFill} ∧
      (w.db.intents.rows.all fun row => row.sharesFilled = 101) = true := by
  refine ⟨?_, by decide +kernel⟩
  have hproxy (net : Str) (cfg : PrismV2Network)
      (hcfg : samplePlatform.getPrismV2Network net = .ok cfg) : cfg.proxyAddress = sampleProxy := by
    cases hcfg
    rfl
  refine redeliveries_count_once (fun _ => rfl) sampleSignatures ?_
    ((fillPreimages_subsingleton hproxy sampleFill).injOn _) sampleWorld_fresh
    sampleRecovery_runs fun _ => packingChain_hashSound _
  intro m hm
  obtain rfl := Set.mem_singleton_iff.mp hm
  exact sampleFill_inWords

end PrismBackend.Api
