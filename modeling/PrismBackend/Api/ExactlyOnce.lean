import PrismBackend.Api.FillColumns

/-!
# API: fills are counted once

Over any run of handlers and redeliveries, the contract has executed each
finalized match once. The fill columns of an order are never ahead of the
contract's fill state, and level with it as soon as every executed match is
finalized.
-/

namespace PrismBackend.Api

open PrismBackend.Lib PrismBackend.Clob PrismBackend.PrismV2

section Accounts

variable (p : Platform) (nets : Str → Network)

def World.receipts (w : World) (net : Str) : List Receipt :=
  trace (nets net).c (nets net).d.state (w.history net)

def World.authorizations (w : World) : Set Authorization :=
  {x | ∃ row ∈ w.db.intents.rows, x ∈ row.toOrderTerms.authorizations p.uuid}

def World.fillState (w : World) (net : Str) (x : Authorization) : FillState :=
  (w.contract nets net).fills (authorizationHash (nets net).c x)

/-- Every recorded match that a contract has executed is finalized. -/
def World.Caught (w : World) : Prop := ∀ M ∈ w.db.matches_.rows, ∀ net matchID,
  M.matchID = matchIDText matchID → (w.contract nets net).executedMatches matchID = true →
    M.status = .finalized

def Match.SettledBy (M : Match) (matchID : Bytes32) (r : Receipt) : Prop :=
  ∃ x y signatureA signatureB fill price,
    r.tx.call = .settle x signatureA y signatureB fill price matchID ∧
    x.txId = M.txId1 ∧ y.txId = M.txId2 ∧ M.fillShares = some fill ∧
    M.executionYesPrice = some price

structure World.Accounts (w : World) : Prop where
  booked : w.db.Booked
  /- the contract settles recorded matches only, each of them once -/
  recorded : ∀ net, (matchIdsOf (w.receipts nets net)).Nodup ∧
    ∀ r ∈ w.receipts nets net, ∀ matchID, r.tx.call.matchIdOf = some matchID →
      ∃ M ∈ w.db.matches_.rows, M.matchID = matchIDText matchID ∧ M.SettledBy matchID r
  /- a finalized match was executed once, on one network, for its two orders -/
  once : ∀ M ∈ w.db.matches_.rows, M.status = .finalized → M.txId1 ≠ M.txId2 ∧
    ∃ net matchID, M.matchID = matchIDText matchID ∧
      (∀ net', (matchIdsOf (w.receipts nets net')).count matchID = if net' = net then 1 else 0) ∧
      ∃ r ∈ w.receipts nets net, M.SettledBy matchID r
  /- the database is never ahead of the contract, which stays within the order's bounds, and level
  with it once it has caught up -/
  behind : ∀ row ∈ w.db.intents.rows, ∀ cfg a x, p.getPrismV2Network row.net = .ok cfg →
    authorizationFromIntent p.uuid row.toOrderTerms = .ok a → a.decoded = some x →
    row.sharesFilled ≤ (w.fillState nets cfg.net x).shares ∧
    (w.fillState nets cfg.net x).shares ≤ x.qtyShares ∧
    row.collateralFilled ≤ (w.fillState nets cfg.net x).collateral ∧
    (x.action = .buy → (w.fillState nets cfg.net x).collateral ≤ x.collateralCap) ∧
    (w.Caught nets → row.sharesFilled = (w.fillState nets cfg.net x).shares ∧
      row.collateralFilled = (w.fillState nets cfg.net x).collateral)

structure World.Fresh (w : World) : Prop where
  handlers : w.handlers = []
  sent : w.sent = []
  matches_ : w.db.matches_.rows = []
  rows : ∀ row ∈ w.db.intents.rows, Api.Stored row ∧ row.sharesFilled = 0 ∧ row.collateralFilled = 0
  history : ∀ net, ∀ tx ∈ w.history net, ¬Call.isSettle tx.call

end Accounts

/-! ## Receipts -/

structure World.Ran (p : Platform) (messages : Set ClobMatch) (w : World) (net : Str) (r : Receipt)
    (q : Prepared) (x y : Authorization) : Prop where
  prepares : w.Prepares p messages q
  net : q.cfg.net = net
  bid : OrderOf q.bidRow q.bidAuth x
  ask : OrderOf q.askRow q.askAuth y
  call : ∃ signatureA signatureB, r.tx.call = .settle x signatureA y signatureB
    q.record.fillShares q.record.executionYesPrice q.matchID
  recorded : ∃ M, w.db.matches_.find q.record.matchID = some M

section Receipts

variable {p : Platform} {nets : Str → Network} {messages : Set ClobMatch} {w : World}

variable (nets) in
theorem World.executed_iff (w : World) (net : Str) (matchID : Bytes32) :
    (w.contract nets net).executedMatches matchID = true ↔
      ∃ r ∈ w.receipts nets net, r.tx.call.matchIdOf = some matchID := by
  unfold World.contract World.receipts
  rw [run_executed_iff, deployment_executed]
  simp [matchIdsOf]

theorem World.Prepares.authorizes {q : Prepared} (h : w.Prepares p messages q) (leg : Leg)
    {x : Authorization} (hx : (q.auth leg).decoded = some x) : x ∈ w.authorizations p := by
  have hleg := h.leg leg
  obtain ⟨row, hfind, hterms⟩ := hleg.holds
  refine ⟨row, (Table.find_eq_some.mp hfind).1, q.auth leg, ?_, hx⟩
  rw [hterms]
  exact hleg.auth

theorem World.Dispatched.within (h : w.Dispatched p nets messages)
    (hkeccak : ∀ text, (p.keccak256 text).length = 32)
    (hsignatures : ∀ row signature, p.signatureMap row = .ok signature →
      signature.length < 2 ^ 32) (hwords : ∀ m ∈ messages, InWords m) (net : Str) :
    ∀ tx ∈ w.history net, tx.call.Within (w.authorizations p) := by
  intro tx htx
  by_cases hsettle : Call.isSettle tx.call
  · obtain ⟨s, hs, _, hdecode⟩ := h.history net tx htx hsettle
    obtain ⟨q, hq, _, hdata, _⟩ := h.origin s hs
    obtain ⟨x, y, signatureA, signatureB, hx, hy, hcall⟩ :=
      hq.call hkeccak hsignatures hwords hdata hdecode
    rw [hcall]
    exact ⟨hq.authorizes .bid hx.decoded, hq.authorizes .ask hy.decoded⟩
  · cases hcall : tx.call with
    | settle =>
        rw [hcall] at hsettle
        exact absurd trivial hsettle
    | _ => trivial

theorem World.Dispatched.ran_of (h : w.Dispatched p nets messages)
    (hkeccak : ∀ text, (p.keccak256 text).length = 32)
    (hsignatures : ∀ row signature, p.signatureMap row = .ok signature →
      signature.length < 2 ^ 32) (hwords : ∀ m ∈ messages, InWords m) {net : Str} {r : Receipt}
    (hr : r ∈ w.receipts nets net) {matchID : Bytes32}
    (hmatch : r.tx.call.matchIdOf = some matchID) :
    ∃ q x y, w.Ran p messages net r q x y ∧ q.matchID = matchID := by
  have hsettle : Call.isSettle r.tx.call := by
    cases hcall : r.tx.call with
    | settle => trivial
    | _ =>
        rw [hcall] at hmatch
        exact absurd hmatch (by simp [Call.matchIdOf])
  obtain ⟨s, hs, hnet, hdecode⟩ := h.history net r.tx (trace_tx_mem hr) hsettle
  obtain ⟨q, hq, hqnet, hdata, hrecorded⟩ := h.origin s hs
  obtain ⟨x, y, signatureA, signatureB, hx, hy, hcall⟩ :=
    hq.call hkeccak hsignatures hwords hdata hdecode
  refine ⟨q, x, y, ⟨hq, hqnet.symm.trans hnet, hx, hy, ⟨signatureA, signatureB, hcall⟩,
    hrecorded⟩, ?_⟩
  rw [hcall, Call.matchIdOf, Option.some.injEq] at hmatch
  exact hmatch

theorem World.Ran.order {net : Str} {r : Receipt} {q : Prepared} {x y : Authorization}
    (h : w.Ran p messages net r q x y) (leg : Leg) :
    ∃ z, OrderOf (q.row leg) (q.auth leg) z ∧ z.txId = q.record.txIdOf leg ∧
      r.tx.call.fillOf z = some (q.record.fillShares, q.record.executionYesPrice) := by
  obtain ⟨signatureA, signatureB, hcall⟩ := h.call
  cases leg with
  | bid =>
      refine ⟨x, h.bid, h.bid.txId.trans (h.prepares.leg .bid).txID, ?_⟩
      rw [hcall, Call.fillOf, if_pos (Or.inl rfl)]
  | ask =>
      refine ⟨y, h.ask, h.ask.txId.trans (h.prepares.leg .ask).txID, ?_⟩
      rw [hcall, Call.fillOf, if_pos (Or.inr rfl)]

/-- The collateral of a leg by the rule of the contract. -/
theorem World.Prepares.collateral {q : Prepared} (h : w.Prepares p messages q)
    (hwords : ∀ m ∈ messages, InWords m) {order : OrderTerms} {a : AuthorizationV2}
    (ha : authorizationFromIntent p.uuid order = .ok a) {x : Authorization}
    (hx : a.decoded = some x) :
    legCollateralV2 (order.side.getD 0) q.record.yesCollateral q.record.noCollateral =
      fillCollateral x q.record.fillShares q.record.executionYesPrice := by
  obtain ⟨m, hm, bid, ask, hprepared, _⟩ := h
  have hq := hprepared.preparedFor
  obtain ⟨_, _, _, hyes, hno, _⟩ := splitCollateralV2_ok (hwords m hm).1 hq.split
  rw [(authorizationFromIntent_kind ha).1, hyes, hno, hq.fillShares, hq.executionYesPrice]
  exact legCollateralV2_decoded (decodes_of_decoded hx) _ _

/-! ## Both books of an order -/

/-- A recorded match and the receipt of its settlement, in the books of an order. -/
structure Paired (order : OrderTerms) (x : Authorization) (M : Match) (r : Receipt) : Prop where
  key : r.tx.call.matchIdOf.map matchIDText = some M.matchID
  fill : ∃ fill, r.tx.call.fillOf x = some fill ∧ M.fillShares.getD 0 = fill.1 ∧
    legCollateralV2 (order.side.getD 0) (M.yesCollateral.getD 0) (M.noCollateral.getD 0) =
      fillCollateral x fill.1 fill.2

section Order

variable {row : PredictionIntent} {cfg : PrismV2Network} {a : AuthorizationV2} {x : Authorization}

theorem World.Ran.paired {net : Str} {r : Receipt} {q : Prepared} {y z : Authorization}
    (h : w.Ran p messages net r q y z) (hwords : ∀ m ∈ messages, InWords m) {M : Match}
    (hM : M.toMatchTerms = q.record.row.toMatchTerms)
    (ha : authorizationFromIntent p.uuid row.toOrderTerms = .ok a) (hx : a.decoded = some x)
    (hfill : r.tx.call.fillOf x = some (q.record.fillShares, q.record.executionYesPrice)) :
    Paired row.toOrderTerms x M r := by
  obtain ⟨signatureA, signatureB, hcall⟩ := h.call
  refine ⟨?_, _, hfill, ?_, ?_⟩
  · rw [hcall, hM, Call.matchIdOf, Option.map_some, ← h.prepares.recordID]
    rfl
  · rw [hM]
    rfl
  · rw [hM]
    exact h.prepares.collateral hwords ha hx

theorem World.Ran.settledBy {net : Str} {r : Receipt} {q : Prepared} {y z : Authorization}
    (h : w.Ran p messages net r q y z) {M : Match}
    (hM : M.toMatchTerms = q.record.row.toMatchTerms) : M.SettledBy q.matchID r := by
  obtain ⟨signatureA, signatureB, hcall⟩ := h.call
  refine ⟨y, z, signatureA, signatureB, _, _, hcall, ?_, ?_, ?_, ?_⟩
  · rw [hM]
    exact h.bid.txId.trans (h.prepares.leg .bid).txID
  · rw [hM]
    exact h.ask.txId.trans (h.prepares.leg .ask).txID
  · rw [hM]
    rfl
  · rw [hM]
    rfl

theorem World.Recorded.finalized_ran (h : w.Recorded p nets messages)
    (hdispatched : w.Dispatched p nets messages)
    (hkeccak : ∀ text, (p.keccak256 text).length = 32)
    (hsignatures : ∀ row signature, p.signatureMap row = .ok signature →
      signature.length < 2 ^ 32) (hwords : ∀ m ∈ messages, InWords m)
    (hcollision : Set.InjOn p.keccak256 (fillPreimages p messages)) {M : Match}
    (hM : M ∈ w.db.matches_.rows) (hfinal : M.status = .finalized) :
    ∃ q r y z, r ∈ w.receipts nets q.cfg.net ∧ w.Ran p messages q.cfg.net r q y z ∧
      M.toMatchTerms = q.record.row.toMatchTerms := by
  obtain ⟨q, hq, hterms, hexecuted⟩ := h.prepared M hM
  obtain ⟨r, hr, hmatch⟩ := (w.executed_iff nets _ _).mp (hexecuted hfinal)
  obtain ⟨q', y, z, hran, hid⟩ := hdispatched.ran_of hkeccak hsignatures hwords hr hmatch
  obtain ⟨_, _, _, hrecord⟩ := hran.prepares.same hkeccak hwords hcollision hq hid
  refine ⟨q', r, y, z, ?_, ?_, ?_⟩
  · rw [hran.net]
    exact hr
  · rw [hran.net]
    exact hran
  · rw [hrecord]
    exact hterms

theorem World.Recorded.settled (h : w.Recorded p nets messages)
    (hdispatched : w.Dispatched p nets messages)
    (hkeccak : ∀ text, (p.keccak256 text).length = 32)
    (hsignatures : ∀ row signature, p.signatureMap row = .ok signature →
      signature.length < 2 ^ 32) (hwords : ∀ m ∈ messages, InWords m)
    (hcollision : Set.InjOn p.keccak256 (fillPreimages p messages))
    (hrow : row ∈ w.db.intents.rows) (hcfg : p.getPrismV2Network row.net = .ok cfg)
    (ha : authorizationFromIntent p.uuid row.toOrderTerms = .ok a) (hx : a.decoded = some x)
    {M : Match} (hM : M ∈ w.db.matches_.rows) (hfills : M.fills row.toOrderTerms = true) :
    ∃ r ∈ settlesOf x (w.receipts nets cfg.net), Paired row.toOrderTerms x M r := by
  simp only [Match.fills, decide_eq_true_eq] at hfills
  obtain ⟨q, r, y, z, hr, hran, hterms⟩ :=
    h.finalized_ran hdispatched hkeccak hsignatures hwords hcollision hM hfills.1
  have hside : q.record.bidTxID = row.txID ∨ q.record.askTxID = row.txID := by
    have hboth := hfills.2
    rw [hterms] at hboth
    exact hboth
  obtain ⟨leg, htx, horder⟩ := hran.prepares.order hrow hside
  obtain ⟨owner, howner, _, hfill⟩ := hran.order leg
  have hleg := hran.prepares.leg leg
  rw [horder, hleg.auth, Except.ok.injEq] at ha
  rw [← ha, howner.decoded, Option.some.injEq] at hx
  rw [horder, hleg.network, Except.ok.injEq] at hcfg
  subst hx hcfg
  refine ⟨r, List.mem_filter.mpr ⟨hr, ?_⟩, ?_⟩
  · rw [hfill]
    rfl
  · rw [horder]
    exact hran.paired hwords hterms hleg.auth howner.decoded hfill

theorem World.Recorded.receipt (h : w.Recorded p nets messages)
    (hdispatched : w.Dispatched p nets messages)
    (hkeccak : ∀ text, (p.keccak256 text).length = 32)
    (hsignatures : ∀ row signature, p.signatureMap row = .ok signature →
      signature.length < 2 ^ 32) (hwords : ∀ m ∈ messages, InWords m)
    (hcollision : Set.InjOn p.keccak256 (fillPreimages p messages)) {net : Str} {r : Receipt}
    (hr : r ∈ w.receipts nets net) {matchID : Bytes32}
    (hmatch : r.tx.call.matchIdOf = some matchID) :
    ∃ q y z, ∃ M ∈ w.db.matches_.rows, w.Ran p messages net r q y z ∧ q.matchID = matchID ∧
      M.toMatchTerms = q.record.row.toMatchTerms := by
  obtain ⟨q, y, z, hran, hid⟩ := hdispatched.ran_of hkeccak hsignatures hwords hr hmatch
  obtain ⟨M, hfound⟩ := hran.recorded
  obtain ⟨hM, hkey⟩ := Table.find_eq_some.mp hfound
  obtain ⟨q', hq', hterms, _⟩ := h.prepared M hM
  have hsame : q'.record.matchID = q.record.matchID := by
    rw [← hkey, hterms]
    rfl
  obtain ⟨_, _, _, _, hrecord⟩ :=
    hq'.same_record hkeccak hwords hcollision hran.prepares hsame
  rw [hrecord] at hterms
  exact ⟨q, y, z, M, hM, hran, hid, hterms⟩

/-- What the contract has settled for an order is booked, once it is finalized. -/
theorem World.Recorded.caught (h : w.Recorded p nets messages)
    (hdispatched : w.Dispatched p nets messages)
    (hkeccak : ∀ text, (p.keccak256 text).length = 32)
    (hsignatures : ∀ row signature, p.signatureMap row = .ok signature →
      signature.length < 2 ^ 32) (hwords : ∀ m ∈ messages, InWords m)
    (hcollision : Set.InjOn p.keccak256 (fillPreimages p messages)) (hcaught : w.Caught nets)
    (ha : authorizationFromIntent p.uuid row.toOrderTerms = .ok a) (hx : a.decoded = some x)
    {net : Str} {r : Receipt} (hr : r ∈ settlesOf x (w.receipts nets net)) :
    ∃ M ∈ w.db.matches_.rows, M.fills row.toOrderTerms = true ∧
      Paired row.toOrderTerms x M r := by
  obtain ⟨hr, hfilled⟩ := List.mem_filter.mp hr
  obtain ⟨fill, hfill⟩ := Option.isSome_iff_exists.mp hfilled
  have hmatch : ∃ matchID, r.tx.call.matchIdOf = some matchID := by
    cases hcall : r.tx.call with
    | settle => exact ⟨_, rfl⟩
    | _ =>
        rw [hcall] at hfill
        exact absurd hfill (by simp [Call.fillOf])
  obtain ⟨matchID, hmatch⟩ := hmatch
  obtain ⟨q, y, z, M, hM, hran, hid, hterms⟩ :=
    h.receipt hdispatched hkeccak hsignatures hwords hcollision hr hmatch
  have hkey : M.matchID = matchIDText q.matchID := by
    rw [hterms]
    exact hran.prepares.recordID
  obtain ⟨signatureA, signatureB, hcall⟩ := hran.call
  have hside := hfill
  rw [hcall, Call.fillOf] at hside
  split at hside
  · next hxy =>
    rw [Option.some.injEq] at hside
    rw [← hside] at hfill
    refine ⟨M, hM, ?_, hran.paired hwords hterms ha hx hfill⟩
    have hfinal : M.status = .finalized := by
      refine hcaught M hM net q.matchID hkey ?_
      rw [hid]
      exact (w.executed_iff nets _ _).mpr ⟨r, hr, hmatch⟩
    have htx : x.txId = row.txID :=
      (decodes_of_decoded hx).txId.trans (authorizationFromIntent_txId ha)
    simp only [Match.fills, decide_eq_true_eq]
    refine ⟨hfinal, ?_⟩
    rw [hterms, ← htx]
    rcases hxy with rfl | rfl
    · exact Or.inl (hran.bid.txId.trans (hran.prepares.leg .bid).txID).symm
    · exact Or.inr (hran.ask.txId.trans (hran.prepares.leg .ask).txID).symm
  · exact absurd hside (by simp)

end Order

end Receipts

/-! ## Totals -/

theorem Paired.shares {order : OrderTerms} {x : Authorization} {M : Match} {r : Receipt}
    (h : Paired order x M r) :
    M.fillShares.getD 0 = ((r.tx.call.fillOf x).getD (0, 0)).1 := by
  obtain ⟨fill, hfill, hshares, _⟩ := h.fill
  rw [hfill, Option.getD_some, hshares]

theorem Paired.collateral {order : OrderTerms} {x : Authorization} {M : Match} {r : Receipt}
    (h : Paired order x M r) :
    legCollateralV2 (order.side.getD 0) (M.yesCollateral.getD 0) (M.noCollateral.getD 0) =
      fillCollateral x ((r.tx.call.fillOf x).getD (0, 0)).1
        ((r.tx.call.fillOf x).getD (0, 0)).2 := by
  obtain ⟨fill, hfill, _, hcollateral⟩ := h.fill
  rw [hfill, Option.getD_some, hcollateral]

section Totals

variable {order : OrderTerms} {x : Authorization} {receipts : List Receipt}
  {matches_ : Table Match Str fun row => row.matchID} {g : Match → Nat} (leg : Nat × Nat → Nat)

theorem sum_settled :
    ((settlesOf x receipts).map fun r => leg ((r.tx.call.fillOf x).getD (0, 0))).sum =
      ((fillsOf x receipts).map leg).sum := by
  apply sum_settlesOf
  intro r _ fill hfill
  rw [hfill, Option.getD_some]

/-- Matches that each have a receipt add up to no more than the receipts. -/
theorem booked_le
    (hpaired : ∀ M r, Paired order x M r → g M = leg ((r.tx.call.fillOf x).getD (0, 0)))
    (h : ∀ M ∈ matches_.rows, M.fills order = true →
      ∃ r ∈ settlesOf x receipts, Paired order x M r) :
    matches_.sum (fun M => if M.fills order then g M else 0) ≤
      ((fillsOf x receipts).map leg).sum := by
  have hnodup : ((matches_.rows.filter (Match.fills order)).map fun M => some M.matchID).Nodup := by
    have hkeys : ((matches_.rows.filter (Match.fills order)).map fun M => M.matchID).Nodup :=
      matches_.nodup.sublist (List.Sublist.map _ List.filter_sublist)
    have hsome := hkeys.map (Option.some_injective Str)
    rw [List.map_map] at hsome
    exact hsome
  rw [Table.sum, ← sum_filter_map, ← sum_settled]
  refine sum_le_of_keys _ (fun r => r.tx.call.matchIdOf.map matchIDText) hnodup ?_
  intro M hM
  obtain ⟨hM, hfills⟩ := List.mem_filter.mp hM
  obtain ⟨r, hr, hpair⟩ := h M hM hfills
  exact ⟨r, hr, hpair.key, (hpaired M r hpair).le⟩

/-- Receipts that each have a match add up to no more than the matches. -/
theorem settled_le
    (hpaired : ∀ M r, Paired order x M r → g M = leg ((r.tx.call.fillOf x).getD (0, 0)))
    (hnodup : (matchIdsOf receipts).Nodup)
    (h : ∀ r ∈ settlesOf x receipts, ∃ M ∈ matches_.rows, M.fills order = true ∧
      Paired order x M r) :
    ((fillsOf x receipts).map leg).sum ≤
      matches_.sum (fun M => if M.fills order then g M else 0) := by
  have hkeyed (r : Receipt) (hr : (r.tx.call.fillOf x).isSome = true) :
      r.tx.call.matchIdOf.isSome = true := by
    cases hcall : r.tx.call with
    | settle => rfl
    | _ =>
        rw [hcall] at hr
        exact absurd hr (by simp [Call.fillOf])
  have hkeys : ((settlesOf x receipts).map fun r => r.tx.call.matchIdOf.map matchIDText).Nodup := by
    have hids := filter_keys_nodup _ (fun r : Receipt => r.tx.call.matchIdOf) hkeyed hnodup
    have htexts := hids.map (Option.map_injective matchIDText_injective)
    rw [List.map_map] at htexts
    exact htexts
  rw [Table.sum, ← sum_filter_map, ← sum_settled]
  refine sum_le_of_keys _ (fun M : Match => some M.matchID) hkeys ?_
  intro r hr
  obtain ⟨M, hM, hfills, hpair⟩ := h r hr
  exact ⟨M, List.mem_filter.mpr ⟨hM, hfills⟩, hpair.key.symm, (hpaired M r hpair).ge⟩

end Totals

/-! ## Runs -/

section Runs

variable {p : Platform} {nets : Str → Network} {messages : Set ClobMatch} {w : World}

theorem World.Fresh.start (h : w.Fresh) : w.Tracks p nets messages ∧
    w.Dispatched p nets messages ∧ w.Recorded p nets messages := by
  have hnone {handler : Handler} : handler ∉ w.handlers := by
    rw [h.handlers]
    exact List.not_mem_nil
  have hunsent {s : Sent} : s ∉ w.sent := by
    rw [h.sent]
    exact List.not_mem_nil
  have hempty {M : Match} : M ∉ w.db.matches_.rows := by
    rw [h.matches_]
    exact List.not_mem_nil
  refine ⟨⟨⟨?_, fun row hrow => (h.rows row hrow).1, ?_⟩, ?_, ?_, ?_⟩, ⟨?_, ?_, ?_, ?_⟩, ?_, ?_⟩
  · exact fun handler hh => absurd hh hnone
  · exact fun handler hh => absurd hh hnone
  · exact fun handler hh => absurd hh hnone
  · exact fun handler hh => absurd hh hnone
  · exact fun handler hh => absurd hh hnone
  · exact fun s hs => absurd hs hunsent
  · exact fun s hs => absurd hs hunsent
  · exact fun s hs => absurd hs hunsent
  · exact fun net tx htx hsettle => absurd hsettle (h.history net tx htx)
  · exact fun M hM => absurd hM hempty
  · intro row hrow
    obtain ⟨_, hshares, hcollateral⟩ := h.rows row hrow
    rw [hshares, hcollateral]
    exact ⟨(Table.sum_eq_zero fun M hM => absurd hM hempty).symm,
      (Table.sum_eq_zero fun M hM => absurd hM hempty).symm⟩

/-- A settlement of the match elsewhere would be of a match with another deployment. -/
theorem World.Dispatched.one_network (h : w.Dispatched p nets messages)
    (hkeccak : ∀ text, (p.keccak256 text).length = 32)
    (hsignatures : ∀ row signature, p.signatureMap row = .ok signature →
      signature.length < 2 ^ 32) (hwords : ∀ m ∈ messages, InWords m)
    (hcollision : Set.InjOn p.keccak256 (fillPreimages p messages)) {net net' : Str}
    {matchID : Bytes32} (hmem : matchID ∈ matchIdsOf (w.receipts nets net))
    (hmem' : matchID ∈ matchIdsOf (w.receipts nets net')) : net = net' := by
  obtain ⟨r, hr, hmatch⟩ := List.mem_filterMap.mp hmem
  obtain ⟨r', hr', hmatch'⟩ := List.mem_filterMap.mp hmem'
  obtain ⟨q, x, y, hran, hid⟩ := h.ran_of hkeccak hsignatures hwords hr hmatch
  obtain ⟨q', x', y', hran', hid'⟩ := h.ran_of hkeccak hsignatures hwords hr' hmatch'
  obtain ⟨hcfg, _⟩ :=
    hran.prepares.same hkeccak hwords hcollision hran'.prepares (hid.trans hid'.symm)
  rw [← hran.net, ← hran'.net, hcfg]

theorem World.Recorded.once (h : w.Recorded p nets messages)
    (hdispatched : w.Dispatched p nets messages)
    (hkeccak : ∀ text, (p.keccak256 text).length = 32)
    (hsignatures : ∀ row signature, p.signatureMap row = .ok signature →
      signature.length < 2 ^ 32) (hwords : ∀ m ∈ messages, InWords m)
    (hcollision : Set.InjOn p.keccak256 (fillPreimages p messages)) {M : Match}
    (hM : M ∈ w.db.matches_.rows) (hfinal : M.status = .finalized) :
    M.txId1 ≠ M.txId2 ∧ ∃ net matchID, M.matchID = matchIDText matchID ∧
      (∀ net', (matchIdsOf (w.receipts nets net')).count matchID = if net' = net then 1 else 0) ∧
      ∃ r ∈ w.receipts nets net, M.SettledBy matchID r := by
  obtain ⟨q, r, x, y, hr, hran, hterms⟩ :=
    h.finalized_ran hdispatched hkeccak hsignatures hwords hcollision hM hfinal
  obtain ⟨signatureA, signatureB, hcall⟩ := hran.call
  have hmatch : r.tx.call.matchIdOf = some q.matchID := by rw [hcall, Call.matchIdOf]
  refine ⟨?_, q.cfg.net, q.matchID, ?_, ?_, r, hr, hran.settledBy hterms⟩
  · rw [hterms]
    exact hran.prepares.distinct
  · rw [hterms]
    exact hran.prepares.recordID
  · intro net'
    have hnodup := matchIdsOf_nodup (nets net').c (nets net').d.state (w.history net')
    have hmem : q.matchID ∈ matchIdsOf (w.receipts nets q.cfg.net) :=
      List.mem_filterMap.mpr ⟨r, hr, hmatch⟩
    by_cases hnet : net' = q.cfg.net
    · rw [if_pos hnet]
      subst hnet
      exact List.count_eq_one_of_mem hnodup hmem
    · rw [if_neg hnet]
      apply List.count_eq_zero_of_not_mem
      intro helsewhere
      exact hnet (hdispatched.one_network hkeccak hsignatures hwords hcollision helsewhere hmem)

theorem World.Recorded.behind (h : w.Recorded p nets messages)
    (hdispatched : w.Dispatched p nets messages)
    (hkeccak : ∀ text, (p.keccak256 text).length = 32)
    (hsignatures : ∀ row signature, p.signatureMap row = .ok signature →
      signature.length < 2 ^ 32)
    (hchains : ∀ net, (nets net).c.HashSound (w.authorizations p))
    (hwords : ∀ m ∈ messages, InWords m)
    (hcollision : Set.InjOn p.keccak256 (fillPreimages p messages)) {row : PredictionIntent}
    {cfg : PrismV2Network} {a : AuthorizationV2} {x : Authorization}
    (hrow : row ∈ w.db.intents.rows) (hcfg : p.getPrismV2Network row.net = .ok cfg)
    (ha : authorizationFromIntent p.uuid row.toOrderTerms = .ok a) (hx : a.decoded = some x) :
    row.sharesFilled ≤ (w.fillState nets cfg.net x).shares ∧
    (w.fillState nets cfg.net x).shares ≤ x.qtyShares ∧
    row.collateralFilled ≤ (w.fillState nets cfg.net x).collateral ∧
    (x.action = .buy → (w.fillState nets cfg.net x).collateral ≤ x.collateralCap) ∧
    (w.Caught nets → row.sharesFilled = (w.fillState nets cfg.net x).shares ∧
      row.collateralFilled = (w.fillState nets cfg.net x).collateral) := by
  have hwithin := hdispatched.within hkeccak hsignatures hwords cfg.net
  have hknown : x ∈ w.authorizations p := ⟨row, hrow, a, ha, hx⟩
  have hfills : w.fillState nets cfg.net x = fillTotal x (fillsOf x (w.receipts nets cfg.net)) :=
    (nets cfg.net).d.run_fills (hchains cfg.net) hwithin hknown
  have hsettled (M : Match) (hM : M ∈ w.db.matches_.rows)
      (hbooked : M.fills row.toOrderTerms = true) :=
    h.settled hdispatched hkeccak hsignatures hwords hcollision hrow hcfg ha hx hM hbooked
  have hnodup := matchIdsOf_nodup (nets cfg.net).c (nets cfg.net).d.state (w.history cfg.net)
  obtain ⟨hqty, hcap⟩ : (w.fillState nets cfg.net x).shares ≤ x.qtyShares ∧
      (x.action = .buy → (w.fillState nets cfg.net x).collateral ≤ x.collateralCap) :=
    run_withinBounds (hchains cfg.net) hwithin ((nets cfg.net).d.withinBounds _) x hknown
  obtain ⟨hshares, hcollateral⟩ := h.booked row hrow
  rw [hfills] at hqty hcap
  rw [hfills, hshares, hcollateral]
  have hsharesLe := booked_le Prod.fst (fun _ _ hpair => hpair.shares) hsettled
  have hcollateralLe := booked_le (fun fill => fillCollateral x fill.1 fill.2)
    (fun _ _ hpair => hpair.collateral) hsettled
  refine ⟨hsharesLe, hqty, hcollateralLe, hcap, ?_⟩
  intro hcaught
  have hbooked (r : Receipt) (hr : r ∈ settlesOf x (w.receipts nets cfg.net)) :=
    h.caught hdispatched hkeccak hsignatures hwords hcollision hcaught ha hx hr
  constructor
  · exact le_antisymm hsharesLe (settled_le Prod.fst (fun _ _ hpair => hpair.shares) hnodup hbooked)
  · exact le_antisymm hcollateralLe (settled_le (fun fill => fillCollateral x fill.1 fill.2)
      (fun _ _ hpair => hpair.collateral) hnodup hbooked)

/-- What holds of the submissions and the matches after any run. -/
theorem World.Fresh.run (h : w.Fresh) (hkeccak : ∀ text, (p.keccak256 text).length = 32)
    (hsignatures : ∀ row signature, p.signatureMap row = .ok signature →
      signature.length < 2 ^ 32) (hwords : ∀ m ∈ messages, InWords m)
    (hcollision : Set.InjOn p.keccak256 (fillPreimages p messages)) {ls : List Label}
    (hruns : w.Runs p nets (fun _ l => l.Of messages) ls) :
    (w.run p nets ls).Dispatched p nets messages ∧ (w.run p nets ls).Recorded p nets messages := by
  obtain ⟨_, hdispatched, hrecorded⟩ := System.Runs.preserves hruns
    (P := fun w => w.Tracks p nets messages ∧ w.Dispatched p nets messages ∧
      w.Recorded p nets messages) (fun w l hw hallowed hof => by
        obtain ⟨htracks, hdispatched, hrecorded⟩ := hw
        exact ⟨htracks.next hallowed hof,
          hdispatched.next htracks hkeccak hsignatures hwords hallowed,
          hrecorded.next hkeccak hwords hcollision (w.later_next p nets l)
            (World.writes_next htracks hdispatched hkeccak hsignatures hwords hallowed)⟩)
    h.start
  exact ⟨hdispatched, hrecorded⟩

/-- Over any run from a database without matches, with any redeliveries, losses and failures: the
fill columns of every order add up the finalized matches of it; each of these was executed exactly
once, for its two orders, and the contract settles nothing but recorded matches; and what is booked
for an order is never more than the contract's fill state of it, and the same as soon as every
executed match is finalized. -/
theorem finalized_exactly_once (hkeccak : ∀ text, (p.keccak256 text).length = 32)
    (hsignatures : ∀ row signature, p.signatureMap row = .ok signature →
      signature.length < 2 ^ 32) (hwords : ∀ m ∈ messages, InWords m)
    (hcollision : Set.InjOn p.keccak256 (fillPreimages p messages)) (hfresh : w.Fresh)
    {ls : List Label} (hruns : w.Runs p nets (fun _ l => l.Of messages) ls)
    (hchains : ∀ net, (nets net).c.HashSound ((w.run p nets ls).authorizations p)) :
    (w.run p nets ls).Accounts p nets := by
  obtain ⟨hdispatched, hrecorded⟩ :=
    hfresh.run hkeccak hsignatures hwords hcollision hruns
  refine ⟨hrecorded.booked, ?_, ?_, ?_⟩
  · intro net
    refine ⟨matchIdsOf_nodup _ _ _, ?_⟩
    intro r hr matchID hmatch
    obtain ⟨q, y, z, M, hM, hran, rfl, hterms⟩ :=
      hrecorded.receipt hdispatched hkeccak hsignatures hwords hcollision hr hmatch
    refine ⟨M, hM, ?_, hran.settledBy hterms⟩
    rw [hterms]
    exact hran.prepares.recordID
  · intro M hM hfinal
    exact hrecorded.once hdispatched hkeccak hsignatures hwords hcollision hM hfinal
  · intro row hrow cfg a x hcfg ha hx
    exact hrecorded.behind hdispatched hkeccak hsignatures hchains hwords hcollision hrow hcfg ha hx

end Runs

/-! ## A sample settlement -/

theorem authorizationFromIntent_marketId {uuid : Uuid} {terms : OrderTerms} {a : AuthorizationV2}
    (h : authorizationFromIntent uuid terms = .ok a) : a.marketId = terms.marketID := by
  unfold authorizationFromIntent at h
  split at h
  · simp only [bind_ok_iff, mapError_ok_iff] at h
    obtain ⟨qty, _, cap, _, h⟩ := h
    have hmarket := (newAuthorizationV2_assembled h).market
    rw [uuid.parse_string, Except.ok.injEq] at hmarket
    exact hmarket.symm
  · exact absurd h (by simp)

/-- Where one contract is configured, the fill of one message has one preimage. -/
theorem fillPreimages_subsingleton {p : Platform} {proxy : Str}
    (hproxy : ∀ net cfg, p.getPrismV2Network net = .ok cfg → cfg.proxyAddress = proxy)
    (m : ClobMatch) : (fillPreimages p {m}).Subsingleton := by
  rintro _ ⟨_, rfl, bid, ask, q, h, rfl⟩ _ ⟨_, rfl, bid', ask', q', h', rfl⟩
  have hbid := h.bid_eq
  have hask := h.ask_eq
  rw [h'.bid_eq, Option.some.injEq] at hbid
  rw [h'.ask_eq, Option.some.injEq] at hask
  subst hbid hask
  have hbidTx := h.bidId
  have haskTx := h.askId
  rw [h'.bidId, Except.ok.injEq] at hbidTx
  rw [h'.askId, Except.ok.injEq] at haskTx
  have hq := h.preparedFor
  have hq' := h'.preparedFor
  have hmarket : q.bidRow.marketID = q'.bidRow.marketID := by
    have hrows := h.rows
    have hrows' := h'.rows
    simp only [checkRows, checkRow, bind_ok_iff, revertIf_ok_iff, exists_const,
      not_not] at hrows hrows'
    exact p.uuid.string_injective (hrows.1.2.trans hrows'.1.2.symm)
  rw [Prepared.preimage, Prepared.preimage, hproxy _ _ h.network, hproxy _ _ h'.network,
    authorizationFromIntent_marketId hq.bidAuth, authorizationFromIntent_marketId hq'.bidAuth,
    authorizationFromIntent_txId hq.bidAuth, authorizationFromIntent_txId hq'.bidAuth,
    authorizationFromIntent_txId hq.askAuth, authorizationFromIntent_txId hq'.askAuth,
    hmarket, hbidTx, haskTx, hq.fillShares, hq'.fillShares, hq.executionYesPrice,
    hq'.executionYesPrice]

/-- Answers by a network that takes what it is given, and by a mirror that has caught up. -/
def World.granted (p : Platform) (nets : Str → Network) (w : World) :
    (r : SettlementRequest) → r.Answer
  | .isMatchExecutedV2 net _ matchID => .ok ((w.contract nets net).executedMatches matchID)
  | .execute _ _ _ => .ok "0.0.2@7".toList
  | .getReceipt _ => .ok receiptSuccess
  | .finalizeMatchV2 record txHash => (w.db.finalizeMatchV2 p.uuid record txHash).map Prod.snd
  | r => w.reply p r

def World.grant (p : Platform) (nets : Str → Network) (w : World) : Label :=
  .serve 0 (w.granted p nets) true

/-- What the network is given is new to it, and has succeeded when its receipt is asked for. -/
def World.grantable (w : World) : Bool :=
  match w.asking with
  | some (.execute _ _ _) => w.sent.isEmpty
  | some (.getReceipt txId) => w.sent.any fun s => s.txId = txId ∧ s.result = some true
  | _ => true

theorem World.grant_allowed {p : Platform} {nets : Str → Network} {w : World}
    (h : w.grantable = true) : w.Allowed p nets (w.grant p nets) := by
  intro handler r rest hhandler hprogram
  have hasking : w.asking = some r := by
    simp only [World.asking, hhandler, Option.bind_some, hprogram, Program.asks]
  rw [World.grantable, hasking] at h
  cases r with
  | isMatchExecutedV2 net contractID matchID =>
      simp only [World.granted]
      cases hexecuted : (w.contract nets net).executedMatches matchID with
      | false => trivial
      | true => exact hexecuted
  | execute net contractID calldata =>
      refine ⟨rfl, fun s hs => ?_⟩
      rw [List.isEmpty_iff.mp h] at hs
      exact absurd hs List.not_mem_nil
  | getReceipt txId =>
      intro _
      obtain ⟨s, hs, hfound⟩ := List.any_eq_true.mp h
      exact ⟨s, hs, by simpa using hfound⟩
  | finalizeMatchV2 record txHash =>
      simp only [World.granted]
      cases hresult : w.db.finalizeMatchV2 p.uuid record txHash with
      | error err => trivial
      | ok result => exact ⟨rfl, result.1, hresult⟩
  | _ => exact w.reply_honest _

section Grants

variable (p : Platform) (nets : Str → Network)

def World.grants : Nat → World → List Label
  | 0, _ => []
  | count + 1, w => w.grant p nets :: World.grants count (w.next p nets (w.grant p nets))

def World.allGrantable : Nat → World → Bool
  | 0, _ => true
  | count + 1, w => w.grantable && World.allGrantable count (w.next p nets (w.grant p nets))

def World.settlement (env : Env) (w : World) : List Label :=
  let submitted := w.grants p nets 1
  let ordered := (w.run p nets submitted).next p nets (.order 0 env)
  submitted ++ .order 0 env :: ordered.grants p nets 3

def World.settleable (env : Env) (w : World) : Bool :=
  w.allGrantable p nets 1 &&
    ((w.run p nets (w.grants p nets 1)).next p nets (.order 0 env)).allGrantable p nets 3

variable {p nets} {messages : Set ClobMatch}

theorem World.grant_of (w : World) : (w.grant p nets).Of messages := by
  intro net contractID calldata h
  exact absurd (Except.ok.inj h) (by decide)

theorem World.runs_grants {count : Nat} {w : World} (h : w.allGrantable p nets count = true) :
    w.Runs p nets (fun _ l => l.Of messages) (w.grants p nets count) := by
  induction count generalizing w with
  | zero => trivial
  | succ count ih =>
      rw [World.allGrantable, Bool.and_eq_true] at h
      exact ⟨World.grant_allowed h.1, w.grant_of, ih h.2⟩

theorem World.runs_settlement {env : Env} {w : World} (h : w.settleable p nets env = true) :
    w.Runs p nets (fun _ l => l.Of messages) (w.settlement p nets env) := by
  rw [World.settleable, Bool.and_eq_true] at h
  exact World.runs_append.mpr ⟨World.runs_grants h.1, trivial, trivial, World.runs_grants h.2⟩

end Grants

/-- A word behind its length, before the rest: an injective hash with short values. -/
def packWord (word rest : Nat) : Nat :=
  ((rest * 2 ^ (word.log2 + 1) + word) * 2 + 1) * 2 ^ (word.log2 + 1)

theorem odd_mul_pow_injective {k k' m m' : Nat}
    (h : (m * 2 + 1) * 2 ^ k = (m' * 2 + 1) * 2 ^ k') : k = k' ∧ m = m' := by
  have hle {k k' m m' : Nat} (h : (m * 2 + 1) * 2 ^ k = (m' * 2 + 1) * 2 ^ k') : k' ≤ k := by
    by_contra hlt
    obtain ⟨d, rfl⟩ := Nat.exists_eq_add_of_lt (Nat.not_le.mp hlt)
    rw [pow_succ, pow_add, show (m' * 2 + 1) * (2 ^ k * 2 ^ d * 2) =
      ((m' * 2 + 1) * 2 ^ d * 2) * 2 ^ k by ring] at h
    have hodd := Nat.eq_of_mul_eq_mul_right (Nat.two_pow_pos k) h
    omega
  have hk : k = k' := Nat.le_antisymm (hle h.symm) (hle h)
  subst hk
  have hodd := Nat.eq_of_mul_eq_mul_right (Nat.two_pow_pos k) h
  exact ⟨rfl, by omega⟩

theorem packWord_injective {word rest word' rest' : Nat}
    (h : packWord word rest = packWord word' rest') : word = word' ∧ rest = rest' := by
  obtain ⟨hlength, hvalue⟩ := odd_mul_pow_injective h
  have hword : word < 2 ^ (word.log2 + 1) := Nat.lt_log2_self
  have hword' : word' < 2 ^ (word.log2 + 1) := by
    rw [hlength]
    exact Nat.lt_log2_self
  rw [← hlength] at hvalue
  have hlow := congrArg (· % 2 ^ (word.log2 + 1)) hvalue
  simp only [Nat.mul_add_mod_of_lt hword, Nat.mul_add_mod_of_lt hword'] at hlow
  rw [← hlow] at hvalue
  exact ⟨hlow, Nat.eq_of_mul_eq_mul_right (Nat.two_pow_pos _) (Nat.add_right_cancel hvalue)⟩

theorem packWords_injective :
    Function.Injective fun words : List Nat => words.foldr packWord 0 := by
  have hpos (word rest : Nat) : packWord word rest ≠ 0 :=
    Nat.mul_ne_zero (Nat.succ_ne_zero _) (Nat.two_pow_pos _).ne'
  intro words
  induction words with
  | nil =>
      intro words' h
      cases words' with
      | nil => rfl
      | cons word rest => exact absurd h.symm (hpos word _)
  | cons word rest ih =>
      intro words' h
      cases words' with
      | nil => exact absurd h (hpos word _)
      | cons word' rest' =>
          obtain ⟨rfl, hrest⟩ := packWord_injective h
          rw [ih hrest]

def packingChain : Chain :=
  { sampleChain with keccak := fun words => words.foldr packWord 0 + 1 }

theorem packingChain_hashSound (known : Set Authorization) : packingChain.HashSound known :=
  hashSound_of_injective (fun _ _ h => packWords_injective (Nat.succ.inj h))
    (fun _ => Nat.succ_ne_zero _) known

def packingNetworks (_ : Str) : Network :=
  ⟨packingChain, sampleDeployment packingChain rfl⟩

def packingDelivered : World :=
  sampleWorld.next samplePlatform packingNetworks (.deliver sampleFill)

/-- The handler of the sample match is at its submission. -/
def packingRequests : List Label :=
  .deliver sampleFill :: World.replies samplePlatform packingNetworks 6 packingDelivered

abbrev requestingWorld : World := sampleWorld.run samplePlatform packingNetworks packingRequests

def sampleSettlement : List Label :=
  packingRequests ++ requestingWorld.settlement samplePlatform packingNetworks sampleWallets

theorem packingRequests_runs : sampleWorld.Runs samplePlatform packingNetworks
    (fun _ l => l.Of {sampleFill}) packingRequests := by
  have hreplies : packingDelivered.Runs samplePlatform packingNetworks
      (fun _ l => l.Of {sampleFill})
      (World.replies samplePlatform packingNetworks 6 packingDelivered) := by
    apply World.runs_replies
    intro w _ net contractID calldata h
    cases h
  have hfill : sampleFill.fillShares < 2 ^ 64 := by decide
  exact ⟨hfill, rfl, hreplies⟩

theorem sampleSettlement_runs : sampleWorld.Runs samplePlatform packingNetworks
    (fun _ l => l.Of {sampleFill}) sampleSettlement := by
  have hsettleable : requestingWorld.settleable samplePlatform packingNetworks sampleWallets =
      true := by
    decide +kernel
  exact World.runs_append.mpr ⟨packingRequests_runs, World.runs_settlement hsettleable⟩

theorem sampleWorld_fresh : sampleWorld.Fresh := by
  have hrows : sampleWorld.db.intents.rows = [sampleBid 0, sampleAsk] := rfl
  refine ⟨rfl, rfl, rfl, ?_, ?_⟩
  · intro row hrow
    rw [hrows, List.mem_pair] at hrow
    refine ⟨sampleRow_stored hrow, ?_⟩
    rcases hrow with rfl | rfl
    · exact ⟨rfl, rfl⟩
    · exact ⟨rfl, rfl⟩
  · intro net tx htx hsettle
    obtain rfl := List.mem_singleton.mp htx
    exact hsettle

theorem sampleFill_inWords : InWords sampleFill := by
  refine ⟨by decide, ?_⟩
  intro o ho
  rcases ho with ho | ho
  · cases ho
    decide
  · cases ho
    decide

abbrev settledWorld : World := sampleWorld.run samplePlatform packingNetworks sampleSettlement

/-- The handler has returned, and the match is delivered once more. -/
def redeliveredWorld : World :=
  settledWorld.run samplePlatform packingNetworks [.stop 0, .deliver sampleFill]

def sampleRedelivery : List Label :=
  [.stop 0, .deliver sampleFill] ++
    World.replies samplePlatform packingNetworks 4 redeliveredWorld

theorem sampleRedelivery_runs : settledWorld.Runs samplePlatform packingNetworks
    (fun _ l => l.Of {sampleFill}) sampleRedelivery := by
  have hfill : sampleFill.fillShares < 2 ^ 64 := by decide
  refine World.runs_append.mpr ⟨⟨trivial, trivial, hfill, rfl, trivial⟩, ?_⟩
  apply World.runs_replies
  intro w _ net contractID calldata h
  cases h

/-- The sample match is submitted, executed and finalized, and then delivered again: the second
handler takes it as done. -/
theorem finalized_exactly_once_sample :
    let w := sampleWorld.run samplePlatform packingNetworks (sampleSettlement ++ sampleRedelivery)
    w.Accounts samplePlatform packingNetworks ∧
      (w.db.matches_.rows.any fun M => M.status = .finalized) = true ∧
      (w.handlers.any fun h => h.program matches .ret (.done, none)) = true := by
  have hproxy (net : Str) (cfg : PrismV2Network)
      (hcfg : samplePlatform.getPrismV2Network net = .ok cfg) : cfg.proxyAddress = sampleProxy := by
    cases hcfg
    rfl
  refine ⟨?_, ?_, ?_⟩
  · refine finalized_exactly_once (fun _ => rfl) sampleSignatures ?_
      ((fillPreimages_subsingleton hproxy sampleFill).injOn _) sampleWorld_fresh
      (World.runs_append.mpr ⟨sampleSettlement_runs, sampleRedelivery_runs⟩)
      fun _ => packingChain_hashSound _
    intro m hm
    obtain rfl := Set.mem_singleton_iff.mp hm
    exact sampleFill_inWords
  · decide +kernel
  · decide +kernel

end PrismBackend.Api
