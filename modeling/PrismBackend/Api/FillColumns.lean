import PrismBackend.Api.Dispatch
import PrismBackend.Api.ExecutedLegs

/-!
# API: the fill columns of an order

Every step writes one of five things to the database. Whichever it is, the fill
columns of every order go on adding up its finalized matches, and these are
matches that the contract has executed.
-/

namespace PrismBackend.Api

open PrismBackend.Lib PrismBackend.Clob PrismBackend.PrismV2

/-! ## Columns -/

def Match.fills (order : OrderTerms) (M : Match) : Bool :=
  M.status = .finalized ∧ (M.txId1 = order.txID ∨ M.txId2 = order.txID)

def Match.sharesFor (order : OrderTerms) (M : Match) : Nat :=
  if M.fills order then M.fillShares.getD 0 else 0

def Match.collateralFor (order : OrderTerms) (M : Match) : Nat :=
  if M.fills order then
    legCollateralV2 (order.side.getD 0) (M.yesCollateral.getD 0) (M.noCollateral.getD 0)
  else 0

/-- The fill columns of every order add up its finalized matches. -/
def Db.Booked (db : Db) : Prop := ∀ row ∈ db.intents.rows,
  row.sharesFilled = db.matches_.sum (Match.sharesFor row.toOrderTerms) ∧
    row.collateralFilled = db.matches_.sum (Match.collateralFor row.toOrderTerms)

section Writes

variable (p : Platform) (nets : Str → Network)

/-- Matches are prepared, those that are finalized are executed, and fills are booked. -/
structure World.Recorded (messages : Set ClobMatch) (w : World) : Prop where
  prepared : ∀ M ∈ w.db.matches_.rows, ∃ q, w.Prepares p messages q ∧
    M.toMatchTerms = q.record.row.toMatchTerms ∧
    (M.status = .finalized → (w.contract nets q.cfg.net).executedMatches q.matchID = true)
  booked : w.db.Booked

/-- A row of an order that may have changed in its marks. -/
structure SameFills (row row' : PredictionIntent) : Prop where
  terms : row'.toOrderTerms = row.toOrderTerms
  sharesFilled : row'.sharesFilled = row.sharesFilled
  collateralFilled : row'.collateralFilled = row.collateralFilled

inductive World.Writes (messages : Set ClobMatch) (w : World) (db' : Db) : Prop
  | marks (hmatches : db'.matches_ = w.db.matches_)
      (hrows : ∀ row' ∈ db'.intents.rows, ∃ row ∈ w.db.intents.rows, SameFills row row')
  | order (row : PredictionIntent) (hnew : w.db.intents.find row.txID = none)
      (hunfilled : row.sharesFilled = 0 ∧ row.collateralFilled = 0)
      (hdb : db' = { w.db with intents := w.db.intents.insert row })
  | record (q : Prepared) (hq : w.Prepares p messages q)
      (hnew : w.db.matches_.find q.record.matchID = none)
      (hdb : db' = { w.db with matches_ := w.db.matches_.insert q.record.row })
  | mark (matchID : Str) (f : Match → Match) (hf : ∀ row, (f row).matchID = row.matchID)
      (hterms : ∀ row : Match, (f row).toMatchTerms = row.toMatchTerms)
      (hstatus : ∀ row, (f row).status ≠ .finalized)
      (hdb : db' = w.db.updateMatch matchID f hf)
  | finalize (q : Prepared) (hq : w.Prepares p messages q)
      (hexecuted : (w.contract nets q.cfg.net).executedMatches q.matchID = true) (txHash : Str)
      (hdb : w.db.finalizeMatchV2 p.uuid q.record txHash = .ok (db', true))

end Writes

/-! ## Updates of matches -/

theorem Db.updateMatch_sum (db : Db) (matchID : Str) (f : Match → Match)
    (hf : ∀ row, (f row).matchID = row.matchID) {M : Match}
    (hM : db.matches_.find matchID = some M) (column : Match → Nat) :
    (db.updateMatch matchID f hf).matches_.sum column + column M =
      db.matches_.sum column + column (if M.status = .finalized then M else f M) := by
  have hkeeps : ∀ row : Match,
      (if row.status = .finalized then row else f row).matchID = row.matchID := by
    intro row
    split
    · rfl
    · exact hf row
  have hsum : (db.matches_.modify matchID _ hkeeps).sum column + column M = _ :=
    Table.sum_modify hM column
  exact hsum

/-- An update that finalizes nothing keeps the terms of a match. -/
theorem Db.updateMatch_kept {db : Db} {matchID : Str} {f : Match → Match}
    {hf : ∀ row, (f row).matchID = row.matchID}
    (hterms : ∀ row : Match, (f row).toMatchTerms = row.toMatchTerms)
    (hstatus : ∀ row, (f row).status ≠ .finalized) {M' : Match}
    (hM' : M' ∈ (db.updateMatch matchID f hf).matches_.rows) :
    ∃ M ∈ db.matches_.rows, M'.toMatchTerms = M.toMatchTerms ∧
      (M'.status = .finalized → M.status = .finalized) := by
  obtain ⟨M, hM, rfl⟩ := List.mem_map.mp hM'
  refine ⟨M, hM, ?_⟩
  by_cases hkey : M.matchID = matchID
  · rw [if_pos hkey]
    dsimp only
    split
    · exact ⟨rfl, id⟩
    · exact ⟨hterms M, fun hfinal => absurd hfinal (hstatus M)⟩
  · rw [if_neg hkey]
    exact ⟨rfl, id⟩

/-! ## Columns of a match -/

section Columns

variable {order : OrderTerms} {M M' : Match}

theorem Match.columns_of_open (order : OrderTerms) (h : M.status ≠ .finalized) :
    M.sharesFor order = 0 ∧ M.collateralFor order = 0 := by
  have hfills : ¬M.fills order = true := by
    simp only [Match.fills, decide_eq_true_eq]
    exact fun hfills => h hfills.1
  exact ⟨if_neg hfills, if_neg hfills⟩

/-- An update of a match that finalizes nothing leaves the columns. -/
theorem Match.columns_of_update {f : Match → Match} (hstatus : ∀ row, (f row).status ≠ .finalized)
    (row : Match) :
    (if row.status = .finalized then row else f row).sharesFor order = row.sharesFor order ∧
      (if row.status = .finalized then row else f row).collateralFor order =
        row.collateralFor order := by
  by_cases h : row.status = .finalized
  · rw [if_pos h]
    exact ⟨rfl, rfl⟩
  · obtain ⟨hshares, hcollateral⟩ := Match.columns_of_open order (hstatus row)
    obtain ⟨hshares', hcollateral'⟩ := Match.columns_of_open order h
    rw [if_neg h, hshares, hcollateral, hshares', hcollateral']
    exact ⟨rfl, rfl⟩

end Columns

/-! ## Legs of a prepared match -/

/-- The order that a leg of a recorded match fills, and what it pays. -/
def MatchV2.txIdOf (record : MatchV2) : Leg → Uint128
  | .bid => record.bidTxID
  | .ask => record.askTxID

def MatchV2.collateralOf (record : MatchV2) : Leg → Nat
  | .bid => record.bidCollateral
  | .ask => record.askCollateral

/-- A leg of a prepared match beside the row of its order. -/
structure LegOfRow (p : Platform) (w : World) (q : Prepared) (leg : Leg) : Prop where
  auth : authorizationFromIntent p.uuid (q.row leg).toOrderTerms = .ok (q.auth leg)
  network : p.getPrismV2Network (q.row leg).net = .ok q.cfg
  holds : w.Holds (q.row leg)
  txID : (q.row leg).txID = q.record.txIdOf leg
  collateral : q.record.collateralOf leg = legCollateralV2 ((q.row leg).side.getD 0)
    q.record.yesCollateral q.record.noCollateral

section Legs

variable {p : Platform} {nets : Str → Network} {messages : Set ClobMatch} {w : World}
  {q : Prepared}

theorem World.Holds.terms {row row' : PredictionIntent} (h : w.Holds row)
    (hrow' : row' ∈ w.db.intents.rows) (hkey : row'.txID = row.txID) :
    row'.toOrderTerms = row.toOrderTerms := by
  obtain ⟨stored, hfind, hterms⟩ := h
  rw [← hkey, Table.find_key hrow', Option.some.injEq] at hfind
  rw [hfind]
  exact hterms

theorem World.Prepares.recordID (h : w.Prepares p messages q) :
    q.record.matchID = matchIDText q.matchID := by
  obtain ⟨m, _, bid, ask, hprepared, _⟩ := h
  exact hprepared.preparedFor.recordID

theorem World.Prepares.leg (h : w.Prepares p messages q) (leg : Leg) : LegOfRow p w q leg := by
  obtain ⟨m, _, bid, ask, hprepared, _, _, hbidRow, haskRow⟩ := h
  have hq := hprepared.preparedFor
  have hrows := hprepared.rows
  simp only [checkRows, bind_ok_iff, revertIf_ok_iff, exists_const, not_not] at hrows
  obtain ⟨_, _, _, _, hnet, _⟩ := hrows
  cases leg with
  | bid =>
      refine ⟨hq.bidAuth, hprepared.network, hbidRow, ?_, ?_⟩
      · exact (authorizationFromIntent_txId hq.bidAuth).symm.trans hq.bidTxID.symm
      · exact hq.bidCollateral.trans (by rw [← (authorizationFromIntent_kind hq.bidAuth).1]; rfl)
  | ask =>
      refine ⟨hq.askAuth, ?_, haskRow, ?_, ?_⟩
      · rw [Prepared.row, ← hnet]
        exact hprepared.network
      · exact (authorizationFromIntent_txId hq.askAuth).symm.trans hq.askTxID.symm
      · exact hq.askCollateral.trans (by rw [← (authorizationFromIntent_kind hq.askAuth).1]; rfl)

theorem World.Prepares.distinct (h : w.Prepares p messages q) :
    q.record.bidTxID ≠ q.record.askTxID := by
  have hbid := h.leg .bid
  have hask := h.leg .ask
  obtain ⟨m, _, bid, ask, hprepared, _, _, _, _⟩ := h
  have hq := hprepared.preparedFor
  intro hsame
  obtain ⟨row, hfind, hterms⟩ := hbid.holds
  have hrow := Table.find_eq_some.mp hfind
  have haskTerms := hask.holds.terms hrow.1 (by
    rw [hrow.2, hbid.txID, hask.txID]
    exact hsame)
  have hauth := hbid.auth
  rw [← hterms, haskTerms, hask.auth, Except.ok.injEq] at hauth
  have hisBid := hq.bid
  have hisAsk := hq.ask
  simp only [Prepared.auth] at hauth
  rw [← hauth, hisAsk] at hisBid
  exact absurd hisBid (by decide)

theorem World.Prepares.same_record {q' : Prepared} (h : w.Prepares p messages q)
    (hkeccak : ∀ text, (p.keccak256 text).length = 32) (hwords : ∀ m ∈ messages, InWords m)
    (hcollision : Set.InjOn p.keccak256 (fillPreimages p messages))
    (h' : w.Prepares p messages q') (hid : q.record.matchID = q'.record.matchID) :
    q.matchID = q'.matchID ∧ q.cfg = q'.cfg ∧ q.bidAuth = q'.bidAuth ∧ q.askAuth = q'.askAuth ∧
      q.record = q'.record := by
  rw [h.recordID, h'.recordID] at hid
  have hsame := matchIDText_injective hid
  exact ⟨hsame, h.same hkeccak hwords hcollision h' hsame⟩

/-- A row whose order is one of the two has the terms that the match was prepared from. -/
theorem World.Prepares.order (h : w.Prepares p messages q) {row : PredictionIntent}
    (hrow : row ∈ w.db.intents.rows)
    (hfills : q.record.bidTxID = row.txID ∨ q.record.askTxID = row.txID) :
    ∃ leg, q.record.txIdOf leg = row.txID ∧ row.toOrderTerms = (q.row leg).toOrderTerms := by
  have hleg (leg : Leg) (htx : q.record.txIdOf leg = row.txID) :
      row.toOrderTerms = (q.row leg).toOrderTerms :=
    (h.leg leg).holds.terms hrow (htx.symm.trans (h.leg leg).txID.symm)
  rcases hfills with hbid | hask
  · exact ⟨.bid, hbid, hleg .bid hbid⟩
  · exact ⟨.ask, hask, hleg .ask hask⟩

/-- What a finalized match adds to the columns of an order. -/
theorem World.Prepares.columns (h : w.Prepares p messages q) {row : PredictionIntent}
    (hrow : row ∈ w.db.intents.rows) {M : Match}
    (hterms : M.toMatchTerms = q.record.row.toMatchTerms) (hstatus : M.status = .finalized) :
    M.sharesFor row.toOrderTerms =
        (if row.txID = q.record.bidTxID then q.record.fillShares else 0) +
        (if row.txID = q.record.askTxID then q.record.fillShares else 0) ∧
      M.collateralFor row.toOrderTerms =
        (if row.txID = q.record.bidTxID then q.record.bidCollateral else 0) +
        (if row.txID = q.record.askTxID then q.record.askCollateral else 0) := by
  have hdistinct := h.distinct
  have hfills : M.fills row.toOrderTerms = true ↔
      (q.record.bidTxID = row.txID ∨ q.record.askTxID = row.txID) := by
    simp [Match.fills, hstatus, hterms, MatchV2.row]
  have hcollateral (leg : Leg) (htx : q.record.txIdOf leg = row.txID) :
      legCollateralV2 (row.side.getD 0) (M.yesCollateral.getD 0) (M.noCollateral.getD 0) =
        q.record.collateralOf leg := by
    have horder := (h.leg leg).holds.terms hrow (htx.symm.trans (h.leg leg).txID.symm)
    rw [(h.leg leg).collateral, hterms, horder]
    rfl
  have hshares : M.fillShares.getD 0 = q.record.fillShares := by
    rw [hterms]
    rfl
  unfold Match.sharesFor Match.collateralFor
  by_cases hbid : row.txID = q.record.bidTxID
  · have hask : row.txID ≠ q.record.askTxID := fun hask => hdistinct (hbid.symm.trans hask)
    rw [if_pos hbid, if_neg hask, if_pos (hfills.mpr (Or.inl hbid.symm)), if_pos hbid,
      if_neg hask, if_pos (hfills.mpr (Or.inl hbid.symm)), hshares, hcollateral .bid hbid.symm]
    exact ⟨rfl, rfl⟩
  · by_cases hask : row.txID = q.record.askTxID
    · rw [if_neg hbid, if_pos hask, if_pos (hfills.mpr (Or.inr hask.symm)), if_neg hbid,
        if_pos hask, if_pos (hfills.mpr (Or.inr hask.symm)), hshares,
        hcollateral .ask hask.symm]
      simp [MatchV2.collateralOf]
    · have hnone : ¬M.fills row.toOrderTerms = true := by
        rw [hfills]
        exact not_or.mpr ⟨Ne.symm hbid, Ne.symm hask⟩
      rw [if_neg hbid, if_neg hask, if_neg hnone, if_neg hbid, if_neg hask, if_neg hnone]
      exact ⟨rfl, rfl⟩

end Legs

/-! ## Finalization -/

theorem Db.addPredictionIntentFill_row {db db' : Db} {txID : Uint128} {shares collateral : Nat}
    (h : db.addPredictionIntentFill txID shares collateral = .ok db') {row' : PredictionIntent}
    (hrow' : row' ∈ db'.intents.rows) :
    ∃ row ∈ db.intents.rows, row'.toOrderTerms = row.toOrderTerms ∧
      row'.sharesFilled = row.sharesFilled + (if row.txID = txID then shares else 0) ∧
      row'.collateralFilled =
        row.collateralFilled + (if row.txID = txID then collateral else 0) := by
  obtain ⟨_, _, _, _, rfl⟩ := Db.addPredictionIntentFill_ok h
  obtain ⟨row, hrow, rfl⟩ := List.mem_map.mp hrow'
  refine ⟨row, hrow, ?_⟩
  by_cases htx : row.txID = txID
  · rw [if_pos htx, if_pos htx, if_pos htx]
    exact ⟨rfl, rfl, rfl⟩
  · rw [if_neg htx, if_neg htx, if_neg htx]
    exact ⟨rfl, rfl, rfl⟩

theorem Db.finalizeMatchV2_row {db db' : Db} {uuid : Uuid} {record : MatchV2} {txHash : Str}
    (h : db.finalizeMatchV2 uuid record txHash = .ok (db', true)) {row' : PredictionIntent}
    (hrow' : row' ∈ db'.intents.rows) :
    ∃ row ∈ db.intents.rows, row'.toOrderTerms = row.toOrderTerms ∧
      row'.sharesFilled = row.sharesFilled +
        ((if row.txID = record.bidTxID then record.fillShares else 0) +
          if row.txID = record.askTxID then record.fillShares else 0) ∧
      row'.collateralFilled = row.collateralFilled +
        ((if row.txID = record.bidTxID then record.bidCollateral else 0) +
          if row.txID = record.askTxID then record.askCollateral else 0) := by
  rcases Db.finalizeMatchV2_ok h with ⟨hfalse, _⟩ | ⟨_, _, middle, _, _, hbid, hask⟩
  · exact absurd hfalse (by decide)
  obtain ⟨between, hbetween, haskTerms, haskShares, haskCollateral⟩ :=
    Db.addPredictionIntentFill_row hask hrow'
  obtain ⟨row, hrow, hbidTerms, hbidShares, hbidCollateral⟩ :=
    Db.addPredictionIntentFill_row hbid hbetween
  refine ⟨row, hrow, haskTerms.trans hbidTerms, ?_, ?_⟩
  · rw [haskShares, hbidShares, hbidTerms, Nat.add_assoc]
  · rw [haskCollateral, hbidCollateral, hbidTerms, Nat.add_assoc]

theorem Db.finalizeMatchV2_sum {db db' : Db} {uuid : Uuid} {record : MatchV2} {txHash : Str}
    (h : db.finalizeMatchV2 uuid record txHash = .ok (db', true)) :
    ∃ M ∈ db.matches_.rows, M.matchID = record.matchID ∧
      ∀ column : Match → Nat, (∀ M : Match, M.status ≠ .finalized → column M = 0) →
        db'.matches_.sum column = db.matches_.sum column + column (finalizedMatch txHash M) := by
  rcases Db.finalizeMatchV2_ok h with ⟨hfalse, _⟩ | ⟨_, M, middle, hM, hstatus, hbid, hask⟩
  · exact absurd hfalse (by decide)
  have hmatches : db'.matches_ = (db.finalizeMatch record.matchID txHash).matches_ := by
    obtain ⟨_, _, _, _, rfl⟩ := Db.addPredictionIntentFill_ok hask
    obtain ⟨_, _, _, _, rfl⟩ := Db.addPredictionIntentFill_ok hbid
    rfl
  obtain ⟨hmem, hkey⟩ := Table.find_eq_some.mp hM
  refine ⟨M, hmem, hkey, ?_⟩
  intro column hopen
  have hsum : (db.finalizeMatch record.matchID txHash).matches_.sum column + column M =
      db.matches_.sum column +
        column (if M.status = .finalized then M else finalizedMatch txHash M) :=
    db.updateMatch_sum _ (finalizedMatch txHash) (fun _ => rfl) hM column
  rw [hopen M hstatus, if_neg hstatus, Nat.add_zero] at hsum
  rw [hmatches]
  exact hsum

theorem Db.finalizeMatchV2_mem {db db' : Db} {uuid : Uuid} {record : MatchV2} {txHash : Str}
    (h : db.finalizeMatchV2 uuid record txHash = .ok (db', true)) {M' : Match}
    (hM' : M' ∈ db'.matches_.rows) :
    ∃ M ∈ db.matches_.rows, M'.toMatchTerms = M.toMatchTerms ∧
      (M'.status = .finalized → M.status = .finalized ∨ M.matchID = record.matchID) := by
  rcases Db.finalizeMatchV2_matches h with hsame | hfinal
  · rw [hsame] at hM'
    exact ⟨M', hM', rfl, Or.inl⟩
  · rw [hfinal] at hM'
    obtain ⟨M, hM, rfl⟩ := List.mem_map.mp hM'
    refine ⟨M, hM, ?_⟩
    by_cases hkey : M.matchID = record.matchID
    · rw [if_pos hkey]
      refine ⟨?_, fun _ => Or.inr hkey⟩
      dsimp only
      split
      · rfl
      · rfl
    · rw [if_neg hkey]
      exact ⟨rfl, Or.inl⟩

/-! ## Steps -/

section Steps

variable {p : Platform} {nets : Str → Network} {messages : Set ClobMatch} {w : World}

theorem World.Writes.same {db' : Db} (h : db' = w.db) : w.Writes p nets messages db' :=
  .marks (by rw [h]) (by
    rw [h]
    exact fun row hrow => ⟨row, hrow, rfl, rfl, rfl⟩)

theorem World.Writes.map {db' : Db} (f : PredictionIntent → PredictionIntent)
    (hmatches : db'.matches_ = w.db.matches_)
    (hrows : db'.intents.rows = w.db.intents.rows.map f) (hf : ∀ row, SameFills row (f row)) :
    w.Writes p nets messages db' := by
  refine .marks hmatches ?_
  intro row' hrow'
  rw [hrows] at hrow'
  obtain ⟨row, hrow, rfl⟩ := List.mem_map.mp hrow'
  exact ⟨row, hrow, hf row⟩

theorem World.writes_effect (htracks : w.Tracks p nets messages)
    (hdispatched : w.Dispatched p nets messages)
    (hkeccak : ∀ text, (p.keccak256 text).length = 32)
    (hsignatures : ∀ row signature, p.signatureMap row = .ok signature →
      signature.length < 2 ^ 32) (hwords : ∀ m ∈ messages, InWords m) {h : Handler}
    (hh : h ∈ w.handlers) {r : SettlementRequest} {rest} (hprogram : h.program = .call r rest)
    (answer : r.Answer) : w.Writes p nets messages (w.effect p r answer).db := by
  cases r with
  | createMatchV2 record =>
      obtain ⟨q, later, hq, _, hpath⟩ := htracks.prepares hh id hprogram
      obtain rfl := settlePrepared_create hpath
      simp only [World.effect, Db.createMatchV2]
      split
      · exact .same rfl
      · next hnew => exact .record q hq hnew rfl
  | markMatchFailed matchID cause =>
      exact .mark matchID (failedMatch cause) (fun _ => rfl) (fun _ => rfl)
        (fun _ => by simp [failedMatch]) rfl
  | markMatchSubmitted matchID hederaTxID =>
      exact .mark matchID (submittedMatch hederaTxID) (fun _ => rfl) (fun _ => rfl)
        (fun _ => by simp [submittedMatch]) rfl
  | finalizeMatchV2 record txHash =>
      obtain ⟨q, later, hq, hsub, hpath⟩ := htracks.prepares hh id hprogram
      obtain ⟨rfl, hevidence⟩ := settlePrepared_finalize hpath
      have hexecuted := hdispatched.executed hkeccak hsignatures hwords hq
        (fun r a ha => htracks.informed h hh r a (hsub _ ha)) hevidence
      simp only [World.effect]
      cases hfinal : w.db.finalizeMatchV2 p.uuid q.record txHash with
      | error err => exact .same rfl
      | ok result =>
          obtain ⟨db', applied⟩ := result
          cases applied with
          | true => exact .finalize q hq hexecuted txHash hfinal
          | false =>
              rcases Db.finalizeMatchV2_ok hfinal with ⟨_, hsame⟩ | ⟨htrue, _⟩
              · exact .same hsame
              · exact absurd htrue (by decide)
  | _ => exact .same rfl

theorem World.writes_next (htracks : w.Tracks p nets messages)
    (hdispatched : w.Dispatched p nets messages)
    (hkeccak : ∀ text, (p.keccak256 text).length = 32)
    (hsignatures : ∀ row signature, p.signatureMap row = .ok signature →
      signature.length < 2 ^ 32) (hwords : ∀ m ∈ messages, InWords m) {l : Label}
    (hallowed : w.Allowed p nets l) : w.Writes p nets messages (w.next p nets l).db := by
  cases l with
  | serve i answer commit =>
      simp only [World.next, World.serve]
      split
      · exact .same rfl
      next h hh =>
      split
      · exact .same rfl
      next r rest hprogram =>
      cases commit with
      | false => exact .same rfl
      | true =>
          exact World.writes_effect htracks hdispatched hkeccak hsignatures hwords
            (List.mem_of_getElem? hh) hprogram (answer r)
  | order k env =>
      rw [World.next, World.order_db]
      exact .same rfl
  | createOrder row =>
      cases hfind : w.db.intents.find row.txID with
      | none => exact .order row hfind hallowed.2 rfl
      | some taken =>
          refine .same ?_
          show { w.db with intents := w.db.intents.insert row } = w.db
          rw [Table.insert_of_taken hfind]
  | cancel txID =>
      refine .map _ rfl rfl ?_
      intro row
      dsimp only
      split
      · exact ⟨rfl, rfl, rfl⟩
      · exact ⟨rfl, rfl, rfl⟩
  | evict txID =>
      refine .map _ rfl rfl ?_
      intro row
      dsimp only
      split
      · exact ⟨rfl, rfl, rfl⟩
      · exact ⟨rfl, rfl, rfl⟩
  | fullyMatched marketID txID =>
      refine .map _ rfl rfl ?_
      intro row
      dsimp only
      split
      · exact ⟨rfl, rfl, rfl⟩
      · exact ⟨rfl, rfl, rfl⟩
  | markets rows => exact .marks rfl fun row hrow => ⟨row, hrow, rfl, rfl, rfl⟩
  | _ => exact .same rfl

/-- A match that fills an order that is not stored yet is not recorded. -/
theorem World.Recorded.unfilled (h : w.Recorded p nets messages) {order : OrderTerms}
    (hnew : w.db.intents.find order.txID = none) {M : Match} (hM : M ∈ w.db.matches_.rows) :
    ¬M.fills order = true := by
  obtain ⟨q, hq, hterms, _⟩ := h.prepared M hM
  have hstored (leg : Leg) : q.record.txIdOf leg ≠ order.txID := by
    intro htx
    obtain ⟨row, hfind, _⟩ := (hq.leg leg).holds
    rw [(hq.leg leg).txID, htx, hnew] at hfind
    exact absurd hfind (by simp)
  simp only [Match.fills, hterms, MatchV2.row, decide_eq_true_eq, not_and, not_or]
  exact fun _ => ⟨hstored .bid, hstored .ask⟩

theorem World.Recorded.next (h : w.Recorded p nets messages) {w' : World}
    (hkeccak : ∀ text, (p.keccak256 text).length = 32) (hwords : ∀ m ∈ messages, InWords m)
    (hcollision : Set.InjOn p.keccak256 (fillPreimages p messages))
    (hlater : w.Later nets w') (hwrites : w.Writes p nets messages w'.db) :
    w'.Recorded p nets messages := by
  have hkept {M M' : Match} (hM : M ∈ w.db.matches_.rows)
      (hterms : M'.toMatchTerms = M.toMatchTerms)
      (hstatus : M'.status = .finalized → M.status = .finalized) :
      ∃ q, w'.Prepares p messages q ∧ M'.toMatchTerms = q.record.row.toMatchTerms ∧
        (M'.status = .finalized →
          (w'.contract nets q.cfg.net).executedMatches q.matchID = true) := by
    obtain ⟨q, hq, hrecord, hexecuted⟩ := h.prepared M hM
    exact ⟨q, hq.later hlater, hterms.trans hrecord,
      fun hfinal => hlater.executed _ _ (hexecuted (hstatus hfinal))⟩
  cases hwrites with
  | marks hmatches hrows =>
      refine ⟨?_, ?_⟩
      · rw [hmatches]
        exact fun M hM => hkept hM rfl id
      · intro row' hrow'
        obtain ⟨row, hrow, hsame⟩ := hrows row' hrow'
        obtain ⟨hshares, hcollateral⟩ := h.booked row hrow
        rw [hmatches, hsame.terms, hsame.sharesFilled, hsame.collateralFilled]
        exact ⟨hshares, hcollateral⟩
  | order row hnew hunfilled hdb =>
      refine ⟨?_, ?_⟩
      · rw [hdb]
        exact fun M hM => hkept hM rfl id
      · intro row' hrow'
        rw [hdb] at hrow' ⊢
        rcases Table.mem_of_mem_insert hrow' with hold | rfl
        · exact h.booked row' hold
        · rw [hunfilled.1, hunfilled.2]
          refine ⟨(Table.sum_eq_zero ?_).symm, (Table.sum_eq_zero ?_).symm⟩
          · exact fun M hM => if_neg (h.unfilled hnew hM)
          · exact fun M hM => if_neg (h.unfilled hnew hM)
  | record q hq hnew hdb =>
      have hpending : q.record.row.status ≠ .finalized := by simp [MatchV2.row]
      refine ⟨?_, ?_⟩
      · intro M hM
        rw [hdb] at hM
        rcases Table.mem_of_mem_insert hM with hold | rfl
        · exact hkept hold rfl id
        · exact ⟨q, hq.later hlater, rfl, fun hfinal => absurd hfinal hpending⟩
      · intro row hrow
        rw [hdb] at hrow ⊢
        obtain ⟨hshares, hcollateral⟩ := h.booked row hrow
        have hsum (column : Match → Nat) (hcolumn : column q.record.row = 0) :
            (w.db.matches_.insert q.record.row).sum column = w.db.matches_.sum column := by
          rw [Table.sum_insert hnew, hcolumn, Nat.add_zero]
        dsimp only
        rw [hsum _ (Match.columns_of_open _ hpending).1,
          hsum _ (Match.columns_of_open _ hpending).2]
        exact ⟨hshares, hcollateral⟩
  | mark matchID f hf hterms hstatus hdb =>
      refine ⟨?_, ?_⟩
      · intro M' hM'
        rw [hdb] at hM'
        obtain ⟨M, hM, hsame, hfinal⟩ := Db.updateMatch_kept hterms hstatus hM'
        exact hkept hM hsame hfinal
      · intro row hrow
        rw [hdb] at hrow ⊢
        obtain ⟨hshares, hcollateral⟩ := h.booked row hrow
        rw [Db.updateMatch,
          Table.sum_modify_same _ _ _ _ fun M => (Match.columns_of_update hstatus M).1,
          Table.sum_modify_same _ _ _ _ fun M => (Match.columns_of_update hstatus M).2]
        exact ⟨hshares, hcollateral⟩
  | finalize q hq hexecuted txHash hdb =>
      have hsame {M : Match} (hM : M ∈ w.db.matches_.rows) (hkey : M.matchID = q.record.matchID) :
          M.toMatchTerms = q.record.row.toMatchTerms := by
        obtain ⟨q', hq', hterms, _⟩ := h.prepared M hM
        rw [hterms] at hkey ⊢
        rw [(hq'.same_record hkeccak hwords hcollision hq hkey).2.2.2.2]
      refine ⟨?_, ?_⟩
      · intro M' hM'
        obtain ⟨M, hM, hterms, hstatus⟩ := Db.finalizeMatchV2_mem hdb hM'
        by_cases hkey : M.matchID = q.record.matchID
        · exact ⟨q, hq.later hlater, hterms.trans (hsame hM hkey),
            fun _ => hlater.executed _ _ hexecuted⟩
        · exact hkept hM hterms fun hfinal => (hstatus hfinal).resolve_right hkey
      · intro row' hrow'
        obtain ⟨row, hrow, hterms, hshares, hcollateral⟩ := Db.finalizeMatchV2_row hdb hrow'
        obtain ⟨M, hM, hkey, hsum⟩ := Db.finalizeMatchV2_sum hdb
        obtain ⟨hbooked, hbookedCollateral⟩ := h.booked row hrow
        have hfinal : (finalizedMatch txHash M).toMatchTerms = q.record.row.toMatchTerms := by
          rw [← hsame hM hkey]
          rfl
        obtain ⟨haddedShares, haddedCollateral⟩ := hq.columns hrow hfinal rfl
        rw [hterms, hshares, hcollateral, hbooked, hbookedCollateral,
          hsum _ fun M hopen => (Match.columns_of_open _ hopen).1,
          hsum _ fun M hopen => (Match.columns_of_open _ hopen).2, haddedShares, haddedCollateral]
        exact ⟨rfl, rfl⟩

end Steps

end PrismBackend.Api
