import PrismBackend.Lib.Entries
import PrismBackend.Clob.Replay
import PrismBackend.Api.Outbox
import PrismBackend.Api.SellAdmission

/-!
# API: time priority after a rebuild

`TriggerRecreateClob` publishes the open orders of a market as the database lists
them, and the query says nothing of their order. What the book makes of it is the
order in which the messages are read.
-/

namespace PrismBackend.Api

open PrismBackend.Lib PrismBackend.Clob PrismBackend.PrismV2

/-! ## What a rebuild publishes -/

/-- `GetAllMatchesForMarketIdTxId`. -/
def Db.matchesOf (db : Db) (marketID txID : Uint128) : List Match :=
  db.matches_.rows.filter fun row =>
    row.marketID == marketID && (row.txId1 == txID || row.txId2 == txID)

/-- The order that is published for a row, if any of it is left to restore. -/
def restored (p : Platform) (db : Db) (row : PredictionIntent) : Option CreateOrderRequestClob :=
  match clobOrderFromIntent p.uuid row with
  | .error _ => none
  | .ok order =>
    let order := (db.matchesOf row.marketID row.txID).foldl withUnsettledFill order
    if order.sharesFilled ≥ order.qtyShares then none else some order

def published (answers : List ((r : OrderRequest) × r.Answer)) : List Fields :=
  answers.filterMap fun
    | ⟨.publishWithID _ payload _, .ok _⟩ => some payload
    | _ => none

def MatchesRead (db : Db) (answers : List ((r : OrderRequest) × r.Answer)) : Prop :=
  ∀ marketID txID rows, ⟨.getAllMatchesForMarketIdTxId marketID txID, .ok rows⟩ ∈ answers →
    rows.Perm (db.matchesOf marketID txID)

/-- A rebuild of one market that came to its end: the answers that it had, with the open orders
listed in some order. -/
structure Rebuild (p : Platform) (db : Db) (market : MarketRow)
    (answers : List ((r : OrderRequest) × r.Answer)) : Prop where
  path : (restoreMarkets p [market]).Path answers (.ret (.ok ()))
  rows : ∀ marketId rows, ⟨.getAllOpenPredictionIntentsByMarketId marketId, .ok rows⟩ ∈ answers →
    rows.Perm (db.openPredictionIntents market.marketID)
  matches_ : MatchesRead db answers

section Rebuild

variable {p : Platform} {db : Db} {market : MarketRow}
  {answers : List ((r : OrderRequest) × r.Answer)}

theorem published_append (answers answers' : List ((r : OrderRequest) × r.Answer)) :
    published (answers ++ answers') = published answers ++ published answers' :=
  List.filterMap_append

/-- The fills of an order add up in any order. -/
instance : RightCommutative withUnsettledFill where
  right_comm o m m' := by
    have hadd (x y z : Nat) : add64 (add64 x y) z = add64 (add64 x z) y := by
      simp only [add64]
      omega
    unfold withUnsettledFill
    by_cases hm : m.protocolVersion ≠ 2 ∨ m.status = .finalized
    · simp only [if_pos hm]
    by_cases hm' : m'.protocolVersion ≠ 2 ∨ m'.status = .finalized
    · simp only [if_pos hm']
    simp only [if_neg hm, if_neg hm']
    cases parseNumeric m.fillShares with
    | error err => rfl
    | ok fill =>
        cases parseNumeric m'.fillShares with
        | error err => rfl
        | ok fill' =>
            dsimp only
            rw [hadd _ fill fill']
            congr 1
            exact hadd _ _ _

/-- The loop of the rebuild publishes what is left to restore of each row, in the order of the
rows. -/
theorem restoreOrders_published {rows : List PredictionIntent} (hmatches : MatchesRead db answers)
    (h : (restoreOrders p rows).Path answers (.ret (.ok ()))) :
    published answers = (rows.filterMap (restored p db)).map marshalOrder := by
  induction rows generalizing answers with
  | nil =>
      obtain ⟨rfl, _⟩ := Program.path_ret_iff.mp h
      rfl
  | cons row rows ih =>
      unfold restoreOrders at h
      rw [List.filterMap_cons]
      cases horder : clobOrderFromIntent p.uuid row with
      | error err =>
          rw [horder] at h
          have hnone : restored p db row = none := by rw [restored, horder]
          rw [hnone]
          exact ih hmatches h
      | ok order =>
          rw [horder] at h
          obtain ⟨found, earlier, later, rfl, hfound, hrest⟩ := Program.path_andThen_ret h
          obtain rfl := Program.path_request (path_ask hfound)
          have hsame := (hmatches _ _ _
            (List.mem_append_left _ (List.mem_singleton_self _))).foldl_eq
            (f := withUnsettledFill) order
          have hlater : MatchesRead db later := fun _ _ _ hmem =>
            hmatches _ _ _ (List.mem_append_right _ hmem)
          dsimp only at hrest
          rw [hsame] at hrest
          rw [published_append]
          show published later = _
          split at hrest
          · next hfull =>
            have hnone : restored p db row = none := by
              rw [restored, horder]
              exact if_pos hfull
            rw [hnone]
            exact ih hlater hrest
          · next hleft =>
            have hsome : restored p db row = some
                ((db.matchesOf row.marketID row.txID).foldl withUnsettledFill order) := by
              rw [restored, horder]
              exact if_neg hleft
            obtain ⟨_, publish, later', rfl, hpublish, hmarks⟩ := Program.path_andThen_ret hrest
            obtain ⟨_, mark, later'', rfl, hmark, hgoesOn⟩ := Program.path_andThen_ret hmarks
            obtain rfl := Program.path_request (path_ask hpublish)
            obtain rfl := Program.path_request (path_ask hmark)
            have hnext := ih (fun _ _ _ hmem => hlater _ _ _
              (List.mem_append_right _ (List.mem_append_right _ hmem))) hgoesOn
            rw [hsome]
            exact congrArg (_ :: ·) hnext

theorem restoreOrders_ends (p : Platform) (db : Db) (rows : List PredictionIntent) :
    ∃ answers, (restoreOrders p rows).Path answers (.ret (.ok ())) ∧ MatchesRead db answers ∧
      ∀ marketId rows',
        ⟨.getAllOpenPredictionIntentsByMarketId marketId, .ok rows'⟩ ∉ answers := by
  induction rows with
  | nil => exact ⟨[], .nil _, fun _ _ _ hmem => absurd hmem List.not_mem_nil,
      fun _ _ => List.not_mem_nil⟩
  | cons row rows ih =>
      obtain ⟨answers, hpath, hmatches, hreads⟩ := ih
      unfold restoreOrders
      cases horder : clobOrderFromIntent p.uuid row with
      | error err => exact ⟨answers, hpath, hmatches, hreads⟩
      | ok order =>
          have hread : MatchesRead db
              (⟨.getAllMatchesForMarketIdTxId row.marketID row.txID,
                .ok (db.matchesOf row.marketID row.txID)⟩ :: answers) := by
            intro marketID txID rows' hmem
            rcases List.mem_cons.mp hmem with heq | hmem
            · cases heq
              exact .refl _
            · exact hmatches _ _ _ hmem
          dsimp only
          by_cases hfull : ((db.matchesOf row.marketID row.txID).foldl withUnsettledFill
              order).sharesFilled ≥ ((db.matchesOf row.marketID row.txID).foldl withUnsettledFill
                order).qtyShares
          · refine ⟨_ :: answers, .cons (.ok (db.matchesOf row.marketID row.txID)) ?_, hread, ?_⟩
            · show (if _ then _ else _ : OrderM (Except String Unit)).Path _ _
              rw [if_pos hfull]
              exact hpath
            · intro marketId rows' hmem
              rcases List.mem_cons.mp hmem with heq | hmem
              · cases heq
              · exact hreads _ _ hmem
          · refine ⟨⟨_, (.ok (db.matchesOf row.marketID row.txID) : Except String (List Match))⟩ ::
              ⟨.publishWithID subjectClobOrders (marshalOrder
                ((db.matchesOf row.marketID row.txID).foldl withUnsettledFill order)) [],
                (.ok () : Except String Unit)⟩ ::
              ⟨.markPredictionIntentAsRegenerated (p.uuid.string row.txID),
                (.ok () : Except String Unit)⟩ :: answers, .cons _ ?_, ?_, ?_⟩
            · show (if _ then _ else _ : OrderM (Except String Unit)).Path _ _
              rw [if_neg hfull]
              exact .cons _ (.cons _ hpath)
            · intro marketID txID rows' hmem
              simp only [List.mem_cons, reduceCtorEq, Sigma.mk.injEq, false_and, false_or] at hmem
              exact hread _ _ _ (List.mem_cons.mpr (hmem.imp_left fun h => by
                obtain ⟨h, h'⟩ := h
                cases h
                exact Sigma.ext rfl h'))
            · intro marketId rows' hmem
              simp only [List.mem_cons, reduceCtorEq, Sigma.mk.injEq, false_and, false_or] at hmem
              exact hreads _ _ hmem

theorem Rebuild.published (h : Rebuild p db market answers) :
    ∃ rows : List PredictionIntent, rows.Perm (db.openPredictionIntents market.marketID) ∧
      Api.published answers = (rows.filterMap (restored p db)).map marshalOrder := by
  obtain ⟨hpath, hrows, hmatches⟩ := h
  obtain ⟨_, create, later, rfl, hcreate, hopens⟩ := Program.path_andThen_ret hpath
  obtain ⟨rows, reads, later', rfl, hread, hrestores⟩ := Program.path_andThen_ret hopens
  obtain ⟨_, restores, rest, rfl, hrestore, hend⟩ := Program.path_andThen_ret hrestores
  obtain rfl := Program.path_request (path_ask hcreate)
  obtain rfl := Program.path_request (path_ask hread)
  obtain ⟨rfl, _⟩ := Program.path_ret_iff.mp hend
  rw [List.append_nil] at hrows hmatches ⊢
  have hread : MatchesRead db restores := fun _ _ _ hmem =>
    hmatches _ _ _ (List.mem_append_right _ (List.mem_append_right _ hmem))
  have hpublished := restoreOrders_published hread hrestore
  refine ⟨rows, hrows (p.uuid.string market.marketID) rows ?_, hpublished⟩
  exact List.mem_append_right _ (List.mem_append_left _ (List.mem_singleton_self _))

theorem exists_rebuild {rows : List PredictionIntent}
    (h : rows.Perm (db.openPredictionIntents market.marketID)) :
    ∃ answers, Rebuild p db market answers ∧
      Api.published answers = (rows.filterMap (restored p db)).map marshalOrder := by
  obtain ⟨answers, hpath, hmatches, hreads⟩ := restoreOrders_ends p db rows
  refine ⟨⟨.createMarketOnClob (p.uuid.string market.marketID), (.ok () : Except String Unit)⟩ ::
    ⟨.getAllOpenPredictionIntentsByMarketId (p.uuid.string market.marketID),
      (.ok rows : Except String (List PredictionIntent))⟩ :: (answers ++ []), ⟨?_, ?_, ?_⟩, ?_⟩
  · exact .cons _ (.cons _ (hpath.andThen (.nil _)))
  · intro marketId rows' hmem
    simp only [List.append_nil, List.mem_cons, reduceCtorEq, Sigma.mk.injEq, false_and,
      false_or] at hmem
    rcases hmem with ⟨hid, hrows⟩ | hmem
    · cases hid
      cases hrows
      exact h
    · exact absurd hmem (hreads _ _)
  · intro marketID txID rows' hmem
    simp only [List.append_nil, List.mem_cons, reduceCtorEq, Sigma.mk.injEq, false_and,
      false_or] at hmem
    exact hmatches _ _ _ hmem
  · have hpublished := restoreOrders_published hmatches hpath
    rw [List.append_nil]
    exact hpublished

/-! ## What the CLOB reads -/

def readMessages (messages : List Fields) (times : List Nat) : List Reading :=
  (messages.zip times).filterMap fun m => (readOrder m.1).map (·, m.2)

theorem readMessages_marshal {orders : List CreateOrderRequestClob}
    (h : ∀ o ∈ orders, TypedOrder o) (times : List Nat) :
    readMessages (orders.map marshalOrder) times = orders.zip times := by
  induction orders generalizing times with
  | nil => rfl
  | cons o orders ih =>
      cases times with
      | nil => rfl
      | cons time times =>
          have hread := readOrder_marshalOrder (h o List.mem_cons_self)
          have hrest := ih (fun o' ho' => h o' (List.mem_cons_of_mem o ho')) times
          unfold readMessages at hrest ⊢
          rw [List.map_cons, List.zip_cons_cons, List.filterMap_cons, hread, hrest]
          rfl

theorem withUnsettledFills_fills (order : CreateOrderRequestClob) (ms : List Match) :
    ∃ shares collateral, ms.foldl withUnsettledFill order =
      { order with sharesFilled := shares, collateralFilled := collateral } := by
  induction ms generalizing order with
  | nil => exact ⟨order.sharesFilled, order.collateralFilled, rfl⟩
  | cons m ms ih =>
      obtain ⟨shares, collateral, hrest⟩ := ih (withUnsettledFill order m)
      refine ⟨shares, collateral, ?_⟩
      rw [List.foldl_cons, hrest]
      unfold withUnsettledFill
      split
      · rfl
      · split <;> rfl

/-- What is published for a row is its order, with shares left. -/
theorem restored_eq_some {row : PredictionIntent} {o : CreateOrderRequestClob}
    (h : restored p db row = some o) :
    o.txId = p.uuid.string row.txID ∧ o.marketId = p.uuid.string row.marketID ∧
      0 < remainingShares o := by
  unfold restored at h
  split at h
  · exact absurd h (by simp)
  · next order horder =>
    dsimp only at h
    split at h
    · exact absurd h (by simp)
    · next hleft =>
      cases h
      obtain ⟨shares, collateral, hfills⟩ := withUnsettledFills_fills order
        (db.matchesOf row.marketID row.txID)
      rw [hfills] at hleft ⊢
      simp only [clobOrderFromIntent, bind_ok_iff, Except.ok.injEq] at horder
      obtain ⟨_, _, _, _, _, _, rfl⟩ := horder
      exact ⟨rfl, rfl, Nat.sub_pos_of_lt (not_le.mp hleft)⟩

theorem restored_typed {row : PredictionIntent} {o : CreateOrderRequestClob}
    (haccepted : Accepted p row) (h : restored p db row = some o) : TypedOrder o := by
  unfold restored at h
  split at h
  · exact absurd h (by simp)
  · next order horder =>
    dsimp only at h
    split at h
    · exact absurd h (by simp)
    · cases h
      exact (Denotes.withUnsettledFills (haccepted.denotes horder) _).2

theorem restored_ids (p : Platform) (db : Db) (rows : List PredictionIntent) :
    ((rows.filterMap (restored p db)).map (·.txId)).Sublist
      (rows.map fun row => p.uuid.string row.txID) := by
  induction rows with
  | nil => exact .slnil
  | cons row rows ih =>
      rw [List.filterMap_cons, List.map_cons]
      cases hrow : restored p db row with
      | none => exact ih.cons _
      | some o =>
          rw [List.map_cons, (restored_eq_some hrow).1]
          exact ih.cons_cons _

theorem Db.mem_openPredictionIntents {marketID : Uint128} {row : PredictionIntent}
    (h : row ∈ db.openPredictionIntents marketID) : row.marketID = marketID := by
  unfold Db.openPredictionIntents at h
  split at h
  · simp only [List.mem_filter, Bool.and_eq_true, beq_iff_eq] at h
    exact h.2.1
  · exact absurd h List.not_mem_nil

theorem Db.openPredictionIntents_rows {marketID : Uint128} {row : PredictionIntent}
    (h : row ∈ db.openPredictionIntents marketID) :
    row ∈ db.intents.rows ∧ isOpenPredictionIntent row = true := by
  unfold Db.openPredictionIntents at h
  split at h
  · simp only [List.mem_filter, Bool.and_eq_true] at h
    exact ⟨h.1, h.2.2⟩
  · exact absurd h List.not_mem_nil

theorem Db.nodup_openPredictionIntents (p : Platform) (db : Db) (marketID : Uint128) :
    ((db.openPredictionIntents marketID).map fun row => p.uuid.string row.txID).Nodup := by
  have hids : ((db.openPredictionIntents marketID).map fun row => row.txID).Nodup := by
    unfold Db.openPredictionIntents
    split
    · exact db.intents.nodup.sublist (List.filter_sublist.map _)
    · exact List.nodup_nil
  have hmapped := hids.map p.uuid.string_injective
  rwa [List.map_map] at hmapped

/-! ## Time priority -/

/-- The row of the first order was created before that of the second. -/
def CreatedBefore (p : Platform) (rows : List PredictionIntent) (o o' : CreateOrderRequestClob) :
    Prop :=
  [o.txId, o'.txId].Sublist (rows.map fun row => p.uuid.string row.txID)

/-- On both sides of the book, orders of one limit stand as their rows were created. -/
def RankedAsCreated (p : Platform) (rows : List PredictionIntent) (book : Book) : Prop :=
  ∀ side, side = book.bids ∨ side = book.asks →
    side.Pairwise fun o o' => o.limitYesPrice = o'.limitYesPrice → CreatedBefore p rows o o'

/-- The rows of a table stand as they were created. Whatever a process that starts anew at a time
has read of what the rebuild published, its book ranks the open orders in that order. -/
def KeepsTimePriority (p : Platform) (db : Db) (market : MarketRow) (now : Nat) : Prop :=
  ∀ answers, Rebuild p db market answers → ∀ times : List Nat, (∀ time ∈ times, now ≤ time) →
    ∃ book, (startAnew (p.uuid.string market.marketID)
        (readMessages (Api.published answers) times)).service.bookOf
          (p.uuid.string market.marketID) = some book ∧
      RankedAsCreated p (db.openPredictionIntents market.marketID) book

/-- No two orders that are restored and not dropped stand on one side at one limit. -/
def OneOrderPerPrice (p : Platform) (db : Db) (market : MarketRow) (now : Nat) : Prop :=
  ((db.openPredictionIntents market.marketID).filterMap (restored p db)).Pairwise fun o o' =>
    expired o now = false → expired o' now = false → isBid o = isBid o' →
      o.limitYesPrice ≠ o'.limitYesPrice

/-- The book of a process that has read what a rebuild published. -/
theorem Rebuild.book (haccepted : ∀ row ∈ db.openPredictionIntents market.marketID, Accepted p row)
    {rows : List PredictionIntent} (hrows : rows.Perm (db.openPredictionIntents market.marketID))
    (hpublished : Api.published answers = (rows.filterMap (restored p db)).map marshalOrder)
    (times : List Nat) :
    (startAnew (p.uuid.string market.marketID)
      (readMessages (Api.published answers) times)).service.bookOf
        (p.uuid.string market.marketID) =
      some (readInto ⟨[], []⟩ ((rows.filterMap (restored p db)).zip times)) := by
  have hfrom (o : CreateOrderRequestClob) (ho : o ∈ rows.filterMap (restored p db)) :
      ∃ row ∈ db.openPredictionIntents market.marketID, restored p db row = some o := by
    obtain ⟨row, hrow, hrestored⟩ := List.mem_filterMap.mp ho
    exact ⟨row, hrows.subset hrow, hrestored⟩
  have htyped (o : CreateOrderRequestClob) (ho : o ∈ rows.filterMap (restored p db)) :
      TypedOrder o := by
    obtain ⟨row, hrow, hrestored⟩ := hfrom o ho
    exact restored_typed (haccepted row hrow) hrestored
  rw [hpublished, readMessages_marshal htyped]
  apply startAnew_book
  · intro m hm
    obtain ⟨row, hrow, hrestored⟩ := hfrom m.1 (List.of_mem_zip hm).1
    rw [(restored_eq_some hrestored).2.1, Db.mem_openPredictionIntents hrow]
  · have hids : ((rows.filterMap (restored p db)).map (·.txId)).Nodup := by
      apply List.Nodup.sublist (restored_ids p db rows)
      exact (hrows.map _).nodup_iff.mpr (db.nodup_openPredictionIntents p market.marketID)
    have hread := (map_fst_zip_sublist (rows.filterMap (restored p db)) times).map (·.txId)
    rw [List.map_map] at hread
    exact hids.sublist hread

/-- Two orders of one limit, listed the other way round, come to stand the other way round. -/
theorem KeepsTimePriority.one_per_price
    (haccepted : ∀ row ∈ db.openPredictionIntents market.marketID, Accepted p row) {now : Nat}
    (h : KeepsTimePriority p db market now) : OneOrderPerPrice p db market now := by
  apply List.pairwise_iff_forall_sublist.mpr
  intro o o' hsublist hlive hlive' hside hlimit
  obtain ⟨l, hl, hpair⟩ := List.sublist_filterMap_iff.mp hsublist
  obtain ⟨before, row, after, rfl, _, hrow, hrest⟩ := List.filterMap_eq_cons_iff.mp hpair.symm
  obtain ⟨between, row', last, rfl, _, hrow', _⟩ := List.filterMap_eq_cons_iff.mp hrest
  have hcreated : [row, row'].Sublist (db.openPredictionIntents market.marketID) := by
    apply List.Sublist.trans _ hl
    apply List.Sublist.trans _ (List.sublist_append_right before _)
    apply List.Sublist.cons_cons row
    exact List.singleton_sublist.mpr (List.mem_append_right between List.mem_cons_self)
  obtain ⟨others, hothers⟩ := hcreated.exists_perm_append
  have hswapped : (row' :: row :: others).Perm (db.openPredictionIntents market.marketID) :=
    (List.Perm.swap row row' others).trans hothers.symm
  obtain ⟨answers, hrebuild, hpublished⟩ := exists_rebuild hswapped
  obtain ⟨book, hbook, hranked⟩ := h answers hrebuild [now, now] (by simp)
  rw [Rebuild.book haccepted hswapped hpublished, List.filterMap_cons_some hrow',
    List.filterMap_cons_some hrow, Option.some.injEq] at hbook
  have htwo : (o' :: o :: others.filterMap (restored p db)).zip [now, now] =
      [(o', now), (o, now)] := by
    rw [List.zip_cons_cons, List.zip_cons_cons, List.zip_nil_right]
  rw [htwo, readInto_two hlive' hlive (restored_eq_some hrow').2.2 (restored_eq_some hrow).2.2
    hside.symm] at hbook
  have hpairwise : [o', o].Pairwise fun o o' => o.limitYesPrice = o'.limitYesPrice →
      CreatedBefore p (db.openPredictionIntents market.marketID) o o' := by
    apply hranked
    rw [← hbook]
    split
    · exact Or.inl rfl
    · exact Or.inr rfl
  have hlater : [o'.txId, o.txId].Sublist ((db.openPredictionIntents market.marketID).map
      fun row => p.uuid.string row.txID) :=
    (List.pairwise_cons.mp hpairwise).1 o (List.mem_singleton_self o) hlimit.symm
  have hearlier := hcreated.map fun row => p.uuid.string row.txID
  have hnodup := db.nodup_openPredictionIntents p market.marketID
  rw [List.map_cons, List.map_singleton, ← (restored_eq_some hrow).1,
    ← (restored_eq_some hrow').1] at hearlier
  have hsame := (hnodup.perm_iff_eq_of_sublist hlater hearlier).mp (.swap _ _ _)
  rw [List.cons.injEq] at hsame
  have hdistinct := hnodup.sublist hearlier
  rw [hsame.1] at hdistinct
  exact absurd List.mem_cons_self (List.nodup_cons.mp hdistinct).1

/-- A rebuild keeps time priority exactly if it never matters: where no two of the orders that it
restores stand on one side at one limit. -/
theorem rebuild_keeps_time_priority_iff (p : Platform) (db : Db) (market : MarketRow) (now : Nat)
    (haccepted : ∀ row ∈ db.openPredictionIntents market.marketID, Accepted p row) :
    KeepsTimePriority p db market now ↔ OneOrderPerPrice p db market now := by
  constructor
  · exact KeepsTimePriority.one_per_price haccepted
  · intro hone answers hrebuild times htimes
    obtain ⟨rows, hrows, hpublished⟩ := hrebuild.published
    refine ⟨_, Rebuild.book haccepted hrows hpublished times, ?_⟩
    intro side hside
    apply (ranked_as_read _ hside).imp
    rintro o o' ⟨hbids, hread⟩ hlimit
    obtain ⟨m, m', hpair, hlater, hlater'⟩ := hread hlimit
    have hlives (m : Reading) (hm : m ∈ ((rows.filterMap (restored p db)).zip times).filter
        Reading.live) : expired m.1 now = false := by
      obtain ⟨hzip, hlive⟩ := List.mem_filter.mp hm
      have htime := htimes m.2 (List.of_mem_zip hzip).2
      simp only [Reading.live, expired, Bool.not_eq_eq_eq_not, Bool.not_true,
        decide_eq_false_iff_not] at hlive ⊢
      omega
    have hdistinct : ((rows.filterMap (restored p db))).Pairwise fun o o' =>
        expired o now = false → expired o' now = false → isBid o = isBid o' →
          o.limitYesPrice ≠ o'.limitYesPrice := by
      apply ((hrows.filterMap _).pairwise_iff ?_).mpr hone
      intro o o' h hlive' hlive hside hlimit
      exact h hlive hlive' hside.symm hlimit.symm
    have hboth : [m.1, m'.1].Sublist (rows.filterMap (restored p db)) :=
      ((hpair.trans List.filter_sublist).map Prod.fst).trans (map_fst_zip_sublist _ _)
    have hlimits := List.pairwise_iff_forall_sublist.mp hdistinct hboth
      (hlives m (hpair.subset List.mem_cons_self))
      (hlives m' (hpair.subset (List.mem_cons_of_mem _ List.mem_cons_self)))
      (by rw [← hlater.isBid, ← hlater'.isBid, hbids])
    rw [← hlater.limit, ← hlater'.limit] at hlimits
    exact absurd hlimit hlimits

end Rebuild

instance (p : Platform) (db : Db) (market : MarketRow) (now : Nat) :
    Decidable (OneOrderPerPrice p db market now) := inferInstanceAs (Decidable (List.Pairwise _ _))

/-! ## Sample orders -/

def sampleRebuiltMarket : MarketRow :=
  ⟨0x01890f3e7c107cc198bc0242ac120002, "0.0.5001".toList, 2000000000, false, false, false, false⟩

def sampleRows (reqs : List PrismPredictionIntentRequest) : List PredictionIntent :=
  reqs.filterMap fun req => (createOrderIntentRequest sampleUuid req).toOption.map .new

def sampleRowsDb (reqs : List PrismPredictionIntentRequest) : Db where
  intents := (sampleRows reqs).foldl Table.insert .empty
  matches_ := .empty
  markets := Table.empty.insert sampleRebuiltMarket

def sampleDearer : PrismPredictionIntentRequest := { sampleSell' with limitYesPrice := 630000 }

theorem sampleRows_accepted {reqs : List PrismPredictionIntentRequest}
    (hvalid : ∀ req ∈ reqs, req.Validated ∧ req.Typed)
    (hauth : (reqs.all fun req => (requestAuthorization sampleUuid req).isOk) = true) :
    ∀ row ∈ (sampleRowsDb reqs).intents.rows, Accepted samplePlatform row := by
  have hinserted (rows : List PredictionIntent)
      (t : Table PredictionIntent Uint128 fun row => row.txID) {row : PredictionIntent}
      (h : row ∈ (rows.foldl Table.insert t).rows) : row ∈ t.rows ∨ row ∈ rows := by
    induction rows generalizing t with
    | nil => exact Or.inl h
    | cons first rows ih =>
        rcases ih _ h with hmem | hmem
        · rcases Table.mem_of_mem_insert hmem with hold | rfl
          · exact Or.inl hold
          · exact Or.inr List.mem_cons_self
        · exact Or.inr (List.mem_cons_of_mem first hmem)
  intro row hrow
  rcases hinserted _ _ hrow with hnone | hmem
  · exact absurd hnone List.not_mem_nil
  obtain ⟨req, hreq, hterms⟩ := List.mem_filterMap.mp hmem
  obtain ⟨terms, hcreated, rfl⟩ := Option.map_eq_some_iff.mp hterms
  cases hresult : createOrderIntentRequest sampleUuid req with
  | error err =>
      rw [hresult] at hcreated
      exact absurd hcreated (Option.some_ne_none terms).symm
  | ok made =>
      rw [hresult] at hcreated
      obtain rfl : made = terms := Option.some.inj hcreated
      obtain ⟨hvalidated, htyped⟩ := hvalid req hreq
      have hok := List.all_eq_true.mp hauth req hreq
      cases ha : requestAuthorization sampleUuid req with
      | error err =>
          rw [ha] at hok
          cases hok
      | ok a =>
          exact ⟨⟨req, a, hvalidated, htyped, ha, hresult⟩, PredictionIntent.kept_new hresult⟩

theorem sampleSells_valid : ∀ req ∈ [sampleSell, sampleSell', sampleDearer],
    req.Validated ∧ req.Typed := by
  intro req hreq
  simp only [List.mem_cons, List.not_mem_nil, or_false] at hreq
  rcases hreq with rfl | rfl | rfl
  · exact ⟨by constructor <;> decide +kernel, by constructor <;> decide +kernel⟩
  · exact ⟨by constructor <;> decide +kernel, by constructor <;> decide +kernel⟩
  · exact ⟨by constructor <;> decide +kernel, by constructor <;> decide +kernel⟩

/-- Two SELLs at different limits. -/
theorem rebuild_keeps_time_priority_sample :
    KeepsTimePriority samplePlatform
      (sampleRowsDb [sampleSell, sampleDearer]) sampleRebuiltMarket 100 := by
  have haccepted : ∀ row ∈ (sampleRowsDb [sampleSell, sampleDearer]).openPredictionIntents
      sampleRebuiltMarket.marketID, Accepted samplePlatform row := by
    intro row hrow
    refine sampleRows_accepted ?_ ?_ row (Db.openPredictionIntents_rows hrow).1
    · intro req hreq
      apply sampleSells_valid
      simp only [List.mem_cons, List.not_mem_nil, or_false] at hreq ⊢
      exact hreq.imp_right Or.inr
    · decide +kernel
  exact (rebuild_keeps_time_priority_iff samplePlatform _ sampleRebuiltMarket 100 haccepted).mpr
    (by decide +kernel)

/-- Two SELLs at one limit: the database may list the younger one first. -/
theorem rebuild_loses_time_priority : ∃ p db market now,
    (∀ row ∈ db.openPredictionIntents market.marketID, Accepted p row) ∧
      ¬KeepsTimePriority p db market now := by
  have haccepted : ∀ row ∈ (sampleRowsDb [sampleSell, sampleSell']).openPredictionIntents
      sampleRebuiltMarket.marketID, Accepted samplePlatform row := by
    intro row hrow
    refine sampleRows_accepted ?_ ?_ row (Db.openPredictionIntents_rows hrow).1
    · intro req hreq
      apply sampleSells_valid
      simp only [List.mem_cons, List.not_mem_nil, or_false] at hreq ⊢
      exact hreq.imp_right Or.inl
    · decide +kernel
  refine ⟨samplePlatform, sampleRowsDb [sampleSell, sampleSell'], sampleRebuiltMarket, 100,
    haccepted, ?_⟩
  intro h
  exact absurd (h.one_per_price haccepted) (by decide +kernel)

end PrismBackend.Api
