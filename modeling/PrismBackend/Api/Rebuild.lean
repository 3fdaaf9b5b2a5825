import PrismBackend.Clob.Restart
import PrismBackend.Api.ExpiredOrders
import PrismBackend.Api.Spelling
import PrismBackend.Api.TimePriority

/-!
# API: what a rebuild restores

`TriggerRecreateClob` creates every market that it lists and publishes the open
orders there, each with the shares of all its unsettled matches taken as filled.
It lists no market that is paused or suspended, and a match that was rejected for
good keeps its shares.
-/

namespace PrismBackend.Api

open PrismBackend.Lib PrismBackend.Clob PrismBackend.PrismV2

/-! ## What reaches the CLOB -/

/-- What the CLOB gets from a rebuild: markets to create, and messages in the stream. -/
inductive Notice
  | market (marketId : Str)
  | message (payload : Fields)

def notice : ((r : OrderRequest) × r.Answer) → Option Notice
  | ⟨.createMarketOnClob marketId, .ok _⟩ => some (.market marketId)
  | ⟨.publishWithID _ payload _, .ok _⟩ => some (.message payload)
  | _ => none

def messagesOf (notices : List Notice) : List Fields :=
  notices.filterMap fun
    | .message payload => some payload
    | .market _ => none

/-- A CLOB that creates the markets as it is asked to and reads the messages in their order, each
at some time after it was published, until it has read them all. -/
inductive Reads (now last : Nat) : List Notice → List Fields → List ClobRequest → Prop
  | done : Reads now last [] [] []
  | market (marketId : Str) {notices : List Notice} {waiting : List Fields}
      {requests : List ClobRequest} (h : Reads now last notices waiting requests) :
      Reads now last (.market marketId :: notices) waiting (.createMarket marketId :: requests)
  | message (payload : Fields) {notices : List Notice} {waiting : List Fields}
      {requests : List ClobRequest} (h : Reads now last notices (waiting ++ [payload]) requests) :
      Reads now last (.message payload :: notices) waiting requests
  | read (payload : Fields) {time : Nat} (hnow : now ≤ time) (hlast : time ≤ last)
      {notices : List Notice} {waiting : List Fields} {requests : List ClobRequest}
      (h : Reads now last notices waiting requests) :
      Reads now last notices (payload :: waiting)
        (((readOrder payload).map fun order => ClobRequest.deliverOrder order time).toList ++
          requests)

namespace Reads

variable {now last : Nat} {notices : List Notice} {waiting : List Fields}
  {requests : List ClobRequest}

theorem mem_read {payload : Fields} {time : Nat} {request : ClobRequest}
    (h : request ∈ ((readOrder payload).map fun order =>
      ClobRequest.deliverOrder order time).toList) :
    ∃ order, readOrder payload = some order ∧ request = .deliverOrder order time := by
  obtain ⟨order, horder, rfl⟩ := Option.map_eq_some_iff.mp (Option.mem_toList.mp h)
  exact ⟨order, horder, rfl⟩

theorem restores (h : Reads now last notices waiting requests) :
    ∀ request ∈ requests, request.restores = true := by
  induction h with
  | done => exact fun request h => absurd h List.not_mem_nil
  | market marketId h ih => exact List.forall_mem_cons.mpr ⟨rfl, ih⟩
  | message payload h ih => exact ih
  | read payload hnow hlast h ih =>
      intro request hmem
      rcases List.mem_append.mp hmem with hfirst | hrest
      · obtain ⟨order, _, rfl⟩ := mem_read hfirst
        rfl
      · exact ih request hrest

theorem offered (h : Reads now last notices waiting requests) :
    offeredOrders requests = (waiting ++ messagesOf notices).filterMap readOrder := by
  induction h with
  | done => rfl
  | market marketId h ih => exact ih
  | message payload h ih =>
      rw [ih, List.append_assoc]
      rfl
  | read payload hnow hlast h ih =>
      rw [offeredOrders_append, ih, List.cons_append, List.filterMap_cons]
      cases readOrder payload with
      | none => rfl
      | some order => rfl

theorem times (h : Reads now last notices waiting requests) {order : CreateOrderRequestClob}
    {time : Nat} (hmem : .deliverOrder order time ∈ requests) : time ≤ last := by
  induction h with
  | done => exact absurd hmem List.not_mem_nil
  | market marketId h ih =>
      rcases List.mem_cons.mp hmem with heq | hrest
      · cases heq
      · exact ih hrest
  | message payload h ih => exact ih hmem
  | read payload hnow hlast h ih =>
      rcases List.mem_append.mp hmem with hfirst | hrest
      · obtain ⟨_, _, heq⟩ := mem_read hfirst
        cases heq
        exact hlast
      · exact ih hrest

theorem created (h : Reads now last notices waiting requests) {marketId : Str}
    (hmem : .createMarket marketId ∈ requests) : .market marketId ∈ notices := by
  induction h with
  | done => exact absurd hmem List.not_mem_nil
  | market marketId' h ih =>
      rcases List.mem_cons.mp hmem with heq | hrest
      · cases heq
        exact List.mem_cons_self
      · exact List.mem_cons_of_mem _ (ih hrest)
  | message payload h ih => exact List.mem_cons_of_mem _ (ih hmem)
  | read payload hnow hlast h ih =>
      rcases List.mem_append.mp hmem with hfirst | hrest
      · obtain ⟨_, _, heq⟩ := mem_read hfirst
        cases heq
      · exact ih hrest

/-- When a market is created, only messages that were published before it have been read. -/
theorem split {earlier later : List Notice} {marketId : Str}
    (h : Reads now last (earlier ++ .market marketId :: later) waiting requests) :
    ∃ before after, requests = before ++ .createMarket marketId :: after ∧
      (∀ o ∈ offeredOrders before, o ∈ (waiting ++ messagesOf earlier).filterMap readOrder) ∧
      ∀ id, .createMarket id ∈ before → .market id ∈ earlier := by
  generalize hnotices : earlier ++ .market marketId :: later = notices at h
  induction h generalizing earlier with
  | done => exact absurd hnotices (by simp)
  | @market id notices waiting requests h ih =>
      cases earlier with
      | nil =>
          cases hnotices
          exact ⟨[], requests, rfl, fun o ho => absurd ho List.not_mem_nil,
            fun id h => absurd h List.not_mem_nil⟩
      | cons first earlier =>
          cases hnotices
          obtain ⟨before, after, rfl, horders, hcreated⟩ := ih rfl
          refine ⟨.createMarket id :: before, after, rfl, horders, ?_⟩
          intro id' hid'
          rcases List.mem_cons.mp hid' with heq | hrest
          · cases heq
            exact List.mem_cons_self
          · exact List.mem_cons_of_mem _ (hcreated id' hrest)
  | @message payload notices waiting requests h ih =>
      cases earlier with
      | nil => cases hnotices
      | cons first earlier =>
          cases hnotices
          obtain ⟨before, after, rfl, horders, hcreated⟩ := ih rfl
          refine ⟨before, after, rfl, ?_, fun id hid => List.mem_cons_of_mem _ (hcreated id hid)⟩
          intro o ho
          have hmem := horders o ho
          rw [List.append_assoc] at hmem
          exact hmem
  | read payload hnow hlast h ih =>
      obtain ⟨before, after, rfl, horders, hcreated⟩ := ih hnotices
      refine ⟨_ ++ before, after, (List.append_assoc _ _ _).symm, ?_, ?_⟩
      · intro o ho
        rw [offeredOrders_append] at ho
        rw [List.cons_append, List.filterMap_cons]
        rcases List.mem_append.mp ho with hfirst | hrest
        · obtain ⟨request, hrequest, hsome⟩ := List.mem_filterMap.mp hfirst
          obtain ⟨order, horder, rfl⟩ := mem_read hrequest
          rw [horder]
          cases hsome
          exact List.mem_cons_self
        · have hmem := horders o hrest
          split
          · exact hmem
          · exact List.mem_cons_of_mem _ hmem
      · intro id hid
        rcases List.mem_append.mp hid with hfirst | hrest
        · obtain ⟨_, _, heq⟩ := mem_read hfirst
          cases heq
        · exact hcreated id hrest

end Reads

theorem exists_reads {now last : Nat} (h : now ≤ last) (notices : List Notice)
    (waiting : List Fields) : ∃ requests, Reads now last notices waiting requests := by
  induction notices generalizing waiting with
  | nil =>
      induction waiting with
      | nil => exact ⟨[], .done⟩
      | cons payload waiting ih =>
          obtain ⟨requests, hreads⟩ := ih
          exact ⟨_, .read payload le_rfl h hreads⟩
  | cons first notices ih =>
      cases first with
      | market marketId =>
          obtain ⟨requests, hreads⟩ := ih waiting
          exact ⟨_, .market marketId hreads⟩
      | message payload =>
          obtain ⟨requests, hreads⟩ := ih (waiting ++ [payload])
          exact ⟨_, .message payload hreads⟩

/-! ## A rebuild of all markets -/

def OpenRead (p : Platform) (db : Db) (answers : List ((r : OrderRequest) × r.Answer)) : Prop :=
  ∀ marketID rows,
    ⟨.getAllOpenPredictionIntentsByMarketId (p.uuid.string marketID), .ok rows⟩ ∈ answers →
      rows.Perm (db.openPredictionIntents marketID)

/-- A rebuild that came to its end, with the rows listed in some order. -/
structure Restoration (p : Platform) (db : Db) (now : Nat)
    (answers : List ((r : OrderRequest) × r.Answer)) : Prop where
  path : (triggerRecreateClob p).Path answers (.ret (.ok ()))
  markets : ∀ rows, ⟨.getAllUnresolvedMarkets, .ok rows⟩ ∈ answers →
    rows.Perm (db.markets.rows.filter (·.tradeable now))
  rows : OpenRead p db answers
  matches_ : MatchesRead db answers

/-- Markets with their open orders, as a rebuild lists them. -/
abbrev Listing := List (MarketRow × List PredictionIntent)

def Listing.orders (p : Platform) (db : Db) (listing : Listing) : List CreateOrderRequestClob :=
  listing.flatMap fun block => block.2.filterMap (restored p db)

def Listing.notices (p : Platform) (db : Db) (listing : Listing) : List Notice :=
  listing.flatMap fun block => .market (p.uuid.string block.1.marketID) ::
    (block.2.filterMap (restored p db)).map fun o => .message (marshalOrder o)

structure Listing.Of (db : Db) (markets : List MarketRow) (listing : Listing) : Prop where
  markets : listing.map Prod.fst = markets
  rows : ∀ block ∈ listing, block.2.Perm (db.openPredictionIntents block.1.marketID)

section Restoration

variable {p : Platform} {db : Db} {now : Nat} {markets : List MarketRow}
  {answers : List ((r : OrderRequest) × r.Answer)} {listing : Listing}

theorem notices_of_published
    (h : ∀ marketId answer, ⟨.createMarketOnClob marketId, answer⟩ ∉ answers) :
    answers.filterMap notice = (published answers).map Notice.message := by
  induction answers with
  | nil => rfl
  | cons first answers ih =>
      have hrest := ih fun marketId answer hmem => h marketId answer (List.mem_cons_of_mem _ hmem)
      obtain ⟨r, answer⟩ := first
      cases r with
      | createMarketOnClob marketId => exact absurd List.mem_cons_self (h marketId answer)
      | publishWithID subject payload messageID =>
          cases answer with
          | ok _ => exact congrArg (_ :: ·) hrest
          | error err => exact hrest
      | _ => exact hrest

theorem restoreOrders_notices {rows : List PredictionIntent} (hmatches : MatchesRead db answers)
    (h : (restoreOrders p rows).Path answers (.ret (.ok ()))) :
    answers.filterMap notice =
      (rows.filterMap (restored p db)).map fun o => .message (marshalOrder o) := by
  rw [notices_of_published, restoreOrders_published hmatches h, List.map_map]
  · rfl
  · intro marketId answer hmem
    obtain ⟨_, _, rest, _, hpath⟩ := h.of_mem hmem
    have hmakes : (restoreOrders p rows).Makes (· ≠ .createMarketOnClob marketId) :=
      restoreOrders_makes (by simp) (by simp) (by simp) p rows
    exact (hpath.makes hmakes).1 rfl

/-- The loop over the markets creates each of them and publishes its open orders. -/
theorem restoreMarkets_notices (hrows : OpenRead p db answers) (hmatches : MatchesRead db answers)
    (h : (restoreMarkets p markets).Path answers (.ret (.ok ()))) :
    ∃ listing : Listing, listing.Of db markets ∧
      answers.filterMap notice = listing.notices p db := by
  induction markets generalizing answers with
  | nil =>
      obtain ⟨rfl, _⟩ := Program.path_ret_iff.mp h
      exact ⟨[], ⟨rfl, fun block h => absurd h List.not_mem_nil⟩, rfl⟩
  | cons market markets ih =>
      obtain ⟨_, create, later, rfl, hcreate, hopens⟩ := Program.path_andThen_ret h
      obtain ⟨rows, reads, later', rfl, hread, hrestores⟩ := Program.path_andThen_ret hopens
      obtain ⟨_, restores, rest, rfl, hrestore, hend⟩ := Program.path_andThen_ret hrestores
      obtain rfl := Program.path_request (path_ask hcreate)
      obtain rfl := Program.path_request (path_ask hread)
      obtain ⟨listing, ⟨hmarkets, hlisted⟩, hnotices⟩ := ih
        (fun marketID rows' hmem => hrows marketID rows'
          (List.mem_append_right _ (List.mem_append_right _ (List.mem_append_right _ hmem))))
        (fun marketID txID rows' hmem => hmatches marketID txID rows'
          (List.mem_append_right _ (List.mem_append_right _ (List.mem_append_right _ hmem)))) hend
      have hown := restoreOrders_notices (fun marketID txID rows' hmem =>
        hmatches marketID txID rows' (List.mem_append_right _
          (List.mem_append_right _ (List.mem_append_left _ hmem)))) hrestore
      refine ⟨(market, rows) :: listing, ⟨by rw [List.map_cons, hmarkets], ?_⟩, ?_⟩
      · intro block hblock
        rcases List.mem_cons.mp hblock with rfl | hblock
        · exact hrows market.marketID rows
            (List.mem_append_right _ (List.mem_append_left _ (List.mem_singleton_self _)))
        · exact hlisted block hblock
      · rw [List.filterMap_append, List.filterMap_append, List.filterMap_append, hown, hnotices]
        rfl

theorem Restoration.notices (h : Restoration p db now answers) :
    ∃ markets : List MarketRow, markets.Perm (db.markets.rows.filter (·.tradeable now)) ∧
      ∃ listing : Listing, listing.Of db markets ∧
        answers.filterMap notice = listing.notices p db := by
  obtain ⟨hpath, hmarkets, hrows, hmatches⟩ := h
  obtain ⟨markets, first, later, rfl, hfirst, hrest⟩ := Program.path_andThen_ret hpath
  obtain rfl := Program.path_request (path_ask hfirst)
  obtain ⟨listing, hlisting, hnotices⟩ := restoreMarkets_notices
    (fun marketID rows hmem => hrows marketID rows (List.mem_append_right _ hmem))
    (fun marketID txID rows hmem => hmatches marketID txID rows (List.mem_append_right _ hmem))
    hrest
  refine ⟨markets, hmarkets markets (List.mem_append_left _ (List.mem_singleton_self _)),
    listing, hlisting, ?_⟩
  rw [List.filterMap_append, hnotices]
  rfl

theorem restoreMarkets_ends (p : Platform) (db : Db) (markets : List MarketRow) :
    ∃ answers, (restoreMarkets p markets).Path answers (.ret (.ok ())) ∧ OpenRead p db answers ∧
      MatchesRead db answers := by
  induction markets with
  | nil => exact ⟨[], .nil _, fun _ _ h => absurd h List.not_mem_nil,
      fun _ _ _ h => absurd h List.not_mem_nil⟩
  | cons market markets ih =>
      obtain ⟨later, hlater, hrows, hmatches⟩ := ih
      obtain ⟨own, hown, hownMatches, hownRows⟩ :=
        restoreOrders_ends p db (db.openPredictionIntents market.marketID)
      refine ⟨⟨.createMarketOnClob (p.uuid.string market.marketID),
        (.ok () : Except String Unit)⟩ ::
        ⟨.getAllOpenPredictionIntentsByMarketId (p.uuid.string market.marketID),
          (.ok (db.openPredictionIntents market.marketID) :
            Except String (List PredictionIntent))⟩ :: (own ++ later), ?_, ?_, ?_⟩
      · exact .cons _ (.cons _ (hown.andThen hlater))
      · intro marketID rows hmem
        simp only [List.mem_cons, List.mem_append, reduceCtorEq, Sigma.mk.injEq, false_and,
          false_or] at hmem
        rcases hmem with ⟨hid, hread⟩ | hmem | hmem
        · simp only [OrderRequest.getAllOpenPredictionIntentsByMarketId.injEq] at hid
          obtain rfl := p.uuid.string_injective hid
          cases hread
          exact .refl _
        · exact absurd hmem (hownRows _ _)
        · exact hrows marketID rows hmem
      · intro marketID txID rows hmem
        simp only [List.mem_cons, List.mem_append, reduceCtorEq, Sigma.mk.injEq, false_and,
          false_or] at hmem
        exact hmem.elim (hownMatches marketID txID rows) (hmatches marketID txID rows)

theorem exists_restoration (p : Platform) (db : Db) (now : Nat) :
    ∃ answers, Restoration p db now answers := by
  obtain ⟨answers, hpath, hrows, hmatches⟩ :=
    restoreMarkets_ends p db (db.markets.rows.filter (·.tradeable now))
  refine ⟨⟨.getAllUnresolvedMarkets, (.ok (db.markets.rows.filter (·.tradeable now)) :
    Except String (List MarketRow))⟩ :: answers, .cons _ hpath, ?_, ?_, ?_⟩
  · intro rows hmem
    rcases List.mem_cons.mp hmem with heq | hmem
    · cases heq
      exact .refl _
    · obtain ⟨_, _, rest, _, hasked⟩ := hpath.of_mem hmem
      have hmakes : (restoreMarkets p (db.markets.rows.filter (·.tradeable now))).Makes
          (· ≠ .getAllUnresolvedMarkets) :=
        restoreMarkets_makes (by simp) (by simp) (by simp) (by simp) (by simp) p _
      exact absurd rfl (hasked.makes hmakes).1
  · intro marketID rows hmem
    simp only [List.mem_cons, reduceCtorEq, Sigma.mk.injEq, false_and, false_or] at hmem
    exact hrows marketID rows hmem
  · intro marketID txID rows hmem
    simp only [List.mem_cons, reduceCtorEq, Sigma.mk.injEq, false_and, false_or] at hmem
    exact hmatches marketID txID rows hmem

end Restoration

/-! ## The orders of a listing -/

theorem uuidText_lowercase {p : Platform} (hwrites : p.uuid.WritesHex) (u : Uint128) :
    toAsciiLowercase (p.uuid.string u) = p.uuid.string u := by
  have htext : p.uuid.string u = uuidGroups (hexText 32 u.val) := hwrites u
  rw [htext, toAsciiLowercase_uuidGroups]
  exact congrArg uuidGroups (hexText_lowercase 32 u.val)

section Listing

variable {p : Platform} {db : Db} {now last : Nat} {markets : List MarketRow} {listing : Listing}
  {requests : List ClobRequest}

/-- The rows of the markets that are not deleted were written by accepted requests. -/
def Db.AllAccepted (p : Platform) (db : Db) : Prop :=
  ∀ marketID, ∀ row ∈ db.openPredictionIntents marketID, Accepted p row

/-- An order of a listing is restored from an open row of its market. -/
theorem Listing.Of.mem_orders (h : listing.Of db markets) {o : CreateOrderRequestClob}
    (ho : o ∈ listing.orders p db) :
    ∃ market ∈ markets, ∃ row ∈ db.openPredictionIntents market.marketID,
      restored p db row = some o := by
  obtain ⟨block, hblock, horder⟩ := List.mem_flatMap.mp ho
  obtain ⟨row, hrow, hrestored⟩ := List.mem_filterMap.mp horder
  refine ⟨block.1, ?_, row, (h.rows block hblock).subset hrow, hrestored⟩
  rw [← h.markets]
  exact List.mem_map_of_mem hblock

theorem Listing.Of.orders_mem (h : listing.Of db markets) {market : MarketRow}
    (hmarket : market ∈ markets) {row : PredictionIntent}
    (hrow : row ∈ db.openPredictionIntents market.marketID) {o : CreateOrderRequestClob}
    (hrestored : restored p db row = some o) : o ∈ listing.orders p db := by
  rw [← h.markets] at hmarket
  obtain ⟨block, hblock, rfl⟩ := List.mem_map.mp hmarket
  refine List.mem_flatMap.mpr ⟨block, hblock, List.mem_filterMap.mpr ⟨row, ?_, hrestored⟩⟩
  exact (h.rows block hblock).mem_iff.mpr hrow

theorem Listing.messages (haccepted : db.AllAccepted p) (h : listing.Of db markets) :
    (messagesOf (listing.notices p db)).filterMap readOrder = listing.orders p db := by
  have hblock (block : MarketRow × List PredictionIntent) :
      messagesOf (.market (p.uuid.string block.1.marketID) ::
        (block.2.filterMap (restored p db)).map fun o => .message (marshalOrder o)) =
      (block.2.filterMap (restored p db)).map marshalOrder := by
    show (List.map _ _).filterMap _ = _
    rw [List.filterMap_map, ← List.filterMap_eq_map]
    rfl
  have hread : ∀ o ∈ listing.orders p db, readOrder (marshalOrder o) = some o := by
    intro o ho
    obtain ⟨market, _, row, hrow, hrestored⟩ := h.mem_orders ho
    exact readOrder_marshalOrder (restored_typed (haccepted market.marketID row hrow) hrestored)
  have hmessages : messagesOf (listing.notices p db) = (listing.orders p db).map marshalOrder := by
    unfold Listing.notices Listing.orders
    rw [messagesOf, List.filterMap_flatMap, List.map_flatMap]
    exact List.flatMap_congr fun block _ => hblock block
  rw [hmessages, List.filterMap_map]
  calc (listing.orders p db).filterMap (readOrder ∘ marshalOrder)
      = (listing.orders p db).filterMap some := List.filterMap_congr hread
    _ = listing.orders p db := List.filterMap_some

theorem Listing.Of.orders_nodup (h : listing.Of db markets)
    (hmarkets : (markets.map (·.marketID)).Nodup) :
    ((listing.orders p db).map (·.txId)).Nodup := by
  unfold Listing.orders
  rw [List.map_flatMap, List.nodup_flatMap]
  constructor
  · intro block hblock
    apply List.Nodup.sublist (restored_ids p db block.2)
    exact ((h.rows block hblock).map _).nodup_iff.mpr (db.nodup_openPredictionIntents p _)
  · rw [← h.markets, List.map_map] at hmarkets
    apply (List.pairwise_map.mp hmarkets).imp_of_mem
    intro block block' hblock hblock' hne txId htxId htxId'
    obtain ⟨o, ho, rfl⟩ := List.mem_map.mp htxId
    obtain ⟨o', ho', hsame⟩ := List.mem_map.mp htxId'
    obtain ⟨row, hrow, hrestored⟩ := List.mem_filterMap.mp ho
    obtain ⟨row', hrow', hrestored'⟩ := List.mem_filterMap.mp ho'
    have hopen := (h.rows block hblock).subset hrow
    have hopen' := (h.rows block' hblock').subset hrow'
    rw [(restored_eq_some hrestored).1, (restored_eq_some hrestored').1] at hsame
    have hrows := Table.eq_of_key (Db.openPredictionIntents_rows hopen').1
      (Db.openPredictionIntents_rows hopen).1 (p.uuid.string_injective hsame)
    apply hne
    show block.1.marketID = block'.1.marketID
    rw [← Db.mem_openPredictionIntents hopen, ← Db.mem_openPredictionIntents hopen', hrows]

theorem Reads.offered_eq (hreads : Reads now last (listing.notices p db) [] requests)
    (haccepted : db.AllAccepted p) (h : listing.Of db markets) :
    offeredOrders requests = listing.orders p db := by
  rw [hreads.offered, List.nil_append, Listing.messages haccepted h]

theorem Listing.notices_append (p : Platform) (db : Db) (listing listing' : Listing) :
    Listing.notices p db (listing ++ listing') =
      listing.notices p db ++ listing'.notices p db :=
  List.flatMap_append

theorem Listing.mem_market {marketId : Str}
    (h : Notice.market marketId ∈ listing.notices p db) :
    ∃ block ∈ listing, marketId = p.uuid.string block.1.marketID := by
  obtain ⟨block, hblock, hmem⟩ := List.mem_flatMap.mp h
  rcases List.mem_cons.mp hmem with heq | hmessage
  · cases heq
    exact ⟨block, hblock, rfl⟩
  · obtain ⟨_, _, heq⟩ := List.mem_map.mp hmessage
    cases heq

/-- The book of a listed market is that of the orders that came in for it. -/
theorem Reads.mirrors (hreads : Reads now last (listing.notices p db) [] requests)
    (hwrites : p.uuid.WritesHex) (haccepted : db.AllAccepted p) (h : listing.Of db markets)
    (hmarkets : (markets.map (·.marketID)).Nodup) {market : MarketRow}
    (hmarket : market ∈ markets) :
    (runProcess requests).Mirrors (toAsciiLowercase (p.uuid.string market.marketID))
      (runBook (opsFor (toAsciiLowercase (p.uuid.string market.marketID)) requests)) := by
  have hdistinct : ((offeredOrders requests).map (·.txId)).Nodup := by
    rw [hreads.offered_eq haccepted h]
    exact h.orders_nodup hmarkets
  obtain ⟨block, hblock, rfl⟩ := List.mem_map.mp (h.markets.symm ▸ hmarket)
  obtain ⟨earlier, later, rfl⟩ := List.append_of_mem hblock
  have hother : ∀ block' ∈ earlier, p.uuid.string block'.1.marketID ≠
      p.uuid.string block.1.marketID := by
    intro block' hblock' heq
    rw [← h.markets, List.map_map, List.map_append, List.nodup_append] at hmarkets
    apply hmarkets.2.2 block'.1.marketID (List.mem_map_of_mem hblock') block.1.marketID
    · exact List.mem_map_of_mem List.mem_cons_self
    · exact p.uuid.string_injective heq
  have hsplit := hreads
  rw [Listing.notices_append] at hsplit
  obtain ⟨before, after, hrequests, horders, hcreated⟩ := hsplit.split
  refine runProcess_mirrors hrequests hreads.restores hdistinct ?_ ?_
  · intro id hid
    obtain ⟨block', hblock', rfl⟩ := Listing.mem_market (hcreated id hid)
    rw [uuidText_lowercase hwrites, uuidText_lowercase hwrites]
    exact hother block' hblock'
  · have hearlier : Listing.Of db (earlier.map Prod.fst) earlier :=
      ⟨rfl, fun block' hblock' => h.rows block' (List.mem_append_left _ hblock')⟩
    rw [List.nil_append, Listing.messages haccepted hearlier] at horders
    have hnone : before.filterMap
        (·.reading (toAsciiLowercase (p.uuid.string block.1.marketID))) = [] := by
      apply List.filterMap_eq_nil_iff.mpr
      intro request hrequest
      cases request with
      | deliverOrder order time =>
          have horder := horders order (List.mem_filterMap.mpr ⟨_, hrequest, rfl⟩)
          obtain ⟨block', hblock', hmem⟩ := List.mem_flatMap.mp horder
          obtain ⟨row, hrow, hrestored⟩ := List.mem_filterMap.mp hmem
          have hrowMarket :=
            Db.mem_openPredictionIntents ((hearlier.rows block' hblock').subset hrow)
          apply if_neg
          rw [(restored_eq_some hrestored).2.1, hrowMarket, uuidText_lowercase hwrites,
            uuidText_lowercase hwrites]
          exact hother block' hblock'
      | _ => rfl
    rw [opsFor, hnone]
    rfl

/-- An open order of a listed market is there with what was restored of it. -/
theorem Reads.sharesOf (hreads : Reads now last (listing.notices p db) [] requests)
    (hwrites : p.uuid.WritesHex) (haccepted : db.AllAccepted p) (h : listing.Of db markets)
    (hmarkets : (markets.map (·.marketID)).Nodup) {market : MarketRow}
    (hmarket : market ∈ markets) {row : PredictionIntent}
    (hrow : row ∈ db.openPredictionIntents market.marketID) {o : CreateOrderRequestClob}
    (hrestored : restored p db row = some o) (hlive : last + deadlineMarginSecs < o.deadline) :
    (runProcess requests).sharesOf (p.uuid.string row.marketID) (p.uuid.string row.txID) =
      remainingShares o := by
  have hoffered := hreads.offered_eq haccepted h
  obtain ⟨htxId, hmarketId, _⟩ := restored_eq_some hrestored
  have hmirrors := hreads.mirrors hwrites haccepted h hmarkets hmarket
  rw [← Db.mem_openPredictionIntents hrow, ← hmarketId] at hmirrors
  rw [← htxId, ← hmarketId]
  apply hmirrors.sharesOf_eq hreads.restores
  · rw [hoffered]
    exact h.orders_nodup hmarkets
  · intro o' ho'
    rw [hoffered] at ho'
    obtain ⟨_, _, _, _, hrestored'⟩ := h.mem_orders ho'
    exact Nat.lt_of_sub_pos (restored_eq_some hrestored').2.2
  · rw [hoffered]
    exact h.orders_mem hmarket hrow hrestored
  · intro o' time hmem
    have htime := hreads.times hmem
    simp only [expired, decide_eq_false_iff_not]
    omega

/-- Of an order that is not restored, or in no listed market, there is nothing. -/
theorem Reads.sharesOf_zero (hreads : Reads now last (listing.notices p db) [] requests)
    (haccepted : db.AllAccepted p) (h : listing.Of db markets) {market : MarketRow}
    {row : PredictionIntent} (hrow : row ∈ db.openPredictionIntents market.marketID)
    (hnone : market.marketID ∈ markets.map (·.marketID) → restored p db row = none) :
    (runProcess requests).sharesOf (p.uuid.string row.marketID) (p.uuid.string row.txID) = 0 := by
  apply runProcess_sharesOf_zero
  intro o ho hid
  rw [hreads.offered_eq haccepted h] at ho
  obtain ⟨market', hmarket', row', hrow', hrestored'⟩ := h.mem_orders ho
  rw [(restored_eq_some hrestored').1] at hid
  obtain rfl := Table.eq_of_key (Db.openPredictionIntents_rows hrow').1
    (Db.openPredictionIntents_rows hrow).1 (p.uuid.string_injective hid)
  have hsame := (Db.mem_openPredictionIntents hrow').symm.trans (Db.mem_openPredictionIntents hrow)
  rw [hnone (hsame ▸ List.mem_map_of_mem hmarket')] at hrestored'
  cases hrestored'

end Listing

/-! ## What an order has open -/

def MarketRow.unresolved (row : MarketRow) (now : Nat) : Bool :=
  !row.deletedAt && !row.resolvedAt && decide (row.closesAt > now)

def Match.unsettled (m : Match) : Bool := m.protocolVersion == 2 && m.status != .finalized

def Db.unsettled (db : Db) (row : PredictionIntent) : List Match :=
  (db.matchesOf row.marketID row.txID).filter (·.unsettled)

def sumFills (ms : List Match) : Nat := (ms.map fun m => m.fillShares.getD 0).sum

/-- The matches whose messages were terminated are given by their ids: the others may still
settle. -/
def settlingShares (db : Db) (terminated : List Str) (row : PredictionIntent) : Nat :=
  sumFills ((db.unsettled row).filter fun m => !terminated.contains m.matchID)

def rejectedShares (db : Db) (terminated : List Str) (row : PredictionIntent) : Nat :=
  sumFills ((db.unsettled row).filter fun m => terminated.contains m.matchID)

def openShares (db : Db) (terminated : List Str) (row : PredictionIntent) : Nat :=
  row.qtyShares.getD 0 - (row.sharesFilled + settlingShares db terminated row)

/-- The fill of a V2 match is written from a 64-bit number. -/
def Db.FillsTyped (db : Db) : Prop :=
  ∀ m ∈ db.matches_.rows, m.protocolVersion = 2 → ∃ fill < 2 ^ 64, m.fillShares = some fill

section Open

variable {p : Platform} {db : Db} {row : PredictionIntent} {terminated : List Str}

theorem sumFills_split (db : Db) (terminated : List Str) (row : PredictionIntent) :
    sumFills (db.unsettled row) =
      settlingShares db terminated row + rejectedShares db terminated row := by
  unfold settlingShares rejectedShares
  induction db.unsettled row with
  | nil => rfl
  | cons m ms ih =>
      unfold sumFills at ih ⊢
      cases hmem : terminated.contains m.matchID with
      | true =>
          simp only [List.map_cons, List.sum_cons, List.filter_cons, hmem, Bool.not_true,
            Bool.false_eq_true, if_false, if_true]
          omega
      | false =>
          simp only [List.map_cons, List.sum_cons, List.filter_cons, hmem, Bool.not_false,
            Bool.false_eq_true, if_false, if_true]
          omega

/-- The fills of the unsettled matches are added to the order, as 64-bit numbers are. -/
theorem withUnsettledFills_shares {ms : List Match}
    (hfills : ∀ m ∈ ms, m.protocolVersion = 2 → ∃ fill < 2 ^ 64, m.fillShares = some fill)
    {order : CreateOrderRequestClob} (horder : order.sharesFilled < 2 ^ 64) :
    (ms.foldl withUnsettledFill order).sharesFilled =
      (order.sharesFilled + sumFills (ms.filter (·.unsettled))) % 2 ^ 64 := by
  induction ms generalizing order with
  | nil => exact (Nat.mod_eq_of_lt horder).symm
  | cons m ms ih =>
      have hrest {order : CreateOrderRequestClob} (h : order.sharesFilled < 2 ^ 64) :=
        ih (fun m' hm' => hfills m' (List.mem_cons_of_mem m hm')) h
      rw [List.foldl_cons]
      by_cases hskip : m.protocolVersion ≠ 2 ∨ m.status = .finalized
      · have hsettled : ¬m.unsettled = true := by
          simpa [Match.unsettled, imp_iff_not_or, or_comm] using hskip
        rw [List.filter_cons_of_neg hsettled, withUnsettledFill, if_pos hskip]
        exact hrest horder
      · have hunsettled : m.unsettled = true := by simpa [Match.unsettled] using hskip
        obtain ⟨hversion, _⟩ := not_or.mp hskip
        obtain ⟨fill, hfill, hm⟩ := hfills m List.mem_cons_self (not_not.mp hversion)
        have hread : parseUint fill = .ok fill := by
          rw [parseUint, revertIf, if_neg (not_le.mpr hfill)]
          rfl
        have hstep : (withUnsettledFill order m).sharesFilled =
            add64 order.sharesFilled fill := by
          rw [withUnsettledFill, if_neg hskip, hm, parseNumeric, hread]
        have hlt : add64 order.sharesFilled fill < 2 ^ 64 := Nat.mod_lt _ (Nat.two_pow_pos 64)
        have hsum : sumFills (m :: ms.filter (·.unsettled)) =
            fill + sumFills (ms.filter (·.unsettled)) := by
          rw [sumFills, List.map_cons, List.sum_cons, hm]
          rfl
        rw [List.filter_cons_of_pos hunsettled, hrest (hstep ▸ hlt), hstep, hsum, add64,
          Nat.mod_add_mod, Nat.add_assoc]

/-- What is restored of an open order: its quantity without all that counts as filled. -/
theorem restored_shares (haccepted : Accepted p row) (hopen : isOpenPredictionIntent row = true)
    (hfills : db.FillsTyped) :
    (restored p db row).elim 0 remainingShares =
      row.qtyShares.getD 0 - (row.sharesFilled + sumFills (db.unsettled row)) % 2 ^ 64 := by
  obtain ⟨order, horder, _⟩ := haccepted.reads hopen
  obtain ⟨hdenotes, htyped⟩ := haccepted.denotes horder
  obtain ⟨_, _, hfilled, _⟩ := clobOrderFromIntent_fields horder
  obtain ⟨shares, collateral, hsum⟩ := withUnsettledFills_fills order
    (db.matchesOf row.marketID row.txID)
  have hshares : (List.foldl withUnsettledFill order _).sharesFilled = _ :=
    withUnsettledFills_shares (fun m (hm : m ∈ db.matchesOf row.marketID row.txID) =>
      hfills m (List.mem_filter.mp hm).1) htyped.sharesFilled
  rw [hsum, hfilled] at hshares
  have hqty : row.qtyShares.getD 0 = order.qtyShares := by rw [hdenotes.qtyShares]; rfl
  rw [hqty, Db.unsettled, ← hshares, restored, horder]
  dsimp only
  rw [hsum]
  split
  · next hfull => exact (Nat.sub_eq_zero_of_le hfull).symm
  · rfl

theorem restored_deadline {o : CreateOrderRequestClob} (h : restored p db row = some o)
    (haccepted : Accepted p row) : o.deadline = row.deadline.getD 0 := by
  unfold restored at h
  split at h
  · exact absurd h (by simp)
  · next order horder =>
    dsimp only at h
    split at h
    · exact absurd h (by simp)
    · cases h
      rw [(Denotes.withUnsettledFills (haccepted.denotes horder) _).1.deadline]
      rfl

end Open

/-! ## The condition -/

/-- An order that was open when a rebuild began, in a market that is not over, and that is still
unexpired when its messages have been read. -/
structure Db.Outstanding (db : Db) (now last : Nat) (market : MarketRow) (row : PredictionIntent) :
    Prop where
  stored : market ∈ db.markets.rows
  unresolved : market.unresolved now = true
  isOpen : row ∈ db.openPredictionIntents market.marketID
  unexpired : last + deadlineMarginSecs < row.deadline.getD 0

/-- Once a new process has read all that a rebuild published, there is of every outstanding order
exactly what it has open: what rests, and what it was matched for on the way. -/
def RestoresOrders (p : Platform) (db : Db) (terminated : List Str) (now last : Nat) : Prop :=
  ∀ answers, Restoration p db now answers →
    ∀ requests, Reads now last (answers.filterMap notice) [] requests →
      ∀ market row, db.Outstanding now last market row →
        (runProcess requests).sharesOf (p.uuid.string row.marketID) (p.uuid.string row.txID) =
          openShares db terminated row

/-- An order with shares open is in a market that is neither suspended nor paused, and has lost
none to rejected matches; with none open, the sum of its matches does not wrap below its
quantity. -/
def Restorable (db : Db) (terminated : List Str) (market : MarketRow) (row : PredictionIntent) :
    Prop :=
  if 0 < openShares db terminated row then
    (market.isSuspended = false ∧ market.isPaused = false) ∧
      2 ^ 64 ∣ rejectedShares db terminated row
  else market.isSuspended = false → market.isPaused = false →
    row.qtyShares.getD 0 ≤ (row.sharesFilled + sumFills (db.unsettled row)) % 2 ^ 64

section Condition

variable {p : Platform} {db : Db} {terminated : List Str} {now last : Nat} {market : MarketRow}
  {row : PredictionIntent} {answers : List ((r : OrderRequest) × r.Answer)}
  {requests : List ClobRequest}

theorem MarketRow.tradeable_eq (market : MarketRow) (now : Nat) :
    market.tradeable now = (market.unresolved now && !market.isSuspended && !market.isPaused) :=
  rfl

/-- What there is of an outstanding order after a rebuild. -/
theorem Restoration.sharesOf (h : Restoration p db now answers) (hwrites : p.uuid.WritesHex)
    (haccepted : db.AllAccepted p) (hfills : db.FillsTyped)
    (hreads : Reads now last (answers.filterMap notice) [] requests)
    (hrow : db.Outstanding now last market row) :
    (runProcess requests).sharesOf (p.uuid.string row.marketID) (p.uuid.string row.txID) =
      if market.isSuspended = false ∧ market.isPaused = false then
        row.qtyShares.getD 0 - (row.sharesFilled + sumFills (db.unsettled row)) % 2 ^ 64
      else 0 := by
  obtain ⟨hmarket, hunresolved, hopen, hunexpired⟩ := hrow
  obtain ⟨markets, hmarkets, listing, hlisting, hnotices⟩ := h.notices
  rw [hnotices] at hreads
  have hids : (markets.map (·.marketID)).Nodup :=
    (hmarkets.map _).nodup_iff.mpr (db.markets.nodup.sublist (List.filter_sublist.map _))
  have hlisted : market ∈ markets ↔ market.isSuspended = false ∧ market.isPaused = false := by
    rw [hmarkets.mem_iff, List.mem_filter, MarketRow.tradeable_eq, hunresolved]
    simp [hmarket]
  have haccept := haccepted market.marketID row hopen
  rw [← restored_shares haccept (Db.openPredictionIntents_rows hopen).2 hfills]
  split
  · next htradeable =>
    cases hrestored : restored p db row with
    | none => exact hreads.sharesOf_zero haccepted hlisting hopen fun _ => hrestored
    | some o =>
        apply hreads.sharesOf hwrites haccepted hlisting hids (hlisted.mpr htradeable) hopen
          hrestored
        rw [restored_deadline hrestored haccept]
        exact hunexpired
  · next hhidden =>
    apply hreads.sharesOf_zero haccepted hlisting hopen
    intro hmem
    obtain ⟨market', hmarket', hid⟩ := List.mem_map.mp hmem
    have hrows := (List.mem_filter.mp (hmarkets.subset hmarket')).1
    obtain rfl := Table.eq_of_key hrows hmarket hid
    exact absurd (hlisted.mp hmarket') hhidden

/-- What is left of 64 bits of a sum is the quantity without part of it. -/
theorem sub_mod_eq_iff {q f s t : Nat} (h : f + s < q) (hq : q < 2 ^ 64) :
    q - (f + (s + t)) % 2 ^ 64 = q - (f + s) ↔ 2 ^ 64 ∣ t := by
  constructor
  · intro heq
    have hmod : (f + (s + t)) % 2 ^ 64 = f + s := by omega
    omega
  · intro hdvd
    omega

/-- Whether a rebuild restores what an outstanding order has open. -/
theorem restorable_iff (hrow : db.Outstanding now last market row) (haccepted : db.AllAccepted p) :
    (if market.isSuspended = false ∧ market.isPaused = false then
        row.qtyShares.getD 0 - (row.sharesFilled + sumFills (db.unsettled row)) % 2 ^ 64
      else 0) = openShares db terminated row ↔ Restorable db terminated market row := by
  have haccept := haccepted market.marketID row hrow.isOpen
  obtain ⟨order, horder, _⟩ := haccept.reads (Db.openPredictionIntents_rows hrow.isOpen).2
  have hqty : row.qtyShares.getD 0 < 2 ^ 64 := by
    rw [(haccept.denotes horder).1.qtyShares, Option.getD_some]
    exact (clobOrderFromIntent_fields horder).1
  have hsplit := sumFills_split db terminated row
  unfold Restorable
  by_cases hleft : 0 < openShares db terminated row
  · rw [if_pos hleft]
    by_cases htradeable : market.isSuspended = false ∧ market.isPaused = false
    · rw [if_pos htradeable, hsplit, openShares]
      unfold openShares at hleft
      rw [sub_mod_eq_iff (by omega) hqty]
      exact (and_iff_right htradeable).symm
    · rw [if_neg htradeable]
      exact ⟨fun h => absurd h.symm hleft.ne', fun h => absurd h.1 htradeable⟩
  · rw [if_neg hleft, Nat.eq_zero_of_not_pos hleft]
    by_cases htradeable : market.isSuspended = false ∧ market.isPaused = false
    · rw [if_pos htradeable, Nat.sub_eq_zero_iff_le]
      exact ⟨fun h _ _ => h, fun h => h htradeable.1 htradeable.2⟩
    · rw [if_neg htradeable]
      exact ⟨fun _ h h' => absurd ⟨h, h'⟩ htradeable, fun _ => rfl⟩

theorem RestoresOrders.restorable (h : RestoresOrders p db terminated now last)
    (hwrites : p.uuid.WritesHex) (haccepted : db.AllAccepted p) (hfills : db.FillsTyped)
    (hlast : now ≤ last) (hrow : db.Outstanding now last market row) :
    Restorable db terminated market row := by
  obtain ⟨answers, hrestoration⟩ := exists_restoration p db now
  obtain ⟨requests, hreads⟩ := exists_reads hlast (answers.filterMap notice) []
  have hshares := h answers hrestoration requests hreads market row hrow
  rw [hrestoration.sharesOf hwrites haccepted hfills hreads hrow] at hshares
  exact (restorable_iff hrow haccepted).mp hshares

/-- A rebuild restores every outstanding order exactly where each is in a market that the rebuild
lists, with no shares lost to rejected matches, unless it has nothing open. -/
theorem rebuild_restores_iff (p : Platform) (db : Db) (terminated : List Str) (now last : Nat)
    (hwrites : p.uuid.WritesHex) (haccepted : db.AllAccepted p) (hfills : db.FillsTyped)
    (hlast : now ≤ last) :
    RestoresOrders p db terminated now last ↔
      ∀ market row, db.Outstanding now last market row → Restorable db terminated market row := by
  constructor
  · intro h market row hrow
    exact h.restorable hwrites haccepted hfills hlast hrow
  · intro hcondition answers hrestoration requests hreads market row hrow
    rw [hrestoration.sharesOf hwrites haccepted hfills hreads hrow]
    exact (restorable_iff hrow haccepted).mpr (hcondition market row hrow)

end Condition

instance (db : Db) (terminated : List Str) (market : MarketRow) (row : PredictionIntent) :
    Decidable (Restorable db terminated market row) := inferInstanceAs (Decidable (ite _ _ _))

/-! ## Two open SELLs -/

/-- A match of one of two SELLs with some other order. -/
def sampleSellMatch (matchID : String) (txID : Uint128) (fill : Nat) (status : MatchStatus) :
    Match where
  marketID := sampleRebuiltMarket.marketID
  txId1 := 7
  txId2 := txID
  matchID := matchID.toList
  protocolVersion := 2
  fillShares := some fill
  executionYesPrice := some 625000
  yesCollateral := some 1
  noCollateral := some 1
  txHash := notYetAvailable
  status := status
  attempts := 0
  lastError := none

def sampleMatchedDb (paused : Bool) (matches_ : List Match) : Db where
  intents := (sampleRowsDb [sampleSell, sampleSell']).intents
  matches_ := matches_.foldl Table.insert .empty
  markets := Table.empty.insert { sampleRebuiltMarket with isPaused := paused }

theorem sampleMatchedDb_accepted (paused : Bool) (matches_ : List Match) :
    (sampleMatchedDb paused matches_).AllAccepted samplePlatform := by
  intro marketID row hrow
  refine sampleRows_accepted ?_ ?_ row (Db.openPredictionIntents_rows hrow).1
  · intro req hreq
    apply sampleSells_valid
    simp only [List.mem_cons, List.not_mem_nil, or_false] at hreq ⊢
    exact hreq.imp_right Or.inl
  · decide +kernel

/-- One SELL has a fill that is being settled; the other is matched in full, and a match of it
was rejected besides. -/
def sampleSettling : Db :=
  sampleMatchedDb false
    [sampleSellMatch "0x01" 0x01890f3e7c107cc198bc0242ac120003 4 .pending,
      sampleSellMatch "0x02" 0x01890f3e7c107cc198bc0242ac120004 10 .failed,
      sampleSellMatch "0x03" 0x01890f3e7c107cc198bc0242ac120004 3 .failed]

def sampleRejected : Db :=
  sampleMatchedDb false [sampleSellMatch "0x01" 0x01890f3e7c107cc198bc0242ac120003 4 .failed]

theorem restorable_of_rows {db : Db} {terminated : List Str} {now last : Nat}
    (h : ∀ market ∈ db.markets.rows, ∀ row ∈ db.openPredictionIntents market.marketID,
      Restorable db terminated market row) :
    ∀ market row, db.Outstanding now last market row → Restorable db terminated market row :=
  fun market row hrow => h market hrow.stored row hrow.isOpen

theorem fillsTyped_of_all {db : Db}
    (h : (db.matches_.rows.all fun m => m.fillShares.any (· < 2 ^ 64)) = true) :
    db.FillsTyped := by
  intro m hm _
  obtain ⟨fill, hfill, hlt⟩ := Option.any_eq_true _ _ |>.mp (List.all_eq_true.mp h m hm)
  exact ⟨fill, of_decide_eq_true hlt, hfill⟩

theorem rebuild_restores_settling :
    RestoresOrders samplePlatform sampleSettling ["0x03".toList] 100 200 :=
  (rebuild_restores_iff samplePlatform sampleSettling ["0x03".toList] 100 200
    sampleUuid_writesHex (sampleMatchedDb_accepted _ _) (fillsTyped_of_all (by decide +kernel))
    (by decide)).mpr (restorable_of_rows (by decide +kernel))

/-- The shares of a rejected match stay off the book, and so do the orders of a paused market. -/
theorem rebuild_loses_shares :
    sampleRejected.AllAccepted samplePlatform ∧ sampleRejected.FillsTyped ∧
      ¬RestoresOrders samplePlatform sampleRejected ["0x01".toList] 100 200 ∧
      (sampleMatchedDb true []).AllAccepted samplePlatform ∧
      ¬RestoresOrders samplePlatform (sampleMatchedDb true []) [] 100 200 := by
  have hlost {db : Db} {terminated : List Str} (haccepted : db.AllAccepted samplePlatform)
      (hfills : db.FillsTyped)
      (h : ∃ market ∈ db.markets.rows, ∃ row ∈ db.openPredictionIntents market.marketID,
        market.unresolved 100 = true ∧ 200 + deadlineMarginSecs < row.deadline.getD 0 ∧
          ¬Restorable db terminated market row) :
      ¬RestoresOrders samplePlatform db terminated 100 200 := by
    obtain ⟨market, hmarket, row, hrow, hunresolved, hunexpired, hnot⟩ := h
    intro hrestores
    exact hnot (hrestores.restorable sampleUuid_writesHex haccepted hfills (by decide)
      ⟨hmarket, hunresolved, hrow, hunexpired⟩)
  have hrejected : sampleRejected.FillsTyped := fillsTyped_of_all (by decide +kernel)
  have hpaused : (sampleMatchedDb true []).FillsTyped := fillsTyped_of_all (by decide +kernel)
  refine ⟨sampleMatchedDb_accepted _ _, hrejected, ?_, sampleMatchedDb_accepted _ _, ?_⟩
  · exact hlost (sampleMatchedDb_accepted _ _) hrejected (by decide +kernel)
  · exact hlost (sampleMatchedDb_accepted _ _) hpaused (by decide +kernel)

end PrismBackend.Api
