import PrismBackend.Api.Exchange
import PrismBackend.Api.Preimage
import PrismBackend.Api.Settleable

/-!
# API: what open SELL orders hold back

The check of a SELL reads the signer's shares and the open orders, and the order
is committed later. As long as no other SELL of the account is committed in
between, the open SELLs stay covered by the shares that the last check read.
-/

namespace PrismBackend.Api

open PrismBackend.Lib PrismBackend.Clob PrismBackend.PrismV2

/-! ## Open SELLs -/

def PredictionIntent.remaining (row : PredictionIntent) : Nat :=
  row.qtyShares.getD 0 - row.sharesFilled

def PredictionIntent.isSell (side : Nat) (row : PredictionIntent) : Bool :=
  row.action == some actionSell && row.side == some side

def sellShares (side : Nat) (rows : List PredictionIntent) : Nat :=
  ((rows.filter (·.isSell side)).map (·.remaining)).sum

/-- The shares that the open SELLs of an account have left to sell. -/
def Db.openSellShares (db : Db) (marketID : Uint128) (accountID : Str) (side : Nat) : Nat :=
  sellShares side (db.openPredictionIntentsOf marketID accountID)

def supplyBound : Nat := 2 ^ 63

/-! ## What the check computes -/

section Check

variable {p : Platform}

theorem newAuthorizationV2_side {req : PrismPredictionIntentRequest} {a : AuthorizationV2}
    (h : requestAuthorization p.uuid req = .ok a) :
    a.side = req.side ∧ a.action = req.action ∧ a.qtyShares = req.qtyShares := by
  have hassembled := newAuthorizationV2_assembled h
  exact ⟨hassembled.side, hassembled.action, hassembled.qtyShares⟩

/-- The terms of a row, from the request that it was made from. -/
theorem createOrderIntentRequest_terms {uuid : Uuid} {req : PrismPredictionIntentRequest}
    {terms : OrderTerms} (h : createOrderIntentRequest uuid req = .ok terms) :
    terms.side = some req.side ∧ terms.action = some req.action ∧
      terms.qtyShares = some req.qtyShares ∧ terms.accountID = req.accountId ∧
      uuid.parse req.marketId = .ok terms.marketID ∧ uuid.parse req.txId = .ok terms.txID := by
  simp only [createOrderIntentRequest, bind_ok_iff, mapError_ok_iff, Except.ok.injEq] at h
  obtain ⟨_, _, tx, htx, market, hmarket, rfl⟩ := h
  exact ⟨rfl, rfl, rfl, rfl, hmarket, htx⟩

theorem parseUint_ok {n : Nat} (h : n ≤ maxInt64) : parseUint n = .ok n := parseNumeric_ok h

/-- What the code takes an open order to hold back is what is left of it, if it is such a SELL. -/
theorem Accepted.reservedBy_eq {row : PredictionIntent} (h : Accepted p row) (side : Nat) :
    reservedBy p side row = if row.isSell side then row.remaining else 0 := by
  obtain ⟨⟨req, a, hvalid, _, ha, hcreated⟩, hkept⟩ := h
  obtain ⟨haside, haaction, haqty⟩ := newAuthorizationV2_side ha
  obtain ⟨hside, haction, hqty, _⟩ := createOrderIntentRequest_terms hcreated
  have hbound := (createOrderIntentRequest_bounds hcreated).2.1
  have hfilled : row.sharesFilled ≤ req.qtyShares := by
    have hle := hkept.filled_le
    rwa [hqty, Option.getD_some] at hle
  have hauth : authorizationFromIntent p.uuid row.toOrderTerms = .ok a := by
    rw [authorizationFromIntent_eq hvalid hcreated, ha]
  unfold reservedBy clobOrderFromIntent
  rw [hauth, parseUint_ok (hfilled.trans hbound),
    parseUint_ok (hkept.collateral_le.trans (hfilled.trans hbound))]
  show (if a.action ≠ actionSell ∨ a.side ≠ side then 0
    else sub64 a.qtyShares row.sharesFilled) = _
  rw [haaction, haside, haqty, PredictionIntent.isSell, hside, haction, PredictionIntent.remaining,
    hqty, Option.getD_some]
  by_cases hsell : req.action = actionSell ∧ req.side = side
  · have hsub : sub64 req.qtyShares row.sharesFilled = req.qtyShares - row.sharesFilled := by
      apply sub64_eq _ hfilled
      unfold maxInt64 at hbound
      omega
    rw [if_neg (by tauto), hsub, if_pos (by simp [hsell.1, hsell.2])]
  · rw [if_pos (by tauto), if_neg (by simpa using hsell)]

theorem sellShares_cons (side : Nat) (row : PredictionIntent) (rows : List PredictionIntent) :
    sellShares side (row :: rows) =
      (if row.isSell side then row.remaining else 0) + sellShares side rows := by
  unfold sellShares
  rw [List.filter_cons]
  split
  · rw [List.map_cons, List.sum_cons]
  · rw [Nat.zero_add]

theorem sum_reservedBy {rows : List PredictionIntent} (h : ∀ row ∈ rows, Accepted p row)
    (side : Nat) : (rows.map (reservedBy p side)).sum = sellShares side rows := by
  induction rows with
  | nil => rfl
  | cons row rows ih =>
      rw [List.map_cons, List.sum_cons, (h row List.mem_cons_self).reservedBy_eq, sellShares_cons,
        ih fun row' hrow' => h row' (List.mem_cons_of_mem row hrow')]

theorem reservedShares_eq_mod (side : Nat) (rows : List PredictionIntent) :
    reservedShares p side rows = (rows.map (reservedBy p side)).sum % 2 ^ 64 :=
  foldl_add64 _ rows

/-- Within the bound of a supply the sum of the check does not wrap. -/
theorem reservedShares_eq {rows : List PredictionIntent} (h : ∀ row ∈ rows, Accepted p row)
    {side : Nat} (hbound : sellShares side rows < supplyBound) :
    reservedShares p side rows = sellShares side rows := by
  rw [reservedShares_eq_mod, sum_reservedBy h]
  apply Nat.mod_eq_of_lt
  unfold supplyBound at hbound
  omega

end Check

/-! ## Totals over the steps -/

theorem PredictionIntent.Later.remaining_le {row row' : PredictionIntent} (h : row.Later row') :
    row'.remaining ≤ row.remaining := by
  unfold PredictionIntent.remaining
  rw [h.terms]
  exact Nat.sub_le_sub_left h.filled _

theorem PredictionIntent.Later.isSell_eq {row row' : PredictionIntent} (h : row.Later row')
    (side : Nat) : row'.isSell side = row.isSell side := by
  unfold PredictionIntent.isSell
  rw [h.terms]

/-- SELLs that were all among some orders earlier have no more left than those had. -/
theorem sellShares_le {side : Nat} {rows earlier : List PredictionIntent}
    (hnodup : (rows.map fun row => row.txID).Nodup)
    (h : ∀ row ∈ rows, row.isSell side = true → ∃ read ∈ earlier, read.Later row) :
    sellShares side rows ≤ sellShares side earlier := by
  apply sum_le_of_keys (fun row : PredictionIntent => row.txID) fun row => row.txID
  · exact hnodup.sublist (List.filter_sublist.map _)
  · intro row hrow
    obtain ⟨hmem, hsell⟩ := List.mem_filter.mp hrow
    obtain ⟨read, hread, hlater⟩ := h row hmem hsell
    refine ⟨read, List.mem_filter.mpr ⟨hread, ?_⟩, ?_, hlater.remaining_le⟩
    · rw [← hlater.isSell_eq side]
      exact hsell
    · rw [hlater.terms]

/-- Updates of the rows do not add to the open SELLs. -/
theorem Db.Onward.openSellShares_le {db db' : Db} (h : db.Onward db')
    (hkept : ∀ row ∈ db.intents.rows, row.Kept) (marketID : Uint128) (accountID : Str)
    (side : Nat) :
    db'.openSellShares marketID accountID side ≤ db.openSellShares marketID accountID side := by
  apply sellShares_le (db'.nodup_openPredictionIntentsOf marketID accountID)
  intro row' hrow' _
  obtain ⟨hlive, hmem', rfl, rfl, hopen⟩ := Db.mem_openPredictionIntentsOf.mp hrow'
  cases hold : db.intents.find row'.txID with
  | none =>
      have hfind := Table.find_key hmem'
      rw [h.none _ hold] at hfind
      exact absurd hfind (by simp)
  | some row =>
      obtain ⟨later, hlater, hfrom⟩ := h.some _ row hold
      rw [Table.find_key hmem', Option.some.injEq] at hlater
      subst hlater
      have hmem := (Table.find_eq_some.mp hold).1
      have hmarket : row.marketID = row'.marketID := by rw [hfrom.terms]
      refine ⟨row, Db.mem_openPredictionIntentsOf.mpr ⟨?_, hmem, hmarket, ?_, ?_⟩, hfrom⟩
      · rcases h.live _ hlive with hlive | hother
        · exact hlive
        · exact absurd hmarket (hother row hmem)
      · rw [hfrom.terms]
      · exact hfrom.isOpen (hkept row hmem) hopen

theorem sellShares_append (side : Nat) (rows rows' : List PredictionIntent) :
    sellShares side (rows ++ rows') = sellShares side rows + sellShares side rows' := by
  simp only [sellShares, List.filter_append, List.map_append, List.sum_append]

/-- A new order adds its quantity to the SELLs of its account, market and side, and to no other. -/
theorem Db.openSellShares_insert (db : Db) {terms : OrderTerms}
    (hnew : db.intents.find terms.txID = none) (marketID : Uint128) (accountID : Str)
    (side : Nat) :
    ({ db with intents := db.intents.insert (.new terms) } : Db).openSellShares marketID accountID
        side ≤ db.openSellShares marketID accountID side +
      if terms.marketID = marketID ∧ terms.accountID = accountID ∧
        (PredictionIntent.new terms).isSell side = true then terms.qtyShares.getD 0 else 0 := by
  have hrows : (db.intents.insert (.new terms)).rows = db.intents.rows ++ [.new terms] :=
    Table.rows_insert hnew
  have hlive : ({ db with intents := db.intents.insert (.new terms) } : Db).isLive marketID =
      db.isLive marketID := rfl
  unfold Db.openSellShares Db.openPredictionIntentsOf
  rw [hlive]
  split
  · rw [hrows, List.filter_append, sellShares_append]
    apply Nat.add_le_add_left
    rw [List.filter_cons, List.filter_nil]
    split
    · next hmatches =>
      simp only [Bool.and_eq_true, beq_iff_eq] at hmatches
      have hmarket : terms.marketID = marketID := hmatches.1.1
      have haccount : terms.accountID = accountID := hmatches.1.2
      rw [sellShares_cons]
      show _ + 0 ≤ _
      by_cases hsell : (PredictionIntent.new terms).isSell side = true
      · rw [if_pos hsell, if_pos ⟨hmarket, haccount, hsell⟩]
        exact Nat.sub_le _ _
      · rw [if_neg hsell]
        exact Nat.zero_le _
    · exact Nat.zero_le _
  · exact Nat.zero_le _

/-! ## Runs -/

section Runs

variable {p : Platform} {sdk : Sdk} {s : Exchange} {e : Event} {task : Task}
  {req : PrismPredictionIntentRequest} {terms : OrderTerms}

/-- A SELL that is committed leaves its account's open SELLs within the shares that were read. -/
def Exchange.SellCovered (p : Platform) (sdk : Sdk) (s : Exchange) (e : Event) : Prop :=
  ∀ task req terms, s.Commits p e task req terms → req.action = actionSell →
    ∃ net contractID balances,
      ⟨.getUserPositionBalancesV2 net contractID req.marketId req.evmAddress, .ok balances⟩ ∈
        task.answers ∧
      (s.next p sdk e).db.openSellShares terms.marketID req.accountId req.side ≤
        heldShares req.side balances

/-- The sums of the check, over any open orders that were read, are exact. -/
def Exchange.SumsExact (p : Platform) (s : Exchange) : Prop :=
  ∀ task ∈ s.tasks, ∀ marketID accountID openOrders,
    ⟨.getAllOpenPredictionIntentsByMarketIdAndAccountId marketID accountID, .ok openOrders⟩ ∈
      task.answers →
    ∀ side qtyShares, qtyShares ≤ maxInt64 →
      reservedShares p side openOrders = sellShares side openOrders ∧
        add64 (reservedShares p side openOrders) qtyShares =
          sellShares side openOrders + qtyShares

/-- A SELL is committed while every open SELL of its account is one that its check read, and the
shares that it read are within the bound of a supply. -/
def Exchange.Unraced (p : Platform) (s : Exchange) (e : Event) : Prop :=
  ∀ task req terms, s.Commits p e task req terms → req.action = actionSell →
    (∀ openOrders,
      ⟨.getAllOpenPredictionIntentsByMarketIdAndAccountId terms.marketID req.accountId,
        .ok openOrders⟩ ∈ task.answers →
      ∀ row ∈ s.db.openPredictionIntentsOf terms.marketID req.accountId,
        row.isSell req.side = true → ∃ read ∈ openOrders, read.txID = row.txID) ∧
    ∀ net contractID balances,
      ⟨.getUserPositionBalancesV2 net contractID req.marketId req.evmAddress, .ok balances⟩ ∈
        task.answers →
      heldShares req.side balances < supplyBound

/-- Before any request: accepted orders, with open SELLs within the bound of a supply. -/
structure Exchange.AtRest (p : Platform) (s : Exchange) : Prop where
  tasks : s.tasks = []
  accepted : s.AllAccepted p
  bounded : ∀ marketID accountID side,
    s.db.openSellShares marketID accountID side < supplyBound

structure Exchange.HasRead (p : Platform) (s : Exchange) (rows : List PredictionIntent) : Prop where
  accepted : ∀ read ∈ rows, Accepted p read
  later : ∀ read ∈ rows, ∃ row, s.db.intents.find read.txID = some row ∧ read.Later row
  bounded : ∀ side, sellShares side rows < supplyBound

structure Exchange.Sound (p : Platform) (sdk : Sdk) (s : Exchange) : Prop where
  path : s.OnPath p sdk
  accepted : s.AllAccepted p
  bounded : ∀ marketID accountID side,
    s.db.openSellShares marketID accountID side < supplyBound
  read : ∀ task ∈ s.tasks, ∀ marketID accountID openOrders,
    ⟨.getAllOpenPredictionIntentsByMarketIdAndAccountId marketID accountID, .ok openOrders⟩ ∈
      task.answers → s.HasRead p openOrders

theorem Exchange.AtRest.sound (h : s.AtRest p) (sdk : Sdk) : s.Sound p sdk := by
  refine ⟨?_, h.accepted, h.bounded, ?_⟩
  · intro task htask
    exact absurd (h.tasks ▸ htask) List.not_mem_nil
  · intro task htask
    exact absurd (h.tasks ▸ htask) List.not_mem_nil

theorem Exchange.Sound.hasRead (hs : s.Sound p sdk) {marketID : Uint128} {accountID : Str}
    {openOrders : List PredictionIntent}
    (h : openOrders.Perm (s.db.openPredictionIntentsOf marketID accountID)) :
    s.HasRead p openOrders := by
  have hmem {read : PredictionIntent} (hread : read ∈ openOrders) : read ∈ s.db.intents.rows :=
    (Db.mem_openPredictionIntentsOf.mp (h.mem_iff.mp hread)).2.1
  refine ⟨fun read hread => hs.accepted read (hmem hread), ?_, ?_⟩
  · intro read hread
    exact ⟨read, Table.find_key (hmem hread), PredictionIntent.Later.refl read⟩
  · intro side
    have hsame : sellShares side openOrders = s.db.openSellShares marketID accountID side :=
      ((h.filter _).map _).sum_nat
    rw [hsame]
    exact hs.bounded marketID accountID side

/-- The rows only go on, so what was read stays read. -/
theorem Exchange.HasRead.next {rows : List PredictionIntent} (h : s.HasRead p rows)
    (hallowed : s.Allowed p e) : (s.next p sdk e).HasRead p rows := by
  refine ⟨h.accepted, ?_, h.bounded⟩
  intro read hread
  obtain ⟨row, hrow, hlater⟩ := h.later read hread
  obtain ⟨row', hrow', hlater'⟩ := s.row_next sdk hallowed hrow
  exact ⟨row', hrow', hlater.trans hlater'⟩

/-- What a check that passed says, while nothing was committed since it read. -/
theorem Exchange.Sound.checked (hs : s.Sound p sdk) (hcommits : s.Commits p e task req terms)
    (hsell : req.action = actionSell) (hunraced : s.Unraced p e) :
    ∃ net contractID balances,
      ⟨.getUserPositionBalancesV2 net contractID req.marketId req.evmAddress, .ok balances⟩ ∈
        task.answers ∧
      s.db.openSellShares terms.marketID req.accountId req.side + req.qtyShares ≤
        heldShares req.side balances ∧
      heldShares req.side balances < supplyBound := by
  obtain ⟨hread, hheld⟩ := hunraced task req terms hcommits hsell
  obtain ⟨subject, payload, rest, hprogram⟩ := hcommits.request
  obtain ⟨req', c, hcreates⟩ := hs.path.create hcommits.mem hprogram trivial
  cases hcreates.request
  have hdraft := hcreates.draft
  obtain ⟨haside, haaction, _⟩ := newAuthorizationV2_side (draftOrder_ok hdraft)
  obtain ⟨_, _, _, _, hmarket, _⟩ := createOrderIntentRequest_terms hcommits.created
  have hamarket : c.auth.marketId = terms.marketID := by
    have hparsed := (newAuthorizationV2_assembled (draftOrder_ok hdraft)).market
    rw [hmarket, Except.ok.injEq] at hparsed
    exact hparsed.symm
  have hnotBuy : c.auth.action ≠ actionBuy := by
    rw [haaction, hsell]
    decide
  obtain ⟨balances, openOrders, hbalances, horders, hcheck⟩ := hcreates.sell hnotBuy
  rw [hamarket] at horders
  have hbound := hheld _ _ _ hbalances
  refine ⟨_, _, balances, hbalances, ?_, hbound⟩
  have hhas := hs.read task hcommits.mem _ _ _ horders
  have hqty := (createOrderIntentRequest_bounds hcommits.created).2.1
  have hsum := hhas.bounded req.side
  -- the check is about what was read, and that was at least what is open now
  have hle : s.db.openSellShares terms.marketID req.accountId req.side ≤
      sellShares req.side openOrders := by
    apply sellShares_le (s.db.nodup_openPredictionIntentsOf _ _)
    intro row hrow hrowSell
    obtain ⟨read, hmem, hkey⟩ := hread openOrders horders row hrow hrowSell
    obtain ⟨found, hfound, hlater⟩ := hhas.later read hmem
    have hrowMem := (Db.mem_openPredictionIntentsOf.mp hrow).2.1
    rw [hkey, Table.find_key hrowMem, Option.some.injEq] at hfound
    subst hfound
    exact ⟨read, hmem, hlater⟩
  have hwrap : add64 (sellShares req.side openOrders) req.qtyShares =
      sellShares req.side openOrders + req.qtyShares := by
    apply add64_eq
    unfold supplyBound at hsum
    unfold maxInt64 at hqty
    omega
  simp only [checkShares, revertIf_ok_iff, haside, reservedShares_eq hhas.accepted hsum, hwrap,
    not_lt] at hcheck
  omega

/-- Every step under the condition keeps the open SELLs within the bound of a supply. -/
theorem Exchange.Sound.next (hs : s.Sound p sdk) (hallowed : s.Allowed p e)
    (hunraced : s.Unraced p e) : (s.next p sdk e).Sound p sdk := by
  have hkept : ∀ row ∈ s.db.intents.rows, row.Kept := fun row hrow => (hs.accepted row hrow).kept
  refine ⟨hs.path.next hallowed, hs.accepted.next hs.path hallowed, ?_, ?_⟩
  · intro marketID accountID side
    rcases s.next_rows sdk hallowed with ⟨task, req, terms, hcommits, hdb⟩ | honward
    · obtain ⟨hside, haction, hqty, haccount, _, _⟩ :=
        createOrderIntentRequest_terms hcommits.created
      have hinsert := s.db.openSellShares_insert hcommits.new marketID accountID side
      rw [← hdb] at hinsert
      split at hinsert
      · next hsame =>
        obtain ⟨rfl, rfl, hsell⟩ := hsame
        simp only [PredictionIntent.isSell, PredictionIntent.new, hside, haction,
          Bool.and_eq_true, beq_iff_eq, Option.some.injEq] at hsell
        obtain ⟨hsell, rfl⟩ := hsell
        obtain ⟨_, _, _, _, hcovered, hbound⟩ := hs.checked hcommits hsell hunraced
        rw [hqty, Option.getD_some] at hinsert
        rw [haccount] at hinsert ⊢
        omega
      · exact hinsert.trans_lt (hs.bounded marketID accountID side)
    · exact (honward.openSellShares_le hkept marketID accountID side).trans_lt
        (hs.bounded marketID accountID side)
  · intro task' hmem marketID accountID openOrders hanswer
    rcases Exchange.mem_tasks_next hmem with hold | ⟨kind, rfl, rfl⟩ |
      ⟨i, answer, commit, id, task, r, rest, rfl, htask, hprogram, rfl⟩
    · exact (hs.read task' hold _ _ _ hanswer).next hallowed
    · exact absurd hanswer List.not_mem_nil
    · rcases List.mem_append.mp hanswer with hbefore | hnew
      · exact (hs.read task (List.mem_of_getElem? htask) _ _ _ hbefore).next hallowed
      · have hanswered := List.mem_singleton.mp hnew
        have hhonest := hallowed.2 task r rest htask hprogram
        rw [Sigma.mk.injEq] at hanswered
        obtain ⟨rfl, hanswered⟩ := hanswered
        rw [← eq_of_heq hanswered] at hhonest
        exact (hs.hasRead hhonest).next hallowed

/-- In a run in which every SELL is committed while all open SELLs of its account are ones that
its check read, every SELL is covered by the shares that its check read, and no sum wraps. -/
theorem sells_covered {start : Exchange} (hstart : start.AtRest p) {before : List Event}
    {after : List Event}
    (hruns : (exchange p sdk).Runs (Exchange.Unraced p) start (before ++ e :: after)) :
    ((exchange p sdk).run start before).SellCovered p sdk e ∧
      ((exchange p sdk).run start before).SumsExact p := by
  obtain ⟨hs, hallowed, hunraced⟩ : Exchange.Sound p sdk ((exchange p sdk).run start before) ∧
      Exchange.Allowed p ((exchange p sdk).run start before) e ∧
      Exchange.Unraced p ((exchange p sdk).run start before) e :=
    hruns.at (fun s e hs hallowed hunraced => hs.next hallowed hunraced) (hstart.sound sdk)
  refine ⟨?_, ?_⟩
  · intro task req terms hcommits hsell
    obtain ⟨net, contractID, balances, hanswer, hcovered, _⟩ :=
      hs.checked hcommits hsell hunraced
    refine ⟨net, contractID, balances, hanswer, ?_⟩
    obtain ⟨_, _, hqty, _⟩ := createOrderIntentRequest_terms hcommits.created
    have hinsert := Db.openSellShares_insert _ hcommits.new terms.marketID req.accountId req.side
    rw [← hcommits.next_db sdk, hqty, Option.getD_some] at hinsert
    split at hinsert
    · exact hinsert.trans hcovered
    · omega
  · intro task htask marketID accountID openOrders hanswer side qtyShares hqty
    have hhas := hs.read task htask _ _ _ hanswer
    have hsum := hhas.bounded side
    rw [reservedShares_eq hhas.accepted hsum]
    refine ⟨rfl, add64_eq ?_⟩
    unfold supplyBound at hsum
    unfold maxInt64 at hqty
    omega

end Runs

/-! ## Two SELLs of the same shares -/

deriving instance DecidableEq for PrismPredictionIntentRequest

def sampleSdk : Sdk where
  accountIDFromString := .ok
  publicKeyFromString := fun _ => .ok ['k']
  usdcAddress := fun _ => .ok "0.0.429274".toList
  verifySignature := fun _ _ _ => .ok true
  verifySig := fun _ _ _ => .ok true

def sampleExchange : Exchange where
  clock := 0
  db :=
    { Db.empty with
      markets := Table.empty.insert ⟨0x01890f3e7c107cc198bc0242ac120002, "0.0.5001".toList,
        2000000000, false, false, false, false⟩ }
  outbox := .empty
  tasks := []
  stream := []
  acknowledged := []
  clob := .new
  fills := []

def sampleSell : PrismPredictionIntentRequest :=
  { sampleRequest with
    verifyingContract := sampleProxy
    side := sideYes
    action := actionSell
    qtyShares := 10
    collateralCap := 0 }

def sampleSell' : PrismPredictionIntentRequest :=
  { sampleSell with txId := "01890f3e-7c10-7cc1-98bc-0242ac120004".toList }

def samplePart : PrismPredictionIntentRequest := { sampleSell with qtyShares := 4 }

def sampleRest : PrismPredictionIntentRequest := { sampleSell' with qtyShares := 6 }

theorem sampleExchange_atRest : sampleExchange.AtRest samplePlatform := by
  refine ⟨rfl, ?_, ?_⟩
  · intro row hrow
    exact absurd hrow List.not_mem_nil
  · intro marketID accountID side
    have hnone : sampleExchange.db.openPredictionIntentsOf marketID accountID = [] := by
      unfold Db.openPredictionIntentsOf
      split
      · rfl
      · rfl
    rw [Db.openSellShares, hnone]
    exact Nat.two_pow_pos 63

theorem sampleSell_allowed (s : Exchange) {req : PrismPredictionIntentRequest}
    (h : req ∈ [sampleSell, sampleSell', samplePart, sampleRest]) :
    s.Allowed samplePlatform (.start (.create req)) := by
  simp only [List.mem_cons, List.not_mem_nil, or_false] at h
  rcases h with rfl | rfl | rfl | rfl
  all_goals exact ⟨by constructor <;> decide +kernel, by constructor <;> decide +kernel⟩

def Exchange.holdsAtMost (s : Exchange) (bound : Nat) : Bool :=
  s.tasks.all fun task => task.answers.all fun answered =>
    match answered with
    | ⟨.getUserPositionBalancesV2 _ _ _ _, .ok balances⟩ =>
      decide (balances.1 ≤ bound) && decide (balances.2 ≤ bound)
    | _ => true

def Exchange.atCommit (s : Exchange) (i : Nat) (req : PrismPredictionIntentRequest) : Bool :=
  (s.tasks[i]?).any fun task =>
    match task.program with
    | .call (.createOrderIntentRequestWithOutbox req' _ _) _ => decide (req' = req)
    | _ => false

section Sample

variable {s : Exchange}

theorem Exchange.heldShares_le {bound : Nat} (h : s.holdsAtMost bound = true) {task : Task}
    (htask : task ∈ s.tasks) {net contractID marketId evmAddress : Str} {balances : Nat × Nat}
    (hanswer : ⟨.getUserPositionBalancesV2 net contractID marketId evmAddress, .ok balances⟩ ∈
      task.answers) (side : Nat) : heldShares side balances ≤ bound := by
  have hall := List.all_eq_true.mp (List.all_eq_true.mp h task htask) _ hanswer
  simp only [Bool.and_eq_true, decide_eq_true_eq] at hall
  unfold heldShares
  split
  · exact hall.2
  · exact hall.1

/-- A task whose next request is the commit of an order has read every order that there is. -/
def Exchange.readsAll (s : Exchange) : Bool :=
  s.tasks.all fun task =>
    match task.program with
    | .call (.createOrderIntentRequestWithOutbox _ _ _) _ =>
      task.answers.all fun answered =>
        match answered with
        | ⟨.getAllOpenPredictionIntentsByMarketIdAndAccountId _ _, .ok openOrders⟩ =>
          s.db.intents.rows.all fun row => openOrders.any (·.txID = row.txID)
        | _ => true
    | _ => true

theorem Exchange.unraced_of_readsAll {p : Platform} {e : Event}
    (h : (s.readsAll && s.holdsAtMost 10) = true) : s.Unraced p e := by
  obtain ⟨hreads, hholds⟩ := Bool.and_eq_true_iff.mp h
  intro task req terms hcommits _
  refine ⟨?_, ?_⟩
  · intro openOrders hanswer row hrow _
    have htask := List.all_eq_true.mp hreads task hcommits.mem
    obtain ⟨subject, payload, rest, hprogram⟩ := hcommits.request
    rw [hprogram] at htask
    have hrows := List.all_eq_true.mp (List.all_eq_true.mp htask _ hanswer) row
      (Db.mem_openPredictionIntentsOf.mp hrow).2.1
    obtain ⟨read, hread, hsame⟩ := List.any_eq_true.mp hrows
    exact ⟨read, hread, of_decide_eq_true hsame⟩
  · intro net contractID balances hanswer
    exact (Exchange.heldShares_le hholds hcommits.mem hanswer _).trans_lt (by decide)

theorem Exchange.commits_promptly {p : Platform} {i : Nat} {req : PrismPredictionIntentRequest}
    {terms : OrderTerms} (h : s.atCommit i req = true)
    (hterms : createOrderIntentRequest p.uuid req = .ok terms)
    (hnew : s.db.intents.find terms.txID = none) :
    ∃ task, s.Commits p (s.promptly p i) task req terms := by
  unfold Exchange.atCommit at h
  cases htask : s.tasks[i]? with
  | none =>
      rw [htask] at h
      exact absurd h Bool.false_ne_true
  | some task =>
      rw [htask, Option.any_some] at h
      split at h
      · next req' subject payload rest hprogram =>
        obtain rfl := of_decide_eq_true h
        exact ⟨task, List.mem_of_getElem? htask, ⟨i, _, _, rfl, htask⟩,
          ⟨subject, payload, rest, hprogram⟩, hterms, hnew⟩
      · exact absurd h Bool.false_ne_true

end Sample

/-- The first SELL is started, and all but its commit is served. -/
def oneSell : List Event :=
  .start (.create sampleSell) :: Exchange.replies samplePlatform sampleSdk 0 9
    (sampleExchange.next samplePlatform sampleSdk (.start (.create sampleSell)))

def firstSell : List Event :=
  .start (.create samplePart) :: Exchange.replies samplePlatform sampleSdk 0 10
    (sampleExchange.next samplePlatform sampleSdk (.start (.create samplePart)))

/-- The table holds a SELL when the next one is checked. -/
def sellsInTurn : List Event :=
  let committed := (exchange samplePlatform sampleSdk).run sampleExchange firstSell
  firstSell ++ .start (.create sampleRest) :: Exchange.replies samplePlatform sampleSdk 1 9
    (committed.next samplePlatform sampleSdk (.start (.create sampleRest)))

theorem sells_covered_in_turn :
    let s := (exchange samplePlatform sampleSdk).run sampleExchange sellsInTurn
    let e := s.promptly samplePlatform 1
    s.atCommit 1 sampleRest = true ∧
      (s.next samplePlatform sampleSdk e).db.intents.rows.map (·.qtyShares) = [some 4, some 6] ∧
      s.SellCovered samplePlatform sampleSdk e ∧ s.SumsExact samplePlatform := by
  intro s e
  have hruns : (exchange samplePlatform sampleSdk).Runs (Exchange.Unraced samplePlatform)
      sampleExchange (sellsInTurn ++ [e]) := by
    apply System.runs_append.mpr
    have hfirst := sampleSell_allowed sampleExchange (show samplePart ∈ _ by simp)
    have hsecond := sampleSell_allowed ((exchange samplePlatform sampleSdk).run sampleExchange
      firstSell) (show sampleRest ∈ _ by simp)
    refine ⟨System.runs_append.mpr ⟨⟨hfirst, ?_, ?_⟩, hsecond, ?_, ?_⟩,
      Exchange.promptly_allowed _ _ _, ?_, trivial⟩
    · exact Exchange.unraced_of_readsAll (by decide +kernel)
    · exact Exchange.runs_replies _ _ (fun _ _ => Exchange.unraced_of_readsAll) (by decide +kernel)
    · exact Exchange.unraced_of_readsAll (by decide +kernel)
    · exact Exchange.runs_replies _ _ (fun _ _ => Exchange.unraced_of_readsAll) (by decide +kernel)
    · exact Exchange.unraced_of_readsAll (by decide +kernel)
  exact ⟨by decide +kernel, by decide +kernel, sells_covered sampleExchange_atRest hruns⟩

/-- Both SELLs are started, and each is checked before the first is committed. -/
def twoSells : List Event :=
  let started := (exchange samplePlatform sampleSdk).run sampleExchange
    [.start (.create sampleSell), .start (.create sampleSell')]
  let first := Exchange.replies samplePlatform sampleSdk 0 9 started
  let checked := (exchange samplePlatform sampleSdk).run started first
  let second := Exchange.replies samplePlatform sampleSdk 1 9 checked
  let both := (exchange samplePlatform sampleSdk).run checked second
  [.start (.create sampleSell), .start (.create sampleSell')] ++
    (first ++ (second ++ Exchange.replies samplePlatform sampleSdk 0 1 both))

/-- Two SELLs of the same shares are both committed. -/
theorem sells_raced :
    ∃ before e, sampleExchange.AtRest samplePlatform ∧
      (exchange samplePlatform sampleSdk).Runs (fun _ _ => True) sampleExchange (before ++ [e]) ∧
      ¬((exchange samplePlatform sampleSdk).run sampleExchange before).SellCovered samplePlatform
        sampleSdk e := by
  refine ⟨twoSells, ((exchange samplePlatform sampleSdk).run sampleExchange twoSells).promptly
    samplePlatform 1, sampleExchange_atRest, ?_, ?_⟩
  · apply System.runs_append.mpr
    refine ⟨?_, Exchange.promptly_allowed _ _ _, trivial, trivial⟩
    refine System.runs_append.mpr ⟨?_, System.runs_append.mpr ⟨Exchange.runs_replies_any _ _ _ _ _,
      System.runs_append.mpr ⟨Exchange.runs_replies_any _ _ _ _ _,
        Exchange.runs_replies_any _ _ _ _ _⟩⟩⟩
    exact ⟨sampleSell_allowed sampleExchange (by simp), trivial,
      sampleSell_allowed (sampleExchange.next samplePlatform sampleSdk
        (.start (.create sampleSell))) (by simp), trivial,
      trivial⟩
  · intro hcovered
    have hready : (((exchange samplePlatform sampleSdk).run sampleExchange twoSells).atCommit 1
        sampleSell' && ((exchange samplePlatform sampleSdk).run sampleExchange twoSells).holdsAtMost
          10) = true := by
      decide +kernel
    have hchecked : ((createOrderIntentRequest samplePlatform.uuid sampleSell').toOption.any
        fun terms => (((exchange samplePlatform sampleSdk).run sampleExchange
            twoSells).db.intents.find terms.txID).isNone &&
          decide (10 < (((exchange samplePlatform sampleSdk).run sampleExchange twoSells).next
            samplePlatform sampleSdk (((exchange samplePlatform sampleSdk).run sampleExchange
              twoSells).promptly samplePlatform 1)).db.openSellShares terms.marketID
                sampleSell'.accountId sampleSell'.side)) = true := by
      decide +kernel
    obtain ⟨hcommit, hholds⟩ := Bool.and_eq_true_iff.mp hready
    obtain ⟨terms, hterms, hafter⟩ := (Option.any_eq_true _ _).mp hchecked
    obtain ⟨hnew, hmore⟩ := Bool.and_eq_true_iff.mp hafter
    obtain ⟨task, hcommits⟩ := Exchange.commits_promptly hcommit (toOption_eq_some_iff.mp hterms)
      (Option.isNone_iff_eq_none.mp hnew)
    obtain ⟨net, contractID, balances, hanswer, hle⟩ := hcovered task sampleSell' terms hcommits rfl
    have hheld := Exchange.heldShares_le hholds hcommits.mem hanswer sampleSell'.side
    have hmore := of_decide_eq_true hmore
    omega

end PrismBackend.Api
