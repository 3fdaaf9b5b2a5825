import PrismBackend.Lib.Entries
import PrismBackend.Lib.System
import PrismBackend.Api.Cancellation
import PrismBackend.Api.ExpiredOrders
import PrismBackend.Api.Submission

/-!
# API: the kick-out beside settlement

The kick-out reads the open orders of an account, then the shares of one signer,
and evicts; the settlement of matches, new orders and cancellations go on between
two of its requests. A SELL is unbacked at a moment when its signer holds fewer
shares than the signer's open SELLs of that outcome still have to deliver.
-/

namespace PrismBackend.Api

open PrismBackend.Lib PrismBackend.Clob PrismBackend.PrismV2
open Program (request)

/-! ## The job -/

section Job

variable (p : Platform)

/-- `evict`, for one order after the other. -/
def evictAll (marketID : Uint128) : List PredictionIntent → OrderM Unit
  | [] => pure ()
  | pi :: rows => do
    evict p marketID pi.txID
    evictAll marketID rows

/-- `validateAndKickoutSellOrders` as a program. -/
def kickOutSellOrders (net contractID : Str) (marketID : Uint128) :
    List PredictionIntent → OrderM Unit
  | [] => pure ()
  | first :: rest => do
    match ← request (OrderRequest.getUserPositionBalancesV2 net contractID
        (p.uuid.string marketID) first.evmaddress) with
    | .error _ => pure ()
    | .ok balances =>
      evictAll p marketID (kickOutSells p.uuid balances.1 balances.2 0 0 (first :: rest))

def kickOutAccount (net contractID usdcAddress : Str) (marketID : Uint128) (accountID : Str) :
    OrderM Unit := do
  match ← request (OrderRequest.getSpenderAllowance net accountID contractID usdcAddress) with
  | .error _ => pure ()
  | .ok allowance =>
  match ← request (OrderRequest.getUsdcBalanceUsd net accountID) with
  | .error _ => pure ()
  | .ok usdcBalance =>
  match ← request (OrderRequest.getAllOpenPredictionIntentsByMarketIdAndAccountId marketID
      accountID) with
  | .error _ => pure ()
  | .ok rows => do
    evictAll p marketID (validateAndKickoutBuyOrders p.uuid (min allowance usdcBalance) 0
      (rows.filter (·.isBuyOrder)))
    kickOutSellOrders p net contractID marketID (rows.filter (!·.isBuyOrder))

end Job

/-! ## State -/

abbrev OrderAnswers := List ((r : OrderRequest) × r.Answer)

/-- The job for one account in one market, with the states that it has lived through, which the
code keeps nowhere. -/
structure KickOutJob where
  net : Str
  contractID : Str
  usdcAddress : Str
  marketID : Uint128
  accountID : Str
  program : OrderM Unit
  answers : OrderAnswers
  seen : List World

structure KickOutWorld where
  world : World
  jobs : List KickOutJob

inductive KickOutEvent
  /- a step of the settlement, or of what goes on beside it -/
  | step (l : Label)
  | start (net contractID usdcAddress : Str) (marketID : Uint128) (accountID : Str)
  /- a request of a job is answered, and its effect takes place or not -/
  | serve (i : Nat) (answer : (r : OrderRequest) → r.Answer) (commit : Bool)
  /- a job has returned, or is lost -/
  | stop (i : Nat)

def rowsRead (answers : OrderAnswers) : List PredictionIntent :=
  (answers.findSome? fun
    | ⟨.getAllOpenPredictionIntentsByMarketIdAndAccountId _ _, .ok rows⟩ => some rows
    | _ => none).getD []

section Steps

variable (p : Platform) (nets : Str → Network)

/-- The effect of a request that takes place; the book of the CLOB is left out. -/
def World.kickOutEffect (w : World) : OrderRequest → World
  | .cancelPredictionIntent txId =>
    match p.uuid.parse txId with
    | .ok txID => w.next p nets (.cancel txID)
    | .error _ => w
  | .markPredictionIntentAsEvicted txID => w.next p nets (.evict txID)
  | _ => w

/-- What an answer may say: the orders are those of the database, and the shares are those of the
signer, at moments up to this one. -/
def World.KickOutHonest (w : World) : (r : OrderRequest) → r.Answer → Prop
  | .getAllOpenPredictionIntentsByMarketIdAndAccountId marketID accountID, .ok rows =>
    rows.Perm (w.db.openPredictionIntentsOf marketID accountID)
  | .getUserPositionBalancesV2 net _ marketId evmAddress, .ok balances =>
    ∃ marketID signer, p.uuid.parse marketId = .ok marketID ∧
      addressBytes evmAddress = some signer ∧
      (∃ n, balances.1 = (PrismV2.run (nets net).c (nets net).d.state
        ((w.history net).take n)).yesBalance marketID signer) ∧
      ∃ n, balances.2 = (PrismV2.run (nets net).c (nets net).d.state
        ((w.history net).take n)).noBalance marketID signer
  | _, _ => True

def KickOutWorld.serve (s : KickOutWorld) (i : Nat) (answer : (r : OrderRequest) → r.Answer)
    (commit : Bool) : KickOutWorld :=
  match s.jobs[i]? with
  | none => s
  | some job =>
    match job.program with
    | .ret _ => s
    | .call r rest =>
      { world := if commit then s.world.kickOutEffect p nets r else s.world
        jobs := s.jobs.set i { job with
          program := rest (answer r)
          answers := job.answers ++ [⟨r, answer r⟩] } }

def KickOutWorld.advance (s : KickOutWorld) : KickOutEvent → KickOutWorld
  | .step l => { s with world := s.world.next p nets l }
  | .start net contractID usdcAddress marketID accountID =>
    { s with jobs := s.jobs ++ [⟨net, contractID, usdcAddress, marketID, accountID,
        kickOutAccount p net contractID usdcAddress marketID accountID, [], []⟩] }
  | .serve i answer commit => s.serve p nets i answer commit
  | .stop i => { s with jobs := s.jobs.eraseIdx i }

def KickOutWorld.observed (s : KickOutWorld) : KickOutWorld :=
  { s with jobs := s.jobs.map fun job => { job with seen := job.seen ++ [s.world] } }

def KickOutWorld.Allowed (s : KickOutWorld) : KickOutEvent → Prop
  | .step l => s.world.Allowed p nets l
  | .serve i answer _ => ∀ job r rest, s.jobs[i]? = some job → job.program = .call r rest →
    s.world.KickOutHonest p nets r (answer r)
  | _ => True

def kickOut : System KickOutWorld KickOutEvent where
  next s e := (s.advance p nets e).observed
  Allowed := KickOutWorld.Allowed p nets

/-! ## Backing -/

def OrderTerms.authorization (row : OrderTerms) : Option Authorization :=
  (authorizationFromIntent p.uuid row).toOption.bind AuthorizationV2.decoded

/-- What a SELL of the signer on the side still has to deliver, by the fills on the chain. -/
def sellLeft (c : Chain) (s : State) (signer : Address) (side : Side) (row : PredictionIntent) :
    Nat :=
  match row.authorization p with
  | none => 0
  | some x =>
    if x.action = .sell ∧ x.signer = signer ∧ x.side = side then
      x.qtyShares - (s.fills (authorizationHash c x)).shares
    else 0

/-- The unfilled remainder of the signer's open SELLs of an outcome. -/
def World.unfilledSells (w : World) (net : Str) (marketID : Uint128) (signer : Address)
    (side : Side) : Nat :=
  ((w.db.intents.rows.filter fun row =>
      row.marketID == marketID && isOpenPredictionIntent row).map
    (sellLeft p (nets net).c (w.contract nets net) signer side)).sum

/-- The signer holds fewer shares than the signer's open SELLs have to deliver. -/
def World.unbacked (w : World) (net : Str) (row : PredictionIntent) : Bool :=
  (row.authorization p).any fun x =>
    (w.contract nets net).position x.side row.marketID x.signer <
      w.unfilledSells p nets net row.marketID x.signer x.side

/-- A job asks for the eviction of a SELL only after a moment at which it was unbacked. -/
def KickOutWorld.SparesBacked (s : KickOutWorld) : Prop :=
  ∀ job ∈ s.jobs, ∀ txId rest, job.program = .call (.cancelPredictionIntent txId) rest →
    ∀ row ∈ s.world.db.intents.rows, p.uuid.parse txId = .ok row.txID → row.isBuyOrder = false →
      ∃ w ∈ job.seen, w.unbacked p nets job.net row = true

/-- The order is still open and signed by the signer, and the chain has filled no more of it than
its row showed when it was read. -/
def World.asRead (w : World) (net : Str) (signer : Address) (row : PredictionIntent) : Bool :=
  (w.db.intents.find row.txID).any isOpenPredictionIntent &&
    (row.authorization p).all fun x => x.signer = signer ∧
      ((w.contract nets net).fills (authorizationHash (nets net).c x)).shares ≤ row.sharesFilled

/-- Where a job reads shares, they are those of the moment, and its SELLs are as it read them and
all of the signer whose shares it reads. -/
def KickOutWorld.readsOneMoment (s : KickOutWorld) : KickOutEvent → Bool
  | .serve i answer _ =>
    match s.jobs[i]? with
    | none => true
    | some job =>
      match job.program with
      | .call (.getUserPositionBalancesV2 net contractID marketId evmAddress) _ =>
        match answer (.getUserPositionBalancesV2 net contractID marketId evmAddress),
            addressBytes evmAddress with
        | .ok balances, some signer =>
          balances.1 = (s.world.contract nets net).position .yes job.marketID signer ∧
            balances.2 = (s.world.contract nets net).position .no job.marketID signer ∧
            ((rowsRead job.answers).filter (!·.isBuyOrder)).all (s.world.asRead p nets net signer)
        | _, _ => true
      | _ => true
  | _ => true

end Steps

/-! ## What an eviction says about the rows -/

section Rows

variable {p : Platform} {nets : Str → Network} {pi : PredictionIntent}
  {rows : List PredictionIntent}

def outcomeLeft (uuid : Uuid) (yes : Bool) (pi : PredictionIntent) : Nat :=
  match clobOrderFromIntent uuid pi with
  | .error _ => 0
  | .ok order =>
    if (order.side == Clob.sideYes) = yes then order.qtyShares - order.sharesFilled else 0

/-- No order is filled beyond its quantity, as the table demands. -/
def PredictionIntent.WithinQty (row : PredictionIntent) : Prop :=
  ∀ qty, row.qtyShares = some qty → row.sharesFilled ≤ qty

theorem add64_le (a b : Nat) : add64 a b ≤ a + b := Nat.mod_le _ _

theorem clobOrderFromIntent_qty {uuid : Uuid} {order : CreateOrderRequestClob}
    (h : clobOrderFromIntent uuid pi = .ok order) : pi.qtyShares = some order.qtyShares := by
  simp only [clobOrderFromIntent, bind_ok_iff, mapError_ok_iff, parseUint, revertIf_ok_iff,
    exists_const, Except.ok.injEq] at h
  obtain ⟨a, ha, _, ⟨_, rfl⟩, _, ⟨_, rfl⟩, rfl⟩ := h
  unfold authorizationFromIntent at ha
  split at ha
  · simp only [bind_ok_iff, mapError_ok_iff] at ha
    obtain ⟨qty, hqty, cap, _, hassemble⟩ := ha
    rw [(newAuthorizationV2_assembled hassemble).qtyShares]
    cases hrow : pi.qtyShares with
    | none =>
        rw [hrow] at hqty
        exact absurd hqty (by simp [parseNumeric])
    | some n =>
        rw [hrow] at hqty
        simp only [parseNumeric, parseUint, bind_ok_iff, revertIf_ok_iff, exists_const,
          Except.ok.injEq] at hqty
        rw [hqty.2]
  · exact absurd ha (by simp)

/-- More is asked for of the order's outcome than there are shares. -/
def Exceeds (uuid : Uuid) (yesBalance noBalance askedYes askedNo : Nat) (pi : PredictionIntent) :
    Prop :=
  ∃ order, clobOrderFromIntent uuid pi = .ok order ∧
    if order.side = Clob.sideYes then yesBalance < askedYes else noBalance < askedNo

theorem Exceeds.mono {uuid : Uuid} {yesBalance noBalance askedYes askedNo askedYes' askedNo' : Nat}
    (h : Exceeds uuid yesBalance noBalance askedYes askedNo pi) (hyes : askedYes ≤ askedYes')
    (hno : askedNo ≤ askedNo') : Exceeds uuid yesBalance noBalance askedYes' askedNo' pi := by
  obtain ⟨order, horder, hover⟩ := h
  refine ⟨order, horder, ?_⟩
  split at hover
  · next hside =>
    rw [if_pos hside]
    omega
  · next hside =>
    rw [if_neg hside]
    omega

/-- Where the loop evicts an order, what is left of the orders of its outcome exceeds the shares.
A sum that wraps is no larger. -/
theorem kickOutSells_exceeds {uuid : Uuid} {yesBalance noBalance requiredYes requiredNo : Nat}
    (hwithin : ∀ row ∈ rows, row.WithinQty)
    (h : pi ∈ kickOutSells uuid yesBalance noBalance requiredYes requiredNo rows) :
    Exceeds uuid yesBalance noBalance (requiredYes + totalCost (outcomeLeft uuid true) rows)
      (requiredNo + totalCost (outcomeLeft uuid false) rows) pi := by
  induction rows generalizing requiredYes requiredNo with
  | nil => exact absurd h List.not_mem_nil
  | cons row rows ih =>
      have hrest : ∀ row ∈ rows, row.WithinQty :=
        fun row hrow => hwithin row (List.mem_cons_of_mem _ hrow)
      rw [kickOutSells] at h
      rw [totalCost_cons, totalCost_cons]
      cases horder : clobOrderFromIntent uuid row with
      | error err =>
          simp only [horder] at h
          apply (ih hrest h).mono <;> omega
      | ok order =>
          obtain ⟨hqty, _, hfilled, _⟩ := clobOrderFromIntent_fields horder
          have hle : order.sharesFilled ≤ order.qtyShares := by
            rw [hfilled]
            exact hwithin row List.mem_cons_self _ (clobOrderFromIntent_qty horder)
          simp only [horder, sub64_eq hqty hle] at h
          by_cases hside : order.side = Clob.sideYes
          · have hleft : outcomeLeft uuid true row = order.qtyShares - order.sharesFilled := by
              simp only [outcomeLeft, horder, hside, beq_self_eq_true, if_true]
            have hsum := add64_le requiredYes (order.qtyShares - order.sharesFilled)
            rw [if_pos hside] at h
            split at h
            · next hover =>
              rcases List.mem_cons.mp h with rfl | hmem
              · refine ⟨order, horder, ?_⟩
                rw [if_pos hside]
                omega
              · apply (ih hrest hmem).mono <;> omega
            · apply (ih hrest h).mono <;> omega
          · have hleft : outcomeLeft uuid false row = order.qtyShares - order.sharesFilled := by
              simp only [outcomeLeft, horder, beq_false_of_ne hside, if_true]
            have hsum := add64_le requiredNo (order.qtyShares - order.sharesFilled)
            rw [if_neg hside] at h
            split at h
            · next hover =>
              rcases List.mem_cons.mp h with rfl | hmem
              · refine ⟨order, horder, ?_⟩
                rw [if_neg hside]
                omega
              · apply (ih hrest hmem).mono <;> omega
            · apply (ih hrest h).mono <;> omega

/-- A row that reads as an order was signed with its terms. -/
theorem authorization_of_reads {order : CreateOrderRequestClob}
    (h : clobOrderFromIntent p.uuid pi = .ok order) :
    ∃ x, pi.authorization p = some x ∧ x.qtyShares = order.qtyShares ∧
      sideOfWord order.side = some x.side ∧ actionOfWord order.action = some x.action := by
  simp only [clobOrderFromIntent, bind_ok_iff, mapError_ok_iff, parseUint, revertIf_ok_iff,
    exists_const, Except.ok.injEq] at h
  obtain ⟨a, ha, _, ⟨_, rfl⟩, _, ⟨_, rfl⟩, rfl⟩ := h
  have hvalid : a.validate 0 = .ok () := by
    unfold authorizationFromIntent at ha
    split at ha
    · simp only [bind_ok_iff, mapError_ok_iff] at ha
      obtain ⟨qty, _, cap, _, hassemble⟩ := ha
      exact (newAuthorizationV2_assembled hassemble).valid
    · exact absurd ha (by simp)
  simp only [AuthorizationV2.validate, bind_ok_iff, revertIf_ok_iff, exists_const, not_or,
    not_lt] at hvalid
  obtain ⟨_, _, hcontract, hsigner, ⟨hside, haction⟩, _⟩ := hvalid
  obtain ⟨contract, hcontract⟩ := Option.ne_none_iff_exists'.mp hcontract
  obtain ⟨signer, hsigner⟩ := Option.ne_none_iff_exists'.mp hsigner
  obtain ⟨side, hside, _⟩ := sideOfWord_of_le hside
  obtain ⟨action, haction, _⟩ := actionOfWord_of_le haction
  let x : Authorization :=
    { version := a.version
      chainId := a.chainId
      verifyingContract := contract
      signer
      marketId := a.marketId
      txId := a.txId
      side
      action
      limitYesPrice := a.limitYesPrice
      qtyShares := a.qtyShares
      collateralCap := a.collateralCap
      deadline := a.deadline }
  have hdecoded : a.decoded = some x := by
    rw [AuthorizationV2.decoded, hcontract, hsigner, hside, haction]
    rfl
  refine ⟨x, ?_, rfl, hside, haction⟩
  rw [OrderTerms.authorization, ha]
  exact hdecoded

/-- An order that is no BUY was signed as a SELL, on the side of its outcome. -/
theorem authorization_of_sell {order : CreateOrderRequestClob}
    (h : clobOrderFromIntent p.uuid pi = .ok order) (hsell : pi.isBuyOrder = false) :
    ∃ x, pi.authorization p = some x ∧ x.qtyShares = order.qtyShares ∧ x.action = .sell ∧
      (order.side = Clob.sideYes ↔ x.side = .yes) := by
  obtain ⟨x, hx, hqty, hside, haction⟩ := authorization_of_reads h
  refine ⟨x, hx, hqty, ?_, sideOfWord_yes hside⟩
  have hrow := (clobOrderFromIntent_kind h).1
  rw [PredictionIntent.isBuyOrder, hrow, Option.getD_some, decide_eq_false_iff_not] at hsell
  cases hact : x.action with
  | buy =>
      rw [hact] at haction
      exact absurd (actionOfWord_buy haction) hsell
  | sell => rfl

/-- An order as it was read, and as it stands at the moment. -/
structure World.Told (p : Platform) (nets : Str → Network) (w : World) (net : Str)
    (marketID : Uint128) (signer : Address) (row : PredictionIntent) : Prop where
  asRead : w.asRead p nets net signer row = true
  market : row.marketID = marketID
  kept : ∃ now, w.db.intents.find row.txID = some now ∧ now.toOrderTerms = row.toOrderTerms

def sideIs (yes : Bool) : Side := if yes then .yes else .no

/-- What is left of an order by its row is left of it by the chain. -/
theorem World.Told.left_le {w : World} {net : Str} {marketID : Uint128} {signer : Address}
    (h : w.Told p nets net marketID signer pi) (hsell : pi.isBuyOrder = false) (yes : Bool) :
    ∃ now ∈ w.db.intents.rows.filter fun row =>
        row.marketID == marketID && isOpenPredictionIntent row,
      now.txID = pi.txID ∧ outcomeLeft p.uuid yes pi ≤
        sellLeft p (nets net).c (w.contract nets net) signer (sideIs yes) now := by
  obtain ⟨now, hnow, hterms⟩ := h.kept
  obtain ⟨hmem, hkey⟩ := Table.find_eq_some.mp hnow
  have hasRead := h.asRead
  rw [World.asRead, hnow, Option.any_some, Bool.and_eq_true] at hasRead
  obtain ⟨hopen, hchain⟩ := hasRead
  refine ⟨now, ?_, hkey, ?_⟩
  · have hmarket : now.marketID = marketID := by rw [hterms, h.market]
    simp [hmem, hmarket, hopen]
  · unfold outcomeLeft
    split
    · exact Nat.zero_le _
    · next order horder =>
      obtain ⟨x, hx, hqty, haction, hside⟩ := authorization_of_sell horder hsell
      rw [hx, Option.all_some, decide_eq_true_iff] at hchain
      obtain ⟨hsigner, hfills⟩ := hchain
      split
      · next hyes =>
        have hxSide : x.side = sideIs yes := by
          cases yes with
          | true => exact hside.mp (eq_of_beq hyes)
          | false =>
              cases hcase : x.side with
              | yes => exact absurd (hside.mpr hcase) (by simpa using hyes)
              | no => rfl
        have hleft : sellLeft p (nets net).c (w.contract nets net) signer (sideIs yes) now =
            x.qtyShares -
              ((w.contract nets net).fills (authorizationHash (nets net).c x)).shares := by
          unfold sellLeft
          rw [hterms, hx]
          exact if_pos ⟨haction, hsigner, hxSide⟩
        rw [hleft, hqty, (clobOrderFromIntent_fields horder).2.2.1]
        exact Nat.sub_le_sub_left hfills _
      · exact Nat.zero_le _

/-- The SELLs that were read are among the signer's open SELLs of the moment. -/
theorem totalLeft_le {w : World} {net : Str} {marketID : Uint128} {signer : Address}
    (hnodup : (rows.map fun row => row.txID).Nodup)
    (htold : ∀ row ∈ rows, w.Told p nets net marketID signer row)
    (hsells : ∀ row ∈ rows, row.isBuyOrder = false) (yes : Bool) :
    totalCost (outcomeLeft p.uuid yes) rows ≤
      w.unfilledSells p nets net marketID signer (sideIs yes) := by
  apply sum_le_of_keys (fun row : PredictionIntent => row.txID) (fun row => row.txID) hnodup
  intro row hrow
  exact (htold row hrow).left_le (hsells row hrow) yes

/-- What the loop evicts is unbacked at the moment of which the shares are. -/
theorem evicted_unbacked {w : World} {net : Str} {marketID : Uint128} {signer : Address}
    {balances : Nat × Nat}
    (hyes : balances.1 = (w.contract nets net).position .yes marketID signer)
    (hno : balances.2 = (w.contract nets net).position .no marketID signer)
    (hnodup : (rows.map fun row => row.txID).Nodup)
    (htold : ∀ row ∈ rows, w.Told p nets net marketID signer row)
    (hsells : ∀ row ∈ rows, row.isBuyOrder = false) (hwithin : ∀ row ∈ rows, row.WithinQty)
    (h : pi ∈ kickOutSells p.uuid balances.1 balances.2 0 0 rows) :
    w.unbacked p nets net pi = true := by
  have hmem : pi ∈ rows := (kickOutSells_sublist p.uuid _ _ _ _ rows).subset h
  obtain ⟨order, horder, hexceeds⟩ := kickOutSells_exceeds hwithin h
  obtain ⟨x, hx, _, _, hside⟩ := authorization_of_sell horder (hsells pi hmem)
  have hasRead := (htold pi hmem).asRead
  rw [World.asRead, hx, Option.all_some, Bool.and_eq_true, decide_eq_true_iff] at hasRead
  have hsigner := hasRead.2.1
  have htotalYes := totalLeft_le hnodup htold hsells true
  have htotalNo := totalLeft_le hnodup htold hsells false
  rw [World.unbacked, hx, Option.any_some, decide_eq_true_iff, (htold pi hmem).market, hsigner]
  cases hcase : x.side with
  | yes =>
      rw [if_pos (hside.mpr hcase), hyes, Nat.zero_add] at hexceeds
      exact hexceeds.trans_le htotalYes
  | no =>
      have hne : order.side ≠ Clob.sideYes := by
        intro heq
        rw [hside.mp heq] at hcase
        exact absurd hcase (by simp)
      rw [if_neg hne, hno, Nat.zero_add] at hexceeds
      exact hexceeds.trans_le htotalNo

end Rows

/-! ## What the steps keep of the rows -/

section Kept

variable {p : Platform} {nets : Str → Network} {w : World}

def World.WithinQty (w : World) : Prop := ∀ row ∈ w.db.intents.rows, row.WithinQty

theorem within_modify {rows : List PredictionIntent} {txID : Uint128}
    {f : PredictionIntent → PredictionIntent} (hrows : ∀ row ∈ rows, row.WithinQty)
    (hrow : ∀ row ∈ rows, row.txID = txID → row.WithinQty → (f row).WithinQty) :
    ∀ row ∈ rows.map fun row => if row.txID = txID then f row else row, row.WithinQty := by
  intro row' hrow'
  obtain ⟨row, hmem, rfl⟩ := List.mem_map.mp hrow'
  split
  · next hkey => exact hrow row hmem hkey (hrows row hmem)
  · exact hrows row hmem

theorem Db.addPredictionIntentFill_within {db db' : Db} {txID : Uint128} {shares collateral : Nat}
    (h : db.addPredictionIntentFill txID shares collateral = .ok db')
    (hdb : ∀ row ∈ db.intents.rows, row.WithinQty) : ∀ row ∈ db'.intents.rows, row.WithinQty := by
  obtain ⟨row, hrow, _, hroom, rfl⟩ := Db.addPredictionIntentFill_ok h
  apply within_modify hdb
  intro row' hmem hkey _
  have hfind := Table.find_key hmem
  rw [hkey, hrow, Option.some.injEq] at hfind
  subst hfind
  exact hroom

theorem Db.finalizeMatchV2_within {db db' : Db} {uuid : Uuid} {m : MatchV2} {txHash : Str}
    {applied : Bool} (h : db.finalizeMatchV2 uuid m txHash = .ok (db', applied))
    (hdb : ∀ row ∈ db.intents.rows, row.WithinQty) : ∀ row ∈ db'.intents.rows, row.WithinQty := by
  rcases Db.finalizeMatchV2_ok h with ⟨_, rfl⟩ | ⟨_, _, middle, _, _, hbid, hask⟩
  · exact hdb
  · exact Db.addPredictionIntentFill_within hask (Db.addPredictionIntentFill_within hbid hdb)

theorem World.WithinQty.effect (hw : w.WithinQty) (r : SettlementRequest) (answer : r.Answer) :
    (w.effect p r answer).WithinQty := by
  cases r with
  | createMatchV2 record =>
      unfold World.WithinQty
      simp only [World.effect, Db.createMatchV2]
      split
      · exact hw
      · exact hw
  | finalizeMatchV2 record txHash =>
      unfold World.WithinQty
      simp only [World.effect]
      cases h : w.db.finalizeMatchV2 p.uuid record txHash with
      | error err => exact hw
      | ok applied => exact Db.finalizeMatchV2_within h hw
  | _ => exact hw

theorem World.WithinQty.next (hw : w.WithinQty) {l : Label} (hallowed : w.Allowed p nets l) :
    (w.next p nets l).WithinQty := by
  have hmark (txID : Uint128) (f : PredictionIntent → PredictionIntent)
      (hterms : ∀ row, (f row).qtyShares = row.qtyShares)
      (hfilled : ∀ row, (f row).sharesFilled = row.sharesFilled) :
      ∀ row ∈ w.db.intents.rows.map fun row => if row.txID = txID then f row else row,
        row.WithinQty := by
    apply within_modify hw
    intro row _ _ hwithin qty hqty
    rw [hfilled]
    exact hwithin qty ((hterms row).symm.trans hqty)
  cases l with
  | serve i answer commit =>
      simp only [World.next, World.serve]
      split
      · exact hw
      split
      · exact hw
      · cases commit with
        | false => exact hw
        | true => exact hw.effect _ _
  | order k env =>
      unfold World.WithinQty
      rw [World.next, World.order_db]
      exact hw
  | createOrder row =>
      intro row' hrow'
      rcases Table.mem_of_mem_insert hrow' with hold | rfl
      · exact hw row' hold
      · intro qty _
        rw [hallowed.2.1]
        exact Nat.zero_le _
  | cancel txID => exact hmark txID _ (fun _ => rfl) fun _ => rfl
  | evict txID => exact hmark txID _ (fun _ => rfl) fun _ => rfl
  | fullyMatched marketID txID => exact hmark txID _ (fun _ => rfl) fun _ => rfl
  | _ => exact hw

end Kept

/-! ## Where the job is -/

section Paths

variable {p : Platform} {net contractID usdcAddress : Str} {marketID : Uint128} {accountID : Str}
  {answers : OrderAnswers}

theorem evictAll_makes {P : OrderRequest → Prop} {rows : List PredictionIntent}
    (hmark : ∀ pi ∈ rows, P (.cancelPredictionIntent (p.uuid.string pi.txID)))
    (hremove : ∀ marketId txId, P (.cancelOrder marketId txId))
    (hevict : ∀ txID, P (.markPredictionIntentAsEvicted txID)) :
    (evictAll p marketID rows).Makes P := by
  induction rows with
  | nil => trivial
  | cons pi rows ih =>
      have hone : (evict p marketID pi.txID).Makes P := by
        refine Program.makes_bind (cancelNoSigCheck_makes (hmark pi List.mem_cons_self)
          (hremove _ _)) ?_
        intro result
        cases result with
        | error err => trivial
        | ok _ => exact ⟨hevict _, fun _ => trivial⟩
      exact Program.makes_bind hone fun _ =>
        ih fun pi hpi => hmark pi (List.mem_cons_of_mem _ hpi)

theorem evictAll_path {rows : List PredictionIntent} {txId : Str}
    {rest : Except String Unit → OrderM Unit}
    (h : (evictAll p marketID rows).Path answers (.call (.cancelPredictionIntent txId) rest)) :
    ∃ pi ∈ rows, txId = p.uuid.string pi.txID := by
  have hmakes : (evictAll p marketID rows).Makes fun r => ∀ txId,
      r = .cancelPredictionIntent txId → ∃ pi ∈ rows, txId = p.uuid.string pi.txID := by
    apply evictAll_makes
    · intro pi hpi txId heq
      cases heq
      exact ⟨pi, hpi, rfl⟩
    · exact fun _ _ _ heq => absurd heq (by simp)
    · exact fun _ _ heq => absurd heq (by simp)
  exact (h.makes hmakes).1 txId rfl

theorem kickOutAccount_path {txId : Str} {rest : Except String Unit → OrderM Unit}
    (h : (kickOutAccount p net contractID usdcAddress marketID accountID).Path answers
      (.call (.cancelPredictionIntent txId) rest)) :
    ∃ allowance usdcBalance rows later,
      answers = [⟨.getSpenderAllowance net accountID contractID usdcAddress, .ok allowance⟩,
        ⟨.getUsdcBalanceUsd net accountID, .ok usdcBalance⟩,
        ⟨.getAllOpenPredictionIntentsByMarketIdAndAccountId marketID accountID, .ok rows⟩] ++
          later ∧
      (evictAll p marketID (validateAndKickoutBuyOrders p.uuid (min allowance usdcBalance) 0
          (rows.filter (·.isBuyOrder))) >>= fun _ => kickOutSellOrders p net contractID marketID
            (rows.filter (!·.isBuyOrder))).Path later
              (.call (.cancelPredictionIntent txId) rest) := by
  rcases Program.path_call_iff.mp h with ⟨_, htarget⟩ | ⟨allowance, answers₁, rfl, hfunds⟩
  · exact absurd htarget (by simp)
  cases allowance with
  | error err => exact absurd hfunds Program.not_path_pure
  | ok allowance =>
  rcases Program.path_call_iff.mp hfunds with ⟨_, htarget⟩ | ⟨usdcBalance, answers₂, rfl, horders⟩
  · exact absurd htarget (by simp)
  cases usdcBalance with
  | error err => exact absurd horders Program.not_path_pure
  | ok usdcBalance =>
  rcases Program.path_call_iff.mp horders with ⟨_, htarget⟩ | ⟨rows, later, rfl, hlater⟩
  · exact absurd htarget (by simp)
  cases rows with
  | error err => exact absurd hlater Program.not_path_pure
  | ok rows => exact ⟨allowance, usdcBalance, rows, later, rfl, hlater⟩

/-- A job evicts a BUY that it read, or a SELL after it has read the shares of the first SELL's
signer. -/
theorem kickOutAccount_evicts {txId : Str} {rest : Except String Unit → OrderM Unit}
    (h : (kickOutAccount p net contractID usdcAddress marketID accountID).Path answers
      (.call (.cancelPredictionIntent txId) rest)) :
    ∃ rows, ⟨.getAllOpenPredictionIntentsByMarketIdAndAccountId marketID accountID, .ok rows⟩ ∈
        answers ∧
      ((∃ pi ∈ rows, pi.isBuyOrder = true ∧ txId = p.uuid.string pi.txID) ∨
        ∃ evmAddress balances before after,
          answers = before ++ ⟨.getUserPositionBalancesV2 net contractID (p.uuid.string marketID)
            evmAddress, .ok balances⟩ :: after ∧ rowsRead before = rows ∧
          ∃ pi ∈ kickOutSells p.uuid balances.1 balances.2 0 0 (rows.filter (!·.isBuyOrder)),
            txId = p.uuid.string pi.txID) := by
  obtain ⟨allowance, usdcBalance, rows, later, rfl, hlater⟩ := kickOutAccount_path h
  refine ⟨rows, by simp, ?_⟩
  rcases Program.path_bind_call hlater with
    ⟨rest', hbuys, _⟩ | ⟨_, earlier, later, rfl, _, hsells⟩
  · obtain ⟨pi, hpi, htx⟩ := evictAll_path hbuys
    have hmem := (validateAndKickoutBuyOrders_sublist p.uuid _ _ _).subset hpi
    obtain ⟨hrow, hbuy⟩ := List.mem_filter.mp hmem
    exact Or.inl ⟨pi, hrow, hbuy, htx⟩
  · right
    cases hsell : rows.filter (!·.isBuyOrder) with
    | nil =>
        rw [hsell] at hsells
        exact absurd hsells Program.not_path_pure
    | cons first others =>
        rw [hsell] at hsells
        rcases Program.path_call_iff.mp hsells with ⟨_, htarget⟩ | ⟨balances, after, rfl, hevict⟩
        · exact absurd htarget (by simp)
        cases balances with
        | error err => exact absurd hevict Program.not_path_pure
        | ok balances =>
            obtain ⟨pi, hpi, htx⟩ := evictAll_path hevict
            refine ⟨first.evmaddress, balances, _, after, List.append_assoc _ _ _ |>.symm, ?_, pi,
              hpi, htx⟩
            rfl

end Paths

/-! ## Runs -/

section Runs

variable {p : Platform} {nets : Str → Network} {s : KickOutWorld} {e : KickOutEvent}
  {job : KickOutJob}

/-- The shares that were read are those of the moment, and the SELLs read before stand at it as
they were read, all of one signer. -/
structure World.Matched (p : Platform) (nets : Str → Network) (w : World) (net : Str)
    (marketID : Uint128) (signer : Address) (sells : List PredictionIntent)
    (balances : Nat × Nat) : Prop where
  yes : balances.1 = (w.contract nets net).position .yes marketID signer
  no : balances.2 = (w.contract nets net).position .no marketID signer
  asRead : ∀ row ∈ sells, w.asRead p nets net signer row = true
  kept : ∀ row ∈ sells, ∃ now, w.db.intents.find row.txID = some now ∧
    now.toOrderTerms = row.toOrderTerms

/-- Orders that were read once, in a world in which they are still there. -/
structure World.HasRead (w : World) (marketID : Uint128) (rows : List PredictionIntent) : Prop where
  nodup : (rows.map fun row => row.txID).Nodup
  within : ∀ row ∈ rows, row.WithinQty
  market : ∀ row ∈ rows, row.marketID = marketID
  kept : ∀ row ∈ rows, ∃ now, w.db.intents.find row.txID = some now ∧
    now.toOrderTerms = row.toOrderTerms

structure KickOutJob.Sound (p : Platform) (nets : Str → Network) (w : World) (job : KickOutJob) :
    Prop where
  path : (kickOutAccount p job.net job.contractID job.usdcAddress job.marketID job.accountID).Path
    job.answers job.program
  read : ∀ marketID accountID rows,
    ⟨.getAllOpenPredictionIntentsByMarketIdAndAccountId marketID accountID, .ok rows⟩ ∈
      job.answers → w.HasRead marketID rows
  told : ∀ before after net contractID marketId evmAddress balances,
    job.answers = before ++
      ⟨.getUserPositionBalancesV2 net contractID marketId evmAddress, .ok balances⟩ :: after →
    ∃ signer, ∃ w' ∈ job.seen, w'.Matched p nets net job.marketID signer
      ((rowsRead before).filter (!·.isBuyOrder)) balances

structure KickOutWorld.Sound (p : Platform) (nets : Str → Network) (s : KickOutWorld) : Prop where
  within : s.world.WithinQty
  jobs : ∀ job ∈ s.jobs, job.Sound p nets s.world
  current : ∀ job ∈ s.jobs, s.world ∈ job.seen

def World.Carries (w w' : World) : Prop :=
  ∀ k row, w.db.intents.find k = some row →
    ∃ row', w'.db.intents.find k = some row' ∧ row'.toOrderTerms = row.toOrderTerms

theorem World.carries_next (w : World) (l : Label) : w.Carries (w.next p nets l) := by
  intro k row hrow
  obtain ⟨row', hrow', hstep⟩ := w.find_next p nets l hrow
  exact ⟨row', hrow', hstep.terms⟩

/-- A job's effect on the world is a cancellation, an eviction, or none. -/
theorem World.kickOutEffect_cases (w : World) (r : OrderRequest) :
    w.kickOutEffect p nets r = w ∨
      ∃ l, w.kickOutEffect p nets r = w.next p nets l ∧ w.Allowed p nets l := by
  cases r with
  | cancelPredictionIntent txId =>
      cases hparse : p.uuid.parse txId with
      | error err => exact Or.inl (by simp only [World.kickOutEffect, hparse])
      | ok txID => exact Or.inr ⟨.cancel txID, by simp only [World.kickOutEffect, hparse], trivial⟩
  | markPredictionIntentAsEvicted txID => exact Or.inr ⟨.evict txID, rfl, trivial⟩
  | _ => exact Or.inl rfl

/-- A step leaves the world as it is, or is a step of the world. -/
theorem KickOutWorld.advance_world (s : KickOutWorld) (hallowed : s.Allowed p nets e) :
    (s.advance p nets e).world = s.world ∨
      ∃ l, (s.advance p nets e).world = s.world.next p nets l ∧ s.world.Allowed p nets l := by
  cases e with
  | step l => exact Or.inr ⟨l, rfl, hallowed⟩
  | start net contractID usdcAddress marketID accountID => exact Or.inl rfl
  | serve i answer commit =>
      simp only [KickOutWorld.advance, KickOutWorld.serve]
      split
      · exact Or.inl rfl
      split
      · exact Or.inl rfl
      · next r rest _ =>
        cases commit with
        | false => exact Or.inl rfl
        | true => exact s.world.kickOutEffect_cases r
  | stop i => exact Or.inl rfl

/-- Where a job comes from: it was there, it was just started, or one of its requests was just
answered. -/
theorem KickOutWorld.mem_jobs_advance {job' : KickOutJob} (h : job' ∈ (s.advance p nets e).jobs) :
    job' ∈ s.jobs ∨ (∃ net contractID usdcAddress marketID accountID,
        job' = ⟨net, contractID, usdcAddress, marketID, accountID,
          kickOutAccount p net contractID usdcAddress marketID accountID, [], []⟩) ∨
      ∃ i answer commit job r rest, e = .serve i answer commit ∧ s.jobs[i]? = some job ∧
        job.program = .call r rest ∧ job' = { job with
          program := rest (answer r)
          answers := job.answers ++ [⟨r, answer r⟩] } := by
  cases e with
  | step l => exact Or.inl h
  | start net contractID usdcAddress marketID accountID =>
      rcases List.mem_append.mp h with hold | hnew
      · exact Or.inl hold
      · exact Or.inr (Or.inl ⟨net, contractID, usdcAddress, marketID, accountID,
          List.mem_singleton.mp hnew⟩)
  | serve i answer commit =>
      simp only [KickOutWorld.advance, KickOutWorld.serve] at h
      split at h
      · exact Or.inl h
      next job hjob =>
      split at h
      · exact Or.inl h
      next r rest hprogram =>
      rcases List.mem_or_eq_of_mem_set h with hold | hnew
      · exact Or.inl hold
      · exact Or.inr (Or.inr ⟨i, answer, commit, job, r, rest, rfl, hjob, hprogram, hnew⟩)
  | stop i => exact Or.inl (List.mem_of_mem_eraseIdx h)

theorem World.HasRead.carried {w w' : World} {marketID : Uint128} {rows : List PredictionIntent}
    (h : w.HasRead marketID rows) (hcarries : w.Carries w') : w'.HasRead marketID rows := by
  refine ⟨h.nodup, h.within, h.market, ?_⟩
  intro row hrow
  obtain ⟨now, hnow, hterms⟩ := h.kept row hrow
  obtain ⟨later, hlater, hsame⟩ := hcarries _ now hnow
  exact ⟨later, hlater, hsame.trans hterms⟩

theorem World.WithinQty.hasRead {w : World} (hw : w.WithinQty) {marketID : Uint128}
    {accountID : Str} {rows : List PredictionIntent}
    (h : rows.Perm (w.db.openPredictionIntentsOf marketID accountID)) :
      w.HasRead marketID rows := by
  have hmem {row : PredictionIntent} (hrow : row ∈ rows) :=
    Db.mem_openPredictionIntentsOf.mp (h.mem_iff.mp hrow)
  refine ⟨?_, ?_, ?_, ?_⟩
  · exact (h.map _).nodup_iff.mpr (w.db.nodup_openPredictionIntentsOf marketID accountID)
  · exact fun row hrow => hw row (hmem hrow).2.1
  · exact fun row hrow => (hmem hrow).2.2.1
  · exact fun row hrow => ⟨row, Table.find_key (hmem hrow).2.1, rfl⟩

theorem rowsRead_cases (answers : OrderAnswers) :
    rowsRead answers = [] ∨ ∃ marketID accountID,
      ⟨.getAllOpenPredictionIntentsByMarketIdAndAccountId marketID accountID,
        .ok (rowsRead answers)⟩ ∈ answers := by
  unfold rowsRead
  cases hfound : answers.findSome? _ with
  | none => exact Or.inl rfl
  | some rows =>
      obtain ⟨answered, hmem, hrows⟩ := List.exists_of_findSome?_eq_some hfound
      right
      split at hrows
      · next marketID accountID rows' =>
        cases hrows
        exact ⟨marketID, accountID, hmem⟩
      · exact absurd hrows (by simp)

theorem KickOutJob.Sound.start (w : World) (net contractID usdcAddress : Str)
    (marketID : Uint128) (accountID : Str) :
    KickOutJob.Sound p nets w ⟨net, contractID, usdcAddress, marketID, accountID,
      kickOutAccount p net contractID usdcAddress marketID accountID, [], []⟩ where
  path := .nil _
  read _ _ _ hmem := absurd hmem List.not_mem_nil
  told _ _ _ _ _ _ _ heq := absurd heq (by simp)

theorem KickOutJob.Sound.carried {w w' : World} (h : job.Sound p nets w)
    (hcarries : w.Carries w') : job.Sound p nets w' :=
  ⟨h.path, fun marketID accountID rows hmem => (h.read marketID accountID rows hmem).carried
    hcarries, h.told⟩

theorem KickOutWorld.Sound.served (hs : s.Sound p nets) {i : Nat}
    {answer : (r : OrderRequest) → r.Answer} {commit : Bool}
    (hallowed : s.Allowed p nets (.serve i answer commit))
    (hmoment : s.readsOneMoment p nets (.serve i answer commit) = true)
    (hjob : s.jobs[i]? = some job) {r : OrderRequest} {rest : r.Answer → OrderM Unit}
    (hprogram : job.program = .call r rest) :
    KickOutJob.Sound p nets s.world { job with
      program := rest (answer r)
      answers := job.answers ++ [⟨r, answer r⟩] } := by
  have hsound := hs.jobs job (List.mem_of_getElem? hjob)
  have hhonest := hallowed job r rest hjob hprogram
  refine ⟨?_, ?_, ?_⟩
  · have hpath := hsound.path
    rw [hprogram] at hpath
    exact hpath.concat (answer r)
  · intro marketID accountID rows hmem
    rcases List.mem_append.mp hmem with hold | hnew
    · exact hsound.read marketID accountID rows hold
    · have heq := List.mem_singleton.mp hnew
      rw [Sigma.mk.injEq] at heq
      obtain ⟨rfl, heq⟩ := heq
      rw [← eq_of_heq heq] at hhonest
      exact hs.within.hasRead hhonest
  · intro before after net contractID marketId evmAddress balances heq
    rcases mem_concat_split heq with ⟨hnew, rfl⟩ | ⟨after', hold⟩
    · rw [Sigma.mk.injEq] at hnew
      obtain ⟨rfl, hanswer⟩ := hnew
      have hanswer := eq_of_heq hanswer
      rw [hanswer] at hhonest
      obtain ⟨_, signer, _, hsigner, _⟩ := hhonest
      simp only [KickOutWorld.readsOneMoment, hjob, hprogram, hanswer, hsigner,
        decide_eq_true_eq, List.all_eq_true] at hmoment
      obtain ⟨hyes, hno, hasRead⟩ := hmoment
      refine ⟨signer, s.world, hs.current job (List.mem_of_getElem? hjob), hyes, hno, hasRead, ?_⟩
      intro row hrow
      rcases rowsRead_cases job.answers with hnone | ⟨_, _, hread⟩
      · rw [hnone] at hrow
        exact absurd hrow List.not_mem_nil
      · exact (hsound.read _ _ _ hread).kept row (List.mem_filter.mp hrow).1
    · exact hsound.told before after' net contractID marketId evmAddress balances hold

theorem KickOutWorld.Sound.next (hs : s.Sound p nets) (hallowed : s.Allowed p nets e)
    (hmoment : s.readsOneMoment p nets e = true) : ((kickOut p nets).next s e).Sound p nets := by
  have hcarries : s.world.Carries (s.advance p nets e).world := by
    rcases s.advance_world hallowed with hsame | ⟨l, hnext, _⟩
    · rw [hsame]
      exact fun _ row hrow => ⟨row, hrow, rfl⟩
    · rw [hnext]
      exact s.world.carries_next l
  refine ⟨?_, ?_, ?_⟩
  · show (s.advance p nets e).world.WithinQty
    rcases s.advance_world hallowed with hsame | ⟨l, hnext, hl⟩
    · rw [hsame]
      exact hs.within
    · rw [hnext]
      exact hs.within.next hl
  · intro job' hmem
    obtain ⟨job, hjob, rfl⟩ := List.mem_map.mp hmem
    have hsound : job.Sound p nets (s.advance p nets e).world := by
      rcases KickOutWorld.mem_jobs_advance hjob with
        hold | ⟨net, contractID, usdcAddress, marketID, accountID, rfl⟩ |
        ⟨i, answer, commit, old, r, rest, rfl, hold, hprogram, rfl⟩
      · exact (hs.jobs job hold).carried hcarries
      · exact .start _ net contractID usdcAddress marketID accountID
      · exact (hs.served hallowed hmoment hold hprogram).carried hcarries
    refine ⟨hsound.path, hsound.read, ?_⟩
    intro before after net contractID marketId evmAddress balances heq
    obtain ⟨signer, w', hw', hmatched⟩ := hsound.told before after net contractID marketId
      evmAddress balances heq
    exact ⟨signer, w', List.mem_append_left _ hw', hmatched⟩
  · intro job' hmem
    obtain ⟨job, _, rfl⟩ := List.mem_map.mp hmem
    exact List.mem_append_right _ List.mem_cons_self

theorem World.unbacked_congr {w : World} {net : Str} {row row' : PredictionIntent}
    (h : row.toOrderTerms = row'.toOrderTerms) :
    w.unbacked p nets net row = w.unbacked p nets net row' := by
  unfold World.unbacked
  rw [h]

/-- What a job has read and seen shows that the SELL it evicts was unbacked. -/
theorem KickOutWorld.Sound.sparesBacked (hs : s.Sound p nets) : s.SparesBacked p nets := by
  intro job hjob txId rest hprogram row hrow hparse hsell
  have hsound := hs.jobs job hjob
  have hpath := hsound.path
  rw [hprogram] at hpath
  obtain ⟨rows, hread, hevicts⟩ := kickOutAccount_evicts hpath
  have hhas := hsound.read _ _ _ hread
  -- the row that is evicted now is the one that was read, by its id
  have hsame {pi : PredictionIntent} (hpi : pi ∈ rows) (htx : txId = p.uuid.string pi.txID) :
      row.toOrderTerms = pi.toOrderTerms := by
    obtain ⟨now, hnow, hterms⟩ := hhas.kept pi hpi
    rw [htx, p.uuid.parse_string, Except.ok.injEq] at hparse
    rw [hparse, Table.find_key hrow, Option.some.injEq] at hnow
    rw [hnow, hterms]
  rcases hevicts with ⟨pi, hpi, hbuy, htx⟩ | ⟨evmAddress, balances, before, after, hsplit, hrows,
    pi, hpi, htx⟩
  · rw [PredictionIntent.isBuyOrder, hsame hpi htx] at hsell
    exact absurd (hbuy.symm.trans hsell) (by simp)
  · obtain ⟨signer, w, hw, hmatched⟩ := hsound.told before after _ _ _ _ _ hsplit
    rw [hrows] at hmatched
    have hsub : (rows.filter (!·.isBuyOrder)).Sublist rows := List.filter_sublist
    have hmem : pi ∈ rows :=
      hsub.subset ((kickOutSells_sublist p.uuid _ _ _ _ _).subset hpi)
    refine ⟨w, hw, ?_⟩
    rw [World.unbacked_congr (hsame hmem htx)]
    apply evicted_unbacked hmatched.yes hmatched.no (hhas.nodup.sublist (hsub.map _)) ?_ ?_ ?_ hpi
    · intro row' hrow'
      exact ⟨hmatched.asRead row' hrow', hhas.market row' (hsub.subset hrow'),
        hmatched.kept row' hrow'⟩
    · intro row' hrow'
      simpa using (List.mem_filter.mp hrow').2
    · exact fun row' hrow' => hhas.within row' (hsub.subset hrow')

/-- In a run in which every job reads the shares at a moment at which its SELLs stand as it read
them, all of the signer whose shares it reads, a job asks for the eviction of a SELL only after a
moment at which it was unbacked. -/
theorem kickOut_spares_backed {start : KickOutWorld} {events : List KickOutEvent}
    (hjobs : start.jobs = []) (hwithin : start.world.WithinQty)
    (hruns : (kickOut p nets).Runs (fun s e => s.readsOneMoment p nets e = true) start events) :
    ((kickOut p nets).run start events).SparesBacked p nets := by
  have hstart : start.Sound p nets := by
    refine ⟨hwithin, ?_, ?_⟩
    · rw [hjobs]
      exact fun job hjob => absurd hjob List.not_mem_nil
    · rw [hjobs]
      exact fun job hjob => absurd hjob List.not_mem_nil
  have hsound := hruns.preserves (fun _ _ hs hallowed hmoment =>
    KickOutWorld.Sound.next hs hallowed hmoment) hstart
  exact hsound.sparesBacked

/-! ## Runs that answer as the world stands -/

variable (p nets) in
def World.kickOutReply (w : World) : (r : OrderRequest) → r.Answer
  | .getSpenderAllowance _ _ _ _ => .ok 0
  | .getUsdcBalanceUsd _ _ => .ok 0
  | .getAllOpenPredictionIntentsByMarketIdAndAccountId marketID accountID =>
    .ok (w.db.openPredictionIntentsOf marketID accountID)
  | .getUserPositionBalancesV2 net _ marketId evmAddress =>
    match p.uuid.parse marketId, addressBytes evmAddress with
    | .ok marketID, some signer =>
      .ok ((w.contract nets net).position .yes marketID signer,
        (w.contract nets net).position .no marketID signer)
    | _, _ => .error "invalid account address"
  | r => sampleExchange.reply p r

theorem World.kickOutReply_honest (w : World) (r : OrderRequest) :
    w.KickOutHonest p nets r (w.kickOutReply p nets r) := by
  cases r with
  | getAllOpenPredictionIntentsByMarketIdAndAccountId marketID accountID => exact List.Perm.refl _
  | getUserPositionBalancesV2 net contractID marketId evmAddress =>
      simp only [World.kickOutReply]
      cases hparse : p.uuid.parse marketId with
      | error err => trivial
      | ok marketID =>
          cases hsigner : addressBytes evmAddress with
          | none => trivial
          | some signer =>
              have hall : (w.history net).take (w.history net).length = w.history net :=
                List.take_length
              refine ⟨marketID, signer, hparse, hsigner, ⟨(w.history net).length, ?_⟩,
                ⟨(w.history net).length, ?_⟩⟩
              · rw [hall]
                rfl
              · rw [hall]
                rfl
  | _ => trivial

variable (p nets) in
def KickOutWorld.replies : Nat → KickOutWorld → List KickOutEvent
  | 0, _ => []
  | count + 1, s =>
    let e := KickOutEvent.serve 0 (s.world.kickOutReply p nets) true
    e :: KickOutWorld.replies count ((kickOut p nets).next s e)

variable (p nets) in
def KickOutWorld.allAlong (test : KickOutWorld → KickOutEvent → Bool) : Nat → KickOutWorld → Bool
  | 0, _ => true
  | count + 1, s =>
    let e := KickOutEvent.serve 0 (s.world.kickOutReply p nets) true
    test s e && KickOutWorld.allAlong test count ((kickOut p nets).next s e)

theorem KickOutWorld.runs_replies {test : KickOutWorld → KickOutEvent → Bool} (count : Nat)
    (h : s.allAlong p nets test count = true) :
    (kickOut p nets).Runs (fun s e => test s e = true) s (s.replies p nets count) := by
  induction count generalizing s with
  | zero => trivial
  | succ count ih =>
      obtain ⟨htest, hrest⟩ := Bool.and_eq_true_iff.mp h
      exact ⟨fun _ r _ _ _ => s.world.kickOutReply_honest r, htest, ih hrest⟩

end Runs

/-! ## Two signers of one account -/

def tradedNetworks (_ : Str) : Network :=
  ⟨sampleChain, sampleDeployment sampleChain sampleChain_self⟩

def sampleSellRow (txID signer : Uint128) (side : Nat) : PredictionIntent :=
  { sampleOpenOrder txID signer side 1 101 0 900 with verifyingContract := some sampleProxy }

/-- The address 5 holds 101 YES shares and the address 6 holds 101 NO shares. -/
def kickOutStart (rows : List PredictionIntent) : KickOutWorld :=
  ⟨⟨sampleOpenDb rows, [], [], fun _ => sampleTrades⟩, []⟩

def kickOutBegin : KickOutEvent :=
  .start "testnet".toList "0.0.5001".toList "0.0.429274".toList 7 "0.0.5".toList

def kickOutRun (start : KickOutWorld) : List KickOutEvent :=
  kickOutBegin :: ((kickOut samplePlatform tradedNetworks).next start kickOutBegin).replies
    samplePlatform tradedNetworks 4

theorem kickOutStart_within {rows : List PredictionIntent}
    (h : (sampleOpenDb rows).intents.rows.all fun row =>
      row.qtyShares.all fun qty => row.sharesFilled ≤ qty) :
    (kickOutStart rows).world.WithinQty := by
  intro row hrow qty hqty
  have hall := List.all_eq_true.mp h row hrow
  rw [hqty, Option.all_some, decide_eq_true_iff] at hall
  exact hall

def KickOutWorld.evicts (s : KickOutWorld) (txID : Uint128) : Bool :=
  s.jobs.head?.any fun job =>
    match job.program with
    | .call (.cancelPredictionIntent txId) _ => txId == samplePlatform.uuid.string txID
    | _ => false

theorem KickOutWorld.exists_evicting {s : KickOutWorld} {txID : Uint128}
    (h : s.evicts txID = true) : ∃ job ∈ s.jobs, ∃ rest,
      job.program = .call (.cancelPredictionIntent (samplePlatform.uuid.string txID)) rest := by
  obtain ⟨job, hhead, hasks⟩ := (Option.any_eq_true _ _).mp h
  refine ⟨job, List.mem_of_head? hhead, ?_⟩
  split at hasks
  · next txId rest hprogram =>
    rw [eq_of_beq hasks] at hprogram
    exact ⟨rest, hprogram⟩
  · exact absurd hasks (by simp)

/-- Of two SELLs of the same 101 shares, the second is evicted, and it is unbacked. -/
theorem kickOut_spares_backed_sample :
    let start := kickOutStart [sampleSellRow 1 5 0, sampleSellRow 2 5 0]
    let after := (kickOut samplePlatform tradedNetworks).run start (kickOutRun start)
    after.evicts 2 = true ∧ after.SparesBacked samplePlatform tradedNetworks := by
  intro start after
  refine ⟨by decide +kernel, ?_⟩
  apply kickOut_spares_backed rfl (kickOutStart_within (by decide +kernel))
  exact ⟨trivial, rfl, KickOutWorld.runs_replies 4 (by decide +kernel)⟩

/-- Where the first SELL is of another signer, a backed one is evicted. -/
theorem kickOut_evicts_backed :
    let start := kickOutStart [sampleSellRow 1 6 1, sampleSellRow 2 5 0]
    start.jobs = [] ∧ start.world.WithinQty ∧
      (kickOut samplePlatform tradedNetworks).Runs (fun _ _ => True) start (kickOutRun start) ∧
      ¬((kickOut samplePlatform tradedNetworks).run start (kickOutRun start)).SparesBacked
        samplePlatform tradedNetworks := by
  intro start
  refine ⟨rfl, kickOutStart_within (by decide +kernel), ?_, ?_⟩
  · have hreplies : ((kickOut samplePlatform tradedNetworks).next start kickOutBegin).allAlong
        samplePlatform tradedNetworks (fun _ _ => true) 4 = true := by decide +kernel
    exact ⟨trivial, trivial, (KickOutWorld.runs_replies 4 hreplies).imp fun _ _ _ => trivial⟩
  · intro hspares
    set after := (kickOut samplePlatform tradedNetworks).run start (kickOutRun start)
    have hevicts : after.evicts 2 = true := by decide +kernel
    have hbacked : after.world.db.intents.rows.any (fun row => row.txID == 2 && !row.isBuyOrder &&
        after.jobs.all fun job => job.seen.all fun w =>
          !w.unbacked samplePlatform tradedNetworks job.net row) = true := by
      decide +kernel
    obtain ⟨job, hjob, rest, hprogram⟩ := KickOutWorld.exists_evicting hevicts
    obtain ⟨row, hrow, hcheck⟩ := List.any_eq_true.mp hbacked
    simp only [Bool.and_eq_true, beq_iff_eq, Bool.not_eq_true', List.all_eq_true] at hcheck
    obtain ⟨⟨htxID, hsell⟩, hseen⟩ := hcheck
    have hparse : samplePlatform.uuid.parse (samplePlatform.uuid.string 2) = .ok row.txID := by
      rw [htxID]
      exact samplePlatform.uuid.parse_string 2
    obtain ⟨w, hw, hunbacked⟩ := hspares job hjob _ rest hprogram row hrow hparse hsell
    exact absurd hunbacked (by simp [hseen job hjob w hw])

end PrismBackend.Api
