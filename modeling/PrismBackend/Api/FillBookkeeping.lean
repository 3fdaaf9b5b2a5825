import PrismBackend.Lib.PartialLedger
import PrismBackend.PrismV2.LegRule
import PrismBackend.Api.CostAccounting
import PrismBackend.Api.Consumer

/-!
# API: positions beside the contract

A match that the contract has executed is finalized once, and the handler that
finalizes it goes on with the positions of its two signers: for each of them it
reads the row of the address, adds the fill, and writes the row. A redelivery
finds the match finalized and leaves the positions alone.
-/

namespace PrismBackend.Api

open PrismBackend.Lib PrismBackend.Clob PrismBackend.PrismV2

/-! ## State -/

inductive Leg
  | bid
  | ask
  deriving DecidableEq

def Prepared.row (q : Prepared) : Leg → PredictionIntent
  | .bid => q.bidRow
  | .ask => q.askRow

def Prepared.auth (q : Prepared) : Leg → AuthorizationV2
  | .bid => q.bidAuth
  | .ask => q.askAuth

def Prepared.call (p : Platform) (q : Prepared) : Option Call :=
  (q.calldata p).toOption.bind (decodeSettle p.keccak256)

/-- `recordFillBookkeeping` of one match: the legs that are not done with, and the rows that were
read for the first of them. The number is the place of the match among the executed ones. -/
structure Bookkeeping where
  fill : Nat
  q : Prepared
  legs : List Leg
  held : Option (List PositionRow)

def Prepared.moved (q : Prepared) (leg : Leg) (held : List PositionRow) : Int × Int :=
  movedBalances held (q.row leg) q.record.fillShares

/-- The contract, the database and the handlers. Which legs were counted, the code keeps
nowhere. -/
structure PositionsWorld where
  db : Db
  history : List Tx
  positions : Uint128 → PositionTable
  /- the matches that the contract has executed, in its order -/
  settled : List Prepared
  tasks : List Bookkeeping
  counted : List (Nat × Leg)

inductive BookkeepingEvent
  /- the network runs the submission of a match -/
  | order (m : ClobMatch) (bid ask : CreateOrderRequestClob) (bidRow askRow : PredictionIntent)
      (cfg : PrismV2Network) (market : MarketRow) (env : Env)
  /- a transaction of someone else -/
  | external (tx : Tx)
  /- statements of others -/
  | database (db : Db)
  /- a handler finalizes an executed match -/
  | finalize (k : Nat) (txHash : Str)
  /- the first leg of a task reads its rows, or fails to -/
  | read (i : Nat) (succeeds : Bool)
  | write (i : Nat) (succeeds : Bool)
  /- a task has returned, or is lost -/
  | stop (i : Nat)

def Db.finalized (db : Db) (matchID : Str) : Bool :=
  (db.matches_.find matchID).any fun row => row.status = .finalized

/-- The join of `GetUserPositionsByMarketId` finds no market that is not deleted. -/
def Db.hidesPositions (db : Db) (marketID : Uint128) : Bool :=
  (db.markets.find marketID).all fun row => row.deletedAt

section Steps

variable (p : Platform) (net : Network)

def PositionsWorld.contract (s : PositionsWorld) : State :=
  PrismV2.run net.c net.d.state s.history

/-! ## Steps -/

def PositionsWorld.order (s : PositionsWorld) (q : Prepared) (env : Env) : PositionsWorld :=
  match q.call p with
  | none => s
  | some call =>
    { s with
      history := s.history ++ [⟨env, call⟩]
      settled := if (exec net.c ⟨env, call⟩ (s.contract net)).toOption.isSome then s.settled ++ [q]
        else s.settled }

/-- `finalizeMatchV2` of an executed match. A fill beyond a signed word is not booked. -/
def PositionsWorld.finalize (s : PositionsWorld) (k : Nat) (txHash : Str) : PositionsWorld :=
  match s.settled[k]? with
  | none => s
  | some q =>
    match s.db.finalizeMatchV2 p.uuid q.record txHash with
    | .error _ => s
    | .ok (db, applied) =>
      { s with
        db
        tasks := if applied ∧ q.record.fillShares ≤ maxInt64 then
            s.tasks ++ [⟨k, q, [.bid, .ask], none⟩]
          else s.tasks }

/-- The rows are read; a leg whose rows cannot be read is passed over. -/
def PositionsWorld.read (s : PositionsWorld) (i : Nat) (succeeds : Bool) : PositionsWorld :=
  match s.tasks[i]? with
  | some ⟨k, q, leg :: legs, none⟩ =>
    let marketID := q.record.marketID
    let held := getUserPositionsByMarketId (s.db.hidesPositions marketID) (s.positions marketID)
      (q.row leg).evmaddress
    { s with
      tasks := s.tasks.set i
        (if succeeds then ⟨k, q, leg :: legs, some held⟩ else ⟨k, q, legs, none⟩) }
  | _ => s

/-- The balances are computed and written; a write that fails is logged. -/
def PositionsWorld.write (s : PositionsWorld) (i : Nat) (succeeds : Bool) : PositionsWorld :=
  match s.tasks[i]? with
  | some ⟨k, q, leg :: legs, some held⟩ =>
    let marketID := q.record.marketID
    let done := { s with tasks := s.tasks.set i ⟨k, q, legs, none⟩ }
    match succeeds, writeBalances (s.positions marketID) (q.row leg) q.record.executionYesPrice
      (q.moved leg held) with
    | true, .ok positions =>
      { done with
        positions := Function.update s.positions marketID positions
        counted := (k, leg) :: s.counted }
    | _, _ => done
  | _ => s

def PositionsWorld.next (s : PositionsWorld) : BookkeepingEvent → PositionsWorld
  | .order m bid ask bidRow askRow cfg market env =>
    match prepare p m bid ask bidRow askRow cfg market with
    | .error _ => s
    | .ok q => s.order p net q env
  | .external tx => { s with history := s.history ++ [tx] }
  | .database db => { s with db }
  | .finalize k txHash => s.finalize p k txHash
  | .read i succeeds => s.read i succeeds
  | .write i succeeds => s.write i succeeds
  | .stop i => { s with tasks := s.tasks.eraseIdx i }

/-- Submissions are of messages and rows that the database keeps, only the API's key settles,
nobody redeems, and no other statement finalizes a match or takes that back. -/
def PositionsWorld.Allowed (s : PositionsWorld) : BookkeepingEvent → Prop
  | .order m bid ask bidRow askRow _ _ _ => m.bid = some bid ∧ m.ask = some ask ∧
    m.fillShares < 2 ^ 64 ∧ Stored bidRow ∧ Stored askRow
  | .external tx => tx.call.movesShares = false
  | .database db => ∀ matchID, db.finalized matchID = s.db.finalized matchID
  | _ => True

def bookkeeping : System PositionsWorld BookkeepingEvent where
  next := PositionsWorld.next p net
  Allowed := PositionsWorld.Allowed

/-! ## Agreement -/

/-- The shares of a trader, whichever way the address is spelt. -/
def heldBy (positions : PositionTable) (side : Side) (trader : Address) : Nat :=
  positions.sum fun row =>
    if addressBytes row.evmAddress = some trader then (row.holding side).n.val else 0

def PositionsWorld.Quiet (s : PositionsWorld) : Prop :=
  (∀ q ∈ s.settled, s.db.finalized q.record.matchID = true) ∧ ∀ task ∈ s.tasks, task.legs = []

structure PositionsWorld.Agrees (s : PositionsWorld) : Prop where
  /- a quiet database holds what the contract holds -/
  balances : s.Quiet → ∀ marketID side trader,
    heldBy (s.positions marketID) side trader = (s.contract net).position side marketID trader
  /- the clamp changes nothing -/
  unclamped : ∀ task ∈ s.tasks, ∀ leg later held, task.legs = leg :: later →
    task.held = some held → 0 ≤ (task.q.moved leg held).1 ∧ 0 ≤ (task.q.moved leg held).2

/-! ## The condition -/

def PositionsWorld.orderOf (s : PositionsWorld) (key : Nat × Leg) : Option Authorization :=
  s.settled[key.1]?.bind fun q => (q.auth key.2).decoded

def PositionsWorld.buysFor (s : PositionsWorld) (x : Authorization) (key : Nat × Leg) : Bool :=
  (s.orderOf key).any fun y =>
    y.action = .buy ∧ y.marketId = x.marketId ∧ y.signer = x.signer ∧ y.side = x.side

def legsOf (count : Nat) : List (Nat × Leg) := List.range count ×ˢ [.bid, .ask]

/-- A leg that sells comes after its trader's purchases that the contract executed before. -/
def PositionsWorld.purchasesCounted (s : PositionsWorld) (k : Nat) (leg : Leg) : Bool :=
  (s.orderOf (k, leg)).all fun x => x.action = .buy ∨
    ∀ key ∈ legsOf s.settled.length, key.1 ≤ k → s.buysFor x key = true → key ∈ s.counted

/-- The rows of a leg are shown, unless nothing is held, and a purchase fits its column. -/
def PositionsWorld.readable (s : PositionsWorld) (q : Prepared) (leg : Leg) : Bool :=
  let row := q.row leg
  let position := positionOf (s.positions q.record.marketID) row.evmaddress
  let bought := if row.side.getD 0 = Clob.sideYes then position.yes else position.no
  (s.db.hidesPositions q.record.marketID = true → position.yes.n.val = 0 ∧ position.no.n.val = 0) ∧
    (row.action.getD 0 ≠ actionSell → bought.n.val + q.record.fillShares < 2 ^ 63)

/-- Where a leg is written, its quantities are as they were read. -/
def PositionsWorld.unchanged (s : PositionsWorld) (q : Prepared) (leg : Leg)
    (held : List PositionRow) : Bool :=
  let position := positionOf (s.positions q.record.marketID) (q.row leg).evmaddress
  let seen := held.head?.getD (.zero (q.row leg).evmaddress)
  seen.yes.n = position.yes.n ∧ seen.no.n = position.no.n

/-- The condition on a step: every trader's address is spelt in one way, fills fit a signed word,
a task is done when it stops, and reads and writes succeed, in the order of the trades and one
after the other. -/
def PositionsWorld.inStep (spelling : Address → Str) (s : PositionsWorld) :
    BookkeepingEvent → Bool
  | .order m bid ask bidRow askRow cfg market _ =>
    (prepare p m bid ask bidRow askRow cfg market).toOption.all fun q =>
      [Leg.bid, .ask].all fun leg =>
        (q.auth leg).decoded.all fun x => (q.row leg).evmaddress = spelling x.signer
  | .finalize k _ => s.settled[k]?.all fun q => q.record.fillShares ≤ maxInt64
  | .read i succeeds => s.tasks[i]?.all fun task =>
    match task.legs, task.held with
    | leg :: _, none => succeeds && s.readable task.q leg && s.purchasesCounted task.fill leg
    | _, _ => true
  | .write i succeeds => s.tasks[i]?.all fun task =>
    match task.legs, task.held with
    | leg :: _, some held => succeeds && s.unchanged task.q leg held
    | _, _ => true
  | .stop i => s.tasks[i]?.all fun task => task.legs.isEmpty
  | _ => true

end Steps

/-! ## Legs -/

theorem legsOf_succ (count : Nat) :
    legsOf (count + 1) = legsOf count ++ [(count, .bid), (count, .ask)] := by
  simp [legsOf, List.range_succ, List.product, SProd.sprod]

theorem mem_legsOf {count : Nat} {key : Nat × Leg} : key ∈ legsOf count ↔ key.1 < count := by
  obtain ⟨k, leg⟩ := key
  cases leg <;> simp [legsOf]

theorem legsOf_nodup (count : Nat) : (legsOf count).Nodup :=
  List.nodup_range.product (by decide)

theorem legsOf_sorted (count : Nat) : (legsOf count).Pairwise fun x y => x.1 ≤ y.1 := by
  induction count with
  | zero => exact List.Pairwise.nil
  | succ count ih =>
      rw [legsOf_succ]
      refine List.pairwise_append.mpr ⟨ih, by simp, ?_⟩
      intro x hx y hy
      have hlt := mem_legsOf.mp hx
      simp only [List.mem_cons, List.not_mem_nil, or_false] at hy
      rcases hy with rfl | rfl <;> exact hlt.le

def legDelta (settled : List Prepared) (side : Side) (marketID : Uint128) (trader : Address)
    (key : Nat × Leg) : Int :=
  match settled[key.1]? with
  | none => 0
  | some q =>
    match (q.auth key.2).decoded with
    | none => 0
    | some x => x.shareDelta q.record.fillShares side marketID trader

theorem legDelta_eq {settled : List Prepared} {q : Prepared} {k : Nat} {leg : Leg}
    {x : Authorization} (hq : settled[k]? = some q) (hx : (q.auth leg).decoded = some x)
    (side : Side) (marketID : Uint128) (trader : Address) :
    legDelta settled side marketID trader (k, leg) =
      x.shareDelta q.record.fillShares side marketID trader := by
  simp only [legDelta, hq, hx]

theorem legDelta_append (settled : List Prepared) (q : Prepared) (side : Side)
    (marketID : Uint128) (trader : Address) :
    ∀ key ∈ legsOf settled.length, legDelta settled side marketID trader key =
      legDelta (settled ++ [q]) side marketID trader key := by
  intro key hkey
  unfold legDelta
  rw [List.getElem?_append_left (mem_legsOf.mp hkey)]

/-! ## Rows -/

/-- Every row is of a trader, whose address is spelt in the given way. -/
def Spelt (spelling : Address → Str) (positions : PositionTable) : Prop :=
  ∀ row ∈ positions.rows, ∃ trader, addressBytes row.evmAddress = some trader ∧
    row.evmAddress = spelling trader

section Rows

variable {spelling : Address → Str} {positions positions' : PositionTable}

/-- Where traders are spelt in one way, a trader has one row. -/
theorem heldBy_spelt (h : Spelt spelling positions) (side : Side) (trader : Address) :
    heldBy positions side trader = if addressBytes (spelling trader) = some trader then
      ((positionOf positions (spelling trader)).holding side).n.val else 0 := by
  have hrow : heldBy positions side trader = positions.sum fun row =>
      if row.evmAddress = spelling trader then
        (if addressBytes (spelling trader) = some trader then (row.holding side).n.val else 0)
      else 0 := by
    apply Table.sum_congr
    intro row hmem
    obtain ⟨owner, haddress, hspelt⟩ := h row hmem
    by_cases heq : row.evmAddress = spelling trader
    · rw [if_pos heq, heq]
    · rw [if_neg heq, if_neg]
      intro hown
      rw [haddress, Option.some.injEq] at hown
      exact heq (hown ▸ hspelt)
  rw [hrow, Table.sum_key]
  unfold positionOf
  cases positions.find (spelling trader) with
  | none =>
      cases side with
      | yes => exact (ite_self 0).symm
      | no => exact (ite_self 0).symm
  | some row => rfl

/-- A write leaves the rows of other addresses, and no row for a new one but its own. -/
theorem Spelt.written (h : Spelt spelling positions) {row : PredictionIntent} {trader : Address}
    {executionYesPrice : Nat} {moved : Int × Int}
    (haddress : addressBytes row.evmaddress = some trader)
    (hspelt : row.evmaddress = spelling trader)
    (hwrite : writeBalances positions row executionYesPrice moved = .ok positions') :
    Spelt spelling positions' := by
  simp only [writeBalances, upsertPositions, bind_ok_iff, revertIf_ok_iff, exists_const,
    Except.ok.injEq] at hwrite
  obtain ⟨_, rfl⟩ := hwrite
  have hkey : ∀ old : Option PositionRow, (∀ r, old = some r → r.evmAddress = row.evmaddress) →
      ∀ nYes nNo priceUsd,
        (upsertedRow old row.evmaddress nYes nNo priceUsd).evmAddress = row.evmaddress := by
    intro old hold nYes nNo priceUsd
    cases old with
    | none => rfl
    | some r => exact hold r rfl
  have hfound := hkey (positions.find row.evmaddress)
    (fun r hr => (Table.find_eq_some.mp hr).2) (clampZero moved.1) (clampZero moved.2)
    (deltaPrice row executionYesPrice)
  intro written hwritten
  split at hwritten
  · obtain ⟨old, hold, rfl⟩ := List.mem_map.mp hwritten
    split
    · exact ⟨trader, by rw [hfound]; exact haddress, by rw [hfound]; exact hspelt⟩
    · exact h old hold
  · rcases Table.mem_of_mem_insert hwritten with hold | rfl
    · exact h written hold
    · exact ⟨trader, by rw [hfound]; exact haddress, by rw [hfound]; exact hspelt⟩

end Rows

/-! ## Executed matches -/

/-- A leg as the contract reads it, and as its row says it. -/
structure LegOf (spelling : Address → Str) (q : Prepared) (leg : Leg) (x : Authorization) :
    Prop where
  decoded : (q.auth leg).decoded = some x
  marketId : x.marketId = q.record.marketID
  address : addressBytes (q.row leg).evmaddress = some x.signer
  spelt : (q.row leg).evmaddress = spelling x.signer
  side : (q.row leg).side.getD 0 = x.side.toWord
  action : (q.row leg).action.getD 0 = x.action.toWord

structure Prepared.Settled (spelling : Address → Str) (q : Prepared) : Prop where
  legs : ∀ leg, ∃ x, LegOf spelling q leg x
  recordID : q.record.matchID = matchIDText q.matchID
  price : q.record.executionYesPrice ≤ PrismV2.priceScale

theorem authorizationFromIntent_kind {uuid : Uuid} {terms : OrderTerms} {a : AuthorizationV2}
    (h : authorizationFromIntent uuid terms = .ok a) :
    terms.side.getD 0 = a.side ∧ terms.action.getD 0 = a.action := by
  unfold authorizationFromIntent at h
  split at h
  · next chainID contract side action limit deadline _ _ hside haction _ _ =>
    simp only [bind_ok_iff, mapError_ok_iff] at h
    obtain ⟨_, _, _, _, hassemble⟩ := h
    have hassembled := newAuthorizationV2_assembled hassemble
    rw [hside, haction, hassembled.side, hassembled.action]
    exact ⟨rfl, rfl⟩
  · exact absurd h (by simp)

theorem OrderOf.addressBytes {row : PredictionIntent} {a : AuthorizationV2} {x : Authorization}
    (h : OrderOf row a x) : Api.addressBytes row.evmaddress = some x.signer := by
  have hdigits := h.address.2
  unfold Api.addressBytes
  simp only [trimPrefix_hex hdigits hexDigit_x.1]
  rw [if_neg (not_not.mpr h.address.1), h.signer, Option.map_some, Option.some.injEq]
  exact Fin.ext (Nat.mod_eq_of_lt x.signer.isLt)

section Executed

variable {p : Platform} {net : Network} {spelling : Address → Str} {m : ClobMatch}
  {bid ask : CreateOrderRequestClob} {bidRow askRow : PredictionIntent} {cfg : PrismV2Network}
  {market : MarketRow} {q : Prepared}

/-- What the contract runs for a prepared match is the settlement of the orders of its rows. -/
theorem prepared_call (hkeccak : ∀ text, (p.keccak256 text).length = 32)
    (hsignatures : ∀ row signature, p.signatureMap row = .ok signature →
      signature.length < 2 ^ 32)
    (hbid : m.bid = some bid) (hask : m.ask = some ask) (hfill : m.fillShares < 2 ^ 64)
    (hbidRow : Stored bidRow) (haskRow : Stored askRow)
    (h : prepare p m bid ask bidRow askRow cfg market = .ok q) {call : Call}
    (hcall : q.call p = some call) :
    ∃ x y signatureA signatureB, OrderOf q.bidRow q.bidAuth x ∧ OrderOf q.askRow q.askAuth y ∧
      call = .settle x signatureA y signatureB q.record.fillShares q.record.executionYesPrice
        q.matchID := by
  have hq := prepare_ok hbid hask h
  obtain ⟨x, hx⟩ := authorizationFromIntent_order hbidRow hq.bidAuth
  obtain ⟨y, hy⟩ := authorizationFromIntent_order haskRow hq.askAuth
  rw [← hq.bidOrder] at hx
  rw [← hq.askOrder] at hy
  have hprice := (splitCollateralV2_ok hfill hq.split).2.2.1
  obtain ⟨_, _, _, _, hid⟩ := hq.matchID
  have hfillWord : q.record.fillShares < 2 ^ 64 := by
    rw [hq.fillShares]
    exact hfill
  have hpriceWord : q.record.executionYesPrice < 2 ^ 64 := by
    rw [hq.executionYesPrice]
    exact hprice.trans (by decide)
  obtain ⟨calldata, hdata, hdecode⟩ := Option.bind_eq_some_iff.mp hcall
  have hok : q.calldata p = .ok calldata := by
    cases hresult : q.calldata p with
    | error err =>
        rw [hresult] at hdata
        exact absurd hdata (by simp [Except.toOption])
    | ok data =>
        rw [hresult] at hdata
        exact congrArg Except.ok (Option.some.inj hdata)
  obtain ⟨signatureA, signatureB, hsettle⟩ := calldata_decodes hkeccak hsignatures hx hy hfillWord
    hpriceWord (matchIDV2_lt hkeccak hid) hok
  rw [hdecode, Option.some.injEq] at hsettle
  exact ⟨x, y, signatureA, signatureB, hx, hy, hsettle⟩

theorem prepared_leg (h : PreparedFor p m bidRow askRow cfg q) (leg : Leg) {x : Authorization}
    (hx : OrderOf (q.row leg) (q.auth leg) x) (hmarket : x.marketId = q.record.marketID)
    (hspelt : (q.row leg).evmaddress = spelling x.signer) : LegOf spelling q leg x := by
  have hkind : (q.row leg).side.getD 0 = (q.auth leg).side ∧
      (q.row leg).action.getD 0 = (q.auth leg).action := by
    cases leg with
    | bid =>
        rw [Prepared.row, h.bidOrder]
        exact authorizationFromIntent_kind h.bidAuth
    | ask =>
        rw [Prepared.row, h.askOrder]
        exact authorizationFromIntent_kind h.askAuth
  exact ⟨hx.decoded, hmarket, hx.addressBytes, hspelt, hkind.1.trans hx.decodes.side,
    hkind.2.trans hx.decodes.action⟩

end Executed

/-! ## Finalization -/

theorem Db.updateMatch_find (db : Db) (matchID : Str) {f : Match → Match}
    {hf : ∀ row, (f row).matchID = row.matchID} (id : Str) :
    (db.updateMatch matchID f hf).matches_.find id = (db.matches_.find id).map fun row =>
      if id = matchID then (if row.status = .finalized then row else f row) else row := by
  have hkeeps : ∀ row : Match, (if row.status = .finalized then row else f row).matchID =
      row.matchID := by
    intro row
    split
    · rfl
    · exact hf row
  exact Table.find_modify_map hkeeps id

theorem Db.finalizeMatchV2_finalized {db db' : Db} {uuid : Uuid} {record : MatchV2} {txHash : Str}
    {applied : Bool} (h : db.finalizeMatchV2 uuid record txHash = .ok (db', applied)) :
    (applied = false ∧ db' = db) ∨
      (applied = true ∧ db.finalized record.matchID = false ∧
        ∀ matchID, db'.finalized matchID = true ↔
          matchID = record.matchID ∨ db.finalized matchID = true) := by
  rcases Db.finalizeMatchV2_ok h with hsame | ⟨rfl, row, middle, hrow, hopen, hbid, hask⟩
  · exact Or.inl hsame
  · right
    have hmatches : db'.matches_ = (db.finalizeMatch record.matchID txHash).matches_ := by
      obtain ⟨_, _, _, _, rfl⟩ := Db.addPredictionIntentFill_ok hask
      obtain ⟨_, _, _, _, rfl⟩ := Db.addPredictionIntentFill_ok hbid
      rfl
    refine ⟨rfl, ?_, ?_⟩
    · unfold Db.finalized
      rw [hrow, Option.any_some]
      exact decide_eq_false hopen
    · intro matchID
      unfold Db.finalized
      rw [hmatches, Db.finalizeMatch, Db.updateMatch_find]
      by_cases hid : matchID = record.matchID
      · subst hid
        rw [hrow, Option.map_some, Option.any_some, if_pos rfl, if_neg hopen]
        simp
      · simp [hid]

end PrismBackend.Api
