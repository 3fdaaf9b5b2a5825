import PrismBackend.PrismV2.Acceptance
import PrismBackend.Api.SettlementV2

/-!
# API: what is submitted settles

The checks of `settleMatchV2` against those of the contract. When the rows hold
the contract's fill state and the surroundings support the fill, the call that
reaches the network does not revert.
-/

namespace PrismBackend.Api

open PrismBackend.Lib PrismBackend.Clob PrismBackend.PrismV2

/-! ## The integer rules -/

theorem splitCollateralV2_ok {fill price yes no : Nat} (hfill : fill < 2 ^ 64)
    (h : splitCollateralV2 fill price = .ok (yes, no)) :
    fill ≠ 0 ∧ price ≠ 0 ∧ price < PrismV2.priceScale ∧ yes = yesCollateral fill price ∧
      no = noCollateral fill price ∧ yes ≠ 0 ∧ no ≠ 0 := by
  simp only [splitCollateralV2, bind_ok_iff, revertIf_ok_iff, exists_const, not_or, not_le,
    ge_iff_le, Except.ok.injEq, Prod.mk.injEq] at h
  obtain ⟨⟨hne, hpos, hprice⟩, ⟨hyes, hno⟩, rfl, rfl⟩ := h
  have hquotient := div64_mul64 hfill hprice
  have hle := yesCollateral_le fill hprice
  have hyesEq : (div64 (mul64 fill price).1 (mul64 fill price).2 PrismV2.priceScale).getD 0 =
      yesCollateral fill price := by
    rw [hquotient]
    rfl
  rw [hyesEq] at hyes hno ⊢
  rw [sub64_eq hfill hle] at hno ⊢
  exact ⟨hne, hpos, hprice, rfl, rfl, hyes, hno⟩

theorem isBidV2_decoded {a : AuthorizationV2} {x : Authorization} (h : Decodes a x) :
    isBidV2 a.side a.action = x.isBid := by
  rw [h.side, h.action, Authorization.isBid]
  cases x.side <;> cases x.action <;> rfl

theorem legCollateralV2_decoded {a : AuthorizationV2} {x : Authorization} (h : Decodes a x)
    (fill price : Nat) :
    legCollateralV2 a.side (yesCollateral fill price) (noCollateral fill price) =
      fillCollateral x fill price := by
  rw [h.side, fillCollateral, PrismV2.legCollateral]
  cases x.side <;> rfl

theorem checkLimit_ok {a : AuthorizationV2} {x : Authorization} (h : Decodes a x) {price : Nat}
    (hlimit : checkLimit a.side a.action a.limitYesPrice price = .ok ()) :
    ¬limitViolated x price := by
  rw [checkLimit, isBidV2_decoded h, ← h.limitYesPrice] at hlimit
  unfold limitViolated
  cases hbid : x.isBid with
  | true =>
      rw [hbid, if_pos rfl, revertIf_ok_iff] at hlimit
      rcases isBid_true hbid with ⟨hside, haction⟩ | ⟨hside, haction⟩
      · simp [hside, haction]
        omega
      · simp [hside, haction]
        omega
  | false =>
      rw [hbid, if_neg (by simp), revertIf_ok_iff] at hlimit
      rcases isBid_false hbid with ⟨hside, haction⟩ | ⟨hside, haction⟩
      · simp [hside, haction]
        omega
      · simp [hside, haction]
        omega

theorem fillCollateral_le (x : Authorization) (shares : Nat) {price : Nat}
    (hprice : price < PrismV2.priceScale) : fillCollateral x shares price ≤ shares := by
  have hsum := yesCollateral_add_noCollateral shares hprice
  unfold fillCollateral PrismV2.legCollateral
  split <;> omega

theorem consumed_collateral_le {s : State} {shares collateral : Nat} (hle : collateral ≤ shares)
    (h : ∀ hash, (s.fills hash).collateral ≤ (s.fills hash).shares) (x : Authorization)
    (hash hash' : Bytes32) : ((s.consumed x hash shares collateral).fills hash').collateral ≤
      ((s.consumed x hash shares collateral).fills hash').shares := by
  by_cases hsame : hash' = hash
  · subst hsame
    simp only [State.consumed, Function.update_self]
    exact Nat.add_le_add (h hash') hle
  · simp only [State.consumed, Function.update_of_ne hsame]
    exact h hash'

theorem exec_collateral_le {c : Chain} (s : State) (tx : Tx) (r : State × Option Redeemed)
    (h : ∀ hash, (s.fills hash).collateral ≤ (s.fills hash).shares)
    (hexec : exec c tx s = .ok r) (hash : Bytes32) :
    (r.1.fills hash).collateral ≤ (r.1.fills hash).shares := by
  obtain ⟨env, call⟩ := tx
  cases effect_books (exec_effect hexec) with
  | other _ _ hfills => rw [hfills]; exact h hash
  | @settle a b _ _ fillShares price matchId hadmitted hfills =>
      have hprice := hadmitted.price_lt
      rw [hfills]
      exact consumed_collateral_le (fillCollateral_le b fillShares hprice)
        (consumed_collateral_le (fillCollateral_le a fillShares hprice) h a _) b _ hash

theorem run_collateral_le {c : Chain} (d : Deployment c) (txs : List Tx) (hash : Bytes32) :
    ((run c d.state txs).fills hash).collateral ≤ ((run c d.state txs).fills hash).shares := by
  refine run_preserves (P := fun s => ∀ hash, (s.fills hash).collateral ≤ (s.fills hash).shares)
    exec_collateral_le ?_ txs hash
  intro hash
  rw [d.fills_zero]

/-! ## The gates of a leg -/

/-- The gates of a leg, read back: a sum that wraps fails the quantity gate. -/
theorem checkLeg_ok {p : Platform} {record : MatchV2} {now : Nat} {a : AuthorizationV2}
    {row : PredictionIntent} (hfill : record.fillShares < 2 ^ 64)
    (h : checkLeg p record now a row = .ok ()) :
    checkLimit a.side a.action a.limitYesPrice record.executionYesPrice = .ok () ∧
      now ≤ a.deadline ∧ row.sharesFilled + record.fillShares < 2 ^ 64 ∧
      row.sharesFilled + record.fillShares ≤ a.qtyShares ∧
      (a.action = Api.actionBuy → add64 row.collateralFilled
        (legCollateralV2 a.side record.yesCollateral record.noCollateral) ≤ a.collateralCap) := by
  simp only [checkLeg, bind_ok_iff, mapError_ok_iff, revertIf_ok_iff, exists_const, not_or, not_lt,
    gt_iff_lt, parseUint, not_le, Except.ok.injEq] at h
  obtain ⟨u, hlimit, hdeadline, shares, ⟨hshares, rfl⟩, ⟨hqty, hwrap⟩, hcap⟩ := h
  have hexact : row.sharesFilled + record.fillShares < 2 ^ 64 := by
    unfold add64 at hwrap
    omega
  rw [add64_eq hexact] at hqty
  refine ⟨hlimit, hdeadline, hexact, hqty, ?_⟩
  intro hbuy
  rw [if_pos hbuy] at hcap
  simp only [checkCap, bind_ok_iff, mapError_ok_iff, revertIf_ok_iff, parseUint, exists_const,
    not_lt, gt_iff_lt, Except.ok.injEq] at hcap
  obtain ⟨collateral, ⟨_, rfl⟩, hcap⟩ := hcap
  exact hcap

theorem leg_le {a : AuthorizationV2} {x : Authorization} (h : Decodes a x) {fill price : Nat}
    (hprice : price < PrismV2.priceScale) :
    legCollateralV2 a.side (yesCollateral fill price) (noCollateral fill price) ≤ fill := by
  rw [legCollateralV2_decoded h]
  have hsum := yesCollateral_add_noCollateral fill hprice
  unfold fillCollateral PrismV2.legCollateral
  split <;> omega

/-! ## What is prepared -/

/-- A prepared match: its rows, the authorizations rebuilt from them, and the fill. -/
structure PreparedFor (p : Platform) (m : ClobMatch) (bidRow askRow : PredictionIntent)
    (cfg : PrismV2Network) (q : Prepared) : Prop where
  network : q.cfg = cfg
  bidOrder : q.bidRow = bidRow
  askOrder : q.askRow = askRow
  bidAuth : authorizationFromIntent p.uuid bidRow.toOrderTerms = .ok q.bidAuth
  askAuth : authorizationFromIntent p.uuid askRow.toOrderTerms = .ok q.askAuth
  bidDomain : q.bidAuth.chainId = cfg.chainID ∧
    trimPrefix ['0', 'x'] q.bidAuth.verifyingContract = cfg.proxyAddress
  askDomain : q.askAuth.chainId = cfg.chainID ∧
    trimPrefix ['0', 'x'] q.askAuth.verifyingContract = cfg.proxyAddress
  bid : isBidV2 q.bidAuth.side q.bidAuth.action = true
  ask : isBidV2 q.askAuth.side q.askAuth.action = false
  split : splitCollateralV2 m.fillShares m.executionYesPrice =
    .ok (q.record.yesCollateral, q.record.noCollateral)
  fillShares : q.record.fillShares = m.fillShares
  executionYesPrice : q.record.executionYesPrice = m.executionYesPrice
  matchID : ∃ bid ask, m.bid = some bid ∧ m.ask = some ask ∧
    matchIDV2 p.keccak256 cfg.proxyAddress q.bidAuth.marketId q.bidAuth.txId q.askAuth.txId
      bid.sharesFilled ask.sharesFilled m.fillShares m.executionYesPrice = .ok q.matchID
  marketID : q.record.marketID = q.bidAuth.marketId
  bidTxID : q.record.bidTxID = q.bidAuth.txId
  askTxID : q.record.askTxID = q.askAuth.txId
  recordID : q.record.matchID = matchIDText q.matchID
  bidCollateral : q.record.bidCollateral =
    legCollateralV2 q.bidAuth.side q.record.yesCollateral q.record.noCollateral
  askCollateral : q.record.askCollateral =
    legCollateralV2 q.askAuth.side q.record.yesCollateral q.record.noCollateral

theorem prepare_ok {p : Platform} {m : ClobMatch} {bid ask : CreateOrderRequestClob}
    {bidRow askRow : PredictionIntent} {cfg : PrismV2Network} {market : MarketRow} {q : Prepared}
    (hbid : m.bid = some bid) (hask : m.ask = some ask)
    (h : prepare p m bid ask bidRow askRow cfg market = .ok q) :
    PreparedFor p m bidRow askRow cfg q := by
  simp only [prepare, checkDomain, bind_ok_iff, mapError_ok_iff, revertIf_ok_iff,
    exists_const, not_or,
    not_not, Except.ok.injEq] at h
  obtain ⟨_, bidAuth, hbidAuth, askAuth, haskAuth, hbidDomain, haskDomain, ⟨hisBid, hisAsk⟩,
    ⟨yes, no⟩, hsplit, _, matchID, hmatchID, unitScale, _, rfl⟩ := h
  exact ⟨rfl, rfl, rfl, hbidAuth, haskAuth, hbidDomain, haskDomain, hisBid, by simpa using hisAsk,
    hsplit, rfl, rfl, ⟨bid, ask, hbid, hask, hmatchID⟩, rfl, rfl, rfl, rfl, rfl, rfl⟩

/-! ## The orders of stored rows -/

/-- What the table lets a row hold: an address of forty characters, a signed deadline. -/
structure Stored (row : PredictionIntent) : Prop where
  evmaddress : row.evmaddress.length = 40
  deadline : ∀ deadline, row.deadline = some deadline → deadline < 2 ^ 63

theorem length_trimPrefix_le (pre s : Str) : (trimPrefix pre s).length ≤ s.length := by
  unfold trimPrefix
  split
  · rw [List.length_drop]
    omega
  · rfl

theorem trimPrefix_of_length {mark : Char} {s : Str}
    (h : (trimPrefix ['0', mark] s).length = s.length) : trimPrefix ['0', mark] s = s := by
  unfold trimPrefix at h ⊢
  split at h
  · next hprefix =>
    have hle := (List.isPrefixOf_iff_prefix.mp hprefix).length_le
    simp only [List.length_drop, List.length_cons, List.length_nil] at h hle
    omega
  · next hprefix => rw [if_neg hprefix]

theorem addressBytes_marked (low : Str) : addressBytes (['0', 'x'] ++ low) =
    if low.length ≠ 40 then none else (hexNat low).map (Fin.ofNat (2 ^ 160)) := rfl

theorem isHex40_of_normalize {s : Str} (hlength : s.length = 40) {account : Address}
    (h : addressBytes (normalizeAddress s) = some account) : isHex40 s := by
  let trimmed := trimPrefix ['0', 'X'] (trimPrefix ['0', 'x'] s)
  have hread : addressBytes (['0', 'x'] ++ toAsciiLowercase trimmed) = some account := h
  rw [addressBytes_marked] at hread
  have hkept : (trimPrefix ['0', 'X'] (trimPrefix ['0', 'x'] s)).length = 40 := by
    by_contra hne
    rw [if_pos (by rw [toAsciiLowercase, List.length_map]; exact hne)] at hread
    exact absurd hread (by simp)
  rw [if_neg (by rw [toAsciiLowercase, List.length_map]; exact not_not.mpr hkept)] at hread
  have hinner := length_trimPrefix_le ['0', 'x'] s
  have houter := length_trimPrefix_le ['0', 'X'] (trimPrefix ['0', 'x'] s)
  have hfirst : trimPrefix ['0', 'x'] s = s := trimPrefix_of_length (by omega)
  have hsecond : trimmed = s := by
    have heq : trimmed = trimPrefix ['0', 'x'] s := trimPrefix_of_length (by omega)
    rw [heq, hfirst]
  rw [hsecond] at hread
  obtain ⟨n, hn, _⟩ := Option.map_eq_some_iff.mp hread
  refine ⟨hlength, ?_⟩
  intro ch hch
  rw [← hexDigit_toLower]
  exact isSome_of_hexNat hn ch.toLower (List.mem_map_of_mem hch)

theorem contract_of_domain {verifyingContract proxyAddress : Str} {contract self : Address}
    (hread : addressBytes (normalizeAddress verifyingContract) = some contract)
    (hproxy : trimPrefix ['0', 'x'] (normalizeAddress verifyingContract) = proxyAddress)
    (hself : addressBytes proxyAddress = some self) : contract = self := by
  let low := toAsciiLowercase (trimPrefix ['0', 'X'] (trimPrefix ['0', 'x'] verifyingContract))
  have hlow : proxyAddress = low := hproxy.symm
  have hmarked : addressBytes (['0', 'x'] ++ low) = some contract := hread
  rw [addressBytes_marked] at hmarked
  split at hmarked
  · exact absurd hmarked (by simp)
  · next hlength =>
    obtain ⟨n, hn, hcontract⟩ := Option.map_eq_some_iff.mp hmarked
    have hdigits := isSome_of_hexNat hn
    rw [hlow, addressBytes, trimPrefix_hex hdigits hexDigit_x.1] at hself
    simp only [if_neg hlength, hn, Option.map_some, Option.some.injEq] at hself
    exact hcontract.symm.trans hself

structure OrderOf (row : PredictionIntent) (a : AuthorizationV2) (x : Authorization) : Prop where
  decoded : a.decoded = some x
  decodes : Decodes a x
  valid : a.validate 0 = .ok ()
  deadline : a.deadline < 2 ^ 64
  contract : ∃ verifyingContract, a.verifyingContract = normalizeAddress verifyingContract
  version : x.version = authorizationVersion
  marketId : x.marketId = row.marketID
  txId : x.txId = row.txID
  address : isHex40 row.evmaddress
  signer : hexNat row.evmaddress = some x.signer.val
  qtyShares : x.qtyShares ≠ 0
  limitYesPrice : x.limitYesPrice ≤ PrismV2.priceScale
  collateralCap : x.action = .buy → x.collateralCap ≠ 0

theorem authorizationFromIntent_order {uuid : Uuid} {row : PredictionIntent} (hrow : Stored row)
    {a : AuthorizationV2} (h : authorizationFromIntent uuid row.toOrderTerms = .ok a) :
    ∃ x, OrderOf row a x := by
  have hfields := hrow.deadline
  unfold authorizationFromIntent at h
  split at h
  · next chainID contract side action limit deadline _ hvc _ _ _ hdeadline =>
    simp only [bind_ok_iff, mapError_ok_iff] at h
    obtain ⟨qty, _, cap, _, h⟩ := h
    have hassembled := newAuthorizationV2_assembled h
    have hbound : a.deadline < 2 ^ 64 := by
      rw [hassembled.deadline]
      exact (hfields deadline hdeadline).trans (by norm_num)
    obtain ⟨x, hx, _, _⟩ := abiEncode_eq hassembled.valid hbound
    have hdecodes := decodes_of_decoded hx
    have hchecks := hassembled.valid
    simp only [AuthorizationV2.validate, bind_ok_iff, revertIf_ok_iff, exists_const, not_or,
      not_not] at hchecks
    obtain ⟨_, _, _, _, _, ⟨_, hlimit⟩, ⟨_, hqty⟩, _, _⟩ := hchecks
    have hread : addressBytes (normalizeAddress row.evmaddress) = some x.signer := by
      rw [← hassembled.signer]
      exact hdecodes.signer
    have hhex := isHex40_of_normalize hrow.evmaddress hread
    have hmarket := hassembled.market
    have htx := hassembled.tx
    rw [uuid.parse_string, Except.ok.injEq] at hmarket htx
    refine ⟨x, hx, hdecodes, hassembled.valid, hbound, ⟨contract, hassembled.verifyingContract⟩,
      ?_, ?_, ?_, hhex, addressBytes_normalize hhex hread, ?_, ?_, ?_⟩
    · rw [hdecodes.version, hassembled.version]
    · rw [hdecodes.marketId, hmarket]
    · rw [hdecodes.txId, htx]
    · rw [hdecodes.qtyShares]
      exact hqty
    · rw [hdecodes.limitYesPrice]
      exact Nat.le_of_not_lt hlimit
    · intro hbuy
      rw [hdecodes.collateralCap]
      apply hassembled.cap_ne_zero
      rw [hdecodes.action, hbuy]
      rfl
  · exact absurd h (by simp)

/-! ## What a submission is given -/

structure NamesDeployment (c : Chain) (cfg : PrismV2Network) : Prop where
  chainID : cfg.chainID = c.chainId
  proxyAddress : addressBytes cfg.proxyAddress = some c.self

/-- The fill state of a row is the contract's fill state of its authorization. -/
def RowHolds (uuid : Uuid) (c : Chain) (s : State) (row : PredictionIntent) : Prop :=
  ∀ a x, authorizationFromIntent uuid row.toOrderTerms = .ok a → a.decoded = some x →
    s.fills (authorizationHash c x) = ⟨row.sharesFilled, row.collateralFilled⟩

def OrderTerms.authorizations (uuid : Uuid) (order : OrderTerms) : Set Authorization :=
  {x | ∃ a, authorizationFromIntent uuid order = .ok a ∧ a.decoded = some x}

/-- Neither the zero address nor the contract has a key. -/
def OnlyWalletsSign (c : Chain) (env : Env) : Prop :=
  ∀ account message signature, account = 0 ∨ account = c.self →
    env.isAuthorized account message signature ≠ (hederaSuccess, true)

/-- What the chain and the signer of one leg grant a fill. -/
structure LegGranted (c : Chain) (env : Env) (s : State) (x : Authorization) (signature : Bytes)
    (shares price : Nat) : Prop where
  deadline : env.timestamp ≤ x.deadline
  notCanceled : s.canceled x.signer x.txId = false
  unbound : s.authorizationByNonce x.signer x.txId = 0 ∨
    s.authorizationByNonce x.signer x.txId = authorizationHash c x
  signed : env.isAuthorized x.signer (authorizationMessage c x) signature = (hederaSuccess, true)
  paid : x.action = .buy → fillCollateral x shares price ≤ s.collateral x.signer
  held : x.action = .sell → shares ≤ s.position x.side x.marketId x.signer

/-- What the surroundings grant a settlement: the operator submits it, the market is open, the
match id is unused, and both legs are granted. -/
structure FillGranted (c : Chain) (env : Env) (s : State) (a : Authorization) (signatureA : Bytes)
    (b : Authorization) (signatureB : Bytes) (shares price : Nat) (matchId : Bytes32) : Prop where
  operator : env.sender = s.operator
  isOpen : (s.markets a.marketId).state = .open
  beforeClose : env.timestamp < (s.markets a.marketId).closeTime
  accepts : env.acceptsHeld
  matchId_ne_zero : matchId ≠ 0
  unused : s.executedMatches matchId = false
  legA : LegGranted c env s a signatureA shares price
  legB : LegGranted c env s b signatureB shares price

def CallGranted (c : Chain) (env : Env) (s : State) : Call → Prop
  | .settle a signatureA b signatureB shares price matchId =>
    FillGranted c env s a signatureA b signatureB shares price matchId
  | _ => False

theorem LegGranted.granted {c : Chain} {env : Env} {s : State} {x : Authorization}
    {signature : Bytes} {shares price : Nat} (h : LegGranted c env s x signature shares price)
    (hwallets : OnlyWalletsSign c env) : Granted c env s x signature shares price := by
  refine ⟨h.deadline, h.notCanceled, h.signed, ?_, ?_, h.paid, h.held⟩
  · intro hzero
    exact hwallets _ _ _ (Or.inl hzero) h.signed
  · intro hself
    exact hwallets _ _ _ (Or.inr hself) h.signed

theorem FillGranted.supported {c : Chain} {env : Env} {s : State} {a b : Authorization}
    {signatureA signatureB : Bytes} {shares price : Nat} {matchId : Bytes32}
    (h : FillGranted c env s a signatureA b signatureB shares price matchId)
    (hwallets : OnlyWalletsSign c env) :
    Supported c env s a signatureA b signatureB shares price matchId :=
  ⟨h.operator, h.isOpen, h.beforeClose, h.accepts, h.matchId_ne_zero, h.unused,
    h.legA.granted hwallets, h.legB.granted hwallets⟩

/-! ## One leg against the contract -/

section Leg

variable {c : Chain} {s : State} {p : Platform} {record : MatchV2} {now : Nat}
  {a : AuthorizationV2} {x : Authorization} {row : PredictionIntent} {cfg : PrismV2Network}

theorem OrderOf.terms (h : OrderOf row a x) (hcfg : NamesDeployment c cfg)
    (hdomain : a.chainId = cfg.chainID ∧
      trimPrefix ['0', 'x'] a.verifyingContract = cfg.proxyAddress)
    {price : Nat} (hlimit : checkLimit a.side a.action a.limitYesPrice price = .ok ()) :
    Terms c x price := by
  obtain ⟨verifyingContract, hcontract⟩ := h.contract
  have hread := h.decodes.verifyingContract
  rw [hcontract] at hread
  rw [hcontract] at hdomain
  refine ⟨h.version, ?_, ?_, h.qtyShares, h.collateralCap, h.limitYesPrice,
    checkLimit_ok h.decodes hlimit⟩
  · rw [h.decodes.chainId, hdomain.1, hcfg.chainID]
  · exact contract_of_domain hread hdomain.2 hcfg.proxyAddress

/-- A leg that passed its gates has room in the contract's books. -/
theorem OrderOf.consumable (h : OrderOf row a x) {signature : Bytes} {env : Env}
    (hgrant : LegGranted c env s x signature record.fillShares record.executionYesPrice)
    (hholds : s.fills (authorizationHash c x) = ⟨row.sharesFilled, row.collateralFilled⟩)
    (hbooked : (s.fills (authorizationHash c x)).collateral ≤
      (s.fills (authorizationHash c x)).shares)
    (hprice : record.executionYesPrice < PrismV2.priceScale)
    (hyes : record.yesCollateral = yesCollateral record.fillShares record.executionYesPrice)
    (hno : record.noCollateral = noCollateral record.fillShares record.executionYesPrice)
    (hfill : record.fillShares < 2 ^ 64) (hleg : checkLeg p record now a row = .ok ()) :
    Consumable s x (authorizationHash c x) record.fillShares
      (fillCollateral x record.fillShares record.executionYesPrice) := by
  obtain ⟨_, _, hexact, hqty, hcap⟩ := checkLeg_ok hfill hleg
  have hle : fillCollateral x record.fillShares record.executionYesPrice ≤ record.fillShares := by
    rw [← legCollateralV2_decoded h.decodes]
    exact leg_le h.decodes hprice
  rw [hyes, hno, legCollateralV2_decoded h.decodes] at hcap
  rw [hholds] at hbooked
  dsimp only at hbooked
  constructor
  · exact hgrant.unbound
  · rw [hholds]
    dsimp only
    omega
  · rw [hholds]
    dsimp only
    omega
  · rw [hholds, h.decodes.qtyShares]
    exact hqty
  · intro hbuy
    have hbuyWord : a.action = Api.actionBuy := by
      rw [h.decodes.action, hbuy]
      rfl
    have hsum := hcap hbuyWord
    rw [add64_eq (by omega)] at hsum
    rw [hholds, h.decodes.collateralCap]
    exact hsum

end Leg

/-! ## The submission -/

/-- What the network is given decodes to the settlement of the two stored orders. -/
theorem calldata_decodes {p : Platform} (hkeccak : ∀ text, (p.keccak256 text).length = 32)
    (hsignatures : ∀ row signature, p.signatureMap row = .ok signature →
      signature.length < 2 ^ 32)
    {q : Prepared} {x y : Authorization} (hx : OrderOf q.bidRow q.bidAuth x)
    (hy : OrderOf q.askRow q.askAuth y) (hfill : q.record.fillShares < 2 ^ 64)
    (hprice : q.record.executionYesPrice < 2 ^ 64) (hid : q.matchID < 2 ^ 256)
    {calldata : Bytes} (h : q.calldata p = .ok calldata) :
    ∃ signatureA signatureB, decodeSettle p.keccak256 calldata =
      some (.settle x signatureA y signatureB q.record.fillShares q.record.executionYesPrice
        q.matchID) := by
  simp only [Prepared.calldata, bind_ok_iff, mapError_ok_iff] at h
  obtain ⟨sigA, hsigA, sigB, hsigB, hencode⟩ := h
  have hsizeA := hsignatures _ _ hsigA
  have hsizeB := hsignatures _ _ hsigB
  have htail {signature : Bytes} (hsize : signature.length < 2 ^ 32) :
      (encodeBytes signature).length < 2 ^ 33 := by
    rw [encodeBytes_eq (by omega), Abi.Component.tail, List.length_append, Abi.length_word,
      Abi.padded, List.length_append, List.length_replicate]
    omega
  let args : SettleArgs := ⟨q.bidAuth, sigA, q.askAuth, sigB, q.record.fillShares,
    q.record.executionYesPrice, q.matchID⟩
  have hvalid : args.Valid := by
    refine ⟨hx.valid, hy.valid, hx.deadline, hy.deadline, hfill, hprice, hid, ?_⟩
    have htailA := htail hsizeA
    have htailB := htail hsizeB
    show 4 + headWords * 32 + (encodeBytes sigA).length + (encodeBytes sigB).length < 2 ^ 63
    unfold headWords
    omega
  obtain ⟨data, call, hdata, hcall, hread⟩ := decodeSettle_calldata hkeccak hvalid
  have heq : data = calldata := by
    have hsame : args.calldata p.keccak256 = .ok calldata := hencode
    rw [hdata, Except.ok.injEq] at hsame
    exact hsame
  subst heq
  refine ⟨sigA, sigB, ?_⟩
  rw [hread, ← hcall, SettleArgs.call, hx.decoded, hy.decoded]
  rfl

theorem matchIDV2_lt {keccak256 : Bytes → Bytes} (hkeccak : ∀ text, (keccak256 text).length = 32)
    {verifyingContract : Str} {marketID bidTxID askTxID : Uint128}
    {bidBefore askBefore fill price : Nat} {id : Bytes32}
    (h : matchIDV2 keccak256 verifyingContract marketID bidTxID askTxID bidBefore askBefore fill
      price = .ok id) : id < 2 ^ 256 := by
  simp only [matchIDV2, bind_ok_iff, revertIf_ok_iff, exists_const, Except.ok.injEq] at h
  obtain ⟨_, rfl⟩ := h
  calc Abi.beNat (keccak256 _) < 256 ^ (keccak256 _).length := Abi.beNat_lt _
    _ = 2 ^ 256 := by rw [hkeccak]; norm_num

/-- The signers of two rows that are not a self-match differ. -/
theorem signer_ne {bidRow askRow : PredictionIntent} {a b : AuthorizationV2} {x y : Authorization}
    (hx : OrderOf bidRow a x) (hy : OrderOf askRow b y)
    (hself : eqIgnoreAsciiCase bidRow.evmaddress askRow.evmaddress ≠ true) :
    x.signer ≠ y.signer := by
  intro heq
  have hbid := hx.signer
  have hask := hy.signer
  rw [← heq] at hask
  have hlower := map_toLower_eq_of_hexNat (hx.address.1.trans hy.address.1.symm) hbid hask
  apply hself
  rw [eqIgnoreAsciiCase, beq_iff_eq]
  exact hlower

theorem checkRows_ok {p : Platform} {m : ClobMatch} {bidRow askRow : PredictionIntent}
    (h : checkRows p m bidRow askRow = .ok ()) :
    bidRow.marketID = askRow.marketID ∧
      eqIgnoreAsciiCase bidRow.evmaddress askRow.evmaddress ≠ true := by
  simp only [checkRows, checkRow, bind_ok_iff, revertIf_ok_iff, exists_const, not_not] at h
  obtain ⟨⟨_, hbid⟩, ⟨_, hask⟩, _, hself⟩ := h
  refine ⟨?_, hself⟩
  have hparse := p.uuid.parse_string bidRow.marketID
  rw [hbid, ← hask, p.uuid.parse_string, Except.ok.injEq] at hparse
  exact hparse.symm

/-- The prepared match behind a submission, with its two orders as the contract reads them. -/
structure SubmittedFill (p : Platform) (m : ClobMatch) (answers : Answers) (net : Str)
    (calldata : Bytes) (q : Prepared) (x y : Authorization) : Prop where
  bidRead : ∃ txId, ⟨.getPredictionIntentByTxId txId, .ok q.bidRow⟩ ∈ answers
  askRead : ∃ txId, ⟨.getPredictionIntentByTxId txId, .ok q.askRow⟩ ∈ answers
  network : ∃ name, p.getPrismV2Network name = .ok q.cfg ∧ q.cfg.net = net
  prepared : PreparedFor p m q.bidRow q.askRow q.cfg q
  rows : checkRows p m q.bidRow q.askRow = .ok ()
  bidLive : checkLive p q.bidRow = .ok ()
  askLive : checkLive p q.askRow = .ok ()
  bidLeg : ∃ now, checkLeg p q.record now q.bidAuth q.bidRow = .ok ()
  askLeg : ∃ now, checkLeg p q.record now q.askAuth q.askRow = .ok ()
  bid : OrderOf q.bidRow q.bidAuth x
  ask : OrderOf q.askRow q.askAuth y
  call : ∃ signatureA signatureB, decodeSettle p.keccak256 calldata =
    some (.settle x signatureA y signatureB m.fillShares m.executionYesPrice q.matchID)

theorem submittedFill {p : Platform} (hkeccak : ∀ text, (p.keccak256 text).length = 32)
    (hsignatures : ∀ row signature, p.signatureMap row = .ok signature →
      signature.length < 2 ^ 32)
    {m : ClobMatch} (hfill : m.fillShares < 2 ^ 64) {answers : Answers} {net contractID : Str}
    {calldata : Bytes} {rest}
    (hpath : (settleMatchV2 p m).Path answers (.call (.execute net contractID calldata) rest))
    (hstored : ∀ txId row, ⟨.getPredictionIntentByTxId txId, .ok row⟩ ∈ answers → Stored row) :
    ∃ q x y, SubmittedFill p m answers net calldata q x y := by
  obtain ⟨bid, ask, bidRow, askRow, now, q, _, _, hbidRead, haskRead, _, hnet, _, hsubmits⟩ :=
    settleMatchV2_execute hpath
  obtain ⟨bid', ask', cfg, market, hbid, hask, hcfg, hprepare⟩ := hsubmits.prepared
  have hq := prepare_ok hbid hask hprepare
  obtain ⟨x, hx⟩ := authorizationFromIntent_order (hstored _ _ hbidRead) hq.bidAuth
  obtain ⟨y, hy⟩ := authorizationFromIntent_order (hstored _ _ haskRead) hq.askAuth
  have hprice := (splitCollateralV2_ok hfill hq.split).2.2.1
  obtain ⟨_, _, _, _, hid⟩ := hq.matchID
  have hbidRow := hq.bidOrder
  have haskRow := hq.askOrder
  have hnetwork := hq.network
  subst hbidRow haskRow hnetwork
  have hfillWord : q.record.fillShares < 2 ^ 64 := by
    rw [hq.fillShares]
    exact hfill
  have hpriceWord : q.record.executionYesPrice < 2 ^ 64 := by
    rw [hq.executionYesPrice]
    exact hprice.trans (by decide)
  have hcall := calldata_decodes hkeccak hsignatures hx hy hfillWord hpriceWord
    (matchIDV2_lt hkeccak hid) hsubmits.calldata
  rw [hq.fillShares, hq.executionYesPrice] at hcall
  exact ⟨q, x, y, ⟨_, hbidRead⟩, ⟨_, haskRead⟩, ⟨_, hcfg, hnet.symm⟩, hq, hsubmits.rows,
    hsubmits.bidLive, hsubmits.askLive, ⟨now, hsubmits.bidLeg⟩, ⟨now, hsubmits.askLeg⟩,
      hx, hy, hcall⟩

/-- The submitted fill settles on books that hold what the rows hold. -/
theorem SubmittedFill.settles {c : Chain} {known : Set Authorization} (hc : c.HashSound known)
    {d : Deployment c} (hsupply : total d.ledger < 2 ^ 256) {txs : List Tx} {env : Env}
    (hwallets : OnlyWalletsSign c env) {p : Platform} {m : ClobMatch}
    (hfill : m.fillShares < 2 ^ 64) {answers : Answers} {net : Str} {calldata : Bytes}
    {q : Prepared} {x y : Authorization} (h : SubmittedFill p m answers net calldata q x y)
    (hx : x ∈ known) (hy : y ∈ known) (hnames : NamesDeployment c q.cfg) (hbid : RowHolds p.uuid c (run c d.state txs) q.bidRow)
    (hask : RowHolds p.uuid c (run c d.state txs) q.askRow) {signatureA signatureB : Bytes}
    (hgranted : FillGranted c env (run c d.state txs) x signatureA y signatureB m.fillShares
      m.executionYesPrice q.matchID) :
    ∃ s', settle c env x signatureA y signatureB m.fillShares m.executionYesPrice q.matchID
      (run c d.state txs) = .ok s' := by
  have hq := h.prepared
  obtain ⟨nowBid, hbidLeg⟩ := h.bidLeg
  obtain ⟨nowAsk, haskLeg⟩ := h.askLeg
  obtain ⟨hmarket, hself⟩ := checkRows_ok h.rows
  obtain ⟨hfillPos, hpricePos, hprice, hyes, hno, hyesPos, hnoPos⟩ :=
    splitCollateralV2_ok hfill hq.split
  have hfillWord : q.record.fillShares < 2 ^ 64 := by
    rw [hq.fillShares]
    exact hfill
  have hbidTerms := h.bid.terms hnames hq.bidDomain (checkLeg_ok hfillWord hbidLeg).1
  have haskTerms := h.ask.terms hnames hq.askDomain (checkLeg_ok hfillWord haskLeg).1
  have hbooked := run_collateral_le d txs
  rw [← hq.fillShares, ← hq.executionYesPrice] at hgranted hyes hno ⊢
  rw [← hq.executionYesPrice] at hprice hpricePos
  rw [← hq.fillShares] at hfillPos
  have hbidRoom := h.bid.consumable hgranted.legA (hbid _ _ hq.bidAuth h.bid.decoded) (hbooked _)
    hprice hyes hno hfillWord hbidLeg
  have haskRoom := h.ask.consumable hgranted.legB (hask _ _ hq.askAuth h.ask.decoded) (hbooked _)
    hprice hyes hno hfillWord haskLeg
  have hbidSide : x.isBid = true := by rw [← isBidV2_decoded h.bid.decodes, hq.bid]
  have haskSide : y.isBid = false := by rw [← isBidV2_decoded h.ask.decodes, hq.ask]
  have hsame : x.marketId = y.marketId := by rw [h.bid.marketId, h.ask.marketId, hmarket]
  rw [hyes] at hyesPos
  rw [hno] at hnoPos
  exact (hgranted.supported hwallets).settle_succeeds hc hx hy (run_sound d txs) hsupply hsame
    (signer_ne h.bid h.ask hself) hbidSide haskSide hbidTerms haskTerms hfillPos hpricePos hprice
    hyesPos hnoPos hbidRoom haskRoom

/-- The gates of a submission imply the contract's: on rows that hold the contract's fill state,
what reaches the network settles whenever the surroundings grant it. For any contents of a
message the division never panics and the subtraction never wraps; a sum of shares that wraps is
refused, and the sum of collateral behind it does not wrap. -/
theorem gates_imply_settle {c : Chain} {known : Set Authorization} (hc : c.HashSound known)
    (d : Deployment c) (hsupply : total d.ledger < 2 ^ 256) (txs : List Tx) {env : Env}
    (hwallets : OnlyWalletsSign c env) {p : Platform}
    (hkeccak : ∀ text, (p.keccak256 text).length = 32)
    (hsignatures : ∀ row signature, p.signatureMap row = .ok signature →
      signature.length < 2 ^ 32) :
    (∀ (m : ClobMatch) (answers : Answers) (net contractID : Str) (calldata : Bytes) rest,
      m.fillShares < 2 ^ 64 →
      (settleMatchV2 p m).Path answers (.call (.execute net contractID calldata) rest) →
      (∀ name cfg, p.getPrismV2Network name = .ok cfg → cfg.net = net → NamesDeployment c cfg) →
      (∀ txId row, ⟨.getPredictionIntentByTxId txId, .ok row⟩ ∈ answers →
        Stored row ∧ RowHolds p.uuid c (run c d.state txs) row ∧
          row.toOrderTerms.authorizations p.uuid ⊆ known) →
      ∃ call, decodeSettle p.keccak256 calldata = some call ∧
        (CallGranted c env (run c d.state txs) call →
          ∃ r, exec c ⟨env, call⟩ (run c d.state txs) = .ok r)) ∧
    (∀ fill price, fill < 2 ^ 64 → price < PrismV2.priceScale →
      div64 (mul64 fill price).1 (mul64 fill price).2 PrismV2.priceScale =
        some (yesCollateral fill price) ∧ yesCollateral fill price ≤ fill) ∧
    (∀ record now a row, record.fillShares < 2 ^ 64 →
      2 ^ 64 ≤ row.sharesFilled + record.fillShares → checkLeg p record now a row ≠ .ok ()) ∧
    ∀ (row : PredictionIntent) a x fill price,
      authorizationFromIntent p.uuid row.toOrderTerms = .ok a → a.decoded = some x →
      RowHolds p.uuid c (run c d.state txs) row → price < PrismV2.priceScale →
      row.sharesFilled + fill < 2 ^ 64 →
      row.collateralFilled + legCollateralV2 a.side (yesCollateral fill price)
        (noCollateral fill price) < 2 ^ 64 := by
  refine ⟨?_, ?_, ?_, ?_⟩
  · intro m answers net contractID calldata rest hfill hpath hnetwork hrows
    obtain ⟨q, x, y, hsubmitted⟩ := submittedFill hkeccak hsignatures hfill hpath
      fun txId row hread => (hrows txId row hread).1
    obtain ⟨_, hbidRead⟩ := hsubmitted.bidRead
    obtain ⟨_, haskRead⟩ := hsubmitted.askRead
    obtain ⟨name, hname, hnet⟩ := hsubmitted.network
    obtain ⟨signatureA, signatureB, hcall⟩ := hsubmitted.call
    obtain ⟨_, hbid, hbidKnown⟩ := hrows _ _ hbidRead
    obtain ⟨_, hask, haskKnown⟩ := hrows _ _ haskRead
    refine ⟨_, hcall, ?_⟩
    intro hgranted
    have hx : x ∈ known := hbidKnown ⟨_, hsubmitted.prepared.bidAuth, hsubmitted.bid.decoded⟩
    have hy : y ∈ known := haskKnown ⟨_, hsubmitted.prepared.askAuth, hsubmitted.ask.decoded⟩
    obtain ⟨s', hsettle⟩ := hsubmitted.settles hc hsupply hwallets hfill hx hy
      (hnetwork name q.cfg hname hnet) hbid hask hgranted
    refine ⟨(s', none), ?_⟩
    simp only [exec, hsettle]
    rfl
  · intro fill price hfill hprice
    exact ⟨div64_mul64 hfill hprice, yesCollateral_le fill hprice⟩
  · intro record now a row hfill hwrap hleg
    have hexact := (checkLeg_ok hfill hleg).2.2.1
    omega
  · intro row a x fill price ha hx hholds hprice hexact
    have hbooked := run_collateral_le d txs (authorizationHash c x)
    have hle : legCollateralV2 a.side (yesCollateral fill price) (noCollateral fill price) ≤ fill :=
      leg_le (decodes_of_decoded hx) hprice
    rw [hholds a x ha hx] at hbooked
    dsimp only at hbooked
    omega

/-! ## A sample match -/

def sampleProxy : Str := "000000000000000000000000000000000000000a".toList

/-- Hashes to one value, with the selector of `settle`. -/
def samplePlatform : Platform where
  uuid := sampleUuid
  keccak256 := keccakSample
  getPrismV2Network := fun net => .ok ⟨net, "0.0.5001".toList, sampleProxy, 296⟩
  collateralUnitScale := .ok 1000000
  signatureMap := fun _ => .ok [1, 2, 3]
  jetStream := sampleStream

def sampleMarketID : Uint128 := 7

def sampleIntent (txID : Uint128) (evmaddress : Str) (side action sharesFilled : Nat) :
    PredictionIntent where
  txID
  net := "testnet".toList
  marketID := sampleMarketID
  accountID := "0.0.1001".toList
  sig := "c2ln".toList
  publicKeyHex := []
  evmaddress
  keytype := 1
  protocolVersion := 2
  chainID := some 296
  verifyingContract := some sampleProxy
  side := some side
  action := some action
  limitYesPrice := some 500000
  qtyShares := some 101
  collateralCap := some 101
  deadline := some 50
  sharesFilled
  collateralFilled := 0
  qtyRem := 101 - sharesFilled
  cancelledAt := false
  fullyMatchedAt := false
  evictedAt := false

def sampleBid (sharesFilled : Nat) : PredictionIntent :=
  sampleIntent 1 "0000000000000000000000000000000000000005".toList 0 0 sharesFilled

def sampleAsk : PredictionIntent :=
  sampleIntent 2 "0000000000000000000000000000000000000006".toList 1 0 0

def sampleClobOrder (txId : Uint128) : CreateOrderRequestClob where
  txId := uuidText txId
  net := []
  marketId := uuidText sampleMarketID
  accountId := []
  sig := []
  publicKey := []
  evmAddress := []
  keyType := 0
  chainId := 0
  verifyingContract := []
  side := 0
  action := 0
  limitYesPrice := 0
  qtyShares := 0
  collateralCap := 0
  deadline := 0
  sharesFilled := 0
  collateralFilled := 0

def sampleMatch (fillShares yesCollateral noCollateral : Nat) : ClobMatch where
  marketId := uuidText sampleMarketID
  bid := some (sampleClobOrder 1)
  ask := some (sampleClobOrder 2)
  fillShares
  executionYesPrice := 500000
  yesCollateral
  noCollateral

def sampleMarketRow : MarketRow :=
  ⟨sampleMarketID, "0.0.5001".toList, 100, false, false, false, false⟩

/-- A fill near the largest word passes every check before the gates of the legs, and its sum
with the shares of the bid wraps in the quantity gate. -/
theorem gates_wrap :
    ∃ q, checkRows samplePlatform (sampleMatch (2 ^ 64 - 1) (2 ^ 63 - 1) (2 ^ 63)) (sampleBid 1)
        sampleAsk = .ok () ∧
      prepare samplePlatform (sampleMatch (2 ^ 64 - 1) (2 ^ 63 - 1) (2 ^ 63)) (sampleClobOrder 1)
        (sampleClobOrder 2) (sampleBid 1) sampleAsk ⟨"testnet".toList, "0.0.5001".toList,
          sampleProxy, 296⟩
        sampleMarketRow = .ok q ∧
      checkLive samplePlatform q.bidRow = .ok () ∧ checkLive samplePlatform q.askRow = .ok () ∧
      add64 q.bidRow.sharesFilled q.record.fillShares = 0 ∧
      q.bidRow.sharesFilled + q.record.fillShares = 2 ^ 64 := by
  have hchecked : (prepare samplePlatform (sampleMatch (2 ^ 64 - 1) (2 ^ 63 - 1) (2 ^ 63))
      (sampleClobOrder 1) (sampleClobOrder 2) (sampleBid 1) sampleAsk
      ⟨"testnet".toList, "0.0.5001".toList, sampleProxy, 296⟩ sampleMarketRow).toOption.isSome =
        true := by
    decide +kernel
  obtain ⟨q, hq⟩ := exists_ok hchecked
  have hprepared := prepare_ok rfl rfl hq
  have hrows : (checkRows samplePlatform (sampleMatch (2 ^ 64 - 1) (2 ^ 63 - 1) (2 ^ 63))
      (sampleBid 1) sampleAsk).toOption.isSome = true := by
    decide +kernel
  obtain ⟨_, hrows⟩ := exists_ok hrows
  refine ⟨q, hrows, hq, ?_, ?_, ?_, ?_⟩
  · rw [hprepared.bidOrder]
    rfl
  · rw [hprepared.askOrder]
    rfl
  · rw [hprepared.bidOrder, hprepared.fillShares]
    rfl
  · rw [hprepared.bidOrder, hprepared.fillShares]
    rfl

def sampleAnswer : (r : SettlementRequest) → r.Answer
  | .getPredictionIntentByTxId txId =>
    .ok (if txId = uuidText 1 then sampleBid 0 else sampleAsk)
  | .getMarketById _ => .ok sampleMarketRow
  | .createMatchV2 record => .ok record.row
  | .isMatchExecutedV2 _ _ _ => .ok false
  | .markMatchFailed _ _ => .ok ()
  | .now => 20
  | .execute _ _ _ => .error "busy"
  | .markMatchSubmitted _ _ => .ok ()
  | .getReceipt _ => .error "lost"
  | .finalizeMatchV2 _ _ => .ok true

def sampleFill : ClobMatch := sampleMatch 101 50 51

def isExecute : SettlementRequest → Bool
  | .execute _ _ _ => true
  | _ => false

theorem sampleFill_executes : ∃ net contractID calldata rest,
    (settleMatchV2 samplePlatform sampleFill).after sampleAnswer 6 =
      .call (.execute net contractID calldata) rest := by
  have hasks : ((settleMatchV2 samplePlatform sampleFill).after sampleAnswer 6).asks.any
      isExecute = true := by
    decide +kernel
  obtain ⟨r, hr, hexecute⟩ := (Option.any_eq_true _ _).mp hasks
  cases r with
  | execute net contractID calldata =>
      obtain ⟨rest, hrest⟩ := Program.exists_call hr
      exact ⟨net, contractID, calldata, rest, hrest⟩
  | _ => exact absurd hexecute (by simp [isExecute])

def sampleWallets : Env :=
  { sampleEnv 2 20 with
    isAuthorized := fun account _ _ => (hederaSuccess, !(account == 0 || account == 10)) }

def sampleOpened : List Tx := [⟨sampleEnv 1 10, .createMarket 7 [65] 100⟩]

abbrev sampleOpenState : State :=
  run encodingChain (sampleDeployment encodingChain encodingChain_self).state sampleOpened

theorem sampleRow_order {row : PredictionIntent} (hrow : row = sampleBid 0 ∨ row = sampleAsk)
    {a : AuthorizationV2} {x : Authorization}
    (ha : authorizationFromIntent sampleUuid row.toOrderTerms = .ok a) (hx : a.decoded = some x) :
    x = if row.side = some 0 then sampleOrder 5 1 .yes .buy else sampleOrder 6 2 .no .buy := by
  have hread : (authorizationFromIntent sampleUuid row.toOrderTerms).toOption.bind
      AuthorizationV2.decoded = some x := by
    rw [ha]
    exact hx
  rcases hrow with rfl | rfl
  · have hsample : (authorizationFromIntent sampleUuid (sampleBid 0).toOrderTerms).toOption.bind
        AuthorizationV2.decoded = some (sampleOrder 5 1 .yes .buy) := by
      decide +kernel
    exact Option.some.inj (hread.symm.trans hsample)
  · have hsample : (authorizationFromIntent sampleUuid sampleAsk.toOrderTerms).toOption.bind
        AuthorizationV2.decoded = some (sampleOrder 6 2 .no .buy) := by
      decide +kernel
    exact Option.some.inj (hread.symm.trans hsample)

theorem sampleRow_stored {row : PredictionIntent} (hrow : row = sampleBid 0 ∨ row = sampleAsk) :
    Stored row := by
  rcases hrow with rfl | rfl
  all_goals
    refine ⟨by decide, ?_⟩
    intro deadline hdeadline
    cases hdeadline
    decide

theorem sampleLeg_granted {x : Authorization} {signature : Bytes}
    (hx : x = sampleOrder 5 1 .yes .buy ∨ x = sampleOrder 6 2 .no .buy) :
    LegGranted encodingChain sampleWallets sampleOpenState x signature 101 500000 := by
  rcases hx with rfl | rfl
  all_goals
    refine ⟨by decide, rfl, Or.inl rfl, rfl, ?_, ?_⟩
    · intro _
      decide
    · intro hsell
      exact absurd hsell (by decide)

theorem sampleFill_read {txId : Str} {row : PredictionIntent}
    (h : ⟨.getPredictionIntentByTxId txId, .ok row⟩ ∈
      (settleMatchV2 samplePlatform sampleFill).log sampleAnswer 6) :
    row = sampleBid 0 ∨ row = sampleAsk := by
  have hanswer := Program.mem_log h
  simp only [sampleAnswer, Except.ok.injEq] at hanswer
  rw [hanswer]
  split
  · exact Or.inl rfl
  · exact Or.inr rfl

theorem sampleWallets_only : OnlyWalletsSign encodingChain sampleWallets := by
  intro account message signature haccount
  have hno : (hederaSuccess, false) ≠ (hederaSuccess, true) := by decide
  rcases haccount with rfl | rfl
  · exact hno
  · exact hno

theorem sampleProxy_bytes : addressBytes sampleProxy = some 10 := by decide +kernel

theorem sampleNetwork_names {name : Str} {cfg : PrismV2Network}
    (h : samplePlatform.getPrismV2Network name = .ok cfg) : NamesDeployment encodingChain cfg := by
  cases h
  exact ⟨rfl, sampleProxy_bytes⟩

theorem sampleSignatures (row : OrderTerms) (signature : Bytes)
    (h : samplePlatform.signatureMap row = .ok signature) : signature.length < 2 ^ 32 := by
  cases h
  decide

theorem keccakSample_ne_zero (bytes : Bytes) : Abi.beNat (keccakSample bytes) ≠ 0 := by
  unfold keccakSample
  decide +kernel

theorem gates_imply_settle_sample :
    ∃ answers net contractID calldata rest call r,
      (settleMatchV2 samplePlatform sampleFill).Path answers
        (.call (.execute net contractID calldata) rest) ∧
      decodeSettle keccakSample calldata = some call ∧
      exec encodingChain ⟨sampleWallets, call⟩ sampleOpenState = .ok r := by
  obtain ⟨net, contractID, calldata, rest, hafter⟩ := sampleFill_executes
  have hpath := Program.path_after sampleAnswer 6 (settleMatchV2 samplePlatform sampleFill)
  rw [hafter] at hpath
  have hsupply : total (sampleDeployment encodingChain rfl).ledger < 2 ^ 256 :=
    (sampleDeployment_supply encodingChain rfl).trans (by decide)
  obtain ⟨call, hcall, hexec⟩ := (gates_imply_settle (encodingChain_hashSound Set.univ)
    (sampleDeployment encodingChain rfl) hsupply sampleOpened sampleWallets_only (fun _ => rfl)
    sampleSignatures).1 sampleFill _ net contractID calldata rest (by decide) hpath
    (fun name cfg hcfg _ => sampleNetwork_names hcfg)
    (fun txId row hread => ⟨sampleRow_stored (sampleFill_read hread), by
      intro a x _ _
      rcases sampleFill_read hread with rfl | rfl
      · rfl
      · rfl, Set.subset_univ _⟩)
  obtain ⟨q, x, y, hsubmitted⟩ := submittedFill (fun _ => rfl) sampleSignatures (by decide) hpath
    fun txId row hread => sampleRow_stored (sampleFill_read hread)
  obtain ⟨signatureA, signatureB, hsettle⟩ := hsubmitted.call
  obtain ⟨_, hbidRead⟩ := hsubmitted.bidRead
  obtain ⟨_, haskRead⟩ := hsubmitted.askRead
  have hx := sampleRow_order (sampleFill_read hbidRead) hsubmitted.prepared.bidAuth
    hsubmitted.bid.decoded
  have hy := sampleRow_order (sampleFill_read haskRead) hsubmitted.prepared.askAuth
    hsubmitted.ask.decoded
  have horder {row : PredictionIntent} {z : Authorization}
      (hz : z = if row.side = some 0 then sampleOrder 5 1 .yes .buy else sampleOrder 6 2 .no .buy) :
      z = sampleOrder 5 1 .yes .buy ∨ z = sampleOrder 6 2 .no .buy := by
    rw [hz]
    split
    · exact Or.inl rfl
    · exact Or.inr rfl
  have hsame : call = .settle x signatureA y signatureB sampleFill.fillShares
      sampleFill.executionYesPrice q.matchID := Option.some.inj (hcall.symm.trans hsettle)
  have hmarket : x.marketId = 7 := by
    rcases horder hx with rfl | rfl
    · rfl
    · rfl
  obtain ⟨r, hr⟩ := hexec (by
    rw [hsame]
    refine ⟨rfl, ?_, ?_, fun _ _ _ _ _ => rfl, ?_, rfl, sampleLeg_granted (horder hx),
      sampleLeg_granted (horder hy)⟩
    · rw [hmarket]
      rfl
    · rw [hmarket]
      decide
    · obtain ⟨_, _, _, _, hid⟩ := hsubmitted.prepared.matchID
      simp only [matchIDV2, bind_ok_iff, revertIf_ok_iff, exists_const, Except.ok.injEq] at hid
      rw [← hid.2]
      exact keccakSample_ne_zero [])
  exact ⟨_, net, contractID, calldata, rest, call, r, hpath, hcall, hr⟩

end PrismBackend.Api
