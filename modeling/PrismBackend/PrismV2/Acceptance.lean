import PrismBackend.PrismV2.Consent
import PrismBackend.PrismV2.Redemption

/-!
# PrismV2: when a settlement succeeds

The checks of `settle` that its caller cannot know to hold from the orders alone,
and why the others follow from the books.
-/

namespace PrismBackend.PrismV2

open PrismBackend.Lib

/-! ## Conditions -/

/-- A BUY buys exposure to YES or sells exposure to NO: the direction of an order. -/
def Authorization.isBid (x : Authorization) : Bool :=
  (x.side == .yes && x.action == .buy) || (x.side == .no && x.action == .sell)

/-- What an order promises by itself at a price. -/
structure Terms (c : Chain) (x : Authorization) (price : Nat) : Prop where
  version : x.version = authorizationVersion
  chainId : x.chainId = c.chainId
  verifyingContract : x.verifyingContract = c.self
  qtyShares : x.qtyShares ≠ 0
  collateralCap : x.action = .buy → x.collateralCap ≠ 0
  limitYesPrice : x.limitYesPrice ≤ priceScale
  limit : ¬limitViolated x price

/-- What the signer of an order grants: a live signature, and a wallet that holds what the
fill takes. -/
structure Granted (c : Chain) (env : Env) (s : State) (x : Authorization) (signature : Bytes)
    (shares price : Nat) : Prop where
  deadline : env.timestamp ≤ x.deadline
  notCanceled : s.canceled x.signer x.txId = false
  signed : env.isAuthorized x.signer (authorizationMessage c x) signature = (hederaSuccess, true)
  signer_ne_zero : x.signer ≠ 0
  signer_ne_self : x.signer ≠ c.self
  paid : x.action = .buy → fillCollateral x shares price ≤ s.collateral x.signer
  held : x.action = .sell → shares ≤ s.position x.side x.marketId x.signer

/-- What the surroundings of a settlement grant. -/
structure Supported (c : Chain) (env : Env) (s : State) (a : Authorization) (signatureA : Bytes)
    (b : Authorization) (signatureB : Bytes) (shares price : Nat) (matchId : Bytes32) : Prop where
  operator : env.sender = s.operator
  isOpen : (s.markets a.marketId).state = .open
  beforeClose : env.timestamp < (s.markets a.marketId).closeTime
  accepts : env.acceptsHeld
  matchId_ne_zero : matchId ≠ 0
  unused : s.executedMatches matchId = false
  grantA : Granted c env s a signatureA shares price
  grantB : Granted c env s b signatureB shares price

theorem Terms.valid {c : Chain} {env : Env} {s : State} {x : Authorization} {signature : Bytes}
    {shares price : Nat} (h : Terms c x price) (hgrant : Granted c env s x signature shares price) :
    Valid c env s x signature price :=
  ⟨h.version, h.chainId, h.verifyingContract, hgrant.signer_ne_zero, h.qtyShares,
    h.collateralCap, hgrant.deadline, h.limitYesPrice, hgrant.notCanceled, h.limit, hgrant.signed⟩

/-- Booking one order leaves the room of another signer's order as it was. -/
theorem Consumable.after {c : Chain} {known : Set Authorization} (hc : c.HashSound known)
    {s : State} {a b : Authorization} (ha : a ∈ known) (hb : b ∈ known)
    {shares collateral collateral' : Nat} (hsigners : a.signer ≠ b.signer)
    (h : Consumable s b (authorizationHash c b) shares collateral) :
    Consumable (s.consumed a (authorizationHash c a) shares collateral') b
      (authorizationHash c b) shares collateral := by
  have hhash : authorizationHash c b ≠ authorizationHash c a := by
    apply hc.injOn.ne hb ha
    intro heq
    exact hsigners (congrArg Authorization.signer heq).symm
  have hfills : (s.consumed a (authorizationHash c a) shares collateral').fills
      (authorizationHash c b) = s.fills (authorizationHash c b) :=
    Function.update_of_ne hhash _ _
  have hnonce : (s.consumed a (authorizationHash c a) shares collateral').authorizationByNonce
      b.signer b.txId = s.authorizationByNonce b.signer b.txId := by
    show update₂ s.authorizationByNonce a.signer a.txId _ b.signer b.txId = _
    rw [update₂_of_ne _ (Ne.symm hsigners)]
  constructor
  · rw [hnonce]
    exact h.nonce
  · rw [hfills]
    exact h.sharesFit
  · rw [hfills]
    exact h.collateralFit
  · rw [hfills]
    exact h.shares
  · rw [hfills]
    exact h.collateral

/-! ## Pairings from the books -/

section Books

variable {c : Chain} {d : Deployment c} {s : State} {env : Env}

/-- In an open market both totals are the reserve, which the contract holds in collateral. -/
theorem Sound.open_market (h : Sound c d s) {marketId : Uint128}
    (hopen : (s.markets marketId).state = .open) :
    (s.markets marketId).reserve = (s.markets marketId).totalYes ∧
      (s.markets marketId).reserve = (s.markets marketId).totalNo ∧
      (s.markets marketId).reserve ≤ s.aggregateReserved ∧
      s.aggregateReserved ≤ s.collateral c.self := by
  have hlive : (s.view marketId).market.state.isLive = true := by
    show (s.markets marketId).state.isLive = true
    rw [hopen]
    rfl
  have hbacked := (backed_live _ hlive).mp (h.solvent.market marketId).backed
  obtain ⟨hreserve, hheld, _⟩ := reserve_le h.solvent marketId
  exact ⟨hbacked.1, hbacked.2, hreserve, hheld⟩

/-- A position is covered by the reserve of its open market. -/
theorem Sound.position_le (h : Sound c d s) {marketId : Uint128}
    (hopen : (s.markets marketId).state = .open) (side : Side) (account : Address) :
    s.position side marketId account ≤ (s.markets marketId).reserve := by
  obtain ⟨hyes, hno, _, _⟩ := h.open_market hopen
  cases side with
  | yes =>
      rw [hyes]
      exact (h.solvent.market marketId).yes_le account
  | no =>
      rw [hno]
      exact (h.solvent.market marketId).no_le account

theorem Sound.mintable (h : Sound c d s) (hsupply : total d.ledger < 2 ^ 256)
    (haccepts : env.acceptsHeld) {marketId : Uint128} {yesSigner noSigner : Address}
    {shares yesLeg noLeg : Nat} (hopen : (s.markets marketId).state = .open)
    (hlegs : yesLeg + noLeg = shares) (hsigners : yesSigner ≠ noSigner)
    (hyesSelf : yesSigner ≠ c.self) (hnoSelf : noSigner ≠ c.self)
    (hyes : yesLeg ≤ s.collateral yesSigner) (hno : noLeg ≤ s.collateral noSigner) :
    Mintable c env s marketId yesSigner noSigner shares yesLeg noLeg := by
  obtain ⟨htotalYes, htotalNo, hreserve, hheld⟩ := h.open_market hopen
  have hyesHeld : s.yesBalance marketId yesSigner ≤ _ := h.position_le hopen .yes yesSigner
  have hnoHeld : s.noBalance marketId noSigner ≤ _ := h.position_le hopen .no noSigner
  -- what the contract holds after both legs is still part of the supply
  have hself := move_target s.collateral hyesSelf yesLeg
  have hother := move_other s.collateral (Ne.symm hsigners) hnoSelf yesLeg
  have htotal := total_move (t := c.self) s.collateral hyes
  have hpair := add_le_total (move s.collateral yesSigner c.self yesLeg) (Ne.symm hnoSelf)
  have hledger := h.supply
  have hnoMoved : noLeg ≤ move s.collateral yesSigner c.self yesLeg noSigner := by omega
  constructor
  · omega
  · omega
  · omega
  · omega
  · omega
  · omega
  · exact hyes
  · exact haccepts _ _ _ _ hyes
  · omega
  · exact Or.inl hyesSelf
  · exact hnoMoved
  · exact haccepts _ _ _ _ hnoMoved
  · omega
  · exact Or.inl hnoSelf

theorem Sound.mergeable (h : Sound c d s) (hsupply : total d.ledger < 2 ^ 256)
    (haccepts : env.acceptsHeld) {marketId : Uint128} {yesSigner noSigner : Address}
    {shares yesLeg noLeg : Nat} (hopen : (s.markets marketId).state = .open)
    (hlegs : yesLeg + noLeg = shares) (hyesSelf : yesSigner ≠ c.self) (hnoSelf : noSigner ≠ c.self)
    (hyes : shares ≤ s.position .yes marketId yesSigner)
    (hno : shares ≤ s.position .no marketId noSigner) :
    Mergeable c env s marketId yesSigner noSigner shares yesLeg noLeg := by
  obtain ⟨htotalYes, htotalNo, hreserve, hheld⟩ := h.open_market hopen
  have hyesHeld := h.position_le hopen .yes yesSigner
  have hself := move_source s.collateral (Ne.symm hyesSelf) yesLeg
  have hbound := le_total s.collateral c.self
  have hledger := h.supply
  have hyesFunded : yesLeg ≤ s.collateral c.self := by omega
  have hnoFunded : noLeg ≤ move s.collateral c.self yesSigner yesLeg c.self := by omega
  constructor
  · exact hyes
  · exact hno
  · omega
  · omega
  · omega
  · omega
  · exact hyesFunded
  · exact haccepts _ _ _ _ hyesFunded
  · omega
  · exact Or.inl (Ne.symm hyesSelf)
  · exact hnoFunded
  · exact haccepts _ _ _ _ hnoFunded
  · omega
  · exact Or.inl (Ne.symm hnoSelf)

theorem Sound.transferable (h : Sound c d s) (hsupply : total d.ledger < 2 ^ 256)
    (haccepts : env.acceptsHeld) {marketId : Uint128} {side : Side}
    {sellSigner buySigner : Address} {shares leg : Nat}
    (hopen : (s.markets marketId).state = .open) (hsigners : buySigner ≠ sellSigner)
    (hsell : shares ≤ s.position side marketId sellSigner)
    (hbuy : leg ≤ s.collateral buySigner) :
    Transferable env s side marketId sellSigner buySigner shares leg := by
  obtain ⟨_, _, hreserve, hheld⟩ := h.open_market hopen
  have hbound := le_total s.collateral c.self
  have hpair := add_le_total s.collateral hsigners
  have hledger := h.supply
  have hsellHeld := h.position_le hopen side sellSigner
  have htotal : s.position side marketId buySigner + s.position side marketId sellSigner ≤
      (s.markets marketId).reserve := by
    obtain ⟨hyes, hno, _, _⟩ := h.open_market hopen
    have hview := h.solvent.market marketId
    cases side with
    | yes =>
        rw [hyes, show (s.markets marketId).totalYes = _ from hview.totalYes]
        exact add_le_total _ hsigners
    | no =>
        rw [hno, show (s.markets marketId).totalNo = _ from hview.totalNo]
        exact add_le_total _ hsigners
  constructor
  · exact hsell
  · have hmoved : update₂ (s.position side) marketId sellSigner
        (s.position side marketId sellSigner - shares) marketId buySigner =
        s.position side marketId buySigner := by
      rw [update₂_apply, if_neg]
      intro heq
      exact hsigners heq.2
    rw [hmoved]
    omega
  · exact hbuy
  · exact haccepts _ _ _ _ hbuy
  · omega
  · exact Or.inl hsigners

end Books

/-! ## A settlement of opposite orders -/

theorem isBid_true {x : Authorization} (h : x.isBid = true) :
    (x.side = .yes ∧ x.action = .buy) ∨ (x.side = .no ∧ x.action = .sell) := by
  simpa [Authorization.isBid] using h

theorem isBid_false {x : Authorization} (h : x.isBid = false) :
    (x.side = .yes ∧ x.action = .sell) ∨ (x.side = .no ∧ x.action = .buy) := by
  unfold Authorization.isBid at h
  cases hside : x.side <;> cases haction : x.action <;> simp_all

section Pairing

variable {c : Chain} {d : Deployment c} {s : State} {env : Env} {a b : Authorization}
  {shares price : Nat} {signatureA signatureB : Bytes} {matchId : Bytes32}

/-- A bid and an ask always pair, and the pairing leaves the contract solvent. -/
theorem Supported.exists_pairing
    (hsup : Supported c env s a signatureA b signatureB shares price matchId)
    (h : Sound c d s) (hsupply : total d.ledger < 2 ^ 256) (hmarket : a.marketId = b.marketId)
    (hsigners : a.signer ≠ b.signer) (hbid : a.isBid = true) (hask : b.isBid = false)
    (hprice : price < priceScale) :
    ∃ s₁, PairingEffect c env a b shares (yesCollateral shares price) (noCollateral shares price)
        (s.booked c a b shares price matchId) s₁ ∧
      s₁.aggregateReserved ≤ s₁.collateral c.self := by
  have hlegs := yesCollateral_add_noCollateral shares hprice
  obtain ⟨_, _, hreserve, hheld⟩ := h.open_market hsup.isOpen
  have hselfA := hsup.grantA.signer_ne_self
  have hselfB := hsup.grantB.signer_ne_self
  have hpaidA := hsup.grantA.paid
  have hpaidB := hsup.grantB.paid
  have hheldA := hsup.grantA.held
  have hheldB := hsup.grantB.held
  rw [← hmarket] at hheldB
  unfold fillCollateral at hpaidA hpaidB
  rcases isBid_true hbid with ⟨hsideA, hactionA⟩ | ⟨hsideA, hactionA⟩
  all_goals rcases isBid_false hask with ⟨hsideB, hactionB⟩ | ⟨hsideB, hactionB⟩
  · -- a buyer of YES meets a seller of YES
    have hleg := hpaidA hactionA
    have hsell := hheldB hactionB
    rw [hsideB] at hsell
    rw [hsideA] at hleg
    have hguard := h.transferable hsupply hsup.accepts hsup.isOpen hsigners hsell hleg
    have hseller : seller a b = b := by simp [seller, hactionA]
    have hbuyer : buyer a b = a := by simp [buyer, hactionA]
    refine ⟨_, .transfer (by simp [hactionA, hactionB]) (by simp [hsideA, hsideB]) ?_, ?_⟩
    · rw [hseller, hbuyer, hsideA]
      obtain ⟨h1, h2, h3, h4, h5, h6⟩ := hguard
      exact ⟨h1, h2, h3, h4, h5, h6⟩
    · rw [transferred_aggregate, hseller, hbuyer]
      show s.aggregateReserved ≤ move s.collateral a.signer b.signer _ c.self
      rw [move_other _ (Ne.symm hselfA) (Ne.symm hselfB)]
      exact hheld
  · -- a buyer of YES and a buyer of NO: complete sets are minted
    have hyes := hpaidA hactionA
    have hno := hpaidB hactionB
    rw [hsideA] at hyes
    rw [hsideB] at hno
    have hguard := h.mintable hsupply hsup.accepts hsup.isOpen hlegs hsigners hselfA hselfB hyes hno
    have hyesOrder : yesOrder a b = a := by simp [yesOrder, hsideA]
    have hnoOrder : noOrder a b = b := by simp [noOrder, hsideA]
    refine ⟨_, .mint ⟨hactionA, hactionB⟩ (by simp [hsideA, hsideB]) ?_, ?_⟩
    · rw [hyesOrder, hnoOrder]
      obtain ⟨h1, h2, h3, h4, h5, h6, h7, h8, h9, h10, h11, h12, h13, h14⟩ := hguard
      exact ⟨h1, h2, h3, h4, h5, h6, h7, h8, h9, h10, h11, h12, h13, h14⟩
    · rw [hyesOrder, hnoOrder]
      show s.aggregateReserved + shares ≤
        move (move s.collateral a.signer c.self _) b.signer c.self _ c.self
      rw [move_target _ hselfB, move_target _ hselfA]
      omega
  · -- a seller of NO and a seller of YES: complete sets are merged
    have hyes := hheldB hactionB
    have hno := hheldA hactionA
    rw [hsideB] at hyes
    rw [hsideA] at hno
    have hguard := h.mergeable hsupply hsup.accepts hsup.isOpen hlegs hselfB hselfA hyes hno
    have hyesOrder : yesOrder a b = b := by simp [yesOrder, hsideA]
    have hnoOrder : noOrder a b = a := by simp [noOrder, hsideA]
    have haggregate := hguard.aggregate
    refine ⟨_, .merge ⟨hactionA, hactionB⟩ (by simp [hsideA, hsideB]) ?_, ?_⟩
    · rw [hyesOrder, hnoOrder]
      obtain ⟨h1, h2, h3, h4, h5, h6, h7, h8, h9, h10, h11, h12, h13, h14⟩ := hguard
      exact ⟨h1, h2, h3, h4, h5, h6, h7, h8, h9, h10, h11, h12, h13, h14⟩
    · rw [hyesOrder, hnoOrder]
      show s.aggregateReserved - shares ≤
        move (move s.collateral c.self b.signer _) c.self a.signer _ c.self
      rw [move_source _ (Ne.symm hselfA), move_source _ (Ne.symm hselfB)]
      omega
  · -- a seller of NO meets a buyer of NO
    have hleg := hpaidB hactionB
    have hsell := hheldA hactionA
    rw [hsideA] at hsell
    rw [hsideB] at hleg
    have hguard := h.transferable hsupply hsup.accepts hsup.isOpen (Ne.symm hsigners) hsell hleg
    have hseller : seller a b = a := by simp [seller, hactionA]
    have hbuyer : buyer a b = b := by simp [buyer, hactionA]
    refine ⟨_, .transfer (by simp [hactionA, hactionB]) (by simp [hsideA, hsideB]) ?_, ?_⟩
    · rw [hseller, hbuyer, hsideA]
      obtain ⟨h1, h2, h3, h4, h5, h6⟩ := hguard
      exact ⟨h1, h2, h3, h4, h5, h6⟩
    · rw [transferred_aggregate, hseller, hbuyer]
      show s.aggregateReserved ≤ move s.collateral b.signer a.signer _ c.self
      rw [move_other _ (Ne.symm hselfB) (Ne.symm hselfA)]
      exact hheld

/-- A fill of a bid and an ask with room for it settles whenever the surroundings support it. -/
theorem Supported.settle_succeeds
    (hsup : Supported c env s a signatureA b signatureB shares price matchId)
    {known : Set Authorization} (hc : c.HashSound known) (ha : a ∈ known) (hb : b ∈ known)
    (h : Sound c d s) (hsupply : total d.ledger < 2 ^ 256) (hmarket : a.marketId = b.marketId)
    (hsigners : a.signer ≠ b.signer) (hbid : a.isBid = true) (hask : b.isBid = false)
    (htermsA : Terms c a price) (htermsB : Terms c b price) (hshares : shares ≠ 0)
    (hpos : price ≠ 0) (hprice : price < priceScale) (hyes : yesCollateral shares price ≠ 0)
    (hno : noCollateral shares price ≠ 0)
    (hroomA : Consumable s a (authorizationHash c a) shares (fillCollateral a shares price))
    (hroomB : Consumable s b (authorizationHash c b) shares (fillCollateral b shares price)) :
    ∃ s', settle c env a signatureA b signatureB shares price matchId s = .ok s' := by
  have hfits : yesCollateral shares price < 2 ^ 256 := by
    have hle := yesCollateral_le shares hprice
    have hwidth := hroomA.sharesFit
    omega
  have hadmitted : Admitted c env s a signatureA b signatureB shares price matchId :=
    ⟨hsup.operator, h.configured.entered, hsup.matchId_ne_zero, hsup.unused, hmarket, hsigners,
      hsup.isOpen, hsup.beforeClose, hshares, hpos, hprice, htermsA.valid hsup.grantA,
      htermsB.valid hsup.grantB, hfits, hyes, hno, hroomA, hroomB.after hc ha hb hsigners⟩
  obtain ⟨s₁, hpair, hsolvent⟩ :=
    hsup.exists_pairing h hsupply hmarket hsigners hbid hask hprice
  exact ⟨nonReentrantAfter s₁,
    (settle_ok_iff c env a signatureA b signatureB shares price matchId s _).mpr
      ⟨hadmitted, s₁, hpair, hsolvent, rfl⟩⟩

end Pairing

/-! ## Calls that leave an order alone -/

def Call.usesNonce (signer : Address) (txId : Uint128) : Call → Prop
  | .settle a _ b _ _ _ _ =>
    (signer = a.signer ∧ txId = a.txId) ∨ (signer = b.signer ∧ txId = b.txId)
  | _ => False

theorem Books.untouched {c : Chain} {known : Set Authorization} (hc : c.HashSound known)
    {env : Env} {s s' : State} {call : Call} (hcall : call.Within known)
    (h : Books c env s s' call) {x : Authorization} (hx : x ∈ known) (huse : ¬call.usesNonce x.signer x.txId) :
    s'.fills (authorizationHash c x) = s.fills (authorizationHash c x) ∧
      s'.authorizationByNonce x.signer x.txId = s.authorizationByNonce x.signer x.txId := by
  cases h with
  | other _ _ hfills hnonces => exact ⟨by rw [hfills], by rw [hnonces]⟩
  | @settle a b _ _ fillShares price matchId hadmitted hfills hnonces hmatches hcanceled =>
      simp only [Call.usesNonce, not_or] at huse
      have ha : x ≠ a := by
        intro heq
        exact huse.1 ⟨congrArg Authorization.signer heq, congrArg Authorization.txId heq⟩
      have hb : x ≠ b := by
        intro heq
        exact huse.2 ⟨congrArg Authorization.signer heq, congrArg Authorization.txId heq⟩
      constructor
      · rw [hfills]
        exact booked_fills_other hc hcall.1 hcall.2 hx ha hb
      · rw [hnonces]
        simp only [State.booked, State.consumed, update₂_apply, if_neg huse.1, if_neg huse.2]

/-- Transactions that do not use an order's nonce leave its fill and its nonce alone. -/
theorem run_untouched {c : Chain} {known : Set Authorization} (hc : c.HashSound known)
    {txs : List Tx} (htxs : ∀ tx ∈ txs, tx.call.Within known) {x : Authorization} (hx : x ∈ known)
    (huse : ∀ tx ∈ txs, ¬tx.call.usesNonce x.signer x.txId) (s : State) :
    (run c s txs).fills (authorizationHash c x) = s.fills (authorizationHash c x) ∧
      (run c s txs).authorizationByNonce x.signer x.txId =
        s.authorizationByNonce x.signer x.txId := by
  induction txs generalizing s with
  | nil => exact ⟨rfl, rfl⟩
  | cons tx txs ih =>
      have htail := ih (fun tx' htx' => htxs tx' (List.mem_cons_of_mem _ htx'))
        (fun tx' htx' => huse tx' (List.mem_cons_of_mem _ htx'))
      rw [run_cons]
      cases hexec : exec c tx s with
      | ok r =>
          have hhead := (effect_books (exec_effect hexec)).untouched hc
            (htxs tx List.mem_cons_self) hx (huse tx List.mem_cons_self)
          rw [apply_ok hexec]
          exact ⟨(htail r.1).1.trans hhead.1, (htail r.1).2.trans hhead.2⟩
      | error e =>
          rw [apply_error hexec]
          exact htail s

theorem fills_of_unbound {c : Chain} {known : Set Authorization} (hc : c.HashSound known)
    (d : Deployment c) {txs : List Tx} (htxs : ∀ tx ∈ txs, tx.call.Within known)
    {x : Authorization} (hx : x ∈ known) (h : (run c d.state txs).authorizationByNonce x.signer x.txId = 0) :
    (run c d.state txs).fills (authorizationHash c x) = ⟨0, 0⟩ := by
  have hnone : fillsOf x (trace c d.state txs) = [] := by
    by_contra hfilled
    have hbound := run_bound hc htxs hfilled
    exact hc.ne_zero x hx (hbound.symm.trans h)
  rw [d.run_fills hc htxs hx, hnone]
  rfl

end PrismBackend.PrismV2
