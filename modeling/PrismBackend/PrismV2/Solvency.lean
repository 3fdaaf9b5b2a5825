import PrismBackend.PrismV2.Runs

/-!
# PrismV2: solvency

Every market's counters are the sums of its balances, its reserve covers what
its status promises, and the token balance of the contract covers all reserves.
-/

namespace PrismBackend.PrismV2

open PrismBackend.Lib

/-! ## The view of one market -/

structure MarketView where
  market : Market
  yes : Address → Nat
  no : Address → Nat

def State.view (s : State) (marketId : Uint128) : MarketView :=
  ⟨s.markets marketId, s.yesBalance marketId, s.noBalance marketId⟩

def Market.backed (market : Market) : Prop :=
  match market.state with
  | .uninitialized => market.reserve = 0 ∧ market.totalYes = 0 ∧ market.totalNo = 0
  | .open | .halted | .closed =>
    market.reserve = market.totalYes ∧ market.reserve = market.totalNo
  | .resolvedYes => market.reserve = market.totalYes
  | .resolvedNo => market.reserve = market.totalNo
  | .void => market.totalYes + market.totalNo ≤ 2 * market.reserve ∧
      (market.totalYes = 0 → market.totalNo = 0 → market.reserve = 0)

structure MarketView.Balanced (v : MarketView) : Prop where
  totalYes : v.market.totalYes = total v.yes
  totalNo : v.market.totalNo = total v.no
  backed : v.market.backed

def MarketState.isLive : MarketState → Bool
  | .open | .halted | .closed => true
  | _ => false

theorem backed_live (market : Market) (hlive : market.state.isLive = true) :
    market.backed ↔ market.reserve = market.totalYes ∧ market.reserve = market.totalNo := by
  unfold Market.backed
  cases hstate : market.state <;> simp_all [MarketState.isLive]

theorem MarketStep.live {from_ next : MarketState} (h : MarketStep from_ next) :
    from_.isLive = true := by
  cases h with
  | halt | resume => rfl
  | close hfrom => rcases hfrom with rfl | rfl <;> rfl
  | resolve _ hfrom | void hfrom => rcases hfrom with rfl | rfl | rfl <;> rfl

/-- A reserve equal to both totals covers every status a live market can reach. -/
theorem MarketStep.backed {from_ next : MarketState} (h : MarketStep from_ next) {market : Market}
    (hyes : market.reserve = market.totalYes) (hno : market.reserve = market.totalNo) :
    Market.backed { market with state := next } := by
  cases h with
  | halt | resume | close _ => exact ⟨hyes, hno⟩
  | resolve yesWon _ =>
      cases yesWon with
      | true => exact hyes
      | false => exact hno
  | void _ =>
      refine ⟨?_, ?_⟩
      · simp only
        omega
      · intro hzero _
        exact hyes.trans hzero

namespace MarketView.Balanced

variable {v : MarketView}

theorem yes_le (h : v.Balanced) (account : Address) : v.yes account ≤ v.market.totalYes := by
  rw [h.totalYes]
  exact le_total v.yes account

theorem no_le (h : v.Balanced) (account : Address) : v.no account ≤ v.market.totalNo := by
  rw [h.totalNo]
  exact le_total v.no account

theorem mint (h : v.Balanced) (hlive : v.market.state.isLive = true) (y n : Address)
    (shares : Nat) :
    MarketView.Balanced
      ⟨{ v.market with
          totalYes := v.market.totalYes + shares
          totalNo := v.market.totalNo + shares
          reserve := v.market.reserve + shares },
        Function.update v.yes y (v.yes y + shares), Function.update v.no n (v.no n + shares)⟩ := by
  have hbacked := (backed_live _ hlive).mp h.backed
  have hyes := total_update v.yes y (v.yes y + shares)
  have hno := total_update v.no n (v.no n + shares)
  have htotalYes := h.totalYes
  have htotalNo := h.totalNo
  refine ⟨by simp only; omega, by simp only; omega, ?_⟩
  refine (backed_live _ ?_).mpr ?_
  · exact hlive
  · simp only
    omega

theorem merge (h : v.Balanced) (hlive : v.market.state.isLive = true) {y n : Address}
    {shares : Nat} (hy : shares ≤ v.yes y) (hn : shares ≤ v.no n) :
    MarketView.Balanced
      ⟨{ v.market with
          totalYes := v.market.totalYes - shares
          totalNo := v.market.totalNo - shares
          reserve := v.market.reserve - shares },
        Function.update v.yes y (v.yes y - shares), Function.update v.no n (v.no n - shares)⟩ := by
  have hbacked := (backed_live _ hlive).mp h.backed
  have hyes := total_update v.yes y (v.yes y - shares)
  have hno := total_update v.no n (v.no n - shares)
  have htotalYes := h.totalYes
  have htotalNo := h.totalNo
  refine ⟨by simp only; omega, by simp only; omega, ?_⟩
  refine (backed_live _ ?_).mpr ?_
  · exact hlive
  · simp only
    omega

/-- A lifecycle move keeps the counters and weakens what they must satisfy. -/
theorem transition (h : v.Balanced) {state' : MarketState}
    (hmove : MarketStep v.market.state state') :
    MarketView.Balanced { v with market := { v.market with state := state' } } := by
  have hbacked := (backed_live _ hmove.live).mp h.backed
  exact ⟨h.totalYes, h.totalNo, hmove.backed hbacked.1 hbacked.2⟩

end MarketView.Balanced

/-! ## The books -/

/-- All markets balance, and the aggregate is the sum of their reserves. -/
structure BooksBalance (s : State) : Prop where
  market : ∀ marketId, (s.view marketId).Balanced
  aggregate : s.aggregateReserved = total fun marketId => (s.markets marketId).reserve

structure Solvent (c : Chain) (s : State) : Prop extends BooksBalance s where
  held : s.aggregateReserved ≤ s.collateral c.self

theorem total_reserve_update (markets : Uint128 → Market) (marketId : Uint128)
    (market : Market) :
    (total fun m => (Function.update markets marketId market m).reserve) +
        (markets marketId).reserve =
      (total fun m => (markets m).reserve) + market.reserve := by
  rw [← total_update (fun m => (markets m).reserve) marketId market.reserve]
  congr 2
  funext m
  by_cases hm : m = marketId
  · subst hm
    simp
  · simp [hm]

/-- A step that rewrites one market keeps the books if the new view balances and the
aggregate follows the reserve. -/
theorem BooksBalance.of_view {s s' : State} (h : BooksBalance s) (marketId : Uint128)
    (hother : ∀ m, m ≠ marketId → s'.view m = s.view m)
    (hmarkets : s'.markets = Function.update s.markets marketId (s'.markets marketId))
    (hview : (s'.view marketId).Balanced)
    (haggregate : s'.aggregateReserved + (s.markets marketId).reserve =
      s.aggregateReserved + (s'.markets marketId).reserve) : BooksBalance s' := by
  constructor
  · intro m
    by_cases hm : m = marketId
    · rw [hm]
      exact hview
    · rw [hother m hm]
      exact h.market m
  · have htotal := total_reserve_update s.markets marketId (s'.markets marketId)
    rw [← hmarkets] at htotal
    have hold := h.aggregate
    omega

theorem BooksBalance.congr {s s' : State} (h : BooksBalance s) (hview : s'.view = s.view)
    (haggregate : s'.aggregateReserved = s.aggregateReserved) : BooksBalance s' := by
  have hmarkets : s'.markets = s.markets := by
    funext m
    exact congrArg MarketView.market (congrFun hview m)
  refine ⟨?_, ?_⟩
  · intro m
    rw [hview]
    exact h.market m
  · rw [haggregate, hmarkets]
    exact h.aggregate

/-! ## Views after each effect -/

section Views

variable (s : State) (c : Chain) (marketId : Uint128)

theorem minted_view (y n : Address) (shares yesCollateral noCollateral : Nat) :
    (s.minted c marketId y n shares yesCollateral noCollateral).view marketId =
      ⟨{ s.markets marketId with
          totalYes := (s.markets marketId).totalYes + shares
          totalNo := (s.markets marketId).totalNo + shares
          reserve := (s.markets marketId).reserve + shares },
        Function.update (s.yesBalance marketId) y (s.yesBalance marketId y + shares),
        Function.update (s.noBalance marketId) n (s.noBalance marketId n + shares)⟩ := by
  simp [State.view, State.minted, State.setMarket, update₂_row]

theorem minted_view_of_ne (y n : Address) (shares yesCollateral noCollateral : Nat)
    {m : Uint128} (hm : m ≠ marketId) :
    (s.minted c marketId y n shares yesCollateral noCollateral).view m = s.view m := by
  simp [State.view, State.minted, State.setMarket, update₂_of_ne _ hm, hm]

theorem merged_view (y n : Address) (shares yesCollateral noCollateral : Nat) :
    (s.merged c marketId y n shares yesCollateral noCollateral).view marketId =
      ⟨{ s.markets marketId with
          totalYes := (s.markets marketId).totalYes - shares
          totalNo := (s.markets marketId).totalNo - shares
          reserve := (s.markets marketId).reserve - shares },
        Function.update (s.yesBalance marketId) y (s.yesBalance marketId y - shares),
        Function.update (s.noBalance marketId) n (s.noBalance marketId n - shares)⟩ := by
  simp [State.view, State.merged, State.setMarket, update₂_row]

theorem merged_view_of_ne (y n : Address) (shares yesCollateral noCollateral : Nat)
    {m : Uint128} (hm : m ≠ marketId) :
    (s.merged c marketId y n shares yesCollateral noCollateral).view m = s.view m := by
  simp [State.view, State.merged, State.setMarket, update₂_of_ne _ hm, hm]

/-- A transfer of one outcome is a move between two accounts of the market's row. -/
theorem transferred_position (side : Side) (seller buyer : Address) (shares collateral : Nat) :
    (s.transferred side marketId seller buyer shares collateral).position side marketId =
      move (s.position side marketId) seller buyer shares := by
  cases side <;>
    simp [State.transferred, State.setPosition, State.position, update₂_row, move]

theorem transferred_position_of_ne (side : Side) (seller buyer : Address)
    (shares collateral : Nat) (side' : Side) {m : Uint128} (h : side' ≠ side ∨ m ≠ marketId) :
    (s.transferred side marketId seller buyer shares collateral).position side' m =
      s.position side' m := by
  by_cases hside : side' = side
  · subst hside
    have hm := h.resolve_left (not_not.mpr rfl)
    cases side' <;>
      simp [State.transferred, State.setPosition, State.position, update₂_of_ne _ hm]
  · cases side' <;> cases side <;>
      first
        | exact absurd rfl hside
        | rfl

theorem transferred_total {side : Side} {seller : Address} (buyer : Address) {shares : Nat}
    (collateral : Nat) (hheld : shares ≤ s.position side marketId seller) (side' : Side)
    (m : Uint128) :
    total ((s.transferred side marketId seller buyer shares collateral).position side' m) =
      total (s.position side' m) := by
  by_cases h : side' = side ∧ m = marketId
  · obtain ⟨rfl, rfl⟩ := h
    rw [transferred_position]
    exact total_move _ hheld
  · rw [transferred_position_of_ne]
    by_cases hside : side' = side
    · exact Or.inr fun hm => h ⟨hside, hm⟩
    · exact Or.inl hside

theorem transferred_markets (side : Side) (seller buyer : Address) (shares collateral : Nat) :
    (s.transferred side marketId seller buyer shares collateral).markets = s.markets := by
  cases side <;> rfl

theorem transferred_aggregate (side : Side) (seller buyer : Address) (shares collateral : Nat) :
    (s.transferred side marketId seller buyer shares collateral).aggregateReserved =
      s.aggregateReserved := by
  cases side <;> rfl

theorem redeemed_view (account : Address) :
    (s.redeemed c marketId account).view marketId =
      ⟨{ s.markets marketId with
          totalYes := (s.markets marketId).totalYes - s.burntYes marketId account
          totalNo := (s.markets marketId).totalNo - s.burntNo marketId account
          reserve := (s.markets marketId).reserve - s.grossPayout marketId account },
        Function.update (s.yesBalance marketId) account
          (s.yesBalance marketId account - s.burntYes marketId account),
        Function.update (s.noBalance marketId) account
          (s.noBalance marketId account - s.burntNo marketId account)⟩ := by
  simp [State.view, State.redeemed, State.paid, State.burnt, State.setMarket, update₂_row]

theorem redeemed_view_of_ne (account : Address) {m : Uint128} (hm : m ≠ marketId) :
    (s.redeemed c marketId account).view m = s.view m := by
  simp [State.view, State.redeemed, State.paid, State.burnt, State.setMarket,
    update₂_of_ne _ hm, hm]

theorem burntYes_le (account : Address) :
    s.burntYes marketId account ≤ s.yesBalance marketId account := by
  unfold State.burntYes
  split <;> omega

theorem burntNo_le (account : Address) :
    s.burntNo marketId account ≤ s.noBalance marketId account := by
  unfold State.burntNo
  split <;> omega

theorem burnt_reserve (account : Address) :
    ((s.burnt marketId account).markets marketId).reserve = (s.markets marketId).reserve := by
  simp [State.burnt, State.setMarket]

end Views

/-- What a redemption pays covers what it burns, up to half a unit, and never more than the
reserve, and leaves the rest of the market backed. -/
theorem redeemed_backed {s : State} {marketId : Uint128} (account : Address)
    (h : (s.view marketId).Balanced)
    (hterminal : (s.markets marketId).state.isTerminal = true) :
    s.grossPayout marketId account ≤ (s.markets marketId).reserve ∧
    Market.backed { s.markets marketId with
      totalYes := (s.markets marketId).totalYes - s.burntYes marketId account
      totalNo := (s.markets marketId).totalNo - s.burntNo marketId account
      reserve := (s.markets marketId).reserve - s.grossPayout marketId account } := by
  have hbacked := h.backed
  have hyes : s.yesBalance marketId account ≤ (s.markets marketId).totalYes := h.yes_le account
  have hno : s.noBalance marketId account ≤ (s.markets marketId).totalNo := h.no_le account
  unfold Market.backed at hbacked ⊢
  simp only [State.view] at hbacked
  cases hstate : (s.markets marketId).state with
  | uninitialized | «open» | halted | closed =>
      exact absurd hterminal (by rw [hstate]; decide)
  | resolvedYes =>
      simp only [hstate] at hbacked
      simp only [State.grossPayout, State.burntYes, State.burntNo, hstate]
      omega
  | resolvedNo =>
      simp only [hstate] at hbacked
      simp only [State.grossPayout, State.burntYes, State.burntNo, hstate]
      omega
  | void =>
      simp only [hstate] at hbacked
      simp only [State.grossPayout, State.burntYes, State.burntNo, hstate]
      split
      · omega
      · omega

/-! ## Preservation -/

theorem PairingEffect.books {c : Chain} {env : Env} {a b : Authorization}
    {shares yesLeg noLeg : Nat} {s s' : State}
    (heffect : PairingEffect c env a b shares yesLeg noLeg s s') (h : BooksBalance s)
    (hlive : (s.markets a.marketId).state.isLive = true) : BooksBalance s' := by
  have hmarket := h.market a.marketId
  cases heffect with
  | mint _ _ hguard =>
      refine h.of_view a.marketId (fun m hm => minted_view_of_ne s c _ _ _ _ _ _ hm) ?_ ?_ ?_
      · simp [State.minted, State.setMarket]
      · rw [minted_view]
        exact hmarket.mint hlive _ _ shares
      · simp only [State.minted, State.setMarket, Function.update_self]
        omega
  | merge _ _ hguard =>
      refine h.of_view a.marketId (fun m hm => merged_view_of_ne s c _ _ _ _ _ _ hm) ?_ ?_ ?_
      · simp [State.merged, State.setMarket]
      · rw [merged_view]
        exact hmarket.merge hlive hguard.yesHeld hguard.noHeld
      · have hreserved := hguard.reserved
        have haggregate := hguard.aggregate
        simp only [State.merged, State.setMarket, Function.update_self]
        omega
  | transfer _ _ hguard =>
      have hmarkets := transferred_markets s a.marketId a.side (seller a b).signer
        (buyer a b).signer shares (legCollateral a.side yesLeg noLeg)
      have htotal := transferred_total s a.marketId (buyer a b).signer
        (legCollateral a.side yesLeg noLeg) hguard.held
      constructor
      · intro m
        have hm := h.market m
        refine ⟨?_, ?_, ?_⟩
        · have hsame := congrArg Market.totalYes (congrFun hmarkets m)
          exact hsame.trans (hm.totalYes.trans (htotal .yes m).symm)
        · have hsame := congrArg Market.totalNo (congrFun hmarkets m)
          exact hsame.trans (hm.totalNo.trans (htotal .no m).symm)
        · simp only [State.view, hmarkets]
          exact hm.backed
      · rw [transferred_aggregate, hmarkets]
        exact h.aggregate

theorem redeemed_books {s : State} (c : Chain) {marketId : Uint128} (account : Address)
    (h : BooksBalance s) (hterminal : (s.markets marketId).state.isTerminal = true)
    (haggregate : s.grossPayout marketId account ≤ s.aggregateReserved) :
    BooksBalance (s.redeemed c marketId account) := by
  obtain ⟨hgross, hbacked⟩ := redeemed_backed account (h.market marketId) hterminal
  have hmarket := h.market marketId
  refine h.of_view marketId (fun m hm => redeemed_view_of_ne s c marketId account hm) ?_ ?_ ?_
  · simp [State.redeemed, State.paid, State.burnt, State.setMarket]
  · rw [redeemed_view]
    have hyes := total_update (s.yesBalance marketId) account
      (s.yesBalance marketId account - s.burntYes marketId account)
    have hno := total_update (s.noBalance marketId) account
      (s.noBalance marketId account - s.burntNo marketId account)
    have hburntYes := burntYes_le s marketId account
    have hburntNo := burntNo_le s marketId account
    have htotalYes : (s.markets marketId).totalYes = total (s.yesBalance marketId) :=
      hmarket.totalYes
    have htotalNo : (s.markets marketId).totalNo = total (s.noBalance marketId) :=
      hmarket.totalNo
    exact ⟨by simp only; omega, by simp only; omega, hbacked⟩
  · simp only [State.redeemed, State.paid, State.burnt, State.setMarket, Function.update_self]
    omega

theorem effect_solvent {c : Chain} {env : Env} {s s' : State} {call : Call}
    {event : Option Redeemed} (heffect : Effect c env s call s' event) (h : Solvent c s) :
    Solvent c s' := by
  cases heffect with
  | configure _ roles _ _ => exact ⟨h.toBooksBalance.congr rfl rfl, h.held⟩
  | create marketId statement closeTime hnew =>
      have hmarket := h.market marketId
      have hzero : (s.markets marketId).reserve = 0 ∧ (s.markets marketId).totalYes = 0 ∧
          (s.markets marketId).totalNo = 0 := by
        have hbacked := hmarket.backed
        unfold Market.backed at hbacked
        rw [show (s.view marketId).market.state = .uninitialized from hnew] at hbacked
        exact hbacked
      refine ⟨h.toBooksBalance.of_view marketId ?_ ?_ ?_ ?_, h.held⟩
      · intro m hm
        simp [State.view, State.setMarket, hm]
      · simp [State.setMarket]
      · refine ⟨?_, ?_, ?_⟩
        · simp only [State.view, State.setMarket, Function.update_self]
          exact hzero.2.1.symm.trans hmarket.totalYes
        · simp only [State.view, State.setMarket, Function.update_self]
          exact hzero.2.2.symm.trans hmarket.totalNo
        · simp [State.view, State.setMarket, Market.backed]
      · simp only [State.setMarket, Function.update_self]
        omega
  | transition marketId state' _ hmove =>
      refine ⟨h.toBooksBalance.of_view marketId ?_ ?_ ?_ ?_, h.held⟩
      · intro m hm
        simp [State.view, State.setMarket, hm]
      · simp [State.setMarket]
      · have hnext := (h.market marketId).transition hmove
        simp only [State.view, State.setMarket, Function.update_self] at hnext ⊢
        exact hnext
      · simp [State.setMarket]
  | cancel txId => exact ⟨h.toBooksBalance.congr rfl rfl, h.held⟩
  | @settle a b _ _ fillShares price matchId s₁ hadmitted hpair hsolvent =>
      have hbooked : BooksBalance (s.booked c a b fillShares price matchId) :=
        h.toBooksBalance.congr rfl rfl
      have hlive : (s.markets a.marketId).state.isLive = true := by
        rw [hadmitted.isOpen]
        rfl
      have hbooks := hpair.books hbooked hlive
      exact ⟨hbooks.congr rfl rfl, hsolvent⟩
  | redeem marketId _ hclaim hpay =>
      exact ⟨redeemed_books c env.sender h.toBooksBalance hclaim.terminal hpay.aggregate,
        hpay.solvent⟩
  | tokenTransfer source target amount hsource _ =>
      have hheld := le_move s.collateral (t := target) (Ne.symm hsource) amount
      exact ⟨h.toBooksBalance.congr rfl rfl, h.held.trans hheld⟩

theorem initialize_ok_iff (c : Chain) (token owner operator oracle dao : Address)
    (rake : Nat) (s s' : State) :
    initializeProxy c token owner operator oracle dao rake s = .ok s' ↔
      token ≠ 0 ∧ token ≠ c.self ∧ isValidRole c owner ∧ isValidRole c operator ∧
        isValidRole c oracle ∧ isValidRole c dao ∧ rake ≤ maxRakeBps ∧
      s' = { s with
        collateralToken := token
        owner := owner
        operator := operator
        oracle := oracle
        dao := dao
        defaultRakeBps := rake
        reentrancyStatus := 1 } := by
  simp only [initializeProxy, bind_ok_iff, revertIf_ok_iff, exists_const, not_or, not_not,
    not_lt, Except.ok.injEq, and_assoc]
  rw [eq_comm (a := s')]

theorem Deployment.solvent {c : Chain} (d : Deployment c) : Solvent c d.state := by
  have hstate := ((initialize_ok_iff _ _ _ _ _ _ _ _ _).mp d.initialized).2.2.2.2.2.2.2
  rw [hstate]
  refine ⟨⟨?_, ?_⟩, Nat.zero_le _⟩
  · intro marketId
    exact ⟨total_zero.symm, total_zero.symm, rfl, rfl, rfl⟩
  · exact total_zero.symm

theorem run_solvent {c : Chain} (d : Deployment c) (txs : List Tx) :
    Solvent c (run c d.state txs) :=
  run_preserves (fun _ _ _ hs hexec => effect_solvent (exec_effect hexec) hs) d.solvent txs

/-! ## Markets do not touch each other -/

def Call.market : Call → Option Uint128
  | .createMarket marketId _ _ | .haltMarket marketId | .resumeMarket marketId
  | .closeMarket marketId | .resolveMarket marketId _ | .voidMarket marketId
  | .redeem marketId => some marketId
  | .settle a _ _ _ _ _ _ => some a.marketId
  | _ => none

theorem Call.market_of_transitions {call : Call} {marketId : Uint128} {next : MarketState}
    (h : call.transitions = some (marketId, next)) : call.market = some marketId := by
  cases call <;> simp_all [Call.transitions, Call.market]

theorem transferred_view_of_ne (s : State) (marketId : Uint128) (side : Side)
    (seller buyer : Address) (shares collateral : Nat) {m : Uint128} (hm : m ≠ marketId) :
    (s.transferred side marketId seller buyer shares collateral).view m = s.view m := by
  have hyes := transferred_position_of_ne s marketId side seller buyer shares collateral
    .yes (Or.inr hm)
  have hno := transferred_position_of_ne s marketId side seller buyer shares collateral
    .no (Or.inr hm)
  simp only [State.position] at hyes hno
  simp only [State.view, transferred_markets, hyes, hno]

theorem PairingEffect.view_of_ne {c : Chain} {env : Env} {a b : Authorization}
    {shares yesLeg noLeg : Nat} {s s' : State}
    (heffect : PairingEffect c env a b shares yesLeg noLeg s s') {m : Uint128}
    (hm : m ≠ a.marketId) : s'.view m = s.view m := by
  cases heffect with
  | mint => exact minted_view_of_ne s c _ _ _ _ _ _ hm
  | merge => exact merged_view_of_ne s c _ _ _ _ _ _ hm
  | transfer => exact transferred_view_of_ne s _ _ _ _ _ _ hm

theorem effect_view_of_ne {c : Chain} {env : Env} {s s' : State} {call : Call}
    {event : Option Redeemed} (heffect : Effect c env s call s' event) {m : Uint128}
    (hm : call.market ≠ some m) : s'.view m = s.view m := by
  cases heffect with
  | configure | cancel | tokenTransfer => rfl
  | create marketId =>
      have hne : m ≠ marketId := fun h => hm (congrArg some h.symm)
      simp [State.view, State.setMarket, hne]
  | transition marketId _ hcall =>
      have hne : m ≠ marketId := fun h =>
        hm ((Call.market_of_transitions hcall).trans (congrArg some h.symm))
      simp [State.view, State.setMarket, hne]
  | settle _ hpair _ =>
      have hne := fun h => hm (congrArg some (Eq.symm h))
      exact hpair.view_of_ne hne
  | redeem marketId =>
      have hne : m ≠ marketId := fun h => hm (congrArg some h.symm)
      exact redeemed_view_of_ne s c marketId env.sender hne

theorem apply_view_of_ne (c : Chain) (s : State) (tx : Tx) {m : Uint128}
    (hm : tx.call.market ≠ some m) : (apply c s tx).view m = s.view m := by
  cases hexec : exec c tx s with
  | ok r =>
      rw [apply_ok hexec]
      exact effect_view_of_ne (exec_effect hexec) hm
  | error e => rw [apply_error hexec]

/-! ## The contract is solvent -/

/-- Whatever is called, by whom and when: the counters are the sums of the balances, every
reserve covers its market's status, the aggregate is the sum of the reserves and is held by
the contract, and a call on one market leaves the others as they were. -/
theorem contract_solvent {c : Chain} (d : Deployment c) (txs : List Tx) :
    Solvent c (run c d.state txs) ∧
    ∀ (tx : Tx) (marketId : Uint128), tx.call.market ≠ some marketId →
      (apply c (run c d.state txs) tx).view marketId = (run c d.state txs).view marketId :=
  ⟨run_solvent d txs, fun tx _ hm => apply_view_of_ne c _ tx hm⟩

end PrismBackend.PrismV2
