import PrismBackend.PrismV1.Redemption

/-!
# Prism: the sweep of old markets

A year and a day after its resolution, the owner can take what is left of a
market. What is taken is that market's own pot: every other market keeps its
accounts, and until then every winner can redeem.
-/

namespace PrismBackend.PrismV1

open PrismBackend.Lib
open PrismBackend.PrismV2 (Address Uint128 Bytes Side)

def oneYear : Nat := 31536000
def oneDay : Nat := 86400

def claimCollateralAfterOneYear (c : Chain) (env : Env) (marketId : Uint128) (s : State) :
    Except Err State := do
  onlyOwner env s
  let resolutionTime := (s.markets marketId).resolutionTime
  require (0 < resolutionTime) "Not resolved yet"
  let aYearLater ← add256 resolutionTime oneYear
  let earliest ← add256 aYearLater oneDay
  require (earliest ≤ env.timestamp) "Too early to claim collateral"
  let remainingCollateral := (s.markets marketId).totalCollateralUsd
  require (0 < remainingCollateral) "No collateral to claim"
  let s ← transfer s c.self s.owner remainingCollateral "Transfer failed"
  .ok (s.setMarket marketId { s.markets marketId with totalCollateralUsd := 0 })

def State.swept (s : State) (c : Chain) (marketId : Uint128) : State :=
  (s.transferred c.self s.owner (s.markets marketId).totalCollateralUsd).setMarket marketId
    { s.markets marketId with totalCollateralUsd := 0 }

theorem claimCollateralAfterOneYear_ok_iff {c : Chain} {env : Env} {marketId : Uint128}
    {s s' : State} :
    claimCollateralAfterOneYear c env marketId s = .ok s' ↔
      env.sender = s.owner ∧ 0 < (s.markets marketId).resolutionTime ∧
      (s.markets marketId).resolutionTime + oneYear + oneDay < 2 ^ 256 ∧
      (s.markets marketId).resolutionTime + oneYear + oneDay ≤ env.timestamp ∧
      0 < (s.markets marketId).totalCollateralUsd ∧
      (s.markets marketId).totalCollateralUsd ≤ s.balanceOf c.self ∧
      s' = s.swept c marketId := by
  simp only [claimCollateralAfterOneYear, onlyOwner, add256, bind_ok_iff, require_ok_iff,
    checkedAdd_ok_iff, transfer_ok_iff, exists_const, Except.ok.injEq]
  constructor
  · rintro ⟨howner, hresolved, _, ⟨_, rfl⟩, _, ⟨hfits, rfl⟩, htime, hpot, _, ⟨hfunded, rfl⟩, rfl⟩
    exact ⟨howner, hresolved, hfits, htime, hpot, hfunded, rfl⟩
  · rintro ⟨howner, hresolved, hfits, htime, hpot, hfunded, rfl⟩
    exact ⟨howner, hresolved, _, ⟨by omega, rfl⟩, _, ⟨hfits, rfl⟩, htime, hpot, _,
      ⟨hfunded, rfl⟩, rfl⟩

/-! ## Markets left out -/

def Market.blank : Market := ⟨[], 0, 0, 0, fun _ => 0, fun _ _ => 0⟩

theorem blank_accounted : Market.blank.Accounted := by
  constructor
  · intro side
    exact total_zero.symm
  · intro _
    exact ⟨rfl, rfl⟩
  · intro _
    rfl
  · intro hresolved
    exact absurd rfl hresolved

/-- The state as if some markets had never been. -/
def State.without (s : State) (gone : Uint128 → Bool) : State :=
  { s with markets := fun marketId => if gone marketId then .blank else s.markets marketId }

section Without

variable {c : Chain} {supply amount : Nat} {s s' : State} {gone : Uint128 → Bool}
  {marketId : Uint128}

theorem without_markets (hstays : gone marketId = false) :
    (s.without gone).markets marketId = s.markets marketId := by
  simp [State.without, hstays]

theorem without_gone (hgone : gone marketId = true) :
    (s.without gone).markets marketId = .blank := by
  simp [State.without, hgone]

theorem without_setMarket (hstays : gone marketId = false) (market : Market) :
    (s.setMarket marketId market).without gone = (s.without gone).setMarket marketId market := by
  unfold State.without State.setMarket
  congr 1
  ext m : 1
  by_cases hm : m = marketId
  · subst hm
    simp [hstays]
  · simp [hm]

theorem slotEffect_without (hstays : gone marketId = false)
    (h : SlotEffect c marketId amount s s') :
    SlotEffect c marketId amount (s.without gone) (s'.without gone) := by
  have hmarket := without_markets (s := s) hstays
  cases h with
  | sold side seller hheld houtstanding hpot hfunded =>
      have heffect : SlotEffect c marketId amount (s.without gone) _ :=
        .sold side seller (by rwa [hmarket]) (by rwa [hmarket]) (by rwa [hmarket]) hfunded
      rw [hmarket, ← without_setMarket hstays] at heffect
      exact heffect
  | bought side buyer hallowed hfunded =>
      have heffect : SlotEffect c marketId amount (s.without gone) _ :=
        .bought side buyer hallowed hfunded
      have hset := without_setMarket (s := s.pulled c buyer c.self amount) hstays
        ((s.markets marketId).bought side buyer amount)
      rw [hset, ← hmarket]
      exact heffect

theorem redeemable_without {winner : Address} (hstays : gone marketId = false) :
    Redeemable c (s.without gone) marketId winner ↔ Redeemable c s marketId winner := by
  have hmarket := without_markets (s := s) hstays
  constructor
  · rintro ⟨h1, h2, h3, h4, h5, h6, h7, h8, h9, h10, h11, h12, h13, h14, h15⟩
    rw [hmarket] at h1 h2 h3 h4 h5 h6 h7 h8 h9 h10 h11 h12 h13 h14 h15
    exact ⟨h1, h2, h3, h4, h5, h6, h7, h8, h9, h10, h11, h12, h13, h14, h15⟩
  · rintro ⟨h1, h2, h3, h4, h5, h6, h7, h8, h9, h10, h11, h12, h13, h14, h15⟩
    constructor <;> rw [hmarket] <;> assumption

/-- A market that is swept and stays so. -/
structure Market.Abandoned (market : Market) : Prop where
  stated : market.statement ≠ []
  resolved : market.resolutionTime ≠ 0
  empty : market.totalCollateralUsd = 0

/-- No call but a sweep touches an abandoned market, and none sees the difference. -/
theorem effect_without
    (hkeccak : ∀ statement, c.keccak statement = c.keccak [] → statement = []) {tx : Tx}
    (hgone : ∀ m, gone m = true → (s.markets m).Abandoned) (h : Effect c tx s s') :
    Effect c tx (s.without gone) (s'.without gone) ∧
      ∀ m, gone m = true → s'.markets m = s.markets m := by
  have hstays {m : Uint128} (hm : ¬(s.markets m).Abandoned) : gone m = false :=
    Bool.eq_false_iff.mpr fun htrue => hm (hgone m htrue)
  have hother {m m' : Uint128} (hm : gone m = false) (hm' : gone m' = true) : m' ≠ m := by
    rintro rfl
    exact absurd (hm.symm.trans hm') (by decide)
  cases h with
  | configure hredeems hmarkets hentered hbalance hallowance hrake =>
      have hwithout : (s'.without gone).markets = (s.without gone).markets := by
        simp only [State.without, hmarkets]
      exact ⟨.configure hredeems hwithout hentered hbalance hallowance hrake,
        fun m _ => congrFun hmarkets m⟩
  | create marketId statement hredeems hfree hallowed hfunded hforwarded howner =>
      have hm : gone marketId = false := hstays fun h => h.stated (hkeccak _ hfree)
      have hmarket := without_markets (s := s) hm
      have heffect : Effect c tx (s.without gone) _ :=
        .create marketId statement hredeems (by rwa [hmarket]) hallowed hfunded hforwarded howner
      rw [hmarket] at heffect
      refine ⟨?_, fun m' hm' => setMarket_of_ne _ (hother hm hm') _⟩
      rw [without_setMarket hm]
      exact heffect
  | @settle marketId amount s₁ _ hredeems hopen hstated hslot0 hslot1 =>
      have hm : gone marketId = false := hstays fun h => h.resolved hopen
      have hmarket := without_markets (s := s) hm
      refine ⟨.settle marketId amount hredeems (by rwa [hmarket]) (by rwa [hmarket])
        (slotEffect_without hm hslot0) (slotEffect_without hm hslot1), ?_⟩
      intro m' hm'
      exact (hslot1.frame.2.2 m' (hother hm hm')).trans (hslot0.frame.2.2 m' (hother hm hm'))
  | resolve marketId outcome hredeems houtcome hopen hstated =>
      have hm : gone marketId = false := hstays fun h => h.resolved hopen
      have hmarket := without_markets (s := s) hm
      have heffect : Effect c tx (s.without gone) _ :=
        .resolve marketId outcome hredeems houtcome (by rwa [hmarket]) (by rwa [hmarket])
      rw [hmarket, ← without_setMarket hm] at heffect
      exact ⟨heffect, fun m' hm' => setMarket_of_ne _ (hother hm hm') _⟩
  | redeem marketId winner hredeems hredeemable =>
      have hm : gone marketId = false :=
        hstays fun h => hredeemable.pot.ne' h.empty
      have hmarket := without_markets (s := s) hm
      have heffect : Effect c tx (s.without gone) _ :=
        .redeem marketId winner hredeems ((redeemable_without hm).mpr hredeemable)
      refine ⟨?_, fun m' hm' => setMarket_of_ne _ (hother hm hm') _⟩
      unfold State.redeemed at heffect ⊢
      dsimp only at heffect ⊢
      rw [hmarket] at heffect
      rw [without_setMarket hm]
      exact heffect
  | tokenTransfer source target amount hredeems hsource hfunded =>
      exact ⟨.tokenTransfer source target amount hredeems hsource hfunded, fun _ _ => rfl⟩
  | tokenApprove holder spender amount hredeems hholder =>
      exact ⟨.tokenApprove holder spender amount hredeems hholder, fun _ _ => rfl⟩

end Without

/-! ## Runs with sweeps -/

inductive Move
  | call (tx : Tx)
  | claimCollateralAfterOneYear (env : Env) (marketId : Uint128)

/-- The state, with the markets that were swept so far. -/
structure History where
  state : State
  gone : Uint128 → Bool

/-- A move that fails changes nothing. -/
def History.next (c : Chain) (h : History) : Move → History
  | .call tx =>
    match exec c tx h.state with
    | .ok state => ⟨state, h.gone⟩
    | .error _ => h
  | .claimCollateralAfterOneYear env marketId =>
    match PrismV1.claimCollateralAfterOneYear c env marketId h.state with
    | .ok state => ⟨state, Function.update h.gone marketId true⟩
    | .error _ => h

def History.run (c : Chain) (h : History) (moves : List Move) : History :=
  moves.foldl (History.next c) h

/-- The markets that are left keep their accounts, and the others are empty. -/
structure History.Sound (c : Chain) (supply : Nat) (h : History) : Prop where
  accounted : Accounted c supply (h.state.without h.gone)
  abandoned : ∀ m, h.gone m = true → (h.state.markets m).Abandoned

theorem pots_without {s : State} {gone : Uint128 → Bool}
    (hgone : ∀ m, gone m = true → (s.markets m).totalCollateralUsd = 0) :
    (s.without gone).pots = s.pots := by
  unfold State.pots
  congr 1
  ext m
  cases hm : gone m with
  | false => rw [without_markets hm]
  | true =>
      rw [without_gone hm, hgone m hm]
      rfl

namespace History.Sound

variable {c : Chain} {supply : Nat} {h : History}

theorem pots (hs : h.Sound c supply) : (h.state.without h.gone).pots = h.state.pots :=
  pots_without fun m hm => (hs.abandoned m hm).empty

theorem market (hs : h.Sound c supply) {marketId : Uint128} (hstays : h.gone marketId = false) :
    (h.state.markets marketId).Accounted := by
  have hmarket := hs.accounted.market marketId
  rwa [without_markets hstays] at hmarket

theorem called (hs : h.Sound c supply)
    (hkeccak : ∀ statement, c.keccak statement = c.keccak [] → statement = []) {tx : Tx}
    {s' : State} (hexec : exec c tx h.state = .ok s') : History.Sound c supply ⟨s', h.gone⟩ := by
  obtain ⟨heffect, hkept⟩ := effect_without hkeccak hs.abandoned (exec_effect hexec)
  refine ⟨hs.accounted.effect hkeccak heffect, ?_⟩
  intro m hm
  change (s'.markets m).Abandoned
  rw [hkept m hm]
  exact hs.abandoned m hm

theorem stated (hs : h.Sound c supply) {marketId : Uint128}
    (hresolved : (h.state.markets marketId).resolutionTime ≠ 0) :
    (h.state.markets marketId).statement ≠ [] := by
  intro hempty
  cases hgone : h.gone marketId with
  | true => exact (hs.abandoned marketId hgone).stated hempty
  | false => exact hresolved ((hs.market hgone).fresh hempty).1

theorem swept (hs : h.Sound c supply) {env : Env} {marketId : Uint128} {s' : State}
    (hclaim : PrismV1.claimCollateralAfterOneYear c env marketId h.state = .ok s') :
    History.Sound c supply ⟨s', Function.update h.gone marketId true⟩ := by
  obtain ⟨_, hresolved, _, _, hpot, hfunded, rfl⟩ :=
    claimCollateralAfterOneYear_ok_iff.mp hclaim
  have habandoned : ∀ m, Function.update h.gone marketId true m = true →
      ((h.state.swept c marketId).markets m).Abandoned := by
    intro m hm
    by_cases heq : m = marketId
    · subst heq
      have hmarket : (h.state.swept c m).markets m =
          { h.state.markets m with totalCollateralUsd := 0 } := setMarket_same _ _ _
      rw [hmarket]
      exact ⟨hs.stated hresolved.ne', hresolved.ne', rfl⟩
    · rw [Function.update_of_ne heq] at hm
      have hmarket : (h.state.swept c marketId).markets m = h.state.markets m :=
        setMarket_of_ne _ heq _
      rw [hmarket]
      exact hs.abandoned m hm
  refine ⟨?_, habandoned⟩
  have hpots := pots_setMarket
    (h.state.transferred c.self h.state.owner (h.state.markets marketId).totalCollateralUsd)
    marketId { h.state.markets marketId with totalCollateralUsd := 0 }
  have hmove : h.state.balanceOf c.self - (h.state.markets marketId).totalCollateralUsd ≤
      move h.state.balanceOf c.self h.state.owner (h.state.markets marketId).totalCollateralUsd
        c.self := sub_le_move hfunded
  have hheld := hs.accounted.held
  rw [hs.pots] at hheld
  constructor
  · exact hs.accounted.entered
  · exact hs.accounted.rake
  · exact hs.accounted.allowance
  · exact (total_move h.state.balanceOf hfunded).trans hs.accounted.supply
  · intro m
    cases hm : Function.update h.gone marketId true m with
    | true =>
        rw [without_gone hm]
        exact blank_accounted
    | false =>
        have heq : m ≠ marketId := by
          rintro rfl
          rw [Function.update_self] at hm
          exact absurd hm (by decide)
        have hmarket : (h.state.swept c marketId).markets m = h.state.markets m :=
          setMarket_of_ne _ heq _
        rw [without_markets hm, hmarket]
        rw [Function.update_of_ne heq] at hm
        exact hs.market hm
  · rw [pots_without fun m hm => (habandoned m hm).empty]
    change (h.state.swept c marketId).pots ≤ move h.state.balanceOf c.self h.state.owner _ c.self
    change (h.state.swept c marketId).pots + (h.state.markets marketId).totalCollateralUsd =
      h.state.pots + 0 at hpots
    change h.state.pots ≤ h.state.balanceOf c.self at hheld
    omega

theorem next (hs : h.Sound c supply)
    (hkeccak : ∀ statement, c.keccak statement = c.keccak [] → statement = []) (move : Move) :
    (h.next c move).Sound c supply := by
  cases move with
  | call tx =>
      dsimp only [History.next]
      cases hexec : exec c tx h.state with
      | error e => exact hs
      | ok s' => exact hs.called hkeccak hexec
  | claimCollateralAfterOneYear env marketId =>
      dsimp only [History.next]
      cases hclaim : PrismV1.claimCollateralAfterOneYear c env marketId h.state with
      | error e => exact hs
      | ok s' => exact hs.swept hclaim

theorem run (hs : h.Sound c supply)
    (hkeccak : ∀ statement, c.keccak statement = c.keccak [] → statement = [])
    (moves : List Move) : (h.run c moves).Sound c supply := by
  induction moves generalizing h with
  | nil => exact hs
  | cons move moves ih => exact ih (hs.next hkeccak move)

end History.Sound

/-! ## What winners can rely on -/

section Later

variable {c : Chain} {supply : Nat} {h : History} {marketId : Uint128}

def Move.redeems : Move → Option (Uint128 × Address)
  | .call tx => tx.redeems
  | .claimCollateralAfterOneYear _ _ => none

/-- The move comes too early to sweep a market that was resolved at some time. -/
def Move.tooEarly (marketId : Uint128) (resolutionTime : Nat) : Move → Prop
  | .call _ => True
  | .claimCollateralAfterOneYear env m =>
    m = marketId → env.timestamp < resolutionTime + oneYear + oneDay

/-- A resolved market changes by claims alone until it is old enough to be swept. -/
theorem next_resolved (hs : h.Sound c supply)
    (hkeccak : ∀ statement, c.keccak statement = c.keccak [] → statement = []) (move : Move)
    (hstays : h.gone marketId = false)
    (hresolved : (h.state.markets marketId).resolutionTime ≠ 0)
    (hearly : move.tooEarly marketId (h.state.markets marketId).resolutionTime) :
    (h.next c move).gone marketId = false ∧
      ((h.next c move).state.markets marketId = h.state.markets marketId ∨
        ∃ winner, move.redeems = some (marketId, winner) ∧
          (h.next c move).state.markets marketId = (h.state.markets marketId).paid winner) := by
  cases move with
  | call tx =>
      dsimp only [History.next]
      cases hexec : exec c tx h.state with
      | error e => exact ⟨hstays, Or.inl rfl⟩
      | ok s' =>
          refine ⟨hstays, ?_⟩
          obtain ⟨heffect, _⟩ := effect_without hkeccak hs.abandoned (exec_effect hexec)
          have hresolved' :
              ((h.state.without h.gone).markets marketId).resolutionTime ≠ 0 := by
            rwa [without_markets hstays]
          have hcases := effect_resolved hs.accounted hkeccak heffect hresolved'
          rwa [without_markets hstays, without_markets hstays] at hcases
  | claimCollateralAfterOneYear env m =>
      dsimp only [History.next]
      cases hclaim : PrismV1.claimCollateralAfterOneYear c env m h.state with
      | error e => exact ⟨hstays, Or.inl rfl⟩
      | ok s' =>
          obtain ⟨_, _, _, htime, _, _, rfl⟩ := claimCollateralAfterOneYear_ok_iff.mp hclaim
          have hm : marketId ≠ m := by
            rintro rfl
            exact absurd (hearly rfl) (not_lt.mpr htime)
          exact ⟨(Function.update_of_ne hm _ _).trans hstays, Or.inl (setMarket_of_ne _ hm _)⟩

/-- An account keeps its units until a call redeems for it, or the market is old enough. -/
theorem run_keeps (hs : h.Sound c supply)
    (hkeccak : ∀ statement, c.keccak statement = c.keccak [] → statement = [])
    (hstays : h.gone marketId = false)
    (hresolved : (h.state.markets marketId).resolutionTime ≠ 0) {account : Address}
    (moves : List Move) (hnone : ∀ move ∈ moves, move.redeems ≠ some (marketId, account))
    (hearly : ∀ move ∈ moves, move.tooEarly marketId (h.state.markets marketId).resolutionTime) :
    (h.run c moves).gone marketId = false ∧
      ((h.run c moves).state.markets marketId).resolutionTime ≠ 0 ∧
      ((h.run c moves).state.markets marketId).claimUnits account =
        (h.state.markets marketId).claimUnits account := by
  induction moves generalizing h with
  | nil => exact ⟨hstays, hresolved, rfl⟩
  | cons move moves ih =>
      have hnext := next_resolved hs hkeccak move hstays hresolved (hearly move List.mem_cons_self)
      have hnone' (later : Move) (hmem : later ∈ moves) := hnone later (List.mem_cons_of_mem _ hmem)
      have hearly' (later : Move) (hmem : later ∈ moves) :=
        hearly later (List.mem_cons_of_mem _ hmem)
      obtain ⟨hstays', hsame | ⟨winner, hredeems, hpaid⟩⟩ := hnext
      · have hrest := ih (hs.next hkeccak move) hstays' (by rwa [hsame]) hnone' (by rwa [hsame])
        rwa [hsame] at hrest
      · have hother : account ≠ winner := by
          rintro rfl
          exact hnone move List.mem_cons_self hredeems
        have hrest := ih (hs.next hkeccak move) hstays' (by rwa [hpaid]) hnone' (by rwa [hpaid])
        rwa [hpaid, paid_claimUnits_of_ne _ hother] at hrest

theorem redeemable_of_sound (hs : h.Sound c supply) (hsupply : supply < 2 ^ 127)
    (hstays : h.gone marketId = false)
    (hresolved : (h.state.markets marketId).resolutionTime ≠ 0) {account : Address}
    (hunits : 0 < (h.state.markets marketId).claimUnits account) :
    Redeemable c h.state marketId account := by
  apply (redeemable_without hstays).mp
  apply redeemable_of_units hs.accounted hsupply
  · rwa [without_markets hstays]
  · rwa [without_markets hstays]

/-- The account, or the owner for it, can redeem its units at least. -/
def Claims (c : Chain) (marketId : Uint128) (account : Address) (s : State) : Prop :=
  (∀ env : Env, env.sender = account → ∃ s' payout gross,
    redeem c env marketId s = .ok (s', payout) ∧
    (s'.markets marketId).totalCollateralUsd + gross = (s.markets marketId).totalCollateralUsd ∧
    (s.markets marketId).claimUnits account ≤ gross) ∧
  ∀ env : Env, env.sender = s.owner → ∃ s' payout gross,
    redeemOnBehalfOfUser c env marketId account s = .ok (s', payout) ∧
    (s'.markets marketId).totalCollateralUsd + gross = (s.markets marketId).totalCollateralUsd ∧
    (s.markets marketId).claimUnits account ≤ gross

theorem claims_of_sound (hs : h.Sound c supply) (hsupply : supply < 2 ^ 127)
    (hstays : h.gone marketId = false)
    (hresolved : (h.state.markets marketId).resolutionTime ≠ 0) {account : Address}
    (hunits : 0 < (h.state.markets marketId).claimUnits account) :
    Claims c marketId account h.state := by
  have hredeemable := redeemable_of_sound hs hsupply hstays hresolved hunits
  have hentered : h.state.entered = false := hs.accounted.entered
  obtain ⟨hpot, _, hgross⟩ := redeemed_pays c (hs.market hstays) hresolved hunits
  constructor
  · rintro env rfl
    exact ⟨_, _, _, redeem_ok_iff.mpr ⟨hentered, hredeemable, rfl⟩, hpot, hgross⟩
  · intro env howner
    exact ⟨_, _, _, redeemOnBehalfOfUser_ok_iff.mpr ⟨howner, hentered, hredeemable, rfl⟩, hpot,
      hgross⟩

end Later

/-- What a sweep of a market does: it takes that pot to the owner, a year and a day after the
resolution. -/
structure SweepsPot (c : Chain) (env : Env) (marketId : Uint128) (s s' : State) : Prop where
  owner : env.sender = s.owner
  time : (s.markets marketId).resolutionTime + oneYear + oneDay ≤ env.timestamp
  resolved : (s.markets marketId).resolutionTime ≠ 0
  paid : s'.balanceOf = move s.balanceOf c.self s.owner (s.markets marketId).totalCollateralUsd
  swept : s'.markets marketId = { s.markets marketId with totalCollateralUsd := 0 }
  others : ∀ m ≠ marketId, s'.markets m = s.markets m

/-- Over every run of the legacy contract, with sweeps of old markets: the contract holds all pots;
a sweep takes one market's pot and touches no other; what was swept pays nobody any more; and the
other markets keep their accounts, where every winner can redeem, whatever is called meanwhile,
until the owner may sweep that market, a year and a day after its resolution. -/
theorem sweeps_spare_winners {c : Chain}
    (hkeccak : ∀ statement, c.keccak statement = c.keccak [] → statement = []) (sender : Address)
    (balanceOf : Address → Nat) (allowance : Address → Address → Nat)
    (hallowance : ∀ spender, allowance c.self spender = 0) (hsupply : total balanceOf < 2 ^ 127)
    (moves : List Move) :
    let h := History.run c ⟨deploy sender balanceOf allowance, fun _ => false⟩ moves
    h.state.pots ≤ h.state.balanceOf c.self ∧
    (∀ env marketId s', claimCollateralAfterOneYear c env marketId h.state = .ok s' →
      h.gone marketId = false ∧ SweepsPot c env marketId h.state s') ∧
    ∀ marketId,
      (h.gone marketId = true → (h.state.markets marketId).totalCollateralUsd = 0 ∧
        (∀ env r, redeem c env marketId h.state ≠ .ok r) ∧
        ∀ env account r, redeemOnBehalfOfUser c env marketId account h.state ≠ .ok r) ∧
      (h.gone marketId = false →
        ((h.state.markets marketId).resolutionTime = 0 →
          (h.state.markets marketId).totalCollateralUsd =
            (h.state.markets marketId).totalTokensOutstanding .yes +
              (h.state.markets marketId).totalTokensOutstanding .no) ∧
        ((h.state.markets marketId).resolutionTime ≠ 0 →
          total (h.state.markets marketId).claimUnits ≤
            (h.state.markets marketId).totalCollateralUsd ∧
          ∀ account, 0 < (h.state.markets marketId).claimUnits account → ∀ later,
            (∀ move ∈ later, move.redeems ≠ some (marketId, account)) →
            (∀ move ∈ later,
              move.tooEarly marketId (h.state.markets marketId).resolutionTime) →
            Claims c marketId account (h.run c later).state ∧
              ((h.run c later).state.markets marketId).claimUnits account =
                (h.state.markets marketId).claimUnits account)) := by
  intro h
  have hdeployed : History.Sound c (total balanceOf)
      ⟨deploy sender balanceOf allowance, fun _ => false⟩ :=
    ⟨deploy_accounted sender balanceOf hallowance, fun _ hgone => Bool.noConfusion hgone⟩
  have hs : h.Sound c (total balanceOf) := hdeployed.run hkeccak moves
  have hheld := hs.accounted.held
  rw [hs.pots] at hheld
  refine ⟨hheld, ?_, ?_⟩
  · intro env marketId s' hclaim
    obtain ⟨howner, hresolved, _, htime, hpot, _, rfl⟩ :=
      claimCollateralAfterOneYear_ok_iff.mp hclaim
    refine ⟨?_, howner, htime, hresolved.ne', rfl, setMarket_same _ _ _, ?_⟩
    · exact Bool.eq_false_iff.mpr fun hgone => hpot.ne' (hs.abandoned marketId hgone).empty
    · exact fun m hm => setMarket_of_ne _ hm _
  · intro marketId
    constructor
    · intro hgone
      have hempty := (hs.abandoned marketId hgone).empty
      refine ⟨hempty, ?_, ?_⟩
      · intro env r hok
        exact (redeem_ok_iff.mp hok).2.1.pot.ne' hempty
      · intro env account r hok
        exact (redeemOnBehalfOfUser_ok_iff.mp hok).2.2.1.pot.ne' hempty
    · intro hstays
      have hmarket := hs.market hstays
      refine ⟨hmarket.unresolved, ?_⟩
      intro hresolved
      refine ⟨hmarket.totalClaimUnits_eq ▸ (hmarket.resolved hresolved).2, ?_⟩
      intro account hunits later hnone hearly
      obtain ⟨hstays', hresolved', hkept⟩ :=
        run_keeps hs hkeccak hstays hresolved later hnone hearly
      have hunits' : 0 < ((h.run c later).state.markets marketId).claimUnits account := by
        rwa [hkept]
      exact ⟨claims_of_sound (hs.run hkeccak later) hsupply hstays' hresolved' hunits', hkept⟩

/-! ## A sample run -/

/-- Account 1 deploys and settles trades in the markets 7 and 8, resolves both, and sweeps the
market 8 a year and a day later. -/
def sampleMoves : List Move :=
  (sampleTxs.map Move.call) ++
    [.call ⟨sampleEnv 1, .createNewMarket 8 [66]⟩,
      .call ⟨sampleEnv 1, .posColToksOnBehalfAtomic 8 (sampleSlot 5) (sampleSlot 6)⟩,
      .call ⟨sampleEnv 1, .resolveMarket 8 true⟩,
      .claimCollateralAfterOneYear { sampleEnv 1 with timestamp := 40000000 } 8]

/-- The owner then resolves the market 7 again and tries to sweep it. -/
def sampleLater : List Move :=
  [.call ⟨sampleEnv 1, .resolveMarket 7 false⟩, .claimCollateralAfterOneYear (sampleEnv 1) 7]

theorem sweeps_spare_winners_sample :
    let h := History.run sampleChain ⟨deploy 1 sampleLedger sampleAllowance, fun _ => false⟩
      sampleMoves
    h.state.balanceOf 1 = 200 ∧ (∀ env r, redeem sampleChain env 8 h.state ≠ .ok r) ∧
      Claims sampleChain 7 5 (h.run sampleChain sampleLater).state := by
  intro h
  obtain ⟨_, _, hmarkets⟩ := sweeps_spare_winners sampleChain_keccak 1 sampleLedger sampleAllowance
    (fun _ => rfl) (total_pair_lt rfl (by decide)) sampleMoves
  obtain ⟨_, hswept, _⟩ := (hmarkets 8).1 (by decide +kernel)
  obtain ⟨_, hresolved⟩ := (hmarkets 7).2 (by decide +kernel)
  obtain ⟨_, hclaims⟩ := hresolved (by decide +kernel)
  have hclaim := hclaims 5 (by decide +kernel) sampleLater (by decide +kernel) (by
    intro move hmem
    obtain rfl | rfl := List.mem_pair.mp hmem
    · trivial
    · exact fun _ => by decide +kernel)
  exact ⟨by decide +kernel, hswept, hclaim.1⟩

end PrismBackend.PrismV1
