import PrismBackend.PrismV1.Effects

/-!
# Prism: accounting

Before its resolution a market holds one unit of collateral for each position
token, and afterwards at least one for each winning token. The contract holds
the pots of all markets.
-/

namespace PrismBackend.PrismV1

open PrismBackend.Lib
open PrismBackend.PrismV2 (Address Uint128 Bytes Side)

/-! ## Winning units -/

namespace Market

variable (market : Market)

theorem winning_le (amounts : Side → Nat) :
    market.winning amounts ≤ amounts .yes + amounts .no := by
  unfold winning
  split <;> split <;> omega

theorem winning_sub {amounts taken : Side → Nat} (h : ∀ side, taken side ≤ amounts side) :
    (market.winning fun side => amounts side - taken side) =
      market.winning amounts - market.winning taken := by
  have hyes := h .yes
  have hno := h .no
  simp only [winning]
  split <;> split <;> omega

theorem winning_mono {amounts bounds : Side → Nat} (h : ∀ side, amounts side ≤ bounds side) :
    market.winning amounts ≤ market.winning bounds := by
  have hyes := h .yes
  have hno := h .no
  unfold winning
  split <;> split <;> omega

theorem total_claimUnits :
    total market.claimUnits = market.winning fun side => total (market.tokens side) := by
  change total (fun account => market.winning fun side => market.tokens side account) = _
  unfold winning
  rw [total_add]
  congr 1
  · cases market.wins .yes with
    | true => rfl
    | false => exact total_zero
  · cases market.wins .no with
    | true => rfl
    | false => exact total_zero

end Market

/-! ## One market -/

structure Market.Accounted (market : Market) : Prop where
  outstanding : ∀ side, market.totalTokensOutstanding side = total (market.tokens side)
  fresh : market.statement = [] → market.resolutionTime = 0 ∧ market.totalCollateralUsd = 0
  unresolved : market.resolutionTime = 0 →
    market.totalCollateralUsd =
      market.totalTokensOutstanding .yes + market.totalTokensOutstanding .no
  resolved : market.resolutionTime ≠ 0 →
    market.outcome ≤ 2 ∧ market.totalClaimUnits ≤ market.totalCollateralUsd

namespace Market.Accounted

variable {market : Market}

theorem held_le (h : market.Accounted) (side : Side) (account : Address) :
    market.tokens side account ≤ market.totalTokensOutstanding side := by
  rw [h.outstanding side]
  exact le_total _ account

theorem claimUnits_le (h : market.Accounted) (account : Address) :
    market.claimUnits account ≤ market.totalClaimUnits :=
  market.winning_mono fun side => h.held_le side account

theorem totalClaimUnits_eq (h : market.Accounted) :
    market.totalClaimUnits = total market.claimUnits := by
  rw [market.total_claimUnits, Market.totalClaimUnits]
  congr 1
  ext side
  exact h.outstanding side

/-- A change of one cell changes the total of its side alone. -/
theorem outstanding_update (h : market.Accounted) (side : Side) (account : Address)
    {held outstanding : Nat}
    (hchange : outstanding + market.tokens side account =
      market.totalTokensOutstanding side + held) (side' : Side) :
    Function.update market.totalTokensOutstanding side outstanding side' =
      total (update₂ market.tokens side account held side') := by
  have houtstanding := h.outstanding side
  have htotal := total_update (market.tokens side) account held
  by_cases hside : side' = side
  · subst hside
    rw [Function.update_self, update₂_row]
    omega
  · rw [Function.update_of_ne hside, update₂_of_ne _ hside, h.outstanding]

theorem sold (h : market.Accounted) (hopen : market.resolutionTime = 0)
    (hstated : 0 < market.statement.length) {side : Side} {seller : Address} {amount : Nat}
    (hheld : amount ≤ market.tokens side seller) : (market.sold side seller amount).Accounted := by
  have hle := h.held_le side seller
  have hpot := h.unresolved hopen
  constructor
  · exact h.outstanding_update side seller (by omega)
  · intro hempty
    change market.statement = [] at hempty
    rw [hempty] at hstated
    cases hstated
  · intro _
    cases side <;> simp [Market.sold] <;> omega
  · intro hresolved
    exact absurd hopen hresolved

theorem bought (h : market.Accounted) (hopen : market.resolutionTime = 0)
    (hstated : 0 < market.statement.length) (side : Side) (buyer : Address) (amount : Nat) :
    (market.bought side buyer amount).Accounted := by
  have hpot := h.unresolved hopen
  constructor
  · exact h.outstanding_update side buyer (by omega)
  · intro hempty
    change market.statement = [] at hempty
    rw [hempty] at hstated
    cases hstated
  · intro _
    cases side <;> simp [Market.bought] <;> omega
  · intro hresolved
    exact absurd hopen hresolved

theorem resolve (h : market.Accounted) (hopen : market.resolutionTime = 0)
    (hstated : 0 < market.statement.length) {outcome : Nat} (houtcome : outcome ≤ 2)
    (resolutionTime : Nat) : Market.Accounted { market with outcome, resolutionTime } := by
  have hpot := h.unresolved hopen
  constructor
  · exact h.outstanding
  · intro hempty
    change market.statement = [] at hempty
    rw [hempty] at hstated
    cases hstated
  · intro _
    exact hpot
  · intro _
    refine ⟨houtcome, ?_⟩
    have hle := Market.winning_le { market with outcome, resolutionTime }
      market.totalTokensOutstanding
    change Market.winning _ market.totalTokensOutstanding ≤ market.totalCollateralUsd
    omega

/-- A market without a statement is created anew as it was. -/
theorem created (h : market.Accounted) (hempty : market.statement = []) (statement : Bytes) :
    (market.created statement).Accounted := by
  obtain ⟨hopen, hpot⟩ := h.fresh hempty
  have hsum := h.unresolved hopen
  constructor
  · intro side
    change 0 = total (market.tokens side)
    rw [← h.outstanding side]
    cases side <;> omega
  · intro _
    exact ⟨rfl, rfl⟩
  · intro _
    rfl
  · intro hresolved
    exact absurd rfl hresolved

theorem cleared_totalClaimUnits (h : market.Accounted) (winner : Address) :
    (market.cleared winner).totalClaimUnits =
      market.totalClaimUnits - market.claimUnits winner :=
  market.winning_sub fun side => h.held_le side winner

theorem redeemed (h : market.Accounted) (hresolved : market.resolutionTime ≠ 0)
    (winner : Address) : (market.paid winner).Accounted := by
  obtain ⟨houtcome, hpot⟩ := h.resolved hresolved
  constructor
  · intro side
    have htotal := total_update (market.tokens side) winner 0
    have houtstanding := h.outstanding side
    have hheld := h.held_le side winner
    change market.totalTokensOutstanding side - market.tokens side winner =
      total (Function.update (market.tokens side) winner 0)
    omega
  · intro hempty
    exact absurd (h.fresh hempty).1 hresolved
  · intro hopen
    exact absurd hopen hresolved
  · intro _
    refine ⟨houtcome, ?_⟩
    change (market.cleared winner).totalClaimUnits ≤ _
    rw [h.cleared_totalClaimUnits winner]
    exact sub_le_sub_proRata hpot (h.claimUnits_le winner)

end Market.Accounted

/-! ## The contract -/

def State.pots (s : State) : Nat := total fun marketId => (s.markets marketId).totalCollateralUsd

structure Accounted (c : Chain) (supply : Nat) (s : State) : Prop where
  entered : s.entered = false
  rake : s.rakePercentScaled100 ≤ 10000
  allowance : ∀ spender, s.allowance c.self spender = 0
  supply : total s.balanceOf = supply
  market : ∀ marketId, (s.markets marketId).Accounted
  held : s.pots ≤ s.balanceOf c.self

theorem pot_le_pots (s : State) (marketId : Uint128) :
    (s.markets marketId).totalCollateralUsd ≤ s.pots :=
  le_total (fun m => (s.markets m).totalCollateralUsd) marketId

theorem pots_setMarket (s : State) (marketId : Uint128) (market : Market) :
    (s.setMarket marketId market).pots + (s.markets marketId).totalCollateralUsd =
      s.pots + market.totalCollateralUsd := by
  have htotal := total_update (fun m => (s.markets m).totalCollateralUsd) marketId
    market.totalCollateralUsd
  have hpots : (s.setMarket marketId market).pots =
      total (Function.update (fun m => (s.markets m).totalCollateralUsd) marketId
        market.totalCollateralUsd) := by
    unfold State.pots State.setMarket
    congr 1
    ext m
    by_cases hm : m = marketId
    · subst hm
      simp
    · simp [hm]
  rw [hpots]
  exact htotal

theorem setMarket_accounted {s : State} (h : ∀ m, (s.markets m).Accounted) (marketId : Uint128)
    {market : Market} (hmarket : market.Accounted) (m : Uint128) :
    ((s.setMarket marketId market).markets m).Accounted := by
  by_cases hm : m = marketId
  · rw [hm, setMarket_same]
    exact hmarket
  · rw [setMarket_of_ne s hm]
    exact h m

theorem sub_le_move {source : Address} {f : Address → Nat} {amount : Nat}
    (hfunded : amount ≤ f source) {target : Address} :
    f source - amount ≤ move f source target amount source := by
  by_cases hsame : source = target
  · subst hsame
    rw [move_self f source hfunded]
    omega
  · rw [move_source f hsame]

namespace Accounted

variable {c : Chain} {supply : Nat} {s : State}

/-- Only an account other than the contract can have allowed an amount that is not zero, so the
contract is given what is pulled. -/
theorem pulled_balance (h : Accounted c supply s) {source : Address} {amount : Nat}
    (hallowed : amount ≤ s.allowance source c.self) :
    (s.pulled c source c.self amount).balanceOf c.self = s.balanceOf c.self + amount := by
  unfold State.pulled
  by_cases hself : source = c.self
  · subst hself
    have hzero : amount = 0 := by
      rw [h.allowance] at hallowed
      omega
    rw [hzero, move_zero, Nat.add_zero]
  · exact move_target s.balanceOf hself amount

theorem spend_allowance (h : Accounted c supply s) (source : Address) (amount : Nat)
    (spender : Address) :
    update₂ s.allowance source c.self (spend (s.allowance source c.self) amount) c.self spender =
      0 := by
  rw [update₂_apply]
  split
  case isTrue hcell =>
    rw [← hcell.1, h.allowance, spend, if_neg (by decide), Nat.zero_sub]
  case isFalse => exact h.allowance spender

theorem slot (h : Accounted c supply s) {marketId : Uint128} {amount : Nat} {s' : State}
    (heffect : SlotEffect c marketId amount s s')
    (hopen : (s.markets marketId).resolutionTime = 0)
    (hstated : 0 < (s.markets marketId).statement.length) : Accounted c supply s' := by
  have hheld := h.held
  cases heffect with
  | sold side seller htokens _ hpot hfunded =>
      have hpots := pots_setMarket s marketId ((s.markets marketId).sold side seller amount)
      have hmove : s.balanceOf c.self - amount ≤ move s.balanceOf c.self seller amount c.self :=
        sub_le_move hfunded
      change _ = s.pots + ((s.markets marketId).totalCollateralUsd - amount) at hpots
      constructor
      · exact h.entered
      · exact h.rake
      · exact h.allowance
      · exact (total_move s.balanceOf hfunded).trans h.supply
      · exact setMarket_accounted h.market marketId
          ((h.market marketId).sold hopen hstated htokens)
      · change (s.setMarket marketId _).pots ≤ move s.balanceOf c.self seller amount c.self
        omega
  | bought side buyer hallowed hfunded =>
      have hpots := pots_setMarket s marketId ((s.markets marketId).bought side buyer amount)
      have hbalance := h.pulled_balance hallowed
      change _ = s.pots + ((s.markets marketId).totalCollateralUsd + amount) at hpots
      constructor
      · exact h.entered
      · exact h.rake
      · exact h.spend_allowance buyer amount
      · exact (total_move s.balanceOf hfunded).trans h.supply
      · exact setMarket_accounted h.market marketId
          ((h.market marketId).bought hopen hstated side buyer amount)
      · change (s.setMarket marketId _).pots ≤ (s.pulled c buyer c.self amount).balanceOf c.self
        omega

theorem created (h : Accounted c supply s) {marketId : Uint128} {sender : Address} {fee : Nat}
    (statement : Bytes) (hempty : (s.markets marketId).statement = [])
    (hallowed : fee ≤ s.allowance sender c.self) (hfunded : fee ≤ s.balanceOf sender)
    (hforwarded : fee ≤ (s.pulled c sender c.self fee).balanceOf c.self) (target : Address) :
    Accounted c supply
      (((s.pulled c sender c.self fee).transferred c.self target fee).setMarket marketId
        ((s.markets marketId).created statement)) := by
  have hheld := h.held
  have hbalance := h.pulled_balance hallowed
  have hpots := pots_setMarket s marketId ((s.markets marketId).created statement)
  have hmove : (s.pulled c sender c.self fee).balanceOf c.self - fee ≤
      move (s.pulled c sender c.self fee).balanceOf c.self target fee c.self :=
    sub_le_move hforwarded
  change _ = s.pots + 0 at hpots
  constructor
  · exact h.entered
  · exact h.rake
  · exact h.spend_allowance sender fee
  · calc total (move (s.pulled c sender c.self fee).balanceOf c.self target fee)
        = total (move s.balanceOf sender c.self fee) := total_move _ hforwarded
      _ = total s.balanceOf := total_move _ hfunded
      _ = supply := h.supply
  · exact setMarket_accounted h.market marketId ((h.market marketId).created hempty statement)
  · change (s.setMarket marketId _).pots ≤
      move (s.pulled c sender c.self fee).balanceOf c.self target fee c.self
    omega

theorem redeemed (h : Accounted c supply s) {marketId : Uint128} {winner : Address}
    (hredeemable : Redeemable c s marketId winner) :
    Accounted c supply (s.redeemed c marketId winner) := by
  have hheld := h.held
  have hpots := pots_setMarket s marketId ((s.markets marketId).paid winner)
  have hgross := hredeemable.grossPot
  have hrake := hredeemable.rake
  have hpot := pot_le_pots s marketId
  have hfirst : s.balanceOf c.self - s.rakeAmount ((s.markets marketId).grossWinnings winner) ≤
      move s.balanceOf c.self s.owner
        (s.rakeAmount ((s.markets marketId).grossWinnings winner)) c.self :=
    sub_le_move hredeemable.rakeFunded
  have hsecond : _ ≤ (s.redeemed c marketId winner).balanceOf c.self :=
    sub_le_move hredeemable.payoutFunded
  change _ = s.pots +
    ((s.markets marketId).totalCollateralUsd - (s.markets marketId).grossWinnings winner) at hpots
  constructor
  · exact h.entered
  · exact h.rake
  · exact h.allowance
  · calc total (s.redeemed c marketId winner).balanceOf
        = total (move s.balanceOf c.self s.owner
            (s.rakeAmount ((s.markets marketId).grossWinnings winner))) :=
          total_move _ hredeemable.payoutFunded
      _ = total s.balanceOf := total_move _ hredeemable.rakeFunded
      _ = supply := h.supply
  · exact setMarket_accounted h.market marketId
      ((h.market marketId).redeemed hredeemable.resolved.ne' winner)
  · change (s.setMarket marketId _).pots ≤ _
    omega

theorem effect (h : Accounted c supply s)
    (hkeccak : ∀ statement, c.keccak statement = c.keccak [] → statement = []) {tx : Tx}
    {s' : State} (heffect : Effect c tx s s') : Accounted c supply s' := by
  cases heffect with
  | configure _ hmarkets hentered hbalance hallowance hrake =>
      have hpots : s'.pots = s.pots := by rw [State.pots, hmarkets, State.pots]
      have hold := h.rake
      constructor
      · rw [hentered]
        exact h.entered
      · omega
      · rw [hallowance]
        exact h.allowance
      · rw [hbalance]
        exact h.supply
      · rw [hmarkets]
        exact h.market
      · rw [hpots, hbalance]
        exact h.held
  | create marketId statement _ hfree hallowed hfunded hforwarded _ =>
      exact h.created statement (hkeccak _ hfree) hallowed hfunded hforwarded s.owner
  | settle marketId amount _ hopen hstated hslot0 hslot1 =>
      obtain ⟨hstatement, htime, _⟩ := hslot0.frame
      apply (h.slot hslot0 hopen hstated).slot hslot1
      · rw [htime]
        exact hopen
      · rw [hstatement]
        exact hstated
  | resolve marketId outcome _ houtcome hopen hstated =>
      have hpots := pots_setMarket s marketId
        { s.markets marketId with outcome, resolutionTime := tx.env.timestamp }
      have hheld := h.held
      change _ = s.pots + (s.markets marketId).totalCollateralUsd at hpots
      constructor
      · exact h.entered
      · exact h.rake
      · exact h.allowance
      · exact h.supply
      · exact setMarket_accounted h.market marketId
          ((h.market marketId).resolve hopen hstated houtcome tx.env.timestamp)
      · change (s.setMarket marketId _).pots ≤ s.balanceOf c.self
        omega
  | redeem marketId winner _ hredeemable => exact h.redeemed hredeemable
  | tokenTransfer source target amount _ hsource hfunded =>
      have hheld : s.balanceOf c.self ≤ move s.balanceOf source target amount c.self :=
        le_move s.balanceOf (Ne.symm hsource) amount
      exact ⟨h.entered, h.rake, h.allowance, (total_move _ hfunded).trans h.supply, h.market,
        h.held.trans hheld⟩
  | tokenApprove holder spender amount _ hholder =>
      have hrow : update₂ s.allowance holder spender amount c.self = s.allowance c.self :=
        update₂_of_ne _ (Ne.symm hholder) spender amount
      refine ⟨h.entered, h.rake, ?_, h.supply, h.market, h.held⟩
      intro spender'
      change update₂ s.allowance holder spender amount c.self spender' = 0
      rw [hrow]
      exact h.allowance spender'

theorem apply (h : Accounted c supply s)
    (hkeccak : ∀ statement, c.keccak statement = c.keccak [] → statement = []) (tx : Tx) :
    Accounted c supply (PrismV1.apply c s tx) := by
  unfold PrismV1.apply
  cases hexec : exec c tx s with
  | error e => exact h
  | ok s' => exact h.effect hkeccak (exec_effect hexec)

theorem run (h : Accounted c supply s)
    (hkeccak : ∀ statement, c.keccak statement = c.keccak [] → statement = []) (txs : List Tx) :
    Accounted c supply (PrismV1.run c s txs) := by
  induction txs generalizing s with
  | nil => exact h
  | cons tx txs ih => exact ih (h.apply hkeccak tx)

end Accounted

theorem deploy_accounted {c : Chain} (sender : Address) (balanceOf : Address → Nat)
    {allowance : Address → Address → Nat} (hallowance : ∀ spender, allowance c.self spender = 0) :
    Accounted c (total balanceOf) (deploy sender balanceOf allowance) := by
  have hpots : (deploy sender balanceOf allowance).pots = 0 := total_zero
  constructor
  · rfl
  · change 200 ≤ 10000
    omega
  · exact hallowance
  · rfl
  · intro marketId
    constructor
    · intro side
      exact total_zero.symm
    · intro _
      exact ⟨rfl, rfl⟩
    · intro _
      rfl
    · intro hresolved
      exact absurd rfl hresolved
  · rw [hpots]
    exact Nat.zero_le _

end PrismBackend.PrismV1
