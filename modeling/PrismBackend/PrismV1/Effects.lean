import PrismBackend.Lib.ProRata
import PrismBackend.PrismV1.Contract

/-!
# Prism: what a call can do

For each function of the legacy contract, what it checks and which state it returns.
-/

namespace PrismBackend.PrismV1

open PrismBackend.Lib
open PrismBackend.PrismV2 (Address Uint128 Bytes Side)

@[simp] theorem require_ok_iff {condition : Prop} [Decidable condition] {message : String}
    {u : Unit} : require condition message = .ok u ↔ condition := by
  rw [require, revertIf_ok_iff, not_not]

/-! ## The collateral token -/

def State.transferred (s : State) (source target : Address) (amount : Nat) : State :=
  { s with balanceOf := move s.balanceOf source target amount }

def State.pulled (s : State) (c : Chain) (source target : Address) (amount : Nat) : State :=
  { s with
    allowance := update₂ s.allowance source c.self (spend (s.allowance source c.self) amount)
    balanceOf := move s.balanceOf source target amount }

@[simp] theorem transfer_ok_iff {s s' : State} {source target : Address} {amount : Nat}
    {message : String} :
    transfer s source target amount message = .ok s' ↔
      amount ≤ s.balanceOf source ∧ s' = s.transferred source target amount := by
  simp only [transfer, bind_ok_iff, require_ok_iff, exists_const, Except.ok.injEq]
  rw [eq_comm (a := s')]
  rfl

@[simp] theorem transferFrom_ok_iff {c : Chain} {s s' : State} {source target : Address}
    {amount : Nat} {message : String} :
    transferFrom c s source target amount message = .ok s' ↔
      amount ≤ s.allowance source c.self ∧ amount ≤ s.balanceOf source ∧
        s' = s.pulled c source target amount := by
  simp only [transferFrom, bind_ok_iff, require_ok_iff, exists_const, transfer_ok_iff]
  rfl

@[simp] theorem setMarket_same (s : State) (marketId : Uint128) (market : Market) :
    (s.setMarket marketId market).markets marketId = market := by
  simp [State.setMarket]

theorem setMarket_of_ne (s : State) {marketId m : Uint128} (h : m ≠ marketId) (market : Market) :
    (s.setMarket marketId market).markets m = s.markets m := by
  simp [State.setMarket, h]

/-! ## The two branches of a slot -/

def Market.sold (market : Market) (side : Side) (seller : Address) (amount : Nat) : Market :=
  { market with
    totalCollateralUsd := market.totalCollateralUsd - amount
    totalTokensOutstanding :=
      Function.update market.totalTokensOutstanding side
        (market.totalTokensOutstanding side - amount)
    tokens := update₂ market.tokens side seller (market.tokens side seller - amount) }

def Market.bought (market : Market) (side : Side) (buyer : Address) (amount : Nat) : Market :=
  { market with
    totalCollateralUsd := market.totalCollateralUsd + amount
    totalTokensOutstanding :=
      Function.update market.totalTokensOutstanding side
        (market.totalTokensOutstanding side + amount)
    tokens := update₂ market.tokens side buyer (market.tokens side buyer + amount) }

/-- One slot of a settlement: tokens of a side are sold or bought. -/
inductive SlotEffect (c : Chain) (marketId : Uint128) (amount : Nat) (s : State) : State → Prop
  | sold (side : Side) (seller : Address)
      (hheld : amount ≤ (s.markets marketId).tokens side seller)
      (houtstanding : amount ≤ (s.markets marketId).totalTokensOutstanding side)
      (hpot : amount ≤ (s.markets marketId).totalCollateralUsd)
      (hfunded : amount ≤ s.balanceOf c.self) :
      SlotEffect c marketId amount s
        ((s.setMarket marketId ((s.markets marketId).sold side seller amount)).transferred c.self
          seller amount)
  | bought (side : Side) (buyer : Address) (hallowed : amount ≤ s.allowance buyer c.self)
      (hfunded : amount ≤ s.balanceOf buyer) :
      SlotEffect c marketId amount s
        ((s.pulled c buyer c.self amount).setMarket marketId
          ((s.markets marketId).bought side buyer amount))

/-- A slot leaves the status of its market, and the other markets. -/
theorem SlotEffect.frame {c : Chain} {marketId : Uint128} {amount : Nat} {s s' : State}
    (h : SlotEffect c marketId amount s s') :
    (s'.markets marketId).statement = (s.markets marketId).statement ∧
      (s'.markets marketId).resolutionTime = (s.markets marketId).resolutionTime ∧
      ∀ m ≠ marketId, s'.markets m = s.markets m := by
  cases h with
  | sold side seller =>
      have hsame := setMarket_same s marketId ((s.markets marketId).sold side seller amount)
      have hstatement := congrArg Market.statement hsame
      have htime := congrArg Market.resolutionTime hsame
      exact ⟨hstatement, htime, fun m hm => setMarket_of_ne s hm _⟩
  | bought side buyer =>
      have hsame := setMarket_same (s.pulled c buyer c.self amount) marketId
        ((s.markets marketId).bought side buyer amount)
      have hstatement := congrArg Market.statement hsame
      have htime := congrArg Market.resolutionTime hsame
      exact ⟨hstatement, htime,
        fun m hm => setMarket_of_ne (s.pulled c buyer c.self amount) hm _⟩

theorem sell_effect {c : Chain} {marketId : Uint128} {side : Side} {seller : Address}
    {amount : Nat} {s s' : State} (h : sell c marketId side seller amount s = .ok s') :
    SlotEffect c marketId amount s s' := by
  simp only [sell, sub256, bind_ok_iff, require_ok_iff, checkedSub_ok_iff, transfer_ok_iff,
    exists_const] at h
  obtain ⟨hheld, _, ⟨_, rfl⟩, _, ⟨houtstanding, rfl⟩, hpot, _, ⟨_, rfl⟩, hfunded, rfl⟩ := h
  exact .sold side seller hheld houtstanding hpot hfunded

theorem buy_effect {c : Chain} {marketId : Uint128} {side : Side} {buyer : Address}
    {amount : Nat} {s s' : State} (h : buy c marketId side buyer amount s = .ok s') :
    SlotEffect c marketId amount s s' := by
  simp only [buy, add256, bind_ok_iff, checkedAdd_ok_iff, transferFrom_ok_iff,
    Except.ok.injEq] at h
  obtain ⟨_, ⟨hallowed, hfunded, rfl⟩, _, ⟨_, rfl⟩, _, ⟨_, rfl⟩, _, ⟨_, rfl⟩, rfl⟩ := h
  exact .bought side buyer hallowed hfunded

/-! ## Claims -/

def Market.wins (market : Market) : Side → Bool
  | .yes => market.outcome == 1 || market.outcome == 2
  | .no => market.outcome == 0 || market.outcome == 2

def Market.winning (market : Market) (amounts : Side → Nat) : Nat :=
  (if market.wins .yes then amounts .yes else 0) + (if market.wins .no then amounts .no else 0)

def Market.claimUnits (market : Market) (winner : Address) : Nat :=
  market.winning fun side => market.tokens side winner

def Market.totalClaimUnits (market : Market) : Nat :=
  market.winning market.totalTokensOutstanding

theorem claim_ok_iff {market : Market} {winner : Address} {r : Nat × Nat} :
    market.claim winner = .ok r ↔
      market.outcome ≤ 2 ∧ (market.outcome = 2 →
        market.claimUnits winner < 2 ^ 256 ∧ market.totalClaimUnits < 2 ^ 256) ∧
      r = (market.claimUnits winner, market.totalClaimUnits) := by
  unfold Market.claim Market.claimUnits Market.totalClaimUnits Market.winning Market.wins
  by_cases hyes : market.outcome = 1
  · simp [hyes, eq_comm]
  by_cases hno : market.outcome = 0
  · simp [hno, eq_comm]
  by_cases hboth : market.outcome = 2
  · rw [if_neg hyes, if_neg hno, if_pos hboth]
    simp only [add256, bind_ok_iff, checkedAdd_ok_iff, Except.ok.injEq]
    simp only [hboth]
    constructor
    · rintro ⟨_, ⟨hclaim, rfl⟩, _, ⟨htotal, rfl⟩, rfl⟩
      exact ⟨le_rfl, fun _ => ⟨hclaim, htotal⟩, rfl⟩
    · rintro ⟨_, hfit, rfl⟩
      exact ⟨_, ⟨(hfit trivial).1, rfl⟩, _, ⟨(hfit trivial).2, rfl⟩, rfl⟩
  · simp only [hyes, hno, hboth, if_false, false_implies, true_and]
    constructor
    · intro h
      cases h
    · intro h
      omega

/-! ## Redemption -/

def Market.grossWinnings (market : Market) (winner : Address) : Nat :=
  proRata market.totalCollateralUsd market.totalClaimUnits (market.claimUnits winner)

def State.rakeAmount (s : State) (grossWinnings : Nat) : Nat :=
  grossWinnings * s.rakePercentScaled100 / 10000

def Market.cleared (market : Market) (winner : Address) : Market :=
  { market with
    totalTokensOutstanding :=
      fun side => market.totalTokensOutstanding side - market.tokens side winner
    tokens := fun side => Function.update (market.tokens side) winner 0 }

def Market.paid (market : Market) (winner : Address) : Market :=
  { market.cleared winner with
    totalCollateralUsd := market.totalCollateralUsd - market.grossWinnings winner }

def State.redeemed (s : State) (c : Chain) (marketId : Uint128) (winner : Address) : State :=
  let grossWinnings := (s.markets marketId).grossWinnings winner
  let rakeAmount := s.rakeAmount grossWinnings
  ((s.transferred c.self s.owner rakeAmount).transferred c.self winner
    (grossWinnings - rakeAmount)).setMarket marketId ((s.markets marketId).paid winner)

/-- What `redeemInternal` checks. -/
structure Redeemable (c : Chain) (s : State) (marketId : Uint128) (winner : Address) : Prop where
  resolved : 0 < (s.markets marketId).resolutionTime
  outcome : (s.markets marketId).outcome ≤ 2
  unitsFit : (s.markets marketId).outcome = 2 →
    (s.markets marketId).claimUnits winner < 2 ^ 256 ∧
      (s.markets marketId).totalClaimUnits < 2 ^ 256
  units : 0 < (s.markets marketId).claimUnits winner
  supply : (s.markets marketId).claimUnits winner ≤ (s.markets marketId).totalClaimUnits
  pot : 0 < (s.markets marketId).totalCollateralUsd
  productFits : (s.markets marketId).claimUnits winner ≠ (s.markets marketId).totalClaimUnits →
    (s.markets marketId).totalCollateralUsd * (s.markets marketId).claimUnits winner < 2 ^ 256
  gross : 0 < (s.markets marketId).grossWinnings winner
  rakeFits : (s.markets marketId).grossWinnings winner * s.rakePercentScaled100 < 2 ^ 256
  rake : s.rakeAmount ((s.markets marketId).grossWinnings winner) ≤
    (s.markets marketId).grossWinnings winner
  balance : (s.markets marketId).totalCollateralUsd ≤ s.balanceOf c.self
  rakeFunded : s.rakeAmount ((s.markets marketId).grossWinnings winner) ≤ s.balanceOf c.self
  payoutFunded : (s.markets marketId).grossWinnings winner -
      s.rakeAmount ((s.markets marketId).grossWinnings winner) ≤
    move s.balanceOf c.self s.owner
      (s.rakeAmount ((s.markets marketId).grossWinnings winner)) c.self
  outstanding : ∀ side, (s.markets marketId).tokens side winner ≤
    (s.markets marketId).totalTokensOutstanding side
  grossPot : (s.markets marketId).grossWinnings winner ≤ (s.markets marketId).totalCollateralUsd

theorem clear_ok_iff {market market' : Market} {side : Side} {winner : Address} :
    market.clear side winner = .ok market' ↔
      market.tokens side winner ≤ market.totalTokensOutstanding side ∧
      market' = { market with
        totalTokensOutstanding := Function.update market.totalTokensOutstanding side
          (market.totalTokensOutstanding side - market.tokens side winner)
        tokens := update₂ market.tokens side winner 0 } := by
  by_cases hpos : 0 < market.tokens side winner
  · simp only [Market.clear, hpos, if_true, sub256, bind_ok_iff, checkedSub_ok_iff,
      Except.ok.injEq]
    constructor
    · rintro ⟨_, ⟨hle, rfl⟩, rfl⟩
      exact ⟨hle, rfl⟩
    · rintro ⟨hle, rfl⟩
      exact ⟨_, ⟨hle, rfl⟩, rfl⟩
  · have hnone : market.tokens side winner = 0 := by omega
    have htokens : update₂ market.tokens side winner 0 = market.tokens := by
      rw [← hnone, update₂_eq_self]
    simp only [Market.clear, hpos, if_false]
    rw [htokens, hnone, Nat.sub_zero, Function.update_eq_self, Except.ok.injEq, eq_comm]
    simp

theorem clear_clear_ok_iff {market market' : Market} {winner : Address} :
    (market.clear .yes winner >>= fun market => market.clear .no winner) = .ok market' ↔
      (∀ side, market.tokens side winner ≤ market.totalTokensOutstanding side) ∧
        market' = market.cleared winner := by
  simp only [bind_ok_iff, clear_ok_iff]
  have hcleared (first : Market) (hfirst : first = { market with
        totalTokensOutstanding := Function.update market.totalTokensOutstanding .yes
          (market.totalTokensOutstanding .yes - market.tokens .yes winner)
        tokens := update₂ market.tokens .yes winner 0 }) :
      first.tokens .no = market.tokens .no ∧
        first.totalTokensOutstanding .no = market.totalTokensOutstanding .no ∧
        { first with
          totalTokensOutstanding := Function.update first.totalTokensOutstanding .no
            (first.totalTokensOutstanding .no - first.tokens .no winner)
          tokens := update₂ first.tokens .no winner 0 } = market.cleared winner := by
    subst hfirst
    have hno : Side.no ≠ Side.yes := by decide
    refine ⟨update₂_of_ne _ hno winner 0, by simp, ?_⟩
    simp only [Market.cleared, update₂_of_ne _ hno]
    congr 1
    · ext side
      cases side <;> simp
    · ext side account
      cases side <;> simp [update₂]
  constructor
  · rintro ⟨first, ⟨hyes, hfirst⟩, hno, rfl⟩
    have hsame := hcleared first hfirst
    refine ⟨?_, hsame.2.2⟩
    intro side
    cases side with
    | yes => exact hyes
    | no =>
        rw [hsame.1, hsame.2.1] at hno
        exact hno
  · rintro ⟨hheld, rfl⟩
    have hsame := hcleared _ rfl
    refine ⟨_, ⟨hheld .yes, rfl⟩, ?_, hsame.2.2.symm⟩
    rw [hsame.1, hsame.2.1]
    exact hheld .no

theorem mul_div_ok_iff {x y d z : Nat} :
    (mul256 x y).map (· / d) = .ok z ↔ x * y < 2 ^ 256 ∧ z = x * y / d := by
  unfold mul256 checkedMul
  split
  case isTrue h =>
    constructor
    · intro heq
      exact ⟨h, (Except.ok.inj heq).symm⟩
    · intro heq
      exact congrArg Except.ok heq.2.symm
  case isFalse h =>
    constructor
    · intro heq
      nomatch heq
    · intro heq
      exact absurd heq.1 h

theorem share_ok_iff {market : Market} {units total gross : Nat} :
    market.share units total = .ok gross ↔
      (units ≠ total → market.totalCollateralUsd * units < 2 ^ 256) ∧
        gross = proRata market.totalCollateralUsd total units := by
  unfold Market.share proRata
  split
  case isTrue hall => simp [hall, eq_comm]
  case isFalse hsome =>
    rw [mul_div_ok_iff]
    simp [hsome]

theorem redeemInternal_ok_iff {c : Chain} {marketId : Uint128} {winner : Address} {s : State}
    {r : State × Nat} :
    redeemInternal c marketId winner s = .ok r ↔
      Redeemable c s marketId winner ∧
        r = (s.redeemed c marketId winner,
          (s.markets marketId).grossWinnings winner -
            s.rakeAmount ((s.markets marketId).grossWinnings winner)) := by
  simp only [redeemInternal, bind_ok_iff, require_ok_iff, claim_ok_iff, share_ok_iff,
    mul_div_ok_iff, sub256, checkedSub_ok_iff, transfer_ok_iff, exists_const, Except.ok.injEq]
  constructor
  · rintro ⟨hresolved, _, ⟨houtcome, hfit, rfl⟩, hunits, hsupply, hpot, _, ⟨hproduct, rfl⟩, hgross,
      _, ⟨hrakeFits, rfl⟩, _, ⟨hrake, rfl⟩, hbalance, _, ⟨hrakeFunded, rfl⟩, _,
      ⟨hpayoutFunded, rfl⟩, first, hyes, last, hno, _, ⟨hgrossPot, rfl⟩, rfl⟩
    obtain ⟨hheld, rfl⟩ := clear_clear_ok_iff.mp ((bind_ok_iff _ _ _).mpr ⟨first, hyes, hno⟩)
    exact ⟨⟨hresolved, houtcome, hfit, hunits, hsupply, hpot, hproduct, hgross, hrakeFits, hrake,
      hbalance, hrakeFunded, hpayoutFunded, hheld, hgrossPot⟩, rfl⟩
  · rintro ⟨h, rfl⟩
    obtain ⟨first, hyes, hno⟩ := (bind_ok_iff _ _ _).mp
      (clear_clear_ok_iff.mpr ⟨h.outstanding, rfl⟩)
    exact ⟨h.resolved, _, ⟨h.outcome, h.unitsFit, rfl⟩, h.units, h.supply, h.pot, _,
      ⟨h.productFits, rfl⟩, h.gross, _, ⟨h.rakeFits, rfl⟩, _, ⟨h.rake, rfl⟩, h.balance, _,
      ⟨h.rakeFunded, rfl⟩, _, ⟨h.payoutFunded, rfl⟩, first, hyes, _, hno, _, ⟨h.grossPot, rfl⟩, rfl⟩

theorem Redeemable.congr {c : Chain} {s s' : State} {marketId : Uint128} {winner : Address}
    (h : Redeemable c s marketId winner) (hmarkets : s'.markets = s.markets)
    (hrake : s'.rakePercentScaled100 = s.rakePercentScaled100)
    (hbalance : s'.balanceOf = s.balanceOf) (howner : s'.owner = s.owner) :
    Redeemable c s' marketId winner := by
  cases s
  cases s'
  cases hmarkets
  cases hrake
  cases hbalance
  cases howner
  exact ⟨h.resolved, h.outcome, h.unitsFit, h.units, h.supply, h.pot, h.productFits, h.gross,
    h.rakeFits, h.rake, h.balance, h.rakeFunded, h.payoutFunded, h.outstanding, h.grossPot⟩

def State.redemption (s : State) (c : Chain) (marketId : Uint128) (winner : Address) :
    State × Nat :=
  (s.redeemed c marketId winner,
    (s.markets marketId).grossWinnings winner -
      s.rakeAmount ((s.markets marketId).grossWinnings winner))

theorem redeem_ok_iff {c : Chain} {env : Env} {marketId : Uint128} {s : State} {r : State × Nat} :
    redeem c env marketId s = .ok r ↔
      s.entered = false ∧ Redeemable c s marketId env.sender ∧
        r = s.redemption c marketId env.sender := by
  have hafter (hentered : s.entered = false) :
      nonReentrantAfter (State.redeemed { s with entered := true } c marketId env.sender) =
        s.redeemed c marketId env.sender := by
    cases s
    cases hentered
    rfl
  unfold redeem nonReentrantBefore
  simp only [bind_ok_iff, require_ok_iff, exists_const, redeemInternal_ok_iff, Except.ok.injEq]
  constructor
  · rintro ⟨_, ⟨hentered, rfl⟩, _, ⟨h, rfl⟩, rfl⟩
    exact ⟨hentered, h.congr rfl rfl rfl rfl, Prod.ext (hafter hentered) rfl⟩
  · rintro ⟨hentered, h, rfl⟩
    exact ⟨_, ⟨hentered, rfl⟩, _, ⟨h.congr rfl rfl rfl rfl, rfl⟩, Prod.ext (hafter hentered) rfl⟩

theorem redeemOnBehalfOfUser_ok_iff {c : Chain} {env : Env} {marketId : Uint128}
    {userAccount : Address} {s : State} {r : State × Nat} :
    redeemOnBehalfOfUser c env marketId userAccount s = .ok r ↔
      env.sender = s.owner ∧ s.entered = false ∧ Redeemable c s marketId userAccount ∧
        r = s.redemption c marketId userAccount := by
  -- behind the guard it is what the user's own call does
  have hredeem : redeem c { env with sender := userAccount } marketId s = .ok r ↔
      s.entered = false ∧ Redeemable c s marketId userAccount ∧
        r = s.redemption c marketId userAccount := redeem_ok_iff
  rw [← hredeem]
  simp only [redeemOnBehalfOfUser, redeem, onlyOwner, bind_ok_iff, require_ok_iff, exists_const]

/-! ## What a successful call does -/

def Tx.redeems (tx : Tx) : Option (Uint128 × Address) :=
  match tx.call with
  | .redeem marketId => some (marketId, tx.env.sender)
  | .redeemOnBehalfOfUser marketId userAccount => some (marketId, userAccount)
  | _ => none

def Market.created (market : Market) (statement : Bytes) : Market :=
  { market with
    statement
    outcome := 0
    resolutionTime := 0
    totalCollateralUsd := 0
    totalTokensOutstanding := fun _ => 0 }

inductive Effect (c : Chain) (tx : Tx) (s : State) : State → Prop
  | configure {s' : State} (hredeems : tx.redeems = none) (hmarkets : s'.markets = s.markets)
      (hentered : s'.entered = s.entered) (hbalance : s'.balanceOf = s.balanceOf)
      (hallowance : s'.allowance = s.allowance)
      (hrake : s'.rakePercentScaled100 = s.rakePercentScaled100 ∨
        s'.rakePercentScaled100 ≤ 10000) :
      Effect c tx s s'
  | create (marketId : Uint128) (statement : Bytes) (hredeems : tx.redeems = none)
      (hfree : c.keccak (s.markets marketId).statement = c.keccak [])
      (hallowed : s.marketCreationFeeUsdc ≤ s.allowance tx.env.sender c.self)
      (hfunded : s.marketCreationFeeUsdc ≤ s.balanceOf tx.env.sender)
      (hforwarded : s.marketCreationFeeUsdc ≤
        (s.pulled c tx.env.sender c.self s.marketCreationFeeUsdc).balanceOf c.self)
      (howner : tx.env.sender = s.owner) :
      Effect c tx s
        (((s.pulled c tx.env.sender c.self s.marketCreationFeeUsdc).transferred c.self s.owner
          s.marketCreationFeeUsdc).setMarket marketId ((s.markets marketId).created statement))
  | settle (marketId : Uint128) (amount : Nat) {s₁ s' : State} (hredeems : tx.redeems = none)
      (hopen : (s.markets marketId).resolutionTime = 0)
      (hstated : 0 < (s.markets marketId).statement.length)
      (hslot0 : SlotEffect c marketId amount s s₁) (hslot1 : SlotEffect c marketId amount s₁ s') :
      Effect c tx s s'
  | resolve (marketId : Uint128) (outcome : Nat) (hredeems : tx.redeems = none)
      (houtcome : outcome ≤ 2) (hopen : (s.markets marketId).resolutionTime = 0)
      (hstated : 0 < (s.markets marketId).statement.length) :
      Effect c tx s (s.setMarket marketId
        { s.markets marketId with outcome, resolutionTime := tx.env.timestamp })
  | redeem (marketId : Uint128) (winner : Address) (hredeems : tx.redeems = some (marketId, winner))
      (h : Redeemable c s marketId winner) : Effect c tx s (s.redeemed c marketId winner)
  | tokenTransfer (source target : Address) (amount : Nat) (hredeems : tx.redeems = none)
      (hsource : source ≠ c.self) (hfunded : amount ≤ s.balanceOf source) :
      Effect c tx s (s.transferred source target amount)
  | tokenApprove (holder spender : Address) (amount : Nat) (hredeems : tx.redeems = none)
      (hholder : holder ≠ c.self) :
      Effect c tx s { s with allowance := update₂ s.allowance holder spender amount }

theorem settleSlot_effect {c : Chain} {marketId : Uint128} {sells buys : Side} {slot : Slot}
    {amount : Nat} {s s' : State} (h : settleSlot c marketId sells buys slot amount s = .ok s') :
    SlotEffect c marketId amount s s' := by
  unfold settleSlot at h
  split at h
  · exact sell_effect h
  · exact buy_effect h

theorem exec_effect {c : Chain} {tx : Tx} {s s' : State} (h : exec c tx s = .ok s') :
    Effect c tx s s' := by
  obtain ⟨env, call⟩ := tx
  cases call with
  | createNewMarket marketId statement =>
      simp only [exec, map_fst_ok_iff, createNewMarket, onlyOwner, bind_ok_iff, require_ok_iff,
        exists_const, transferFrom_ok_iff, transfer_ok_iff, Except.ok.injEq, Prod.mk.injEq] at h
      obtain ⟨_, howner, hfree, _, ⟨hallowed, hfunded, rfl⟩, _, ⟨hforwarded, rfl⟩, rfl, _⟩ := h
      exact .create marketId statement rfl hfree hallowed hfunded hforwarded howner
  | setMarketCreationFee fee =>
      simp only [exec, setMarketCreationFee, onlyOwner, bind_ok_iff, require_ok_iff, exists_const,
        Except.ok.injEq] at h
      obtain ⟨_, rfl⟩ := h
      exact .configure rfl rfl rfl rfl rfl (Or.inl rfl)
  | posColToksOnBehalfAtomic marketId slot0 slot1 =>
      simp only [exec, map_fst_ok_iff, posColToksOnBehalfAtomic, bind_ok_iff, require_ok_iff,
        exists_const, Except.ok.injEq, Prod.mk.injEq] at h
      obtain ⟨_, _, _, hopen, hstated, _, _, _, _, _, _, _, _, s₁, hslot0, s₂, hslot1, rfl, _⟩ := h
      exact .settle marketId slot0.qtyScaled rfl hopen hstated (settleSlot_effect hslot0)
        (settleSlot_effect hslot1)
  | redeem marketId =>
      simp only [exec, map_fst_ok_iff, redeem_ok_iff] at h
      obtain ⟨_, _, hredeemable, hstate⟩ := h
      obtain rfl := congrArg Prod.fst hstate
      exact .redeem marketId env.sender rfl hredeemable
  | redeemOnBehalfOfUser marketId userAccount =>
      simp only [exec, map_fst_ok_iff, redeemOnBehalfOfUser_ok_iff] at h
      obtain ⟨_, _, _, hredeemable, hstate⟩ := h
      obtain rfl := congrArg Prod.fst hstate
      exact .redeem marketId userAccount rfl hredeemable
  | resolveMarket marketId noYes =>
      simp only [exec, resolveMarket, onlyOracle, bind_ok_iff, require_ok_iff, exists_const,
        Except.ok.injEq] at h
      obtain ⟨_, hstated, hopen, rfl⟩ := h
      have houtcome : (if noYes then 1 else 0) ≤ 2 := by
        split <;> omega
      exact .resolve marketId _ rfl houtcome hopen hstated
  | emergencyCloseMarket5050 marketId =>
      simp only [exec, emergencyCloseMarket5050, onlyDao, bind_ok_iff, require_ok_iff,
        exists_const, Except.ok.injEq] at h
      obtain ⟨_, hstated, hopen, rfl⟩ := h
      exact .resolve marketId 2 rfl le_rfl hopen hstated
  | setRakeScaled100 rake =>
      simp only [exec, setRakeScaled100, onlyDao, bind_ok_iff, require_ok_iff, exists_const,
        Except.ok.injEq] at h
      obtain ⟨_, hrake, rfl⟩ := h
      exact .configure rfl rfl rfl rfl rfl (Or.inr hrake)
  | setDao dao =>
      simp only [exec, setDao, onlyDao, bind_ok_iff, require_ok_iff, exists_const,
        Except.ok.injEq] at h
      obtain ⟨_, _, rfl⟩ := h
      exact .configure rfl rfl rfl rfl rfl (Or.inl rfl)
  | setOracle oracle =>
      simp only [exec, setOracle, onlyDao, bind_ok_iff, require_ok_iff, exists_const,
        Except.ok.injEq] at h
      obtain ⟨_, _, rfl⟩ := h
      exact .configure rfl rfl rfl rfl rfl (Or.inl rfl)
  | associateToken tokenAddress =>
      simp only [exec, associateToken, onlyOwner, bind_ok_iff, require_ok_iff, exists_const,
        Except.ok.injEq] at h
      obtain ⟨_, _, rfl⟩ := h
      exact .configure rfl rfl rfl rfl rfl (Or.inl rfl)
  | tokenTransfer source target amount =>
      simp only [exec, tokenTransfer, bind_ok_iff, require_ok_iff, exists_const,
        transfer_ok_iff] at h
      obtain ⟨hsource, hfunded, rfl⟩ := h
      exact .tokenTransfer source target amount rfl hsource hfunded
  | tokenApprove holder spender amount =>
      simp only [exec, tokenApprove, bind_ok_iff, require_ok_iff, exists_const,
        Except.ok.injEq] at h
      obtain ⟨hholder, rfl⟩ := h
      exact .tokenApprove holder spender amount rfl hholder

end PrismBackend.PrismV1
