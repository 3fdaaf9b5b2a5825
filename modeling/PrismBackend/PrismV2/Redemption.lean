import Mathlib.Algebra.BigOperators.Group.List.Basic
import Mathlib.Algebra.GroupWithZero.Nat
import PrismBackend.PrismV2.Solvency

/-!
# PrismV2: redemption

Once a market is resolved or voided, every holder can redeem, the payouts add up
to the reserve, and the rounding of a void market stays with its last claimant.
-/

namespace PrismBackend.PrismV2

open PrismBackend.Lib

/-! ## Roles, rates and supply -/

structure Configured (c : Chain) (s : State) : Prop where
  dao : s.dao ≠ c.self
  defaultRakeBps : s.defaultRakeBps ≤ maxRakeBps
  rakeBps : ∀ m, (s.markets m).rakeBps ≤ maxRakeBps
  entered : s.reentrancyStatus = 1

theorem Configured.of_eq {c : Chain} {s s' : State} (h : Configured c s)
    (hroles : s'.roles = s.roles)
    (hrake : ∀ m, (s'.markets m).rakeBps = (s.markets m).rakeBps)
    (hentered : s'.reentrancyStatus = 1) : Configured c s' := by
  have hdao : s'.dao = s.dao := congrArg Roles.dao hroles
  have hdefault : s'.defaultRakeBps = s.defaultRakeBps := congrArg Roles.defaultRakeBps hroles
  refine ⟨hdao ▸ h.dao, hdefault ▸ h.defaultRakeBps, ?_, hentered⟩
  intro m
  rw [hrake m]
  exact h.rakeBps m

theorem Configured.setMarket {c : Chain} {s : State} (h : Configured c s) (marketId : Uint128)
    {market : Market} (hrake : market.rakeBps ≤ maxRakeBps) :
    Configured c (s.setMarket marketId market) := by
  refine ⟨h.dao, h.defaultRakeBps, ?_, h.entered⟩
  intro m
  simp only [State.setMarket, Function.update_apply]
  split
  · exact hrake
  · exact h.rakeBps m

theorem effect_configured {c : Chain} {env : Env} {s s' : State} {call : Call}
    {event : Option Redeemed} (heffect : Effect c env s call s' event) (h : Configured c s) :
    Configured c s' := by
  cases heffect with
  | configure _ roles hdao hrake =>
      refine ⟨?_, ?_, h.rakeBps, h.entered⟩
      · rcases hdao with hdao | hdao
        · exact fun heq => h.dao (hdao.symm.trans heq)
        · exact hdao.2
      · rcases hrake with hrake | hrake
        · exact hrake.trans_le h.defaultRakeBps
        · exact hrake
  | create marketId statement closeTime _ =>
      have hset : Configured c
          (s.setMarket marketId ⟨.open, closeTime, s.defaultRakeBps, 0, 0, 0⟩) :=
        h.setMarket marketId h.defaultRakeBps
      exact ⟨hset.dao, hset.defaultRakeBps, hset.rakeBps, hset.entered⟩
  | transition marketId state' _ _ => exact h.setMarket marketId (h.rakeBps marketId)
  | cancel => exact ⟨h.dao, h.defaultRakeBps, h.rakeBps, h.entered⟩
  | @settle a b _ _ fillShares price matchId s₁ _ hpair _ =>
      have hsame := hpair.sameControl
      exact h.of_eq hsame.roles hsame.rakeBps rfl
  | redeem marketId _ _ _ =>
      have hsame := redeemed_sameControl s c marketId env.sender
      exact h.of_eq hsame.roles hsame.rakeBps rfl
  | tokenTransfer => exact ⟨h.dao, h.defaultRakeBps, h.rakeBps, h.entered⟩

theorem pairing_supply {c : Chain} {env : Env} {a b : Authorization}
    {shares yesLeg noLeg : Nat} {s s' : State}
    (heffect : PairingEffect c env a b shares yesLeg noLeg s s') :
    total s'.collateral = total s.collateral := by
  cases heffect with
  | mint _ _ hguard => exact (total_move _ hguard.noFunded).trans (total_move _ hguard.yesFunded)
  | merge _ _ hguard => exact (total_move _ hguard.noFunded).trans (total_move _ hguard.yesFunded)
  | transfer _ _ hguard => exact total_move _ hguard.funded

theorem effect_supply {c : Chain} {env : Env} {s s' : State} {call : Call}
    {event : Option Redeemed} (heffect : Effect c env s call s' event) :
    total s'.collateral = total s.collateral := by
  cases heffect with
  | configure | create | transition | cancel => rfl
  | settle _ hpair _ =>
      have hsupply := pairing_supply hpair
      exact hsupply
  | redeem _ _ _ hpay => exact (total_move _ hpay.netFunded).trans (total_move _ hpay.feeFunded)
  | tokenTransfer _ _ _ _ hfunded => exact total_move _ hfunded

/-- What every state of a deployed contract satisfies. -/
structure Sound (c : Chain) (d : Deployment c) (s : State) : Prop where
  solvent : Solvent c s
  configured : Configured c s
  supply : total s.collateral = total d.ledger

theorem Deployment.sound {c : Chain} (d : Deployment c) : Sound c d d.state := by
  obtain ⟨_, _, _, _, _, hdao, hrake, hstate⟩ :=
    (initialize_ok_iff _ _ _ _ _ _ _ _ _).mp d.initialized
  refine ⟨d.solvent, ?_, ?_⟩
  · rw [hstate]
    exact ⟨hdao.2, hrake, fun _ => Nat.zero_le _, rfl⟩
  · rw [hstate]
    rfl

theorem exec_sound {c : Chain} {d : Deployment c} (s : State) (tx : Tx)
    (r : State × Option Redeemed) (h : Sound c d s) (hexec : exec c tx s = .ok r) :
    Sound c d r.1 :=
  have heffect := exec_effect hexec
  ⟨effect_solvent heffect h.solvent, effect_configured heffect h.configured,
    (effect_supply heffect).trans h.supply⟩

theorem run_sound {c : Chain} (d : Deployment c) (txs : List Tx) :
    Sound c d (run c d.state txs) :=
  run_preserves exec_sound d.sound txs

/-! ## Every holder can redeem -/

/-- A token in which transfers of held amounts succeed. -/
def Env.acceptsHeld (env : Env) : Prop :=
  ∀ balances source target amount, amount ≤ balances source →
    env.tokenAccepts balances source target amount = true

def State.redeemable (s : State) (marketId : Uint128) (account : Address) : Nat :=
  s.burntYes marketId account + s.burntNo marketId account

theorem payoutFee_le {c : Chain} {s : State} (h : Configured c s) (marketId : Uint128)
    (account : Address) : s.payoutFee marketId account ≤ s.grossPayout marketId account := by
  have hrake : (s.markets marketId).rakeBps ≤ 1000 := h.rakeBps marketId
  have hfee : s.grossPayout marketId account * (s.markets marketId).rakeBps / 10000 ≤
      s.grossPayout marketId account := by
    apply Nat.div_le_of_le_mul
    rw [Nat.mul_comm 10000]
    exact Nat.mul_le_mul_left _ (by omega)
  unfold State.payoutFee
  simp only
  split
  · exact Nat.zero_le _
  · exact hfee

theorem reserve_le {c : Chain} {s : State} (h : Solvent c s) (marketId : Uint128) :
    (s.markets marketId).reserve ≤ s.aggregateReserved ∧
      s.aggregateReserved ≤ s.collateral c.self ∧ s.collateral c.self ≤ total s.collateral := by
  refine ⟨?_, h.held, le_total _ _⟩
  rw [h.aggregate]
  exact le_total (fun m => (s.markets m).reserve) marketId

/-- The totals of a void market fit in a word as soon as the reserve does. -/
theorem void_totals {s : State} {marketId : Uint128} (h : (s.view marketId).Balanced)
    (hvoid : (s.markets marketId).state = .void) :
    (s.markets marketId).totalYes + (s.markets marketId).totalNo ≤
      2 * (s.markets marketId).reserve := by
  have hbacked := h.backed
  unfold Market.backed at hbacked
  rw [show (s.view marketId).market.state = .void from hvoid] at hbacked
  exact hbacked.1

theorem redeem_succeeds {c : Chain} {d : Deployment c} {s : State} (h : Sound c d s)
    (hsupply : total d.ledger < 2 ^ 127) {env : Env} (hsender : env.sender ≠ c.self)
    (haccepts : env.acceptsHeld) {marketId : Uint128}
    (hterminal : (s.markets marketId).state.isTerminal = true)
    (hholds : s.redeemable marketId env.sender ≠ 0) :
    redeem c env marketId s =
      .ok (s.redeemed c marketId env.sender, redeemedRecord s marketId env.sender) := by
  obtain ⟨hreserve, hheld, htotal⟩ := reserve_le h.solvent marketId
  have hview := h.solvent.market marketId
  have hyes : s.yesBalance marketId env.sender ≤ (s.markets marketId).totalYes :=
    hview.yes_le env.sender
  have hno : s.noBalance marketId env.sender ≤ (s.markets marketId).totalNo :=
    hview.no_le env.sender
  have hburntYes := burntYes_le s marketId env.sender
  have hburntNo := burntNo_le s marketId env.sender
  have hfee := payoutFee_le h.configured marketId env.sender
  have hgross := (redeemed_backed env.sender hview hterminal).1
  have hledger := h.supply
  have hclaim : Claimable s marketId env.sender := by
    refine ⟨hterminal, hholds, ?_, hburntYes.trans hyes, hburntNo.trans hno, ?_, ?_⟩
    · intro hvoid
      have htotals := void_totals hview hvoid
      omega
    · intro hvoid
      have htotals := void_totals hview hvoid
      omega
    · omega
  have hpay : Payable c env (s.burnt marketId env.sender) env.sender
      ((s.burnt marketId env.sender).markets marketId).reserve
      (s.grossPayout marketId env.sender) (s.payoutFee marketId env.sender) := by
    have hfeeMove := move_source s.collateral (Ne.symm h.configured.dao)
      (s.payoutFee marketId env.sender)
    have hnetMove := move_source (move s.collateral c.self s.dao (s.payoutFee marketId env.sender))
      (Ne.symm hsender) (s.grossPayout marketId env.sender - s.payoutFee marketId env.sender)
    have hnetFunded : s.grossPayout marketId env.sender - s.payoutFee marketId env.sender ≤
        move s.collateral c.self s.dao (s.payoutFee marketId env.sender) c.self := by
      omega
    have hfeeFunded : s.payoutFee marketId env.sender ≤ s.collateral c.self := by omega
    rw [burnt_reserve]
    refine ⟨hgross, hgross.trans hreserve, hfee, hfeeFunded, ?_, ?_, hnetFunded, ?_, ?_, ?_, ?_⟩
    · intro _
      exact haccepts _ _ _ _ hfeeFunded
    · exact Or.inl (Ne.symm h.configured.dao)
    · exact haccepts _ _ _ _ hnetFunded
    · simp only [State.burnt, State.setMarket]
      omega
    · exact Or.inl (Ne.symm hsender)
    · simp only [State.burnt, State.setMarket]
      omega
  exact (redeem_ok_iff c env marketId s _ _).mpr ⟨h.configured.entered, hclaim, hpay, rfl, rfl⟩

theorem reserve_eq_zero {s : State} {marketId : Uint128} (h : (s.view marketId).Balanced)
    (hterminal : (s.markets marketId).state.isTerminal = true)
    (hnone : ∀ account, s.redeemable marketId account = 0) :
    (s.markets marketId).reserve = 0 := by
  have hbacked := h.backed
  have htotalYes : (s.markets marketId).totalYes = total (s.yesBalance marketId) := h.totalYes
  have htotalNo : (s.markets marketId).totalNo = total (s.noBalance marketId) := h.totalNo
  unfold Market.backed at hbacked
  simp only [State.view] at hbacked
  simp only [State.redeemable, State.burntYes, State.burntNo] at hnone
  cases hstate : (s.markets marketId).state with
  | uninitialized | «open» | halted | closed =>
      exact absurd hterminal (by rw [hstate]; decide)
  | resolvedYes =>
      simp only [hstate, Nat.add_zero] at hbacked hnone
      rw [hbacked, htotalYes]
      exact total_eq_zero.mpr hnone
  | resolvedNo =>
      simp only [hstate, Nat.zero_add] at hbacked hnone
      rw [hbacked, htotalNo]
      exact total_eq_zero.mpr hnone
  | void =>
      simp only [hstate] at hbacked hnone
      apply hbacked.2
      · rw [htotalYes]
        exact total_eq_zero.mpr fun account => (Nat.add_eq_zero_iff.mp (hnone account)).1
      · rw [htotalNo]
        exact total_eq_zero.mpr fun account => (Nat.add_eq_zero_iff.mp (hnone account)).2

/-! ## Payouts of a terminal market -/

/-- The gross amount that a receipt's redemption, if any, takes from a market. -/
def Receipt.grossFrom (marketId : Uint128) (r : Receipt) : Nat :=
  match r.event with
  | some e => if e.marketId = marketId then e.gross else 0
  | none => 0

def Receipt.claims (marketId : Uint128) (r : Receipt) : Bool :=
  match r.event with
  | some e => e.marketId = marketId
  | none => false

def payouts (marketId : Uint128) (receipts : List Receipt) : Nat :=
  (receipts.map (Receipt.grossFrom marketId)).sum

def claimCount (marketId : Uint128) (receipts : List Receipt) : Nat :=
  receipts.countP (Receipt.claims marketId)

/-- Half a unit of a void market's reserve is left over per earlier claim, at most. -/
def Market.dusty (market : Market) (claims : Nat) : Prop :=
  market.state = .void → 2 * market.reserve ≤ market.totalYes + market.totalNo + claims

/-- A redemption of a terminal market: its status stays, its reserve falls by the gross
payout, and at most half a unit of rounding stays behind. -/
theorem redeemed_terminal {s : State} (c : Chain) {marketId : Uint128} (account : Address)
    (h : (s.view marketId).Balanced)
    (hterminal : (s.markets marketId).state.isTerminal = true) {claims : Nat}
    (hdust : (s.markets marketId).dusty claims) :
    ((s.redeemed c marketId account).markets marketId).reserve +
        s.grossPayout marketId account = (s.markets marketId).reserve ∧
      ((s.redeemed c marketId account).markets marketId).dusty (claims + 1) := by
  have hgross := (redeemed_backed account h hterminal).1
  have hmarket := congrArg MarketView.market (redeemed_view s c marketId account)
  have hyes : s.yesBalance marketId account ≤ (s.markets marketId).totalYes := h.yes_le account
  have hno : s.noBalance marketId account ≤ (s.markets marketId).totalNo := h.no_le account
  simp only [State.view] at hmarket
  rw [hmarket]
  refine ⟨by simp only; omega, ?_⟩
  unfold Market.dusty at hdust ⊢
  intro hvoid
  have hdust' := hdust hvoid
  simp only at hvoid ⊢
  simp only [State.grossPayout, State.burntYes, State.burntNo, hvoid]
  split <;> omega

theorem effect_terminal {c : Chain} {env : Env} {s s' : State} {call : Call}
    {event : Option Redeemed} (heffect : Effect c env s call s' event) {marketId : Uint128}
    (h : (s.view marketId).Balanced)
    (hterminal : (s.markets marketId).state.isTerminal = true) {claims : Nat}
    (hdust : (s.markets marketId).dusty claims) :
    (s'.markets marketId).state = (s.markets marketId).state ∧
      (s'.markets marketId).reserve + Receipt.grossFrom marketId ⟨s, ⟨env, call⟩, s', event⟩ =
        (s.markets marketId).reserve ∧
      (s'.markets marketId).dusty
        (claims + if Receipt.claims marketId ⟨s, ⟨env, call⟩, s', event⟩ then 1 else 0) := by
  by_cases hm : call.market = some marketId
  · cases heffect with
    | configure hcall => cases call <;> simp_all [Call.market, Call.configures]
    | cancel | tokenTransfer => simp [Call.market] at hm
    | create m _ _ hnew =>
        rw [Call.market, Option.some.injEq] at hm
        rw [← hm, hnew] at hterminal
        exact absurd hterminal (by decide)
    | transition m next hcall hmove =>
        rw [Call.market_of_transitions hcall, Option.some.injEq] at hm
        subst hm
        have hlive := hmove.live
        cases hstate : (s.markets m).state <;> simp_all [MarketState.isTerminal, MarketState.isLive]
    | settle hadmitted =>
        rw [Call.market, Option.some.injEq] at hm
        rw [← hm, hadmitted.isOpen] at hterminal
        exact absurd hterminal (by decide)
    | redeem m =>
        rw [Call.market, Option.some.injEq] at hm
        subst hm
        obtain ⟨hreserve, hdusty⟩ := redeemed_terminal c env.sender h
          hterminal hdust
        refine ⟨(redeemed_sameControl s c m env.sender).state m, ?_, ?_⟩
        · simpa [Receipt.grossFrom, redeemedRecord] using hreserve
        · simpa [Receipt.claims, redeemedRecord] using hdusty
  · have hview := effect_view_of_ne heffect hm
    have hmarket : s'.markets marketId = s.markets marketId := congrArg MarketView.market hview
    have hevent : Receipt.grossFrom marketId ⟨s, ⟨env, call⟩, s', event⟩ = 0 ∧
        Receipt.claims marketId ⟨s, ⟨env, call⟩, s', event⟩ = false := by
      cases heffect with
      | redeem m =>
          have hne : m ≠ marketId := fun h => hm (congrArg some h)
          simp [Receipt.grossFrom, Receipt.claims, redeemedRecord, hne]
      | configure | create | transition | cancel | settle | tokenTransfer => exact ⟨rfl, rfl⟩
    rw [hmarket, hevent.1, hevent.2]
    exact ⟨rfl, rfl, hdust⟩

theorem run_terminal {c : Chain} {s : State} (h : Solvent c s) {marketId : Uint128}
    (hterminal : (s.markets marketId).state.isTerminal = true) {claims : Nat}
    (hdust : (s.markets marketId).dusty claims) (txs : List Tx) :
    ((run c s txs).markets marketId).state = (s.markets marketId).state ∧
      ((run c s txs).markets marketId).reserve + payouts marketId (trace c s txs) =
        (s.markets marketId).reserve ∧
      ((run c s txs).markets marketId).dusty (claims + claimCount marketId (trace c s txs)) := by
  induction txs generalizing s claims with
  | nil => exact ⟨rfl, rfl, hdust⟩
  | cons tx txs ih =>
      rw [run_cons]
      cases hexec : exec c tx s with
      | ok r =>
          have heffect := exec_effect hexec
          obtain ⟨hstate, hreserve, hdusty⟩ :=
            effect_terminal heffect (h.market marketId) hterminal hdust
          obtain ⟨hstate', hreserve', hdusty'⟩ :=
            ih (effect_solvent heffect h) (hstate ▸ hterminal) hdusty
          rw [apply_ok hexec, trace_cons_ok hexec]
          refine ⟨hstate'.trans hstate, ?_, ?_⟩
          · have hstep : (r.1.markets marketId).reserve +
                Receipt.grossFrom marketId ⟨s, tx, r.1, r.2⟩ = (s.markets marketId).reserve :=
              hreserve
            rw [payouts, List.map_cons, List.sum_cons]
            rw [payouts] at hreserve'
            omega
          · rw [claimCount, List.countP_cons, Nat.add_comm (List.countP _ _), ← Nat.add_assoc]
            exact hdusty'
      | error e =>
          rw [apply_error hexec, trace_cons_error hexec]
          exact ih h hterminal hdust

/-! ## The moment of resolution -/

theorem terminal_split {c : Chain} {s : State} {txs : List Tx} {marketId : Uint128}
    (hstart : (s.markets marketId).state.isTerminal = false)
    (hend : ((run c s txs).markets marketId).state.isTerminal = true) :
    ∃ before tx after r, txs = before ++ tx :: after ∧
      exec c tx (run c s before) = .ok r ∧
      ((run c s before).markets marketId).state.isTerminal = false ∧
      (r.1.markets marketId).state.isTerminal = true := by
  induction txs generalizing s with
  | nil => exact absurd (hstart.symm.trans hend) (by decide)
  | cons tx txs ih =>
      rw [run_cons] at hend
      cases hexec : exec c tx s with
      | ok r =>
          rw [apply_ok hexec] at hend
          by_cases hnow : (r.1.markets marketId).state.isTerminal = true
          · exact ⟨[], tx, txs, r, rfl, hexec, hstart, hnow⟩
          · obtain ⟨before, tx', after, r', htxs, hexec', hbefore, hafter⟩ :=
              ih (Bool.eq_false_iff.mpr hnow) hend
            refine ⟨tx :: before, tx', after, r', ?_, ?_, ?_, hafter⟩
            · rw [htxs, List.cons_append]
            · rwa [run_cons, apply_ok hexec]
            · rwa [run_cons, apply_ok hexec]
      | error e =>
          rw [apply_error hexec] at hend
          obtain ⟨before, tx', after, r', htxs, hexec', hbefore, hafter⟩ := ih hstart hend
          refine ⟨tx :: before, tx', after, r', ?_, ?_, ?_, hafter⟩
          · rw [htxs, List.cons_append]
          · rwa [run_cons, apply_error hexec]
          · rwa [run_cons, apply_error hexec]

/-- A market becomes terminal only by `resolveMarket` or `voidMarket`, and then its reserve is
what either outcome totals. -/
theorem effect_resolution {c : Chain} {env : Env} {s s' : State} {call : Call}
    {event : Option Redeemed} (heffect : Effect c env s call s' event) (h : Solvent c s)
    {marketId : Uint128} (hbefore : (s.markets marketId).state.isTerminal = false)
    (hafter : (s'.markets marketId).state.isTerminal = true) :
    (call = .voidMarket marketId ∨ ∃ yesWon, call = .resolveMarket marketId yesWon) ∧
      (s'.markets marketId).dusty 0 := by
  have hstays (hstate : (s'.markets marketId).state = (s.markets marketId).state) : False := by
    rw [hstate, hbefore] at hafter
    exact absurd hafter (by decide)
  cases heffect with
  | configure | cancel | tokenTransfer => exact (hstays rfl).elim
  | settle _ hpair => exact (hstays (hpair.sameControl.state marketId)).elim
  | redeem m => exact (hstays ((redeemed_sameControl s c m env.sender).state marketId)).elim
  | create m =>
      simp only [State.setMarket, Function.update_apply] at hafter
      split at hafter
      · simp [MarketState.isTerminal] at hafter
      · exact absurd (hbefore.symm.trans hafter) (by decide)
  | transition m next hcall hmove =>
      by_cases hm : marketId = m
      · subst hm
        simp only [State.setMarket, Function.update_self] at hafter ⊢
        have hbacked := (backed_live _ hmove.live).mp (h.market marketId).backed
        have hreserve : (s.markets marketId).reserve = (s.markets marketId).totalYes ∧
            (s.markets marketId).reserve = (s.markets marketId).totalNo := hbacked
        refine ⟨?_, ?_⟩
        · cases call with
          | haltMarket | resumeMarket | closeMarket =>
              simp only [Call.transitions, Option.some.injEq, Prod.mk.injEq] at hcall
              rw [← hcall.2] at hafter
              exact absurd hafter (by decide)
          | resolveMarket m' yesWon =>
              simp only [Call.transitions, Option.some.injEq, Prod.mk.injEq] at hcall
              exact Or.inr ⟨yesWon, by rw [hcall.1]⟩
          | voidMarket m' =>
              simp only [Call.transitions, Option.some.injEq, Prod.mk.injEq] at hcall
              exact Or.inl (by rw [hcall.1])
          | _ => simp [Call.transitions] at hcall
        · intro _
          simp only
          omega
      · refine (hstays ?_).elim
        simp [State.setMarket, hm]

theorem redeemed_redeemable (s : State) (c : Chain) (marketId : Uint128) (account : Address) :
    (s.redeemed c marketId account).redeemable marketId account = 0 := by
  have hstate := (redeemed_sameControl s c marketId account).state marketId
  have hyes := congrFun (congrArg MarketView.yes (redeemed_view s c marketId account)) account
  have hno := congrFun (congrArg MarketView.no (redeemed_view s c marketId account)) account
  simp only [State.view, Function.update_self] at hyes hno
  simp only [State.redeemable, State.burntYes, State.burntNo, hstate, hyes, hno]
  cases (s.markets marketId).state <;> simp

theorem redeemable_void {s : State} {marketId : Uint128}
    (hvoid : (s.markets marketId).state = .void) (account : Address) :
    s.redeemable marketId account =
      s.yesBalance marketId account + s.noBalance marketId account := by
  simp only [State.redeemable, State.burntYes, State.burntNo, hvoid]

/-- In a void market nobody holds shares exactly when both totals are zero. -/
theorem void_outstanding {s : State} {marketId : Uint128} (h : (s.view marketId).Balanced)
    (hvoid : (s.markets marketId).state = .void) :
    (s.markets marketId).totalYes + (s.markets marketId).totalNo = 0 ↔
      ∀ account, s.redeemable marketId account = 0 := by
  have htotalYes : (s.markets marketId).totalYes = total (s.yesBalance marketId) := h.totalYes
  have htotalNo : (s.markets marketId).totalNo = total (s.noBalance marketId) := h.totalNo
  rw [htotalYes, htotalNo, ← total_add, total_eq_zero]
  exact forall_congr' fun account => by rw [redeemable_void hvoid]

/-- A claim in a void market: what it pays, for the last claimant and for the others. -/
theorem void_claim {c : Chain} {s s' : State} (h : Solvent c s) {env : Env}
    {marketId : Uint128} {r : Redeemed} (hvoid : (s.markets marketId).state = .void)
    {claims : Nat} (hdust : (s.markets marketId).dusty claims)
    (hredeem : redeem c env marketId s = .ok (s', r)) (hsender : env.sender ≠ c.self) :
    s'.collateral env.sender = s.collateral env.sender + r.gross ∧ r.net = r.gross ∧
      ((∃ account, s'.redeemable marketId account ≠ 0) →
        r.gross = (s.yesBalance marketId env.sender + s.noBalance marketId env.sender) / 2) ∧
      ((∀ account, s'.redeemable marketId account = 0) →
        r.gross = (s.markets marketId).reserve ∧
        (s.yesBalance marketId env.sender + s.noBalance marketId env.sender) / 2 ≤ r.gross ∧
        2 * r.gross ≤
          s.yesBalance marketId env.sender + s.noBalance marketId env.sender + claims) := by
  obtain ⟨hentered, hclaim, hpay, rfl, rfl⟩ := (redeem_ok_iff c env marketId s s' r).mp hredeem
  have hnext := effect_solvent (.redeem marketId hentered hclaim hpay) h
  have hview := h.market marketId
  have hyes : s.yesBalance marketId env.sender ≤ (s.markets marketId).totalYes :=
    hview.yes_le env.sender
  have hno : s.noBalance marketId env.sender ≤ (s.markets marketId).totalNo :=
    hview.no_le env.sender
  have hfee : s.payoutFee marketId env.sender = 0 := by simp only [State.payoutFee, hvoid]
  have hvoid' := ((redeemed_sameControl s c marketId env.sender).state marketId).trans hvoid
  have hmarket := congrArg MarketView.market (redeemed_view s c marketId env.sender)
  -- what is left outstanding decides which payout rule applies
  have hleft : (∀ account, (s.redeemed c marketId env.sender).redeemable marketId account = 0) ↔
      (s.markets marketId).totalYes - s.yesBalance marketId env.sender +
        ((s.markets marketId).totalNo - s.noBalance marketId env.sender) = 0 := by
    rw [← void_outstanding (hnext.market marketId) hvoid']
    simp only [State.view, State.burntYes, State.burntNo, hvoid] at hmarket
    rw [hmarket]
  refine ⟨?_, ?_, ?_, ?_⟩
  · have hmove := move_target s.collateral (Ne.symm hsender)
      (s.grossPayout marketId env.sender)
    simp only [State.redeemed, State.paid, State.burnt, State.setMarket, redeemedRecord, hfee,
      move_zero, Nat.sub_zero]
    exact hmove
  · simp only [redeemedRecord, hfee, Nat.sub_zero]
  · rintro ⟨account, haccount⟩
    have hsome := mt hleft.mpr fun hall => haccount (hall account)
    simp only [redeemedRecord, State.grossPayout, State.burntYes, State.burntNo, hvoid]
    rw [if_neg hsome]
  · intro hnone
    have hzero := hleft.mp hnone
    have htotals := void_totals hview hvoid
    have hdusty := hdust hvoid
    simp only [redeemedRecord, State.grossPayout, hvoid]
    rw [if_pos hzero]
    omega

/-- From the resolution or voiding of a market on, whatever else is called and in whatever
order the holders come: none of them is refused, what was paid out and what is reserved add up
to the reserve at that moment, nothing stays reserved once nobody holds redeemable shares, and
in a void market all but the last claimant get half their shares rounded down. -/
theorem redemption_complete {c : Chain} (d : Deployment c) (hsupply : total d.ledger < 2 ^ 127)
    (txs : List Tx) (marketId : Uint128)
    (hterminal : ((run c d.state txs).markets marketId).state.isTerminal = true) :
    ∃ before tx after, txs = before ++ tx :: after ∧
      (tx.call = .voidMarket marketId ∨ ∃ yesWon, tx.call = .resolveMarket marketId yesWon) ∧
      let resolved := run c d.state (before ++ [tx])
      let receipts := trace c resolved after
      let s := run c d.state txs
      (resolved.markets marketId).state = (s.markets marketId).state ∧
      (∀ env : Env, env.sender ≠ c.self → env.acceptsHeld →
        s.redeemable marketId env.sender ≠ 0 → ∃ s' r, redeem c env marketId s = .ok (s', r) ∧
          s'.redeemable marketId env.sender = 0) ∧
      (s.markets marketId).reserve + payouts marketId receipts =
        (resolved.markets marketId).reserve ∧
      ((∀ account, s.redeemable marketId account = 0) →
        (s.markets marketId).reserve = 0 ∧
        payouts marketId receipts = (resolved.markets marketId).reserve) ∧
      ((s.markets marketId).state = .void → ∀ (env : Env) (s' : State) (r : Redeemed),
        env.sender ≠ c.self → redeem c env marketId s = .ok (s', r) →
        s'.collateral env.sender = s.collateral env.sender + r.gross ∧ r.net = r.gross ∧
        ((∃ account, s'.redeemable marketId account ≠ 0) →
          r.gross = (s.yesBalance marketId env.sender + s.noBalance marketId env.sender) / 2) ∧
        ((∀ account, s'.redeemable marketId account = 0) →
          r.gross = (s.markets marketId).reserve ∧
          (s.yesBalance marketId env.sender + s.noBalance marketId env.sender) / 2 ≤ r.gross ∧
          2 * r.gross ≤ s.yesBalance marketId env.sender + s.noBalance marketId env.sender +
            claimCount marketId receipts)) := by
  have hstart : (d.state.markets marketId).state.isTerminal = false := by
    obtain ⟨_, _, _, _, _, _, _, hstate⟩ :=
      (initialize_ok_iff _ _ _ _ _ _ _ _ _).mp d.initialized
    rw [hstate]
    rfl
  obtain ⟨before, tx, after, r, htxs, hexec, hbefore, hafter⟩ := terminal_split hstart hterminal
  have hsound := run_sound d txs
  have hsolvent := run_solvent d before
  obtain ⟨hcall, hdust⟩ := effect_resolution (exec_effect hexec) hsolvent hbefore hafter
  have hresolved : run c d.state (before ++ [tx]) = r.1 := by
    rw [run_append, run_cons, apply_ok hexec, run_nil]
  have hfinal : run c d.state txs = run c r.1 after := by
    rw [htxs, ← hresolved, ← run_append, List.append_assoc, List.singleton_append]
  obtain ⟨hstate, hreserve, hdusty⟩ :=
    run_terminal (effect_solvent (exec_effect hexec) hsolvent) hafter hdust after
  rw [← hfinal] at hstate hreserve hdusty
  rw [Nat.zero_add] at hdusty
  refine ⟨before, tx, after, htxs, hcall, ?_⟩
  simp only [hresolved]
  refine ⟨hstate.symm, ?_, hreserve, ?_, ?_⟩
  · intro env hsender haccepts hholds
    refine ⟨_, _, redeem_succeeds hsound hsupply hsender haccepts hterminal hholds, ?_⟩
    exact redeemed_redeemable _ c marketId env.sender
  · intro hnone
    have hzero := reserve_eq_zero (hsound.solvent.market marketId) hterminal hnone
    exact ⟨hzero, by omega⟩
  · intro hvoid env s' r' hsender hredeem
    exact void_claim hsound.solvent hvoid hdusty hredeem hsender

def sampleVoided : List Tx := sampleTrades ++ [⟨sampleEnv 3 30, .voidMarket 7⟩]

def sampleClaimed : List Tx := sampleVoided ++ [⟨sampleEnv 5 40, .redeem 7⟩]

def sampleRun (txs : List Tx) : State :=
  run sampleChain (sampleDeployment sampleChain sampleChain_self).state txs

/-- Of 101 the first claimant gets the half, rounded down; the second one is not refused, and what
was paid and what is reserved add up. -/
theorem redemption_complete_sample :
    (∃ s' r, redeem sampleChain (sampleEnv 5 40) 7 (sampleRun sampleVoided) = .ok (s', r) ∧
      r.gross = 50) ∧
    (∃ s' r, redeem sampleChain (sampleEnv 6 50) 7 (sampleRun sampleClaimed) = .ok (s', r) ∧
      s'.redeemable 7 6 = 0) ∧
    ∃ before tx after, sampleClaimed = before ++ tx :: after ∧
      ((sampleRun sampleClaimed).markets 7).reserve +
          payouts 7 (trace sampleChain (sampleRun (before ++ [tx])) after) =
        ((sampleRun (before ++ [tx])).markets 7).reserve := by
  have hcomplete := redemption_complete (sampleDeployment sampleChain rfl)
    (sampleDeployment_supply sampleChain rfl)
  have hrun (txs : List Tx) : run sampleChain (sampleDeployment sampleChain rfl).state txs =
    sampleRun txs := rfl
  simp only [hrun] at hcomplete
  have haccepts (sender : Address) (timestamp : Nat) : (sampleEnv sender timestamp).acceptsHeld :=
    fun _ _ _ _ _ => rfl
  refine ⟨?_, ?_⟩
  · obtain ⟨_, _, _, _, _, _, hclaim, _, _, hvoid⟩ := hcomplete sampleVoided 7
      (by decide +kernel)
    obtain ⟨s', r, hredeem, _⟩ := hclaim (sampleEnv 5 40) (by decide) (haccepts 5 40)
      (by decide +kernel)
    obtain ⟨_, _, hrounded, _⟩ := hvoid (by decide +kernel) (sampleEnv 5 40) s' r (by decide) hredeem
    refine ⟨s', r, hredeem, (hrounded ⟨6, ?_⟩).trans (by decide +kernel)⟩
    obtain ⟨_, _, _, rfl, _⟩ := (redeem_ok_iff _ _ _ _ _ _).mp hredeem
    decide +kernel
  · obtain ⟨before, tx, after, htxs, _, _, hclaim, hreserve, _⟩ := hcomplete sampleClaimed 7
      (by decide +kernel)
    obtain ⟨s', r, hredeem, hleft⟩ := hclaim (sampleEnv 6 50) (by decide) (haccepts 6 50)
      (by decide +kernel)
    exact ⟨⟨s', r, hredeem, hleft⟩, before, tx, after, htxs, hreserve⟩

end PrismBackend.PrismV2
