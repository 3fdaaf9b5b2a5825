import PrismBackend.PrismV2.Lifecycle

/-!
# PrismV2: the rake

A market keeps the default rate of its creation. The fee of a redemption is
taken from the gross payout at that rate and goes to the DAO of the day.
-/

namespace PrismBackend.PrismV2

open PrismBackend.Lib

/-- At a rate within bounds a fee is at most a tenth. -/
theorem ten_mul_fee_le (gross : Nat) {rate : Nat} (hrate : rate ≤ maxRakeBps) :
    10 * (gross * rate / 10000) ≤ gross := by
  have hmul : gross * rate ≤ gross * 1000 := Nat.mul_le_mul_left gross hrate
  have hdiv : gross * rate / 10000 ≤ gross * 1000 / 10000 := Nat.div_le_div_right hmul
  omega

theorem ten_mul_payoutFee_le {c : Chain} {s : State} (h : Configured c s) (m : Uint128)
    (account : Address) : 10 * s.payoutFee m account ≤ s.grossPayout m account := by
  have hfee := ten_mul_fee_le (s.grossPayout m account) (h.rakeBps m)
  unfold State.payoutFee
  dsimp only
  split
  · omega
  · exact hfee

theorem payoutFee_of_void {s : State} {m : Uint128} (hvoid : (s.markets m).state = .void)
    (account : Address) : s.payoutFee m account = 0 := by
  simp only [State.payoutFee, hvoid]

theorem payoutFee_of_ne_void {s : State} {m : Uint128} (hvoid : (s.markets m).state ≠ .void)
    (account : Address) :
    s.payoutFee m account = s.grossPayout m account * (s.markets m).rakeBps / 10000 := by
  unfold State.payoutFee
  dsimp only
  split
  · next hstate => exact absurd hstate hvoid
  · rfl

theorem grossPayout_of_ne_void {s : State} {m : Uint128} (hvoid : (s.markets m).state ≠ .void)
    (account : Address) : s.grossPayout m account = s.redeemable m account := by
  unfold State.grossPayout
  dsimp only
  split
  · next hstate => exact absurd hstate hvoid
  · rfl

/-- The two payments of a redemption leave the contract with the gross amount less. -/
theorem paid_self {f : Address → Nat} {self dao account : Address} {gross fee : Nat}
    (hdao : dao ≠ self) (hfee : fee ≤ gross) (hfunded : fee ≤ f self)
    (hnet : gross - fee ≤ move f self dao fee self)
    (haccount : self ≠ account ∨ gross - fee = 0) :
    move (move f self dao fee) self account (gross - fee) self + gross = f self := by
  have hdebited := move_source f (Ne.symm hdao) fee
  rcases haccount with hne | hzero
  · rw [move_source _ hne]
    omega
  · rw [hzero, move_zero]
    omega

/-- Whatever is called before it, and however often the default rate and the DAO are changed:
a redemption burns its caller's winning shares and pays the fee at the rate that was the default
when the market was created, to the address that is the DAO now. The fee is at most a tenth,
fee and net are the gross amount, and that is what leaves the reserve and the contract. In a
void market there is no fee. -/
theorem redemption_rake {c : Chain} (d : Deployment c) (txs : List Tx) {env : Env} {m : Uint128}
    {s' : State} {e : Redeemed} (h : redeem c env m (run c d.state txs) = .ok (s', e)) :
    ∃ created ∈ trace c d.state txs, created.creates m = true ∧
      let s := run c d.state txs
      let r := created.before.defaultRakeBps
      e.marketId = m ∧ e.account = env.sender ∧
      ((s.markets m).state = .resolvedYes ∧ e.gross = s.yesBalance m env.sender ∧
          e.fee = e.gross * r / 10000 ∨
        (s.markets m).state = .resolvedNo ∧ e.gross = s.noBalance m env.sender ∧
          e.fee = e.gross * r / 10000 ∨
        (s.markets m).state = .void ∧ e.fee = 0) ∧
      10 * e.fee ≤ e.gross ∧ e.fee + e.net = e.gross ∧
      (s'.markets m).reserve + e.gross = (s.markets m).reserve ∧
      s.dao ≠ c.self ∧
      s'.collateral = move (move s.collateral c.self s.dao e.fee) c.self env.sender e.net ∧
      s'.collateral c.self + e.gross = s.collateral c.self := by
  obtain ⟨_, hclaim, hpay, rfl, rfl⟩ := (redeem_ok_iff c env m _ _ _).mp h
  have hsound := run_sound d txs
  have hnew : (d.state.markets m).state = .uninitialized := by
    obtain ⟨_, _, _, _, _, _, _, hstate⟩ :=
      (initialize_ok_iff _ _ _ _ _ _ _ _ _).mp d.initialized
    rw [hstate]
    rfl
  have hterminal := hclaim.terminal
  have hthere : ((run c d.state txs).markets m).state ≠ .uninitialized := by
    intro hstate
    rw [hstate] at hterminal
    exact absurd hterminal (by decide)
  obtain ⟨created, hmem, hcreates, hrate⟩ := run_created hnew hthere
  generalize run c d.state txs = s at *
  have hreserve := hpay.reserved
  rw [burnt_reserve] at hreserve
  refine ⟨created, hmem, hcreates, rfl, rfl, ?_, ?_, ?_, ?_, ?_, rfl, ?_⟩
  · have hfee := fun hvoid => payoutFee_of_ne_void (s := s) (m := m) hvoid env.sender
    have hgross := fun hvoid => grossPayout_of_ne_void (s := s) (m := m) hvoid env.sender
    rw [hrate] at hfee
    cases hstate : (s.markets m).state with
    | uninitialized | «open» | halted | closed =>
        rw [hstate] at hterminal
        exact absurd hterminal (by decide)
    | resolvedYes =>
        have hvoid : (s.markets m).state ≠ .void := by
          rw [hstate]
          decide
        have hburnt := hgross hvoid
        simp only [State.redeemable, State.burntYes, State.burntNo, hstate, Nat.add_zero] at hburnt
        exact Or.inl ⟨rfl, hburnt, hfee hvoid⟩
    | resolvedNo =>
        have hvoid : (s.markets m).state ≠ .void := by
          rw [hstate]
          decide
        have hburnt := hgross hvoid
        simp only [State.redeemable, State.burntYes, State.burntNo, hstate, Nat.zero_add] at hburnt
        exact Or.inr (Or.inl ⟨rfl, hburnt, hfee hvoid⟩)
    | void => exact Or.inr (Or.inr ⟨rfl, payoutFee_of_void hstate env.sender⟩)
  · exact ten_mul_payoutFee_le hsound.configured m env.sender
  · exact Nat.add_sub_cancel' hpay.fee_le
  · have hmarket := congrArg (fun v => v.market.reserve) (redeemed_view s c m env.sender)
    simp only [State.view] at hmarket
    rw [hmarket]
    exact Nat.sub_add_cancel hreserve
  · exact hsound.configured.dao
  · exact paid_self hsound.configured.dao hpay.fee_le hpay.feeFunded hpay.netFunded hpay.netPayee

/-- Market 7 is traded, the default rate goes to 900 and the DAO to 8, and YES wins. -/
def sampleRaked : List Tx := sampleTrades ++
  [⟨sampleEnv 1 30, .setDefaultRake 900⟩, ⟨sampleEnv 1 40, .setDao 8⟩,
    ⟨sampleEnv 3 100, .resolveMarket 7 true⟩]

theorem redemption_rake_sample :
    ∃ created ∈ trace sampleChain (sampleDeployment sampleChain rfl).state sampleRaked,
      created.creates 7 = true ∧
      (redeem sampleChain (sampleEnv 5 110) 7
        (run sampleChain (sampleDeployment sampleChain rfl).state sampleRaked)).map (·.2) =
        .ok ⟨7, 5, 101, 101 * created.before.defaultRakeBps / 10000, 100⟩ := by
  obtain ⟨r, hr⟩ : ∃ r, redeem sampleChain (sampleEnv 5 110) 7
      (run sampleChain (sampleDeployment sampleChain rfl).state sampleRaked) = .ok r := ⟨_, rfl⟩
  have hrecord : r.2 = ⟨7, 5, 101, 1, 100⟩ := by
    cases hr
    rfl
  obtain ⟨created, hmem, hcreates, _, _, hfee, _⟩ :=
    redemption_rake (sampleDeployment sampleChain rfl) sampleRaked hr
  refine ⟨created, hmem, hcreates, ?_⟩
  rw [hr]
  have hyes : ((run sampleChain (sampleDeployment sampleChain rfl).state sampleRaked).markets
      7).state = .resolvedYes := rfl
  rw [hyes, hrecord] at hfee
  simp only [reduceCtorEq, false_and, or_false, true_and] at hfee
  rw [Except.map, hrecord, ← hfee.2]

end PrismBackend.PrismV2
