import PrismBackend.PrismV2.Solvency
import PrismBackend.PrismV2.Redemption

/-!
# PrismV2: the life of a market

A market is created once, moves between its states, and ends in one of three
terminal states. The modules before this one say what a call does to the money;
here it is what a run of calls does to the status and the terms of one market.
-/

namespace PrismBackend.PrismV2

open PrismBackend.Lib

/-! ## What the lifecycle calls demand -/

theorem resumeMarket_ok_iff (env : Env) (marketId : Uint128) (s s' : State) :
    resumeMarket env marketId s = .ok s' ↔
      env.sender = s.owner ∧ (s.markets marketId).state = .halted ∧
        env.timestamp < (s.markets marketId).closeTime ∧
        s' = s.setMarket marketId { s.markets marketId with state := .open } := by
  simp only [resumeMarket, bind_ok_iff, onlyOwner, revertIf_ok_iff, exists_const, not_or,
    not_not, not_le, Except.ok.injEq, and_assoc, eq_comm (b := s')]

theorem resolveMarket_ok_iff (env : Env) (marketId : Uint128) (yesWon : Bool) (s s' : State) :
    resolveMarket env marketId yesWon s = .ok s' ↔
      env.sender = s.oracle ∧ (s.markets marketId).state.isLive = true ∧
        (s.markets marketId).closeTime ≤ env.timestamp ∧
        s' = s.setMarket marketId { s.markets marketId with
          state := if yesWon then .resolvedYes else .resolvedNo } := by
  simp only [resolveMarket, bind_ok_iff, onlyOracle, revertIf_ok_iff, exists_const, not_or,
    not_not, not_lt, Except.ok.injEq, and_assoc, eq_comm (b := s')]
  cases (s.markets marketId).state <;> simp [MarketState.isLive]

theorem voidMarket_ok_iff (env : Env) (marketId : Uint128) (s s' : State) :
    voidMarket env marketId s = .ok s' ↔
      env.sender = s.oracle ∧ (s.markets marketId).state.isLive = true ∧
        s' = s.setMarket marketId { s.markets marketId with state := .void } := by
  simp only [voidMarket, bind_ok_iff, onlyOracle, revertIf_ok_iff, exists_const,
    not_not, Except.ok.injEq, eq_comm (b := s')]
  cases (s.markets marketId).state <;> simp [MarketState.isLive]

/-! ## One step in the life of a market -/

/-- A market is created at the rate of the day, it moves, or only its counters change. -/
inductive LifeStep (defaultRakeBps : Nat) (market : Market) : Market → Prop
  | created (closeTime : Nat) (hnew : market.state = .uninitialized) :
      LifeStep defaultRakeBps market ⟨.open, closeTime, defaultRakeBps, 0, 0, 0⟩
  | moved {next : MarketState} (hmove : MarketStep market.state next) :
      LifeStep defaultRakeBps market { market with state := next }
  | counted (reserve totalYes totalNo : Nat) :
      LifeStep defaultRakeBps market { market with reserve, totalYes, totalNo }

def MarketState.phase : MarketState → Nat
  | .uninitialized => 0
  | .open | .halted => 1
  | .closed => 2
  | .resolvedYes | .resolvedNo | .void => 3

theorem MarketState.phase_eq_zero {state : MarketState} :
    state.phase = 0 ↔ state = .uninitialized := by
  cases state <;> decide

theorem MarketState.two_le_phase {state : MarketState} :
    2 ≤ state.phase ↔ state = .closed ∨ state.isTerminal = true := by
  cases state <;> decide

theorem MarketStep.phase_le {state next : MarketState} (h : MarketStep state next) :
    state.phase ≤ next.phase := by
  cases h with
  | halt | resume => exact le_rfl
  | close hfrom => rcases hfrom with rfl | rfl <;> decide
  | resolve yesWon hfrom => cases yesWon <;> rcases hfrom with rfl | rfl | rfl <;> decide
  | void hfrom => rcases hfrom with rfl | rfl | rfl <;> decide

/-- What a created market keeps: it does not go back, its terms stay, its end is final. -/
structure Market.Later (market market' : Market) : Prop where
  phase : market.state.phase ≤ market'.state.phase
  closeTime : market'.closeTime = market.closeTime
  rakeBps : market'.rakeBps = market.rakeBps
  terminal : market.state.isTerminal = true → market'.state = market.state

theorem Market.Later.refl (market : Market) : market.Later market :=
  ⟨le_rfl, rfl, rfl, fun _ => rfl⟩

theorem Market.Later.trans {first second third : Market} (h : first.Later second)
    (h' : second.Later third) : first.Later third where
  phase := h.phase.trans h'.phase
  closeTime := h'.closeTime.trans h.closeTime
  rakeBps := h'.rakeBps.trans h.rakeBps
  terminal := by
    intro hterminal
    have hsecond := h.terminal hterminal
    rw [← hsecond]
    apply h'.terminal
    rwa [hsecond]

theorem LifeStep.later {rate : Nat} {market market' : Market} (h : LifeStep rate market market')
    (hcreated : market.state ≠ .uninitialized) : market.Later market' := by
  cases h with
  | created _ hnew => exact absurd hnew hcreated
  | moved hmove =>
      refine ⟨hmove.phase_le, rfl, rfl, ?_⟩
      intro hterminal
      have hlive := hmove.live
      cases hstate : market.state <;> simp_all [MarketState.isTerminal, MarketState.isLive]
  | counted => exact ⟨le_rfl, rfl, rfl, fun _ => rfl⟩

theorem SameControl.lifeStep {s s' : State} (h : SameControl s s') (rate : Nat) (m : Uint128) :
    LifeStep rate (s.markets m) (s'.markets m) := by
  have hmarket : s'.markets m = { s.markets m with
      reserve := (s'.markets m).reserve
      totalYes := (s'.markets m).totalYes
      totalNo := (s'.markets m).totalNo } := by
    dsimp only
    rw [← h.state m, ← h.closeTime m, ← h.rakeBps m]
  rw [hmarket]
  exact .counted _ _ _

theorem effect_lifeStep {c : Chain} {env : Env} {s s' : State} {call : Call}
    {event : Option Redeemed} (heffect : Effect c env s call s' event) (m : Uint128) :
    LifeStep s.defaultRakeBps (s.markets m) (s'.markets m) := by
  have hstays : ∀ s' : State, s'.markets m = s.markets m →
      LifeStep s.defaultRakeBps (s.markets m) (s'.markets m) := by
    intro s' hsame
    rw [hsame]
    exact .counted _ _ _
  cases heffect with
  | configure | cancel | tokenTransfer => exact hstays _ rfl
  | create marketId _ closeTime hnew =>
      by_cases hm : m = marketId
      · subst hm
        simpa [State.setMarket] using LifeStep.created closeTime hnew
      · exact hstays _ (by simp [State.setMarket, hm])
  | transition marketId next _ hmove =>
      by_cases hm : m = marketId
      · subst hm
        simpa [State.setMarket] using LifeStep.moved hmove
      · exact hstays _ (by simp [State.setMarket, hm])
  | settle _ hpair _ => exact hpair.sameControl.lifeStep _ m
  | redeem marketId => exact (redeemed_sameControl s c marketId env.sender).lifeStep _ m

/-! ## The whole life -/

theorem run_later {c : Chain} {s : State} {m : Uint128}
    (hcreated : (s.markets m).state ≠ .uninitialized) (txs : List Tx) :
    (s.markets m).Later ((run c s txs).markets m) := by
  have hkept := run_preserves (c := c) (P := fun s' => (s.markets m).Later (s'.markets m))
    (fun s₁ tx r hlater hexec => by
      have hthere : (s₁.markets m).state ≠ .uninitialized := by
        have hphase := hlater.phase
        rw [Ne, ← MarketState.phase_eq_zero] at hcreated ⊢
        omega
      exact hlater.trans ((effect_lifeStep (exec_effect hexec) m).later hthere))
    (Market.Later.refl _) txs
  exact hkept

def Receipt.creates (m : Uint128) (r : Receipt) : Bool :=
  match r.tx.call with
  | .createMarket marketId _ _ => marketId = m
  | _ => false

theorem Receipt.creates_iff {m : Uint128} {r : Receipt} :
    r.creates m = true ↔ ∃ statement closeTime,
      r.tx.call = .createMarket m statement closeTime := by
  cases hcall : r.tx.call <;> simp [Receipt.creates, hcall]

theorem effect_creates {c : Chain} {env : Env} {s s' : State} {call : Call}
    {event : Option Redeemed} (heffect : Effect c env s call s' event) {m : Uint128}
    (hcreates : (Receipt.mk s ⟨env, call⟩ s' event).creates m = true) :
    (s.markets m).state = .uninitialized ∧ (s'.markets m).state = .open ∧
      (s'.markets m).rakeBps = s.defaultRakeBps := by
  obtain ⟨statement, closeTime, hcall⟩ := Receipt.creates_iff.mp hcreates
  dsimp only at hcall
  subst hcall
  cases heffect with
  | configure hcall => exact absurd hcall (by simp [Call.configures])
  | transition _ _ hcall => exact absurd hcall (by simp [Call.transitions])
  | create _ _ _ hnew => exact ⟨hnew, by simp [State.setMarket], by simp [State.setMarket]⟩

theorem effect_created {c : Chain} {env : Env} {s s' : State} {call : Call}
    {event : Option Redeemed} (heffect : Effect c env s call s' event) {m : Uint128}
    (hnew : (s.markets m).state = .uninitialized)
    (hthere : (s'.markets m).state ≠ .uninitialized) :
    (Receipt.mk s ⟨env, call⟩ s' event).creates m = true := by
  have hsame : ∀ s' : State, (s'.markets m).state = (s.markets m).state →
      (s'.markets m).state ≠ .uninitialized → False :=
    fun _ hstate hthere => hthere (hstate.trans hnew)
  cases heffect with
  | configure | cancel | tokenTransfer => exact (hsame _ rfl hthere).elim
  | create marketId =>
      by_cases hm : marketId = m
      · exact Receipt.creates_iff.mpr ⟨_, _, by rw [hm]⟩
      · exact (hsame _ (by simp [State.setMarket, Ne.symm hm]) hthere).elim
  | transition marketId _ _ hmove =>
      by_cases hm : m = marketId
      · subst hm
        have hlive := hmove.live
        rw [hnew] at hlive
        exact absurd hlive (by decide)
      · exact (hsame _ (by simp [State.setMarket, hm]) hthere).elim
  | settle _ hpair _ => exact (hsame _ (hpair.sameControl.state m) hthere).elim
  | redeem marketId =>
      exact (hsame _ ((redeemed_sameControl s c marketId env.sender).state m) hthere).elim

/-- A market that exists after a run was created in it, at the rate of that moment. -/
theorem run_created {c : Chain} {s : State} {m : Uint128} {txs : List Tx}
    (hnew : (s.markets m).state = .uninitialized)
    (hthere : ((run c s txs).markets m).state ≠ .uninitialized) :
    ∃ r ∈ trace c s txs, r.creates m = true ∧
      ((run c s txs).markets m).rakeBps = r.before.defaultRakeBps := by
  induction txs generalizing s with
  | nil => exact absurd hnew hthere
  | cons tx txs ih =>
      rw [run_cons] at hthere ⊢
      cases hexec : exec c tx s with
      | error e =>
          rw [apply_error hexec] at hthere ⊢
          rw [trace_cons_error hexec]
          exact ih hnew hthere
      | ok r =>
          rw [apply_ok hexec] at hthere ⊢
          rw [trace_cons_ok hexec]
          by_cases hnext : (r.1.markets m).state = .uninitialized
          · obtain ⟨created, hmem, hcreated⟩ := ih hnext hthere
            exact ⟨created, List.mem_cons_of_mem _ hmem, hcreated⟩
          · have hcreates := effect_created (exec_effect hexec) hnew hnext
            refine ⟨_, List.mem_cons_self, hcreates, ?_⟩
            rw [(run_later hnext txs).rakeBps]
            exact (effect_creates (exec_effect hexec) hcreates).2.2

/-- A creation needs an unused id and leaves a used one behind. -/
theorem created_once {c : Chain} (s : State) (m : Uint128) (txs : List Tx) :
    (trace c s txs).countP (Receipt.creates m) +
      (if (s.markets m).state = .uninitialized then 0 else 1) ≤ 1 := by
  induction txs generalizing s with
  | nil =>
      simp only [trace, List.countP_nil, Nat.zero_add]
      split <;> omega
  | cons tx txs ih =>
      cases hexec : exec c tx s with
      | error e =>
          rw [trace_cons_error hexec]
          exact ih s
      | ok r =>
          rw [trace_cons_ok hexec, List.countP_cons]
          have hrest := ih r.1
          by_cases hcreates : (Receipt.mk s tx r.1 r.2).creates m = true
          · obtain ⟨hnew, hopen, _⟩ := effect_creates (exec_effect hexec) hcreates
            rw [if_neg (by rw [hopen]; decide)] at hrest
            rw [if_pos hcreates, if_pos hnew]
            omega
          · rw [if_neg hcreates]
            by_cases hthere : (s.markets m).state = .uninitialized
            · rw [if_pos hthere]
              omega
            · have hphase := ((effect_lifeStep (exec_effect hexec) m).later hthere).phase
              rw [← MarketState.phase_eq_zero] at hthere
              rw [if_neg (by rw [← MarketState.phase_eq_zero]; omega)] at hrest
              rw [if_neg (by rwa [← MarketState.phase_eq_zero])]
              omega

/-! ## The lifecycle -/

/-- What one successful transaction is held to, for one market. -/
structure Receipt.Lawful (m : Uint128) (r : Receipt) : Prop where
  /-- settlement only in an open market before its close time -/
  settle : ∀ a signatureA b signatureB fillShares executionYesPrice matchId,
    r.tx.call = .settle a signatureA b signatureB fillShares executionYesPrice matchId →
    a.marketId = m → (r.before.markets m).state = .open ∧
      r.tx.env.timestamp < (r.before.markets m).closeTime
  /-- no resolution before the close time -/
  resolve : ∀ yesWon, r.tx.call = .resolveMarket m yesWon →
    (r.before.markets m).closeTime ≤ r.tx.env.timestamp
  /-- no way from halted to open at or after the close time -/
  resume : (r.before.markets m).state = .halted → (r.after.markets m).state = .open →
    r.tx.env.timestamp < (r.before.markets m).closeTime
  /-- the outcome totals are moved by settlements and redemptions of the market only -/
  totals : (r.after.markets m).totalYes ≠ (r.before.markets m).totalYes ∨
      (r.after.markets m).totalNo ≠ (r.before.markets m).totalNo →
    r.tx.call = .redeem m ∨
      ∃ a signatureA b signatureB fillShares executionYesPrice matchId, a.marketId = m ∧
        r.tx.call = .settle a signatureA b signatureB fillShares executionYesPrice matchId

theorem exec_settle_admitted {c : Chain} {env : Env} {s : State} {r : State × Option Redeemed}
    {a b : Authorization} {signatureA signatureB : Bytes} {fillShares executionYesPrice : Nat}
    {matchId : Bytes32}
    (h : exec c ⟨env, .settle a signatureA b signatureB fillShares executionYesPrice matchId⟩ s =
      .ok r) :
    Admitted c env s a signatureA b signatureB fillShares executionYesPrice matchId := by
  simp only [exec, map_silent_ok_iff, settle_ok_iff] at h
  exact h.1.1

theorem exec_resolve_after {c : Chain} {env : Env} {s : State} {r : State × Option Redeemed}
    {m : Uint128} {yesWon : Bool} (h : exec c ⟨env, .resolveMarket m yesWon⟩ s = .ok r) :
    (s.markets m).closeTime ≤ env.timestamp := by
  simp only [exec, map_silent_ok_iff, resolveMarket_ok_iff] at h
  exact h.1.2.2.1

/-- Only `resumeMarket` leads from halted to open. -/
theorem effect_resumes {c : Chain} {env : Env} {s s' : State} {call : Call}
    {event : Option Redeemed} (heffect : Effect c env s call s' event) {m : Uint128}
    (hhalted : (s.markets m).state = .halted) (hopen : (s'.markets m).state = .open) :
    call = .resumeMarket m := by
  have hsame : ∀ s' : State, (s'.markets m).state = (s.markets m).state →
      (s'.markets m).state = .open → False := by
    intro s' hstate hopen
    rw [hstate, hhalted] at hopen
    exact absurd hopen (by decide)
  cases heffect with
  | configure | cancel | tokenTransfer => exact (hsame _ rfl hopen).elim
  | create marketId _ _ hnew =>
      by_cases hm : m = marketId
      · subst hm
        exact absurd (hnew.symm.trans hhalted) (by decide)
      · exact (hsame _ (by simp [State.setMarket, hm]) hopen).elim
  | transition marketId next hcall hmove =>
      by_cases hm : m = marketId
      · subst hm
        have hnext : next = .open := by simpa [State.setMarket] using hopen
        subst hnext
        cases call with
        | resumeMarket marketId => simp_all [Call.transitions]
        | resolveMarket _ yesWon => cases yesWon <;> simp [Call.transitions] at hcall
        | _ => simp [Call.transitions] at hcall
      · exact (hsame _ (by simp [State.setMarket, hm]) hopen).elim
  | settle _ hpair _ => exact (hsame _ (hpair.sameControl.state m) hopen).elim
  | redeem marketId =>
      exact (hsame _ ((redeemed_sameControl s c marketId env.sender).state m) hopen).elim

/-- The outcome totals stay unless the market is traded or redeemed. -/
theorem effect_totals {c : Chain} {env : Env} {s s' : State} {call : Call}
    {event : Option Redeemed} (heffect : Effect c env s call s' event) {m : Uint128}
    (h : (s.view m).Balanced) :
    ((s'.markets m).totalYes = (s.markets m).totalYes ∧
      (s'.markets m).totalNo = (s.markets m).totalNo) ∨ call = .redeem m ∨
      ∃ a signatureA b signatureB fillShares executionYesPrice matchId, a.marketId = m ∧
        call = .settle a signatureA b signatureB fillShares executionYesPrice matchId := by
  have hbacked : (s.markets m).backed := h.backed
  cases heffect with
  | configure | cancel | tokenTransfer => exact Or.inl ⟨rfl, rfl⟩
  | create marketId _ _ hnew =>
      by_cases hm : m = marketId
      · subst hm
        simp only [Market.backed, hnew] at hbacked
        simp [State.setMarket, hbacked]
      · simp [State.setMarket, hm]
  | transition marketId _ _ _ =>
      by_cases hm : m = marketId
      · subst hm
        simp [State.setMarket]
      · simp [State.setMarket, hm]
  | @settle a b signatureA signatureB fillShares executionYesPrice matchId s₁ _ hpair _ =>
      by_cases hm : a.marketId = m
      · exact Or.inr (Or.inr ⟨a, signatureA, b, signatureB, fillShares, executionYesPrice,
          matchId, hm, rfl⟩)
      · have hview := congrArg MarketView.market (hpair.view_of_ne (Ne.symm hm))
        exact Or.inl ⟨congrArg Market.totalYes hview, congrArg Market.totalNo hview⟩
  | redeem marketId =>
      by_cases hm : marketId = m
      · exact Or.inr (Or.inl (by rw [hm]))
      · have hview := congrArg MarketView.market
          (redeemed_view_of_ne s c marketId env.sender (Ne.symm hm))
        exact Or.inl ⟨congrArg Market.totalYes hview, congrArg Market.totalNo hview⟩

theorem trace_lawful {c : Chain} (d : Deployment c) (txs : List Tx) (m : Uint128) {r : Receipt}
    (hr : r ∈ trace c d.state txs) : r.Lawful m := by
  obtain ⟨hsolvent, hexec⟩ := trace_preserves (P := Solvent c)
    (fun _ _ _ hs hexec => effect_solvent (exec_effect hexec) hs) d.solvent hr
  obtain ⟨s, ⟨env, call⟩, s', event⟩ := r
  have heffect : Effect c env s call s' event := exec_effect hexec
  refine ⟨?_, ?_, ?_, ?_⟩
  · intro a signatureA b signatureB fillShares executionYesPrice matchId hcall hm
    dsimp only at hcall hexec ⊢
    subst hcall hm
    have hadmitted := exec_settle_admitted hexec
    exact ⟨hadmitted.isOpen, hadmitted.beforeClose⟩
  · intro yesWon hcall
    dsimp only at hcall hexec ⊢
    subst hcall
    exact exec_resolve_after hexec
  · intro hhalted hopen
    dsimp only at hhalted hopen hexec ⊢
    have hcall := effect_resumes heffect hhalted hopen
    subst hcall
    simp only [exec, map_silent_ok_iff, resumeMarket_ok_iff] at hexec
    exact hexec.1.2.2.1
  · intro hmoved
    rcases effect_totals heffect (hsolvent.market m) with hsame | hcall
    · rcases hmoved with hyes | hno
      · exact absurd hsame.1 hyes
      · exact absurd hsame.2 hno
    · exact hcall

/-- Whatever is called, by whom and when, in the life of one market: it is created at most
once; once created it keeps its close time and its rake; a terminal state is final and a closed
market does not trade again; every successful transaction is lawful; and as long as the market
is open, halted or closed, the oracle can void it. -/
theorem market_lifecycle {c : Chain} (d : Deployment c) (txs : List Tx) (m : Uint128) :
    (trace c d.state txs).countP (Receipt.creates m) ≤ 1 ∧
    (∀ before after, txs = before ++ after →
      let earlier := (run c d.state before).markets m
      let later := (run c d.state txs).markets m
      earlier.state ≠ .uninitialized →
        later.state ≠ .uninitialized ∧ later.closeTime = earlier.closeTime ∧
        later.rakeBps = earlier.rakeBps ∧
        (earlier.state.isTerminal = true → later.state = earlier.state) ∧
        (earlier.state = .closed → later.state = .closed ∨ later.state.isTerminal = true)) ∧
    (∀ r ∈ trace c d.state txs, r.Lawful m) ∧
    (((run c d.state txs).markets m).state.isLive = true →
      ∀ env : Env, env.sender = (run c d.state txs).oracle →
        ∃ r, exec c ⟨env, .voidMarket m⟩ (run c d.state txs) = .ok r ∧
          (r.1.markets m).state = .void) := by
  refine ⟨?_, ?_, fun r hr => trace_lawful d txs m hr, ?_⟩
  · have honce := created_once (c := c) d.state m txs
    omega
  · intro before after htxs
    dsimp only
    intro hcreated
    have hlater := run_later (c := c) hcreated after
    rw [← run_append, ← htxs] at hlater
    refine ⟨?_, hlater.closeTime, hlater.rakeBps, hlater.terminal, ?_⟩
    · have hphase := hlater.phase
      rw [Ne, ← MarketState.phase_eq_zero] at hcreated ⊢
      omega
    · intro hclosed
      rw [← MarketState.two_le_phase]
      have hphase := hlater.phase
      rw [hclosed] at hphase
      exact hphase
  · intro hlive env horacle
    have hvoid := (voidMarket_ok_iff env m _ _).mpr ⟨horacle, hlive, rfl⟩
    refine ⟨(_, none), map_silent_ok_iff.mpr ⟨hvoid, rfl⟩, ?_⟩
    simp

end PrismBackend.PrismV2
