import Mathlib.Logic.Equiv.List
import PrismBackend.PrismV2.LimitPrice

/-!
# PrismV2: no movement without consent

The contract takes collateral or shares from an account only in that account's
own redemption or in a settlement that carries an authorization of it, and uses
each authorization within its bounds. The hash is taken to tell the
authorizations that occur apart, and to be zero for none of them.
-/

namespace PrismBackend.PrismV2

open PrismBackend.Lib

/-! ## Hashes -/

/-- What is assumed of the hash on the authorizations that are known. -/
structure Chain.HashSound (c : Chain) (known : Set Authorization) : Prop where
  injOn : Set.InjOn (authorizationHash c) known
  ne_zero : ∀ x ∈ known, authorizationHash c x ≠ 0

def Call.Within (known : Set Authorization) : Call → Prop
  | .settle a _ b _ _ _ _ => a ∈ known ∧ b ∈ known
  | _ => True

theorem Side.toWord_injective : Function.Injective Side.toWord := by
  intro x y h
  cases x <;> cases y <;> simp_all [Side.toWord]

theorem Action.toWord_injective : Function.Injective Action.toWord := by
  intro x y h
  cases x <;> cases y <;> simp_all [Action.toWord]

theorem authorizationHash_injective {c : Chain} (hc : Function.Injective c.keccak) :
    Function.Injective (authorizationHash c) := by
  intro x y h
  have hwords := hc h
  simp only [authorizationWords, List.cons.injEq, and_true, true_and] at hwords
  obtain ⟨hversion, hchain, hcontract, hsigner, hmarket, htxId, hside, haction, hlimit, hqty,
    hcap, hdeadline⟩ := hwords
  cases x
  cases y
  simp only [Authorization.mk.injEq]
  exact ⟨hversion, hchain, Fin.ext hcontract, Fin.ext hsigner, Fin.ext hmarket, Fin.ext htxId,
    Side.toWord_injective hside, Action.toWord_injective haction, hlimit, hqty, hcap, hdeadline⟩

theorem hashSound_of_injective {c : Chain} (hinjective : Function.Injective c.keccak)
    (hne : ∀ words, c.keccak words ≠ 0) (known : Set Authorization) : c.HashSound known :=
  ⟨(authorizationHash_injective hinjective).injOn, fun _ _ => hne _⟩

theorem Call.within_univ (call : Call) : call.Within Set.univ := by
  cases call <;> simp [Call.Within]

theorem Call.Within.mem_of_fillOf {known : Set Authorization} {call : Call}
    (h : call.Within known) {x : Authorization} {fill : Nat × Nat}
    (hfill : call.fillOf x = some fill) : x ∈ known := by
  cases call with
  | settle =>
      simp only [Call.fillOf] at hfill
      split at hfill
      · next hx =>
        rcases hx with rfl | rfl
        · exact h.1
        · exact h.2
      · exact absurd hfill (by simp)
  | _ => exact absurd hfill (by simp [Call.fillOf])

/-! ## Consent -/

def Call.carries (x : Authorization) (signature : Bytes) : Call → Prop
  | .settle a signatureA b signatureB _ _ _ =>
    (x = a ∧ signature = signatureA) ∨ (x = b ∧ signature = signatureB)
  | _ => False

/-- The call carries an authorization of the account for the market that was signed for this
chain and contract, is not expired and not canceled. -/
def Consented (c : Chain) (env : Env) (s : State) (call : Call) (account : Address)
    (marketId : Uint128) : Prop :=
  ∃ x signature, call.carries x signature ∧ x.signer = account ∧ x.marketId = marketId ∧
    env.isAuthorized account (authorizationMessage c x) signature = (hederaSuccess, true) ∧
    x.chainId = c.chainId ∧ x.verifyingContract = c.self ∧ env.timestamp ≤ x.deadline ∧
    s.canceled account x.txId = false

theorem Admitted.consented {c : Chain} {env : Env} {s : State} {a b : Authorization}
    {signatureA signatureB : Bytes} {fillShares price : Nat} {matchId : Bytes32}
    (h : Admitted c env s a signatureA b signatureB fillShares price matchId)
    {x : Authorization} (hx : x = a ∨ x = b) :
    Consented c env s (.settle a signatureA b signatureB fillShares price matchId) x.signer
      x.marketId := by
  rcases hx with rfl | rfl
  · exact ⟨x, signatureA, Or.inl ⟨rfl, rfl⟩, rfl, rfl, h.validA.signed, h.validA.chainId,
      h.validA.verifyingContract, h.validA.deadline, h.validA.notCanceled⟩
  · exact ⟨x, signatureB, Or.inr ⟨rfl, rfl⟩, rfl, rfl, h.validB.signed, h.validB.chainId,
      h.validB.verifyingContract, h.validB.deadline, h.validB.notCanceled⟩

def OwnRedeem (env : Env) (call : Call) (account : Address) (marketId : Uint128) : Prop :=
  call = .redeem marketId ∧ env.sender = account

def Call.isTokenTransfer : Call → Bool
  | .tokenTransfer .. => true
  | _ => false

section Step

variable {c : Chain} {env : Env} {s s' : State} {call : Call} {event : Option Redeemed}

theorem effect_collateral_consent (heffect : Effect c env s call s' event)
    (htoken : call.isTokenTransfer = false) {account : Address} (hself : account ≠ c.self)
    (hless : s'.collateral account < s.collateral account) :
    ∃ marketId, OwnRedeem env call account marketId ∨
      Consented c env s call account marketId := by
  cases heffect with
  | configure | create | transition | cancel => exact absurd hless (lt_irrefl _)
  | @settle a b _ _ _ _ _ s₁ hadmitted hpair _ =>
      by_cases ha : account = a.signer
      · exact ⟨a.marketId, Or.inr (ha ▸ hadmitted.consented (Or.inl rfl))⟩
      by_cases hb : account = b.signer
      · exact ⟨b.marketId, Or.inr (hb ▸ hadmitted.consented (Or.inr rfl))⟩
      have hsame : s₁.collateral account = s.collateral account :=
        hpair.collateral_of_ne ha hb hself
      exact absurd hless (not_lt.mpr hsame.ge)
  | redeem marketId =>
      -- a redemption only pays out of the contract's own account
      have hfee := le_move s.collateral (t := s.dao) hself (s.payoutFee marketId env.sender)
      have hnet := le_move
        (move s.collateral c.self s.dao (s.payoutFee marketId env.sender)) (t := env.sender) hself
        (s.grossPayout marketId env.sender - s.payoutFee marketId env.sender)
      exact absurd hless (not_lt.mpr (hfee.trans hnet))
  | tokenTransfer => exact absurd htoken (by simp [Call.isTokenTransfer])

theorem effect_position_consent (heffect : Effect c env s call s' event) {side : Side}
    {marketId : Uint128} {account : Address}
    (hless : s'.position side marketId account < s.position side marketId account) :
    OwnRedeem env call account marketId ∨ Consented c env s call account marketId := by
  have hsame (h : s'.position side marketId account = s.position side marketId account) :
      False := absurd hless (not_lt.mpr h.ge)
  cases heffect with
  | configure | create | transition | cancel | tokenTransfer =>
    cases side <;> exact (hsame rfl).elim
  | @settle a b _ _ _ _ _ s₁ hadmitted hpair _ =>
      by_contra hnone
      apply hsame
      have hother : ∀ x, x = a ∨ x = b →
          ¬(marketId = x.marketId ∧ account = x.signer ∧ side = x.side) := by
        intro x hx h
        apply hnone
        right
        rw [h.1, h.2.1]
        exact hadmitted.consented hx
      have hstay := hpair.position_of_ne hadmitted.market hother
      cases side <;> exact hstay
  | redeem m =>
      by_cases hm : marketId = m
      · by_cases haccount : account = env.sender
        · exact Or.inl ⟨by rw [hm], haccount.symm⟩
        · refine (hsame ?_).elim
          have hview := redeemed_view s c m env.sender
          subst hm
          cases side with
          | yes =>
              have hyes := congrFun (congrArg MarketView.yes hview) account
              simp only [State.view] at hyes
              rwa [Function.update_of_ne haccount] at hyes
          | no =>
              have hno := congrFun (congrArg MarketView.no hview) account
              simp only [State.view] at hno
              rwa [Function.update_of_ne haccount] at hno
      · refine (hsame ?_).elim
        have hview := redeemed_view_of_ne s c m env.sender hm
        cases side with
        | yes => exact congrFun (congrArg MarketView.yes hview) account
        | no => exact congrFun (congrArg MarketView.no hview) account

end Step

/-! ## Bookkeeping of authorizations -/

def Call.matchIdOf : Call → Option Bytes32
  | .settle _ _ _ _ _ _ matchId => some matchId
  | _ => none

/-- A settlement books its two orders and its match id; nothing else touches what is booked,
except that `cancelAuthorization` adds a cancellation. -/
inductive Books (c : Chain) (env : Env) (s s' : State) : Call → Prop
  | settle {a b : Authorization} {signatureA signatureB : Bytes} {fillShares price : Nat}
      {matchId : Bytes32}
      (hadmitted : Admitted c env s a signatureA b signatureB fillShares price matchId)
      (hfills : s'.fills = (s.booked c a b fillShares price matchId).fills)
      (hnonces : s'.authorizationByNonce =
        (s.booked c a b fillShares price matchId).authorizationByNonce)
      (hmatches : s'.executedMatches = Function.update s.executedMatches matchId true)
      (hcanceled : s'.canceled = s.canceled) :
      Books c env s s' (.settle a signatureA b signatureB fillShares price matchId)
  | other {call : Call} (hfill : ∀ x, call.fillOf x = none) (hmatch : call.matchIdOf = none)
      (hfills : s'.fills = s.fills) (hnonces : s'.authorizationByNonce = s.authorizationByNonce)
      (hmatches : s'.executedMatches = s.executedMatches)
      (hcanceled : s'.canceled = s.canceled ∨
        ∃ txId, call = .cancelAuthorization txId ∧
          s'.canceled = update₂ s.canceled env.sender txId true) :
      Books c env s s' call

theorem effect_books {c : Chain} {env : Env} {s s' : State} {call : Call}
    {event : Option Redeemed} (heffect : Effect c env s call s' event) : Books c env s s' call := by
  cases heffect with
  | configure hcall =>
      refine .other ?_ ?_ rfl rfl rfl (Or.inl rfl)
      · cases call <;> simp_all [Call.fillOf, Call.configures]
      · cases call <;> simp_all [Call.matchIdOf, Call.configures]
  | transition _ _ hcall =>
      refine .other ?_ ?_ rfl rfl rfl (Or.inl rfl)
      · cases call <;> simp_all [Call.fillOf, Call.transitions]
      · cases call <;> simp_all [Call.matchIdOf, Call.transitions]
  | create | tokenTransfer => exact .other (fun _ => rfl) rfl rfl rfl rfl (Or.inl rfl)
  | cancel txId => exact .other (fun _ => rfl) rfl rfl rfl rfl (Or.inr ⟨txId, rfl, rfl⟩)
  | settle hadmitted hpair _ =>
      have hsame := hpair.sameControl
      exact .settle hadmitted hsame.fills hsame.authorizationByNonce hsame.executedMatches
        hsame.canceled
  | redeem marketId =>
      have hsame := redeemed_sameControl s c marketId env.sender
      exact .other (fun _ => rfl) rfl hsame.fills hsame.authorizationByNonce
        hsame.executedMatches (Or.inl hsame.canceled)

section Booked

variable {c : Chain} {known : Set Authorization} {s : State} {a b x : Authorization}
  {fillShares price : Nat} {matchId : Bytes32}

theorem booked_fills_self (hc : c.HashSound known) (ha : a ∈ known) (hb : b ∈ known)
    (hne : a ≠ b) (hx : x = a ∨ x = b) :
    (s.booked c a b fillShares price matchId).fills (authorizationHash c x) =
      ⟨(s.fills (authorizationHash c x)).shares + fillShares,
        (s.fills (authorizationHash c x)).collateral + fillCollateral x fillShares price⟩ := by
  have hhash : authorizationHash c a ≠ authorizationHash c b :=
    hc.injOn.ne ha hb hne
  rcases hx with rfl | rfl
  · simp [State.booked, State.consumed, hhash]
  · simp [State.booked, State.consumed, hhash.symm]

theorem booked_fills_other (hc : c.HashSound known) (ha : a ∈ known) (hb : b ∈ known)
    (hx : x ∈ known) (hneA : x ≠ a) (hneB : x ≠ b) :
    (s.booked c a b fillShares price matchId).fills (authorizationHash c x) =
      s.fills (authorizationHash c x) := by
  have hhashA := hc.injOn.ne hx ha hneA
  have hhashB := hc.injOn.ne hx hb hneB
  simp [State.booked, State.consumed, hhashA, hhashB]

theorem booked_nonce_self (hsigners : a.signer ≠ b.signer) (hx : x = a ∨ x = b) :
    (s.booked c a b fillShares price matchId).authorizationByNonce x.signer x.txId =
      authorizationHash c x := by
  rcases hx with rfl | rfl
  · simp [State.booked, State.consumed, update₂_of_ne _ hsigners]
  · simp [State.booked, State.consumed]

theorem Admitted.nonce_of_bound {env : Env} {signatureA signatureB : Bytes}
    (h : Admitted c env s a signatureA b signatureB fillShares price matchId)
    {signer : Address} {txId : Uint128} (hbound : s.authorizationByNonce signer txId ≠ 0) :
    (s.booked c a b fillShares price matchId).authorizationByNonce signer txId =
      s.authorizationByNonce signer txId := by
  have hnonceA := h.consumeA.nonce
  have hnonceB := h.consumeB.nonce
  simp only [State.consumed, update₂_of_ne _ (Ne.symm h.signers)] at hnonceB
  simp only [State.booked, State.consumed, update₂_apply]
  split
  · next heq =>
    rw [← heq.1, ← heq.2] at hnonceB
    exact (hnonceB.resolve_left hbound).symm
  · split
    · next heq =>
      rw [← heq.1, ← heq.2] at hnonceA
      exact (hnonceA.resolve_left hbound).symm
    · rfl

theorem Admitted.ne {env : Env} {signatureA signatureB : Bytes}
    (h : Admitted c env s a signatureA b signatureB fillShares price matchId) : a ≠ b :=
  fun heq => h.signers (congrArg Authorization.signer heq)

theorem Admitted.room {env : Env} {signatureA signatureB : Bytes} (hc : c.HashSound known)
    (ha : a ∈ known) (hb : b ∈ known)
    (h : Admitted c env s a signatureA b signatureB fillShares price matchId)
    (hx : x = a ∨ x = b) :
    Consumable s x (authorizationHash c x) fillShares (fillCollateral x fillShares price) := by
  rcases hx with rfl | rfl
  · exact h.consumeA
  · have hhash := hc.injOn.ne ha hb h.ne
    obtain ⟨hnonce, hshares, hcollateral, hqty, hcap⟩ := h.consumeB
    simp only [State.consumed, update₂_of_ne _ (Ne.symm h.signers),
      Function.update_of_ne hhash.symm] at hnonce hshares hcollateral hqty hcap
    exact ⟨hnonce, hshares, hcollateral, hqty, hcap⟩

end Booked

/-! ## Whole runs -/

/-- The cumulative fill that a list of fills of one order amounts to. -/
def fillTotal (x : Authorization) (fills : List (Nat × Nat)) : FillState where
  shares := quantity fills
  collateral := (fills.map fun fill => fillCollateral x fill.1 fill.2).sum

def matchIdsOf (receipts : List Receipt) : List Bytes32 :=
  receipts.filterMap fun r => r.tx.call.matchIdOf

section Steps

variable {c : Chain} {known : Set Authorization} {env : Env} {s s' : State} {call : Call}

theorem Books.fills_some (hc : c.HashSound known) (hcall : call.Within known)
    (h : Books c env s s' call) {x : Authorization} {fill : Nat × Nat}
    (hfill : call.fillOf x = some fill) :
    s'.fills (authorizationHash c x) =
        ⟨(s.fills (authorizationHash c x)).shares + fill.1,
          (s.fills (authorizationHash c x)).collateral + fillCollateral x fill.1 fill.2⟩ ∧
      (s.fills (authorizationHash c x)).shares + fill.1 ≤ x.qtyShares ∧
      (x.action = .buy → (s.fills (authorizationHash c x)).collateral +
        fillCollateral x fill.1 fill.2 ≤ x.collateralCap) ∧
      s'.authorizationByNonce x.signer x.txId = authorizationHash c x := by
  cases h with
  | other hnone => exact absurd (hfill.symm.trans (hnone x)) (by simp)
  | @settle a b _ _ fillShares price matchId hadmitted hfills hnonces _ _ =>
      simp only [Call.fillOf] at hfill
      split at hfill
      · next hx =>
        rw [Option.some.injEq] at hfill
        subst hfill
        have hroom := hadmitted.room hc hcall.1 hcall.2 hx
        refine ⟨?_, hroom.shares, hroom.collateral, ?_⟩
        · rw [hfills]
          exact booked_fills_self hc hcall.1 hcall.2 hadmitted.ne hx
        · rw [hnonces]
          exact booked_nonce_self hadmitted.signers hx
      · exact absurd hfill (by simp)

theorem Books.notCanceled (h : Books c env s s' call) {x : Authorization} {fill : Nat × Nat}
    (hfill : call.fillOf x = some fill) : s.canceled x.signer x.txId = false := by
  cases h with
  | other hnone => exact absurd (hfill.symm.trans (hnone x)) (by simp)
  | settle hadmitted =>
      simp only [Call.fillOf] at hfill
      split at hfill
      · next hx =>
        rcases hx with rfl | rfl
        · exact hadmitted.validA.notCanceled
        · exact hadmitted.validB.notCanceled
      · exact absurd hfill (by simp)

theorem Books.fills_none (hc : c.HashSound known) (hcall : call.Within known)
    (h : Books c env s s' call) {x : Authorization} (hx : x ∈ known)
    (hfill : call.fillOf x = none) :
    s'.fills (authorizationHash c x) = s.fills (authorizationHash c x) := by
  cases h with
  | other _ _ hfills => rw [hfills]
  | settle _ hfills =>
      simp only [Call.fillOf] at hfill
      split at hfill
      · exact absurd hfill (by simp)
      · next hne =>
        rw [not_or] at hne
        rw [hfills]
        exact booked_fills_other hc hcall.1 hcall.2 hx hne.1 hne.2

theorem Books.nonce_of_bound (h : Books c env s s' call) {signer : Address} {txId : Uint128}
    (hbound : s.authorizationByNonce signer txId ≠ 0) :
    s'.authorizationByNonce signer txId = s.authorizationByNonce signer txId := by
  cases h with
  | other _ _ _ hnonces => rw [hnonces]
  | settle hadmitted _ hnonces =>
      rw [hnonces]
      exact hadmitted.nonce_of_bound hbound

theorem Books.canceled (h : Books c env s s' call) {signer : Address} {txId : Uint128}
    (hcanceled : s.canceled signer txId = true) : s'.canceled signer txId = true := by
  cases h with
  | settle _ _ _ _ hsame => rw [hsame]; exact hcanceled
  | other _ _ _ _ _ hsame =>
      rcases hsame with hsame | ⟨txId', _, hsame⟩
      · rw [hsame]
        exact hcanceled
      · rw [hsame, update₂_apply]
        split
        · rfl
        · exact hcanceled

theorem Books.executed (h : Books c env s s' call) {matchId : Bytes32}
    (hexecuted : s.executedMatches matchId = true) : s'.executedMatches matchId = true := by
  cases h with
  | other _ _ _ _ hsame => rw [hsame]; exact hexecuted
  | settle _ _ _ hsame =>
      rw [hsame, Function.update_apply]
      split
      · rfl
      · exact hexecuted

theorem Books.fresh (h : Books c env s s' call) {matchId : Bytes32}
    (hmatch : call.matchIdOf = some matchId) :
    s.executedMatches matchId = false ∧ s'.executedMatches matchId = true := by
  cases h with
  | other _ hnone => exact absurd (hmatch.symm.trans hnone) (by simp)
  | settle hadmitted _ _ hsame =>
      rw [Call.matchIdOf, Option.some.injEq] at hmatch
      subst hmatch
      refine ⟨hadmitted.fresh, ?_⟩
      rw [hsame, Function.update_self]

end Steps

section Runs

variable {c : Chain} {known : Set Authorization} {s : State} {txs : List Tx}

/-- An authorization that some fill of the run uses is known. -/
theorem mem_of_fillsOf (htxs : ∀ tx ∈ txs, tx.call.Within known) {x : Authorization}
    (hfilled : fillsOf x (trace c s txs) ≠ []) : x ∈ known := by
  obtain ⟨fill, hmem⟩ := List.exists_mem_of_ne_nil _ hfilled
  obtain ⟨r, hr, hfill⟩ := List.mem_filterMap.mp hmem
  exact (htxs r.tx (trace_tx_mem hr)).mem_of_fillOf hfill

/-- The stored cumulative fill grows by exactly the fills that the run settles. -/
theorem run_fills (hc : c.HashSound known) (htxs : ∀ tx ∈ txs, tx.call.Within known)
    {x : Authorization} (hx : x ∈ known) :
    let fills := fillsOf x (trace c s txs)
    (run c s txs).fills (authorizationHash c x) =
      ⟨(s.fills (authorizationHash c x)).shares + (fillTotal x fills).shares,
        (s.fills (authorizationHash c x)).collateral + (fillTotal x fills).collateral⟩ := by
  induction txs generalizing s with
  | nil => rfl
  | cons tx txs ih =>
      rw [run_cons]
      cases hexec : exec c tx s with
      | ok r =>
          have hbooks := effect_books (exec_effect hexec)
          have htail := ih (s := r.1) (fun tx' htx' => htxs tx' (List.mem_cons_of_mem _ htx'))
          have hcall := htxs tx List.mem_cons_self
          rw [apply_ok hexec, trace_cons_ok hexec]
          simp only [fillsOf, fillTotal, List.filterMap_cons] at htail ⊢
          cases hfill : tx.call.fillOf x with
          | none =>
              rw [htail, hbooks.fills_none hc hcall hx hfill]
          | some fill =>
              rw [htail, (hbooks.fills_some hc hcall hfill).1]
              simp only [quantity, List.map_cons, List.sum_cons, Nat.add_assoc]
      | error e =>
          rw [apply_error hexec, trace_cons_error hexec]
          exact ih fun tx' htx' => htxs tx' (List.mem_cons_of_mem _ htx')

/-- No known authorization is filled beyond its quantity, and no known BUY beyond its cap. -/
def WithinBounds (c : Chain) (known : Set Authorization) (s : State) : Prop :=
  ∀ x ∈ known, (s.fills (authorizationHash c x)).shares ≤ x.qtyShares ∧
    (x.action = .buy → (s.fills (authorizationHash c x)).collateral ≤ x.collateralCap)

theorem Books.withinBounds (hc : c.HashSound known) {env : Env} {s' : State} {call : Call}
    (hcall : call.Within known) (hbooks : Books c env s s' call) (h : WithinBounds c known s) :
    WithinBounds c known s' := by
  intro x hx
  cases hfill : call.fillOf x with
  | none =>
      rw [hbooks.fills_none hc hcall hx hfill]
      exact h x hx
  | some fill =>
      obtain ⟨hfills, hshares, hcap, _⟩ := hbooks.fills_some hc hcall hfill
      rw [hfills]
      exact ⟨hshares, hcap⟩

theorem run_withinBounds (hc : c.HashSound known) (htxs : ∀ tx ∈ txs, tx.call.Within known)
    (h : WithinBounds c known s) : WithinBounds c known (run c s txs) := by
  refine run_preserves_of_mem ?_ h
  intro s tx htx r hs hexec
  exact (effect_books (exec_effect hexec)).withinBounds hc (htxs tx htx) hs

theorem run_nonce (txs : List Tx) {signer : Address} {txId : Uint128}
    (hbound : s.authorizationByNonce signer txId ≠ 0) :
    (run c s txs).authorizationByNonce signer txId = s.authorizationByNonce signer txId := by
  refine run_preserves (c := c)
    (P := fun s' => s'.authorizationByNonce signer txId = s.authorizationByNonce signer txId)
    ?_ rfl txs
  intro s' tx r hs' hexec
  have hbooks := effect_books (exec_effect hexec)
  rw [hbooks.nonce_of_bound (hs' ▸ hbound)]
  exact hs'

/-- An authorization that some fill of the run uses ends up bound to its nonce. -/
theorem run_bound (hc : c.HashSound known) (htxs : ∀ tx ∈ txs, tx.call.Within known)
    {x : Authorization} (hfilled : fillsOf x (trace c s txs) ≠ []) :
    (run c s txs).authorizationByNonce x.signer x.txId = authorizationHash c x := by
  induction txs generalizing s with
  | nil => exact absurd rfl hfilled
  | cons tx txs ih =>
      have htail (tx' : Tx) (htx' : tx' ∈ txs) := htxs tx' (List.mem_cons_of_mem _ htx')
      rw [run_cons]
      cases hexec : exec c tx s with
      | ok r =>
          have hbooks := effect_books (exec_effect hexec)
          rw [apply_ok hexec]
          rw [trace_cons_ok hexec] at hfilled
          cases hfill : tx.call.fillOf x with
          | none =>
              apply ih htail
              simpa only [fillsOf, List.filterMap_cons, hfill] using hfilled
          | some fill =>
              have hcall := htxs tx List.mem_cons_self
              have hnow := (hbooks.fills_some hc hcall hfill).2.2.2
              have hne : r.1.authorizationByNonce x.signer x.txId ≠ 0 := by
                rw [hnow]
                exact hc.ne_zero x (hcall.mem_of_fillOf hfill)
              rw [run_nonce txs hne, hnow]
      | error e =>
          rw [apply_error hexec]
          rw [trace_cons_error hexec] at hfilled
          exact ih htail hfilled

theorem canceled_fillsOf (txs : List Tx) {x : Authorization}
    (hcanceled : s.canceled x.signer x.txId = true) : fillsOf x (trace c s txs) = [] := by
  induction txs generalizing s with
  | nil => rfl
  | cons tx txs ih =>
      cases hexec : exec c tx s with
      | ok r =>
          have hbooks := effect_books (exec_effect hexec)
          have htail := ih (hbooks.canceled hcanceled)
          rw [trace_cons_ok hexec]
          simp only [fillsOf, List.filterMap_cons] at htail ⊢
          cases hfill : tx.call.fillOf x with
          | none => exact htail
          | some fill =>
              exact absurd ((hbooks.notCanceled hfill).symm.trans hcanceled) (by decide)
      | error e =>
          rw [trace_cons_error hexec]
          exact ih hcanceled

theorem executed_matchIdsOf (txs : List Tx) {matchId : Bytes32}
    (hexecuted : s.executedMatches matchId = true) : matchId ∉ matchIdsOf (trace c s txs) := by
  induction txs generalizing s with
  | nil => exact List.not_mem_nil
  | cons tx txs ih =>
      cases hexec : exec c tx s with
      | ok r =>
          have hbooks := effect_books (exec_effect hexec)
          have htail := ih (hbooks.executed hexecuted)
          rw [trace_cons_ok hexec]
          simp only [matchIdsOf, List.filterMap_cons] at htail ⊢
          cases hmatch : tx.call.matchIdOf with
          | none => exact htail
          | some matchId' =>
              have hfresh := (hbooks.fresh hmatch).1
              rw [List.mem_cons, not_or]
              refine ⟨?_, htail⟩
              rintro rfl
              exact absurd (hfresh.symm.trans hexecuted) (by decide)
      | error e =>
          rw [trace_cons_error hexec]
          exact ih hexecuted

theorem matchIdsOf_nodup (c : Chain) (s : State) (txs : List Tx) :
    (matchIdsOf (trace c s txs)).Nodup := by
  induction txs generalizing s with
  | nil => exact List.nodup_nil
  | cons tx txs ih =>
      cases hexec : exec c tx s with
      | ok r =>
          have hbooks := effect_books (exec_effect hexec)
          rw [trace_cons_ok hexec]
          simp only [matchIdsOf, List.filterMap_cons]
          cases hmatch : tx.call.matchIdOf with
          | none => exact ih r.1
          | some matchId =>
              have hnew := executed_matchIdsOf (c := c) txs (hbooks.fresh hmatch).2
              exact List.nodup_cons.mpr ⟨hnew, ih r.1⟩
      | error e =>
          rw [trace_cons_error hexec]
          exact ih s

end Runs

theorem Deployment.fills_zero {c : Chain} (d : Deployment c) (hash : Bytes32) :
    d.state.fills hash = ⟨0, 0⟩ := by
  obtain ⟨_, _, _, _, _, _, _, hstate⟩ :=
    (initialize_ok_iff _ _ _ _ _ _ _ _ _).mp d.initialized
  rw [hstate]
  rfl

/-- From deployment on, the stored fills are the sums of the fills that were settled. -/
theorem Deployment.run_fills {c : Chain} {known : Set Authorization} (hc : c.HashSound known)
    (d : Deployment c) {txs : List Tx} (htxs : ∀ tx ∈ txs, tx.call.Within known)
    {x : Authorization} (hx : x ∈ known) : (run c d.state txs).fills (authorizationHash c x) =
      fillTotal x (fillsOf x (trace c d.state txs)) := by
  rw [PrismV2.run_fills hc htxs hx, d.fills_zero]
  simp only [Nat.zero_add]

theorem Deployment.withinBounds {c : Chain} (d : Deployment c) (known : Set Authorization) :
    WithinBounds c known d.state := by
  intro x _
  rw [d.fills_zero]
  exact ⟨Nat.zero_le _, fun _ => Nat.zero_le _⟩

/-- Over every run: what the contract takes from an account other than itself, it takes in
that account's own redemption or with its consent; stored fills are the sums of the fills that
were settled and stay within quantity and cap; a nonce belongs to one authorization for good;
a canceled one is not settled again; and no match id is executed twice. -/
theorem no_movement_without_consent {c : Chain} {known : Set Authorization}
    (hc : c.HashSound known) (d : Deployment c) (txs : List Tx)
    (htxs : ∀ tx ∈ txs, tx.call.Within known) :
    (∀ r ∈ trace c d.state txs, ∀ account, account ≠ c.self →
      (r.tx.call.isTokenTransfer = false →
        r.after.collateral account < r.before.collateral account →
        ∃ marketId, OwnRedeem r.tx.env r.tx.call account marketId ∨
          Consented c r.tx.env r.before r.tx.call account marketId) ∧
      ∀ side marketId,
        r.after.position side marketId account < r.before.position side marketId account →
        OwnRedeem r.tx.env r.tx.call account marketId ∨
          Consented c r.tx.env r.before r.tx.call account marketId) ∧
    (∀ x ∈ known, (run c d.state txs).fills (authorizationHash c x) =
        fillTotal x (fillsOf x (trace c d.state txs)) ∧
      quantity (fillsOf x (trace c d.state txs)) ≤ x.qtyShares ∧
      (x.action = .buy → paidFor x (trace c d.state txs) ≤ x.collateralCap)) ∧
    (∀ x y, fillsOf x (trace c d.state txs) ≠ [] → fillsOf y (trace c d.state txs) ≠ [] →
      x.signer = y.signer → x.txId = y.txId → x = y) ∧
    (∀ before after, txs = before ++ after → ∀ signer txId,
      (run c d.state before).authorizationByNonce signer txId ≠ 0 →
      (run c d.state txs).authorizationByNonce signer txId =
        (run c d.state before).authorizationByNonce signer txId) ∧
    (∀ before tx after txId, txs = before ++ tx :: after →
      tx.call = .cancelAuthorization txId → ∀ x, x.signer = tx.env.sender → x.txId = txId →
      fillsOf x (trace c (run c d.state (before ++ [tx])) after) = []) ∧
    (matchIdsOf (trace c d.state txs)).Nodup := by
  have hbounds := run_withinBounds hc htxs (d.withinBounds known)
  refine ⟨?_, ?_, ?_, ?_, ?_, matchIdsOf_nodup c d.state txs⟩
  · intro r hr account hself
    have hexec := (trace_preserves (P := fun _ => True) (fun _ _ _ _ _ => trivial) trivial hr).2
    have heffect := exec_effect hexec
    exact ⟨fun htoken hless => effect_collateral_consent heffect htoken hself hless,
      fun side marketId hless => effect_position_consent heffect hless⟩
  · intro x hx
    have hfills := d.run_fills hc htxs hx
    obtain ⟨hqty, hcap⟩ := hbounds x hx
    rw [hfills] at hqty hcap
    refine ⟨hfills, hqty, ?_⟩
    intro hbuy
    rw [paidFor_eq hbuy]
    exact hcap hbuy
  · intro x y hx hy hsigner htxId
    have hboundX := run_bound hc htxs hx
    have hboundY := run_bound hc htxs hy
    rw [hsigner, htxId] at hboundX
    exact hc.injOn (mem_of_fillsOf htxs hx) (mem_of_fillsOf htxs hy) (hboundX.symm.trans hboundY)
  · intro before after hsplit signer txId hbound
    rw [hsplit, run_append]
    exact run_nonce after hbound
  · intro before tx after txId _ hcall x hsigner htxId
    apply canceled_fillsOf
    have hexec : exec c tx (run c d.state before) = .ok
        ({ run c d.state before with
            canceled := update₂ (run c d.state before).canceled tx.env.sender txId true },
          none) := by
      simp [exec, hcall, cancelAuthorization, Except.map]
    rw [run_append, run_cons, apply_ok hexec, run_nil, hsigner, htxId]
    exact update₂_same _ _ _ _

/-- The sample chain with a hash that is injective on all lists of words. -/
def encodingChain : Chain :=
  { sampleChain with keccak := fun words => Encodable.encode words + 1 }

theorem encodingChain_self : encodingChain.self = 10 := rfl

theorem encodingChain_hashSound (known : Set Authorization) : encodingChain.HashSound known :=
  hashSound_of_injective (fun _ _ h => Encodable.encode_injective (Nat.succ.inj h))
    (fun _ => Nat.succ_ne_zero _) known

theorem no_movement_without_consent_sample :
    quantity (fillsOf (sampleOrder 5 1 .yes .buy)
      (trace encodingChain (sampleDeployment encodingChain rfl).state sampleTrades)) ≤ 101 :=
  ((no_movement_without_consent (encodingChain_hashSound Set.univ)
    (sampleDeployment encodingChain rfl) sampleTrades fun tx _ => tx.call.within_univ).2.1
    (sampleOrder 5 1 .yes .buy) (Set.mem_univ _)).2.1

end PrismBackend.PrismV2
