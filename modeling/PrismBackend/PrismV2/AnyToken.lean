import PrismBackend.PrismV2.Reentrancy

/-!
# PrismV2: any token

What holds of the contract's own books in every run, whatever the token answers
and whoever it calls back: the token can keep a transaction from passing, and
money from being paid, but not the books from balancing, nor an authorization
from being respected.
-/

namespace PrismBackend.PrismV2.Callbacks

open PrismBackend.Lib

variable {c : Chain}

/-! ## A booking as an effect -/

def accepting (env : Env) : Env := { env with tokenAccepts := fun _ _ _ _ => true }

theorem pullCollateral_zero (env : Env) (s : State) (source target : Address) :
    PrismV2.pullCollateral (accepting env) (onLedger s fun _ => 0) source target 0 =
      .ok (onLedger s fun _ => 0) := by
  rw [pullCollateral_ok_iff, move_zero]
  exact ⟨Nat.zero_le _, rfl, by simp [onLedger], Or.inr rfl, rfl⟩

theorem pushCollateral_zero (env : Env) (s : State) (target : Address) :
    PrismV2.pushCollateral c (accepting env) (onLedger s fun _ => 0) target 0 =
      .ok (onLedger s fun _ => 0) := by
  rw [pushCollateral_ok_iff, move_zero]
  exact ⟨Nat.zero_le _, rfl, by simp [onLedger], Or.inr rfl, rfl⟩

/-- What is booked of a pairing is a pairing in which no collateral moves. -/
theorem bookPairing_effect (env : Env) {a b : Authorization} {shares : Nat} {s s' : State}
    (h : bookPairing a b shares s = .ok s') :
    PairingEffect c (accepting env) a b shares 0 0 (onLedger s fun _ => 0)
      (onLedger s' fun _ => 0) := by
  apply (executePairing_ok_iff _ _ _ _ _ _ _ _ _).mp
  unfold bookPairing at h
  unfold PrismV2.executePairing
  by_cases hmint : a.action = .buy ∧ b.action = .buy ∧ a.side ≠ b.side
  · rw [if_pos hmint] at h ⊢
    rw [mintCompleteSet_eq, overlooks_bookMint, h]
    simp only [Except.map, ok_bind, pullCollateral_zero]
  · rw [if_neg hmint] at h ⊢
    by_cases hmerge : a.action = .sell ∧ b.action = .sell ∧ a.side ≠ b.side
    · rw [if_pos hmerge] at h ⊢
      rw [mergeCompleteSet_eq, overlooks_bookMerge, h]
      simp only [Except.map, ok_bind, pushCollateral_zero]
    · rw [if_neg hmerge] at h ⊢
      by_cases htransfer : a.side = b.side ∧ a.action ≠ b.action
      · rw [if_pos htransfer] at h ⊢
        rw [transferPosition_eq, overlooks_bookTransfer, h]
        have hleg : legCollateral a.side 0 0 = 0 := by cases a.side <;> rfl
        simp only [Except.map, ok_bind, hleg, pullCollateral_zero]
      · rw [if_neg htransfer] at h
        exact absurd h (by simp)

theorem bookFill_ok {env : Env} {a : Authorization} {signatureA : Bytes} {b : Authorization}
    {signatureB : Bytes} {fillShares executionYesPrice : Nat} {matchId : Bytes32} {s : State}
    {booked : State × Nat × Nat}
    (h : bookFill c env a signatureA b signatureB fillShares executionYesPrice matchId s =
      .ok booked) :
    Admitted c env s a signatureA b signatureB fillShares executionYesPrice matchId ∧
      booked.1 = s.booked c a b fillShares executionYesPrice matchId := by
  simp only [bookFill, onlyOperator, sub256, bind_ok_iff, revertIf_ok_iff,
    nonReentrantBefore_ok_iff, validateAuthorization_ok_iff, mulDiv_ok_iff, checkedSub_ok_iff,
    consume_ok_iff, exists_const, not_or, not_not, not_le, ne_eq, Except.ok.injEq] at h
  obtain ⟨hop, _, ⟨hent, rfl⟩, ⟨hid, hfresh⟩, ⟨hm, hsig⟩, ⟨hopen, hclose⟩, ⟨hf, hp, hlt⟩, _,
    ⟨hvA, rfl⟩, _, ⟨hvB, rfl⟩, _, ⟨hd, hfit, rfl⟩, _, ⟨hle, rfl⟩, ⟨hyes, hno⟩, _, ⟨hcA, rfl⟩, _,
    ⟨hcB, rfl⟩, rfl⟩ := h
  have hbook := (consumable_entered _ _ _ _ _ _).mp hcA
  have hbook' := (consumable_entered (s.consumed _ _ _ _) _ _ _ _ _).mp hcB
  exact ⟨⟨hop, hent, hid, Bool.eq_false_iff.mpr hfresh, hm, hsig, hopen, hclose, hf, hp, hlt,
    (valid_entered _ _ _ _ _ _ _).mp hvA, (valid_entered _ _ _ _ _ _ _).mp hvB, hfit, hyes, hno,
    hbook, hbook'⟩, rfl⟩

theorem bookPayout_ok {env : Env} {marketId : Uint128} {s : State} {due : State × Nat × Nat}
    {booked : State × Nat}
    (hdue : (nonReentrantBefore s >>= redeemShares env marketId) = .ok due)
    (h : bookPayout marketId due.2.1 due.2.2 due.1 = .ok booked) :
    Claimable s marketId env.sender ∧ s.grossPayout marketId env.sender ≤ s.aggregateReserved ∧
      nonReentrantAfter booked.1 = onLedger (s.redeemed c marketId env.sender) s.collateral ∧
      (⟨marketId, env.sender, due.2.1, due.2.2, booked.2⟩ : Redeemed) =
        redeemedRecord s marketId env.sender := by
  obtain ⟨s₁, hbefore, hshares⟩ := (bind_ok_iff _ _ _).mp hdue
  obtain ⟨_, rfl⟩ := (nonReentrantBefore_ok_iff _ _).mp hbefore
  obtain ⟨hclaim, rfl⟩ := (redeemShares_ok_iff _ _ _ _).mp hshares
  simp only [bookPayout, sub256, bind_ok_iff, revertIf_ok_iff, checkedSub_ok_iff, exists_const,
    Except.ok.injEq] at h
  obtain ⟨_, _, ⟨_, rfl⟩, _, ⟨haggregate, rfl⟩, _, ⟨_, rfl⟩, rfl⟩ := h
  exact ⟨(claimable_entered s marketId env.sender 2).mp hclaim, haggregate, rfl, rfl⟩

/-- Everything that a transaction can book. -/
inductive Booking (c : Chain) (env : Env) (s : State) : Call → State → Option Redeemed → Prop
  | plain {call : Call} {s' : State} {value : Option Redeemed}
      (hguarded : isGuarded ⟨env, call⟩ = false) (htoken : call.isTokenTransfer = false)
      (hexec : exec c ⟨env, call⟩ s = .ok (s', value)) :
      Booking c env s call s' value
  | settle {a b : Authorization} {signatureA signatureB : Bytes}
      {fillShares executionYesPrice : Nat} {matchId : Bytes32} {s₁ : State}
      (hadmitted : Admitted c env s a signatureA b signatureB fillShares executionYesPrice matchId)
      (hpair : PairingEffect c (accepting env) a b fillShares 0 0
        (onLedger (s.booked c a b fillShares executionYesPrice matchId) fun _ => 0)
        (onLedger s₁ fun _ => 0)) :
      Booking c env s (.settle a signatureA b signatureB fillShares executionYesPrice matchId)
        (nonReentrantAfter s₁) none
  | redeem (marketId : Uint128) (hclaim : Claimable s marketId env.sender)
      (haggregate : s.grossPayout marketId env.sender ≤ s.aggregateReserved) :
      Booking c env s (.redeem marketId) (onLedger (s.redeemed c marketId env.sender) s.collateral)
        (some (redeemedRecord s marketId env.sender))

theorem book_booking {tx : Tx} {s s' : State} {value : Option Redeemed}
    (h : book c tx s = .ok (s', value)) : Booking c tx.env s tx.call s' value := by
  obtain ⟨env, call⟩ := tx
  cases call with
  | settle a signatureA b signatureB fillShares executionYesPrice matchId =>
      simp only [book, bind_ok_iff, Except.ok.injEq, Prod.mk.injEq] at h
      obtain ⟨booked, hbook, s₁, hpair, rfl, rfl⟩ := h
      obtain ⟨hadmitted, hbooked⟩ := bookFill_ok hbook
      rw [hbooked] at hpair
      exact .settle hadmitted (bookPairing_effect env hpair)
  | redeem marketId =>
      simp only [book, bind_ok_iff, Except.ok.injEq, Prod.mk.injEq] at h
      obtain ⟨due, hdue, booked, hbook, rfl, rfl⟩ := h
      obtain ⟨hclaim, haggregate, hstate, hrecord⟩ :=
        bookPayout_ok (c := c) ((bind_ok_iff _ _ _).mpr hdue) hbook
      rw [hstate, hrecord]
      exact .redeem marketId hclaim haggregate
  | tokenTransfer source target amount => exact absurd h (by simp [book])
  | _ => exact .plain rfl rfl h

/-! ## The books -/

theorem booking_books {env : Env} {call : Call} {s s' : State} {value : Option Redeemed}
    (h : Booking c env s call s' value) (hs : BooksBalance s) : BooksBalance s' := by
  cases h with
  | plain hguarded htoken hexec =>
      -- on a ledger that holds what is reserved, the call keeps the contract solvent
      have hcode : (code c ⟨env, call⟩ s).handle (ledger c env) (fun _ => s.aggregateReserved) =
          (.ok (s', value), fun _ => s.aggregateReserved) := by
        rw [code_of_unguarded hguarded, (book_of_unguarded hguarded).mpr ⟨htoken, hexec⟩]
        rfl
      have hfollows := @code_follows c ⟨env, call⟩ htoken s s' value
        (fun _ => s.aggregateReserved) (fun _ => s.aggregateReserved)
      have hledger := (hfollows.mp hcode).2
      have hsolvent : Solvent c (onLedger s fun _ => s.aggregateReserved) :=
        ⟨hs.congr rfl rfl, le_rfl⟩
      exact (effect_solvent (exec_effect hledger) hsolvent).toBooksBalance.congr rfl rfl
  | @settle a b _ _ fillShares price matchId s₁ hadmitted hpair =>
      have hbooked : BooksBalance (onLedger (s.booked c a b fillShares price matchId) fun _ => 0) :=
        hs.congr rfl rfl
      have hlive : (s.markets a.marketId).state.isLive = true := by
        rw [hadmitted.isOpen]
        rfl
      exact (hpair.books hbooked hlive).congr rfl rfl
  | redeem marketId hclaim haggregate =>
      exact (redeemed_books c env.sender hs hclaim.terminal haggregate).congr rfl rfl

theorem bookAll_preserves {P : State → Prop} {txs : List Tx}
    (hstep : ∀ s, ∀ tx ∈ txs, ∀ s' value, P s → book c tx s = .ok (s', value) → P s')
    {s s' : State} {values : List (Option Redeemed)} (h : bookAll c s txs = .ok (s', values))
    (hs : P s) : P s' := by
  induction txs generalizing s values with
  | nil =>
      simp only [bookAll, Except.ok.injEq, Prod.mk.injEq] at h
      obtain ⟨rfl, _⟩ := h
      exact hs
  | cons tx txs ih =>
      simp only [bookAll, bind_ok_iff, Except.ok.injEq, Prod.mk.injEq] at h
      obtain ⟨r, hbook, rest, hrest, rfl, _⟩ := h
      have hhead := hstep s tx List.mem_cons_self r.1 r.2 hs hbook
      exact ih (fun s tx' htx' => hstep s tx' (List.mem_cons_of_mem _ htx')) hrest hhead

theorem deployment_idle (d : Deployment c) : d.state.reentrancyStatus = 1 := by
  obtain ⟨_, _, _, _, _, _, _, hstate⟩ :=
    (initialize_ok_iff _ _ _ _ _ _ _ _ _).mp d.initialized
  rw [hstate]

/-- With any token, the books of a deployment balance after every run, and wherever the token gets
control: in each market the totals are the sums of the positions and what is owed on them is
reserved, and the aggregate is the sum of the reserves. -/
theorem any_token_balances (d : Deployment c) {depth : Nat} {s' : State} {events : List TokenEvent}
    (h : Entered (code c) TokenRequest.isView depth d.state events s') :
    BooksBalance s' ∧ ∀ s₁, .handed s₁ ∈ events → BooksBalance s₁ := by
  have hidle := deployment_idle d
  have hbooks : BooksBalance d.state := d.solvent.toBooksBalance
  have hstep (s : State) (tx : Tx) (s' : State) (value : Option Redeemed) (hs : BooksBalance s)
      (hbook : book c tx s = .ok (s', value)) : BooksBalance s' :=
    booking_books (book_booking hbook) hs
  refine ⟨bookAll_preserves (fun s tx _ => hstep s tx) (bookAll_of_entered hidle h) hbooks, ?_⟩
  intro s₁ hmem
  obtain ⟨earlier, later, hevents⟩ := List.append_of_mem hmem
  have hreleased := bookAll_preserves (fun s tx _ => hstep s tx) (bookAll_of_handed hidle h hevents) hbooks
  exact hreleased.congr rfl rfl

theorem any_token_balances_sample : ∃ s' : State, s'.canceled 5 1 = true ∧ s'.yesBalance 7 5 = 101 ∧
    BooksBalance s' := by
  obtain ⟨events, s', hentered, hcanceled, hyes⟩ := sample_entered
  have hbalances := any_token_balances (sampleDeployment positionalChain rfl) hentered
  exact ⟨s', hcanceled, hyes, hbalances.1⟩

/-! ## Authorizations -/

def fillsIn (x : Authorization) (txs : List Tx) : List (Nat × Nat) :=
  txs.filterMap fun tx => tx.call.fillOf x

theorem book_records {tx : Tx} {s s' : State} {value : Option Redeemed}
    (h : book c tx s = .ok (s', value)) : Books c tx.env s s' tx.call := by
  have hbooking := book_booking h
  obtain ⟨env, call⟩ := tx
  cases hbooking with
  | plain _ _ hexec => exact effect_books (exec_effect hexec)
  | settle hadmitted hpair =>
      have hsame := hpair.sameControl
      exact .settle hadmitted hsame.fills hsame.authorizationByNonce hsame.executedMatches
        hsame.canceled
  | redeem marketId _ _ =>
      have hsame := redeemed_sameControl s c marketId env.sender
      exact .other (fun _ => rfl) rfl hsame.fills hsame.authorizationByNonce
        hsame.executedMatches (Or.inl hsame.canceled)

section Booked

variable {known : Set Authorization} {txs : List Tx} {s s' : State}
  {values : List (Option Redeemed)}

theorem bookAll_cons {tx : Tx} (h : bookAll c s (tx :: txs) = .ok (s', values)) :
    ∃ s₁ value values', Books c tx.env s s₁ tx.call ∧ book c tx s = .ok (s₁, value) ∧
      bookAll c s₁ txs = .ok (s', values') := by
  simp only [bookAll, bind_ok_iff, Except.ok.injEq, Prod.mk.injEq] at h
  obtain ⟨r, hbook, rest, hrest, rfl, _⟩ := h
  exact ⟨r.1, r.2, rest.2, book_records hbook, hbook, hrest⟩

theorem bookAll_append {later : List Tx}
    (h : bookAll c s (txs ++ later) = .ok (s', values)) :
    ∃ s₁ before after, bookAll c s txs = .ok (s₁, before) ∧
      bookAll c s₁ later = .ok (s', after) := by
  induction txs generalizing s values with
  | nil => exact ⟨s, [], values, rfl, h⟩
  | cons tx txs ih =>
      obtain ⟨s₁, value, values', _, hbook, hrest⟩ := bookAll_cons h
      obtain ⟨s₂, before, after, hbefore, hafter⟩ := ih hrest
      refine ⟨s₂, value :: before, after, ?_, hafter⟩
      simp only [bookAll, hbook, ok_bind, hbefore]

theorem bookAll_fills (hc : c.HashSound known) (htxs : ∀ tx ∈ txs, tx.call.Within known)
    (h : bookAll c s txs = .ok (s', values)) {x : Authorization} (hx : x ∈ known) : s'.fills (authorizationHash c x) =
      ⟨(s.fills (authorizationHash c x)).shares + (fillTotal x (fillsIn x txs)).shares,
        (s.fills (authorizationHash c x)).collateral +
          (fillTotal x (fillsIn x txs)).collateral⟩ := by
  induction txs generalizing s values with
  | nil =>
      simp only [bookAll, Except.ok.injEq, Prod.mk.injEq] at h
      rw [h.1]
      rfl
  | cons tx txs ih =>
      obtain ⟨s₁, _, _, hrecords, _, hrest⟩ := bookAll_cons h
      have htail := ih (fun tx' htx' => htxs tx' (List.mem_cons_of_mem _ htx')) hrest
      have hcall := htxs tx List.mem_cons_self
      simp only [fillsIn, fillTotal, List.filterMap_cons] at htail ⊢
      cases hfill : tx.call.fillOf x with
      | none => rw [htail, hrecords.fills_none hc hcall hx hfill]
      | some fill =>
          rw [htail, (hrecords.fills_some hc hcall hfill).1]
          simp only [quantity, List.map_cons, List.sum_cons, Nat.add_assoc]

theorem bookAll_canceled (h : bookAll c s txs = .ok (s', values))
    {x : Authorization} (hcanceled : s.canceled x.signer x.txId = true) : fillsIn x txs = [] := by
  induction txs generalizing s values with
  | nil => rfl
  | cons tx txs ih =>
      obtain ⟨s₁, _, _, hrecords, _, hrest⟩ := bookAll_cons h
      have htail := ih hrest (hrecords.canceled hcanceled)
      simp only [fillsIn, List.filterMap_cons] at htail ⊢
      cases hfill : tx.call.fillOf x with
      | none => exact htail
      | some fill => exact absurd ((hrecords.notCanceled hfill).symm.trans hcanceled) (by decide)

theorem bookAll_executed (h : bookAll c s txs = .ok (s', values)) {matchId : Bytes32}
    (hexecuted : s.executedMatches matchId = true) :
    matchId ∉ txs.filterMap fun tx => tx.call.matchIdOf := by
  induction txs generalizing s values with
  | nil => exact List.not_mem_nil
  | cons tx txs ih =>
      obtain ⟨s₁, _, _, hrecords, _, hrest⟩ := bookAll_cons h
      have htail := ih hrest (hrecords.executed hexecuted)
      rw [List.filterMap_cons]
      cases hmatch : tx.call.matchIdOf with
      | none => exact htail
      | some matchId' =>
          have hfresh := (hrecords.fresh hmatch).1
          rw [List.mem_cons, not_or]
          refine ⟨?_, htail⟩
          rintro rfl
          exact absurd (hfresh.symm.trans hexecuted) (by decide)

theorem bookAll_nodup (h : bookAll c s txs = .ok (s', values)) :
    (txs.filterMap fun tx => tx.call.matchIdOf).Nodup := by
  induction txs generalizing s values with
  | nil => exact List.nodup_nil
  | cons tx txs ih =>
      obtain ⟨s₁, _, _, hrecords, _, hrest⟩ := bookAll_cons h
      rw [List.filterMap_cons]
      cases hmatch : tx.call.matchIdOf with
      | none => exact ih hrest
      | some matchId =>
          have hnew := bookAll_executed hrest (hrecords.fresh hmatch).2
          exact List.nodup_cons.mpr ⟨hnew, ih hrest⟩

end Booked

theorem book_signed {tx : Tx} {s s' : State} {value : Option Redeemed}
    (h : book c tx s = .ok (s', value)) {x : Authorization} {fill : Nat × Nat}
    (hfill : tx.call.fillOf x = some fill) :
    Consented c tx.env s tx.call x.signer x.marketId := by
  have hrecords := book_records h
  obtain ⟨env, call⟩ := tx
  cases hrecords with
  | other hnone => exact absurd (hfill.symm.trans (hnone x)) (by simp)
  | settle hadmitted _ _ _ _ =>
      simp only [Call.fillOf] at hfill
      split at hfill
      · next hx => exact hadmitted.consented hx
      · exact absurd hfill (by simp)

/-- With any token, over every run of a deployment: each fill of an authorization is of one that
its signer has consented to and not canceled; the fills of an authorization stay within its
quantity and its cap; one that is canceled, be it in a callback, is not filled afterwards; and no
match is settled twice. -/
theorem any_token_consent {known : Set Authorization} (hc : c.HashSound known)
    (d : Deployment c) {depth : Nat} {s' : State} {events : List TokenEvent}
    (h : Entered (code c) TokenRequest.isView depth d.state events s')
    (hknown : ∀ tx ∈ entered events, tx.call.Within known) :
    (∀ earlier tx later, entered events = earlier ++ tx :: later → ∀ x fill,
      tx.call.fillOf x = some fill → ∃ s values, bookAll c d.state earlier = .ok (s, values) ∧
        Consented c tx.env s tx.call x.signer x.marketId) ∧
    (∀ x ∈ known, quantity (fillsIn x (entered events)) ≤ x.qtyShares ∧ (x.action = .buy →
      (fillTotal x (fillsIn x (entered events))).collateral ≤ x.collateralCap)) ∧
    (∀ earlier tx later txId, entered events = earlier ++ tx :: later →
      tx.call = .cancelAuthorization txId → ∀ x, x.signer = tx.env.sender → x.txId = txId →
      fillsIn x later = []) ∧
    ((entered events).filterMap fun tx => tx.call.matchIdOf).Nodup := by
  have hbooked := bookAll_of_entered (deployment_idle d) h
  have hsplit {earlier later : List Tx} {tx : Tx}
      (hevents : entered events = earlier ++ tx :: later) :
      ∃ s₁ before s₂ value after, bookAll c d.state earlier = .ok (s₁, before) ∧
        book c tx s₁ = .ok (s₂, value) ∧ bookAll c s₂ later = .ok (s', after) := by
    rw [hevents] at hbooked
    obtain ⟨s₁, before, after, hbefore, hafter⟩ := bookAll_append hbooked
    obtain ⟨s₂, value, after', _, hbook, hrest⟩ := bookAll_cons hafter
    exact ⟨s₁, before, s₂, value, after', hbefore, hbook, hrest⟩
  refine ⟨?_, ?_, ?_, bookAll_nodup hbooked⟩
  · intro earlier tx later hevents x fill hfill
    obtain ⟨s₁, before, _, _, _, hbefore, hbook, _⟩ := hsplit hevents
    exact ⟨s₁, before, hbefore, book_signed hbook hfill⟩
  · intro x hx
    have hbounds := bookAll_preserves (P := WithinBounds c known)
      (fun _ tx htx _ _ hs hbook => (book_records hbook).withinBounds hc (hknown tx htx) hs) hbooked
      (d.withinBounds known) x hx
    rw [bookAll_fills hc hknown hbooked hx, d.fills_zero] at hbounds
    simp only [Nat.zero_add] at hbounds
    exact hbounds
  · intro earlier tx later txId hevents hcall x hsigner htxId
    obtain ⟨s₁, _, s₂, value, _, _, hbook, hrest⟩ := hsplit hevents
    apply bookAll_canceled hrest
    obtain ⟨env, call⟩ := tx
    obtain rfl : call = .cancelAuthorization txId := hcall
    simp only [book, exec, cancelAuthorization, Except.map, Except.ok.injEq, Prod.mk.injEq] at hbook
    rw [← hbook.1, hsigner, htxId]
    exact update₂_same _ _ _ _

theorem any_token_consent_sample : ∃ (events : List TokenEvent) (s' : State),
    s'.canceled 5 1 = true ∧ s'.yesBalance 7 5 = 101 ∧
    quantity (fillsIn (sampleOrder 5 1 .yes .buy) (entered events)) ≤ 101 := by
  obtain ⟨events, s', hentered, hcanceled, hyes⟩ := sample_entered
  have hconsent := any_token_consent (positionalChain_hashSound Set.univ)
    (sampleDeployment positionalChain rfl) hentered fun tx _ => tx.call.within_univ
  exact ⟨events, s', hcanceled, hyes,
    (hconsent.2.1 (sampleOrder 5 1 .yes .buy) (Set.mem_univ _)).1⟩

end PrismBackend.PrismV2.Callbacks
