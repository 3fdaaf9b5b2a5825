import Mathlib.Data.Nat.Digits.Lemmas
import PrismBackend.PrismV2.Callbacks
import PrismBackend.PrismV2.SettlementOrder

/-!
# PrismV2: reentrancy

A settlement or a redemption writes all that it writes before it first calls
the token, and nothing else calls anybody. So whatever a token calls back, and
whatever it answers, a run leaves what the transactions write one after the
other: the token can stop a transaction and do no more.
-/

namespace PrismBackend.PrismV2.Callbacks

open PrismBackend.Lib PrismBackend.Lib.Program

/-! ## What a transaction writes -/

def bookPairing (a b : Authorization) (shares : Nat) (s : State) : Except Err State :=
  if a.action = .buy ∧ b.action = .buy ∧ a.side ≠ b.side then bookMint a b shares s
  else if a.action = .sell ∧ b.action = .sell ∧ a.side ≠ b.side then bookMerge a b shares s
  else if a.side = b.side ∧ a.action ≠ b.action then bookTransfer a b shares s
  else .error .invalidPairing

/-- What is left of a transaction when the token is left out. -/
def book (c : Chain) (tx : Tx) (s : State) : Except Err (State × Option Redeemed) :=
  match tx.call with
  | .settle a signatureA b signatureB fillShares executionYesPrice matchId => do
    let booked ← bookFill c tx.env a signatureA b signatureB fillShares executionYesPrice matchId s
    let s ← bookPairing a b fillShares booked.1
    .ok (nonReentrantAfter s, none)
  | .redeem marketId => do
    let due ← nonReentrantBefore s >>= redeemShares tx.env marketId
    let booked ← bookPayout marketId due.2.1 due.2.2 due.1
    .ok (nonReentrantAfter booked.1,
      some ⟨marketId, tx.env.sender, due.2.1, due.2.2, booked.2⟩)
  | .tokenTransfer _ _ _ => .error .tokenFailure
  | _ => exec c tx s

/-! ## After the writes -/

/-- The code of a transaction from a storage: what is left of it only asks. -/
abbrev Asking (value : Option Redeemed)
    (k : State → ContractM (Except Err (State × Option Redeemed))) : Prop :=
  Asks (fun s s' : State => s'.aggregateReserved = s.aggregateReserved) nonReentrantAfter value k

variable {c : Chain} {value : Option Redeemed}
  {k : State → ContractM (Except Err (State × Option Redeemed))}

theorem andThen_ask {γ δ : Type} (s : State) (r : TokenRequest)
    (f : State → r.Answer → ContractM (Except Err γ)) (g : γ → ContractM (Except Err δ)) :
    andThen (ask s r f) g = ask s r fun s answer => andThen (f s answer) g := rfl

theorem asking_ask {r : TokenRequest}
    {f : State → r.Answer → ContractM (Except Err (State × Option Redeemed))}
    (h : ∀ answer, Asking value fun s => f s answer) : Asking value fun s => ask s r f :=
  Asks.ask r h

theorem asking_guard {P : Prop} [Decidable P] {err : Err} (hk : Asking value k) :
    Asking value fun s => andThen (.ret (revertIf P err >>= fun _ => .ok s)) k := by
  by_cases hP : P
  · simp only [revertIf, if_pos hP]
    exact .fail err
  · simp only [revertIf, if_neg hP]
    exact hk

theorem asking_pullCollateral (hk : Asking value k) (source target : Address) (amount : Nat) :
    Asking value fun s => andThen (pullCollateral s source target amount) k := by
  simp only [pullCollateral, andThen_ask]
  refine asking_ask fun balanceBefore => asking_ask fun moved => ?_
  cases moved with
  | false => exact .fail Err.tokenFailure
  | true =>
      simp only [Bool.not_true, Bool.false_eq_true, if_false, andThen_ask]
      refine asking_ask fun balance => ?_
      cases hexpected : add256 balanceBefore amount with
      | error err => exact .fail err
      | ok expected => exact asking_guard hk

theorem asking_pushCollateral (hk : Asking value k) (target : Address) (amount : Nat) :
    Asking value fun s => andThen (pushCollateral c s target amount) k := by
  simp only [pushCollateral, andThen_ask]
  refine asking_ask fun balanceBefore => asking_ask fun moved => ?_
  cases moved with
  | false => exact .fail Err.tokenFailure
  | true =>
      simp only [Bool.not_true, Bool.false_eq_true, if_false, andThen_ask]
      refine asking_ask fun balance => ?_
      cases hdebited : add256 balance amount with
      | error err => exact .fail err
      | ok debited => exact asking_guard hk

theorem asking_assertSolvent (hk : Asking value k) :
    Asking value fun s => andThen (assertSolvent c s) k := by
  simp only [assertSolvent, andThen_ask]
  refine asking_ask fun balance => ?_
  have htest : Asking value fun s : State =>
      if balance < s.aggregateReserved then .ret (.error .insolvent) else k s := by
    refine .test ?_ (.fail Err.insolvent) hk
    intro s s' hframe
    rw [hframe]
  convert htest using 2 with s
  unfold revertIf
  split <;> rfl

/-- The code fails before it has called anybody, or has written all that is booked. -/
def Starts (program : ContractM (Except Err (State × Option Redeemed)))
    (booked : Except Err (State × Option Redeemed)) : Prop :=
  (∃ err, program = .ret (.error err)) ∨ ∃ k s value, program = k s ∧
    booked = .ok (nonReentrantAfter s, value) ∧ s.reentrancyStatus = 2 ∧ Asking value k

theorem starts_attempt {γ : Type} {result : Except Err γ}
    {f : γ → ContractM (Except Err (State × Option Redeemed))}
    {g : γ → Except Err (State × Option Redeemed)}
    (h : ∀ value, result = .ok value → Starts (f value) (g value)) :
    Starts (attempt result f) (result >>= g) := by
  cases result with
  | error err => exact Or.inl ⟨err, rfl⟩
  | ok value => exact h value rfl

theorem starts_of_asking {s : State} (hs : s.reentrancyStatus = 2) (hk : Asking value k) :
    Starts (k s) (.ok (nonReentrantAfter s, value)) :=
  Or.inr ⟨k, s, value, rfl, rfl, hs, hk⟩

theorem bookMint_status {a b : Authorization} {shares : Nat} {s s' : State}
    (h : bookMint a b shares s = .ok s') : s'.reentrancyStatus = s.reentrancyStatus := by
  simp only [bookMint, bind_ok_iff, Except.ok.injEq] at h
  obtain ⟨_, _, _, _, _, _, _, _, _, _, _, _, rfl⟩ := h
  rfl

theorem bookMerge_status {a b : Authorization} {shares : Nat} {s s' : State}
    (h : bookMerge a b shares s = .ok s') : s'.reentrancyStatus = s.reentrancyStatus := by
  simp only [bookMerge, bind_ok_iff, Except.ok.injEq] at h
  obtain ⟨_, _, _, _, _, _, _, _, _, _, _, _, _, _, rfl⟩ := h
  rfl

theorem bookTransfer_status {a b : Authorization} {shares : Nat} {s s' : State}
    (h : bookTransfer a b shares s = .ok s') : s'.reentrancyStatus = s.reentrancyStatus := by
  unfold bookTransfer at h
  cases hside : a.side with
  | yes =>
      simp only [hside, bind_ok_iff, Except.ok.injEq] at h
      obtain ⟨_, _, rfl⟩ := h
      rfl
  | no =>
      simp only [hside, bind_ok_iff, Except.ok.injEq] at h
      obtain ⟨_, _, rfl⟩ := h
      rfl

theorem starts_executePairing (hk : Asking value k) {s : State} (hs : s.reentrancyStatus = 2)
    (a b : Authorization) (shares yesCollateral noCollateral : Nat) :
    Starts (andThen (executePairing c a b shares yesCollateral noCollateral s) k)
      (bookPairing a b shares s >>= fun s => .ok (nonReentrantAfter s, value)) := by
  unfold executePairing bookPairing
  by_cases hmint : a.action = .buy ∧ b.action = .buy ∧ a.side ≠ b.side
  · rw [if_pos hmint, if_pos hmint, mintCompleteSet, attempt_andThen]
    refine starts_attempt fun s' hbook => ?_
    rw [andThen_assoc]
    have hpull := asking_pullCollateral hk (if a.side = .no then a else b).signer c.self
      noCollateral
    exact starts_of_asking (k := fun s => andThen (pullCollateral s _ _ _) _)
      ((bookMint_status hbook).trans hs) (asking_pullCollateral hpull _ _ _)
  · rw [if_neg hmint, if_neg hmint]
    by_cases hmerge : a.action = .sell ∧ b.action = .sell ∧ a.side ≠ b.side
    · rw [if_pos hmerge, if_pos hmerge, mergeCompleteSet, attempt_andThen]
      refine starts_attempt fun s' hbook => ?_
      rw [andThen_assoc]
      have hpush := asking_pushCollateral (c := c) hk (if a.side = .no then a else b).signer
        noCollateral
      exact starts_of_asking (k := fun s => andThen (pushCollateral c s _ _) _)
        ((bookMerge_status hbook).trans hs) (asking_pushCollateral hpush _ _)
    · rw [if_neg hmerge, if_neg hmerge]
      by_cases htransfer : a.side = b.side ∧ a.action ≠ b.action
      · rw [if_pos htransfer, if_pos htransfer, transferPosition, attempt_andThen]
        refine starts_attempt fun s' hbook => ?_
        exact starts_of_asking (k := fun s => andThen (pullCollateral s _ _ _) _)
          ((bookTransfer_status hbook).trans hs) (asking_pullCollateral hk _ _ _)
      · rw [if_neg htransfer, if_neg htransfer]
        exact Or.inl ⟨.invalidPairing, rfl⟩

theorem consume_status {s s' : State} {a : Authorization} {hash : Bytes32}
    {fillShares fillCollateral : Nat} (h : consume s a hash fillShares fillCollateral = .ok s') :
    s'.reentrancyStatus = s.reentrancyStatus := by
  obtain ⟨_, rfl⟩ := (consume_ok_iff _ _ _ _ _ _).mp h
  rfl

theorem bookFill_status {env : Env} {a : Authorization} {signatureA : Bytes} {b : Authorization}
    {signatureB : Bytes} {fillShares executionYesPrice : Nat} {matchId : Bytes32} {s : State}
    {booked : State × Nat × Nat}
    (h : bookFill c env a signatureA b signatureB fillShares executionYesPrice matchId s =
      .ok booked) : s.reentrancyStatus = 1 ∧ booked.1.reentrancyStatus = 2 := by
  simp only [bookFill, bind_ok_iff, nonReentrantBefore_ok_iff, Except.ok.injEq] at h
  obtain ⟨_, _, s₁, ⟨hidle, rfl⟩, _, _, _, _, _, _, _, _, _, _, _, _, _, _, _, _, _, _, s₂, hA, s₃,
    hB, rfl⟩ := h
  exact ⟨hidle, (consume_status hB).trans (consume_status hA)⟩

theorem asking_end (value : Option Redeemed) : Asking value fun s =>
    andThen (assertSolvent c s) fun s => .ret (.ok (nonReentrantAfter s, value)) :=
  asking_assertSolvent .done

theorem starts_settle (env : Env) (a : Authorization) (signatureA : Bytes) (b : Authorization)
    (signatureB : Bytes) (fillShares executionYesPrice : Nat) (matchId : Bytes32) (s : State) :
    Starts (code c ⟨env, .settle a signatureA b signatureB fillShares executionYesPrice matchId⟩ s)
      (book c ⟨env, .settle a signatureA b signatureB fillShares executionYesPrice matchId⟩ s) := by
  unfold code book settle
  dsimp only
  rw [attempt_andThen]
  refine starts_attempt fun booked hbook => ?_
  simp only [andThen_assoc]
  exact starts_executePairing (asking_end none) (bookFill_status hbook).2 _ _ _ _ _

theorem redeemShares_status {env : Env} {marketId : Uint128} {s : State} {due : State × Nat × Nat}
    (h : (nonReentrantBefore s >>= redeemShares env marketId) = .ok due) :
    s.reentrancyStatus = 1 ∧ due.1.reentrancyStatus = 2 := by
  obtain ⟨s₁, hbefore, hshares⟩ := (bind_ok_iff _ _ _).mp h
  obtain ⟨hidle, rfl⟩ := (nonReentrantBefore_ok_iff _ _).mp hbefore
  obtain ⟨_, rfl⟩ := (redeemShares_ok_iff _ _ _ _).mp hshares
  exact ⟨hidle, rfl⟩

theorem bookPayout_status {marketId : Uint128} {gross fee : Nat} {s : State} {booked : State × Nat}
    (h : bookPayout marketId gross fee s = .ok booked) :
    booked.1.reentrancyStatus = s.reentrancyStatus := by
  simp only [bookPayout, bind_ok_iff, Except.ok.injEq] at h
  obtain ⟨_, _, _, _, _, _, _, _, rfl⟩ := h
  rfl

theorem starts_redeem (env : Env) (marketId : Uint128) (s : State) :
    Starts (code c ⟨env, .redeem marketId⟩ s) (book c ⟨env, .redeem marketId⟩ s) := by
  unfold code book redeem
  dsimp only
  rw [attempt_andThen]
  refine starts_attempt fun due hdue => ?_
  rw [attempt_andThen]
  refine starts_attempt fun booked hbook => ?_
  simp only [payDue, andThen_assoc]
  have hstatus := (bookPayout_status hbook).trans (redeemShares_status hdue).2
  have hpush := asking_pushCollateral (c := c)
    (asking_end (c := c) (some ⟨marketId, env.sender, due.2.1, due.2.2, booked.2⟩)) env.sender
    booked.2
  unfold payFee
  split
  · -- the address of the DAO is read before the first call
    exact starts_of_asking (k := fun s => andThen (pushCollateral c s booked.1.dao due.2.2) _)
      hstatus (asking_pushCollateral hpush _ _)
  · exact starts_of_asking hstatus hpush

/-! ## The guard -/

/-- The functions that are `nonReentrant`. -/
def isGuarded (tx : Tx) : Bool :=
  match tx.call with
  | .settle _ _ _ _ _ _ _ | .redeem _ => true
  | _ => false

section Unguarded

variable {tx : Tx} {s s' : State}

theorem code_of_unguarded (h : isGuarded tx = false) (s : State) :
    code c tx s = .ret (book c tx s) := by
  obtain ⟨env, call⟩ := tx
  cases call with
  | settle a signatureA b signatureB fillShares executionYesPrice matchId =>
      exact absurd h (by simp [isGuarded])
  | redeem marketId => exact absurd h (by simp [isGuarded])
  | _ => rfl

theorem book_of_unguarded (h : isGuarded tx = false) :
    book c tx s = .ok (s', value) ↔
      tx.call.isTokenTransfer = false ∧ exec c tx s = .ok (s', value) := by
  obtain ⟨env, call⟩ := tx
  cases call with
  | settle a signatureA b signatureB fillShares executionYesPrice matchId =>
      exact absurd h (by simp [isGuarded])
  | redeem marketId => exact absurd h (by simp [isGuarded])
  | tokenTransfer source target amount => simp [book, Call.isTokenTransfer]
  | _ => simp [book, Call.isTokenTransfer]

theorem exec_unguarded (h : isGuarded tx = false) (htoken : tx.call.isTokenTransfer = false)
    (hexec : exec c tx s = .ok (s', value)) :
    s'.reentrancyStatus = s.reentrancyStatus ∧ s'.aggregateReserved = s.aggregateReserved := by
  have heffect := exec_effect hexec
  obtain ⟨env, call⟩ := tx
  cases heffect with
  | configure _ _ _ _ => exact ⟨rfl, rfl⟩
  | create _ _ _ _ => exact ⟨rfl, rfl⟩
  | transition _ _ _ _ => exact ⟨rfl, rfl⟩
  | cancel _ => exact ⟨rfl, rfl⟩
  | settle _ _ _ => exact absurd h (by simp [isGuarded])
  | redeem _ _ _ _ => exact absurd h (by simp [isGuarded])
  | tokenTransfer _ _ _ _ _ => exact absurd htoken (by simp [Call.isTokenTransfer])

theorem exec_nonReentrantAfter (h : isGuarded tx = false)
    (htoken : tx.call.isTokenTransfer = false) (s : State) :
    exec c tx (nonReentrantAfter s) =
      (exec c tx s).map fun r => (nonReentrantAfter r.1, r.2) := by
  obtain ⟨env, call⟩ := tx
  cases call with
  | settle a signatureA b signatureB fillShares executionYesPrice matchId =>
      exact absurd h (by simp [isGuarded])
  | redeem marketId => exact absurd h (by simp [isGuarded])
  | tokenTransfer source target amount => exact absurd htoken (by simp [Call.isTokenTransfer])
  | _ =>
      simp only [exec, associateCollateralToken, transferOwnership, acceptOwnership, setOperator,
        setOracle, setDao, setDefaultRake, createMarket, haltMarket, resumeMarket, closeMarket,
        resolveMarket, voidMarket, cancelAuthorization, map_bind]
      rfl

end Unguarded

section Guarded

variable {tx : Tx} {s : State}

theorem starts_of_guarded (h : isGuarded tx = true) (s : State) :
    Starts (code c tx s) (book c tx s) := by
  obtain ⟨env, call⟩ := tx
  cases call with
  | settle a signatureA b signatureB fillShares executionYesPrice matchId =>
      exact starts_settle env a signatureA b signatureB fillShares executionYesPrice matchId s
  | redeem marketId => exact starts_redeem env marketId s
  | _ => exact absurd h (by simp [isGuarded])

theorem blocked_of_guarded (h : isGuarded tx = true) (hs : s.reentrancyStatus = 2) :
    ∃ err, code c tx s = .ret (.error err) := by
  obtain ⟨env, call⟩ := tx
  cases call with
  | settle a signatureA b signatureB fillShares executionYesPrice matchId =>
      simp only [code, settle]
      cases hbook : bookFill c env a signatureA b signatureB fillShares executionYesPrice matchId
        s with
      | error err => exact ⟨err, rfl⟩
      | ok booked =>
          have hidle := (bookFill_status hbook).1
          omega
  | redeem marketId =>
      simp only [code, redeem]
      cases hdue : nonReentrantBefore s >>= redeemShares env marketId with
      | error err => exact ⟨err, rfl⟩
      | ok due =>
          have hidle := (redeemShares_status hdue).1
          omega
  | _ => exact absurd h (by simp [isGuarded])

end Guarded

/-- `nonReentrant` guards the contract. -/
def nonReentrant (c : Chain) : Guard (code c) where
  guarded := isGuarded
  idle s := s.reentrancyStatus = 1
  taken s := s.reentrancyStatus = 2
  release := nonReentrantAfter
  frame s s' := s'.aggregateReserved = s.aggregateReserved
  frame_refl _ := rfl
  frame_trans _ _ _ h h' := h'.trans h
  idle_release _ _ := rfl
  step tx s h := ⟨_, code_of_unguarded h s⟩
  step_idle tx s s' value h hs hcode := by
    rw [code_of_unguarded h, Program.ret.injEq] at hcode
    obtain ⟨htoken, hexec⟩ := (book_of_unguarded h).mp hcode
    exact (exec_unguarded h htoken hexec).1.trans hs
  step_taken tx s s' value h hs hcode := by
    rw [code_of_unguarded h, Program.ret.injEq] at hcode ⊢
    obtain ⟨htoken, hexec⟩ := (book_of_unguarded h).mp hcode
    obtain ⟨hstatus, haggregate⟩ := exec_unguarded h htoken hexec
    refine ⟨hstatus.trans hs, haggregate, (book_of_unguarded h).mpr ⟨htoken, ?_⟩⟩
    rw [exec_nonReentrantAfter h htoken, hexec]
    rfl
  blocked tx s h hs := blocked_of_guarded h hs
  entered tx s h _ := by
    apply (starts_of_guarded h s).imp_right
    rintro ⟨k, s₁, value, hcode, _, hstatus, hasks⟩
    exact ⟨k, s₁, value, hcode, hstatus, hasks⟩

/-! ## Runs with callbacks -/

/-- Without callbacks, a transaction leaves what it books, whatever the token answers. -/
theorem quiet_book {tx : Tx} {s s' : State} {asked : List ((r : TokenRequest) × r.Answer)}
    (h : Quiet (code c tx s) asked (.ok (s', value))) : book c tx s = .ok (s', value) := by
  cases hguarded : isGuarded tx with
  | false =>
      rw [code_of_unguarded hguarded, quiet_ret_iff] at h
      exact h.2.symm
  | true =>
      rcases starts_of_guarded hguarded s with ⟨err, hcode⟩ | ⟨k, s₁, booked, hcode, hbook, _, hk⟩
      · rw [hcode, quiet_ret_iff] at h
        exact absurd h.2 (by simp)
      · rw [hcode] at h
        obtain ⟨rfl, rfl, _⟩ := hk.quiet rfl h
        exact hbook

/-- On a standard token, a transaction leaves what it books, and what the token holds. -/
theorem book_of_exec {tx : Tx} {s s' : State} (htx : tx.call.isTokenTransfer = false)
    (h : exec c tx s = .ok (s', value)) :
    book c tx s = .ok (onLedger s' s.collateral, value) := by
  have hhandle := (code_follows htx s (onLedger s' s.collateral) value s.collateral
    s'.collateral).mpr ⟨rfl, h⟩
  obtain ⟨asked, hquiet⟩ := quiet_of_handle (ledger_leaves c tx.env)
    (code c tx s) s.collateral
  rw [hhandle] at hquiet
  exact quiet_book hquiet

def bookAll (c : Chain) : State → List Tx → Except Err (State × List (Option Redeemed))
  | s, [] => .ok (s, [])
  | s, tx :: txs => do
    let r ← book c tx s
    let rest ← bookAll c r.1 txs
    .ok (rest.1, r.2 :: rest.2)

abbrev TokenEvent : Type := Event State Tx TokenRequest.Answer (Option Redeemed)

/-- The transactions of a run, in the order in which they were entered. -/
def entered (events : List TokenEvent) : List Tx := (Lib.performed events).map fun p => p.1

def returned (events : List TokenEvent) : List (Option Redeemed) :=
  (Lib.performed events).map fun p => p.2.2

theorem bookAll_of_sequential {s s' : State}
    {log : List (Tx × List ((r : TokenRequest) × r.Answer) × Option Redeemed)}
    (h : Sequential (code c) s log s') :
    bookAll c s (log.map fun p => p.1) = .ok (s', log.map fun p => p.2.2) := by
  induction h with
  | nil s => rfl
  | cons hrun h ih =>
      simp only [List.map_cons, bookAll, quiet_book hrun, ok_bind, ih]

section Entered

variable {depth : Nat} {s s' : State} {events : List TokenEvent}

theorem bookAll_of_entered (hidle : s.reentrancyStatus = 1)
    (h : Entered (code c) TokenRequest.isView depth s events s') :
    bookAll c s (entered events) = .ok (s', returned events) :=
  bookAll_of_sequential (Guard.linear_of_entered (G := nonReentrant c) hidle h).sequential

theorem bookAll_of_handed (hidle : s.reentrancyStatus = 1)
    (h : Entered (code c) TokenRequest.isView depth s events s')
    {earlier later : List TokenEvent} {s₁ : State}
    (hevents : events = earlier ++ .handed s₁ :: later) :
    bookAll c s (entered earlier) = .ok (nonReentrantAfter s₁, returned earlier) :=
  bookAll_of_sequential
    ((Guard.linear_of_entered (G := nonReentrant c) hidle h).seen earlier s₁ later hevents).2

end Entered

/-- A hash that is injective and can be computed: the words are the digits of a number, whose base
is in the hash too. -/
def positionalHash (words : List Nat) : Bytes32 :=
  Nat.pair (Nat.ofDigits (words.sum + 2) words) (Nat.pair words.sum words.length) + 1

def positionalChain : Chain := { sampleChain with keccak := positionalHash }

theorem positionalHash_injective : Function.Injective positionalHash := by
  intro words words' h
  obtain ⟨hdigits, hrest⟩ := Nat.pair_eq_pair.mp (Nat.succ.inj h)
  obtain ⟨hsum, hlength⟩ := Nat.pair_eq_pair.mp hrest
  have hlt (digits : List Nat) : ∀ word ∈ digits, word < digits.sum + 2 := by
    intro word hmem
    have hle := List.single_le_sum (fun _ _ => Nat.zero_le _) word hmem
    omega
  rw [← hsum] at hdigits
  exact Nat.ofDigits_inj_of_len_eq (by omega) hlength (hlt words) (hsum ▸ hlt words') hdigits

theorem positionalChain_hashSound (known : Set Authorization) : positionalChain.HashSound known :=
  hashSound_of_injective positionalHash_injective (fun _ => Nat.succ_ne_zero _) known

/-- A token that keeps balances, and in whose transfers the payer cancels an authorization. -/
def sampleToken (balances : Address → Nat) :
    (q : State × TokenRequest) → (State × q.2.Answer) × (Address → Nat)
  | (s, .balanceOf account) => ((s, balances account), balances)
  | (s, .transferFrom source target amount) =>
    (({ s with canceled := update₂ s.canceled source 1 true }, true),
      move balances source target amount)
  | (s, .transfer target amount) => ((s, true), move balances 10 target amount)

set_option maxRecDepth 4000 in
/-- A market is created, and complete sets are bought while the buyers cancel. -/
theorem sample_entered : ∃ events s', Entered (code positionalChain) TokenRequest.isView 2
    (sampleDeployment positionalChain rfl).state events s' ∧
    s'.canceled 5 1 = true ∧ s'.yesBalance 7 5 = 101 := by
  have hview : ∀ (balances : Address → Nat) (q : State × TokenRequest), q.2.isView = true →
      (sampleToken balances q).1.1 = q.1 := by
    rintro balances ⟨s, r⟩ hr
    cases r with
    | balanceOf account => rfl
    | transferFrom source target amount => exact absurd hr (by simp [TokenRequest.isView])
    | transfer target amount => exact absurd hr (by simp [TokenRequest.isView])
  have haway : ∀ (balances : Address → Nat) (q : State × TokenRequest), q.2.isView = false →
      ∃ inner : List TokenEvent, Entered (code positionalChain) TokenRequest.isView 1 q.1 inner
        (sampleToken balances q).1.1 := by
    rintro balances ⟨s, r⟩ hr
    cases r with
    | balanceOf account => exact absurd hr (by simp [TokenRequest.isView])
    | transferFrom source target amount =>
        have hcancel : Runs TokenRequest.isView
            (Entered (code positionalChain) TokenRequest.isView 0)
            (code positionalChain ⟨sampleEnv source 20, .cancelAuthorization 1⟩ s) [] []
            (.ok ({ s with canceled := update₂ s.canceled source 1 true }, none)) := .ret _
        exact ⟨_, .cons hcancel (.nil _)⟩
    | transfer target amount => exact ⟨[], .nil s⟩
  obtain ⟨asked, events, hruns⟩ := runs_of_handle hview haway
    (code positionalChain (sampleFill 101 1) sampleOpened)
    (sampleDeployment positionalChain rfl).ledger
  obtain ⟨s', value, hend, hcanceled, hyes⟩ : ∃ s' value,
      ((code positionalChain (sampleFill 101 1) sampleOpened).handle sampleToken
        (sampleDeployment positionalChain rfl).ledger).1 = .ok (s', value) ∧
      s'.canceled 5 1 = true ∧ s'.yesBalance 7 5 = 101 := ⟨_, _, rfl, rfl, rfl⟩
  rw [hend] at hruns
  have hcreate : Runs TokenRequest.isView (Entered (code positionalChain) TokenRequest.isView 1)
      (code positionalChain ⟨sampleEnv 1 10, .createMarket 7 [65] 100⟩
        (sampleDeployment positionalChain rfl).state) [] [] (.ok (sampleOpened, none)) := .ret _
  exact ⟨_, s', .cons hcreate (.cons hruns (.nil s')), hcanceled, hyes⟩

/-- Whatever the token answers and whoever it calls back, to any depth: no settlement and no
redemption is entered within another transaction, what a run leaves and returns is what its
transactions book one after the other in the order in which they were entered, and wherever the
token gets control, it finds what the transactions entered so far have booked. -/
theorem callbacks_serialize (c : Chain) {depth : Nat} {s s' : State} {events : List TokenEvent}
    (hidle : s.reentrancyStatus = 1)
    (h : Entered (code c) TokenRequest.isView depth s events s') :
    s'.reentrancyStatus = 1 ∧
    bookAll c s (entered events) = .ok (s', returned events) ∧
    (∀ tx asked value, .call true tx asked value ∈ events → isGuarded tx = false) ∧
    ∀ earlier s₁ later, events = earlier ++ .handed s₁ :: later → s₁.reentrancyStatus = 2 ∧
      bookAll c s (entered earlier) = .ok (nonReentrantAfter s₁, returned earlier) := by
  have hlinear := Guard.linear_of_entered (G := nonReentrant c) hidle h
  refine ⟨hlinear.idle, bookAll_of_entered hidle h, hlinear.unguarded, ?_⟩
  intro earlier s₁ later hevents
  exact ⟨(hlinear.seen earlier s₁ later hevents).1, bookAll_of_handed hidle h hevents⟩

theorem callbacks_serialize_sample : ∃ events s', s'.canceled 5 1 = true ∧
    s'.yesBalance 7 5 = 101 ∧ bookAll positionalChain (sampleDeployment positionalChain rfl).state
      (entered events) = .ok (s', returned events) := by
  obtain ⟨events, s', hentered, hcanceled, hyes⟩ := sample_entered
  exact ⟨events, s', hcanceled, hyes, (callbacks_serialize positionalChain rfl hentered).2.1⟩

end PrismBackend.PrismV2.Callbacks
