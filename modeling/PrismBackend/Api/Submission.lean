import PrismBackend.Clob.Conservation
import PrismBackend.PrismV2.Acceptance
import PrismBackend.Api.Authorization

/-!
# API: submitting the matches of a book

The matches that a book emits, submitted to the contract in order of emission.
The contract's cumulative fills follow the fill state that the book holds.
-/

namespace PrismBackend.Api

open PrismBackend.Lib PrismBackend.Clob PrismBackend.PrismV2

/-! ## Submissions -/

/-- One match on its way to the contract: the transactions of others that run before it, and
what its own transaction brings with it. -/
structure Submission where
  clobMatch : ClobMatch
  between : List Tx
  env : Env
  signatureBid : Bytes
  signatureAsk : Bytes
  matchId : Bytes32

/-- The call of `settle` with the bid as `a` and the ask as `b`. -/
def Submission.call (parse : UuidParse) (sub : Submission) : Option Call := do
  let bid ← sub.clobMatch.bid
  let ask ← sub.clobMatch.ask
  let a ← signedOrder parse bid
  let b ← signedOrder parse ask
  return .settle a sub.signatureBid b sub.signatureAsk sub.clobMatch.fillShares
    sub.clobMatch.executionYesPrice sub.matchId

def Submission.txs (parse : UuidParse) (sub : Submission) : List Tx :=
  sub.between ++ (sub.call parse).toList.map (⟨sub.env, ·⟩)

def submissionTxs (parse : UuidParse) (subs : List Submission) : List Tx :=
  subs.flatMap (Submission.txs parse)

def Submission.supported (c : Chain) (parse : UuidParse) (s : State) (sub : Submission) : Prop :=
  ∀ bid ask a b, sub.clobMatch.bid = some bid → sub.clobMatch.ask = some ask →
    signedOrder parse bid = some a → signedOrder parse ask = some b →
    Supported c sub.env s a sub.signatureBid b sub.signatureAsk sub.clobMatch.fillShares
      sub.clobMatch.executionYesPrice sub.matchId

/-! ## Orders that the API admits -/

/-- An order of one market, as `CreatePredictionIntent` passes it to the book. -/
structure AdmittedOrder (c : Chain) (parse : UuidParse) (market : Uint128)
    (o : CreateOrderRequestClob) : Prop where
  admissible : Admissible o
  sharesFilled : o.sharesFilled = 0
  collateralFilled : o.collateralFilled = 0
  address : isHex40 o.evmAddress
  authorization : ∃ x, signedOrder parse o = some x ∧ x.chainId = c.chainId ∧
    x.verifyingContract = c.self ∧ x.marketId = market

/-- The contract's cumulative fill of an authorization is the fill state of an order. -/
def Holds (c : Chain) (s : State) (x : Authorization) (o : CreateOrderRequestClob) : Prop :=
  s.fills (authorizationHash c x) = ⟨o.sharesFilled, o.collateralFilled⟩

/-- The contract has recorded exactly the given matches for every order. -/
def Mirrors (c : Chain) (parse : UuidParse) (orders : List CreateOrderRequestClob)
    (ms : List ClobMatch) (s : State) : Prop :=
  ∀ o ∈ orders, ∀ x, signedOrder parse o = some x → Holds c s x (afterFills o ms) ∧
    (s.authorizationByNonce x.signer x.txId = 0 ∨
      s.authorizationByNonce x.signer x.txId = authorizationHash c x)

def KnownOrders (parse : UuidParse) (orders : List CreateOrderRequestClob)
    (known : Set Authorization) : Prop :=
  ∀ o ∈ orders, ∀ x, signedOrder parse o = some x → x ∈ known

theorem signedOrder_afterFills (parse : UuidParse) (o : CreateOrderRequestClob)
    (ms : List ClobMatch) : signedOrder parse (afterFills o ms) = signedOrder parse o := by
  rw [afterFills_eq]
  rfl

theorem sideOfWord_yes {word : Nat} {side : Side} (h : sideOfWord word = some side) :
    word = Clob.sideYes ↔ side = .yes := by
  unfold sideOfWord at h
  split at h
  · cases h
    exact ⟨fun _ => rfl, fun _ => rfl⟩
  · cases h
    exact ⟨fun h => absurd h (by decide), fun h => absurd h (by decide)⟩
  · exact absurd h (by simp)

theorem Signs.isBid {parse : UuidParse} {o : CreateOrderRequestClob} {x : Authorization}
    (h : Signs parse o x) : x.isBid = Clob.isBid o := by
  have hside := h.side
  have haction := h.action
  unfold sideOfWord at hside
  unfold actionOfWord at haction
  unfold Authorization.isBid Clob.isBid
  split at hside
  all_goals split at haction
  all_goals simp_all [Clob.sideYes, Clob.sideNo, Clob.actionBuy, Clob.actionSell]
  all_goals simp [← hside, ← haction]

theorem Signs.legCollateral {parse : UuidParse} {o : CreateOrderRequestClob} {x : Authorization}
    (h : Signs parse o x) (yes no : Nat) :
    PrismV2.legCollateral x.side yes no = Clob.legCollateral o yes no := by
  unfold PrismV2.legCollateral Clob.legCollateral
  have hside := sideOfWord_yes h.side
  by_cases hyes : x.side = .yes
  · rw [if_pos hyes, if_pos (hside.mpr hyes)]
  · rw [if_neg hyes, if_neg fun hword => hyes (hside.mp hword)]

/-! ## One submission -/

theorem limit_bid {x : Authorization} {price : Nat} (h : x.isBid = true)
    (hlimit : price ≤ x.limitYesPrice) : ¬limitViolated x price := by
  unfold limitViolated
  rcases isBid_true h with ⟨hside, haction⟩ | ⟨hside, haction⟩
  · simp [hside, haction, hlimit]
  · simp [hside, haction, hlimit]

theorem limit_ask {x : Authorization} {price : Nat} (h : x.isBid = false)
    (hlimit : x.limitYesPrice ≤ price) : ¬limitViolated x price := by
  unfold limitViolated
  rcases isBid_false h with ⟨hside, haction⟩ | ⟨hside, haction⟩
  · simp [hside, haction, hlimit]
  · simp [hside, haction, hlimit]

theorem filledBy_fills (o : CreateOrderRequestClob) (fill yes no : Nat) :
    (⟨(filledBy o fill yes no).sharesFilled, (filledBy o fill yes no).collateralFilled⟩ :
      FillState) = ⟨o.sharesFilled + fill, o.collateralFilled + Clob.legCollateral o yes no⟩ :=
  rfl

section Step

variable {c : Chain} {known : Set Authorization} {parse : UuidParse} {market : Uint128}
  {orders : List CreateOrderRequestClob} {ms : List ClobMatch} {m : ClobMatch}

/-- Two orders of one list with equal tx ids are one order. -/
theorem eq_of_parsed (hdistinct : (orders.map fun o => parse o.txId).Nodup)
    {o o' : CreateOrderRequestClob} {x x' : Authorization} (ho : o ∈ orders) (ho' : o' ∈ orders)
    (hx : Signs parse o x) (hx' : Signs parse o' x') (h : x.txId = x'.txId) : o = o' := by
  apply List.inj_on_of_nodup_map hdistinct ho ho'
  show parse o.txId = parse o'.txId
  rw [hx.txId, hx'.txId, h]

theorem nodup_txIds (hdistinct : (orders.map fun o => parse o.txId).Nodup) :
    (orders.map (·.txId)).Nodup := by
  have hmap : (orders.map fun o => parse o.txId) = (orders.map (·.txId)).map parse := by
    rw [List.map_map]
    rfl
  rw [hmap] at hdistinct
  exact hdistinct.of_map parse

/-- Between two orders in a match that the book emits, both have room on the contract. -/
theorem Mirrors.room {s : State} (h : Mirrors c parse orders ms s)
    (hrun : FairRun orders (ms ++ [m])) (hids : (orders.map (·.txId)).Nodup)
    {o : CreateOrderRequestClob} (ho : o ∈ orders) (hadmitted : AdmittedOrder c parse market o)
    {x : Authorization} (hx : signedOrder parse o = some x) (hinvolved : m.involves o.txId = true)
    (hyes : yesCollateral m.fillShares m.executionYesPrice = m.yesCollateral)
    (hno : noCollateral m.fillShares m.executionYesPrice = m.noCollateral) :
    Consumable s x (authorizationHash c x) m.fillShares
      (fillCollateral x m.fillShares m.executionYesPrice) := by
  obtain ⟨hholds, hnonce⟩ := h o ho x hx
  have hsigns := signs_of_signedOrder hx
  have hshares := hrun.init.shares_le hids ho (by rw [hadmitted.sharesFilled]; exact Nat.zero_le _)
  have hwidth := hrun.init.collateral_add_remaining_le hids ho
  obtain ⟨hfill, hcap, hleg⟩ := hrun.last hids ho hinvolved
  have hqty := hadmitted.admissible.qty_lt
  have hleg' : fillCollateral x m.fillShares m.executionYesPrice =
      Clob.legCollateral o m.yesCollateral m.noCollateral := by
    rw [fillCollateral, hyes, hno, hsigns.legCollateral]
  have hcollateral : (afterFills o ms).collateralFilled +
      Clob.legCollateral o m.yesCollateral m.noCollateral ≤ o.qtyShares := by
    have hstart := hadmitted.collateralFilled
    have hrest : remainingShares o ≤ o.qtyShares := Nat.sub_le _ _
    omega
  unfold Holds at hholds
  have hsame : (afterFills o ms).qtyShares = o.qtyShares := by rw [afterFills_eq]
  simp only [remainingShares, hsame] at hfill
  constructor
  · exact hnonce
  · rw [hholds]
    show (afterFills o ms).sharesFilled + m.fillShares < 2 ^ 256
    omega
  · rw [hholds, hleg']
    show (afterFills o ms).collateralFilled + _ < 2 ^ 256
    omega
  · rw [hholds, hsigns.qtyShares]
    show (afterFills o ms).sharesFilled + m.fillShares ≤ o.qtyShares
    omega
  · intro hbuy
    rw [hholds, hleg', hsigns.collateralCap]
    show (afterFills o ms).collateralFilled + _ ≤ o.collateralCap
    have haction : (afterFills o ms).action = Clob.actionBuy := by
      rw [afterFills_eq]
      have hword := hsigns.action
      rw [hbuy] at hword
      exact actionOfWord_buy hword
    have hcapSame : (afterFills o ms).collateralCap = o.collateralCap := by rw [afterFills_eq]
    have hside : Clob.legCollateral (afterFills o ms) m.yesCollateral m.noCollateral =
        Clob.legCollateral o m.yesCollateral m.noCollateral := by
      rw [afterFills_eq]
      rfl
    simp only [withinCap, haction, hcapSame, hside, ne_eq, not_true_eq_false, false_or,
      decide_eq_true_eq, saturatingAdd] at hcap
    have hbound := hadmitted.admissible.cap_lt
    omega

theorem Mirrors.settled (hc : c.HashSound known) (hknown : KnownOrders parse orders known)
    {s s' : State} (h : Mirrors c parse orders ms s)
    {env : Env} {b a : CreateOrderRequestClob} {x y : Authorization}
    {signatureBid signatureAsk : Bytes} {matchId : Bytes32}
    (hdistinct : (orders.map fun o => parse o.txId).Nodup) (hb : b ∈ orders) (ha : a ∈ orders)
    (hx : signedOrder parse b = some x) (hy : signedOrder parse a = some y)
    (hfair : Fair (afterFills b ms) (afterFills a ms) m)
    (hyes : yesCollateral m.fillShares m.executionYesPrice = m.yesCollateral)
    (hno : noCollateral m.fillShares m.executionYesPrice = m.noCollateral)
    (hsettle : settle c env x signatureBid y signatureAsk m.fillShares m.executionYesPrice
      matchId s = .ok s') : Mirrors c parse orders (ms ++ [m]) s' := by
  have hexec : exec c ⟨env, .settle x signatureBid y signatureAsk m.fillShares
      m.executionYesPrice matchId⟩ s = .ok (s', none) := by
    simp [exec, hsettle, Except.map]
  have hbooks := effect_books (exec_effect hexec)
  have hcall : Call.Within known (.settle x signatureBid y signatureAsk m.fillShares
      m.executionYesPrice matchId) := ⟨hknown b hb x hx, hknown a ha y hy⟩
  intro o ho z hz
  have hsigns := signs_of_signedOrder hz
  rw [afterFills_concat]
  have hinvolves := hfair.involves_iff o.txId
  rw [afterFills_txId, afterFills_txId] at hinvolves
  by_cases hinvolved : m.involves o.txId = true
  · -- one of the two orders of the match
    have hpair : z = x ∨ z = y := by
      have hids := nodup_txIds hdistinct
      rcases hinvolves.mp hinvolved with heq | heq
      · obtain rfl := eq_of_txId hids ho hb heq
        exact Or.inl (Option.some.inj (hz.symm.trans hx))
      · obtain rfl := eq_of_txId hids ho ha heq
        exact Or.inr (Option.some.inj (hz.symm.trans hy))
    have hfill : Call.fillOf z (.settle x signatureBid y signatureAsk m.fillShares
        m.executionYesPrice matchId) = some (m.fillShares, m.executionYesPrice) := by
      rw [Call.fillOf, if_pos hpair]
    obtain ⟨hfills, _, _, hnonce⟩ := hbooks.fills_some hc hcall hfill
    refine ⟨?_, Or.inr hnonce⟩
    have hholds := (h o ho z hz).1
    unfold Holds at hholds
    have hside : Clob.legCollateral (afterFills o ms) m.yesCollateral m.noCollateral =
        Clob.legCollateral o m.yesCollateral m.noCollateral := by
      rw [afterFills_eq]
      rfl
    rw [if_pos hinvolved, Holds, hfills, hholds, filledBy_fills, fillCollateral, hyes, hno,
      hsigns.legCollateral, hside]
  · -- any other order has another nonce
    have huse : ¬Call.usesNonce z.signer z.txId (.settle x signatureBid y signatureAsk
        m.fillShares m.executionYesPrice matchId) := by
      intro huse
      apply hinvolved
      rw [hinvolves]
      rcases huse with ⟨_, heq⟩ | ⟨_, heq⟩
      · exact Or.inl (congrArg _
          (eq_of_parsed hdistinct ho hb hsigns (signs_of_signedOrder hx) heq))
      · exact Or.inr (congrArg _
          (eq_of_parsed hdistinct ho ha hsigns (signs_of_signedOrder hy) heq))
    obtain ⟨hfills, hnonce⟩ := hbooks.untouched hc hcall (hknown o ho z hz) huse
    rw [if_neg hinvolved, Holds, hfills, hnonce]
    exact h o ho z hz

theorem Mirrors.between (hc : c.HashSound known) (hknown : KnownOrders parse orders known)
    {s : State} (h : Mirrors c parse orders ms s) {txs : List Tx}
    (htxs : ∀ tx ∈ txs, tx.call.Within known) (huse : ∀ tx ∈ txs, ∀ o ∈ orders, ∀ x, signedOrder parse o = some x →
      ¬tx.call.usesNonce x.signer x.txId) : Mirrors c parse orders ms (run c s txs) := by
  intro o ho x hx
  obtain ⟨hfills, hnonce⟩ := run_untouched hc htxs (hknown o ho x hx)
    (fun tx htx => huse tx htx o ho x hx) s
  rw [Holds, hfills, hnonce]
  exact h o ho x hx

end Step

/-! ## Runs of submissions -/

section Runs

variable {c : Chain} {known : Set Authorization} {parse : UuidParse} {market : Uint128}
  {orders : List CreateOrderRequestClob} {ms : List ClobMatch}

/-- What one submission achieves: its call succeeds between two orders of the book in the states
the match carries, and the mirror moves on. -/
structure Settles (c : Chain) (parse : UuidParse) (orders : List CreateOrderRequestClob)
    (ms : List ClobMatch) (sub : Submission) (s : State) (b a : CreateOrderRequestClob)
    (x y : Authorization) (s' : State) : Prop where
  bid_mem : b ∈ orders
  ask_mem : a ∈ orders
  signedBid : signedOrder parse b = some x
  signedAsk : signedOrder parse a = some y
  fair : Fair (afterFills b ms) (afterFills a ms) sub.clobMatch
  succeeds : settle c sub.env x sub.signatureBid y sub.signatureAsk sub.clobMatch.fillShares
    sub.clobMatch.executionYesPrice sub.matchId s = .ok s'
  mirrors : Mirrors c parse orders (ms ++ [sub.clobMatch]) s'

theorem Mirrors.settles (hc : c.HashSound known) (hknown : KnownOrders parse orders known)
    {d : Deployment c} (hsupply : total d.ledger < 2 ^ 256) {s : State} (hsound : Sound c d s) (h : Mirrors c parse orders ms s) {sub : Submission}
    (hrun : FairRun orders (ms ++ [sub.clobMatch]))
    (hadmitted : ∀ o ∈ orders, AdmittedOrder c parse market o)
    (hdistinct : (orders.map fun o => parse o.txId).Nodup) (hsup : sub.supported c parse s) :
    ∃ b a x y s', Settles c parse orders ms sub s b a x y s' := by
  obtain ⟨b, hb, a, ha, hfair⟩ := hrun ms sub.clobMatch [] rfl
  obtain ⟨x, hx, hchainX, hcontractX, hmarketX⟩ := (hadmitted b hb).authorization
  obtain ⟨y, hy, hchainY, hcontractY, hmarketY⟩ := (hadmitted a ha).authorization
  have hsignsX := signs_of_signedOrder hx
  have hsignsY := signs_of_signedOrder hy
  obtain ⟨hyes, hno, hyesPos, hnoPos, hpos, hlt, hfill⟩ := splitCollateral_eq_some hfair.split
  have hyesLeg : yesCollateral sub.clobMatch.fillShares sub.clobMatch.executionYesPrice =
      sub.clobMatch.yesCollateral := hyes.symm
  have hnoLeg : noCollateral sub.clobMatch.fillShares sub.clobMatch.executionYesPrice =
      sub.clobMatch.noCollateral := by
    rw [noCollateral, hyesLeg, hno]
  have hinvolves (txId : Str) := hfair.involves_iff txId
  simp only [afterFills_txId] at hinvolves
  have hids := nodup_txIds hdistinct
  have hroomX := h.room hrun hids hb (hadmitted b hb) hx ((hinvolves _).mpr (Or.inl rfl))
    hyesLeg hnoLeg
  have hroomY := h.room hrun hids ha (hadmitted a ha) hy ((hinvolves _).mpr (Or.inr rfl))
    hyesLeg hnoLeg
  have hsupport := hsup _ _ x y hfair.bid_eq hfair.ask_eq
    ((signedOrder_afterFills parse b ms).trans hx) ((signedOrder_afterFills parse a ms).trans hy)
  have hbid : x.isBid = true := by
    rw [hsignsX.isBid, ← afterFills_isBid b ms]
    exact hfair.bid_isBid
  have hask : y.isBid = false := by
    rw [hsignsY.isBid, ← afterFills_isBid a ms]
    exact hfair.ask_isBid
  have hsigners : x.signer ≠ y.signer := by
    intro heq
    have hsame := sameTrader_of_signer (hadmitted b hb).address (hadmitted a ha).address hsignsX
      hsignsY heq
    have htraders := hfair.traders
    simp only [sameTrader, afterFills_eq] at htraders hsame
    rw [hsame] at htraders
    exact absurd htraders (by decide)
  have htermsX : Terms c x sub.clobMatch.executionYesPrice := by
    refine ⟨hsignsX.version, hchainX, hcontractX, hsignsX.qty_ne_zero, hsignsX.cap_ne_zero,
      hsignsX.limit_le, limit_bid hbid ?_⟩
    have hlimit := hfair.le_bid
    rw [afterFills_eq] at hlimit
    rw [hsignsX.limitYesPrice]
    exact hlimit
  have htermsY : Terms c y sub.clobMatch.executionYesPrice := by
    refine ⟨hsignsY.version, hchainY, hcontractY, hsignsY.qty_ne_zero, hsignsY.cap_ne_zero,
      hsignsY.limit_le, limit_ask hask ?_⟩
    have hlimit := hfair.ask_le
    rw [afterFills_eq] at hlimit
    rw [hsignsY.limitYesPrice]
    exact hlimit
  obtain ⟨s', hsettle⟩ := hsupport.settle_succeeds hc (hknown b hb x hx) (hknown a ha y hy) hsound
    hsupply (hmarketX.trans hmarketY.symm) hsigners hbid hask htermsX htermsY (Nat.ne_of_gt hfill) (Nat.ne_of_gt hpos) hlt
    (by rw [hyesLeg]; exact Nat.ne_of_gt hyesPos) (by rw [hnoLeg]; exact Nat.ne_of_gt hnoPos)
    hroomX hroomY
  exact ⟨b, a, x, y, s', hb, ha, hx, hy, hfair, hsettle,
    h.settled hc hknown hdistinct hb ha hx hy hfair hyesLeg hnoLeg hsettle⟩

/-- The transactions of a submission end in the state that its call leaves. -/
theorem Settles.run_eq {sub : Submission} {s s' : State} {b a : CreateOrderRequestClob}
    {x y : Authorization} (h : Settles c parse orders ms sub (run c s sub.between) b a x y s') :
    run c s (sub.txs parse) = s' := by
  have hcall : sub.call parse = some (.settle x sub.signatureBid y sub.signatureAsk
      sub.clobMatch.fillShares sub.clobMatch.executionYesPrice sub.matchId) := by
    unfold Submission.call
    rw [h.fair.bid_eq, h.fair.ask_eq]
    simp only [Option.bind_eq_bind, Option.bind_some, signedOrder_afterFills, h.signedBid,
      h.signedAsk, Option.pure_def]
  have hexec : exec c ⟨sub.env, .settle x sub.signatureBid y sub.signatureAsk
      sub.clobMatch.fillShares sub.clobMatch.executionYesPrice sub.matchId⟩
      (run c s sub.between) = .ok (s', none) := by
    simp [exec, h.succeeds, Except.map]
  rw [Submission.txs, hcall, run_append]
  simp only [Option.toList_some, List.map_cons, List.map_nil, run_cons, run_nil]
  rw [apply_ok hexec]

/-- After any number of submissions the contract mirrors the matches submitted so far. -/
theorem mirrors_submissions (hc : c.HashSound known) (hknown : KnownOrders parse orders known)
    {d : Deployment c} (hsupply : total d.ledger < 2 ^ 256) {start : List Tx}
    {subs : List Submission} (hstart : ∀ tx ∈ start, tx.call.Within known)
    (hothers : ∀ sub ∈ subs, ∀ tx ∈ sub.between, tx.call.Within known)
    (hrun : FairRun orders (subs.map (·.clobMatch)))
    (hadmitted : ∀ o ∈ orders, AdmittedOrder c parse market o)
    (hdistinct : (orders.map fun o => parse o.txId).Nodup)
    (hfresh : ∀ o ∈ orders, ∀ x, signedOrder parse o = some x →
      (run c d.state start).authorizationByNonce x.signer x.txId = 0)
    (hbetween : ∀ sub ∈ subs, ∀ tx ∈ sub.between, ∀ o ∈ orders, ∀ x,
      signedOrder parse o = some x → ¬tx.call.usesNonce x.signer x.txId)
    (hsupported : ∀ before sub after, subs = before ++ sub :: after →
      sub.supported c parse (run c d.state (start ++ submissionTxs parse before ++ sub.between))) :
    Mirrors c parse orders (subs.map (·.clobMatch))
      (run c d.state (start ++ submissionTxs parse subs)) := by
  induction subs using List.reverseRecOn with
  | nil =>
      intro o ho x hx
      have hstate : run c d.state (start ++ submissionTxs parse []) = run c d.state start := by
        rw [submissionTxs, List.flatMap_nil, List.append_nil]
      rw [Holds, hstate, fills_of_unbound hc d hstart (hknown o ho x hx) (hfresh o ho x hx)]
      refine ⟨?_, Or.inl (hfresh o ho x hx)⟩
      show (⟨0, 0⟩ : FillState) = ⟨o.sharesFilled, o.collateralFilled⟩
      rw [(hadmitted o ho).sharesFilled, (hadmitted o ho).collateralFilled]
  | append_singleton subs sub ih =>
      rw [List.map_append, List.map_singleton] at hrun ⊢
      have hbefore := ih (fun sub' hsub' => hothers sub' (List.mem_append_left _ hsub')) hrun.init
        (fun sub' hsub' => hbetween sub' (List.mem_append_left _ hsub'))
        (fun before sub' after hsplit =>
          hsupported before sub' (after ++ [sub]) (by rw [hsplit]; simp))
      have hready := hbefore.between hc hknown (hothers sub (by simp)) (hbetween sub (by simp))
      have hsup := hsupported subs sub [] rfl
      rw [run_append] at hsup
      have hsound : Sound c d
          (run c (run c d.state (start ++ submissionTxs parse subs)) sub.between) := by
        rw [← run_append]
        exact run_sound d _
      obtain ⟨b, a, x, y, s', hsettles⟩ :=
        hready.settles hc hknown hsupply hsound hrun hadmitted hdistinct hsup
      have hstate : run c d.state (start ++ submissionTxs parse (subs ++ [sub])) = s' := by
        rw [submissionTxs, List.flatMap_append, List.flatMap_singleton, ← List.append_assoc,
          run_append]
        exact hsettles.run_eq
      rw [hstate]
      exact hsettles.mirrors

end Runs

/-! ## The book and the contract agree -/

/-- Submit the matches of any run of a book in order of emission, each with whatever
transactions of others before it. If the surroundings support each submission, every call
succeeds; before it the contract's cumulative fills of both orders are the fill state that the
match carries, and after it that state with the match added. At the end every order of the
book, wherever it went, has the fill state that the contract records. -/
theorem matches_settle {c : Chain} {known : Set Authorization} (hc : c.HashSound known)
    (d : Deployment c) (hsupply : total d.ledger < 2 ^ 256) (parse : UuidParse) (market : Uint128)
    (ops : List BookOp) (start : List Tx) (subs : List Submission)
    (hknown : KnownOrders parse (addedOrders ops) known)
    (hstart : ∀ tx ∈ start, tx.call.Within known)
    (hothers : ∀ sub ∈ subs, ∀ tx ∈ sub.between, tx.call.Within known)
    (hadmitted : ∀ o ∈ addedOrders ops, AdmittedOrder c parse market o)
    (hdistinct : ((addedOrders ops).map fun o => parse o.txId).Nodup)
    (hfresh : ∀ o ∈ addedOrders ops, ∀ x, signedOrder parse o = some x →
      (run c d.state start).authorizationByNonce x.signer x.txId = 0)
    (hsubs : subs.map (·.clobMatch) = (runBook ops).matches_)
    (hbetween : ∀ sub ∈ subs, ∀ tx ∈ sub.between, ∀ o ∈ addedOrders ops, ∀ x,
      signedOrder parse o = some x → ¬tx.call.usesNonce x.signer x.txId)
    (hsupported : ∀ before sub after, subs = before ++ sub :: after →
      sub.supported c parse (run c d.state (start ++ submissionTxs parse before ++ sub.between))) :
    (∀ before sub after, subs = before ++ sub :: after →
      let s := run c d.state (start ++ submissionTxs parse before ++ sub.between)
      ∃ bid ask x y s', sub.clobMatch.bid = some bid ∧ sub.clobMatch.ask = some ask ∧
        signedOrder parse bid = some x ∧ signedOrder parse ask = some y ∧
        settle c sub.env x sub.signatureBid y sub.signatureAsk sub.clobMatch.fillShares
          sub.clobMatch.executionYesPrice sub.matchId s = .ok s' ∧
        Holds c s x bid ∧ Holds c s y ask ∧
        Holds c s' x (afterFill bid sub.clobMatch) ∧ Holds c s' y (afterFill ask sub.clobMatch)) ∧
    ∀ r ∈ (runBook ops).orders, ∀ x, signedOrder parse r = some x →
      Holds c (run c d.state (start ++ submissionTxs parse subs)) x r := by
  have hids := nodup_txIds hdistinct
  have hbook := runBook_conserved ops hids fun o ho => by
    rw [(hadmitted o ho).sharesFilled]
    exact (hadmitted o ho).admissible.qty_pos
  have hrun : FairRun (addedOrders ops) (subs.map (·.clobMatch)) := by
    rw [hsubs]
    exact hbook.fair
  constructor
  · intro before sub after hsplit
    have hmap : subs.map (·.clobMatch) =
        before.map (·.clobMatch) ++ sub.clobMatch :: after.map (·.clobMatch) := by
      rw [hsplit, List.map_append, List.map_cons]
    have hlast : FairRun (addedOrders ops) (before.map (·.clobMatch) ++ [sub.clobMatch]) := by
      intro before' m after' hsplit'
      apply hrun before' m (after' ++ after.map (·.clobMatch))
      rw [hmap, ← List.singleton_append, ← List.append_assoc, hsplit']
      simp
    have hbefore : Mirrors c parse (addedOrders ops) (before.map (·.clobMatch))
        (run c d.state (start ++ submissionTxs parse before)) := by
      refine mirrors_submissions hc hknown hsupply hstart ?_ hlast.init hadmitted hdistinct hfresh
        ?_ ?_
      · intro sub' hsub'
        exact hothers sub' (hsplit ▸ List.mem_append_left _ hsub')
      · intro sub' hsub'
        exact hbetween sub' (hsplit ▸ List.mem_append_left _ hsub')
      · intro before' sub' after' hsplit'
        exact hsupported before' sub' (after' ++ sub :: after) (by rw [hsplit, hsplit']; simp)
    have hready := hbefore.between hc hknown (hothers sub (hsplit ▸ by simp))
      (hbetween sub (hsplit ▸ by simp))
    rw [← run_append] at hready
    obtain ⟨b, a, x, y, s', h⟩ := hready.settles hc hknown hsupply (run_sound d _) hlast hadmitted
      hdistinct (hsupported before sub after hsplit)
    have hbid := h.mirrors b h.bid_mem x h.signedBid
    have hask := h.mirrors a h.ask_mem y h.signedAsk
    rw [afterFills_append] at hbid hask
    exact ⟨_, _, x, y, s', h.fair.bid_eq, h.fair.ask_eq,
      (signedOrder_afterFills parse b _).trans h.signedBid,
      (signedOrder_afterFills parse a _).trans h.signedAsk, h.succeeds,
      (hready b h.bid_mem x h.signedBid).1, (hready a h.ask_mem y h.signedAsk).1, hbid.1, hask.1⟩
  · intro r hr x hx
    obtain ⟨o, ho, rfl⟩ := hbook.exists_added hr
    rw [signedOrder_afterFills] at hx
    have hend := mirrors_submissions hc hknown hsupply hstart hothers hrun hadmitted hdistinct hfresh
      hbetween hsupported
    rw [hsubs] at hend
    exact (hend o ho x hx).1

/-! ## A sample run -/

def sampleParse : UuidParse := fun s =>
  match hexNat (s.filter (· != '-')) with
  | some n => .ok (Fin.ofNat (2 ^ 128) n)
  | none => .error "invalid UUID format"

def sampleMarket : Uint128 := 0x70008000000000000007

/-- A BUY of 100 shares by the trader with the given last address digit. -/
def sampleBuy (digit : Char) (side limitYesPrice : Nat) : CreateOrderRequestClob where
  txId := "00000000-0000-7000-8000-00000000000".toList ++ [digit]
  net := "testnet".toList
  marketId := "00000000-0000-7000-8000-000000000007".toList
  accountId := "0.0.".toList ++ [digit]
  sig := []
  publicKey := []
  evmAddress := List.replicate 39 '0' ++ [digit]
  keyType := 1
  chainId := 296
  verifyingContract := List.replicate 39 '0' ++ ['a']
  side := side
  action := 0
  limitYesPrice := limitYesPrice
  qtyShares := 100
  collateralCap := 100
  deadline := 1000
  sharesFilled := 0
  collateralFilled := 0

def sampleBuyAuthorization (signer : Address) (txId : Uint128) (side : Side)
    (limitYesPrice : Nat) : Authorization where
  version := 2
  chainId := 296
  verifyingContract := 10
  signer := signer
  marketId := sampleMarket
  txId := txId
  side := side
  action := .buy
  limitYesPrice := limitYesPrice
  qtyShares := 100
  collateralCap := 100
  deadline := 1000

def sampleBuys : List BookOp :=
  [.add (sampleBuy '5' 0 600000) 10, .add (sampleBuy '6' 1 500000) 10]

def sampleStart : List Tx := [⟨sampleEnv 1 10, .createMarket sampleMarket [65] 100⟩]

def sampleSubs : List Submission :=
  (runBook sampleBuys).matches_.map fun m => ⟨m, [], sampleEnv 2 20, [], [], 1⟩

theorem sampleBuy_signed :
    signedOrder sampleParse (sampleBuy '5' 0 600000) =
        some (sampleBuyAuthorization 5 0x70008000000000000005 .yes 600000) ∧
      signedOrder sampleParse (sampleBuy '6' 1 500000) =
        some (sampleBuyAuthorization 6 0x70008000000000000006 .no 500000) := by
  constructor
  · rfl
  · rfl

theorem sampleBuys_matches : (runBook sampleBuys).matches_ =
    [⟨"00000000-0000-7000-8000-000000000007".toList, some (sampleBuy '5' 0 600000),
      some (sampleBuy '6' 1 500000), 100, 600000, 60, 40⟩] := by
  decide

theorem sampleBuys_admitted : ∀ o ∈ addedOrders sampleBuys,
    AdmittedOrder encodingChain sampleParse sampleMarket o := by
  simp only [addedOrders, sampleBuys, List.filterMap_cons, List.filterMap_nil,
    List.forall_mem_cons]
  refine ⟨?_, ?_, fun _ h => absurd h List.not_mem_nil⟩
  · refine ⟨⟨?_, ?_, ?_, ?_, ?_, ?_, ?_, ?_, ?_, ?_⟩, rfl, rfl, ?_,
      _, sampleBuy_signed.1, rfl, rfl, rfl⟩
    all_goals decide
  · refine ⟨⟨?_, ?_, ?_, ?_, ?_, ?_, ?_, ?_, ?_, ?_⟩, rfl, rfl, ?_,
      _, sampleBuy_signed.2, rfl, rfl, rfl⟩
    all_goals decide

theorem sampleSubs_supported (before : List Submission) (sub : Submission)
    (after : List Submission) (h : sampleSubs = before ++ sub :: after) :
    sub.supported encodingChain sampleParse
      (run encodingChain (sampleDeployment encodingChain rfl).state
        (sampleStart ++ submissionTxs sampleParse before ++ sub.between)) := by
  unfold sampleSubs at h
  rw [sampleBuys_matches, List.map_singleton] at h
  cases before with
  | cons sub' before => exact absurd (congrArg List.length h) (by simp)
  | nil =>
      rw [List.nil_append, List.cons.injEq] at h
      obtain ⟨rfl, _⟩ := h
      intro bid ask a b hbid hask ha hb
      cases hbid
      cases hask
      rw [sampleBuy_signed.1] at ha
      rw [sampleBuy_signed.2] at hb
      cases ha
      cases hb
      refine ⟨rfl, rfl, by decide, fun _ _ _ _ _ => rfl, by decide, rfl, ?_, ?_⟩
      · refine ⟨by decide, rfl, rfl, by decide, by decide, fun _ => ?_, fun h => ?_⟩
        · decide
        · exact absurd h (by decide)
      · refine ⟨by decide, rfl, rfl, by decide, by decide, fun _ => ?_, fun h => ?_⟩
        · decide
        · exact absurd h (by decide)

theorem matches_settle_sample : (runBook sampleBuys).filled.length = 2 ∧
    ∀ r ∈ (runBook sampleBuys).orders, ∀ x, signedOrder sampleParse r = some x →
      Holds encodingChain (run encodingChain (sampleDeployment encodingChain rfl).state
        (sampleStart ++ submissionTxs sampleParse sampleSubs)) x r := by
  refine ⟨by decide, ?_⟩
  refine (matches_settle (encodingChain_hashSound Set.univ) (sampleDeployment encodingChain rfl)
    (lt_trans (sampleDeployment_supply encodingChain rfl) (by decide)) sampleParse sampleMarket
    sampleBuys sampleStart sampleSubs (fun _ _ _ _ => Set.mem_univ _)
    (fun tx _ => tx.call.within_univ) (fun _ _ tx _ => tx.call.within_univ) sampleBuys_admitted ?_
    ?_ ?_ ?_ sampleSubs_supported).2
  · decide
  · intro o _ x _
    rfl
  · unfold sampleSubs
    rw [List.map_map]
    exact List.map_id _
  · intro sub hsub tx htx
    obtain ⟨m, _, rfl⟩ := List.mem_map.mp hsub
    exact absurd htx List.not_mem_nil

end PrismBackend.Api
