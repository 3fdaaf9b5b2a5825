import PrismBackend.PrismV2.Solvency

/-!
# PrismV2: the legs of a fill

What a settlement does to each of its two signers depends on that signer's own
order only, whichever pairing it is; nobody else but the contract is touched.
-/

namespace PrismBackend.PrismV2

open PrismBackend.Lib

/-- One order's share of a fill: a BUY pays its leg and gains shares of its outcome, a SELL
receives its leg and gives shares up. -/
structure LegDone (s s' : State) (x : Authorization) (shares leg : Nat) : Prop where
  paid : x.action = .buy → s'.collateral x.signer + leg = s.collateral x.signer
  gained : x.action = .buy → s'.position x.side x.marketId x.signer =
    s.position x.side x.marketId x.signer + shares
  received : x.action = .sell → s'.collateral x.signer = s.collateral x.signer + leg
  gaveUp : x.action = .sell → s'.position x.side x.marketId x.signer + shares =
    s.position x.side x.marketId x.signer

section Orders

variable {a b x : Authorization}

theorem yesOrder_eq (hsides : a.side ≠ b.side) (hx : x = a ∨ x = b) (hside : x.side = .yes) :
    yesOrder a b = x := by
  unfold yesOrder
  rcases hx with rfl | rfl
  · rw [if_pos hside]
  · rw [if_neg fun h => hsides (h.trans hside.symm)]

theorem noOrder_eq (hsides : a.side ≠ b.side) (hx : x = a ∨ x = b) (hside : x.side = .no) :
    noOrder a b = x := by
  unfold noOrder
  rcases hx with rfl | rfl
  · rw [if_pos hside]
  · rw [if_neg fun h => hsides (h.trans hside.symm)]

theorem buyer_eq (hactions : a.action ≠ b.action) (hx : x = a ∨ x = b)
    (haction : x.action = .buy) : buyer a b = x := by
  unfold buyer
  rcases hx with rfl | rfl
  · rw [if_pos haction]
  · rw [if_neg fun h => hactions (h.trans haction.symm)]

theorem seller_eq (hactions : a.action ≠ b.action) (hx : x = a ∨ x = b)
    (haction : x.action = .sell) : seller a b = x := by
  unfold seller
  rcases hx with rfl | rfl
  · rw [if_pos haction]
  · rw [if_neg fun h => hactions (h.trans haction.symm)]

theorem yesOrder_ne_noOrder (hsigners : a.signer ≠ b.signer) :
    (yesOrder a b).signer ≠ (noOrder a b).signer := by
  unfold yesOrder noOrder
  cases ha : a.side <;> simp_all [Ne.symm hsigners]

theorem buyer_ne_seller (hsigners : a.signer ≠ b.signer) :
    (buyer a b).signer ≠ (seller a b).signer := by
  unfold buyer seller
  cases ha : a.action <;> simp_all [Ne.symm hsigners]

/-- One of two orders on different sides is on either side. -/
theorem exists_side (hsides : a.side ≠ b.side) (side : Side) :
    ∃ x, (x = a ∨ x = b) ∧ x.side = side := by
  by_cases ha : a.side = side
  · exact ⟨a, Or.inl rfl, ha⟩
  · refine ⟨b, Or.inr rfl, ?_⟩
    cases hfirst : a.side <;> cases hsecond : b.side <;> cases side <;> simp_all

theorem exists_action (hactions : a.action ≠ b.action) (action : Action) :
    ∃ x, (x = a ∨ x = b) ∧ x.action = action := by
  by_cases ha : a.action = action
  · exact ⟨a, Or.inl rfl, ha⟩
  · refine ⟨b, Or.inr rfl, ?_⟩
    cases hfirst : a.action <;> cases hsecond : b.action <;> cases action <;> simp_all

end Orders

section Mint

variable {c : Chain} {env : Env} {s : State} {marketId : Uint128} {y n : Address}
  {shares yesLeg noLeg : Nat}

theorem minted_collateral_yes (h : Mintable c env s marketId y n shares yesLeg noLeg)
    (hyn : y ≠ n) (hyes : yesLeg ≠ 0) :
    (s.minted c marketId y n shares yesLeg noLeg).collateral y + yesLeg = s.collateral y := by
  have hself := h.yesPayer.resolve_right hyes
  have hfunded := h.yesFunded
  simp only [State.minted]
  rw [move_other _ hyn hself, move_source _ hself]
  omega

theorem minted_collateral_no (h : Mintable c env s marketId y n shares yesLeg noLeg)
    (hyn : y ≠ n) (hno : noLeg ≠ 0) :
    (s.minted c marketId y n shares yesLeg noLeg).collateral n + noLeg = s.collateral n := by
  have hself := h.noPayer.resolve_right hno
  have hfunded := h.noFunded
  simp only [State.minted]
  rw [move_other _ (Ne.symm hyn) hself] at hfunded
  rw [move_source _ hself, move_other _ (Ne.symm hyn) hself]
  omega

theorem merged_collateral_yes (h : Mergeable c env s marketId y n shares yesLeg noLeg)
    (hyn : y ≠ n) (hyes : yesLeg ≠ 0) :
    (s.merged c marketId y n shares yesLeg noLeg).collateral y = s.collateral y + yesLeg := by
  have hself := h.yesPayee.resolve_right hyes
  simp only [State.merged]
  rw [move_other _ (Ne.symm hself) hyn, move_target _ hself]

theorem merged_collateral_no (h : Mergeable c env s marketId y n shares yesLeg noLeg)
    (hyn : y ≠ n) (hno : noLeg ≠ 0) :
    (s.merged c marketId y n shares yesLeg noLeg).collateral n = s.collateral n + noLeg := by
  have hself := h.noPayee.resolve_right hno
  simp only [State.merged]
  rw [move_target _ hself, move_other _ (Ne.symm hself) (Ne.symm hyn)]

end Mint

/-- Both signers get their legs, in each of the four pairings. -/
theorem PairingEffect.leg {c : Chain} {env : Env} {a b : Authorization}
    {shares yesLeg noLeg : Nat} {s s' : State}
    (heffect : PairingEffect c env a b shares yesLeg noLeg s s')
    (hmarket : a.marketId = b.marketId) (hsigners : a.signer ≠ b.signer) (hyes : yesLeg ≠ 0)
    (hno : noLeg ≠ 0) {x : Authorization} (hx : x = a ∨ x = b) :
    LegDone s s' x shares (legCollateral x.side yesLeg noLeg) := by
  have hxMarket : x.marketId = a.marketId := by
    rcases hx with rfl | rfl
    · rfl
    · exact hmarket.symm
  cases heffect with
  | mint hactions hsides hguard =>
      have hne := yesOrder_ne_noOrder hsigners
      have hbuy : x.action = .buy := by
        rcases hx with rfl | rfl
        · exact hactions.1
        · exact hactions.2
      have hnotSell : x.action ≠ .sell := by simp [hbuy]
      cases hside : x.side with
      | yes =>
          have horder := yesOrder_eq hsides hx hside
          refine ⟨fun _ => ?_, fun _ => ?_, fun h => absurd h hnotSell, fun h => absurd h hnotSell⟩
          · rw [← horder]
            exact minted_collateral_yes hguard hne hyes
          · simp [State.minted, State.position, hside, hxMarket, horder]
      | no =>
          have horder := noOrder_eq hsides hx hside
          refine ⟨fun _ => ?_, fun _ => ?_, fun h => absurd h hnotSell, fun h => absurd h hnotSell⟩
          · rw [← horder]
            exact minted_collateral_no hguard hne hno
          · simp [State.minted, State.position, hside, hxMarket, horder]
  | merge hactions hsides hguard =>
      have hne := yesOrder_ne_noOrder hsigners
      have hsell : x.action = .sell := by
        rcases hx with rfl | rfl
        · exact hactions.1
        · exact hactions.2
      have hnotBuy : x.action ≠ .buy := by simp [hsell]
      cases hside : x.side with
      | yes =>
          have horder := yesOrder_eq hsides hx hside
          have hheld := hguard.yesHeld
          refine ⟨fun h => absurd h hnotBuy, fun h => absurd h hnotBuy, fun _ => ?_, fun _ => ?_⟩
          · rw [← horder]
            exact merged_collateral_yes hguard hne hyes
          · rw [horder] at hheld
            simp [State.merged, State.position, hside, hxMarket, horder, hheld]
      | no =>
          have horder := noOrder_eq hsides hx hside
          have hheld := hguard.noHeld
          refine ⟨fun h => absurd h hnotBuy, fun h => absurd h hnotBuy, fun _ => ?_, fun _ => ?_⟩
          · rw [← horder]
            exact merged_collateral_no hguard hne hno
          · rw [horder] at hheld
            simp [State.merged, State.position, hside, hxMarket, horder, hheld]
  | transfer hactions hsides hguard =>
      have hne := buyer_ne_seller hsigners
      have hxSide : x.side = a.side := by
        rcases hx with rfl | rfl
        · rfl
        · exact hsides.symm
      have hheld := hguard.held
      have hfunded := hguard.funded
      have hposition := transferred_position s a.marketId a.side (seller a b).signer
        (buyer a b).signer shares (legCollateral a.side yesLeg noLeg)
      refine ⟨fun hbuy => ?_, fun hbuy => ?_, fun hsell => ?_, fun hsell => ?_⟩
      · have horder := buyer_eq hactions hx hbuy
        rw [← horder] at hxSide ⊢
        simp only [State.transferred, hxSide]
        rw [move_source _ hne]
        omega
      · have horder := buyer_eq hactions hx hbuy
        rw [hxSide, hxMarket, hposition, ← horder, move_target _ (Ne.symm hne)]
      · have horder := seller_eq hactions hx hsell
        rw [← horder] at hxSide ⊢
        simp only [State.transferred, hxSide]
        rw [move_target _ hne]
      · have horder := seller_eq hactions hx hsell
        rw [hxSide, hxMarket, hposition, ← horder, move_source _ (Ne.symm hne)]
        omega

/-- Nobody but the two signers and the contract gains or loses collateral. -/
theorem PairingEffect.collateral_of_ne {c : Chain} {env : Env} {a b : Authorization}
    {shares yesLeg noLeg : Nat} {s s' : State}
    (heffect : PairingEffect c env a b shares yesLeg noLeg s s') {account : Address}
    (ha : account ≠ a.signer) (hb : account ≠ b.signer) (hself : account ≠ c.self) :
    s'.collateral account = s.collateral account := by
  have hpick (p : Prop) [Decidable p] : account ≠ (if p then a else b).signer := by
    split
    · exact ha
    · exact hb
  cases heffect with
  | mint =>
      simp only [State.minted, yesOrder, noOrder]
      rw [move_other _ (hpick _) hself, move_other _ (hpick _) hself]
  | merge =>
      simp only [State.merged, yesOrder, noOrder]
      rw [move_other _ hself (hpick _), move_other _ hself (hpick _)]
  | transfer =>
      simp only [State.transferred, buyer, seller]
      rw [move_other _ (hpick _) (hpick _)]

/-- A position changes only for a signer, in that order's own market and outcome. -/
theorem PairingEffect.position_of_ne {c : Chain} {env : Env} {a b : Authorization}
    {shares yesLeg noLeg : Nat} {s s' : State}
    (heffect : PairingEffect c env a b shares yesLeg noLeg s s')
    (hmarket : a.marketId = b.marketId) {side : Side} {marketId : Uint128} {account : Address}
    (hother : ∀ x, x = a ∨ x = b →
      ¬(marketId = x.marketId ∧ account = x.signer ∧ side = x.side)) :
    s'.position side marketId account = s.position side marketId account := by
  have hxMarket (x : Authorization) (hx : x = a ∨ x = b) : a.marketId = x.marketId := by
    rcases hx with rfl | rfl
    · rfl
    · exact hmarket
  cases heffect with
  | mint _ hsides =>
      obtain ⟨x, hx, hside⟩ := exists_side hsides side
      have hne : ¬(marketId = a.marketId ∧ account = x.signer) := fun h =>
        hother x hx ⟨h.1.trans (hxMarket x hx), h.2, hside.symm⟩
      cases side with
      | yes => simp [State.minted, State.position, update₂_apply, yesOrder_eq hsides hx hside, hne]
      | no => simp [State.minted, State.position, update₂_apply, noOrder_eq hsides hx hside, hne]
  | merge _ hsides =>
      obtain ⟨x, hx, hside⟩ := exists_side hsides side
      have hne : ¬(marketId = a.marketId ∧ account = x.signer) := fun h =>
        hother x hx ⟨h.1.trans (hxMarket x hx), h.2, hside.symm⟩
      cases side with
      | yes => simp [State.merged, State.position, update₂_apply, yesOrder_eq hsides hx hside, hne]
      | no => simp [State.merged, State.position, update₂_apply, noOrder_eq hsides hx hside, hne]
  | transfer hactions hsides =>
      by_cases h : side = a.side ∧ marketId = a.marketId
      · obtain ⟨hside, hm⟩ := h
        have hxSide (x : Authorization) (hx : x = a ∨ x = b) : side = x.side := by
          rcases hx with rfl | rfl
          · exact hside
          · exact hside.trans hsides
        obtain ⟨p, hp, hpSell⟩ := exists_action hactions .sell
        obtain ⟨q, hq, hqBuy⟩ := exists_action hactions .buy
        rw [hside, hm, transferred_position, seller_eq hactions hp hpSell,
          buyer_eq hactions hq hqBuy, move_other]
        · exact fun heq => hother p hp ⟨hm.trans (hxMarket p hp), heq, hxSide p hp⟩
        · exact fun heq => hother q hq ⟨hm.trans (hxMarket q hq), heq, hxSide q hq⟩
      · rw [transferred_position_of_ne]
        by_cases hside : side = a.side
        · exact Or.inr fun hm => h ⟨hside, hm⟩
        · exact Or.inl hside

/-! ## Legs of a settlement -/

/-- The fill and the price at which a call settles an order, whichever leg it is. -/
def Call.fillOf (x : Authorization) : Call → Option (Nat × Nat)
  | .settle a _ b _ fillShares executionYesPrice _ =>
    if x = a ∨ x = b then some (fillShares, executionYesPrice) else none
  | _ => none

theorem effect_leg {c : Chain} {env : Env} {s s' : State} {call : Call} {event : Option Redeemed}
    (heffect : Effect c env s call s' event) {x : Authorization} {shares price : Nat}
    (hfill : call.fillOf x = some (shares, price)) :
    price < priceScale ∧ (∃ signature, Valid c env s x signature price) ∧
      LegDone s s' x shares (fillCollateral x shares price) := by
  cases heffect with
  | @settle a b _ _ fillShares executionYesPrice matchId s₁ hadmitted hpair _ =>
      simp only [Call.fillOf] at hfill
      split at hfill
      · next hx =>
        rw [Option.some.injEq, Prod.mk.injEq] at hfill
        obtain ⟨rfl, rfl⟩ := hfill
        have hleg := hpair.leg hadmitted.market hadmitted.signers hadmitted.yesLeg
          hadmitted.noLeg hx
        refine ⟨hadmitted.price_lt, ?_, hleg.paid, hleg.gained, hleg.received, hleg.gaveUp⟩
        rcases hx with rfl | rfl
        · exact ⟨_, hadmitted.validA⟩
        · exact ⟨_, hadmitted.validB⟩
      · exact absurd hfill (by simp)
  | configure hcall => cases call <;> simp_all [Call.fillOf, Call.configures]
  | transition _ _ hcall => cases call <;> simp_all [Call.fillOf, Call.transitions]
  | create | cancel | redeem | tokenTransfer => simp [Call.fillOf] at hfill

end PrismBackend.PrismV2
