import PrismBackend.Clob.Ingress
import PrismBackend.PrismV2.Effects
import PrismBackend.Api.Gates

/-!
# The collateral split in three languages

The matching engine splits a fill in 128-bit words, the API in two words of 64
bits, and the contract in 256-bit words. All three accept the same fills and
split them alike.
-/

namespace PrismBackend.Api

open PrismBackend.Lib PrismBackend.Clob PrismBackend.PrismV2

/-! ## The contract -/

/-- What `settle` computes from the fill and its price. -/
def settleSplit (fillShares executionYesPrice : Nat) : Except Err (Nat × Nat) := do
  revertIf (fillShares = 0 ∨ executionYesPrice = 0 ∨ PrismV2.priceScale ≤ executionYesPrice)
    .invalidPrice
  let yesCollateral ← mulDiv fillShares executionYesPrice PrismV2.priceScale
  let noCollateral ← sub256 fillShares yesCollateral
  revertIf (yesCollateral = 0 ∨ noCollateral = 0) .invalidFill
  .ok (yesCollateral, noCollateral)

/-- What `settle` does with the two legs, and everything that it checks besides. -/
def settleLegs (c : Chain) (env : Env) (a : Authorization) (signatureA : Bytes)
    (b : Authorization) (signatureB : Bytes) (fillShares executionYesPrice : Nat)
    (matchId : Bytes32) (legs : Nat × Nat) (s : State) : Except Err State := do
  onlyOperator env s
  let s ← nonReentrantBefore s
  revertIf (matchId = 0 ∨ s.executedMatches matchId) .matchAlreadyExecuted
  revertIf (a.marketId ≠ b.marketId ∨ a.signer = b.signer) .invalidPairing
  let market := s.markets a.marketId
  revertIf (market.state ≠ .open ∨ market.closeTime ≤ env.timestamp) .invalidMarketState
  let hashA ← validateAuthorization c env s a signatureA executionYesPrice
  let hashB ← validateAuthorization c env s b signatureB executionYesPrice
  let s ← consume s a hashA fillShares (PrismV2.legCollateral a.side legs.1 legs.2)
  let s ← consume s b hashB fillShares (PrismV2.legCollateral b.side legs.1 legs.2)
  let s := { s with executedMatches := Function.update s.executedMatches matchId true }
  let s ← executePairing c env a b fillShares legs.1 legs.2 s
  assertSolvent c s
  .ok (nonReentrantAfter s)

/-- `settle` is its split and the rest. -/
theorem settle_ok_iff_split (c : Chain) (env : Env) (a : Authorization) (signatureA : Bytes)
    (b : Authorization) (signatureB : Bytes) (fillShares executionYesPrice : Nat)
    (matchId : Bytes32) (s s' : State) :
    settle c env a signatureA b signatureB fillShares executionYesPrice matchId s = .ok s' ↔
      ∃ legs, settleSplit fillShares executionYesPrice = .ok legs ∧
        settleLegs c env a signatureA b signatureB fillShares executionYesPrice matchId legs s =
          .ok s' := by
  simp only [settle, settleSplit, settleLegs, bind_ok_iff, Except.ok.injEq]
  constructor
  · rintro ⟨_, hop, s₁, hent, _, hid, _, hpair, _, hopen, _, hprice, hashA, hvA, hashB, hvB, yes,
      hyes, no, hno, _, hlegs, hrest⟩
    exact ⟨(yes, no), ⟨_, hprice, yes, hyes, no, hno, _, hlegs, rfl⟩, _, hop, s₁, hent, _, hid, _,
      hpair, _, hopen, hashA, hvA, hashB, hvB, hrest⟩
  · rintro ⟨_, ⟨_, hprice, yes, hyes, no, hno, _, hlegs, rfl⟩, _, hop, s₁, hent, _, hid, _, hpair,
      _, hopen, hashA, hvA, hashB, hvB, hrest⟩
    exact ⟨_, hop, s₁, hent, _, hid, _, hpair, _, hopen, _, hprice, hashA, hvA, hashB, hvB, yes,
      hyes, no, hno, _, hlegs, hrest⟩

/-! ## Agreement -/

section Agreement

variable {fill price : Nat}

theorem guarded_split {ε : Type} {guardErr legsErr : ε} :
    (do
      revertIf (fill = 0 ∨ price = 0 ∨ Clob.priceScale ≤ price) guardErr
      revertIf (fill * price / Clob.priceScale = 0 ∨
        fill - fill * price / Clob.priceScale = 0) legsErr
      Except.ok (fill * price / Clob.priceScale, fill - fill * price / Clob.priceScale)).toOption =
      Clob.splitCollateral fill price := by
  unfold Clob.splitCollateral revertIf
  by_cases hguard : fill = 0 ∨ price = 0 ∨ Clob.priceScale ≤ price
  · rw [if_pos hguard, if_pos hguard]
    rfl
  · rw [if_neg hguard, if_neg hguard]
    by_cases hlegs : fill * price / Clob.priceScale = 0 ∨
        fill - fill * price / Clob.priceScale = 0
    · simp only [if_pos hlegs]
      rfl
    · simp only [if_neg hlegs]
      rfl

theorem splitCollateralV2_toOption (hfill : fill < 2 ^ 64) :
    (splitCollateralV2 fill price).toOption = Clob.splitCollateral fill price := by
  by_cases hguard : fill = 0 ∨ price = 0 ∨ PrismV2.priceScale ≤ price
  · have hnone : Clob.splitCollateral fill price = none := if_pos hguard
    rw [hnone, splitCollateralV2, revertIf, if_pos hguard]
    rfl
  · have hprice : price < PrismV2.priceScale := by omega
    have hle : fill * price / PrismV2.priceScale ≤ fill := yesCollateral_le fill hprice
    rw [← guarded_split, splitCollateralV2]
    simp only [div64_mul64 hfill hprice, Option.getD_some, sub64_eq hfill hle]
    rfl

theorem settleSplit_toOption (hfill : fill < 2 ^ 64) :
    (settleSplit fill price).toOption = Clob.splitCollateral fill price := by
  by_cases hguard : fill = 0 ∨ price = 0 ∨ PrismV2.priceScale ≤ price
  · have hnone : Clob.splitCollateral fill price = none := if_pos hguard
    rw [hnone, settleSplit, revertIf, if_pos hguard]
    rfl
  · have hprice : price < PrismV2.priceScale := by omega
    have hle : fill * price / PrismV2.priceScale ≤ fill := yesCollateral_le fill hprice
    have hword : fill * price / PrismV2.priceScale < 2 ^ 256 := by omega
    have hdiv : mulDiv fill price PrismV2.priceScale = .ok (fill * price / PrismV2.priceScale) :=
      (mulDiv_ok_iff _ _ _ _).mpr ⟨by decide, hword, rfl⟩
    have hsub : sub256 fill (fill * price / PrismV2.priceScale) =
        .ok (fill - fill * price / PrismV2.priceScale) := checkedSub_ok_iff.mpr ⟨hle, rfl⟩
    rw [← guarded_split, settleSplit, hdiv]
    simp only [ok_bind, hsub]
    rfl

/-- On every fill of a 64-bit word the three splits accept the same prices and give the same legs,
which are positive and make up the fill; the division of the API does not panic, and `settle`
takes exactly these legs. -/
theorem split_agreement (fill price : Nat) (hfill : fill < 2 ^ 64) :
    ∃ split : Option (Nat × Nat),
      Machine.splitCollateral fill price = .ok split ∧
      (splitCollateralV2 fill price).toOption = split ∧
      (price < PrismV2.priceScale →
        div64 (mul64 fill price).1 (mul64 fill price).2 PrismV2.priceScale ≠ none) ∧
      (settleSplit fill price).toOption = split ∧
      (∀ c env a signatureA b signatureB matchId s s',
        settle c env a signatureA b signatureB fill price matchId s = .ok s' ↔
          ∃ legs, split = some legs ∧
            settleLegs c env a signatureA b signatureB fill price matchId legs s = .ok s') ∧
      ∀ yes no, split = some (yes, no) → 0 < yes ∧ 0 < no ∧ yes + no = fill := by
  have hsettle : (settleSplit fill price).toOption = Clob.splitCollateral fill price :=
    settleSplit_toOption hfill
  refine ⟨Clob.splitCollateral fill price, machine_splitCollateral hfill,
    splitCollateralV2_toOption hfill, ?_, hsettle, ?_, ?_⟩
  · intro hprice
    rw [div64_mul64 hfill hprice]
    exact Option.some_ne_none _
  · intro c env a signatureA b signatureB matchId s s'
    rw [settle_ok_iff_split, ← hsettle]
    cases settleSplit fill price with
    | error err => simp [Except.toOption]
    | ok legs => simp [Except.toOption]
  · intro yes no hsplit
    obtain ⟨hyes, hno, hyesPos, hnoPos, _⟩ := splitCollateral_eq_some hsplit
    exact ⟨hyesPos, hnoPos, by omega⟩

theorem split_agreement_sample :
    ∃ split : Option (Nat × Nat),
      Machine.splitCollateral 3 999999 = .ok split ∧
      (splitCollateralV2 3 999999).toOption = split ∧
      (999999 < PrismV2.priceScale →
        div64 (mul64 3 999999).1 (mul64 3 999999).2 PrismV2.priceScale ≠ none) ∧
      (settleSplit 3 999999).toOption = split ∧
      (∀ c env a signatureA b signatureB matchId s s',
        settle c env a signatureA b signatureB 3 999999 matchId s = .ok s' ↔
          ∃ legs, split = some legs ∧
            settleLegs c env a signatureA b signatureB 3 999999 matchId legs s = .ok s') ∧
      ∀ yes no, split = some (yes, no) → 0 < yes ∧ 0 < no ∧ yes + no = 3 :=
  split_agreement 3 999999 (by decide)

end Agreement

end PrismBackend.Api
