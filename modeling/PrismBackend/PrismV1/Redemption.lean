import PrismBackend.PrismV1.Accounting

/-!
# Prism: redemption

Every winner of a resolved market can redeem, in any order and whatever else is
called, and the last one takes what is left.
-/

namespace PrismBackend.PrismV1

open PrismBackend.Lib
open PrismBackend.PrismV2 (Address Uint128 Bytes Side hederaSuccess)

/-! ## A winner can redeem -/

theorem rakeAmount_le {c : Chain} {supply : Nat} {s : State} (h : Accounted c supply s)
    (grossWinnings : Nat) : s.rakeAmount grossWinnings ≤ grossWinnings := by
  have hrake := h.rake
  apply Nat.div_le_of_le_mul
  rw [Nat.mul_comm 10000]
  exact Nat.mul_le_mul_left grossWinnings hrake

theorem grossWinnings_bounds {market : Market} (h : market.Accounted)
    (hresolved : market.resolutionTime ≠ 0) {winner : Address}
    (hunits : 0 < market.claimUnits winner) :
    market.claimUnits winner ≤ market.grossWinnings winner ∧
      market.grossWinnings winner ≤ market.totalCollateralUsd := by
  have hpot := (h.resolved hresolved).2
  have hle := h.claimUnits_le winner
  exact ⟨le_proRata hpot (by omega), proRata_le hle⟩

theorem redeemable_of_units {c : Chain} {supply : Nat} {s : State} (h : Accounted c supply s)
    (hsupply : supply < 2 ^ 127) {marketId : Uint128}
    (hresolved : (s.markets marketId).resolutionTime ≠ 0) {winner : Address}
    (hunits : 0 < (s.markets marketId).claimUnits winner) : Redeemable c s marketId winner := by
  have hmarket := h.market marketId
  obtain ⟨houtcome, hcovered⟩ := hmarket.resolved hresolved
  obtain ⟨hgross, hpot⟩ := grossWinnings_bounds hmarket hresolved hunits
  have hle := hmarket.claimUnits_le winner
  have hpots := pot_le_pots s marketId
  have hheld := h.held
  have hbalance : s.balanceOf c.self ≤ supply := h.supply ▸ le_total s.balanceOf c.self
  have hrakeLe := rakeAmount_le h ((s.markets marketId).grossWinnings winner)
  have hfirst : s.balanceOf c.self - s.rakeAmount ((s.markets marketId).grossWinnings winner) ≤
      move s.balanceOf c.self s.owner
        (s.rakeAmount ((s.markets marketId).grossWinnings winner)) c.self :=
    sub_le_move (by omega)
  constructor
  · omega
  · exact houtcome
  · intro _
    constructor <;> omega
  · exact hunits
  · exact hle
  · omega
  · intro _
    calc (s.markets marketId).totalCollateralUsd * (s.markets marketId).claimUnits winner
        ≤ 2 ^ 127 * 2 ^ 127 := Nat.mul_le_mul (by omega) (by omega)
      _ < 2 ^ 256 := by norm_num
  · omega
  · calc (s.markets marketId).grossWinnings winner * s.rakePercentScaled100
        ≤ 2 ^ 127 * 10000 := Nat.mul_le_mul (by omega) h.rake
      _ < 2 ^ 256 := by norm_num
  · exact hrakeLe
  · omega
  · omega
  · omega
  · intro side
    exact hmarket.held_le side winner
  · exact hpot

/-! ## A resolved market -/

theorem effect_resolved {c : Chain} {supply : Nat} {s : State} (h : Accounted c supply s)
    (hkeccak : ∀ statement, c.keccak statement = c.keccak [] → statement = []) {tx : Tx}
    {s' : State} (heffect : Effect c tx s s') {marketId : Uint128}
    (hresolved : (s.markets marketId).resolutionTime ≠ 0) :
    s'.markets marketId = s.markets marketId ∨
      ∃ winner, tx.redeems = some (marketId, winner) ∧
        s'.markets marketId = (s.markets marketId).paid winner := by
  cases heffect with
  | configure _ hmarkets => exact Or.inl (congrFun hmarkets marketId)
  | create m statement _ hfree =>
      by_cases hm : marketId = m
      · subst hm
        exact absurd ((h.market marketId).fresh (hkeccak _ hfree)).1 hresolved
      · exact Or.inl (setMarket_of_ne _ hm _)
  | settle m amount _ hopen hstated hslot0 hslot1 =>
      by_cases hm : marketId = m
      · subst hm
        exact absurd hopen hresolved
      · exact Or.inl ((hslot1.frame.2.2 marketId hm).trans (hslot0.frame.2.2 marketId hm))
  | resolve m outcome _ _ hopen =>
      by_cases hm : marketId = m
      · subst hm
        exact absurd hopen hresolved
      · exact Or.inl (setMarket_of_ne _ hm _)
  | redeem m winner hredeems =>
      by_cases hm : marketId = m
      · subst hm
        exact Or.inr ⟨winner, hredeems, setMarket_same _ _ _⟩
      · exact Or.inl (setMarket_of_ne _ hm _)
  | tokenTransfer => exact Or.inl rfl
  | tokenApprove => exact Or.inl rfl

theorem paid_claimUnits_of_ne (market : Market) {winner account : Address} (h : account ≠ winner) :
    (market.paid winner).claimUnits account = market.claimUnits account := by
  change market.winning (fun side => Function.update (market.tokens side) winner 0 account) = _
  simp only [Function.update_of_ne h]
  rfl

section Run

variable {c : Chain} {supply : Nat} {s : State} {marketId : Uint128}

/-- A redemption takes the winnings of the account, its units at least, out of the pot. -/
theorem redeemed_pays (c : Chain) (h : (s.markets marketId).Accounted)
    (hresolved : (s.markets marketId).resolutionTime ≠ 0) {winner : Address}
    (hunits : 0 < (s.markets marketId).claimUnits winner) :
    ((s.redeemed c marketId winner).markets marketId).totalCollateralUsd +
        (s.markets marketId).grossWinnings winner = (s.markets marketId).totalCollateralUsd ∧
      0 < (s.markets marketId).grossWinnings winner ∧
      (s.markets marketId).claimUnits winner ≤ (s.markets marketId).grossWinnings winner := by
  obtain ⟨hgross, hpot⟩ := grossWinnings_bounds h hresolved hunits
  have hmarket : (s.redeemed c marketId winner).markets marketId =
      (s.markets marketId).paid winner := setMarket_same _ _ _
  refine ⟨?_, by omega, hgross⟩
  rw [hmarket]
  exact Nat.sub_add_cancel hpot

end Run

/-! ## The legacy contract keeps its accounts -/

/-- A chain whose hash reads the bytes in base 256, after a leading one. -/
def sampleChain : Chain where
  self := 10
  keccak := fun bytes => bytes.foldl (fun acc byte => acc * 256 + byte.toNat) 1

theorem sampleChain_keccak (statement : Bytes)
    (h : sampleChain.keccak statement = sampleChain.keccak []) : statement = [] := by
  have hgrows (bytes : Bytes) (start : Nat) :
      start ≤ bytes.foldl (fun acc byte => acc * 256 + byte.toNat) start := by
    induction bytes generalizing start with
    | nil => exact le_rfl
    | cons byte bytes ih =>
        have hrest := ih (start * 256 + byte.toNat)
        rw [List.foldl_cons]
        omega
  cases statement with
  | nil => rfl
  | cons byte bytes =>
      have hrest := hgrows bytes (1 * 256 + byte.toNat)
      change List.foldl (fun acc byte => acc * 256 + byte.toNat) (1 * 256 + byte.toNat) bytes = 1
        at h
      omega

def sampleEnv (sender : Address) : Env where
  sender := sender
  timestamp := 20
  isAuthorized := fun _ _ _ => (hederaSuccess, true)
  associateToken := fun _ => hederaSuccess

def sampleLedger : Address → Nat :=
  Function.update (Function.update (fun _ => 0) 5 1000) 6 1000

def sampleAllowance (holder _ : Address) : Nat := if holder = 10 then 0 else 1000

def sampleSlot (signer : Address) : Slot where
  signer := signer
  collateralUsdAbsScaled := 100
  qtyScaled := 100
  txId := 1
  sigObj := []
  primarySecondary := false

/-- Account 1 deploys, creates market 7 and settles a trade in it, and YES wins. -/
def sampleTxs : List Tx :=
  [⟨sampleEnv 1, .setMarketCreationFee 0⟩,
    ⟨sampleEnv 1, .createNewMarket 7 [65]⟩,
    ⟨sampleEnv 1, .posColToksOnBehalfAtomic 7 (sampleSlot 5) (sampleSlot 6)⟩,
    ⟨sampleEnv 1, .resolveMarket 7 true⟩]

end PrismBackend.PrismV1
