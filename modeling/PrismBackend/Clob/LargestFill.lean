import Mathlib.Order.Bounds.Basic
import PrismBackend.Lib.FloorSplit
import PrismBackend.Clob.Ingress

/-!
# CLOB: the largest fill

`max_fill` against the set of fills that it searches: those that pay both legs
and leave both orders within their caps. The caps admit a prefix and the legs a
suffix, both because a leg grows with the fill, and never faster.
-/

namespace PrismBackend.Clob

open PrismBackend.Lib

/-! ## Caps -/

def WithinCap (o : CreateOrderRequestClob) : Prop :=
  o.action = actionBuy → o.collateralFilled ≤ o.collateralCap

/-- As the CLOB adds up: the last word is a cap that no sum passes. -/
def CapKept (o : CreateOrderRequestClob) : Prop := o.collateralCap < 2 ^ 64 - 1 → WithinCap o

def yesLeg (price fill : Nat) : Nat := lower priceScale (fill, price)
def noLeg (price fill : Nat) : Nat := upper priceScale (fill, price)

/-- A fill of at most `limit` shares that pays both legs and leaves both orders within. -/
structure Feasible (within : CreateOrderRequestClob → Prop) (bid ask : CreateOrderRequestClob)
    (price limit fill : Nat) : Prop where
  pos : 1 ≤ fill
  le : fill ≤ limit
  yes_pos : 0 < yesLeg price fill
  no_pos : 0 < noLeg price fill
  bid : within (filledBy bid fill (yesLeg price fill) (noLeg price fill))
  ask : within (filledBy ask fill (yesLeg price fill) (noLeg price fill))

theorem withinCap_iff (o : CreateOrderRequestClob) (fill yes no : Nat) :
    withinCap o yes no = true ↔ CapKept (filledBy o fill yes no) := by
  have hsum : saturatingAdd o.collateralFilled (legCollateral o yes no) ≤ o.collateralCap ↔
      (o.collateralCap < 2 ^ 64 - 1 →
        o.collateralFilled + legCollateral o yes no ≤ o.collateralCap) := by
    unfold saturatingAdd
    omega
  calc withinCap o yes no = true ↔ (o.action ≠ actionBuy ∨
        saturatingAdd o.collateralFilled (legCollateral o yes no) ≤ o.collateralCap) :=
        decide_eq_true_iff
    _ ↔ CapKept (filledBy o fill yes no) := by
        rw [hsum, ← imp_iff_not_or]
        exact imp.swap

theorem capsOk_iff {bid ask : CreateOrderRequestClob} {price fill : Nat} :
    capsOk bid ask price fill = true ↔
      CapKept (filledBy bid fill (yesLeg price fill) (noLeg price fill)) ∧
        CapKept (filledBy ask fill (yesLeg price fill) (noLeg price fill)) := by
  rw [capsOk, Bool.and_eq_true, withinCap_iff bid fill, withinCap_iff ask fill]
  rfl

theorem splitCollateral_isSome_iff {fill price : Nat} :
    (∃ legs, splitCollateral fill price = some legs) ↔
      0 < yesLeg price fill ∧ 0 < noLeg price fill := by
  constructor
  · rintro ⟨⟨yes, no⟩, h⟩
    obtain ⟨hyes, hno, hyesPos, hnoPos, _⟩ := splitCollateral_eq_some h
    rw [hno, hyes] at hnoPos
    rw [hyes] at hyesPos
    exact ⟨hyesPos, hnoPos⟩
  · rintro ⟨hyes, hno⟩
    simp only [splitCollateral, yesLeg, noLeg, lower, upper] at hyes hno ⊢
    have hfill : fill ≠ 0 := by omega
    have hprice : price ≠ 0 := by
      rintro rfl
      simp at hyes
    have hlt : ¬priceScale ≤ price := by
      intro hge
      -- at such a price the YES leg alone is the whole fill
      have hyesAll : fill ≤ fill * price / priceScale := by
        rw [Nat.le_div_iff_mul_le (by decide)]
        exact Nat.mul_le_mul_left fill hge
      omega
    rw [if_neg (by simp [hfill, hprice, hlt]), if_neg (by omega)]
    exact ⟨_, rfl⟩

/-! ## The search -/

section Search

variable {bid ask : CreateOrderRequestClob} {price limit fill : Nat}

theorem CapKept.of_le {o : CreateOrderRequestClob} {m n yes no yes' no' : Nat}
    (h : CapKept (filledBy o n yes' no')) (hyes : yes ≤ yes') (hno : no ≤ no') :
    CapKept (filledBy o m yes no) := by
  intro hcap hbuy
  have hle := h hcap hbuy
  simp only [filledBy, legCollateral] at hle ⊢
  split at hle
  · next hside =>
    rw [if_pos hside]
    omega
  · next hside =>
    rw [if_neg hside]
    omega

theorem capsOk_down (hprice : price ≤ priceScale) {m n : Nat} (h : m ≤ n)
    (hn : capsOk bid ask price n = true) : capsOk bid ask price m = true := by
  rw [capsOk_iff] at hn ⊢
  have hyes : yesLeg price m ≤ yesLeg price n := lower_mono h
  have hno : noLeg price m ≤ noLeg price n := upper_mono (by decide) hprice h
  exact ⟨hn.1.of_le hyes hno, hn.2.of_le hyes hno⟩

theorem Feasible.price_lt {within : CreateOrderRequestClob → Prop}
    (h : Feasible within bid ask price limit fill) :
    limit ≠ 0 ∧ price ≠ 0 ∧ price < priceScale := by
  obtain ⟨⟨yes, no⟩, hlegs⟩ := splitCollateral_isSome_iff.mpr ⟨h.yes_pos, h.no_pos⟩
  obtain ⟨_, _, _, _, hpos, hlt, _⟩ := splitCollateral_eq_some hlegs
  have hone := h.pos
  have hle := h.le
  exact ⟨by omega, by omega, hlt⟩

/-- What `max_fill` returns is feasible, and no feasible fill is larger. -/
theorem maxFill_isGreatest (h : maxFill bid ask price limit = some fill) :
    IsGreatest {f | Feasible CapKept bid ask price limit f} fill := by
  obtain ⟨hle, hcaps, yes, no, hsplit⟩ := maxFill_eq_some h
  obtain ⟨_, _, _, _, _, hlt, hpos⟩ := splitCollateral_eq_some hsplit
  obtain ⟨hyes, hno⟩ := splitCollateral_isSome_iff.mp ⟨_, hsplit⟩
  obtain ⟨hbid, hask⟩ := capsOk_iff.mp hcaps
  refine ⟨⟨hpos, hle, hyes, hno, hbid, hask⟩, ?_⟩
  intro f hf
  have hfound : capsOk bid ask price f = true := capsOk_iff.mpr ⟨hf.bid, hf.ask⟩
  unfold maxFill at h
  rw [if_neg (by have := hf.price_lt; omega)] at h
  simp only [Option.map_eq_some_iff] at h
  obtain ⟨_, _, rfl⟩ := h
  apply le_searchLoop limit _ _ _ f hf.le hfound
  · split <;> omega
  · intro m n hmn _ hn
    exact capsOk_down hlt.le hmn hn
  · intro n hn hle'
    omega

/-- `max_fill` finds a fill when there is a feasible one. -/
theorem Feasible.maxFill_ne_none (h : Feasible CapKept bid ask price limit fill) :
    maxFill bid ask price limit ≠ none := by
  obtain ⟨hlimit, hprice, hlt⟩ := h.price_lt
  have hfound : capsOk bid ask price fill = true := capsOk_iff.mpr ⟨h.bid, h.ask⟩
  unfold maxFill
  rw [if_neg (by omega)]
  have hlargest : fill ≤ searchLoop (capsOk bid ask price) limit
      (if capsOk bid ask price limit then limit else 0) limit := by
    apply le_searchLoop limit _ _ _ fill h.le hfound
    · split <;> omega
    · intro m n hmn _ hn
      exact capsOk_down hlt.le hmn hn
    · intro n hn hle
      omega
  have hlegs := splitCollateral_isSome_iff.mpr
    ⟨h.yes_pos.trans_le (lower_mono hlargest),
      h.no_pos.trans_le (upper_mono (by decide) hlt.le hlargest)⟩
  obtain ⟨legs, hlegs⟩ := hlegs
  simp only [hlegs]
  exact Option.some_ne_none _

theorem maxFill_eq_none_iff :
    maxFill bid ask price limit = none ↔ ∀ f, ¬Feasible CapKept bid ask price limit f := by
  constructor
  · intro hnone f hf
    exact hf.maxFill_ne_none hnone
  · intro hall
    cases hfill : maxFill bid ask price limit with
    | none => rfl
    | some f => exact absurd (maxFill_isGreatest hfill).1 (hall f)

theorem maxFill_eq_some_iff :
    maxFill bid ask price limit = some fill ↔
      IsGreatest {f | Feasible CapKept bid ask price limit f} fill := by
  constructor
  · exact maxFill_isGreatest
  · intro hgreatest
    cases hfill : maxFill bid ask price limit with
    | none => exact absurd hgreatest.1 (maxFill_eq_none_iff.mp hfill fill)
    | some f => rw [(maxFill_isGreatest hfill).unique hgreatest]

/-- In machine words `max_fill` terminates without a fault and returns the largest feasible fill,
or none when there is none. -/
theorem machine_maxFill_largest (bid ask : CreateOrderRequestClob) (price : Nat) {limit : Nat}
    (hlimit : limit < 2 ^ 63) :
    ∃ result, Machine.maxFill bid ask price limit = .ok result ∧
      (∀ fill, result = some fill ↔
        IsGreatest {f | Feasible CapKept bid ask price limit f} fill) ∧
      (result = none ↔ ∀ f, ¬Feasible CapKept bid ask price limit f) := by
  refine ⟨maxFill bid ask price limit, machine_maxFill (by omega), ?_, maxFill_eq_none_iff⟩
  intro fill
  exact maxFill_eq_some_iff

end Search

/-- A BUY of ten shares that may pay two units, and has paid one. -/
def cappedBid : CreateOrderRequestClob :=
  { sampleOrder "a" "t1" 0 0 500000 10 with collateralCap := 2, collateralFilled := 1 }

theorem machine_maxFill_largest_sample :
    ∃ result, Machine.maxFill cappedBid (sampleOrder "b" "t2" 0 1 500000 10) 500000 10 =
        .ok result ∧
      (∀ fill, result = some fill ↔ IsGreatest
        {f | Feasible CapKept cappedBid (sampleOrder "b" "t2" 0 1 500000 10) 500000 10 f} fill) ∧
      (result = none ↔
        ∀ f, ¬Feasible CapKept cappedBid (sampleOrder "b" "t2" 0 1 500000 10) 500000 10 f) :=
  machine_maxFill_largest cappedBid (sampleOrder "b" "t2" 0 1 500000 10) 500000 (by decide)

/-- A BUY within the greatest cap that a word holds. -/
def endlessBid : CreateOrderRequestClob :=
  { sampleOrder "a" "t1" 0 0 500000 10 with
    collateralCap := 0xFFFFFFFFFFFFFFFF, collateralFilled := 0xFFFFFFFFFFFFFFFE }

theorem endlessBid_within : WithinCap endlessBid := by
  intro _
  simp only [endlessBid]
  omega

/-- Against such a cap the sum saturates below what the fill costs. -/
theorem maxFill_saturates : ∃ bid ask : CreateOrderRequestClob, ∃ price limit fill : Nat,
    WordFields bid ∧ WordFields ask ∧ WithinCap bid ∧ WithinCap ask ∧ limit < 2 ^ 63 ∧
      Machine.maxFill bid ask price limit = .ok (some fill) ∧
      ¬Feasible WithinCap bid ask price limit fill := by
  refine ⟨endlessBid, sampleOrder "b" "t2" 0 1 500000 10, 500000, 4, 4, by decide, by decide,
    endlessBid_within, ?_, by decide, by decide +kernel, ?_⟩
  · intro hbuy
    exact absurd hbuy (by decide)
  · intro hfeasible
    have hleg : legCollateral endlessBid (yesLeg 500000 4) (noLeg 500000 4) = 2 := rfl
    have hcap := hfeasible.bid rfl
    simp only [filledBy, hleg] at hcap
    simp only [endlessBid] at hcap
    omega

end PrismBackend.Clob
