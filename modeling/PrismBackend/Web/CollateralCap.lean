import PrismBackend.PrismV2.LimitPrice
import PrismBackend.Clob.LargestFill

/-!
# The collateral cap of the client

`prismV2.ts`: the cap that the client signs for a BUY. The NO leg rounds up on
every fill, so the cap of a BUY NO holds a slack of one unit for each of a
hundred fills. Neither the contract nor the matching engine ever runs into it.
-/

namespace PrismBackend.Web

open PrismBackend.Lib PrismBackend.Clob PrismBackend.PrismV2

def buyNoCapSlack : Nat := 100

/-- `ceilDiv`; the client's integers are not negative here. -/
def ceilDiv (a b : Nat) : Nat := (a + b - 1) / b

def computeCollateralCap (side action qtyShares limitYesPrice : Nat) : Nat :=
  if action = actionSell then 0
  else if side = sideYes then ceilDiv (qtyShares * limitYesPrice) Clob.priceScale
  else ceilDiv (qtyShares * (Clob.priceScale - limitYesPrice)) Clob.priceScale + buyNoCapSlack

/-- A price that a BUY of the side with the limit trades at. -/
def Allowed (side limitYesPrice price : Nat) : Prop :=
  price ≤ Clob.priceScale ∧ if side = sideYes then price ≤ limitYesPrice else limitYesPrice ≤ price

instance (side limitYesPrice price : Nat) : Decidable (Allowed side limitYesPrice price) :=
  inferInstanceAs (Decidable (_ ∧ _))

/-- The collateral leg of a fill, its size before its price. -/
def leg (side : Nat) (fill : Nat × Nat) : Nat :=
  if side = sideYes then lower Clob.priceScale fill else upper Clob.priceScale fill

def legs (side : Nat) (fills : List (Nat × Nat)) : Nat := (fills.map (leg side)).sum

theorem le_ceilDiv_mul (a : Nat) {b : Nat} (hb : 0 < b) : a ≤ ceilDiv a b * b := by
  have hdiv := Nat.div_add_mod (a + b - 1) b
  have hmod := Nat.mod_lt (a + b - 1) hb
  unfold ceilDiv
  rw [Nat.mul_comm] at hdiv
  omega

theorem ceilDiv_le {a b c : Nat} (hb : 0 < b) (h : a ≤ c * b) : ceilDiv a b ≤ c := by
  unfold ceilDiv
  rw [← Nat.lt_succ_iff]
  apply Nat.div_lt_of_lt_mul
  rw [Nat.mul_succ, Nat.mul_comm b]
  omega

theorem computeCollateralCap_le (side action qtyShares : Nat) {limitYesPrice : Nat}
    (hlimit : limitYesPrice ≤ Clob.priceScale) :
    computeCollateralCap side action qtyShares limitYesPrice ≤ qtyShares + buyNoCapSlack := by
  have hscale : 0 < Clob.priceScale := by decide
  have hyes := ceilDiv_le hscale (Nat.mul_le_mul_left qtyShares hlimit)
  have hno := ceilDiv_le hscale
    (Nat.mul_le_mul_left qtyShares (Nat.sub_le Clob.priceScale limitYesPrice))
  unfold computeCollateralCap
  split
  · exact Nat.zero_le _
  split
  · exact hyes.trans (Nat.le_add_right ..)
  · exact Nat.add_le_add_right hno _

theorem leg_yes {side : Nat} (hside : side = sideYes) : leg side = lower Clob.priceScale := by
  funext fill
  exact if_pos hside

theorem leg_no {side : Nat} (hside : side ≠ sideYes) : leg side = upper Clob.priceScale := by
  funext fill
  exact if_neg hside

theorem legs_append (side : Nat) (fills : List (Nat × Nat)) (fill : Nat × Nat) :
    legs side (fills ++ [fill]) = legs side fills + leg side fill := by
  unfold legs
  rw [List.map_append, List.sum_append]
  rfl

theorem quantity_append (fills : List (Nat × Nat)) (fill : Nat × Nat) :
    quantity (fills ++ [fill]) = quantity fills + fill.1 := by
  unfold quantity
  rw [List.map_append, List.sum_append]
  rfl

/-- Fills of no more than the quantity cost no more than the cap: with one fill beyond the hundred
of the slack. -/
theorem legs_le_cap {side qtyShares limitYesPrice : Nat} {fills : List (Nat × Nat)}
    (hfills : ∀ fill ∈ fills, Allowed side limitYesPrice fill.2)
    (htotal : quantity fills ≤ qtyShares) (hcount : side ≠ sideYes → fills.length ≤ 101) :
    legs side fills ≤ computeCollateralCap side actionBuy qtyShares limitYesPrice := by
  have hscale : 0 < Clob.priceScale := by decide
  unfold legs computeCollateralCap
  rw [if_neg (by decide)]
  by_cases hside : side = sideYes
  · simp only [Allowed, if_pos hside] at hfills
    rw [if_pos hside, leg_yes hside]
    have hsum := sum_lower_le hscale fun fill hfill => (hfills fill hfill).2
    have hceil := le_ceilDiv_mul (qtyShares * limitYesPrice) hscale
    have htotals : quantity fills * limitYesPrice ≤ qtyShares * limitYesPrice :=
      Nat.mul_le_mul_right _ htotal
    calc (fills.map (lower Clob.priceScale)).sum
        ≤ quantity fills * limitYesPrice / Clob.priceScale := hsum
      _ ≤ ceilDiv (qtyShares * limitYesPrice) Clob.priceScale := by
          apply Nat.div_le_of_le_mul
          rw [Nat.mul_comm Clob.priceScale]
          exact htotals.trans hceil
  · simp only [Allowed, if_neg hside] at hfills
    rw [if_neg hside, leg_no hside]
    by_cases hnil : fills = []
    · subst hnil
      exact Nat.zero_le _
    have hlength := hcount hside
    have hsum := sum_upper_lt hscale (fun fill hfill => (hfills fill hfill).symm) hnil
    have hceil := le_ceilDiv_mul (qtyShares * (Clob.priceScale - limitYesPrice)) hscale
    have htotals : quantity fills * (Clob.priceScale - limitYesPrice) ≤
        qtyShares * (Clob.priceScale - limitYesPrice) := Nat.mul_le_mul_right _ htotal
    have hslack : fills.length * Clob.priceScale ≤ 101 * Clob.priceScale :=
      Nat.mul_le_mul_right _ hlength
    have hbound : (fills.map (upper Clob.priceScale)).sum * Clob.priceScale <
        (ceilDiv (qtyShares * (Clob.priceScale - limitYesPrice)) Clob.priceScale + 101) *
          Clob.priceScale := by
      calc _ < quantity fills * (Clob.priceScale - limitYesPrice) +
            fills.length * Clob.priceScale := hsum
        _ ≤ ceilDiv (qtyShares * (Clob.priceScale - limitYesPrice)) Clob.priceScale *
            Clob.priceScale + 101 * Clob.priceScale :=
          Nat.add_le_add (htotals.trans hceil) hslack
        _ = _ := (Nat.add_mul _ _ _).symm
    have hlt := Nat.lt_of_mul_lt_mul_right hbound
    have hone : buyNoCapSlack = 100 := rfl
    omega

/-! ## The matching engine -/

def filledWith (o : CreateOrderRequestClob) (fills : List (Nat × Nat)) : CreateOrderRequestClob :=
  fills.foldl (fun o fill => filledBy o fill.1 (yesLeg fill.2 fill.1) (noLeg fill.2 fill.1)) o

theorem filledWith_eq (o : CreateOrderRequestClob) (fills : List (Nat × Nat)) :
    filledWith o fills = { o with
      sharesFilled := o.sharesFilled + quantity fills
      collateralFilled := o.collateralFilled + legs o.side fills } := by
  induction fills generalizing o with
  | nil => rfl
  | cons fill fills ih =>
      have hcons : filledWith o (fill :: fills) = filledWith
          (filledBy o fill.1 (yesLeg fill.2 fill.1) (noLeg fill.2 fill.1)) fills := rfl
      rw [hcons, ih]
      simp only [filledBy, quantity, legs, List.map_cons, List.sum_cons, Nat.add_assoc]
      rfl

def uncapped (o : CreateOrderRequestClob) : CreateOrderRequestClob :=
  { o with collateralCap := 2 ^ 64 - 1 }

structure Capped (o : CreateOrderRequestClob) : Prop where
  buys : o.action = actionBuy
  limit : o.limitYesPrice ≤ Clob.priceScale
  cap : o.collateralCap =
    computeCollateralCap o.side o.action o.qtyShares o.limitYesPrice
  unfilled : o.sharesFilled = 0 ∧ o.collateralFilled = 0

/-- Fills that a BUY may have had: within its limit and its quantity, and at most a hundred for a
BUY NO. -/
structure Partial (side qtyShares limitYesPrice : Nat) (fills : List (Nat × Nat)) : Prop where
  allowed : ∀ fill ∈ fills, Allowed side limitYesPrice fill.2
  total : quantity fills ≤ qtyShares
  count : side ≠ sideYes → fills.length ≤ 100

theorem Partial.legs_le {side qtyShares limitYesPrice : Nat} {fills : List (Nat × Nat)}
    (h : Partial side qtyShares limitYesPrice fills) {fill price : Nat}
    (hprice : Allowed side limitYesPrice price)
    (hfill : quantity fills + fill ≤ qtyShares) :
    legs side fills + leg side (fill, price) ≤
      computeCollateralCap side actionBuy qtyShares limitYesPrice := by
  rw [← legs_append]
  apply legs_le_cap
  · intro fill' hmem
    rcases List.mem_append.mp hmem with hmem | hmem
    · exact h.allowed fill' hmem
    · rw [List.mem_singleton.mp hmem]
      exact hprice
  · rw [quantity_append]
    exact hfill
  · intro hside
    rw [List.length_append]
    exact Nat.add_le_add_right (h.count hside) 1

section Engine

variable {o : CreateOrderRequestClob} {fills : List (Nat × Nat)} {fill price : Nat}

theorem Capped.withinCap (h : Capped o)
    (hfills : Partial o.side o.qtyShares o.limitYesPrice fills)
    (hprice : Allowed o.side o.limitYesPrice price)
    (hfill : fill ≤ remainingShares (filledWith o fills)) :
    WithinCap (filledBy (filledWith o fills) fill (yesLeg price fill) (noLeg price fill)) := by
  have htotal := hfills.total
  obtain ⟨hshares, hcollateral⟩ := h.unfilled
  rw [filledWith_eq] at hfill ⊢
  intro _
  have hleft : fill ≤ o.qtyShares - (o.sharesFilled + quantity fills) := hfill
  have hroom : quantity fills + fill ≤ o.qtyShares := by omega
  have hle := hfills.legs_le hprice hroom
  rw [← h.buys, ← h.cap] at hle
  show o.collateralFilled + legs o.side fills + leg o.side (fill, price) ≤ o.collateralCap
  omega

theorem uncapped_kept (o : CreateOrderRequestClob) (fill yes no : Nat) :
    CapKept (filledBy (uncapped o) fill yes no) := by
  intro hcap
  exact absurd hcap (lt_irrefl _)

theorem maxFill_congr {bid ask bid' ask' : CreateOrderRequestClob} {limit : Nat}
    (hfeasible : ∀ f, Feasible CapKept bid ask price limit f ↔
      Feasible CapKept bid' ask' price limit f) :
    maxFill bid ask price limit = maxFill bid' ask' price limit := by
  ext f
  rw [maxFill_eq_some_iff, maxFill_eq_some_iff]
  simp only [hfeasible]

/-- A cap that every fill keeps leaves the largest fill of a BUY as it is. -/
theorem maxFill_uncapped_bid {bid ask : CreateOrderRequestClob} {limit : Nat}
    (hkept : ∀ f ≤ limit, WithinCap (filledBy bid f (yesLeg price f) (noLeg price f))) :
    maxFill bid ask price limit = maxFill (uncapped bid) ask price limit := by
  apply maxFill_congr
  intro f
  constructor
  · intro h
    exact ⟨h.pos, h.le, h.yes_pos, h.no_pos, uncapped_kept bid f _ _, h.ask⟩
  · intro h
    exact ⟨h.pos, h.le, h.yes_pos, h.no_pos, fun _ => hkept f h.le, h.ask⟩

theorem maxFill_uncapped_ask {bid ask : CreateOrderRequestClob} {limit : Nat}
    (hkept : ∀ f ≤ limit, WithinCap (filledBy ask f (yesLeg price f) (noLeg price f))) :
    maxFill bid ask price limit = maxFill bid (uncapped ask) price limit := by
  apply maxFill_congr
  intro f
  constructor
  · intro h
    exact ⟨h.pos, h.le, h.yes_pos, h.no_pos, h.bid, uncapped_kept ask f _ _⟩
  · intro h
    exact ⟨h.pos, h.le, h.yes_pos, h.no_pos, h.bid, fun _ => hkept f h.le⟩

end Engine

/-! ## The contract -/

def consumeAll (x : Authorization) (hash : Bytes32) (fills : List (Nat × Nat)) (s : State) :
    Except Err State :=
  fills.foldlM (fun s fill => consume s x hash fill.1 (fillCollateral x fill.1 fill.2)) s

section Contract

variable {x : Authorization} {hash : Bytes32} {s : State}

theorem leg_toWord (x : Authorization) (fill : Nat × Nat) :
    leg x.side.toWord fill = fillCollateral x fill.1 fill.2 := by
  cases hside : x.side with
  | yes =>
      rw [fillCollateral_yes hside]
      rfl
  | no =>
      rw [fillCollateral_no hside]
      rfl

structure Recorded (x : Authorization) (hash : Bytes32) (fills : List (Nat × Nat)) (s : State) :
    Prop where
  nonce : s.authorizationByNonce x.signer x.txId = 0 ∨
    s.authorizationByNonce x.signer x.txId = hash
  record : s.fills hash = ⟨quantity fills, legs x.side.toWord fills⟩

/-- An authorization with the cap of the client, for a quantity and a limit that are admitted. -/
structure Signed (x : Authorization) : Prop where
  qtyShares : x.qtyShares < 2 ^ 63
  limit : x.limitYesPrice ≤ Clob.priceScale
  cap : x.collateralCap =
    computeCollateralCap x.side.toWord x.action.toWord x.qtyShares x.limitYesPrice

theorem Signed.cap_lt (h : Signed x) : x.collateralCap < 2 ^ 256 := by
  have hqty := h.qtyShares
  have hle := computeCollateralCap_le x.side.toWord x.action.toWord x.qtyShares h.limit
  rw [← h.cap] at hle
  have hslack : buyNoCapSlack = 100 := rfl
  omega

theorem Recorded.consume {fills : List (Nat × Nat)} {fill price : Nat}
    (h : Recorded x hash fills s) (hsigned : Signed x) (hbuys : x.action = .buy)
    (hfills : Partial x.side.toWord x.qtyShares x.limitYesPrice fills)
    (hprice : Allowed x.side.toWord x.limitYesPrice price)
    (hfill : quantity fills + fill ≤ x.qtyShares) :
    PrismV2.consume s x hash fill (fillCollateral x fill price) =
        .ok (s.consumed x hash fill (fillCollateral x fill price)) ∧
      Recorded x hash (fills ++ [(fill, price)])
        (s.consumed x hash fill (fillCollateral x fill price)) := by
  have hqty := hsigned.qtyShares
  have hle := hfills.legs_le hprice hfill
  simp only [leg_toWord] at hle
  have hbuyWord : x.action.toWord = actionBuy := by
    rw [hbuys]
    rfl
  rw [← hbuyWord, ← hsigned.cap] at hle
  have hleg : fillCollateral x fill price ≤ x.collateralCap := by omega
  have hconsumable : Consumable s x hash fill (fillCollateral x fill price) := by
    constructor
    · exact h.nonce
    · rw [h.record]
      simp only
      omega
    · rw [h.record]
      simp only
      have hcap := hsigned.cap_lt
      omega
    · rw [h.record]
      exact hfill
    · intro _
      rw [h.record]
      exact hle
  constructor
  · exact (consume_ok_iff ..).mpr ⟨hconsumable, rfl⟩
  · constructor
    · right
      exact update₂_same ..
    · simp only [State.consumed, Function.update_self, h.record, quantity_append, legs_append,
        leg_toWord]

theorem Partial.left {side qtyShares limitYesPrice : Nat} {done fills : List (Nat × Nat)}
    (h : Partial side qtyShares limitYesPrice (done ++ fills)) :
    Partial side qtyShares limitYesPrice done := by
  have htotal := h.total
  unfold quantity at htotal
  rw [List.map_append, List.sum_append] at htotal
  constructor
  · intro fill hfill
    exact h.allowed fill (List.mem_append_left _ hfill)
  · exact (Nat.le_add_right ..).trans htotal
  · intro hside
    have hcount := h.count hside
    rw [List.length_append] at hcount
    omega

/-- Fills that the order may have pass the cap check, one after the other. -/
theorem Recorded.consumeAll {done fills : List (Nat × Nat)} (h : Recorded x hash done s)
    (hsigned : Signed x) (hbuys : x.action = .buy)
    (hfills : Partial x.side.toWord x.qtyShares x.limitYesPrice (done ++ fills)) :
    ∃ s', consumeAll x hash fills s = .ok s' ∧ Recorded x hash (done ++ fills) s' := by
  induction fills generalizing done s with
  | nil =>
      rw [List.append_nil]
      exact ⟨s, rfl, h⟩
  | cons fill fills ih =>
      have hsplit : done ++ fill :: fills = done ++ [fill] ++ fills := by simp
      rw [hsplit] at hfills ⊢
      have hnow := hfills.left
      have hroom := hnow.total
      rw [quantity_append] at hroom
      have hprice := hnow.allowed fill (List.mem_append_right _ List.mem_cons_self)
      obtain ⟨hok, hnext⟩ := h.consume hsigned hbuys hnow.left hprice hroom
      obtain ⟨s', hrest, hrecorded⟩ := ih hnext hfills
      refine ⟨s', ?_, hrecorded⟩
      unfold Web.consumeAll at hrest ⊢
      rw [List.foldlM_cons, hok]
      exact hrest

end Contract

structure Requested (x : Authorization) (o : CreateOrderRequestClob) : Prop where
  side : o.side = x.side.toWord
  action : o.action = x.action.toWord
  limitYesPrice : o.limitYesPrice = x.limitYesPrice
  qtyShares : o.qtyShares = x.qtyShares
  collateralCap : o.collateralCap = x.collateralCap
  unfilled : o.sharesFilled = 0 ∧ o.collateralFilled = 0

theorem Requested.capped {x : Authorization} {o : CreateOrderRequestClob} (h : Requested x o)
    (hsigned : Signed x) (hbuys : x.action = .buy) : Capped o := by
  constructor
  · rw [h.action, hbuys]
    rfl
  · rw [h.limitYesPrice]
    exact hsigned.limit
  · rw [h.collateralCap, h.side, h.action, h.qtyShares, h.limitYesPrice]
    exact hsigned.cap
  · exact h.unfilled

/-- The cap that the client computes for a BUY limits neither its settlements nor its matches:
the contract accepts every sequence of fills that the order may have, and the largest fill is at
every point the one that the order would have without a cap. -/
theorem client_cap_sufficient {x : Authorization} {o : CreateOrderRequestClob} (hsigned : Signed x)
    (hbuys : x.action = .buy) (ho : Requested x o) {fills : List (Nat × Nat)}
    (hfills : Partial x.side.toWord x.qtyShares x.limitYesPrice fills) :
    (∀ hash s, Recorded x hash [] s →
      ∃ s', consumeAll x hash fills s = .ok s' ∧ Recorded x hash fills s') ∧
    ∀ price, Allowed x.side.toWord x.limitYesPrice price →
      (∀ fill ≤ remainingShares (filledWith o fills),
        withinCap (filledWith o fills) (yesLeg price fill) (noLeg price fill) = true) ∧
      ∀ other, ∀ limit ≤ remainingShares (filledWith o fills),
        Machine.maxFill (filledWith o fills) other price limit =
            Machine.maxFill (uncapped (filledWith o fills)) other price limit ∧
          Machine.maxFill other (filledWith o fills) price limit =
            Machine.maxFill other (uncapped (filledWith o fills)) price limit := by
  have hcapped := ho.capped hsigned hbuys
  have hpartial : Partial o.side o.qtyShares o.limitYesPrice fills := by
    rw [ho.side, ho.qtyShares, ho.limitYesPrice]
    exact hfills
  constructor
  · intro hash s hs
    exact hs.consumeAll hsigned hbuys hfills
  intro price hprice
  have hallowed : Allowed o.side o.limitYesPrice price := by
    rw [ho.side, ho.limitYesPrice]
    exact hprice
  constructor
  · intro fill hfill
    rw [withinCap_iff _ fill]
    exact fun _ => hcapped.withinCap hpartial hallowed hfill
  intro other limit hlimit
  have hword : limit < 2 ^ 63 := by
    have hqty := hsigned.qtyShares
    have hremaining : remainingShares (filledWith o fills) ≤ o.qtyShares := by
      rw [filledWith_eq]
      exact Nat.sub_le ..
    have hsame := ho.qtyShares
    omega
  have hkept (f : Nat) (hf : f ≤ limit) := hcapped.withinCap hpartial hallowed (hf.trans hlimit)
  constructor
  · rw [machine_maxFill (by omega), machine_maxFill (by omega), maxFill_uncapped_bid hkept]
  · rw [machine_maxFill (by omega), machine_maxFill (by omega), maxFill_uncapped_ask hkept]

def sampleBuyNo : Authorization :=
  { PrismV2.sampleOrder 5 1 .no .buy with collateralCap := 151 }

def sampleRequest : CreateOrderRequestClob :=
  { Clob.sampleOrder "a" "t1" 1 0 500000 101 with collateralCap := 151 }

/-- Two fills, at the limit and above it, leave room for the whole remainder. -/
theorem client_cap_sufficient_sample :
    (∃ s', consumeAll sampleBuyNo 9 [(3, 500000), (1, 700000)] (State.blank fun _ => 0) = .ok s' ∧
      Recorded sampleBuyNo 9 [(3, 500000), (1, 700000)] s') ∧
    withinCap (filledWith sampleRequest [(3, 500000), (1, 700000)]) (yesLeg 500000 97)
      (noLeg 500000 97) = true := by
  have hsigned : Signed sampleBuyNo := ⟨by decide, by decide, by decide⟩
  have hrequested : Requested sampleBuyNo sampleRequest :=
    ⟨rfl, rfl, rfl, rfl, rfl, rfl, rfl⟩
  have hpartial : Partial sampleBuyNo.side.toWord sampleBuyNo.qtyShares
      sampleBuyNo.limitYesPrice [(3, 500000), (1, 700000)] := by
    constructor
    · decide
    · decide
    · decide
  have hsufficient := client_cap_sufficient hsigned rfl hrequested hpartial
  constructor
  · exact hsufficient.1 9 _ ⟨Or.inl rfl, rfl⟩
  · exact (hsufficient.2 500000 (by decide)).1 97 (by decide)

end PrismBackend.Web
