import PrismBackend.Api.Cancellation
import PrismBackend.Api.ExecutedLegs

/-!
# API: the positions that the contract holds

The table holds the sum of the counted legs, as long as traders are spelt in one
way and a leg is written on the rows that it read. Once all legs are counted,
these are the positions that the contract holds.
-/

namespace PrismBackend.Api

open PrismBackend.Lib PrismBackend.Clob PrismBackend.PrismV2

/-! ## One leg on the table -/

theorem movedBalances_congr {held held' : List PositionRow} (evmAddress : Str)
    (hyes : (held.head?.getD (.zero evmAddress)).yes.n =
      (held'.head?.getD (.zero evmAddress)).yes.n)
    (hno : (held.head?.getD (.zero evmAddress)).no.n = (held'.head?.getD (.zero evmAddress)).no.n)
    (row : PredictionIntent) (fill : Nat) :
    movedBalances held row fill = movedBalances held' row fill := by
  have hread (rows : List PositionRow) :
      (rows.head?.map fun position => (position.yes.n.val : Int)).getD 0 =
          (rows.head?.getD (.zero evmAddress)).yes.n.val ∧
        (rows.head?.map fun position => (position.no.n.val : Int)).getD 0 =
          (rows.head?.getD (.zero evmAddress)).no.n.val := by
    cases rows with
    | nil => exact ⟨rfl, rfl⟩
    | cons row rows => exact ⟨rfl, rfl⟩
  unfold movedBalances
  rw [(hread held).1, (hread held).2, (hread held').1, (hread held').2, hyes, hno]

def Prepared.fillOf (q : Prepared) (leg : Leg) (deletedAt : Bool)
    (hfits : q.record.fillShares < 2 ^ 63)
    (hprice : q.record.executionYesPrice ≤ PrismV2.priceScale) : PositionFill :=
  ⟨deletedAt, q.row leg, q.record.fillShares, q.record.executionYesPrice, hfits, hprice⟩

section Row

variable {spelling : Address → Str} {q : Prepared} {leg : Leg} {x : Authorization}
  {positions : PositionTable} (deletedAt : Bool) (hfits : q.record.fillShares < 2 ^ 63)
  (hprice : q.record.executionYesPrice ≤ PrismV2.priceScale)

theorem read_shown (positions : PositionTable) (evmAddress : Str) :
    (getUserPositionsByMarketId false positions evmAddress).head?.getD (.zero evmAddress) =
      positionOf positions evmAddress :=
  congrArg (Option.getD · _) List.head?_filter

theorem LegOf.fill_side (h : LegOf spelling q leg x) :
    (q.fillOf leg deletedAt hfits hprice).side = x.side := by
  unfold PositionFill.side Prepared.fillOf
  rw [h.side]
  cases x.side with
  | yes => rfl
  | no => rfl

theorem LegOf.fill_isSell (h : LegOf spelling q leg x) :
    (q.fillOf leg deletedAt hfits hprice).isSell = decide (x.action = .sell) := by
  unfold PositionFill.isSell Prepared.fillOf
  rw [h.action]
  cases x.action with
  | buy => rfl
  | sell => rfl

/-- The balance of a leg is what its order makes of the shares before. -/
theorem LegOf.fill_balance (h : LegOf spelling q leg x) {held : Nat}
    (hheld : x.action = .sell → q.record.fillShares ≤ held) :
    ((q.fillOf leg deletedAt hfits hprice).balance held : Int) =
      held + x.shareDelta q.record.fillShares x.side q.record.marketID x.signer := by
  unfold Authorization.shareDelta
  rw [if_pos ⟨h.marketId.symm, rfl, rfl⟩]
  unfold PositionFill.balance
  rw [h.fill_isSell]
  cases haction : x.action with
  | buy => exact Nat.cast_add ..
  | sell => exact Nat.cast_sub (hheld haction)

/-- The shares of a leg's signer stand in the row that the leg reads. -/
theorem LegOf.heldBy_eq (h : LegOf spelling q leg x) (hspelt : Spelt spelling positions)
    (side : Side) : heldBy positions side x.signer =
      ((positionOf positions (q.row leg).evmaddress).holding side).n.val := by
  have haddress := h.address
  rw [h.spelt] at haddress ⊢
  rw [heldBy_spelt hspelt, if_pos haddress]

include hfits hprice in
theorem LegOf.read (h : LegOf spelling q leg x) (hspelt : Spelt spelling positions)
    (hshown : deletedAt = true → ∀ side,
      ((positionOf positions (q.row leg).evmaddress).holding side).n.val = 0)
    (hbuy : x.action = .buy → heldBy positions x.side x.signer + q.record.fillShares < 2 ^ 63)
    (hsell : x.action = .sell → q.record.fillShares ≤ heldBy positions x.side x.signer)
    {held : List PositionRow}
    (hheld : held = getUserPositionsByMarketId deletedAt positions (q.row leg).evmaddress) :
    0 ≤ (q.moved leg held).1 ∧ 0 ≤ (q.moved leg held).2 := by
  subst hheld
  rw [h.heldBy_eq hspelt] at hbuy hsell
  refine (q.fillOf leg deletedAt hfits hprice).movedBalances_nonneg ⟨hshown, ?_⟩ ?_
  · intro hdirection
    rw [h.fill_isSell, decide_eq_false_iff_not] at hdirection
    rw [h.fill_side]
    apply hbuy
    cases haction : x.action with
    | buy => rfl
    | sell => exact absurd haction hdirection
  · intro hdirection
    rw [h.fill_isSell, decide_eq_true_eq] at hdirection
    rw [h.fill_side]
    exact hsell hdirection

include hfits hprice in
/-- A leg whose balances are not negative moves its signer's shares by what its order says. -/
theorem LegOf.write (h : LegOf spelling q leg x) (hspelt : Spelt spelling positions)
    (haccurate : ∀ a, (positionOf positions a).Accurate) {held : List PositionRow}
    (hheld : q.moved leg held =
      q.moved leg (getUserPositionsByMarketId false positions (q.row leg).evmaddress))
    (hnonneg : 0 ≤ (q.moved leg held).1 ∧ 0 ≤ (q.moved leg held).2) :
    ∃ positions', writeBalances positions (q.row leg) q.record.executionYesPrice
        (q.moved leg held) = .ok positions' ∧
      Spelt spelling positions' ∧ (∀ a, (positionOf positions' a).Accurate) ∧
      ∀ side trader, (heldBy positions' side trader : Int) = heldBy positions side trader +
        x.shareDelta q.record.fillShares side q.record.marketID trader := by
  rw [hheld] at hnonneg ⊢
  let fill := q.fillOf leg false hfits hprice
  obtain ⟨hcounted, hallowed⟩ := fill.counted_of_nonneg rfl hnonneg
  obtain ⟨positions', hwrite, n, hn, hmoved⟩ :=
    PositionFill.write_counted hcounted hallowed (haccurate fill.row.evmaddress)
  have hspelt' := hspelt.written h.address h.spelt hwrite
  have hrow : fill.row.evmaddress = (q.row leg).evmaddress := rfl
  have hside : fill.side = x.side := h.fill_side false hfits hprice
  refine ⟨positions', hwrite, hspelt', ?_, ?_⟩
  · intro a
    rw [hmoved a]
    split
    · exact PositionFill.accurate_traded (haccurate _) hallowed hn
    · exact haccurate a
  · have hsold : x.action = .sell → q.record.fillShares ≤
        ((positionOf positions (q.row leg).evmaddress).holding x.side).n.val := by
      intro haction
      rw [← hside]
      apply hallowed
      rw [h.fill_isSell false hfits hprice]
      exact decide_eq_true haction
    have hbalance := h.fill_balance false hfits hprice hsold
    rw [hside, hrow] at hn hmoved
    intro side trader
    by_cases htrader : trader = x.signer
    · subst htrader
      rw [h.heldBy_eq hspelt, h.heldBy_eq hspelt', hmoved, if_pos rfl, PositionRow.traded_holding]
      by_cases hown : side = x.side
      · subst hown
        rw [if_pos rfl, ← hbalance]
        exact congrArg Nat.cast hn
      · rw [if_neg hown, Authorization.shareDelta, if_neg fun hsame => hown hsame.2.2, add_zero]
        rfl
    · have hsame : heldBy positions' side trader = heldBy positions side trader := by
        rw [heldBy_spelt hspelt, heldBy_spelt hspelt']
        split
        · next haddress =>
          have hne : spelling trader ≠ (q.row leg).evmaddress := by
            intro heq
            rw [heq, h.address, Option.some.injEq] at haddress
            exact htrader haddress.symm
          rw [hmoved, if_neg hne]
        · rfl
      rw [hsame, Authorization.shareDelta, if_neg fun hown => htrader hown.2.1, add_zero]

end Row

/-! ## The table -/

/-- The table holds the sum of the counted legs, and the purchases behind what was sold are among
them. -/
structure Projected (spelling : Address → Str) (s : PositionsWorld) : Prop where
  accurate : ∀ marketID a, (positionOf (s.positions marketID) a).Accurate
  spelt : ∀ marketID, Spelt spelling (s.positions marketID)
  held : ∀ side marketID trader, (heldBy (s.positions marketID) side trader : Int) =
    countedTotal (legDelta s.settled side marketID trader) s.counted (legsOf s.settled.length)
  first : ∀ side marketID trader,
    DepositsFirst (legDelta s.settled side marketID trader) s.counted (legsOf s.settled.length)
  read : ∀ task ∈ s.tasks, ∀ leg later held, task.legs = leg :: later → task.held = some held →
    (0 ≤ (task.q.moved leg held).1 ∧ 0 ≤ (task.q.moved leg held).2) ∧
      s.purchasesCounted task.fill leg = true

section Table

variable {p : Platform} {net : Network} {spelling : Address → Str} {s s' : PositionsWorld}
  {k : Nat} {leg : Leg} {q : Prepared} {x : Authorization}

theorem orderOf_eq (hq : s.settled[k]? = some q) (hx : (q.auth leg).decoded = some x) :
    s.orderOf (k, leg) = some x := by
  unfold PositionsWorld.orderOf
  rw [hq]
  exact hx

theorem buysFor_of_pos {side : Side} {key : Nat × Leg}
    (hside : side = x.side) (hpos : 0 < legDelta s.settled side x.marketId x.signer key) :
    s.buysFor x key = true := by
  unfold legDelta at hpos
  unfold PositionsWorld.buysFor PositionsWorld.orderOf
  cases hq : s.settled[key.1]? with
  | none =>
      rw [hq] at hpos
      exact absurd hpos (lt_irrefl 0)
  | some q =>
  cases hy : (q.auth key.2).decoded with
  | none =>
      simp only [hq, hy] at hpos
      exact absurd hpos (lt_irrefl 0)
  | some y =>
      simp only [hq, hy, Authorization.shareDelta] at hpos
      rw [Option.bind_some, hy, Option.any_some, decide_eq_true_eq]
      split at hpos
      · next hsame =>
        obtain ⟨hmarket, hsigner, hside'⟩ := hsame
        refine ⟨?_, hmarket.symm, hsigner.symm, hside'.symm.trans hside⟩
        cases haction : y.action with
        | buy => rfl
        | sell =>
            rw [haction] at hpos
            dsimp only at hpos
            omega
      · exact absurd hpos (lt_irrefl 0)

theorem first_counted (hq : s.settled[k]? = some q) (hx : (q.auth leg).decoded = some x)
    (hpurchases : s.purchasesCounted k leg = true) {side : Side} {marketID : Uint128}
    {trader : Address}
    (hfirst : DepositsFirst (legDelta s.settled side marketID trader) s.counted
      (legsOf s.settled.length)) :
    DepositsFirst (legDelta s.settled side marketID trader) ((k, leg) :: s.counted)
      (legsOf s.settled.length) := by
  apply hfirst.cons
  refine List.Pairwise.imp_of_mem ?_ (legsOf_sorted s.settled.length)
  intro y z hy _ hle hz hneg hpos
  rw [legDelta_eq hq hx, Authorization.shareDelta] at hneg
  split at hneg
  · next hsame =>
    obtain ⟨rfl, rfl, hside⟩ := hsame
    unfold PositionsWorld.purchasesCounted at hpurchases
    rw [orderOf_eq hq hx, Option.all_some, decide_eq_true_eq] at hpurchases
    rcases hpurchases with hbuy | hearlier
    · rw [hbuy] at hneg
      dsimp only at hneg
      omega
    · exact hearlier y hy (by rw [hz] at hle; exact hle) (buysFor_of_pos hside hpos)
  · exact absurd hneg (lt_irrefl 0)

theorem purchasesCounted_mono (h : s.purchasesCounted k leg = true) (hk : k < s.settled.length)
    (hsettled : s.settled <+: s'.settled) (hcounted : s.counted ⊆ s'.counted) :
    s'.purchasesCounted k leg = true := by
  obtain ⟨later, hlater⟩ := hsettled
  have horder : ∀ key : Nat × Leg, key.1 ≤ k → s'.orderOf key = s.orderOf key := by
    intro key hkey
    unfold PositionsWorld.orderOf
    rw [← hlater, List.getElem?_append_left (hkey.trans_lt hk)]
  unfold PositionsWorld.purchasesCounted at h ⊢
  rw [horder (k, leg) le_rfl]
  cases hx : s.orderOf (k, leg) with
  | none => rfl
  | some x =>
      rw [hx, Option.all_some, decide_eq_true_eq] at h
      rw [Option.all_some, decide_eq_true_eq]
      refine h.imp_right fun hall => ?_
      intro key _ hkey hbuys
      apply hcounted
      refine hall key (mem_legsOf.mpr (hkey.trans_lt hk)) hkey ?_
      unfold PositionsWorld.buysFor at hbuys ⊢
      rwa [horder key hkey] at hbuys

/-- The table and the counted legs stay, and no more rows were read. -/
theorem Projected.congr (h : Projected spelling s) (htracked : Tracked s)
    (hpositions : s'.positions = s.positions) (hsettled : s'.settled = s.settled)
    (hcounted : s'.counted = s.counted)
    (htasks : ∀ task ∈ s'.tasks, task ∈ s.tasks ∨ task.held = none) : Projected spelling s' where
  accurate := by
    rw [hpositions]
    exact h.accurate
  spelt := by
    rw [hpositions]
    exact h.spelt
  held := by
    rw [hpositions, hsettled, hcounted]
    exact h.held
  first := by
    rw [hsettled, hcounted]
    exact h.first
  read := by
    intro task htask leg later held hlegs hheld
    rcases htasks task htask with hold | hnone
    · obtain ⟨hnonneg, hpurchases⟩ := h.read task hold leg later held hlegs hheld
      have hlt := (List.getElem?_eq_some_iff.mp (htracked.tasks task hold).settled).1
      exact ⟨hnonneg, purchasesCounted_mono hpurchases hlt (by rw [hsettled])
        (by rw [hcounted]; exact List.Subset.refl _)⟩
    · rw [hnone] at hheld
      exact absurd hheld (by simp)

theorem Projected.settle (h : Projected spelling s) (htracked : Tracked s)
    (hsettled : s'.settled = s.settled ++ [q]) (hpositions : s'.positions = s.positions)
    (htasks : s'.tasks = s.tasks) (hcounted : s'.counted = s.counted) : Projected spelling s' := by
  have hlegs : legsOf s'.settled.length =
      legsOf s.settled.length ++ [(s.settled.length, .bid), (s.settled.length, .ask)] := by
    rw [hsettled, List.length_append, List.length_singleton, legsOf_succ]
  have hnew : ∀ key ∈ [(s.settled.length, Leg.bid), (s.settled.length, Leg.ask)],
      key ∉ s.counted := by
    intro key hkey hmem
    obtain ⟨_, hat, _⟩ := htracked.counted key hmem
    have hlt := (List.getElem?_eq_some_iff.mp hat).1
    simp only [List.mem_cons, List.not_mem_nil, or_false] at hkey
    rcases hkey with rfl | rfl
    · exact lt_irrefl _ hlt
    · exact lt_irrefl _ hlt
  constructor
  · rw [hpositions]
    exact h.accurate
  · rw [hpositions]
    exact h.spelt
  · intro side marketID trader
    rw [hpositions, hcounted, hlegs, countedTotal_append hnew, h.held, hsettled]
    exact countedTotal_congr (legDelta_append s.settled q side marketID trader)
  · intro side marketID trader
    rw [hcounted, hlegs, hsettled]
    exact ((h.first side marketID trader).congr
      (legDelta_append s.settled q side marketID trader)).append hnew
  · intro task htask leg later held hlater hheld
    rw [htasks] at htask
    obtain ⟨hnonneg, hpurchases⟩ := h.read task htask leg later held hlater hheld
    have hlt := (List.getElem?_eq_some_iff.mp (htracked.tasks task htask).settled).1
    exact ⟨hnonneg, purchasesCounted_mono hpurchases hlt ⟨[q], hsettled.symm⟩
      (by rw [hcounted]; exact List.Subset.refl _)⟩

theorem Projected.covered (h : Projected spelling s) (hexecuted : Executed net spelling s)
    (hq : s.settled[k]? = some q) (hx : LegOf spelling q leg x) (hnew : (k, leg) ∉ s.counted)
    (hpurchases : s.purchasesCounted k leg = true) (hsell : x.action = .sell) :
    q.record.fillShares ≤ heldBy (s.positions q.record.marketID) x.side x.signer := by
  have hlt := (List.getElem?_eq_some_iff.mp hq).1
  have hcovered := (hexecuted.never x.side q.record.marketID x.signer).countedTotal_nonneg
    (first_counted hq hx.decoded hpurchases (h.first x.side q.record.marketID x.signer))
  rw [countedTotal_cons (legsOf_nodup _) (mem_legsOf.mpr hlt) hnew, ← h.held,
    legDelta_eq hq hx.decoded, Authorization.shareDelta, if_pos ⟨hx.marketId.symm, rfl, rfl⟩,
    hsell] at hcovered
  dsimp only at hcovered
  omega

end Table

/-! ## Every step -/

structure PositionsWorld.Sound (net : Network) (spelling : Address → Str) (s : PositionsWorld) :
    Prop where
  executed : Executed net spelling s
  tracked : Tracked s
  projected : Projected spelling s

section Steps

variable {p : Platform} {net : Network} {spelling : Address → Str} {s s' : PositionsWorld}
  {i : Nat}

/-- Under the condition, a leg's rows are read where they are shown, or nothing happens. -/
theorem read_cases {succeeds : Bool} (hstep : s.inStep p spelling (.read i succeeds) = true) :
    s.read i succeeds = s ∨ ∃ k q leg legs, s.tasks[i]? = some ⟨k, q, leg :: legs, none⟩ ∧
      s.readable q leg = true ∧ s.purchasesCounted k leg = true ∧
      s.read i succeeds = { s with
        tasks := s.tasks.set i ⟨k, q, leg :: legs, some (getUserPositionsByMarketId
          (s.db.hidesPositions q.record.marketID) (s.positions q.record.marketID)
          (q.row leg).evmaddress)⟩ } := by
  unfold PositionsWorld.read
  split
  · next k q leg legs htask =>
    simp only [PositionsWorld.inStep, htask, Option.all_some, Bool.and_eq_true] at hstep
    obtain ⟨⟨rfl, hreadable⟩, hpurchases⟩ := hstep
    exact Or.inr ⟨k, q, leg, legs, htask, hreadable, hpurchases, rfl⟩
  · exact Or.inl rfl

theorem PositionsWorld.Sound.read (h : s.Sound net spelling) {succeeds : Bool}
    (hstep : s.inStep p spelling (.read i succeeds) = true) :
    (s.read i succeeds).Sound net spelling := by
  rcases read_cases hstep with hsame | ⟨k, q, leg, legs, htask, hreadable, hpurchases, hread⟩
  · rw [hsame]
    exact h
  rw [hread]
  have hof := h.tracked.tasks _ (List.mem_of_getElem? htask)
  have hsettled := h.executed.settled q (List.mem_of_getElem? hof.settled)
  obtain ⟨x, hx⟩ := hsettled.legs leg
  have hnew := hof.waiting leg List.mem_cons_self
  have hfits : q.record.fillShares < 2 ^ 63 := Nat.lt_of_le_pred (by decide) hof.fits
  simp only [PositionsWorld.readable, decide_eq_true_eq] at hreadable
  obtain ⟨hshown, hbought⟩ := hreadable
  refine ⟨h.executed.congr rfl rfl rfl, h.tracked.goesOn htask ⟨k, q, leg :: legs, some _⟩ [] rfl
    rfl rfl rfl rfl rfl rfl, ?_⟩
  refine ⟨h.projected.accurate, h.projected.spelt, h.projected.held, h.projected.first, ?_⟩
  intro task hmem leg' later held hlegs hheld
  rcases (mem_set_task h.tracked.apart htask).mp hmem with rfl | ⟨hold, _⟩
  · obtain ⟨rfl, rfl⟩ := List.cons.inj hlegs
    refine ⟨?_, hpurchases⟩
    refine hx.read _ hfits hsettled.price (h.projected.spelt _) ?_ ?_ ?_
      (Option.some.inj hheld).symm
    · intro hidden side
      cases side with
      | yes => exact (hshown hidden).1
      | no => exact (hshown hidden).2
    · intro hbuy
      rw [hx.heldBy_eq (h.projected.spelt _)]
      have hfit := hbought (by rw [hx.action, hbuy]; decide)
      rw [hx.side] at hfit
      cases hside : x.side with
      | yes =>
          rw [hside] at hfit
          exact hfit
      | no =>
          rw [hside] at hfit
          exact hfit
    · exact h.projected.covered h.executed hof.settled hx hnew hpurchases
  · exact h.projected.read task hold leg' later held hlegs hheld

/-- Under the condition, a leg is written on what it read, or nothing happens. -/
theorem write_cases {succeeds : Bool} (hstep : s.inStep p spelling (.write i succeeds) = true) :
    s.write i succeeds = s ∨
      ∃ k q leg legs held, s.tasks[i]? = some ⟨k, q, leg :: legs, some held⟩ ∧
        s.unchanged q leg held = true ∧
        ∀ positions, writeBalances (s.positions q.record.marketID) (q.row leg)
            q.record.executionYesPrice (q.moved leg held) = .ok positions →
          s.write i succeeds = { s with
            tasks := s.tasks.set i ⟨k, q, legs, none⟩
            positions := Function.update s.positions q.record.marketID positions
            counted := (k, leg) :: s.counted } := by
  cases htask : s.tasks[i]? with
  | none => exact Or.inl (by rw [PositionsWorld.write, htask])
  | some task =>
  obtain ⟨k, q, legs, held⟩ := task
  cases legs with
  | nil => exact Or.inl (by rw [PositionsWorld.write, htask])
  | cons leg legs =>
  cases held with
  | none => exact Or.inl (by rw [PositionsWorld.write, htask])
  | some held =>
      simp only [PositionsWorld.inStep, htask, Option.all_some, Bool.and_eq_true] at hstep
      obtain ⟨rfl, hunchanged⟩ := hstep
      refine Or.inr ⟨k, q, leg, legs, held, rfl, hunchanged, ?_⟩
      intro positions hwrite
      simp only [PositionsWorld.write, htask, hwrite]

theorem PositionsWorld.Sound.write (h : s.Sound net spelling) {succeeds : Bool}
    (hstep : s.inStep p spelling (.write i succeeds) = true) :
    (s.write i succeeds).Sound net spelling := by
  rcases write_cases hstep with hsame | ⟨k, q, leg, legs, held, htask, hunchanged, hwrite⟩
  · rw [hsame]
    exact h
  have hmem := List.mem_of_getElem? htask
  have hof := h.tracked.tasks _ hmem
  have hsettled := h.executed.settled q (List.mem_of_getElem? hof.settled)
  have hlt := (List.getElem?_eq_some_iff.mp hof.settled).1
  obtain ⟨x, hx⟩ := hsettled.legs leg
  have hnew := hof.waiting leg List.mem_cons_self
  have hfits : q.record.fillShares < 2 ^ 63 := Nat.lt_of_le_pred (by decide) hof.fits
  obtain ⟨hnonneg, hpurchases⟩ := h.projected.read _ hmem leg legs held rfl rfl
  have hread : q.moved leg held = q.moved leg (getUserPositionsByMarketId false
      (s.positions q.record.marketID) (q.row leg).evmaddress) := by
    simp only [PositionsWorld.unchanged, decide_eq_true_eq, ← read_shown] at hunchanged
    exact movedBalances_congr _ hunchanged.1 hunchanged.2 _ _
  obtain ⟨positions, hok, hspelt, haccurate, hmoved⟩ := hx.write hfits hsettled.price
    (h.projected.spelt _) (h.projected.accurate _) hread hnonneg
  rw [hwrite positions hok]
  refine ⟨h.executed.congr rfl rfl rfl, h.tracked.goesOn htask ⟨k, q, legs, none⟩ [leg] rfl rfl rfl
    rfl rfl rfl rfl, ?_⟩
  constructor
  · intro marketID a
    dsimp only
    by_cases hm : marketID = q.record.marketID
    · rw [hm, Function.update_self]
      exact haccurate a
    · rw [Function.update_of_ne hm]
      exact h.projected.accurate marketID a
  · intro marketID
    dsimp only
    by_cases hm : marketID = q.record.marketID
    · rw [hm, Function.update_self]
      exact hspelt
    · rw [Function.update_of_ne hm]
      exact h.projected.spelt marketID
  · intro side marketID trader
    dsimp only
    rw [countedTotal_cons (legsOf_nodup _) (mem_legsOf.mpr hlt) hnew,
      legDelta_eq hof.settled hx.decoded, ← h.projected.held]
    by_cases hm : marketID = q.record.marketID
    · rw [hm, Function.update_self]
      exact hmoved side trader
    · rw [Function.update_of_ne hm, Authorization.shareDelta,
        if_neg fun hsame => hm (hsame.1.trans hx.marketId), add_zero]
  · intro side marketID trader
    exact first_counted hof.settled hx.decoded hpurchases (h.projected.first side marketID trader)
  · intro task htask' leg' later held' hlegs hheld
    rcases (mem_set_task h.tracked.apart htask).mp htask' with rfl | ⟨hold, _⟩
    · exact absurd hheld (by simp)
    · obtain ⟨hkept, hearlier⟩ := h.projected.read task hold leg' later held' hlegs hheld
      have hplace := (List.getElem?_eq_some_iff.mp (h.tracked.tasks task hold).settled).1
      exact ⟨hkept, purchasesCounted_mono hearlier hplace (List.prefix_refl _)
        (List.subset_cons_self ..)⟩

variable (p net s) in
theorem order_frame (q : Prepared) (env : Env) :
    (s.order p net q env).db = s.db ∧ (s.order p net q env).positions = s.positions ∧
      (s.order p net q env).tasks = s.tasks ∧ (s.order p net q env).counted = s.counted ∧
      ((s.order p net q env).settled = s.settled ++ [q] ∨
        (s.order p net q env).settled = s.settled) := by
  unfold PositionsWorld.order
  split
  · exact ⟨rfl, rfl, rfl, rfl, Or.inr rfl⟩
  · refine ⟨rfl, rfl, rfl, rfl, ?_⟩
    dsimp only
    split
    · exact Or.inl rfl
    · exact Or.inr rfl

theorem finalize_cases {k : Nat} {txHash : Str}
    (hstep : s.inStep p spelling (.finalize k txHash) = true) :
    s.finalize p k txHash = s ∨ ∃ q db, s.settled[k]? = some q ∧
      q.record.fillShares ≤ maxInt64 ∧ s.db.finalized q.record.matchID = false ∧
      (∀ matchID, db.finalized matchID = true ↔
        matchID = q.record.matchID ∨ s.db.finalized matchID = true) ∧
      s.finalize p k txHash =
        { s with db, tasks := s.tasks ++ [⟨k, q, [.bid, .ask], none⟩] } := by
  unfold PositionsWorld.finalize
  cases hq : s.settled[k]? with
  | none => exact Or.inl rfl
  | some q =>
  have hfits : q.record.fillShares ≤ maxInt64 := by
    simp only [PositionsWorld.inStep, hq, Option.all_some, decide_eq_true_eq] at hstep
    exact hstep
  cases hfinalize : s.db.finalizeMatchV2 p.uuid q.record txHash with
  | error err => exact Or.inl (by simp only [hfinalize])
  | ok result =>
      obtain ⟨db, applied⟩ := result
      simp only [hfinalize]
      rcases Db.finalizeMatchV2_finalized hfinalize with ⟨rfl, rfl⟩ | ⟨rfl, hopen, hfinal⟩
      · exact Or.inl rfl
      · refine Or.inr ⟨q, db, rfl, hfits, hopen, hfinal, ?_⟩
        rw [if_pos ⟨rfl, hfits⟩]

theorem PositionsWorld.Sound.next (hkeccak : ∀ text, (p.keccak256 text).length = 32)
    (hsignatures : ∀ row signature, p.signatureMap row = .ok signature →
      signature.length < 2 ^ 32)
    (h : s.Sound net spelling) {e : BookkeepingEvent} (hallowed : s.Allowed e)
    (hstep : s.inStep p spelling e = true) : (s.next p net e).Sound net spelling := by
  cases e with
  | order m bid ask bidRow askRow cfg market env =>
      obtain ⟨hbid, hask, hfill, hbidRow, haskRow⟩ := hallowed
      simp only [PositionsWorld.inStep] at hstep
      cases hprepare : prepare p m bid ask bidRow askRow cfg market with
      | error err =>
          simp only [PositionsWorld.next, hprepare]
          exact h
      | ok q =>
          simp only [PositionsWorld.next, hprepare]
          simp only [hprepare, Except.toOption, Option.all_some, List.all_eq_true] at hstep
          have hspelt : ∀ leg x, (q.auth leg).decoded = some x →
              (q.row leg).evmaddress = spelling x.signer := by
            intro leg x hx
            have hleg := hstep leg (by cases leg <;> simp)
            rw [hx, Option.all_some, decide_eq_true_eq] at hleg
            exact hleg
          have hexecuted := h.executed.order hkeccak hsignatures hbid hask hfill hbidRow haskRow
            hprepare hspelt env
          obtain ⟨hdb, hpositions, htasks, hcounted, hsettled⟩ :=
            order_frame p net s q env
          rcases hsettled with hnew | hsame
          · exact ⟨hexecuted, h.tracked.settle hnew hexecuted.distinct hdb htasks hcounted,
              h.projected.settle h.tracked hnew hpositions htasks hcounted⟩
          · exact ⟨hexecuted,
              h.tracked.congr hsame (by rw [hdb]; exact fun _ => rfl) htasks hcounted,
              h.projected.congr h.tracked hpositions hsame hcounted
                (by rw [htasks]; exact fun _ => Or.inl)⟩
  | external tx =>
      exact ⟨h.executed.external hallowed rfl rfl, h.tracked.congr rfl (fun _ => rfl) rfl rfl,
        h.projected.congr h.tracked rfl rfl rfl fun _ => Or.inl⟩
  | database db =>
      exact ⟨h.executed.congr rfl rfl rfl, h.tracked.congr rfl hallowed rfl rfl,
        h.projected.congr h.tracked rfl rfl rfl fun _ => Or.inl⟩
  | finalize k txHash =>
      show (s.finalize p k txHash).Sound net spelling
      rcases finalize_cases hstep with hsame | ⟨q, db, hq, hfits, hopen, hfinal, hfinalize⟩
      · rw [hsame]
        exact h
      · rw [hfinalize]
        refine ⟨h.executed.congr rfl rfl rfl,
          h.tracked.finalize h.executed.distinct hq hfits hopen hfinal rfl rfl rfl,
          h.projected.congr h.tracked rfl rfl rfl ?_⟩
        intro task htask
        rcases List.mem_append.mp htask with hold | hnew
        · exact Or.inl hold
        · rw [List.mem_singleton.mp hnew]
          exact Or.inr rfl
  | read i succeeds => exact h.read hstep
  | write i succeeds => exact h.write hstep
  | stop i =>
      have hdone : ∀ task, s.tasks[i]? = some task → task.legs = [] := by
        intro task htask
        simp only [PositionsWorld.inStep, htask, Option.all_some, List.isEmpty_iff] at hstep
        exact hstep
      exact ⟨h.executed.congr rfl rfl rfl, h.tracked.stop hdone,
        h.projected.congr h.tracked rfl rfl rfl fun _ hmem => Or.inl (List.eraseIdx_subset hmem)⟩

theorem PositionsWorld.Sound.agrees (h : s.Sound net spelling) : s.Agrees net where
  balances := by
    intro hquiet marketID side trader
    have hall : ∀ key ∈ legsOf s.settled.length, key ∈ s.counted := by
      intro key hkey
      have hq := List.getElem?_eq_getElem (mem_legsOf.mp hkey)
      have hfinal := hquiet.1 _ (List.getElem_mem (mem_legsOf.mp hkey))
      rcases h.tracked.done key.1 _ hq hfinal key.2 with hcounted | ⟨task, htask, _, hleg⟩
      · exact hcounted
      · rw [hquiet.2 task htask] at hleg
        exact absurd hleg List.not_mem_nil
    have hheld := h.projected.held side marketID trader
    rw [countedTotal_all hall, ← h.executed.balances] at hheld
    exact Int.natCast_inj.mp hheld
  unclamped := fun task htask leg later held hlegs hheld =>
    (h.projected.read task htask leg later held hlegs hheld).1

/-- Nothing is settled or booked yet, and the contract holds no shares. -/
structure PositionsWorld.Fresh (net : Network) (s : PositionsWorld) : Prop where
  settled : s.settled = []
  tasks : s.tasks = []
  counted : s.counted = []
  positions : ∀ marketID, s.positions marketID = .empty
  finalized : ∀ matchID, s.db.finalized matchID = false
  balances : ∀ side marketID trader, (s.contract net).position side marketID trader = 0

theorem PositionsWorld.Fresh.sound (h : s.Fresh net) : s.Sound net spelling where
  executed := by
    obtain ⟨hsettled, _, _, _, _, hbalances⟩ := h
    constructor
    · simp [hsettled]
    · simp [hsettled]
    · simp [hsettled]
    · intro side marketID trader
      rw [hbalances, hsettled]
      rfl
    · intro side marketID trader n
      rw [hsettled]
      exact le_of_eq (by simp [legsOf])
  tracked := by
    obtain ⟨hsettled, htasks, hcounted, _, hfinalized, _⟩ := h
    constructor
    · simp [hfinalized]
    · simp [htasks]
    · simp [htasks]
    · simp [hcounted]
    · simp [hfinalized]
  projected := by
    obtain ⟨hsettled, htasks, hcounted, hpositions, _, _⟩ := h
    constructor
    · intro marketID a
      rw [hpositions]
      exact accurate_empty a
    · intro marketID row hrow
      rw [hpositions] at hrow
      exact absurd hrow List.not_mem_nil
    · intro side marketID trader
      rw [hpositions, hsettled]
      rfl
    · intro side marketID trader
      rw [hsettled]
      exact List.Pairwise.nil
    · simp [htasks]

end Steps

/-- Every trader is spelt in one way, fills fit a signed word, and of every finalized match both
legs are read and written, a sale after the purchases behind it and each on the row that it read:
then in every state a quiet table holds what the contract holds, and no balance is clamped. -/
theorem positions_agree {p : Platform} (hkeccak : ∀ text, (p.keccak256 text).length = 32)
    (hsignatures : ∀ row signature, p.signatureMap row = .ok signature →
      signature.length < 2 ^ 32) {net : Network} (spelling : Address → Str)
    {start : PositionsWorld} (hstart : start.Fresh net) {events : List BookkeepingEvent}
    (hruns : (bookkeeping p net).Runs (fun s e => s.inStep p spelling e = true) start events) :
    ((bookkeeping p net).run start events).Agrees net :=
  (hruns.preserves (P := PositionsWorld.Sound net spelling)
    (fun _ _ hs hallowed hstep => hs.next hkeccak hsignatures hallowed hstep) hstart.sound).agrees

/-! ## Two runs -/

instance (s : PositionsWorld) : Decidable s.Quiet :=
  inferInstanceAs (Decidable ((∀ _ ∈ _, _) ∧ ∀ _ ∈ _, _))

instance (row : PredictionIntent) : Decidable (Stored row) :=
  decidable_of_iff (row.evmaddress.length = 40 ∧ ∀ deadline ∈ row.deadline, deadline < 2 ^ 63)
    ⟨fun h => ⟨h.1, h.2⟩, fun h => ⟨h.1, h.2⟩⟩

theorem finalized_row {db : Db} {matchID : Str} (h : db.finalized matchID = true) :
    ∃ row ∈ db.matches_.rows, row.matchID = matchID ∧ row.status = .finalized := by
  obtain ⟨row, hrow, hstatus⟩ := (Option.any_eq_true _ _).mp h
  obtain ⟨hmem, hid⟩ := Table.find_eq_some.mp hrow
  exact ⟨row, hmem, hid, of_decide_eq_true hstatus⟩

/-- Two databases finalize the same matches if they do so on their rows. -/
theorem finalized_congr_iff {db db' : Db} :
    (∀ matchID, db'.finalized matchID = db.finalized matchID) ↔
      ∀ row ∈ db'.matches_.rows ++ db.matches_.rows,
        db'.finalized row.matchID = db.finalized row.matchID := by
  constructor
  · intro h row _
    exact h row.matchID
  · intro h matchID
    rw [Bool.eq_iff_iff]
    constructor
    · intro hfinal
      obtain ⟨row, hmem, rfl, _⟩ := finalized_row hfinal
      rw [← h row (List.mem_append_left _ hmem)]
      exact hfinal
    · intro hfinal
      obtain ⟨row, hmem, rfl, _⟩ := finalized_row hfinal
      rw [h row (List.mem_append_right _ hmem)]
      exact hfinal

instance (p : Platform) (net : Network) (s : PositionsWorld) :
    (e : BookkeepingEvent) → Decidable ((bookkeeping p net).Allowed s e)
  | .order m bid ask bidRow askRow _ _ _ =>
    inferInstanceAs (Decidable (m.bid = some bid ∧ m.ask = some ask ∧ m.fillShares < 2 ^ 64 ∧
      Stored bidRow ∧ Stored askRow))
  | .external tx => inferInstanceAs (Decidable (tx.call.movesShares = false))
  | .database _ => decidable_of_iff' _ finalized_congr_iff
  | .finalize .. | .read .. | .write .. | .stop _ => inferInstanceAs (Decidable True)

/-- Hashes a text to the selector of `settle` and one byte of the text. -/
def summingPlatform : Platform :=
  { samplePlatform with
    keccak256 := fun bytes =>
      [0xf0, 0x8f, 0xae, 0xed] ++ List.replicate 27 0 ++ [bytes.getD 127 0] }

def bookedNetwork : Network :=
  ⟨sampleChain, sampleDeployment sampleChain sampleChain_self⟩

def sampleConfig : PrismV2Network := ⟨"testnet".toList, "0.0.5001".toList, sampleProxy, 296⟩

def sampleFillOf (rows : PredictionIntent × PredictionIntent) : ClobMatch :=
  { sampleFill with
    bid := some (sampleClobOrder rows.1.txID)
    ask := some (sampleClobOrder rows.2.txID) }

/-- Trader 11 buys 101 YES from the market, and sells them to trader 5. -/
def sampleTrades (buyer seller : Str) : List (PredictionIntent × PredictionIntent) :=
  [(sampleIntent 1 buyer 0 0 0,
    sampleIntent 2 "0000000000000000000000000000000000000006".toList 1 0 0),
    (sampleIntent 3 "0000000000000000000000000000000000000005".toList 0 0 0,
      sampleIntent 4 seller 0 1 0)]

def samplePrepared (rows : PredictionIntent × PredictionIntent) : List Prepared :=
  (prepare summingPlatform (sampleFillOf rows) (sampleClobOrder rows.1.txID)
    (sampleClobOrder rows.2.txID) rows.1 rows.2 sampleConfig sampleMarketRow).toOption.toList

def sampleBooks (trades : List (PredictionIntent × PredictionIntent)) : PositionsWorld where
  db :=
    { intents := (trades.flatMap fun rows => [rows.1, rows.2]).foldl Table.insert .empty
      matches_ := ((trades.flatMap samplePrepared).map fun q => q.record.row).foldl
        Table.insert .empty
      markets := Table.empty.insert sampleMarketRow }
  history := [⟨sampleEnv 1 10, .createMarket 7 [65] 100⟩, ⟨sampleEnv 5 10, .tokenTransfer 5 11 500⟩]
  positions := fun _ => .empty
  settled := []
  tasks := []
  counted := []

def sampleOrders (trades : List (PredictionIntent × PredictionIntent)) : List BookkeepingEvent :=
  trades.map fun rows => .order (sampleFillOf rows) (sampleClobOrder rows.1.txID)
    (sampleClobOrder rows.2.txID) rows.1 rows.2 sampleConfig sampleMarketRow sampleWallets

def sampleBooking (k : Nat) : List BookkeepingEvent :=
  [.finalize k "0.0.2@1".toList, .read 0 true, .write 0 true, .read 0 true, .write 0 true, .stop 0]

theorem sampleBooks_fresh {trades : List (PredictionIntent × PredictionIntent)}
    (h : ∀ row ∈ (sampleBooks trades).db.matches_.rows, row.status ≠ .finalized) :
    (sampleBooks trades).Fresh bookedNetwork where
  settled := rfl
  tasks := rfl
  counted := rfl
  positions := fun _ => rfl
  finalized := by
    intro matchID
    rw [Bool.eq_false_iff]
    intro hfinal
    obtain ⟨row, hmem, _, hstatus⟩ := finalized_row hfinal
    exact h row hmem hstatus
  balances := by
    intro side marketID trader
    cases side with
    | yes => rfl
    | no => rfl

def sampleTrader : Str := "000000000000000000000000000000000000000b".toList

def sampleTraderCapital : Str := "000000000000000000000000000000000000000B".toList

def sampleSpelling (trader : Address) : Str :=
  if trader = 11 then sampleTrader
  else if trader = 5 then "0000000000000000000000000000000000000005".toList
  else "0000000000000000000000000000000000000006".toList

/-- Spelt in one way and booked without a loss, the two trades leave the table with the shares
that the contract holds. -/
theorem positions_agree_sample :
    let trades := sampleTrades sampleTrader sampleTrader
    ((bookkeeping summingPlatform bookedNetwork).run (sampleBooks trades)
      (sampleOrders trades ++ sampleBooking 0 ++ sampleBooking 1)).Agrees bookedNetwork :=
  positions_agree (fun _ => by simp [summingPlatform])
    (fun _ _ h => by
      obtain rfl := Except.ok.inj h
      decide)
    sampleSpelling (sampleBooks_fresh (by decide +kernel)) (by decide +kernel)

theorem not_agrees {net : Network} {s : PositionsWorld} (marketID : Uint128) (side : Side)
    (trader : Address) (h : s.Quiet ∧
      heldBy (s.positions marketID) side trader ≠ (s.contract net).position side marketID trader) :
    ¬s.Agrees net :=
  fun hagrees => h.2 (hagrees.balances h.1 marketID side trader)

/-- A trader whose address is spelt in two ways keeps in the table what was sold, since the sale
is clamped in a row of its own; and the trades of a task that is lost are missing for good. -/
theorem positions_disagree :
    let trades := sampleTrades sampleTrader sampleTraderCapital
    let events := sampleOrders trades ++ sampleBooking 0 ++ sampleBooking 1
    let spelt := sampleTrades sampleTrader sampleTrader
    let lost := sampleOrders spelt ++ [.finalize 0 "0.0.2@1".toList, .stop 0] ++ sampleBooking 1
    ((sampleBooks trades).Fresh bookedNetwork ∧
      (bookkeeping summingPlatform bookedNetwork).Runs (fun _ _ => True)
        (sampleBooks trades) events ∧
      ¬((bookkeeping summingPlatform bookedNetwork).run (sampleBooks trades) events).Agrees
        bookedNetwork) ∧
    ((sampleBooks spelt).Fresh bookedNetwork ∧
      (bookkeeping summingPlatform bookedNetwork).Runs (fun _ _ => True) (sampleBooks spelt) lost ∧
      ¬((bookkeeping summingPlatform bookedNetwork).run (sampleBooks spelt) lost).Agrees
        bookedNetwork) := by
  refine ⟨⟨sampleBooks_fresh (by decide +kernel), by decide +kernel, ?_⟩,
    ⟨sampleBooks_fresh (by decide +kernel), by decide +kernel, ?_⟩⟩
  · exact not_agrees 7 .yes 11 (by decide +kernel)
  · exact not_agrees 7 .no 6 (by decide +kernel)

end PrismBackend.Api
