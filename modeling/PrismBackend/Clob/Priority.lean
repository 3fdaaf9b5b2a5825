import PrismBackend.Clob.Arrivals
import PrismBackend.Clob.NoFill

/-!
# CLOB: price-time priority

In which order a pass fills the resting orders, why it passes some of them, and
that the orders which go on resting admit no trade between them.
-/

namespace PrismBackend.Clob

open PrismBackend.Lib

/-! ## Priority -/

/-- The first order comes before the second: by a better limit for an order that comes in, or by
arrival where the limits are equal. -/
def Before (incomingIsBid : Bool) (r r' : Arrived) : Prop :=
  ¬notWorse incomingIsBid r' r ∨
    (r.order.limitYesPrice = r'.order.limitYesPrice ∧ r.arrival < r'.arrival)

def InArrival (side : List Arrived) : Prop :=
  side.Pairwise fun r r' => r.order.limitYesPrice = r'.order.limitYesPrice → r.arrival < r'.arrival

section Order

variable {incomingIsBid : Bool} {r r' : Arrived} {side side' : List Arrived}

theorem Before.irrefl (r : Arrived) : ¬Before incomingIsBid r r := by
  cases incomingIsBid with
  | true => simp [Before, notWorse]
  | false => simp [Before, notWorse]

theorem Before.asymm (h : Before incomingIsBid r r') : ¬Before incomingIsBid r' r := by
  cases incomingIsBid with
  | true =>
      simp only [Before, notWorse, if_true] at h ⊢
      omega
  | false =>
      simp only [Before, notWorse, Bool.false_eq_true, if_false] at h ⊢
      omega

theorem Before.notWorse (h : Before incomingIsBid r r') : notWorse incomingIsBid r r' := by
  cases incomingIsBid with
  | true =>
      simp only [Before, Clob.notWorse, if_true] at h ⊢
      omega
  | false =>
      simp only [Before, Clob.notWorse, Bool.false_eq_true, if_false] at h ⊢
      omega

instance (incomingIsBid : Bool) : Std.Total (notWorse incomingIsBid) where
  total a b := by
    cases incomingIsBid with
    | true => exact Nat.le_total _ _
    | false => exact Nat.le_total b.order.limitYesPrice a.order.limitYesPrice

instance (incomingIsBid : Bool) : IsTrans Arrived (notWorse incomingIsBid) where
  trans a b c hab hbc := by
    cases incomingIsBid with
    | true => exact Nat.le_trans hab hbc
    | false =>
        have hba : b.order.limitYesPrice ≤ a.order.limitYesPrice := hab
        have hcb : c.order.limitYesPrice ≤ b.order.limitYesPrice := hbc
        exact Nat.le_trans hcb hba

theorem InArrival.sortOpposite (h : InArrival side) :
    InArrival (sortOpposite incomingIsBid side) := by
  apply pairwise_insertionSort _ h
  intro a b hab heq
  -- equal limits are never exchanged
  cases incomingIsBid with
  | true => exact absurd heq.ge hab
  | false => exact absurd heq.le hab

/-- The sort brings a side whose equal limits stand in arrival order into the order of priority. -/
theorem InArrival.sorted (h : InArrival side) :
    (Clob.sortOpposite incomingIsBid side).Pairwise (Before incomingIsBid) := by
  have hlimits := List.pairwise_insertionSort (notWorse incomingIsBid) side
  apply (hlimits.and h.sortOpposite).imp
  rintro a b ⟨hle, hequal⟩
  by_cases heq : a.order.limitYesPrice = b.order.limitYesPrice
  · exact Or.inr ⟨heq, hequal heq⟩
  · left
    cases incomingIsBid with
    | true =>
        simp only [Clob.notWorse, if_true] at hle ⊢
        omega
    | false =>
        simp only [Clob.notWorse, Bool.false_eq_true, if_false] at hle ⊢
        omega

def Arrived.key (r : Arrived) : Nat × Nat := (r.order.limitYesPrice, r.arrival)

theorem InArrival.of_keys (h : InArrival side)
    (hkeys : (side'.map Arrived.key).Sublist (side.map Arrived.key)) : InArrival side' := by
  have hmapped : (side.map Arrived.key).Pairwise fun k k' => k.1 = k'.1 → k.2 < k'.2 :=
    List.pairwise_map.mpr h
  exact List.pairwise_map.mp (hmapped.sublist hkeys)

end Order

/-! ## A pass -/

def incomingIn (incomingIsBid : Bool) (m : ClobMatch) : Option CreateOrderRequestClob :=
  if incomingIsBid then m.bid else m.ask

def restingIn (incomingIsBid : Bool) (m : ClobMatch) : Option CreateOrderRequestClob :=
  if incomingIsBid then m.ask else m.bid

theorem incomingIn_fillMatch (incomingIsBid : Bool) (incoming resting : CreateOrderRequestClob)
    (fill price : Nat) :
    incomingIn incomingIsBid (fillMatch incomingIsBid incoming resting fill price) =
        some incoming ∧
      restingIn incomingIsBid (fillMatch incomingIsBid incoming resting fill price) =
        some resting := by
  cases incomingIsBid with
  | true => exact ⟨rfl, rfl⟩
  | false => exact ⟨rfl, rfl⟩

/-- What a pass does with a resting order. -/
inductive Outcome (now : Nat) (incomingIsBid : Bool) (w : Walk) (r : Arrived) : Prop
  | dropped (hexpired : expired r.order now = true)
  | filled (m : ClobMatch) (hm : (r, m) ∈ w.fills)
      (hfull : remainingShares
        (filledBy r.order m.fillShares m.yesCollateral m.noCollateral) = 0)
  | rests (r' : Arrived) (hr' : r' ∈ w.resting) (harrival : r'.arrival = r.arrival)
      (hstate : r' = r ∨ ∃ m, (r, m) ∈ w.fills ∧
        r'.order = filledBy r.order m.fillShares m.yesCollateral m.noCollateral)
      (hpassed : ∀ p ∈ w.fills, Before incomingIsBid r p.1 →
        ∀ i, incomingIn incomingIsBid p.2 = some i → tryFill incomingIsBid i r'.order = none)

section Outcome

variable {now : Nat} {incomingIsBid : Bool} {w : Walk} {r : Arrived}

theorem Outcome.cons_resting (h : Outcome now incomingIsBid w r) (x : Arrived) :
    Outcome now incomingIsBid { w with resting := x :: w.resting } r := by
  cases h with
  | dropped hexpired => exact .dropped hexpired
  | filled m hm hfull => exact .filled m hm hfull
  | rests r' hr' harrival hstate hpassed =>
      exact .rests r' (List.mem_cons_of_mem _ hr') harrival hstate hpassed

/-- An earlier fill of an order with better priority adds nothing to what a later one has passed. -/
theorem Outcome.cons_fills (h : Outcome now incomingIsBid w r) {x : Arrived}
    (hx : Before incomingIsBid x r) (m : ClobMatch) :
    Outcome now incomingIsBid { w with fills := (x, m) :: w.fills } r := by
  cases h with
  | dropped hexpired => exact .dropped hexpired
  | filled m' hm hfull => exact .filled m' (List.mem_cons_of_mem _ hm) hfull
  | rests r' hr' harrival hstate hpassed =>
      refine .rests r' hr' harrival ?_ ?_
      · rcases hstate with heq | ⟨m', hm, hstate⟩
        · exact Or.inl heq
        · exact Or.inr ⟨m', List.mem_cons_of_mem _ hm, hstate⟩
      · intro p hp hbefore
        rcases List.mem_cons.mp hp with rfl | hp
        · exact absurd hbefore hx.asymm
        · exact hpassed p hp hbefore

end Outcome

/-- A pass, step by step: it stops, drops an expired order, comes past an order without a fill, or
fills and finds the resting order full or not. -/
inductive Passes (now : Nat) (incomingIsBid : Bool) :
    List Arrived → CreateOrderRequestClob → Walk → Prop
  | stop {side : List Arrived} {incoming : CreateOrderRequestClob}
      (hstop : remainingShares incoming = 0 ∨ ∀ r ∈ side.head?,
        crosses (bidAsk incomingIsBid incoming r.order).1
          (bidAsk incomingIsBid incoming r.order).2 = false) :
      Passes now incomingIsBid side incoming ⟨side, incoming, []⟩
  | drop {r : Arrived} {rest : List Arrived} {incoming : CreateOrderRequestClob} {w : Walk}
      (hexpired : expired r.order now = true) (h : Passes now incomingIsBid rest incoming w) :
      Passes now incomingIsBid (r :: rest) incoming w
  | skip {r : Arrived} {rest : List Arrived} {incoming : CreateOrderRequestClob} {w : Walk}
      (hnone : tryFill incomingIsBid incoming r.order = none)
      (h : Passes now incomingIsBid rest incoming w) :
      Passes now incomingIsBid (r :: rest) incoming { w with resting := r :: w.resting }
  | full {r : Arrived} {rest : List Arrived} {incoming : CreateOrderRequestClob} {w : Walk}
      {fill price : Nat} (hfill : tryFill incomingIsBid incoming r.order = some (fill, price))
      (h : Passes now incomingIsBid rest
        (filledBy incoming fill (yesLeg price fill) (noLeg price fill)) w)
      (hfull : remainingShares
        (filledBy r.order fill (yesLeg price fill) (noLeg price fill)) = 0) :
      Passes now incomingIsBid (r :: rest) incoming
        { w with fills := (r, fillMatch incomingIsBid incoming r.order fill price) :: w.fills }
  | part {r : Arrived} {rest : List Arrived} {incoming : CreateOrderRequestClob} {w : Walk}
      {fill price : Nat} (hfill : tryFill incomingIsBid incoming r.order = some (fill, price))
      (h : Passes now incomingIsBid rest
        (filledBy incoming fill (yesLeg price fill) (noLeg price fill)) w)
      (hopen : remainingShares
        (filledBy r.order fill (yesLeg price fill) (noLeg price fill)) ≠ 0) :
      Passes now incomingIsBid (r :: rest) incoming
        { w with
          resting := ⟨filledBy r.order fill (yesLeg price fill) (noLeg price fill), r.arrival⟩ ::
            w.resting
          fills := (r, fillMatch incomingIsBid incoming r.order fill price) :: w.fills }

theorem walk_passes (now : Nat) (incomingIsBid : Bool) (side : List Arrived)
    (incoming : CreateOrderRequestClob) :
    Passes now incomingIsBid side incoming (walk now incomingIsBid side incoming) := by
  induction side generalizing incoming with
  | nil => exact .stop (Or.inr (by simp))
  | cons r rest ih =>
      rw [walk]
      by_cases hdone : remainingShares incoming = 0
      · rw [if_pos hdone]
        exact .stop (Or.inl hdone)
      rw [if_neg hdone]
      by_cases hexpired : expired r.order now = true
      · rw [if_pos hexpired]
        exact .drop hexpired (ih incoming)
      rw [if_neg hexpired]
      cases hcrosses : crosses (bidAsk incomingIsBid incoming r.order).1
          (bidAsk incomingIsBid incoming r.order).2 with
      | false => exact .stop (Or.inr (by simpa using hcrosses))
      | true =>
          rw [if_neg (by simp)]
          cases hfill : tryFill incomingIsBid incoming r.order with
          | none => exact .skip hfill (ih incoming)
          | some found =>
              obtain ⟨fill, price⟩ := found
              obtain ⟨hyes, hno⟩ := fillMatch_legs hfill
              simp only [hyes, hno]
              by_cases hfull : remainingShares
                  (filledBy r.order fill (yesLeg price fill) (noLeg price fill)) = 0
              · rw [if_pos hfull]
                exact .full hfill (ih _) hfull
              · rw [if_neg hfull]
                exact .part hfill (ih _) hfull

namespace Passes

variable {now : Nat} {incomingIsBid : Bool} {side : List Arrived}
  {incoming : CreateOrderRequestClob} {w : Walk}

theorem incoming_later (h : Passes now incomingIsBid side incoming w) :
    Later incoming w.incoming := by
  induction h with
  | stop hstop => exact .refl _
  | drop hexpired h ih => exact ih
  | skip hnone h ih => exact ih
  | full hfill h hfull ih => exact (later_filledBy _ _ _ _).trans ih
  | part hfill h hopen ih => exact (later_filledBy _ _ _ _).trans ih

/-- The orders that go on resting keep their limits and their places. -/
theorem keys (h : Passes now incomingIsBid side incoming w) :
    (w.resting.map Arrived.key).Sublist (side.map Arrived.key) := by
  induction h with
  | stop hstop => exact List.Sublist.refl _
  | drop hexpired h ih => exact ih.cons _
  | skip hnone h ih => exact ih.cons_cons _
  | full hfill h hfull ih => exact ih.cons _
  | part hfill h hopen ih => exact ih.cons_cons _

theorem resting_from (h : Passes now incomingIsBid side incoming w) {r' : Arrived}
    (hr' : r' ∈ w.resting) : ∃ r ∈ side, r.arrival = r'.arrival ∧ Later r.order r'.order := by
  induction h with
  | stop hstop => exact ⟨r', hr', rfl, .refl _⟩
  | drop hexpired h ih =>
      obtain ⟨r, hr, hfrom⟩ := ih hr'
      exact ⟨r, List.mem_cons_of_mem _ hr, hfrom⟩
  | skip hnone h ih =>
      rcases List.mem_cons.mp hr' with rfl | hr'
      · exact ⟨r', List.mem_cons_self, rfl, .refl _⟩
      · obtain ⟨r, hr, hfrom⟩ := ih hr'
        exact ⟨r, List.mem_cons_of_mem _ hr, hfrom⟩
  | full hfill h hfull ih =>
      obtain ⟨r, hr, hfrom⟩ := ih hr'
      exact ⟨r, List.mem_cons_of_mem _ hr, hfrom⟩
  | @part head rest incoming w fill price hfill h hopen ih =>
      rcases List.mem_cons.mp hr' with rfl | hr'
      · exact ⟨head, List.mem_cons_self, rfl, later_filledBy _ _ _ _⟩
      · obtain ⟨r, hr, hfrom⟩ := ih hr'
        exact ⟨r, List.mem_cons_of_mem _ hr, hfrom⟩

theorem fills_sublist (h : Passes now incomingIsBid side incoming w) :
    (w.fills.map (·.1)).Sublist side := by
  induction h with
  | stop hstop => exact List.nil_sublist _
  | drop hexpired h ih => exact ih.cons _
  | skip hnone h ih => exact ih.cons _
  | full hfill h hfull ih => exact ih.cons_cons _
  | part hfill h hopen ih => exact ih.cons_cons _

/-- A fill carries the resting order as it was found, and the incoming order with shares left. -/
theorem fills_carry (h : Passes now incomingIsBid side incoming w) {p : Arrived × ClobMatch}
    (hp : p ∈ w.fills) : restingIn incomingIsBid p.2 = some p.1.order ∧
      ∃ i, incomingIn incomingIsBid p.2 = some i ∧ Later incoming i ∧ 0 < remainingShares i := by
  have hhead {r : Arrived} {incoming : CreateOrderRequestClob} {fill price : Nat}
      (hfill : tryFill incomingIsBid incoming r.order = some (fill, price)) :
      0 < remainingShares incoming := by
    obtain ⟨_, _, hmax⟩ := tryFill_eq_some hfill
    have hfeasible := (maxFill_isGreatest hmax).1
    have hpos := hfeasible.pos
    have hle := hfeasible.le
    omega
  induction h with
  | stop hstop => exact absurd hp List.not_mem_nil
  | drop hexpired h ih => exact ih hp
  | skip hnone h ih => exact ih hp
  | full hfill h hfull ih =>
      rcases List.mem_cons.mp hp with rfl | hp
      · obtain ⟨hin, hout⟩ := incomingIn_fillMatch incomingIsBid _ _ _ _
        exact ⟨hout, _, hin, .refl _, hhead hfill⟩
      · obtain ⟨hout, i, hin, hlater, hpos⟩ := ih hp
        exact ⟨hout, i, hin, (later_filledBy _ _ _ _).trans hlater, hpos⟩
  | part hfill h hopen ih =>
      rcases List.mem_cons.mp hp with rfl | hp
      · obtain ⟨hin, hout⟩ := incomingIn_fillMatch incomingIsBid _ _ _ _
        exact ⟨hout, _, hin, .refl _, hhead hfill⟩
      · obtain ⟨hout, i, hin, hlater, hpos⟩ := ih hp
        exact ⟨hout, i, hin, (later_filledBy _ _ _ _).trans hlater, hpos⟩

theorem crosses_of_notWorse {r r' : Arrived} (h : notWorse incomingIsBid r r')
    (hcrosses : crosses (bidAsk incomingIsBid incoming r'.order).1
      (bidAsk incomingIsBid incoming r'.order).2 = true) :
    crosses (bidAsk incomingIsBid incoming r.order).1
      (bidAsk incomingIsBid incoming r.order).2 = true := by
  cases incomingIsBid with
  | true =>
      simp only [crosses, bidAsk, if_true, decide_eq_true_eq] at hcrosses ⊢
      exact Nat.le_trans h hcrosses
  | false =>
      simp only [crosses, bidAsk, Bool.false_eq_true, if_false, decide_eq_true_eq] at hcrosses ⊢
      exact Nat.le_trans hcrosses h

theorem crosses_later {incoming' : CreateOrderRequestClob} (h : Later incoming incoming')
    (r : CreateOrderRequestClob) :
    crosses (bidAsk incomingIsBid incoming' r).1 (bidAsk incomingIsBid incoming' r).2 =
      crosses (bidAsk incomingIsBid incoming r).1 (bidAsk incomingIsBid incoming r).2 := by
  obtain ⟨_, _, rfl⟩ := h
  cases incomingIsBid with
  | true => rfl
  | false => rfl

/-- An order that rests after its pass admits no trade with a resting order that it crosses. -/
theorem no_trade (h : Passes now incomingIsBid side incoming w)
    (hsorted : side.Pairwise (notWorse incomingIsBid)) (hpos : 0 < remainingShares w.incoming)
    {r' : Arrived} (hr' : r' ∈ w.resting)
    (hcrosses : crosses (bidAsk incomingIsBid incoming r'.order).1
      (bidAsk incomingIsBid incoming r'.order).2 = true) :
    tryFill incomingIsBid w.incoming r'.order = none := by
  induction h with
  | @stop side incoming hstop =>
      exfalso
      rcases hstop with hdone | hstop
      · have hpos' : 0 < remainingShares incoming := hpos
        omega
      · cases side with
        | nil => exact absurd hr' List.not_mem_nil
        | cons r rest =>
            have hhead := hstop r rfl
            rcases List.mem_cons.mp hr' with rfl | hr'
            · rw [hcrosses] at hhead
              exact absurd hhead (by simp)
            · -- the sides are sorted, so the head would cross as well
              have hle := (List.pairwise_cons.mp hsorted).1 r' hr'
              rw [crosses_of_notWorse hle hcrosses] at hhead
              exact absurd hhead (by simp)
  | drop hexpired h ih => exact ih (List.pairwise_cons.mp hsorted).2 hpos hr' hcrosses
  | skip hnone h ih =>
      rcases List.mem_cons.mp hr' with rfl | hr'
      · exact tryFill_none_later hnone h.incoming_later (.refl _)
      · exact ih (List.pairwise_cons.mp hsorted).2 hpos hr' hcrosses
  | full hfill h hfull ih =>
      rw [← crosses_later (later_filledBy _ _ _ _)] at hcrosses
      exact ih (List.pairwise_cons.mp hsorted).2 hpos hr' hcrosses
  | @part r rest incoming w fill price hfill h hopen ih =>
      rcases List.mem_cons.mp hr' with rfl | hr'
      · have hleft := h.incoming_later.remaining_le
        have hpos' : 0 < remainingShares w.incoming := hpos
        exact tryFill_none_later (tryFill_after hfill (by omega) hopen) h.incoming_later (.refl _)
      · rw [← crosses_later (later_filledBy _ _ _ _)] at hcrosses
        exact ih (List.pairwise_cons.mp hsorted).2 hpos hr' hcrosses

theorem outcome (h : Passes now incomingIsBid side incoming w)
    (hsorted : side.Pairwise (Before incomingIsBid)) {r : Arrived} (hr : r ∈ side) :
    Outcome now incomingIsBid w r := by
  induction h with
  | stop hstop => exact .rests r hr rfl (Or.inl rfl) fun p hp => absurd hp List.not_mem_nil
  | drop hexpired h ih =>
      rcases List.mem_cons.mp hr with rfl | hr
      · exact .dropped hexpired
      · exact ih (List.pairwise_cons.mp hsorted).2 hr
  | skip hnone h ih =>
      rcases List.mem_cons.mp hr with rfl | hr
      · refine .rests r List.mem_cons_self rfl (Or.inl rfl) ?_
        intro p hp _ i hi
        obtain ⟨_, i', hi', hlater, _⟩ := h.fills_carry hp
        rw [hi] at hi'
        cases hi'
        exact tryFill_none_later hnone hlater (.refl _)
      · exact (ih (List.pairwise_cons.mp hsorted).2 hr).cons_resting _
  | full hfill h hfull ih =>
      obtain ⟨hyes, hno⟩ := fillMatch_legs hfill
      rcases List.mem_cons.mp hr with rfl | hr
      · refine .filled _ List.mem_cons_self ?_
        rw [hyes, hno]
        exact hfull
      · exact (ih (List.pairwise_cons.mp hsorted).2 hr).cons_fills
          ((List.pairwise_cons.mp hsorted).1 r hr) _
  | part hfill h hopen ih =>
      obtain ⟨hyes, hno⟩ := fillMatch_legs hfill
      rcases List.mem_cons.mp hr with rfl | hr
      · refine .rests _ List.mem_cons_self rfl (Or.inr ⟨_, List.mem_cons_self, ?_⟩) ?_
        · rw [hyes, hno]
          rfl
        · intro p hp hbefore i hi
          rcases List.mem_cons.mp hp with rfl | hp
          · exact absurd hbefore (Before.irrefl r)
          · obtain ⟨_, i', hi', hlater, hpos⟩ := h.fills_carry hp
            rw [hi] at hi'
            cases hi'
            -- the incoming order goes on to fill, so this fill was not all of it
            have hleft := hlater.remaining_le
            exact tryFill_none_later (tryFill_after hfill (by omega) hopen) hlater (.refl _)
      · exact ((ih (List.pairwise_cons.mp hsorted).2 hr).cons_resting _).cons_fills
          ((List.pairwise_cons.mp hsorted).1 r hr) _

end Passes

/-! ## A book -/

/-- The fill of a resting bid with a resting ask, with the later of the two coming in. -/
def tryResting (b a : Arrived) : Option (Nat × Nat) :=
  if b.arrival < a.arrival then tryFill false a.order b.order else tryFill true b.order a.order

structure Placed (ops : List BookOp) (book : ArrivedBook) : Prop where
  inArrival : ∀ side, InArrival (book.opposite side)
  came : ∀ side, ∀ r ∈ book.opposite side,
    ∃ o now, ops[r.arrival]? = some (.add o now) ∧ Later o r.order
  direction : ∀ side, ∀ r ∈ book.opposite side, isBid r.order = !side
  noTrade : ∀ b ∈ book.bids, ∀ a ∈ book.asks, crosses b.order a.order = true →
    tryResting b a = none

theorem opposite_ofSides (incomingIsBid side : Bool) (same opposite : List Arrived) :
    (ArrivedBook.ofSides incomingIsBid same opposite).opposite side =
      if side = incomingIsBid then opposite else same := by
  cases incomingIsBid with
  | true => cases side <;> rfl
  | false => cases side <;> rfl

theorem mem_restArrived {side : List Arrived} {incoming : CreateOrderRequestClob} {arrival : Nat}
    {r : Arrived} (h : r ∈ restArrived side incoming arrival) :
    r ∈ side ∨ (r = ⟨incoming, arrival⟩ ∧ 0 < remainingShares incoming) := by
  unfold restArrived at h
  split at h
  · exact Or.inl h
  · next hopen =>
    rcases List.mem_append.mp h with h | h
    · exact Or.inl h
    · exact Or.inr ⟨List.mem_singleton.mp h, Nat.pos_of_ne_zero hopen⟩

namespace Placed

variable {ops : List BookOp} {book : ArrivedBook}

theorem arrival_lt (h : Placed ops book) {side : Bool} {r : Arrived}
    (hr : r ∈ book.opposite side) : r.arrival < ops.length := by
  obtain ⟨_, _, hop, _⟩ := h.came side r hr
  exact (List.getElem?_eq_some_iff.mp hop).1

theorem came_append (h : Placed ops book) {side : Bool} {r : Arrived}
    (hr : r ∈ book.opposite side) (op : BookOp) :
    ∃ o now, (ops ++ [op])[r.arrival]? = some (.add o now) ∧ Later o r.order := by
  obtain ⟨o, now, hop, hlater⟩ := h.came side r hr
  refine ⟨o, now, ?_, hlater⟩
  rw [List.getElem?_append_left (h.arrival_lt hr)]
  exact hop

theorem of_sublist {book' : ArrivedBook} (h : Placed ops book) (op : BookOp)
    (hsides : ∀ side, (book'.opposite side).Sublist (book.opposite side)) :
    Placed (ops ++ [op]) book' where
  inArrival side := (h.inArrival side).sublist (hsides side)
  came side _ hr := h.came_append ((hsides side).subset hr) op
  direction side r hr := h.direction side r ((hsides side).subset hr)
  noTrade b hb a ha := h.noTrade b ((hsides false).subset hb) a ((hsides true).subset ha)

theorem passes (book : ArrivedBook) (incoming : CreateOrderRequestClob) (now : Nat) :
    Passes now (isBid incoming)
      (sortOpposite (isBid incoming) (book.opposite (isBid incoming))) incoming
      (book.pass incoming now) := walk_passes _ _ _ _

/-- What rests after a pass rested in the book before it. -/
theorem resting_from {incoming : CreateOrderRequestClob} {now : Nat} {r' : Arrived}
    (hr' : r' ∈ (book.pass incoming now).resting) :
    ∃ r ∈ book.opposite (isBid incoming), r.arrival = r'.arrival ∧ Later r.order r'.order := by
  obtain ⟨r, hr, hfrom⟩ := (passes book incoming now).resting_from hr'
  exact ⟨r, (List.mem_insertionSort _).mp hr, hfrom⟩

theorem add_noTrade (h : Placed ops book) (incoming : CreateOrderRequestClob) (now : Nat)
    (resting r' : Arrived)
    (hresting : resting ∈ restArrived (book.same (isBid incoming))
      (book.pass incoming now).incoming ops.length)
    (hr' : r' ∈ (book.pass incoming now).resting)
    (hcrosses : crosses (bidAsk (isBid incoming) resting.order r'.order).1
      (bidAsk (isBid incoming) resting.order r'.order).2 = true) :
    (if isBid incoming then tryResting resting r' else tryResting r' resting) = none := by
  obtain ⟨r, hr, harrival, hlater⟩ := resting_from hr'
  have hlimit := hlater.limit
  rcases mem_restArrived hresting with hold | ⟨rfl, hpos⟩
  · -- neither order is new, and the one that the pass walked over is only filled further
    cases hbid : isBid incoming with
    | true =>
        rw [hbid] at hold hr hcrosses
        simp only [crosses, bidAsk, if_true, hlimit] at hcrosses
        have hnone := h.noTrade resting hold r hr hcrosses
        rw [if_pos rfl]
        unfold tryResting at hnone ⊢
        rw [← harrival]
        split at hnone
        · next hlt => exact (if_pos hlt).trans (tryFill_none_later hnone hlater (.refl _))
        · next hge => exact (if_neg hge).trans (tryFill_none_later hnone (.refl _) hlater)
    | false =>
        rw [hbid] at hold hr hcrosses
        simp only [crosses, bidAsk, Bool.false_eq_true, if_false, hlimit] at hcrosses
        have hnone := h.noTrade r hr resting hold hcrosses
        rw [if_neg Bool.false_ne_true]
        unfold tryResting at hnone ⊢
        rw [← harrival]
        split at hnone
        · next hlt => exact (if_pos hlt).trans (tryFill_none_later hnone (.refl _) hlater)
        · next hge => exact (if_neg hge).trans (tryFill_none_later hnone hlater (.refl _))
  · -- the order that came in has just passed the other
    have hlt : r'.arrival < ops.length := harrival ▸ h.arrival_lt hr
    have hpasses := passes book incoming now
    have hsorted : (sortOpposite (isBid incoming) (book.opposite (isBid incoming))).Pairwise
        (notWorse (isBid incoming)) :=
      (h.inArrival (isBid incoming)).sorted.imp Before.notWorse
    dsimp only at hcrosses
    rw [Passes.crosses_later hpasses.incoming_later] at hcrosses
    have hnone := hpasses.no_trade hsorted hpos hr' hcrosses
    cases hbid : isBid incoming with
    | true =>
        rw [hbid] at hnone
        rw [if_pos rfl, tryResting, if_neg (Nat.lt_asymm hlt)]
        exact hnone
    | false =>
        rw [hbid] at hnone
        rw [if_neg Bool.false_ne_true, tryResting, if_pos hlt]
        exact hnone

theorem add (h : Placed ops book) (incoming : CreateOrderRequestClob) (now : Nat) :
    Placed (ops ++ [.add incoming now]) (book.add incoming now ops.length).1 := by
  unfold ArrivedBook.add
  by_cases hdrop : expired incoming now = true ∨ remainingShares incoming = 0
  · rw [if_pos hdrop]
    exact h.of_sublist _ fun side => List.Sublist.refl _
  rw [if_neg hdrop]
  have hpasses := passes book incoming now
  refine ⟨?_, ?_, ?_, ?_⟩
  · intro side
    rw [opposite_ofSides]
    split
    · exact (h.inArrival _).sortOpposite.of_keys hpasses.keys
    · have hsame : InArrival (book.same (isBid incoming)) := h.inArrival _
      unfold restArrived
      split
      · exact hsame
      · apply List.pairwise_append.mpr
        refine ⟨hsame, List.pairwise_singleton _ _, ?_⟩
        intro r hr r' hr' _
        rw [List.mem_singleton.mp hr']
        exact h.arrival_lt hr
  · intro side r hr
    rw [opposite_ofSides] at hr
    split at hr
    · obtain ⟨r₀, hr₀, harrival, hlater⟩ := resting_from hr
      obtain ⟨o, now', hop, hlater'⟩ := h.came_append hr₀ (.add incoming now)
      rw [harrival] at hop
      exact ⟨o, now', hop, hlater'.trans hlater⟩
    · rcases mem_restArrived hr with hold | ⟨rfl, _⟩
      · exact h.came_append hold _
      · exact ⟨incoming, now, by simp, hpasses.incoming_later⟩
  · intro side r hr
    rw [opposite_ofSides] at hr
    split at hr
    · next hside =>
      obtain ⟨r₀, hr₀, _, hlater⟩ := resting_from hr
      rw [hlater.isBid, hside]
      exact h.direction _ r₀ hr₀
    · next hside =>
      have hother : side = !isBid incoming := Bool.eq_not_of_ne hside
      rcases mem_restArrived hr with hold | ⟨rfl, _⟩
      · rw [hother]
        exact h.direction _ r hold
      · rw [hother, Bool.not_not]
        exact hpasses.incoming_later.isBid
  · intro b hb a ha hcrosses
    cases hbid : isBid incoming with
    | true =>
        have hnone := h.add_noTrade incoming now b a
        simp only [hbid, ArrivedBook.ofSides, if_true] at hb ha hnone
        exact hnone hb ha hcrosses
    | false =>
        have hnone := h.add_noTrade incoming now a b
        simp only [hbid, ArrivedBook.ofSides, Bool.false_eq_true, if_false] at hb ha hnone
        exact hnone ha hb hcrosses

theorem remove (h : Placed ops book) (txId : Str) :
    Placed (ops ++ [.remove txId]) (book.remove txId) := by
  apply h.of_sublist
  intro side
  unfold ArrivedBook.remove
  split
  · cases side with
    | true => exact List.Sublist.refl _
    | false => exact List.eraseP_sublist
  split
  · cases side with
    | true => exact List.eraseP_sublist
    | false => exact List.Sublist.refl _
  · exact List.Sublist.refl _

end Placed

theorem arrivedRun_placed (ops : List BookOp) : Placed ops (arrivedRun ops) := by
  have hcount (ops : List BookOp) (state : ArrivedBook × Nat) :
      (ops.foldl arrivedStep state).2 = state.2 + ops.length := by
    induction ops generalizing state with
    | nil => rfl
    | cons op ops ih =>
        have hstep : (arrivedStep state op).2 = state.2 + 1 := by cases op <;> rfl
        rw [List.foldl_cons, ih, hstep, List.length_cons]
        omega
  induction ops using List.reverseRecOn with
  | nil =>
      have hempty (side : Bool) : (arrivedRun []).opposite side = [] := by cases side <;> rfl
      refine ⟨fun side => ?_, fun side r hr => ?_, fun side r hr => ?_,
        fun b hb => absurd hb List.not_mem_nil⟩
      · rw [hempty]
        exact List.Pairwise.nil
      · rw [hempty] at hr
        exact absurd hr List.not_mem_nil
      · rw [hempty] at hr
        exact absurd hr List.not_mem_nil
  | append_singleton ops op ih =>
      have hlength : (ops.foldl arrivedStep (⟨[], []⟩, 0)).2 = ops.length :=
        (hcount ops _).trans (Nat.zero_add _)
      unfold arrivedRun
      rw [List.foldl_append]
      cases op with
      | add order now =>
          show Placed _ ((arrivedRun ops).add order now
            (ops.foldl arrivedStep (⟨[], []⟩, 0)).2).1
          rw [hlength]
          exact ih.add order now
      | remove txId => exact ih.remove txId

/-! ## Priority and missed trades -/

/-- Why an incoming order trades with a resting order, or goes on to trade, behind this one. -/
def PassedOver (incomingIsBid : Bool) (incoming resting : CreateOrderRequestClob) : Prop :=
  sameTrader incoming resting = true ∨ executionPrice resting incoming = none ∨
    ∃ price, executionPrice resting incoming = some price ∧
      ∀ fill, ¬Feasible CapKept (bidAsk incomingIsBid incoming resting).1
        (bidAsk incomingIsBid incoming resting).2 price
        (min (remainingShares incoming) (remainingShares resting)) fill

theorem passedOver_iff {incomingIsBid : Bool} {incoming resting : CreateOrderRequestClob} :
    PassedOver incomingIsBid incoming resting ↔ tryFill incomingIsBid incoming resting = none := by
  rw [tryFill_eq_none_iff]
  simp only [PassedOver, maxFill_eq_none_iff]

/-- In every reachable book equal limits stand in the order of their arrival on both sides. What
an order that comes in fills stands in the order of priority, and a resting order with better
priority than a filled one is dropped within the deadline margin, filled up, or left in the book
in a state in which it admits no trade with the incoming order. -/
theorem price_time_priority (ops : List BookOp) (incoming : CreateOrderRequestClob) (now : Nat) :
    let book := arrivedRun ops
    let added := book.add incoming now ops.length
    let incomingIsBid := isBid incoming
    book.erase = (runBook ops).book ∧
    added.1.erase = ((runBook ops).book.add incoming now).book ∧
    added.2.map (·.2) = ((runBook ops).book.add incoming now).matches_ ∧
    (∀ r ∈ book.bids ++ book.asks,
      ∃ o now', ops[r.arrival]? = some (.add o now') ∧ Later o r.order) ∧
    InArrival book.bids ∧ InArrival book.asks ∧
    (added.2.map (·.1)).Pairwise (Before incomingIsBid) ∧
    (∀ p ∈ added.2, p.1 ∈ book.opposite incomingIsBid ∧
      restingIn incomingIsBid p.2 = some p.1.order) ∧
    ∀ r ∈ book.opposite incomingIsBid, ∀ p ∈ added.2, Before incomingIsBid r p.1 →
      expired r.order now = true ∨
      (∃ m, (r, m) ∈ added.2 ∧
        remainingShares (filledBy r.order m.fillShares m.yesCollateral m.noCollateral) = 0) ∨
      ∃ r' ∈ added.1.opposite incomingIsBid, r'.arrival = r.arrival ∧
        (r' = r ∨ ∃ m, (r, m) ∈ added.2 ∧
          r'.order = filledBy r.order m.fillShares m.yesCollateral m.noCollateral) ∧
        ∃ i, incomingIn incomingIsBid p.2 = some i ∧ PassedOver incomingIsBid i r'.order := by
  have hplaced := arrivedRun_placed ops
  have herase := arrivedRun_erase ops
  obtain ⟨hadded, hmatches⟩ := (arrivedRun ops).add_erase incoming now ops.length
  rw [herase] at hadded hmatches
  refine ⟨herase, hadded, hmatches, ?_, hplaced.inArrival false, hplaced.inArrival true, ?_⟩
  · intro r hr
    rcases List.mem_append.mp hr with hr | hr
    · exact hplaced.came false r hr
    · exact hplaced.came true r hr
  have hpasses := Placed.passes (arrivedRun ops) incoming now
  have hsorted : (sortOpposite (isBid incoming)
      ((arrivedRun ops).opposite (isBid incoming))).Pairwise (Before (isBid incoming)) :=
    (hplaced.inArrival _).sorted
  unfold ArrivedBook.add
  by_cases hdrop : expired incoming now = true ∨ remainingShares incoming = 0
  · rw [if_pos hdrop]
    exact ⟨List.Pairwise.nil, fun p hp => absurd hp List.not_mem_nil,
      fun r _ p hp => absurd hp List.not_mem_nil⟩
  rw [if_neg hdrop]
  refine ⟨hsorted.sublist hpasses.fills_sublist, ?_, ?_⟩
  · intro p hp
    have hmem := hpasses.fills_sublist.subset (List.mem_map_of_mem hp)
    exact ⟨(List.mem_insertionSort _).mp hmem, (hpasses.fills_carry hp).1⟩
  · intro r hr p hp hbefore
    obtain ⟨_, i, hi, _⟩ := hpasses.fills_carry hp
    cases hpasses.outcome hsorted ((List.mem_insertionSort _).mpr hr) with
    | dropped hexpired => exact Or.inl hexpired
    | filled m hm hfull => exact Or.inr (Or.inl ⟨m, hm, hfull⟩)
    | rests r' hr' harrival hstate hpassed =>
        refine Or.inr (Or.inr ⟨r', ?_, harrival, hstate, i, hi, ?_⟩)
        · rw [opposite_ofSides, if_pos rfl]
          exact hr'
        · exact passedOver_iff.mpr (hpassed p hp hbefore i hi)

/-- In every reachable book a bid and an ask of different traders whose limits cross have no price
between them, or no fill at the price of the one that came first: whatever else is filled, removed
or dropped after the later of them came in. -/
theorem no_missed_trade (ops : List BookOp) :
    let book := arrivedRun ops
    book.erase = (runBook ops).book ∧
    (∀ r ∈ book.bids ++ book.asks,
      ∃ o now, ops[r.arrival]? = some (.add o now) ∧ Later o r.order) ∧
    ∀ b ∈ book.bids, ∀ a ∈ book.asks, b.arrival ≠ a.arrival ∧
      (sameTrader b.order a.order = false → crosses b.order a.order = true →
        (usablePrice b.order.limitYesPrice = false ∧ usablePrice a.order.limitYesPrice = false) ∨
        ∃ price,
          (if b.arrival < a.arrival then executionPrice b.order a.order
            else executionPrice a.order b.order) = some price ∧
          maxFill b.order a.order price
            (min (remainingShares b.order) (remainingShares a.order)) = none) := by
  have hplaced := arrivedRun_placed ops
  refine ⟨arrivedRun_erase ops, ?_, ?_⟩
  · intro r hr
    rcases List.mem_append.mp hr with hr | hr
    · exact hplaced.came false r hr
    · exact hplaced.came true r hr
  intro b hb a ha
  constructor
  · -- an operation adds one order, and to one side
    intro heq
    obtain ⟨o, now, hop, hlater⟩ := hplaced.came false b hb
    obtain ⟨o', now', hop', hlater'⟩ := hplaced.came true a ha
    rw [heq, hop', Option.some.injEq, BookOp.add.injEq] at hop
    have hbid : isBid b.order = true := hplaced.direction false b hb
    have hask : isBid a.order = false := hplaced.direction true a ha
    rw [hlater.isBid] at hbid
    rw [hlater'.isBid, hop.1, hbid] at hask
    exact absurd hask (by simp)
  intro htraders hcrosses
  have hnone := hplaced.noTrade b hb a ha hcrosses
  unfold tryResting at hnone
  split at hnone
  · next hlt =>
    rw [if_pos hlt]
    rw [tryFill_eq_none_iff, sameTrader_comm, htraders, Nat.min_comm] at hnone
    rcases hnone with htrader | hprice | hfill
    · exact absurd htrader (by simp)
    · exact Or.inl (executionPrice_eq_none_iff.mp hprice)
    · exact Or.inr hfill
  · next hge =>
    rw [if_neg hge]
    rw [tryFill_eq_none_iff, htraders] at hnone
    rcases hnone with htrader | hprice | hfill
    · exact absurd htrader (by simp)
    · exact Or.inl (executionPrice_eq_none_iff.mp hprice).symm
    · exact Or.inr hfill

end PrismBackend.Clob
