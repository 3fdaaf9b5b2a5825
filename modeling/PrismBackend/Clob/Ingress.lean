import PrismBackend.Clob.Conservation
import PrismBackend.Lib.Revert

/-!
# CLOB: machine arithmetic

`matching.rs` once more, with the words the code computes in. An operation that
leaves its word is a fault: a build with overflow checks panics there, a release
build wraps, and goes on searching for ever where it is the interval of the
search that wraps. A search that is still running when its interval must be used
up is a fault as well. Orders enter through `create_order` and the NATS consumer,
and neither looks at their numbers.
-/

namespace PrismBackend.Clob

open PrismBackend.Lib

inductive Fault
  | overflow
  | unfinished
  | invalidSplit
  deriving DecidableEq, Repr

namespace Machine

def add64 (x y : Nat) : Except Fault Nat := checkedAdd 64 .overflow x y
def sub64 (x y : Nat) : Except Fault Nat := checkedSub .overflow x y

/-- `((fill as u128 * price as u128) / PRICE_SCALE as u128) as u64`. -/
def yesLeg (fill price : Nat) : Except Fault Nat := do
  let product ← checkedMul 128 .overflow fill price
  .ok (product / priceScale % 2 ^ 64)

def splitCollateral (fill price : Nat) : Except Fault (Option (Nat × Nat)) :=
  if fill = 0 ∨ price = 0 ∨ priceScale ≤ price then .ok none
  else do
    let yes ← yesLeg fill price
    let no ← sub64 fill yes
    .ok (if yes = 0 ∨ no = 0 then none else some (yes, no))

def capsOk (bid ask : CreateOrderRequestClob) (price fill : Nat) : Except Fault Bool := do
  let yes ← yesLeg fill price
  let no ← sub64 fill yes
  .ok (withinCap bid yes no && withinCap ask yes no)

def searchLoop (p : Nat → Except Fault Bool) : Nat → Nat → Nat → Except Fault Nat
  | 0, lo, hi => if lo < hi then .error .unfinished else .ok lo
  | fuel + 1, lo, hi =>
    if lo < hi then do
      let width ← sub64 hi lo
      let width ← add64 width 1
      let mid ← add64 lo (width / 2)
      if ← p mid then searchLoop p fuel mid hi
      else do
        let hi ← sub64 mid 1
        searchLoop p fuel lo hi
    else .ok lo

def maxFill (bid ask : CreateOrderRequestClob) (price upper : Nat) :
    Except Fault (Option Nat) :=
  if upper = 0 ∨ price = 0 ∨ priceScale ≤ price then .ok none
  else do
    let all ← capsOk bid ask price upper
    let lo ← searchLoop (capsOk bid ask price) upper (if all then upper else 0) upper
    let split ← splitCollateral lo price
    .ok (split.map fun _ => lo)

def expired (order : CreateOrderRequestClob) (now : Nat) : Except Fault Bool := do
  let limit ← add64 now deadlineMarginSecs
  .ok (order.deadline ≤ limit)

def filledBy (order : CreateOrderRequestClob) (fill yes no : Nat) :
    Except Fault CreateOrderRequestClob := do
  let sharesFilled ← add64 order.sharesFilled fill
  let collateralFilled ← add64 order.collateralFilled (legCollateral order yes no)
  .ok { order with sharesFilled, collateralFilled }

def tryFill (incomingIsBid : Bool) (incoming resting : CreateOrderRequestClob) :
    Except Fault (Option (Nat × Nat)) :=
  let pair := bidAsk incomingIsBid incoming resting
  if sameTrader incoming resting then .ok none
  else
    match executionPrice resting incoming with
    | none => .ok none
    | some price => do
      let upper := min (remainingShares incoming) (remainingShares resting)
      let fill ← maxFill pair.1 pair.2 price upper
      .ok (fill.map fun fill => (fill, price))

def matchLoop (now : Nat) (incomingIsBid : Bool) :
    List CreateOrderRequestClob → CreateOrderRequestClob → Except Fault Pass
  | [], incoming => .ok ⟨[], incoming, [], [], []⟩
  | resting :: rest, incoming => do
    let pair := bidAsk incomingIsBid incoming resting
    if remainingShares incoming = 0 then .ok ⟨resting :: rest, incoming, [], [], []⟩
    else if ← expired resting now then do
      let pass ← matchLoop now incomingIsBid rest incoming
      .ok { pass with dropped := resting :: pass.dropped }
    else if !crosses pair.1 pair.2 then .ok ⟨resting :: rest, incoming, [], [], []⟩
    else
      match ← tryFill incomingIsBid incoming resting with
      | none => do
        let pass ← matchLoop now incomingIsBid rest incoming
        .ok { pass with resting := resting :: pass.resting }
      | some (fill, price) =>
        match ← splitCollateral fill price with
        -- the `expect` after `max_fill`
        | none => .error .invalidSplit
        | some (yes, no) => do
          let clobMatch : ClobMatch :=
            ⟨incoming.marketId, some pair.1, some pair.2, fill, price, yes, no⟩
          let resting ← filledBy resting fill yes no
          let incoming ← filledBy incoming fill yes no
          let pass ← matchLoop now incomingIsBid rest incoming
          if remainingShares resting = 0 then
            .ok { pass with
              matches_ := clobMatch :: pass.matches_
              filled := resting :: pass.filled }
          else
            .ok { pass with
              matches_ := clobMatch :: pass.matches_
              resting := resting :: pass.resting }

def add (book : Book) (incoming : CreateOrderRequestClob) (now : Nat) :
    Except Fault Added := do
  if (← expired incoming now) || remainingShares incoming == 0 then
    .ok ⟨book, [], [incoming], []⟩
  else if isBid incoming then do
    let pass ← matchLoop now true (sortAsks book.asks) incoming
    .ok ⟨⟨restRemainder book.bids pass.incoming, pass.resting⟩, pass.matches_, pass.dropped,
      completed pass.incoming ++ pass.filled⟩
  else do
    let pass ← matchLoop now false (sortBids book.bids) incoming
    .ok ⟨⟨pass.resting, restRemainder book.asks pass.incoming⟩, pass.matches_, pass.dropped,
      completed pass.incoming ++ pass.filled⟩

def step (book : Book) : BookOp → Except Fault Book
  | .add order now => (·.book) <$> add book order now
  | .remove txId => .ok (book.remove txId).1

def run : Book → List BookOp → Except Fault Book
  | book, [] => .ok book
  | book, op :: ops => do
    let book ← step book op
    run book ops

end Machine

/-! ## Room in a word -/

def WordFields (o : CreateOrderRequestClob) : Prop :=
  ∀ v ∈ [o.chainId, o.limitYesPrice, o.qtyShares, o.collateralCap, o.deadline, o.sharesFilled,
    o.collateralFilled], v < 2 ^ 64

instance (o : CreateOrderRequestClob) : Decidable (WordFields o) :=
  inferInstanceAs (Decidable (∀ v ∈ _, _))

/-- Everything that can still be filled keeps the collateral below the last word. -/
def Headroom (o : CreateOrderRequestClob) : Prop :=
  o.qtyShares < 2 ^ 64 ∧ o.collateralFilled + remainingShares o < 2 ^ 64 - 1

section Arithmetic

variable {bid ask incoming resting : CreateOrderRequestClob} {fill price upper now : Nat}

theorem yesLeg_le (hprice : price < priceScale) : fill * price / priceScale ≤ fill := by
  apply Nat.div_le_of_le_mul
  rw [Nat.mul_comm]
  exact Nat.mul_le_mul_right fill hprice.le

theorem yesLeg_eq (hfill : fill < 2 ^ 64) (hprice : price < priceScale) :
    Machine.yesLeg fill price = .ok (fill * price / priceScale) := by
  have hproduct : fill * price ≤ fill * 1000000 := Nat.mul_le_mul_left fill hprice.le
  have hyes : fill * price / priceScale ≤ fill := yesLeg_le hprice
  simp only [Machine.yesLeg, bind_ok_iff, checkedMul_ok_iff, Except.ok.injEq]
  refine ⟨_, ⟨by omega, rfl⟩, ?_⟩
  exact Nat.mod_eq_of_lt (by omega)

theorem machine_splitCollateral (hfill : fill < 2 ^ 64) :
    Machine.splitCollateral fill price = .ok (splitCollateral fill price) := by
  unfold Machine.splitCollateral splitCollateral
  split
  · rfl
  · next h =>
    have hprice : price < priceScale := by omega
    have hle : fill * price / priceScale ≤ fill := yesLeg_le hprice
    rw [yesLeg_eq hfill hprice, ok_bind, Machine.sub64, checkedSub, if_pos hle, ok_bind]

theorem machine_capsOk (hfill : fill < 2 ^ 64) (hprice : price < priceScale) :
    Machine.capsOk bid ask price fill = .ok (capsOk bid ask price fill) := by
  have hle : fill * price / priceScale ≤ fill := yesLeg_le hprice
  rw [Machine.capsOk, yesLeg_eq hfill hprice, ok_bind, Machine.sub64, checkedSub, if_pos hle,
    ok_bind, capsOk]

/-- The search stays in its word as long as the interval is shorter than the word. -/
theorem machine_searchLoop {p : Nat → Bool} {q : Nat → Except Fault Bool}
    {fuel lo hi : Nat} (hfuel : hi ≤ lo + fuel) (hhi : hi < 2 ^ 64 - 1)
    (hq : ∀ n, n < 2 ^ 64 → q n = .ok (p n)) :
    Machine.searchLoop q fuel lo hi = .ok (searchLoop p fuel lo hi) := by
  induction fuel generalizing lo hi with
  | zero => rw [Machine.searchLoop, if_neg (by omega), searchLoop]
  | succ fuel ih =>
      rw [Machine.searchLoop, searchLoop]
      by_cases hlt : lo < hi
      · rw [if_pos hlt, if_pos hlt, Machine.sub64, checkedSub, if_pos hlt.le, ok_bind,
          Machine.add64, checkedAdd, if_pos (by omega), ok_bind, Machine.add64, checkedAdd,
          if_pos (by omega), ok_bind, hq _ (by omega), ok_bind]
        by_cases hp : p (lo + (hi - lo + 1) / 2) = true
        · rw [if_pos hp, if_pos hp]
          exact ih (by omega) hhi
        · rw [if_neg hp, if_neg hp, Machine.sub64, checkedSub, if_pos (by omega), ok_bind]
          exact ih (by omega) (by omega)
      · rw [if_neg hlt, if_neg hlt]

theorem machine_maxFill (hupper : upper < 2 ^ 64 - 1) :
    Machine.maxFill bid ask price upper = .ok (maxFill bid ask price upper) := by
  unfold Machine.maxFill maxFill
  split
  · rfl
  · next h =>
    have hprice : price < priceScale := by omega
    have hcaps (n : Nat) (hn : n < 2 ^ 64) :
        Machine.capsOk bid ask price n = .ok (capsOk bid ask price n) := machine_capsOk hn hprice
    have hsearch : Machine.searchLoop (Machine.capsOk bid ask price) upper
        (if capsOk bid ask price upper then upper else 0) upper = .ok (searchLoop
          (capsOk bid ask price) upper (if capsOk bid ask price upper then upper else 0) upper) :=
      machine_searchLoop (by omega) hupper hcaps
    have hle := (searchLoop_sound (capsOk bid ask price) _ upper
      (if capsOk bid ask price upper then upper else 0) upper (Or.inl rfl) (by split <;> omega)).2
    rw [hcaps upper (by omega), ok_bind, hsearch, ok_bind, machine_splitCollateral (by omega),
      ok_bind]

theorem machine_expired (hnow : now < 2 ^ 63) (order : CreateOrderRequestClob) :
    Machine.expired order now = .ok (expired order now) := by
  have hmargin : deadlineMarginSecs = 30 := rfl
  rw [Machine.expired, Machine.add64, checkedAdd, if_pos (by omega), ok_bind, expired]

theorem legCollateral_le {order : CreateOrderRequestClob} {yes no : Nat}
    (hyes : yes ≤ fill) (hno : no ≤ fill) : legCollateral order yes no ≤ fill := by
  unfold legCollateral
  split
  · exact hyes
  · exact hno

/-- A fill within the remaining shares neither leaves the word nor uses up the headroom. -/
theorem Headroom.filledBy {order : CreateOrderRequestClob} (h : Headroom order) {yes no : Nat}
    (hpos : 0 < fill) (hfill : fill ≤ remainingShares order) (hyes : yes ≤ fill)
    (hno : no ≤ fill) :
    Machine.filledBy order fill yes no = .ok (filledBy order fill yes no) ∧
      Headroom (Clob.filledBy order fill yes no) := by
  have hleg : legCollateral order yes no ≤ fill := legCollateral_le hyes hno
  obtain ⟨hqty, hroom⟩ := h
  unfold remainingShares at hfill hroom
  constructor
  · rw [Machine.filledBy, Machine.add64, checkedAdd, if_pos (by omega), ok_bind, Machine.add64,
      checkedAdd, if_pos (by omega), ok_bind, Clob.filledBy]
  · refine ⟨hqty, ?_⟩
    show order.collateralFilled + legCollateral order yes no +
      (order.qtyShares - (order.sharesFilled + fill)) < 2 ^ 64 - 1
    omega

theorem machine_tryFill {incomingIsBid : Bool} (hincoming : Headroom incoming) :
    Machine.tryFill incomingIsBid incoming resting =
      .ok (tryFill incomingIsBid incoming resting) := by
  unfold Machine.tryFill tryFill
  simp only
  split
  · rfl
  · cases hprice : executionPrice resting incoming with
    | none => rfl
    | some price =>
        have hupper : min (remainingShares incoming) (remainingShares resting) < 2 ^ 64 - 1 := by
          have hroom := hincoming.2
          omega
        simp only [machine_maxFill hupper, ok_bind, Option.bind_eq_bind, Option.bind_some]
        cases maxFill _ _ price _ with
        | none => rfl
        | some fill => rfl

end Arithmetic

/-! ## The loop and the book -/

/-- A pass in machine words is the pass, and leaves headroom everywhere. -/
theorem machine_matchLoop {now : Nat} (hnow : now < 2 ^ 63) (incomingIsBid : Bool)
    (opposite : List CreateOrderRequestClob) (incoming : CreateOrderRequestClob)
    (hopposite : ∀ o ∈ opposite, Headroom o) (hincoming : Headroom incoming) :
    Machine.matchLoop now incomingIsBid opposite incoming =
        .ok (matchLoop now incomingIsBid opposite incoming) ∧
      (∀ o ∈ (matchLoop now incomingIsBid opposite incoming).resting, Headroom o) ∧
      Headroom (matchLoop now incomingIsBid opposite incoming).incoming := by
  induction opposite generalizing incoming with
  | nil => exact ⟨rfl, fun o ho => absurd ho List.not_mem_nil, hincoming⟩
  | cons resting rest ih =>
      have hresting := hopposite resting List.mem_cons_self
      have hrest : ∀ o ∈ rest, Headroom o := fun o ho => hopposite o (List.mem_cons_of_mem _ ho)
      rw [Machine.matchLoop, matchLoop]
      simp only [machine_expired hnow, machine_tryFill hincoming, ok_bind]
      by_cases hempty : remainingShares incoming = 0
      · simp only [hempty, if_true]
        exact ⟨trivial, hopposite, hincoming⟩
      by_cases hexpired : expired resting now = true
      · obtain ⟨hpass, hkeep, hin⟩ := ih incoming hrest hincoming
        simp only [if_neg hempty, if_pos hexpired, hpass, ok_bind]
        exact ⟨trivial, hkeep, hin⟩
      by_cases hcrosses : (!crosses (bidAsk incomingIsBid incoming resting).1
          (bidAsk incomingIsBid incoming resting).2) = true
      · simp only [if_neg hempty, if_neg hexpired, if_pos hcrosses]
        exact ⟨trivial, hopposite, hincoming⟩
      simp only [if_neg hempty, if_neg hexpired, if_neg hcrosses]
      cases hfill : tryFill incomingIsBid incoming resting with
      | none =>
          obtain ⟨hpass, hkeep, hin⟩ := ih incoming hrest hincoming
          simp only [hpass, ok_bind]
          refine ⟨trivial, ?_, hin⟩
          intro o ho
          rcases List.mem_cons.mp ho with rfl | ho
          · exact hresting
          · exact hkeep o ho
      | some found =>
          obtain ⟨fill, price⟩ := found
          obtain ⟨_, _, hmax⟩ := tryFill_eq_some hfill
          obtain ⟨hupper, _, yes, no, hsplit⟩ := maxFill_eq_some hmax
          obtain ⟨hyes, hno, _, _, _, hlt, hpos⟩ := splitCollateral_eq_some hsplit
          rw [Nat.le_min] at hupper
          have hyesLe : yes ≤ fill := hyes ▸ yesLeg_le hlt
          have hnoLe : no ≤ fill := hno ▸ Nat.sub_le _ _
          have hword : fill < 2 ^ 64 := by
            have hroom := hincoming.2
            omega
          obtain ⟨hrestingOk, hrestingRoom⟩ := hresting.filledBy hpos hupper.2 hyesLe hnoLe
          obtain ⟨hincomingOk, hincomingRoom⟩ := hincoming.filledBy hpos hupper.1 hyesLe hnoLe
          obtain ⟨hpass, hkeep, hin⟩ := ih _ hrest hincomingRoom
          simp only [machine_splitCollateral hword, hsplit, ok_bind, hrestingOk, hincomingOk, hpass,
            Option.getD_some]
          split
          · exact ⟨rfl, hkeep, hin⟩
          · refine ⟨rfl, ?_, hin⟩
            intro o ho
            rcases List.mem_cons.mp ho with rfl | ho
            · exact hrestingRoom
            · exact hkeep o ho

def Book.Roomy (book : Book) : Prop := ∀ o ∈ book.bids ++ book.asks, Headroom o

theorem Book.Roomy.add {book : Book} (h : book.Roomy) {incoming : CreateOrderRequestClob}
    (hincoming : Headroom incoming) {now : Nat} (hnow : now < 2 ^ 63) :
    Machine.add book incoming now = .ok (book.add incoming now) ∧
      (book.add incoming now).book.Roomy := by
  have hbids : ∀ o ∈ book.bids, Headroom o := fun o ho => h o (List.mem_append_left _ ho)
  have hasks : ∀ o ∈ book.asks, Headroom o := fun o ho => h o (List.mem_append_right _ ho)
  unfold Machine.add Book.add
  simp only [machine_expired hnow, ok_bind, Bool.or_eq_true, beq_iff_eq]
  by_cases hdrop : expired incoming now = true ∨ remainingShares incoming = 0
  · simp only [if_pos hdrop]
    exact ⟨trivial, h⟩
  simp only [if_neg hdrop]
  by_cases hbid : isBid incoming = true
  · obtain ⟨hpass, hkeep, hin⟩ := machine_matchLoop hnow true (sortAsks book.asks) incoming
      (fun o ho => hasks o ((sortAsks_perm book.asks).mem_iff.mp ho)) hincoming
    simp only [if_pos hbid, hpass, ok_bind]
    refine ⟨trivial, ?_⟩
    intro o ho
    rcases List.mem_append.mp ho with ho | ho
    · rcases mem_restRemainder ho with ho | ⟨rfl, _⟩
      · exact hbids o ho
      · exact hin
    · exact hkeep o ho
  · obtain ⟨hpass, hkeep, hin⟩ := machine_matchLoop hnow false (sortBids book.bids) incoming
      (fun o ho => hbids o ((sortBids_perm book.bids).mem_iff.mp ho)) hincoming
    simp only [if_neg hbid, hpass, ok_bind]
    refine ⟨trivial, ?_⟩
    intro o ho
    rcases List.mem_append.mp ho with ho | ho
    · exact hkeep o ho
    · rcases mem_restRemainder ho with ho | ⟨rfl, _⟩
      · exact hasks o ho
      · exact hin

theorem Book.Roomy.remove {book : Book} (h : book.Roomy) (txId : Str) :
    (book.remove txId).1.Roomy := by
  intro o ho
  apply h o
  obtain ⟨_, _, hbids, hasks⟩ := book.remove_perm txId
  rw [List.mem_append] at ho ⊢
  rcases ho with ho | ho
  · exact Or.inl (hbids.subset ho)
  · exact Or.inr (hasks.subset ho)

/-! ## Runs -/

/-- What an operation brings into the book: 64-bit words, a clock that counts seconds in an
`i64`, and an order that leaves room for what it can still be filled with. -/
def BookOp.fits : BookOp → Prop
  | .add order now => WordFields order ∧
      order.collateralFilled + remainingShares order < 2 ^ 64 - 1 ∧ now < 2 ^ 63
  | .remove _ => True

theorem machine_run_from {h : History} (hroomy : h.book.Roomy) {ops : List BookOp}
    (hops : ∀ op ∈ ops, op.fits) :
    Machine.run h.book ops = .ok (ops.foldl History.step h).book := by
  induction ops generalizing h with
  | nil => rfl
  | cons op ops ih =>
      have hrest : ∀ op ∈ ops, op.fits := fun op' hop' => hops op' (List.mem_cons_of_mem _ hop')
      rw [Machine.run, List.foldl_cons]
      cases op with
      | add order now =>
          obtain ⟨hwords, hroom, hnow⟩ := hops _ List.mem_cons_self
          have hqty : order.qtyShares < 2 ^ 64 := hwords _ (by simp)
          obtain ⟨hadd, hnext⟩ := hroomy.add ⟨hqty, hroom⟩ hnow
          have hstep : Machine.step h.book (.add order now) =
              .ok (h.step (.add order now)).book := by
            rw [Machine.step, hadd]
            rfl
          rw [hstep, ok_bind]
          exact ih hnext hrest
      | remove txId =>
          have hstep : Machine.step h.book (.remove txId) = .ok (h.step (.remove txId)).book := rfl
          rw [hstep, ok_bind]
          exact ih (hroomy.remove txId) hrest

/-- In machine words a run of a book terminates without a fault and is the run in unbounded
numbers, whatever the orders carry otherwise and however often a tx id comes in. -/
theorem machine_run_eq (ops : List BookOp) (hops : ∀ op ∈ ops, op.fits) :
    Machine.run ⟨[], []⟩ ops = .ok (runBook ops).book := by
  apply machine_run_from (h := History.empty)
  · intro o ho
    exact absurd ho List.not_mem_nil
  · exact hops

theorem machine_run_sample : Machine.run ⟨[], []⟩ sampleOps = .ok (runBook sampleOps).book := by
  apply machine_run_eq
  intro op hop
  simp only [sampleOps, List.mem_cons, List.not_mem_nil, or_false] at hop
  rcases hop with rfl | rfl | rfl | rfl
  all_goals simp only [BookOp.fits]
  all_goals decide

/-- A SELL that comes in with its collateral word used up. -/
def spentOps : List BookOp :=
  [.add { sampleOrder "a" "t1" 0 1 500000 100 with collateralFilled := 2 ^ 64 - 1 } 10,
    .add (sampleOrder "b" "t2" 0 0 600000 100) 20]

/-- Two orders over the whole word, one of them with a cap that the search has to find. -/
def wideOps : List BookOp :=
  [.add (sampleOrder "a" "t1" 0 1 500000 (2 ^ 64 - 1)) 10,
    .add { sampleOrder "b" "t2" 0 0 600000 (2 ^ 64 - 1) with collateralCap := 10 } 20]

/-- Orders of 64-bit words can take an addition to the filled collateral out of the word, and the
interval of the search, which then never narrows. -/
theorem machine_run_faults :
    (∀ o ∈ addedOrders spentOps ++ addedOrders wideOps, WordFields o) ∧
      Machine.run ⟨[], []⟩ spentOps = .error .overflow ∧
      Machine.run ⟨[], []⟩ wideOps = .error .overflow := by
  refine ⟨by decide, ?_, ?_⟩
  · rfl
  · rfl

end PrismBackend.Clob
