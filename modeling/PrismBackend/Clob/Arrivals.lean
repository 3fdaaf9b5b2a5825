import PrismBackend.Lib.StableSort
import PrismBackend.Clob.Conservation

/-!
# CLOB: the order of arrival

The book once more, with the number of the operation that brought each order in.
The code keeps no such number: erasing it gives the book back, and with it what
the code leaves to the position of an order in its list can be stated.
-/

namespace PrismBackend.Clob

open PrismBackend.Lib

structure Arrived where
  order : CreateOrderRequestClob
  arrival : Nat
  deriving DecidableEq

/-- What one pass leaves, with each fill beside the resting order as it was found. -/
structure Walk where
  resting : List Arrived
  incoming : CreateOrderRequestClob
  fills : List (Arrived × ClobMatch)

/-- `matchLoop` over orders that carry their arrival. -/
def walk (now : Nat) (incomingIsBid : Bool) :
    List Arrived → CreateOrderRequestClob → Walk
  | [], incoming => ⟨[], incoming, []⟩
  | r :: rest, incoming =>
    let pair := bidAsk incomingIsBid incoming r.order
    if remainingShares incoming = 0 then ⟨r :: rest, incoming, []⟩
    else if expired r.order now then walk now incomingIsBid rest incoming
    else if !crosses pair.1 pair.2 then ⟨r :: rest, incoming, []⟩
    else
      match tryFill incomingIsBid incoming r.order with
      | none =>
        let w := walk now incomingIsBid rest incoming
        { w with resting := r :: w.resting }
      | some (fill, price) =>
        let m := fillMatch incomingIsBid incoming r.order fill price
        let left := filledBy r.order fill m.yesCollateral m.noCollateral
        let w := walk now incomingIsBid rest
          (filledBy incoming fill m.yesCollateral m.noCollateral)
        if remainingShares left = 0 then { w with fills := (r, m) :: w.fills }
        else { w with resting := ⟨left, r.arrival⟩ :: w.resting, fills := (r, m) :: w.fills }

structure ArrivedBook where
  bids : List Arrived
  asks : List Arrived

namespace ArrivedBook

def erase (book : ArrivedBook) : Book := ⟨book.bids.map (·.order), book.asks.map (·.order)⟩

/-- The side that an incoming order is matched against. -/
def opposite (book : ArrivedBook) (incomingIsBid : Bool) : List Arrived :=
  if incomingIsBid then book.asks else book.bids

def same (book : ArrivedBook) (incomingIsBid : Bool) : List Arrived :=
  book.opposite !incomingIsBid

def ofSides (incomingIsBid : Bool) (same opposite : List Arrived) : ArrivedBook :=
  if incomingIsBid then ⟨same, opposite⟩ else ⟨opposite, same⟩

end ArrivedBook

/-- The first limit is as good as the second for an incoming order. -/
def notWorse (incomingIsBid : Bool) (a b : Arrived) : Prop :=
  if incomingIsBid then a.order.limitYesPrice ≤ b.order.limitYesPrice
  else b.order.limitYesPrice ≤ a.order.limitYesPrice

instance (incomingIsBid : Bool) : DecidableRel (notWorse incomingIsBid) :=
  fun a b => inferInstanceAs (Decidable (if incomingIsBid = true then
    a.order.limitYesPrice ≤ b.order.limitYesPrice
    else b.order.limitYesPrice ≤ a.order.limitYesPrice))

def sortOpposite (incomingIsBid : Bool) (side : List Arrived) : List Arrived :=
  side.insertionSort (notWorse incomingIsBid)

def restArrived (side : List Arrived) (incoming : CreateOrderRequestClob) (arrival : Nat) :
    List Arrived :=
  if remainingShares incoming = 0 then side else side ++ [⟨incoming, arrival⟩]

def ArrivedBook.pass (book : ArrivedBook) (incoming : CreateOrderRequestClob) (now : Nat) : Walk :=
  walk now (isBid incoming) (sortOpposite (isBid incoming) (book.opposite (isBid incoming)))
    incoming

/-- `Book.add` as operation number `arrival`: the book and the fills. -/
def ArrivedBook.add (book : ArrivedBook) (incoming : CreateOrderRequestClob) (now arrival : Nat) :
    ArrivedBook × List (Arrived × ClobMatch) :=
  if expired incoming now ∨ remainingShares incoming = 0 then (book, [])
  else
    let w := book.pass incoming now
    (.ofSides (isBid incoming) (restArrived (book.same (isBid incoming)) w.incoming arrival)
      w.resting, w.fills)

def ArrivedBook.remove (book : ArrivedBook) (txId : Str) : ArrivedBook :=
  if book.bids.any (·.order.txId == txId) then
    ⟨book.bids.eraseP (·.order.txId == txId), book.asks⟩
  else if book.asks.any (·.order.txId == txId) then
    ⟨book.bids, book.asks.eraseP (·.order.txId == txId)⟩
  else book

/-- The book after some operations, and how many they were. -/
def arrivedStep (state : ArrivedBook × Nat) : BookOp → ArrivedBook × Nat
  | .add order now => ((state.1.add order now state.2).1, state.2 + 1)
  | .remove txId => (state.1.remove txId, state.2 + 1)

def arrivedRun (ops : List BookOp) : ArrivedBook := (ops.foldl arrivedStep (⟨[], []⟩, 0)).1

/-! ## Erasing the numbers -/

theorem walk_erase (now : Nat) (incomingIsBid : Bool) (side : List Arrived)
    (incoming : CreateOrderRequestClob) :
    let w := walk now incomingIsBid side incoming
    let pass := matchLoop now incomingIsBid (side.map (·.order)) incoming
    w.resting.map (·.order) = pass.resting ∧ w.incoming = pass.incoming ∧
      w.fills.map (·.2) = pass.matches_ := by
  induction side generalizing incoming with
  | nil => exact ⟨rfl, rfl, rfl⟩
  | cons r rest ih =>
      simp only [List.map_cons, walk, matchLoop]
      by_cases hdone : remainingShares incoming = 0
      · simp only [if_pos hdone]
        exact ⟨List.map_cons, trivial, List.map_nil⟩
      by_cases hexpired : expired r.order now = true
      · simp only [if_neg hdone, if_pos hexpired]
        exact ih incoming
      by_cases hcrosses : (!crosses (bidAsk incomingIsBid incoming r.order).1
          (bidAsk incomingIsBid incoming r.order).2) = true
      · simp only [if_neg hdone, if_neg hexpired, if_pos hcrosses]
        exact ⟨List.map_cons, trivial, List.map_nil⟩
      simp only [if_neg hdone, if_neg hexpired, if_neg hcrosses]
      cases hfill : tryFill incomingIsBid incoming r.order with
      | none =>
          obtain ⟨hresting, hincoming, hfills⟩ := ih incoming
          exact ⟨congrArg (r.order :: ·) hresting, hincoming, hfills⟩
      | some found =>
          obtain ⟨hresting, hincoming, hfills⟩ := ih (filledBy incoming found.1
            (fillMatch incomingIsBid incoming r.order found.1 found.2).yesCollateral
            (fillMatch incomingIsBid incoming r.order found.1 found.2).noCollateral)
          by_cases hfull : remainingShares (filledBy r.order found.1
              (fillMatch incomingIsBid incoming r.order found.1 found.2).yesCollateral
              (fillMatch incomingIsBid incoming r.order found.1 found.2).noCollateral) = 0
          · have hlegs : remainingShares (filledBy r.order found.1
                ((splitCollateral found.1 found.2).getD (0, 0)).1
                ((splitCollateral found.1 found.2).getD (0, 0)).2) = 0 := hfull
            simp only [if_pos hfull, if_pos hlegs]
            exact ⟨hresting, hincoming, congrArg (_ :: ·) hfills⟩
          · have hlegs : ¬remainingShares (filledBy r.order found.1
                ((splitCollateral found.1 found.2).getD (0, 0)).1
                ((splitCollateral found.1 found.2).getD (0, 0)).2) = 0 := hfull
            simp only [if_neg hfull, if_neg hlegs]
            exact ⟨congrArg (_ :: ·) hresting, hincoming, congrArg (_ :: ·) hfills⟩

theorem sortOpposite_erase (side : List Arrived) :
    (sortOpposite true side).map (·.order) = sortAsks (side.map (·.order)) ∧
      (sortOpposite false side).map (·.order) = sortBids (side.map (·.order)) := by
  constructor
  · exact List.map_insertionSort _ _ _ _ fun a _ b _ => Iff.rfl
  · exact List.map_insertionSort _ _ _ _ fun a _ b _ => by simp [notWorse]

theorem restArrived_erase (side : List Arrived) (incoming : CreateOrderRequestClob)
    (arrival : Nat) :
    (restArrived side incoming arrival).map (·.order) =
      restRemainder (side.map (·.order)) incoming := by
  unfold restArrived restRemainder
  split
  · rfl
  · exact List.map_append

theorem ArrivedBook.add_erase (book : ArrivedBook) (incoming : CreateOrderRequestClob)
    (now arrival : Nat) :
    (book.add incoming now arrival).1.erase = (book.erase.add incoming now).book ∧
      (book.add incoming now arrival).2.map (·.2) = (book.erase.add incoming now).matches_ := by
  unfold ArrivedBook.add Book.add
  by_cases hdrop : expired incoming now = true ∨ remainingShares incoming = 0
  · simp only [if_pos hdrop]
    exact ⟨trivial, List.map_nil⟩
  simp only [if_neg hdrop]
  cases hbid : isBid incoming with
  | true =>
      obtain ⟨hresting, hincoming, hfills⟩ :=
        walk_erase now true (sortOpposite true book.asks) incoming
      rw [(sortOpposite_erase book.asks).1] at hresting hincoming hfills
      simp only [ArrivedBook.pass, ArrivedBook.opposite, ArrivedBook.same, ArrivedBook.ofSides,
        ArrivedBook.erase, hbid, if_true, Bool.not_true, Bool.false_eq_true, if_false,
        restArrived_erase, hresting, hincoming, hfills]
      exact ⟨trivial, trivial⟩
  | false =>
      obtain ⟨hresting, hincoming, hfills⟩ :=
        walk_erase now false (sortOpposite false book.bids) incoming
      rw [(sortOpposite_erase book.bids).2] at hresting hincoming hfills
      simp only [ArrivedBook.pass, ArrivedBook.opposite, ArrivedBook.same, ArrivedBook.ofSides,
        ArrivedBook.erase, hbid, Bool.not_false, if_true, Bool.false_eq_true, if_false,
        restArrived_erase, hresting, hincoming, hfills]
      exact ⟨trivial, trivial⟩

theorem ArrivedBook.remove_erase (book : ArrivedBook) (txId : Str) :
    (book.remove txId).erase = (book.erase.remove txId).1 := by
  have hany (side : List Arrived) :
      (side.map (·.order)).any (·.txId == txId) = side.any (·.order.txId == txId) :=
    List.any_map
  have herase (side : List Arrived) :
      (side.map (·.order)).eraseP (·.txId == txId) =
        (side.eraseP (·.order.txId == txId)).map (·.order) := List.eraseP_map
  unfold ArrivedBook.remove Book.remove ArrivedBook.erase
  simp only [hany, herase]
  split
  · rfl
  split
  · rfl
  · rfl

/-- Without its numbers the run is the run of the book. -/
theorem arrivedRun_erase (ops : List BookOp) : (arrivedRun ops).erase = (runBook ops).book := by
  have hfrom (state : ArrivedBook × Nat) (h : History) (hbook : state.1.erase = h.book) :
      (ops.foldl arrivedStep state).1.erase = (ops.foldl History.step h).book := by
    induction ops generalizing state h with
    | nil => exact hbook
    | cons op ops ih =>
        apply ih
        cases op with
        | add order now =>
            calc (arrivedStep state (.add order now)).1.erase
                = (state.1.erase.add order now).book := (state.1.add_erase order now state.2).1
              _ = (h.step (.add order now)).book := by rw [hbook]; rfl
        | remove txId =>
            calc (arrivedStep state (.remove txId)).1.erase
                = (state.1.erase.remove txId).1 := state.1.remove_erase txId
              _ = (h.step (.remove txId)).book := by rw [hbook]; rfl
  exact hfrom (⟨[], []⟩, 0) History.empty rfl

end PrismBackend.Clob
