import Mathlib.Data.List.Induction
import PrismBackend.Lib.Entries
import PrismBackend.Clob.Fills

/-!
# CLOB: conservation of orders

Runs of a book under `add` and `remove`. Every order ever added is at each moment
in exactly one place, in the state its fills have brought it to.
-/

namespace PrismBackend.Clob

open PrismBackend.Lib

/-! ## Runs of a book -/

inductive BookOp
  | add (order : CreateOrderRequestClob) (now : Nat)
  | remove (txId : Str)
  deriving DecidableEq

/-- A book with everything that has happened in it: the matches in order of emission, and the
orders that left it filled, removed, or dropped at some time. -/
structure History where
  book : Book
  matches_ : List ClobMatch
  filled : List CreateOrderRequestClob
  removed : List CreateOrderRequestClob
  dropped : List (CreateOrderRequestClob × Nat)

def History.empty : History := ⟨⟨[], []⟩, [], [], [], []⟩

/-- The order that `remove` takes out. -/
def Book.find (book : Book) (txId : Str) : Option CreateOrderRequestClob :=
  (book.bids.find? (·.txId == txId)).or (book.asks.find? (·.txId == txId))

def History.step (h : History) : BookOp → History
  | .add order now =>
    let added := h.book.add order now
    { h with
      book := added.book
      matches_ := h.matches_ ++ added.matches_
      filled := h.filled ++ added.filled
      dropped := h.dropped ++ added.dropped.map (·, now) }
  | .remove txId =>
    { h with
      book := (h.book.remove txId).1
      removed := h.removed ++ (h.book.find txId).toList }

def runBook (ops : List BookOp) : History := ops.foldl History.step History.empty

def addedOrders (ops : List BookOp) : List CreateOrderRequestClob :=
  ops.filterMap fun
    | .add order _ => some order
    | .remove _ => none

/-- Every order that is somewhere: resting, removed, dropped or filled. -/
def History.orders (h : History) : List CreateOrderRequestClob :=
  h.book.bids ++ (h.book.asks ++ (h.removed ++ (h.dropped.map Prod.fst ++ h.filled)))

/-- The state of a book in terms of the orders added so far. -/
structure Conserved (ops : List BookOp) (h : History) : Prop where
  conserved : h.orders.Perm ((addedOrders ops).map (afterFills · h.matches_))
  bids : ∀ o ∈ h.book.bids, isBid o = true ∧ 0 < remainingShares o
  asks : ∀ o ∈ h.book.asks, isBid o = false ∧ 0 < remainingShares o
  filled : ∀ o ∈ h.filled, remainingShares o = 0
  dropped : ∀ p ∈ h.dropped, expired p.1 p.2 = true
  removed : ∀ o ∈ h.removed, BookOp.remove o.txId ∈ ops
  fair : ∀ before m after, h.matches_ = before ++ m :: after →
    ∃ b ∈ addedOrders ops, ∃ a ∈ addedOrders ops,
      Fair (afterFills b before) (afterFills a before) m

theorem addedOrders_append (ops ops' : List BookOp) :
    addedOrders (ops ++ ops') = addedOrders ops ++ addedOrders ops' :=
  List.filterMap_append

theorem map_txId_afterFills (orders : List CreateOrderRequestClob) (ms : List ClobMatch) :
    (orders.map (afterFills · ms)).map (·.txId) = orders.map (·.txId) := by
  rw [List.map_map]
  exact List.map_congr_left fun o _ => afterFills_txId o ms

namespace Conserved

variable {ops : List BookOp} {h : History}

/-- The ids in the book and beside it are the ids that were added. -/
theorem ids (hc : Conserved ops h) :
    (h.orders.map (·.txId)).Perm ((addedOrders ops).map (·.txId)) := by
  have hmap := hc.conserved.map (·.txId)
  rwa [map_txId_afterFills] at hmap

theorem exists_added (hc : Conserved ops h) {o : CreateOrderRequestClob} (ho : o ∈ h.orders) :
    ∃ o₀ ∈ addedOrders ops, afterFills o₀ h.matches_ = o :=
  List.mem_map.mp (hc.conserved.mem_iff.mp ho)

theorem not_involved (hc : Conserved ops h) {txId : Str}
    (hnew : txId ∉ (addedOrders ops).map (·.txId)) :
    ∀ m ∈ h.matches_, m.involves txId = false := by
  intro m hm
  obtain ⟨before, after, hsplit⟩ := List.append_of_mem hm
  obtain ⟨b, hb, a, ha, hfair⟩ := hc.fair before m after hsplit
  rw [Bool.eq_false_iff]
  intro hinvolved
  rw [hfair.involves_iff, afterFills_txId, afterFills_txId] at hinvolved
  apply hnew
  rcases hinvolved with heq | heq
  · exact heq ▸ List.mem_map_of_mem hb
  · exact heq ▸ List.mem_map_of_mem ha

end Conserved

/-! ## Adding an order -/

/-- A pass leaves alone the orders that are neither incoming nor opposite. -/
theorem PassSpec.map_eq {now : Nat} {incomingIsBid : Bool} {incoming : CreateOrderRequestClob}
    {opposite orders : List CreateOrderRequestClob} {pass : Pass}
    (hpass : PassSpec now incomingIsBid opposite incoming pass)
    (hincoming : ∀ o ∈ orders, o.txId ≠ incoming.txId)
    (hopposite : ∀ o ∈ orders, ∀ o' ∈ opposite, o.txId ≠ o'.txId) :
    orders.map (afterFills · pass.matches_) = orders := by
  calc orders.map (afterFills · pass.matches_) = orders.map id :=
        List.map_congr_left fun o ho =>
          afterFills_of_not_involved (hpass.not_involved (hincoming o ho) (hopposite o ho))
    _ = orders := List.map_id orders

theorem PassSpec.orders {now : Nat} {incomingIsBid : Bool} {incoming : CreateOrderRequestClob}
    {same opposite others : List CreateOrderRequestClob} {pass : Pass}
    (hpass : PassSpec now incomingIsBid opposite incoming pass)
    (hnodup : ((incoming :: (same ++ (opposite ++ others))).map (·.txId)).Nodup) :
    ((same ++ (opposite ++ others)).map (afterFills · pass.matches_)).Perm
      (same ++ (pass.resting ++ (pass.dropped ++ pass.filled) ++ others)) := by
  simp only [List.map_cons, List.map_append, List.nodup_cons, List.nodup_append,
    List.mem_append, List.mem_map, not_or, not_exists, not_and] at hnodup
  obtain ⟨⟨hsameNew, _, hothersNew⟩, _, ⟨_, _, hothers⟩, hsame⟩ := hnodup
  have hsameKeep : same.map (afterFills · pass.matches_) = same := by
    refine hpass.map_eq hsameNew ?_
    intro o ho o' ho'
    exact hsame _ ⟨o, ho, rfl⟩ _ (Or.inl ⟨o', ho', rfl⟩)
  have hothersKeep : others.map (afterFills · pass.matches_) = others := by
    refine hpass.map_eq hothersNew ?_
    intro o ho o' ho'
    exact (hothers _ ⟨o', ho', rfl⟩ _ ⟨o, ho, rfl⟩).symm
  rw [List.map_append, List.map_append, hsameKeep, hothersKeep]
  exact (hpass.conserved.symm.append_right others).append_left same

/-- The matches of a pass are fair in terms of the orders added so far. -/
theorem Conserved.fair_append {ops : List BookOp} {h : History} (hc : Conserved ops h)
    {now : Nat} {incomingIsBid : Bool} {incoming : CreateOrderRequestClob}
    {opposite : List CreateOrderRequestClob} {pass : Pass}
    (hpass : PassSpec now incomingIsBid opposite incoming pass)
    (hnew : incoming.txId ∉ (addedOrders ops).map (·.txId))
    (hopposite : ∀ o ∈ opposite, o ∈ h.orders) :
    ∀ before m after, h.matches_ ++ pass.matches_ = before ++ m :: after →
      ∃ b ∈ addedOrders ops ++ [incoming], ∃ a ∈ addedOrders ops ++ [incoming],
        Fair (afterFills b before) (afterFills a before) m := by
  intro before m after hsplit
  rcases List.append_eq_append_iff.mp hsplit with ⟨mid, hbefore, hrest⟩ | ⟨mid, hbefore, hrest⟩
  · -- the match is one of the pass
    obtain ⟨o, ho, hfair⟩ := hpass.fair mid m after hrest
    obtain ⟨o₀, ho₀, hstate⟩ := hc.exists_added (hopposite o ho)
    have hincoming : afterFills incoming before = afterFills incoming mid := by
      rw [hbefore, afterFills_append, afterFills_of_not_involved (hc.not_involved hnew)]
    have hopp : afterFills o₀ before = afterFills o mid := by
      rw [hbefore, afterFills_append, hstate]
    rw [← hincoming, ← hopp] at hfair
    have hlast : incoming ∈ addedOrders ops ++ [incoming] := by simp
    have hfirst := List.mem_append_left [incoming] ho₀
    cases incomingIsBid with
    | true => exact ⟨incoming, hlast, o₀, hfirst, hfair⟩
    | false => exact ⟨o₀, hfirst, incoming, hlast, hfair⟩
  · cases mid with
    | nil =>
        -- the boundary: the match is the first of the pass
        rw [List.append_nil] at hbefore
        rw [List.nil_append] at hrest
        obtain ⟨o, ho, hfair⟩ := hpass.fair [] m after hrest.symm
        obtain ⟨o₀, ho₀, hstate⟩ := hc.exists_added (hopposite o ho)
        have hincoming : afterFills incoming before = incoming := by
          rw [← hbefore]
          exact afterFills_of_not_involved (hc.not_involved hnew)
        rw [hbefore] at hstate
        rw [afterFills_nil, afterFills_nil, ← hincoming, ← hstate] at hfair
        have hlast : incoming ∈ addedOrders ops ++ [incoming] := by simp
        have hfirst := List.mem_append_left [incoming] ho₀
        cases incomingIsBid with
        | true => exact ⟨incoming, hlast, o₀, hfirst, hfair⟩
        | false => exact ⟨o₀, hfirst, incoming, hlast, hfair⟩
    | cons m' mid =>
        rw [List.cons_append, List.cons.injEq] at hrest
        obtain ⟨rfl, _⟩ := hrest
        obtain ⟨b, hb, a, ha, hfair⟩ := hc.fair before m mid hbefore
        exact ⟨b, List.mem_append_left _ hb, a, List.mem_append_left _ ha, hfair⟩

/-- The incoming order and the orders of a pass are the orders added, after its matches. -/
theorem Conserved.conserved_append {ops : List BookOp} {h : History} (hc : Conserved ops h)
    {now : Nat} {incomingIsBid : Bool} {incoming : CreateOrderRequestClob}
    {same opposite others : List CreateOrderRequestClob} {pass : Pass}
    (hpass : PassSpec now incomingIsBid opposite incoming pass)
    (hdistinct : ((addedOrders ops ++ [incoming]).map (·.txId)).Nodup)
    (horders : (same ++ (opposite ++ others)).Perm h.orders) :
    (pass.incoming :: (same ++ (pass.resting ++ (pass.dropped ++ pass.filled) ++ others))).Perm
      ((addedOrders ops ++ [incoming]).map (afterFills · (h.matches_ ++ pass.matches_))) := by
  have hnew : incoming.txId ∉ (addedOrders ops).map (·.txId) := by
    rw [List.map_append, List.nodup_append] at hdistinct
    intro hmem
    exact hdistinct.2.2 _ hmem _ (by simp) rfl
  have hnodup : ((incoming :: (same ++ (opposite ++ others))).map (·.txId)).Nodup := by
    have hperm := (horders.map (·.txId)).trans hc.ids
    rw [List.map_cons, List.nodup_cons, hperm.mem_iff, hperm.nodup_iff]
    rw [List.map_append, List.nodup_append] at hdistinct
    exact ⟨hnew, hdistinct.1⟩
  have hold : (addedOrders ops).map (afterFills · (h.matches_ ++ pass.matches_)) =
      ((addedOrders ops).map (afterFills · h.matches_)).map (afterFills · pass.matches_) := by
    rw [List.map_map]
    exact List.map_congr_left fun o _ => afterFills_append o _ _
  have hincoming : afterFills incoming (h.matches_ ++ pass.matches_) = pass.incoming := by
    rw [afterFills_append, afterFills_of_not_involved (hc.not_involved hnew), hpass.incoming_eq]
  rw [List.map_append, List.map_singleton, hold, hincoming]
  have hwalk := hpass.orders hnodup
  have hstart := (hc.conserved.symm.trans horders.symm).map (afterFills · pass.matches_)
  have hall := (hstart.trans hwalk).symm
  exact (hall.cons pass.incoming).trans (List.perm_append_singleton _ _).symm

theorem sortAsks_perm (asks : List CreateOrderRequestClob) : (sortAsks asks).Perm asks :=
  List.perm_insertionSort _ asks

theorem sortBids_perm (bids : List CreateOrderRequestClob) : (sortBids bids).Perm bids :=
  List.perm_insertionSort _ bids

theorem restRemainder_perm (side : List CreateOrderRequestClob)
    (incoming : CreateOrderRequestClob) :
    (restRemainder side incoming ++ completed incoming).Perm (incoming :: side) := by
  unfold restRemainder completed
  by_cases h : remainingShares incoming = 0
  · rw [if_pos h, if_pos h]
    exact List.perm_append_singleton _ _
  · rw [if_neg h, if_neg h, List.append_nil]
    exact List.perm_append_singleton _ _

theorem mem_restRemainder {side : List CreateOrderRequestClob}
    {incoming o : CreateOrderRequestClob} (ho : o ∈ restRemainder side incoming) :
    o ∈ side ∨ (o = incoming ∧ 0 < remainingShares incoming) := by
  unfold restRemainder at ho
  split at ho
  · exact Or.inl ho
  · next hrest =>
    rcases List.mem_append.mp ho with ho | ho
    · exact Or.inl ho
    · exact Or.inr ⟨List.mem_singleton.mp ho, Nat.pos_of_ne_zero hrest⟩

theorem completed_full {incoming o : CreateOrderRequestClob} (ho : o ∈ completed incoming) :
    remainingShares o = 0 := by
  unfold completed at ho
  split at ho
  · next hfull =>
    rw [List.mem_singleton.mp ho]
    exact hfull
  · exact absurd ho List.not_mem_nil

theorem new_of_distinct {ops : List BookOp} {incoming : CreateOrderRequestClob}
    (hdistinct : ((addedOrders ops ++ [incoming]).map (·.txId)).Nodup) :
    incoming.txId ∉ (addedOrders ops).map (·.txId) := by
  rw [List.map_append, List.nodup_append] at hdistinct
  intro hmem
  exact hdistinct.2.2 _ hmem _ (by simp) rfl

theorem Conserved.add_dropped {ops : List BookOp} {h : History} (hc : Conserved ops h)
    {incoming : CreateOrderRequestClob} {now : Nat}
    (hdistinct : ((addedOrders ops ++ [incoming]).map (·.txId)).Nodup)
    (hexpired : expired incoming now = true) :
    Conserved (ops ++ [.add incoming now])
      { h with dropped := h.dropped ++ [(incoming, now)] } := by
  have hadded : addedOrders (ops ++ [.add incoming now]) = addedOrders ops ++ [incoming] :=
    addedOrders_append ops _
  have hself := afterFills_of_not_involved (hc.not_involved (new_of_distinct hdistinct))
  refine ⟨?_, hc.bids, hc.asks, hc.filled, ?_, ?_, ?_⟩
  · rw [hadded, List.map_append, List.map_singleton, List.perm_iff_count]
    intro o
    have hcount := hc.conserved.count_eq o
    simp only [History.orders, List.count_append, List.map_append, hself] at hcount ⊢
    simp only [List.map_cons, List.map_nil]
    omega
  · intro p hp
    rcases List.mem_append.mp hp with hp | hp
    · exact hc.dropped p hp
    · rw [List.mem_singleton.mp hp]
      exact hexpired
  · intro o ho
    exact List.mem_append_left _ (hc.removed o ho)
  · rw [hadded]
    intro before m after hsplit
    obtain ⟨b, hb, a, ha, hfair⟩ := hc.fair before m after hsplit
    exact ⟨b, List.mem_append_left _ hb, a, List.mem_append_left _ ha, hfair⟩

/-- What `add` leaves when the incoming order is matched against one side. -/
theorem Conserved.add_pass {ops : List BookOp} {h : History} (hc : Conserved ops h)
    {incoming : CreateOrderRequestClob} {now : Nat} {incomingIsBid : Bool}
    {same opposite : List CreateOrderRequestClob} {pass : Pass} {book : Book}
    (hdistinct : ((addedOrders ops ++ [incoming]).map (·.txId)).Nodup)
    (hpass : PassSpec now incomingIsBid opposite incoming pass)
    (hsides : (same ++ opposite).Perm (h.book.bids ++ h.book.asks))
    (hbook : (book.bids ++ book.asks).Perm (restRemainder same pass.incoming ++ pass.resting))
    (hbids : ∀ o ∈ book.bids, isBid o = true ∧ 0 < remainingShares o)
    (hasks : ∀ o ∈ book.asks, isBid o = false ∧ 0 < remainingShares o) :
    Conserved (ops ++ [.add incoming now])
      { book := book
        matches_ := h.matches_ ++ pass.matches_
        filled := h.filled ++ (completed pass.incoming ++ pass.filled)
        removed := h.removed
        dropped := h.dropped ++ pass.dropped.map (·, now) } := by
  have hadded : addedOrders (ops ++ [.add incoming now]) = addedOrders ops ++ [incoming] :=
    addedOrders_append ops _
  have horders : (same ++ (opposite ++
      (h.removed ++ (h.dropped.map Prod.fst ++ h.filled)))).Perm h.orders := by
    have hperm := hsides.append_right (h.removed ++ (h.dropped.map Prod.fst ++ h.filled))
    rwa [List.append_assoc, List.append_assoc] at hperm
  refine ⟨?_, hbids, hasks, ?_, ?_, ?_, ?_⟩
  · rw [hadded]
    refine List.Perm.trans ?_ (hc.conserved_append hpass hdistinct horders)
    rw [List.perm_iff_count]
    intro o
    have hcountBook := hbook.count_eq o
    have hcountRest := (restRemainder_perm same pass.incoming).count_eq o
    simp only [History.orders, List.count_append, List.count_cons, List.map_append, List.map_map,
      Function.comp_def, List.map_id'] at hcountBook hcountRest ⊢
    omega
  · intro o ho
    rcases List.mem_append.mp ho with ho | ho
    · exact hc.filled o ho
    · rcases List.mem_append.mp ho with ho | ho
      · exact completed_full ho
      · exact hpass.filled_full o ho
  · intro p hp
    rcases List.mem_append.mp hp with hp | hp
    · exact hc.dropped p hp
    · obtain ⟨o, ho, rfl⟩ := List.mem_map.mp hp
      exact hpass.dropped_expired o ho
  · intro o ho
    exact List.mem_append_left _ (hc.removed o ho)
  · rw [hadded]
    refine hc.fair_append hpass (new_of_distinct hdistinct) ?_
    intro o ho
    exact horders.mem_iff.mp (List.mem_append_right _ (List.mem_append_left _ ho))

/-- The incoming order's id is new to a side of the book. -/
theorem Conserved.nodup_side {ops : List BookOp} {h : History} (hc : Conserved ops h)
    {incoming : CreateOrderRequestClob} {side side' : List CreateOrderRequestClob}
    (hdistinct : ((addedOrders ops ++ [incoming]).map (·.txId)).Nodup)
    (hperm : side'.Perm side) (hsub : side.Sublist h.orders) :
    (incoming.txId :: side'.map (·.txId)).Nodup := by
  have hids := hc.ids
  have hnodup : (h.orders.map (·.txId)).Nodup := by
    rw [List.map_append, List.nodup_append] at hdistinct
    exact hids.nodup_iff.mpr hdistinct.1
  rw [List.nodup_cons, (hperm.map _).mem_iff, (hperm.map _).nodup_iff]
  refine ⟨?_, hnodup.sublist (hsub.map _)⟩
  intro hmem
  exact new_of_distinct hdistinct (hids.mem_iff.mp ((hsub.map _).subset hmem))

theorem PassSpec.direction {now : Nat} {incomingIsBid : Bool} {incoming : CreateOrderRequestClob}
    {opposite : List CreateOrderRequestClob} {pass : Pass}
    (hpass : PassSpec now incomingIsBid opposite incoming pass)
    (hdirection : ∀ o ∈ opposite, isBid o = !incomingIsBid) :
    ∀ o ∈ pass.resting, isBid o = !incomingIsBid := by
  intro o ho
  have hmem := hpass.conserved.mem_iff.mp (List.mem_append_left _ ho)
  obtain ⟨o₀, ho₀, rfl⟩ := List.mem_map.mp hmem
  rw [afterFills_isBid]
  exact hdirection o₀ ho₀

theorem Conserved.add {ops : List BookOp} {h : History} (hc : Conserved ops h)
    {incoming : CreateOrderRequestClob} {now : Nat}
    (hdistinct : ((addedOrders ops ++ [incoming]).map (·.txId)).Nodup)
    (hopen : incoming.sharesFilled < incoming.qtyShares) :
    Conserved (ops ++ [.add incoming now]) (h.step (.add incoming now)) := by
  simp only [History.step, Book.add]
  by_cases hdrop : expired incoming now = true ∨ remainingShares incoming = 0
  · have hexpired : expired incoming now = true := by
      rcases hdrop with hexpired | hzero
      · exact hexpired
      · unfold remainingShares at hzero
        omega
    rw [if_pos hdrop]
    simp only [List.append_nil, List.map_singleton]
    exact hc.add_dropped hdistinct hexpired
  rw [if_neg hdrop]
  have hbidsSub : h.book.bids.Sublist h.orders := List.sublist_append_left _ _
  have hasksSub : h.book.asks.Sublist h.orders :=
    (List.sublist_append_left _ _).trans (List.sublist_append_right _ _)
  by_cases hbid : isBid incoming = true
  · rw [if_pos hbid]
    have hdirection : ∀ o ∈ sortAsks h.book.asks, isBid o = !true :=
      fun o ho => (hc.asks o ((sortAsks_perm _).mem_iff.mp ho)).1
    have hpass := matchLoop_spec now true (sortAsks h.book.asks) incoming
      (hc.nodup_side hdistinct (sortAsks_perm _) hasksSub) hbid hdirection
      (fun o ho => (hc.asks o ((sortAsks_perm _).mem_iff.mp ho)).2)
    refine hc.add_pass hdistinct hpass ((sortAsks_perm _).append_left _) (List.Perm.refl _) ?_ ?_
    · intro o ho
      rcases mem_restRemainder ho with ho | ⟨rfl, hrest⟩
      · exact hc.bids o ho
      · rw [hpass.incoming_eq] at hrest ⊢
        exact ⟨(afterFills_isBid _ _).trans hbid, hrest⟩
    · intro o ho
      exact ⟨hpass.direction hdirection o ho, hpass.resting_open o ho⟩
  · rw [if_neg hbid]
    have hdirection : ∀ o ∈ sortBids h.book.bids, isBid o = !false :=
      fun o ho => (hc.bids o ((sortBids_perm _).mem_iff.mp ho)).1
    have hpass := matchLoop_spec now false (sortBids h.book.bids) incoming
      (hc.nodup_side hdistinct (sortBids_perm _) hbidsSub) (Bool.eq_false_iff.mpr hbid) hdirection
      (fun o ho => (hc.bids o ((sortBids_perm _).mem_iff.mp ho)).2)
    refine hc.add_pass hdistinct hpass ?_ List.perm_append_comm ?_ ?_
    · exact List.perm_append_comm.trans ((sortBids_perm _).append_right _)
    · intro o ho
      exact ⟨hpass.direction hdirection o ho, hpass.resting_open o ho⟩
    · intro o ho
      rcases mem_restRemainder ho with ho | ⟨rfl, hrest⟩
      · exact hc.asks o ho
      · rw [hpass.incoming_eq] at hrest ⊢
        exact ⟨(afterFills_isBid _ _).trans (Bool.eq_false_iff.mpr hbid), hrest⟩

/-! ## Removing an order -/

theorem Book.remove_found (book : Book) (txId : Str) :
    (book.remove txId).2 = (book.find txId).isSome := by
  unfold Book.remove Book.find
  rw [Option.isSome_or, List.isSome_find?, List.isSome_find?]
  cases hbid : book.bids.any (·.txId == txId) with
  | true => simp
  | false => cases hask : book.asks.any (·.txId == txId) <;> simp

/-- Removing takes at most the order with the id out of the book. -/
theorem Book.remove_perm (book : Book) (txId : Str) :
    (book.bids ++ book.asks).Perm
      ((book.find txId).toList ++ ((book.remove txId).1.bids ++ (book.remove txId).1.asks)) ∧
    (∀ o ∈ book.find txId, o.txId = txId) ∧
    (book.remove txId).1.bids.Sublist book.bids ∧ (book.remove txId).1.asks.Sublist book.asks := by
  unfold Book.remove Book.find
  cases hbid : book.bids.find? (·.txId == txId) with
  | some o =>
      have hany : book.bids.any (·.txId == txId) = true := by
        rw [← List.isSome_find?, hbid]
        rfl
      rw [if_pos hany]
      refine ⟨(eraseP_perm hbid).append_right book.asks, ?_, List.eraseP_sublist,
        List.Sublist.refl _⟩
      intro o' ho'
      have hfound := List.find?_some hbid
      rw [Option.some_or, Option.mem_some] at ho'
      subst ho'
      exact beq_iff_eq.mp hfound
  | none =>
      have hany : ¬book.bids.any (·.txId == txId) = true := by
        rw [← List.isSome_find?, hbid]
        exact Bool.false_ne_true
      rw [if_neg hany, Option.none_or]
      cases hask : book.asks.find? (·.txId == txId) with
      | some o =>
          have hanyAsk : book.asks.any (·.txId == txId) = true := by
            rw [← List.isSome_find?, hask]
            rfl
          rw [if_pos hanyAsk]
          refine ⟨?_, ?_, List.Sublist.refl _, List.eraseP_sublist⟩
          · exact ((eraseP_perm hask).append_left book.bids).trans List.perm_middle
          · intro o' ho'
            have hfound := List.find?_some hask
            rw [Option.mem_some] at ho'
            subst ho'
            exact beq_iff_eq.mp hfound
      | none =>
          have hanyAsk : ¬book.asks.any (·.txId == txId) = true := by
            rw [← List.isSome_find?, hask]
            exact Bool.false_ne_true
          rw [if_neg hanyAsk]
          refine ⟨List.Perm.refl _, ?_, List.Sublist.refl _, List.Sublist.refl _⟩
          intro o' ho'
          exact absurd ho' (by simp)

theorem Conserved.remove {ops : List BookOp} {h : History} (hc : Conserved ops h) (txId : Str) :
    Conserved (ops ++ [.remove txId]) (h.step (.remove txId)) := by
  have hadded : addedOrders (ops ++ [.remove txId]) = addedOrders ops := by
    rw [addedOrders_append]
    exact List.append_nil _
  obtain ⟨hperm, hfound, hbids, hasks⟩ := h.book.remove_perm txId
  simp only [History.step]
  refine ⟨?_, fun o ho => hc.bids o (hbids.subset ho), fun o ho => hc.asks o (hasks.subset ho),
    hc.filled, hc.dropped, ?_, ?_⟩
  · rw [hadded]
    refine List.Perm.trans ?_ hc.conserved
    rw [List.perm_iff_count]
    intro o
    have hcount := hperm.count_eq o
    simp only [History.orders, List.count_append] at hcount ⊢
    omega
  · intro o ho
    rcases List.mem_append.mp ho with ho | ho
    · exact List.mem_append_left _ (hc.removed o ho)
    · rw [hfound o (Option.mem_toList.mp ho)]
      exact List.mem_append_right _ (List.mem_singleton.mpr rfl)
  · rw [hadded]
    exact hc.fair

/-! ## Whole runs -/

theorem conserved_empty : Conserved [] History.empty := by
  refine ⟨List.Perm.refl _, ?_, ?_, ?_, ?_, ?_, ?_⟩
  all_goals simp [History.empty]

theorem runBook_conserved (ops : List BookOp)
    (hdistinct : ((addedOrders ops).map (·.txId)).Nodup)
    (hopen : ∀ o ∈ addedOrders ops, o.sharesFilled < o.qtyShares) :
    Conserved ops (runBook ops) := by
  induction ops using List.reverseRecOn with
  | nil => exact conserved_empty
  | append_singleton ops op ih =>
      have hrun : runBook (ops ++ [op]) = (runBook ops).step op := by
        simp [runBook, List.foldl_append]
      rw [hrun]
      rw [addedOrders_append] at hdistinct hopen
      have hbefore := ih
        (by rw [List.map_append, List.nodup_append] at hdistinct; exact hdistinct.1)
        (fun o ho => hopen o (List.mem_append_left _ ho))
      cases op with
      | add incoming now =>
          exact hbefore.add hdistinct
            (hopen incoming (List.mem_append_right _ (by simp [addedOrders])))
      | remove txId => exact hbefore.remove txId

/-! ## Bounds of the fills -/

/-- Every match is fair between two of the orders in the states the matches before it left. -/
def FairRun (orders : List CreateOrderRequestClob) (ms : List ClobMatch) : Prop :=
  ∀ before m after, ms = before ++ m :: after → ∃ b ∈ orders, ∃ a ∈ orders,
    Fair (afterFills b before) (afterFills a before) m

theorem FairRun.init {orders : List CreateOrderRequestClob} {ms : List ClobMatch} {m : ClobMatch}
    (h : FairRun orders (ms ++ [m])) : FairRun orders ms := by
  intro before m' after hsplit
  exact h before m' (after ++ [m]) (by rw [hsplit]; simp)

theorem eq_of_txId {orders : List CreateOrderRequestClob}
    (hdistinct : (orders.map (·.txId)).Nodup) {o o' : CreateOrderRequestClob} (ho : o ∈ orders)
    (ho' : o' ∈ orders) (h : o.txId = o'.txId) : o = o' :=
  List.inj_on_of_nodup_map hdistinct ho ho' h

/-- What one fair match asks of an order that it names. -/
theorem FairRun.last {orders : List CreateOrderRequestClob} {ms : List ClobMatch}
    {m : ClobMatch} (h : FairRun orders (ms ++ [m])) (hdistinct : (orders.map (·.txId)).Nodup)
    {o : CreateOrderRequestClob} (ho : o ∈ orders) (hinvolved : m.involves o.txId = true) :
    m.fillShares ≤ remainingShares (afterFills o ms) ∧
      withinCap (afterFills o ms) m.yesCollateral m.noCollateral = true ∧
      legCollateral o m.yesCollateral m.noCollateral ≤ m.fillShares := by
  obtain ⟨b, hb, a, ha, hfair⟩ := h ms m [] rfl
  obtain ⟨hyes, hno, _, _, _, hlt, _⟩ := splitCollateral_eq_some hfair.split
  have hyesLe : m.yesCollateral ≤ m.fillShares := by
    rw [hyes]
    apply Nat.div_le_of_le_mul
    rw [Nat.mul_comm]
    exact Nat.mul_le_mul_right _ hlt.le
  have hleg : legCollateral o m.yesCollateral m.noCollateral ≤ m.fillShares := by
    unfold legCollateral
    split <;> omega
  rw [hfair.involves_iff, afterFills_txId, afterFills_txId] at hinvolved
  rcases hinvolved with heq | heq
  · obtain rfl := eq_of_txId hdistinct ho hb heq
    exact ⟨hfair.fill_le_bid, hfair.bid_cap, hleg⟩
  · obtain rfl := eq_of_txId hdistinct ho ha heq
    exact ⟨hfair.fill_le_ask, hfair.ask_cap, hleg⟩

theorem afterFills_concat (o : CreateOrderRequestClob) (ms : List ClobMatch) (m : ClobMatch) :
    afterFills o (ms ++ [m]) =
      if m.involves o.txId then
        filledBy (afterFills o ms) m.fillShares m.yesCollateral m.noCollateral
      else afterFills o ms := by
  rw [afterFills_append]
  simp only [afterFills, List.foldl_cons, List.foldl_nil, afterFill]
  rw [show (List.foldl afterFill o ms).txId = o.txId from afterFills_txId o ms]

theorem FairRun.shares_le {orders : List CreateOrderRequestClob} {ms : List ClobMatch}
    (h : FairRun orders ms) (hdistinct : (orders.map (·.txId)).Nodup)
    {o : CreateOrderRequestClob} (ho : o ∈ orders) (hstart : o.sharesFilled ≤ o.qtyShares) :
    (afterFills o ms).sharesFilled ≤ o.qtyShares := by
  induction ms using List.reverseRecOn with
  | nil => exact hstart
  | append_singleton ms m ih =>
      have hbefore := ih h.init
      rw [afterFills_concat]
      by_cases hinvolved : m.involves o.txId = true
      · have hlast := (h.last hdistinct ho hinvolved).1
        have hqty : (afterFills o ms).qtyShares = o.qtyShares := by rw [afterFills_eq]
        rw [if_pos hinvolved]
        simp only [filledBy, remainingShares, hqty] at hlast ⊢
        omega
      · rw [if_neg hinvolved]
        exact hbefore

theorem FairRun.collateral_le {orders : List CreateOrderRequestClob} {ms : List ClobMatch}
    (h : FairRun orders ms) (hdistinct : (orders.map (·.txId)).Nodup)
    {o : CreateOrderRequestClob} (ho : o ∈ orders) (hbuy : o.action = actionBuy)
    (hcap : o.collateralCap < 2 ^ 63) (hstart : o.collateralFilled ≤ o.collateralCap) :
    (afterFills o ms).collateralFilled ≤ o.collateralCap := by
  induction ms using List.reverseRecOn with
  | nil => exact hstart
  | append_singleton ms m ih =>
      rw [afterFills_concat]
      by_cases hinvolved : m.involves o.txId = true
      · have hlast := (h.last hdistinct ho hinvolved).2.1
        have haction : (afterFills o ms).action = actionBuy := by
          rw [afterFills_eq]
          exact hbuy
        have hcapSame : (afterFills o ms).collateralCap = o.collateralCap := by rw [afterFills_eq]
        rw [if_pos hinvolved]
        simp only [withinCap, haction, hcapSame, ne_eq, not_true_eq_false, false_or,
          decide_eq_true_eq, saturatingAdd] at hlast
        simp only [filledBy]
        omega
      · rw [if_neg hinvolved]
        exact ih h.init

theorem FairRun.collateral_add_remaining_le {orders : List CreateOrderRequestClob}
    {ms : List ClobMatch} (h : FairRun orders ms) (hdistinct : (orders.map (·.txId)).Nodup)
    {o : CreateOrderRequestClob} (ho : o ∈ orders) :
    (afterFills o ms).collateralFilled + remainingShares (afterFills o ms) ≤
      o.collateralFilled + remainingShares o := by
  induction ms using List.reverseRecOn with
  | nil => exact le_refl _
  | append_singleton ms m ih =>
      have hbefore := ih h.init
      rw [afterFills_concat]
      by_cases hinvolved : m.involves o.txId = true
      · obtain ⟨hfill, _, hleg⟩ := h.last hdistinct ho hinvolved
        have hside : legCollateral (afterFills o ms) m.yesCollateral m.noCollateral =
            legCollateral o m.yesCollateral m.noCollateral := by
          rw [afterFills_eq]
          rfl
        rw [if_pos hinvolved]
        simp only [filledBy, remainingShares, hside] at hbefore hfill ⊢
        omega
      · rw [if_neg hinvolved]
        exact hbefore

/-! ## Conservation -/

structure Admissible (o : CreateOrderRequestClob) : Prop where
  side : o.side = sideYes ∨ o.side = sideNo
  action : o.action = actionBuy ∨ o.action = actionSell
  qty_pos : 0 < o.qtyShares
  qty_lt : o.qtyShares < 2 ^ 63
  cap_lt : o.collateralCap < 2 ^ 63
  cap_pos : o.action = actionBuy → 0 < o.collateralCap
  limit_le : o.limitYesPrice ≤ priceScale
  bid_limit : isBid o = true → 0 < o.limitYesPrice
  ask_limit : isBid o = false → o.limitYesPrice < priceScale
  filled_lt : o.collateralFilled < 2 ^ 63

def occurrences (txId : Str) (orders : List CreateOrderRequestClob) : Nat :=
  (orders.map (·.txId)).count txId

/-- After any run: each order ever added is in exactly one place, in the state its matches have
brought it to, and what that place promises holds; its fills and legs add up, stay within its
quantity and, for a BUY that starts within its cap, within the cap; nobody trades with himself;
and every match carries both orders as they were just before it. -/
theorem book_conserves_orders (ops : List BookOp)
    (hdistinct : ((addedOrders ops).map (·.txId)).Nodup)
    (hadmissible : ∀ o ∈ addedOrders ops, Admissible o ∧ o.sharesFilled < o.qtyShares) :
    let h := runBook ops
    (∀ o ∈ addedOrders ops,
      occurrences o.txId h.book.bids + occurrences o.txId h.book.asks +
        occurrences o.txId h.filled + occurrences o.txId h.removed +
        occurrences o.txId (h.dropped.map Prod.fst) = 1) ∧
    (∀ r ∈ h.orders, ∃ o ∈ addedOrders ops, r = afterFills o h.matches_) ∧
    (∀ r ∈ h.book.bids, isBid r = true ∧ r.sharesFilled < r.qtyShares) ∧
    (∀ r ∈ h.book.asks, isBid r = false ∧ r.sharesFilled < r.qtyShares) ∧
    (∀ r ∈ h.filled, r.sharesFilled = r.qtyShares) ∧
    (∀ r ∈ h.removed, BookOp.remove r.txId ∈ ops) ∧
    (∀ p ∈ h.dropped, p.1.deadline ≤ p.2 + deadlineMarginSecs) ∧
    (∀ o ∈ addedOrders ops,
      (afterFills o h.matches_).sharesFilled = o.sharesFilled + filledShares o h.matches_ ∧
      (afterFills o h.matches_).sharesFilled ≤ o.qtyShares ∧
      (afterFills o h.matches_).collateralFilled =
        o.collateralFilled + filledCollateral o h.matches_ ∧
      (afterFills o h.matches_).collateralFilled < 2 ^ 64 ∧
      (o.action = actionBuy → o.collateralFilled ≤ o.collateralCap →
        (afterFills o h.matches_).collateralFilled ≤ o.collateralCap)) ∧
    (∀ before m after, h.matches_ = before ++ m :: after →
      ∃ b ∈ addedOrders ops, ∃ a ∈ addedOrders ops,
        m.bid = some (afterFills b before) ∧ m.ask = some (afterFills a before) ∧
        isBid b = true ∧ isBid a = false ∧ sameTrader b a = false) := by
  have hc := runBook_conserved ops hdistinct fun o ho => (hadmissible o ho).2
  have hrun : FairRun (addedOrders ops) (runBook ops).matches_ := hc.fair
  refine ⟨?_, ?_, ?_, ?_, ?_, hc.removed, ?_, ?_, ?_⟩
  · intro o ho
    have hcount := hc.ids.count_eq o.txId
    rw [List.count_eq_one_of_mem hdistinct (List.mem_map_of_mem ho)] at hcount
    simp only [History.orders, List.map_append, List.count_append] at hcount
    unfold occurrences
    omega
  · intro r hr
    obtain ⟨o, ho, heq⟩ := hc.exists_added hr
    exact ⟨o, ho, heq.symm⟩
  · intro r hr
    obtain ⟨hbid, hrest⟩ := hc.bids r hr
    unfold remainingShares at hrest
    exact ⟨hbid, by omega⟩
  · intro r hr
    obtain ⟨hask, hrest⟩ := hc.asks r hr
    unfold remainingShares at hrest
    exact ⟨hask, by omega⟩
  · intro r hr
    have hfull := hc.filled r hr
    have hmem : r ∈ (runBook ops).orders := by
      simp only [History.orders, List.mem_append]
      tauto
    obtain ⟨o, ho, rfl⟩ := hc.exists_added hmem
    have hle := hrun.shares_le hdistinct ho (hadmissible o ho).2.le
    have hqty : (afterFills o (runBook ops).matches_).qtyShares = o.qtyShares := by
      rw [afterFills_eq]
    unfold remainingShares at hfull
    omega
  · intro p hp
    exact of_decide_eq_true (hc.dropped p hp)
  · intro o ho
    obtain ⟨hfields, hopen⟩ := hadmissible o ho
    have hwidth := hrun.collateral_add_remaining_le hdistinct ho
    have hqty := hfields.qty_lt
    have hfilled := hfields.filled_lt
    refine ⟨by rw [afterFills_eq], hrun.shares_le hdistinct ho hopen.le,
      by rw [afterFills_eq], ?_, ?_⟩
    · have hrest : remainingShares o ≤ o.qtyShares := Nat.sub_le _ _
      omega
    · intro hbuy hcap
      exact hrun.collateral_le hdistinct ho hbuy hfields.cap_lt hcap
  · intro before m after hsplit
    obtain ⟨b, hb, a, ha, hfair⟩ := hrun before m after hsplit
    refine ⟨b, hb, a, ha, hfair.bid_eq, hfair.ask_eq, ?_, ?_, ?_⟩
    · rw [← afterFills_isBid b before]
      exact hfair.bid_isBid
    · rw [← afterFills_isBid a before]
      exact hfair.ask_isBid
    · have htraders := hfair.traders
      simp only [sameTrader, afterFills_eq] at htraders ⊢
      exact htraders

/-- An order of trader `trader` with the fields that matching reads. -/
def sampleOrder (txId trader : String) (side action limitYesPrice qtyShares : Nat) :
    CreateOrderRequestClob where
  txId := txId.toList
  net := "testnet".toList
  marketId := "m".toList
  accountId := trader.toList
  sig := []
  publicKey := []
  evmAddress := trader.toList
  keyType := 1
  chainId := 296
  verifyingContract := []
  side := side
  action := action
  limitYesPrice := limitYesPrice
  qtyShares := qtyShares
  collateralCap := qtyShares
  deadline := 1000
  sharesFilled := 0
  collateralFilled := 0

/-- A resting bid, two asks that fill it, and the removal of what is left of the second. -/
def sampleOps : List BookOp :=
  [.add (sampleOrder "a" "t1" 0 0 600000 100) 10, .add (sampleOrder "b" "t2" 0 1 500000 40) 20,
    .add (sampleOrder "c" "t3" 1 0 550000 70) 30, .remove "c".toList]

theorem sampleOps_admissible :
    ∀ o ∈ addedOrders sampleOps, Admissible o ∧ o.sharesFilled < o.qtyShares := by
  simp only [addedOrders, sampleOps, List.filterMap_cons, List.filterMap_nil, List.forall_mem_cons]
  refine ⟨?_, ?_, ?_, fun _ h => absurd h List.not_mem_nil⟩
  all_goals
    refine ⟨⟨?_, ?_, ?_, ?_, ?_, ?_, ?_, ?_, ?_, ?_⟩, ?_⟩
    all_goals decide

theorem book_conserves_orders_sample :
    (runBook sampleOps).matches_.length = 2 ∧
    ∀ r ∈ (runBook sampleOps).filled, r.sharesFilled = r.qtyShares :=
  ⟨by decide, (book_conserves_orders sampleOps (by decide) sampleOps_admissible).2.2.2.2.1⟩

end PrismBackend.Clob
