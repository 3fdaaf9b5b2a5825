import PrismBackend.Lib.Entries
import PrismBackend.Lib.System
import PrismBackend.Clob.Registry
import PrismBackend.Clob.Whereabouts

/-!
# CLOB: calls side by side

`add_market`, `place_order` and `cancel_order` as several callers run them: each
acquisition of a lock is a step, and between two steps of one call come those of
the others. `add_market` looks a market up under the read lock and lets go of it
before it takes the write lock; the other two keep the read lock to their end.
-/

namespace PrismBackend.Clob

open PrismBackend.Lib

inductive CallKind
  | addMarket (marketId : Str)
  | placeOrder (order : CreateOrderRequestClob)
  | cancelOrder (marketId txId : Str)
  deriving DecidableEq

inductive Stage
  | start
  /- the map was read: `add_market` found no market, the others found theirs -/
  | passed
  /- what the call returned; none is an error -/
  | ended (result : Option Bool)
  deriving DecidableEq

structure ServiceCall where
  kind : CallKind
  stage : Stage
  deriving DecidableEq

def CallKind.key : CallKind → Str
  | .addMarket marketId => toAsciiLowercase marketId
  | .placeOrder order => toAsciiLowercase order.marketId
  | .cancelOrder marketId _ => toAsciiLowercase marketId

/-- Between the check of an `add_market` and its insert. -/
def ServiceCall.inWindow (key : Str) (c : ServiceCall) : Bool :=
  match c.kind with
  | .addMarket marketId => toAsciiLowercase marketId == key && c.stage == .passed
  | _ => false

/-- An `add_market` that came to its end. -/
def ServiceCall.added (key : Str) (c : ServiceCall) : Bool :=
  match c.kind, c.stage with
  | .addMarket marketId, .ended _ => toAsciiLowercase marketId == key
  | _, _ => false

/-- An `add_market` that reports that it created the market. -/
def ServiceCall.created (key : Str) (c : ServiceCall) : Bool :=
  match c.kind with
  | .addMarket marketId =>
    toAsciiLowercase marketId == key && c.stage == .ended (some true)
  | _ => false

/-- The order of a `place_order` that succeeded. -/
def ServiceCall.placed (key : Str) (c : ServiceCall) : Option CreateOrderRequestClob :=
  match c.kind with
  | .placeOrder order =>
    if toAsciiLowercase order.marketId = key ∧ c.stage = .ended (some true) then some order
    else none
  | _ => none

/-- A `cancel_order` that reports that it cancelled the order. -/
def ServiceCall.cancelled (key txId : Str) (c : ServiceCall) : Bool :=
  match c.kind with
  | .cancelOrder marketId txId' =>
    toAsciiLowercase marketId == key && txId' == txId && c.stage == .ended (some true)
  | _ => false

/-- A call that holds the read lock of the map between two steps. -/
def ServiceCall.holdsRead (c : ServiceCall) : Bool :=
  match c.kind with
  | .addMarket _ => false
  | _ => c.stage == .passed

/-- What one step of a call leaves: the service, its own stage, what it did to a book, and the
matches that it published. -/
structure Advanced where
  service : OrderBookService
  stage : Stage
  ops : List BookOp
  matches_ : List ClobMatch

/-- The next lock that a call acquires, and what it does under it. -/
def ServiceCall.advance (c : ServiceCall) (service : OrderBookService) (now : Nat) : Advanced :=
  match c.kind, c.stage with
  | .addMarket marketId, .start =>
    if (service.bookOf marketId).isSome then ⟨service, .ended (some false), [], []⟩
    else ⟨service, .passed, [], []⟩
  | .addMarket marketId, .passed =>
    ⟨service.setBook marketId (some ⟨[], []⟩), .ended (some true), [], []⟩
  | .placeOrder order, .start =>
    if (service.bookOf order.marketId).isSome then ⟨service, .passed, [], []⟩
    else ⟨service, .ended none, [], []⟩
  -- the read lock was kept, so the market that was found is still there
  | .placeOrder order, .passed =>
    let placed := service.placeOrder order now
    ⟨placed.1, .ended (some true), [.add order now], placed.2⟩
  | .cancelOrder marketId _, .start =>
    if (service.bookOf marketId).isSome then ⟨service, .passed, [], []⟩
    else ⟨service, .ended none, [], []⟩
  | .cancelOrder marketId txId, .passed =>
    let cancelled := service.cancelOrder marketId txId
    ⟨cancelled.1, .ended cancelled.2, [.remove txId], []⟩
  | _, .ended result => ⟨service, .ended result, [], []⟩

/-- The service, the calls, everything that was done to the books and the matches that were
published, both under the key of the market. The code keeps no such records. -/
structure SharedService where
  service : OrderBookService
  calls : List ServiceCall
  ops : List (Str × BookOp)
  matches_ : List (Str × ClobMatch)

def SharedService.new : SharedService := ⟨.new, [], [], []⟩

def SharedService.opsOf (s : SharedService) (key : Str) : List BookOp := entriesOf key s.ops

def SharedService.matchesOf (s : SharedService) (key : Str) : List ClobMatch :=
  entriesOf key s.matches_

def SharedService.placed (s : SharedService) (key : Str) : List CreateOrderRequestClob :=
  s.calls.filterMap (·.placed key)

def SharedService.resting (s : SharedService) (key : Str) : List CreateOrderRequestClob :=
  (s.service.orderBooks key).elim [] fun book => book.bids ++ book.asks

inductive CallEvent
  | begin (kind : CallKind)
  | advance (i : Nat) (now : Nat)

def SharedService.advance (s : SharedService) (i now : Nat) : SharedService :=
  match s.calls[i]? with
  | none => s
  | some c =>
    let done := c.advance s.service now
    ⟨done.service, s.calls.set i ⟨c.kind, done.stage⟩,
      s.ops ++ done.ops.map fun op => (c.kind.key, op),
      s.matches_ ++ done.matches_.map fun m => (c.kind.key, m)⟩

/-- The write lock is granted when nobody holds a read lock. -/
def SharedService.mayAdvance (s : SharedService) (i : Nat) : Bool :=
  match s.calls[i]? with
  | none => true
  | some c => !c.inWindow c.kind.key || s.calls.all (!·.holdsRead)

def sharedService : System SharedService CallEvent where
  next s
    | .begin kind => { s with calls := s.calls ++ [⟨kind, .start⟩] }
    | .advance i now => s.advance i now
  Allowed s
    | .begin _ => True
    | .advance i _ => s.mayAdvance i = true

/-- No `add_market` finds its market missing while another one for the same market is between its
check and its insert. -/
def SharedService.aloneInWindow (s : SharedService) : CallEvent → Bool
  | .begin _ => true
  | .advance i _ =>
    match s.calls[i]? with
    | some ⟨.addMarket marketId, .start⟩ =>
      (s.service.bookOf marketId).isSome ||
        s.calls.all fun c => !c.inWindow (toAsciiLowercase marketId)
    | _ => true

/-- Filled, cancelled, or expired when some order arrived. -/
def SharedService.Gone (s : SharedService) (key : Str) (o : CreateOrderRequestClob) : Prop :=
  remainingShares o = 0 ∨ (∃ c ∈ s.calls, c.cancelled key o.txId = true) ∨
    ∃ order now, .add order now ∈ s.opsOf key ∧ expired o now = true

/-- No book is replaced: a market that is there has what was done to it since it was created, and
nothing else. The orders that were placed rest, one for one, as the published matches left them,
but for those that are gone; and one `add_market` of those that came to their end created the
market. -/
structure SharedService.OrdersKept (s : SharedService) : Prop where
  fresh : ∀ key, ∀ c ∈ s.calls, c.inWindow key = true → s.service.orderBooks key = none
  books : ∀ key book, s.service.orderBooks key = some book → book = (runBook (s.opsOf key)).book
  adds : ∀ key, (s.placed key).Perm (addedOrders (s.opsOf key))
  resting : ∀ key, ∃ gone, TradedOrders (s.matchesOf key) (s.placed key) (s.resting key ++ gone) ∧
    ∀ o ∈ gone, s.Gone key o
  created : ∀ key, (∃ c ∈ s.calls, c.added key = true) →
    s.calls.countP (·.created key) = 1

/-! ## What a step keeps -/

/-- The calls, the books and the records belong together. -/
structure SharedService.Tracked (s : SharedService) : Prop where
  window : ∀ key, s.calls.countP (·.inWindow key) = 0 ∨
    (s.calls.countP (·.inWindow key) = 1 ∧ s.service.orderBooks key = none)
  created : ∀ key,
    s.calls.countP (·.created key) = if (s.service.orderBooks key).isSome then 1 else 0
  added : ∀ key, ∀ c ∈ s.calls, c.added key = true → (s.service.orderBooks key).isSome = true
  holds : ∀ c ∈ s.calls, c.holdsRead = true → (s.service.orderBooks c.kind.key).isSome = true
  books : ∀ key, (s.service.orderBooks key = none ∧ s.opsOf key = []) ∨
    s.service.orderBooks key = some (runBook (s.opsOf key)).book
  placed : ∀ key, (s.placed key).Perm (addedOrders (s.opsOf key))
  published : ∀ key, s.matchesOf key = (runBook (s.opsOf key)).matches_
  removed : ∀ key, ∀ o ∈ (runBook (s.opsOf key)).removed,
    0 < s.calls.countP (·.cancelled key o.txId)

section Steps

variable {s : SharedService} {i : Nat} {c c' : ServiceCall}

theorem tracked_new : SharedService.new.Tracked where
  window _ := Or.inl rfl
  created _ := rfl
  added _ _ hc := absurd hc List.not_mem_nil
  holds _ hc := absurd hc List.not_mem_nil
  books _ := Or.inl ⟨rfl, rfl⟩
  placed _ := List.Perm.refl []
  published _ := rfl
  removed _ _ ho := absurd ho List.not_mem_nil

theorem SharedService.Tracked.begin (h : s.Tracked) (kind : CallKind) :
    SharedService.Tracked { s with calls := s.calls ++ [⟨kind, .start⟩] } := by
  have hnone (p : ServiceCall → Bool) (hp : p ⟨kind, .start⟩ = false) :
      (s.calls ++ [ServiceCall.mk kind .start]).countP p = s.calls.countP p := by
    rw [List.countP_append, List.countP_singleton, hp]
    rfl
  have hstart (x : ServiceCall) (hx : x ∈ s.calls ++ [⟨kind, .start⟩]) :
      x ∈ s.calls ∨ x = ⟨kind, .start⟩ :=
    (List.mem_append.mp hx).imp_right List.mem_singleton.mp
  constructor
  · intro key
    dsimp only
    rw [hnone (·.inWindow key) (by cases kind <;> simp [ServiceCall.inWindow])]
    exact h.window key
  · intro key
    dsimp only
    rw [hnone (·.created key) (by cases kind <;> simp [ServiceCall.created])]
    exact h.created key
  · intro key x hx hadded
    rcases hstart x hx with hx | rfl
    · exact h.added key x hx hadded
    · cases kind <;> exact absurd hadded (by simp [ServiceCall.added])
  · intro x hx hholds
    rcases hstart x hx with hx | rfl
    · exact h.holds x hx hholds
    · cases kind <;> exact absurd hholds (by simp [ServiceCall.holdsRead])
  · exact h.books
  · intro key
    have hnew : ServiceCall.placed key ⟨kind, .start⟩ = none := by
      cases kind <;> simp [ServiceCall.placed]
    unfold SharedService.placed
    rw [List.filterMap_append, List.filterMap_cons_none hnew, List.filterMap_nil, List.append_nil]
    exact h.placed key
  · exact h.published
  · intro key o ho
    dsimp only
    rw [hnone (·.cancelled key o.txId) (by cases kind <;> simp [ServiceCall.cancelled])]
    exact h.removed key o ho

/-- What a call may come to be by a step that leaves the books alone. -/
structure Harmless (s : SharedService) (c c' : ServiceCall) : Prop where
  outside : ∀ key, c.inWindow key = false
  window : ∀ key, c'.inWindow key = true →
    s.calls.countP (·.inWindow key) = 0 ∧ s.service.orderBooks key = none
  created : ∀ key, c'.created key = c.created key
  added : ∀ key, c'.added key = true → (s.service.orderBooks key).isSome = true
  holds : c'.holdsRead = true → (s.service.orderBooks c'.kind.key).isSome = true
  placed : ∀ key, c'.placed key = c.placed key
  cancelled : ∀ key txId, c'.cancelled key txId = c.cancelled key txId

theorem SharedService.Tracked.check (h : s.Tracked) (hc : s.calls[i]? = some c)
    (hharmless : Harmless s c c') :
    SharedService.Tracked { s with calls := s.calls.set i c' } := by
  have hmem (x : ServiceCall) (hx : x ∈ s.calls.set i c') : x ∈ s.calls ∨ x = c' :=
    List.mem_or_eq_of_mem_set hx
  constructor
  · intro key
    have hcount := countP_set_add hc c' (·.inWindow key)
    dsimp only at hcount ⊢
    cases hwindow : c'.inWindow key with
    | false =>
        rw [countP_set_of_eq hc (hwindow.trans (hharmless.outside key).symm)]
        exact h.window key
    | true =>
        rw [hwindow, hharmless.outside key, (hharmless.window key hwindow).1] at hcount
        exact Or.inr ⟨hcount, (hharmless.window key hwindow).2⟩
  · intro key
    dsimp only
    rw [countP_set_of_eq hc (hharmless.created key)]
    exact h.created key
  · intro key x hx hadded
    rcases hmem x hx with hx | rfl
    · exact h.added key x hx hadded
    · exact hharmless.added key hadded
  · intro x hx hholds
    rcases hmem x hx with hx | rfl
    · exact h.holds x hx hholds
    · exact hharmless.holds hholds
  · exact h.books
  · intro key
    have hperm := filterMap_set_perm hc c' (·.placed key)
    rw [hharmless.placed key, List.perm_append_left_iff] at hperm
    exact hperm.trans (h.placed key)
  · exact h.published
  · intro key o ho
    dsimp only
    rw [countP_set_of_eq hc (hharmless.cancelled key o.txId)]
    exact h.removed key o ho

/-- The insert of an `add_market` that is alone between its check and here. -/
theorem SharedService.Tracked.insert (h : s.Tracked) {marketId : Str}
    (hc : s.calls[i]? = some ⟨.addMarket marketId, .passed⟩) :
    SharedService.Tracked ⟨s.service.setBook marketId (some ⟨[], []⟩),
      s.calls.set i ⟨.addMarket marketId, .ended (some true)⟩, s.ops, s.matches_⟩ := by
  have hwindow :
      ServiceCall.inWindow (toAsciiLowercase marketId) ⟨.addMarket marketId, .passed⟩ = true := by
    simp [ServiceCall.inWindow]
  have hmissing : s.service.orderBooks (toAsciiLowercase marketId) = none := by
    rcases h.window (toAsciiLowercase marketId) with hzero | hone
    · exact absurd hwindow (List.countP_eq_zero.mp hzero _ (List.mem_of_getElem? hc))
    · exact hone.2
  have hmem (x : ServiceCall) (hx : x ∈ s.calls.set i ⟨.addMarket marketId, .ended (some true)⟩) :
      x ∈ s.calls ∨ x = ⟨.addMarket marketId, .ended (some true)⟩ := List.mem_or_eq_of_mem_set hx
  have hsome (key : Str) (hkey : (s.service.orderBooks key).isSome = true) :
      ((s.service.setBook marketId (some ⟨[], []⟩)).orderBooks key).isSome = true := by
    rw [OrderBookService.setBook_orderBooks]
    split
    · rfl
    · exact hkey
  constructor
  · intro key
    dsimp only
    rw [OrderBookService.setBook_orderBooks]
    by_cases hkey : key = toAsciiLowercase marketId
    · subst hkey
      have hcount := countP_set_add hc ⟨.addMarket marketId, .ended (some true)⟩
        (·.inWindow (toAsciiLowercase marketId))
      rw [hwindow, if_pos rfl, if_neg (by simp [ServiceCall.inWindow])] at hcount
      have hone := h.window (toAsciiLowercase marketId)
      exact Or.inl (by omega)
    · rw [if_neg hkey, countP_set_of_eq hc (by simp [ServiceCall.inWindow, Ne.symm hkey])]
      exact h.window key
  · intro key
    dsimp only
    rw [OrderBookService.setBook_orderBooks]
    by_cases hkey : key = toAsciiLowercase marketId
    · subst hkey
      have hcount := countP_set_add hc ⟨.addMarket marketId, .ended (some true)⟩
        (·.created (toAsciiLowercase marketId))
      have hold := h.created (toAsciiLowercase marketId)
      rw [hmissing] at hold
      rw [if_neg (by simp [ServiceCall.created]), if_pos (by simp [ServiceCall.created]),
        hold] at hcount
      rw [if_pos rfl]
      exact hcount
    · rw [if_neg hkey, countP_set_of_eq hc (by simp [ServiceCall.created, Ne.symm hkey])]
      exact h.created key
  · intro key x hx hadded
    rcases hmem x hx with hx | rfl
    · exact hsome key (h.added key x hx hadded)
    · have hkey : toAsciiLowercase marketId = key := by simpa [ServiceCall.added] using hadded
      rw [OrderBookService.setBook_orderBooks, if_pos hkey.symm]
      rfl
  · intro x hx hholds
    rcases hmem x hx with hx | rfl
    · exact hsome _ (h.holds x hx hholds)
    · exact absurd hholds (by simp [ServiceCall.holdsRead])
  · intro key
    dsimp only
    rw [OrderBookService.setBook_orderBooks]
    split
    · next hkey =>
      rcases h.books key with ⟨_, hnone⟩ | hbook
      · have hops : SharedService.opsOf ⟨s.service.setBook marketId (some ⟨[], []⟩),
            s.calls.set i ⟨.addMarket marketId, .ended (some true)⟩, s.ops, s.matches_⟩ key = [] :=
          hnone
        rw [hops]
        exact Or.inr rfl
      · rw [hkey, hmissing] at hbook
        exact absurd hbook (Option.some_ne_none _).symm
    · exact h.books key
  · exact fun key => (filterMap_set_perm hc _ (·.placed key)).trans (h.placed key)
  · exact h.published
  · intro key o ho
    have hsame : ServiceCall.cancelled key o.txId ⟨.addMarket marketId, .ended (some true)⟩ =
      ServiceCall.cancelled key o.txId ⟨.addMarket marketId, .passed⟩ := rfl
    dsimp only
    rw [countP_set_of_eq hc hsame]
    exact h.removed key o ho

theorem placed_elsewhere {key : Str} {kind : CallKind} {stage : Stage} (hkey : kind.key ≠ key) :
    ServiceCall.placed key ⟨kind, stage⟩ = none := by
  cases kind with
  | addMarket marketId => rfl
  | placeOrder order => exact if_neg fun h => hkey h.1
  | cancelOrder marketId txId => rfl

/-- A `cancel_order` reports it when it takes an order out. -/
theorem cancelled_of_found {marketId txId : Str} {book : Book} {o : CreateOrderRequestClob}
    (ho : o ∈ (book.find txId).toList) :
    ServiceCall.cancelled (toAsciiLowercase marketId) o.txId
      ⟨.cancelOrder marketId txId, .ended (some (book.remove txId).2)⟩ = true := by
  have hfound := Option.mem_toList.mp ho
  obtain ⟨_, hid, _, _⟩ := book.remove_perm txId
  rw [hid o hfound, book.remove_found txId, Option.isSome_of_mem hfound]
  simp [ServiceCall.cancelled]

/-- An operation on a book that is there, by a call that ends with it. -/
theorem SharedService.Tracked.operate (h : s.Tracked) (hc : s.calls[i]? = some c)
    (hstage : c.stage = .passed) (hkind : ∀ marketId, c.kind ≠ .addMarket marketId)
    (hfound : (s.service.orderBooks c.kind.key).isSome = true)
    {service : OrderBookService} {op : BookOp}
    (hservice : service.orderBooks = Function.update s.service.orderBooks c.kind.key
      (some ((runBook (s.opsOf c.kind.key)).step op).book)) {result : Option Bool}
    (hplaced : (ServiceCall.placed c.kind.key ⟨c.kind, .ended result⟩).toList = addedOrders [op])
    {new : List ClobMatch}
    (hnew : ((runBook (s.opsOf c.kind.key)).step op).matches_ =
      (runBook (s.opsOf c.kind.key)).matches_ ++ new)
    (hremoved : ∀ o ∈ ((runBook (s.opsOf c.kind.key)).step op).removed,
      o ∈ (runBook (s.opsOf c.kind.key)).removed ∨
        ServiceCall.cancelled c.kind.key o.txId ⟨c.kind, .ended result⟩ = true) :
    SharedService.Tracked ⟨service, s.calls.set i ⟨c.kind, .ended result⟩,
      s.ops ++ [op].map fun op => (c.kind.key, op),
      s.matches_ ++ new.map fun m => (c.kind.key, m)⟩ := by
  have hmem (x : ServiceCall) (hx : x ∈ s.calls.set i ⟨c.kind, .ended result⟩) :
      x ∈ s.calls ∨ x = ⟨c.kind, .ended result⟩ := List.mem_or_eq_of_mem_set hx
  have hops (key : Str) : entriesOf key (s.ops ++ [op].map fun op => (c.kind.key, op)) =
      s.opsOf key ++ if c.kind.key = key then [op] else [] := by
    rw [entriesOf_append, entriesOf_under]
    rfl
  have hmatches (key : Str) : entriesOf key (s.matches_ ++ new.map fun m => (c.kind.key, m)) =
      s.matchesOf key ++ if c.kind.key = key then new else [] := by
    rw [entriesOf_append, entriesOf_under]
    rfl
  have hsome (key : Str) (hkey : (s.service.orderBooks key).isSome = true) :
      (service.orderBooks key).isSome = true := by
    rw [hservice, Function.update_apply]
    split
    · rfl
    · exact hkey
  have hneither (stage : Stage) (key : Str) : ServiceCall.inWindow key ⟨c.kind, stage⟩ = false ∧
      ServiceCall.created key ⟨c.kind, stage⟩ = false ∧
      ServiceCall.added key ⟨c.kind, stage⟩ = false := by
    cases hk : c.kind with
    | addMarket marketId => exact absurd hk (hkind marketId)
    | placeOrder order => exact ⟨rfl, rfl, rfl⟩
    | cancelOrder marketId txId => exact ⟨rfl, rfl, rfl⟩
  constructor
  · intro key
    dsimp only
    rw [countP_set_of_eq hc ((hneither _ key).1.trans (hneither c.stage key).1.symm), hservice,
      Function.update_apply]
    split
    · next hkey =>
      left
      rcases h.window key with hzero | hone
      · exact hzero
      · exact absurd hone.2 (hkey ▸ Option.ne_none_iff_isSome.mpr hfound)
    · exact h.window key
  · intro key
    dsimp only
    rw [countP_set_of_eq hc ((hneither _ key).2.1.trans (hneither c.stage key).2.1.symm), hservice,
      Function.update_apply]
    split
    · next hkey =>
      have hold := h.created key
      rw [hkey, if_pos hfound] at hold
      rw [hkey]
      exact hold
    · exact h.created key
  · intro key x hx hadded
    rcases hmem x hx with hx | rfl
    · exact hsome key (h.added key x hx hadded)
    · rw [(hneither _ key).2.2] at hadded
      exact absurd hadded Bool.false_ne_true
  · intro x hx hholds
    rcases hmem x hx with hx | rfl
    · exact hsome _ (h.holds x hx hholds)
    · exact hsome _ hfound
  · intro key
    dsimp only [SharedService.opsOf]
    rw [hops, hservice, Function.update_apply]
    split
    · next hkey =>
      right
      rw [if_pos hkey.symm, runBook_concat, hkey]
    · next hkey =>
      rw [if_neg (Ne.symm hkey), List.append_nil]
      exact h.books key
  · intro key
    have hperm := filterMap_set_perm hc ⟨c.kind, .ended result⟩ (·.placed key)
    have hnone : c.placed key = none := by
      unfold ServiceCall.placed
      rw [hstage]
      cases c.kind <;> simp
    rw [hnone, Option.toList_none, List.nil_append] at hperm
    rw [SharedService.opsOf, hops, addedOrders_append]
    refine hperm.trans (List.Perm.trans ?_ List.perm_append_comm)
    refine List.Perm.append ?_ (h.placed key)
    by_cases hkey : c.kind.key = key
    · rw [if_pos hkey, ← hkey, hplaced]
    · rw [if_neg hkey, placed_elsewhere hkey]
      exact List.Perm.refl []
  · intro key
    rw [SharedService.opsOf, SharedService.matchesOf, hops, hmatches, h.published key]
    by_cases hkey : c.kind.key = key
    · rw [if_pos hkey, if_pos hkey, runBook_concat, ← hkey, hnew]
    · rw [if_neg hkey, if_neg hkey, List.append_nil, List.append_nil]
  · intro key o ho
    have hbefore : ServiceCall.cancelled key o.txId c = false := by
      unfold ServiceCall.cancelled
      rw [hstage]
      cases c.kind <;> simp
    have hcount := countP_set_add hc ⟨c.kind, .ended result⟩ (·.cancelled key o.txId)
    dsimp only at hcount ⊢
    rw [hbefore, if_neg Bool.false_ne_true, Nat.add_zero] at hcount
    rw [hcount]
    rw [SharedService.opsOf, hops] at ho
    by_cases hkey : c.kind.key = key
    · subst hkey
      rw [if_pos rfl, runBook_concat] at ho
      rcases hremoved o ho with hold | hcancelled
      · exact Nat.add_pos_left (h.removed _ o hold) _
      · rw [if_pos hcancelled]
        exact Nat.succ_pos _
    · rw [if_neg hkey, List.append_nil] at ho
      exact Nat.add_pos_left (h.removed key o ho) _

theorem SharedService.Tracked.book_eq (h : s.Tracked) {key : Str} {book : Book}
    (hbook : s.service.orderBooks key = some book) : book = (runBook (s.opsOf key)).book := by
  rcases h.books key with ⟨hnone, _⟩ | hsome
  · rw [hnone] at hbook
    exact absurd hbook (Option.some_ne_none _).symm
  · rw [hsome] at hbook
    exact (Option.some.inj hbook).symm

/-- A call that only looked at the map, and is not an `add_market` that found its market missing. -/
theorem harmless_look {kind : CallKind} {stage : Stage}
    (hstage : stage = .passed ∨ stage = .ended none ∨ stage = .ended (some false))
    (hadds : ∀ marketId, kind = .addMarket marketId →
      stage = .ended (some false) ∧ (s.service.orderBooks kind.key).isSome = true)
    (hholds : stage = .passed → (s.service.orderBooks kind.key).isSome = true) :
    Harmless s ⟨kind, .start⟩ ⟨kind, stage⟩ := by
  have hunsuccessful : stage ≠ .ended (some true) := by
    rcases hstage with rfl | rfl | rfl <;> simp
  constructor
  · intro key
    cases kind <;> simp [ServiceCall.inWindow]
  · intro key hwindow
    cases kind with
    | addMarket marketId =>
        rw [(hadds marketId rfl).1] at hwindow
        exact absurd hwindow (by simp [ServiceCall.inWindow])
    | placeOrder order => exact absurd hwindow Bool.false_ne_true
    | cancelOrder marketId txId => exact absurd hwindow Bool.false_ne_true
  · intro key
    cases kind with
    | addMarket marketId =>
        have hstage : (stage == .ended (some true)) = false := beq_false_of_ne hunsuccessful
        exact congrArg (toAsciiLowercase marketId == key && ·) hstage
    | placeOrder order => rfl
    | cancelOrder marketId txId => rfl
  · intro key hadded
    cases kind with
    | addMarket marketId =>
        obtain ⟨rfl, hfound⟩ := hadds marketId rfl
        have hkey : toAsciiLowercase marketId = key := by simpa [ServiceCall.added] using hadded
        exact hkey ▸ hfound
    | placeOrder order => exact absurd hadded Bool.false_ne_true
    | cancelOrder marketId txId => exact absurd hadded Bool.false_ne_true
  · intro hheld
    apply hholds
    cases kind with
    | addMarket marketId => exact absurd hheld Bool.false_ne_true
    | placeOrder order => exact eq_of_beq hheld
    | cancelOrder marketId txId => exact eq_of_beq hheld
  · intro key
    cases kind <;> simp [ServiceCall.placed, hunsuccessful]
  · intro key txId
    have hstage : (stage == .ended (some true)) = false := beq_false_of_ne hunsuccessful
    cases kind <;> simp [ServiceCall.cancelled, hstage]

/-- An `add_market` that found its market missing, while no other is between check and insert. -/
theorem harmless_window {marketId : Str}
    (hmissing : s.service.orderBooks (toAsciiLowercase marketId) = none)
    (halone : s.calls.countP (·.inWindow (toAsciiLowercase marketId)) = 0) :
    Harmless s ⟨.addMarket marketId, .start⟩ ⟨.addMarket marketId, .passed⟩ := by
  constructor
  · intro key
    simp [ServiceCall.inWindow]
  · intro key hwindow
    have hkey : toAsciiLowercase marketId = key := by simpa [ServiceCall.inWindow] using hwindow
    exact hkey ▸ ⟨halone, hmissing⟩
  · intro key
    rfl
  · intro key hadded
    exact absurd hadded Bool.false_ne_true
  · intro hheld
    exact absurd hheld Bool.false_ne_true
  · intro key
    rfl
  · intro key txId
    rfl

theorem SharedService.Tracked.advance (h : s.Tracked) {now : Nat}
    (halone : s.aloneInWindow (.advance i now) = true) : (s.advance i now).Tracked := by
  unfold SharedService.advance
  cases hc : s.calls[i]? with
  | none => exact h
  | some c =>
      obtain ⟨kind, stage⟩ := c
      have hunlogged (service : OrderBookService) (calls : List ServiceCall) :
          SharedService.mk service calls (s.ops ++ [].map fun op => (kind.key, op))
            (s.matches_ ++ [].map fun m => (kind.key, m)) =
              ⟨service, calls, s.ops, s.matches_⟩ := by
        rw [List.map_nil, List.map_nil, List.append_nil, List.append_nil]
      cases stage with
      | start =>
          cases kind with
          | addMarket marketId =>
              simp only [SharedService.aloneInWindow, hc, Bool.or_eq_true] at halone
              dsimp only [ServiceCall.advance]
              by_cases hfound : (s.service.bookOf marketId).isSome = true
              · rw [if_pos hfound, hunlogged]
                exact h.check hc (harmless_look (Or.inr (Or.inr rfl))
                  (fun _ _ => ⟨rfl, hfound⟩) fun heq => absurd heq (by simp))
              · rw [if_neg hfound, hunlogged]
                have hnobody := halone.resolve_left hfound
                have hzero : s.calls.countP (·.inWindow (toAsciiLowercase marketId)) = 0 := by
                  apply List.countP_eq_zero.mpr
                  intro x hx
                  simpa using List.all_eq_true.mp hnobody x hx
                exact h.check hc (harmless_window (Option.not_isSome_iff_eq_none.mp hfound) hzero)
          | placeOrder order =>
              dsimp only [ServiceCall.advance]
              by_cases hfound : (s.service.bookOf order.marketId).isSome = true
              · rw [if_pos hfound, hunlogged]
                exact h.check hc (harmless_look (Or.inl rfl) (fun _ heq => absurd heq (by simp))
                  fun _ => hfound)
              · rw [if_neg hfound, hunlogged]
                exact h.check hc (harmless_look (Or.inr (Or.inl rfl))
                  (fun _ heq => absurd heq (by simp)) fun heq => absurd heq (by simp))
          | cancelOrder marketId txId =>
              dsimp only [ServiceCall.advance]
              by_cases hfound : (s.service.bookOf marketId).isSome = true
              · rw [if_pos hfound, hunlogged]
                exact h.check hc (harmless_look (Or.inl rfl) (fun _ heq => absurd heq (by simp))
                  fun _ => hfound)
              · rw [if_neg hfound, hunlogged]
                exact h.check hc (harmless_look (Or.inr (Or.inl rfl))
                  (fun _ heq => absurd heq (by simp)) fun heq => absurd heq (by simp))
      | passed =>
          cases kind with
          | addMarket marketId =>
              dsimp only [ServiceCall.advance]
              rw [hunlogged]
              exact h.insert hc
          | placeOrder order =>
              have hfound := h.holds _ (List.mem_of_getElem? hc) rfl
              obtain ⟨book, hbook⟩ := Option.isSome_iff_exists.mp hfound
              have hreplayed := h.book_eq hbook
              have hplace : s.service.placeOrder order now =
                  (⟨(s.service.setBook order.marketId (some (book.add order now).book)).orderBooks,
                    order.txId :: s.service.txIdLut⟩, (book.add order now).matches_) := by
                have hof : s.service.bookOf order.marketId = some book := hbook
                rw [OrderBookService.placeOrder, hof]
              dsimp only [ServiceCall.advance]
              rw [hplace, hreplayed]
              exact h.operate hc rfl (by simp) hfound rfl
                (by simp [ServiceCall.placed, CallKind.key, addedOrders]) rfl fun o ho => Or.inl ho
          | cancelOrder marketId txId =>
              have hfound := h.holds _ (List.mem_of_getElem? hc) rfl
              obtain ⟨book, hbook⟩ := Option.isSome_iff_exists.mp hfound
              have hreplayed := h.book_eq hbook
              have hcancel : s.service.cancelOrder marketId txId =
                  (s.service.setBook marketId (some (book.remove txId).1),
                    some (book.remove txId).2) := by
                have hof : s.service.bookOf marketId = some book := hbook
                rw [OrderBookService.cancelOrder, hof]
              dsimp only [ServiceCall.advance]
              rw [hcancel, hreplayed]
              refine h.operate hc rfl (by simp) hfound rfl rfl (List.append_nil _).symm ?_
              exact fun o ho => (List.mem_append.mp ho).imp_right cancelled_of_found
      | ended result =>
          obtain ⟨hi, hget⟩ := List.getElem?_eq_some_iff.mp hc
          have hsame : s.calls.set i ⟨kind, .ended result⟩ = s.calls := by
            rw [← hget, List.set_getElem_self]
          cases kind <;> (dsimp only [ServiceCall.advance]; rw [hunlogged, hsame]; exact h)

theorem SharedService.Tracked.next (h : s.Tracked) {e : CallEvent}
    (halone : s.aloneInWindow e = true) : (sharedService.next s e).Tracked := by
  cases e with
  | begin kind => exact h.begin kind
  | advance i now => exact h.advance halone

theorem SharedService.Tracked.ordersKept (h : s.Tracked) : s.OrdersKept := by
  constructor
  · intro key x hx hwindow
    rcases h.window key with hzero | hone
    · exact absurd hwindow (List.countP_eq_zero.mp hzero x hx)
    · exact hone.2
  · exact fun key book hbook => h.book_eq hbook
  · exact h.placed
  · intro key
    have hplaced : TradedOrders (s.matchesOf key) (s.placed key) (addedOrders (s.opsOf key)) :=
      .of_perm (h.placed key)
    unfold SharedService.resting
    rcases h.books key with ⟨hnone, hops⟩ | hbook
    · rw [hops] at hplaced
      rw [hnone]
      exact ⟨[], hplaced, fun o ho => absurd ho List.not_mem_nil⟩
    · have hwhere := runBook_whereabouts (s.opsOf key)
      have horders := hwhere.orders
      rw [← h.published key] at horders
      let after := runBook (s.opsOf key)
      rw [hbook]
      refine ⟨after.removed ++ (after.dropped.map Prod.fst ++ after.filled),
        (hplaced.trans horders).trans (.of_perm ?_), ?_⟩
      · rw [History.orders, ← List.append_assoc]
        exact List.Perm.refl _
      · intro o ho
        rcases List.mem_append.mp ho with hremoved | ho
        · exact Or.inr (Or.inl (List.countP_pos_iff.mp (h.removed key o hremoved)))
        rcases List.mem_append.mp ho with hdropped | hfilled
        · obtain ⟨p, hp, rfl⟩ := List.mem_map.mp hdropped
          obtain ⟨hexpired | hfull, order, horder⟩ := hwhere.dropped p hp
          · exact Or.inr (Or.inr ⟨order, p.2, horder, hexpired⟩)
          · exact Or.inl hfull
        · exact Or.inl (hwhere.filled o hfilled)
  · intro key hended
    obtain ⟨x, hx, hadded⟩ := hended
    rw [h.created key, if_pos (h.added key x hx hadded)]

end Steps

/-! ## Whole runs -/

/-- In every run in which no `add_market` finds its market missing while another one is about to
insert it, no order is lost and the market is created once. -/
theorem add_market_keeps_orders (events : List CallEvent)
    (h : sharedService.Runs (fun s e => s.aloneInWindow e = true) .new events) :
    (sharedService.run .new events).OrdersKept := by
  have htracked := h.preserves (fun _ _ hs _ halone => SharedService.Tracked.next hs halone)
    tracked_new
  exact htracked.ordersKept

instance (s : SharedService) (e : CallEvent) : Decidable (sharedService.Allowed s e) :=
  match e with
  | .begin _ => inferInstanceAs (Decidable True)
  | .advance i _ => inferInstanceAs (Decidable (s.mayAdvance i = true))

def sampleResting : CreateOrderRequestClob := sampleOrder "a" "t1" 0 0 600000 100

def sampleCrossing : CreateOrderRequestClob := sampleOrder "b" "t2" 0 1 600000 40

/-- Two callers add one market, the second after the first; an order is placed there, another one
fills a part of it, and the rest is cancelled. -/
def sampleCalls : List CallEvent :=
  [.begin (.addMarket "M".toList), .begin (.addMarket "m".toList), .advance 0 10, .advance 0 10,
    .begin (.placeOrder sampleResting), .advance 2 10, .advance 1 10, .advance 2 10,
    .begin (.placeOrder sampleCrossing), .advance 3 11, .advance 3 11,
    .begin (.cancelOrder "m".toList "a".toList), .advance 4 12, .advance 4 12]

theorem add_market_keeps_orders_sample :
    (sharedService.run .new (sampleCalls.take 11)).resting "m".toList ≠ [] ∧
      (sharedService.run .new sampleCalls).resting "m".toList = [] ∧
      ((sharedService.run .new sampleCalls).matchesOf "m".toList).map (·.fillShares) = [40] ∧
      (sharedService.run .new sampleCalls).OrdersKept :=
  ⟨by decide +kernel, by decide +kernel, by decide +kernel,
    add_market_keeps_orders sampleCalls (by decide +kernel)⟩

/-- Both callers look before either inserts, and the order is placed between the two inserts. -/
def overlappingAdds : List CallEvent :=
  [.begin (.addMarket "m".toList), .begin (.addMarket "m".toList), .advance 0 10, .advance 1 10,
    .advance 0 10, .begin (.placeOrder sampleResting), .advance 2 10, .advance 2 10, .advance 1 10]

theorem add_market_loses_order :
    sharedService.Runs (fun _ _ => True) .new overlappingAdds ∧
      (sharedService.run .new overlappingAdds).placed "m".toList = [sampleResting] ∧
      (sharedService.run .new overlappingAdds).resting "m".toList = [] ∧
      (sharedService.run .new overlappingAdds).opsOf "m".toList = [.add sampleResting 10] ∧
      ¬(sharedService.run .new overlappingAdds).Gone "m".toList sampleResting ∧
      (sharedService.run .new overlappingAdds).calls.countP (·.created "m".toList) = 2 ∧
      ¬(sharedService.run .new overlappingAdds).OrdersKept := by
  have hplaced : (sharedService.run .new overlappingAdds).placed "m".toList = [sampleResting] := by
    decide +kernel
  have hresting : (sharedService.run .new overlappingAdds).resting "m".toList = [] := by
    decide +kernel
  have hops : (sharedService.run .new overlappingAdds).opsOf "m".toList =
      [.add sampleResting 10] := by decide +kernel
  have hmatches : (sharedService.run .new overlappingAdds).matchesOf "m".toList = [] := by
    decide +kernel
  have hpresent : ¬(sharedService.run .new overlappingAdds).Gone "m".toList sampleResting := by
    rintro (hfull | hcancelled | ⟨order, now, hadd, hexpired⟩)
    · exact absurd hfull (by decide +kernel)
    · exact absurd hcancelled (by decide +kernel)
    · rw [hops, List.mem_singleton] at hadd
      cases hadd
      exact absurd hexpired (by decide +kernel)
  refine ⟨by decide +kernel, hplaced, hresting, hops, hpresent, by decide +kernel, ?_⟩
  intro hkept
  obtain ⟨gone, htraded, hgone⟩ := hkept.resting "m".toList
  rw [hmatches, hplaced, hresting, List.nil_append] at htraded
  have hmem : sampleResting ∈ gone :=
    htraded.perm_of_nil.mem_iff.mp (List.mem_singleton.mpr rfl)
  exact hpresent (hgone sampleResting hmem)

end PrismBackend.Clob
