import PrismBackend.Clob.Replay
import PrismBackend.Clob.Shelves

/-!
# CLOB: one market of a process that starts anew

While markets are created and orders come in, each of them once, the book of a
market is a run of its own: that of the orders that came in for it after it was
created. What such a run takes off an order is in the fills that it publishes.
-/

namespace PrismBackend.Clob

/-- The markets and the messages of the stream; nothing is removed. -/
def ClobRequest.restores : ClobRequest → Bool
  | .createMarket _ => true
  | .deliverOrder _ _ => true
  | _ => false

def ClobRequest.reading (key : Str) : ClobRequest → Option Reading
  | .deliverOrder order now =>
    if toAsciiLowercase order.marketId = key then some (order, now) else none
  | _ => none

/-- What is done to the book of a market. -/
def opsFor (key : Str) (requests : List ClobRequest) : List BookOp :=
  (requests.filterMap (·.reading key)).map Reading.op

def Process.fillsOf (r : Process) (key : Str) : List ClobMatch :=
  r.fills.filter fun m => toAsciiLowercase m.marketId == key

structure Process.Mirrors (r : Process) (key : Str) (h : History) : Prop where
  book : r.service.orderBooks key = some h.book
  fills : r.fillsOf key = h.matches_

def Process.Lacks (r : Process) (key : Str) : Prop :=
  r.service.orderBooks key = none ∧ r.fillsOf key = []

section Market

variable {r : Process} {key : Str} {h : History} {request : ClobRequest}
  {requests : List ClobRequest}

/-- What a message leaves of a market, where its order is new. -/
theorem Process.deliver_eq (r : Process) (order : CreateOrderRequestClob) (now : Nat)
    (hnew : order.txId ∉ r.service.txIdLut) :
    r.step (.deliverOrder order now) =
      ⟨(r.service.placeOrder order now).1, r.fills ++ (r.service.placeOrder order now).2⟩ := by
  have hunseen : r.service.orderExists order.txId = false := by
    simpa [OrderBookService.orderExists] using hnew
  show Process.mk _ _ = _
  rw [OrderBookService.step, hunseen]
  rfl

theorem placeOrder_fills (s : OrderBookService) (order : CreateOrderRequestClob) (now : Nat) :
    ∀ m ∈ (s.placeOrder order now).2, m.marketId = order.marketId := by
  unfold OrderBookService.placeOrder
  split
  · exact fun m hm => absurd hm List.not_mem_nil
  · exact Book.add_marketId _ order now

/-- A message for one market leaves the others as they are. -/
theorem placeOrder_elsewhere (s : OrderBookService) {order : CreateOrderRequestClob} (now : Nat)
    (hkey : toAsciiLowercase order.marketId ≠ key) :
    (s.placeOrder order now).1.orderBooks key = s.orderBooks key ∧
      (s.placeOrder order now).2.filter (fun m => toAsciiLowercase m.marketId == key) = [] := by
  constructor
  · unfold OrderBookService.placeOrder
    split
    · rfl
    · exact Function.update_of_ne hkey.symm _ _
  · apply List.filter_eq_nil_iff.mpr
    intro m hm
    rw [placeOrder_fills s order now m hm]
    simpa using hkey

theorem addMarket_elsewhere (s : OrderBookService) {marketId : Str}
    (h : toAsciiLowercase marketId ≠ key ∨ (s.orderBooks key).isSome) :
    (s.addMarket marketId).1.orderBooks key = s.orderBooks key := by
  unfold OrderBookService.addMarket
  split
  · rfl
  · next hnone =>
    apply Function.update_of_ne
    rintro rfl
    rcases h with hne | hsome
    · exact hne rfl
    · rw [show s.orderBooks (toAsciiLowercase marketId) = none from hnone] at hsome
      exact absurd hsome (by simp)

theorem Process.Mirrors.step (hr : r.Mirrors key h) (hkind : request.restores = true)
    (hnew : ∀ o ∈ request.order, o.txId ∉ r.service.txIdLut) :
    (r.step request).Mirrors key ((opsFor key [request]).foldl History.step h) := by
  obtain ⟨hbook, hfills⟩ := hr
  cases request with
  | createMarket marketId =>
      refine ⟨?_, ?_⟩
      · show (r.service.addMarket marketId).1.orderBooks key = _
        rw [addMarket_elsewhere _ (Or.inr (by rw [hbook]; rfl)), hbook]
        rfl
      · show (r.fills ++ []).filter _ = _
        rw [List.append_nil]
        exact hfills
  | deliverOrder order now =>
      rw [r.deliver_eq order now (hnew order rfl)]
      by_cases hkey : toAsciiLowercase order.marketId = key
      · have hops : opsFor key [.deliverOrder order now] = [.add order now] := by
          simp [opsFor, ClobRequest.reading, hkey, Reading.op]
        have hplace : r.service.placeOrder order now =
            ({ r.service.setBook order.marketId (some (h.book.add order now).book) with
              txIdLut := order.txId :: r.service.txIdLut }, (h.book.add order now).matches_) := by
          rw [OrderBookService.placeOrder, OrderBookService.bookOf, hkey, hbook]
        have hown : (h.book.add order now).matches_.filter
            (fun m => toAsciiLowercase m.marketId == key) = (h.book.add order now).matches_ := by
          apply List.filter_eq_self.mpr
          intro m hm
          rw [Book.add_marketId _ order now m hm]
          simpa using hkey
        rw [hops, hplace]
        refine ⟨?_, ?_⟩
        · subst hkey
          exact Function.update_self ..
        · rw [Process.fillsOf, List.filter_append, hown]
          exact congrArg (· ++ _) hfills
      · have hops : opsFor key [.deliverOrder order now] = [] := by
          simp [opsFor, ClobRequest.reading, hkey]
        obtain ⟨hsame, hnone⟩ := placeOrder_elsewhere r.service now hkey
        rw [hops]
        refine ⟨hsame.trans hbook, ?_⟩
        rw [Process.fillsOf, List.filter_append, hnone, List.append_nil]
        exact hfills
  | closeMarket marketId => exact absurd hkind (by simp [ClobRequest.restores])
  | createOrder order now => exact absurd hkind (by simp [ClobRequest.restores])
  | cancelOrder marketId txId => exact absurd hkind (by simp [ClobRequest.restores])

theorem Process.Lacks.step (hr : r.Lacks key) (hkind : request.restores = true)
    (hother : ∀ marketId, request = .createMarket marketId → toAsciiLowercase marketId ≠ key) :
    (r.step request).Lacks key := by
  obtain ⟨hbook, hfills⟩ := hr
  have hidle : (Process.mk r.service (r.fills ++ [])).Lacks key := by
    rw [List.append_nil]
    exact ⟨hbook, hfills⟩
  cases request with
  | createMarket marketId =>
      refine ⟨?_, hidle.2⟩
      exact (addMarket_elsewhere _ (Or.inl (hother marketId rfl))).trans hbook
  | deliverOrder order now =>
      by_cases hseen : r.service.orderExists order.txId = true
      · have hstep : r.step (.deliverOrder order now) = ⟨r.service, r.fills ++ []⟩ := by
          show Process.mk _ _ = _
          rw [OrderBookService.step, hseen]
          rfl
        rw [hstep]
        exact hidle
      · rw [r.deliver_eq order now (by simpa [OrderBookService.orderExists] using hseen)]
        by_cases hkey : toAsciiLowercase order.marketId = key
        · have hplace : r.service.placeOrder order now = (r.service, []) := by
            rw [OrderBookService.placeOrder, OrderBookService.bookOf, hkey, hbook]
          rw [hplace]
          exact hidle
        · obtain ⟨hsame, hnone⟩ := placeOrder_elsewhere r.service now hkey
          refine ⟨hsame.trans hbook, ?_⟩
          rw [Process.fillsOf, List.filter_append, hnone, List.append_nil]
          exact hfills
  | closeMarket marketId => exact absurd hkind (by simp [ClobRequest.restores])
  | createOrder order now => exact absurd hkind (by simp [ClobRequest.restores])
  | cancelOrder marketId txId => exact absurd hkind (by simp [ClobRequest.restores])

theorem Process.step_txIdLut (r : Process) (hkind : request.restores = true) :
    ∀ id ∈ (r.step request).service.txIdLut,
      id ∈ r.service.txIdLut ∨ ∃ o ∈ request.order, id = o.txId := by
  intro id hid
  cases request with
  | createMarket marketId =>
      have hlut : (r.service.addMarket marketId).1.txIdLut = r.service.txIdLut := by
        unfold OrderBookService.addMarket
        split <;> rfl
      exact Or.inl (hlut ▸ hid)
  | deliverOrder order now =>
      by_cases hseen : order.txId ∈ r.service.txIdLut
      · have hstep : (r.step (.deliverOrder order now)).service = r.service := by
          have hexists : r.service.orderExists order.txId = true := by
            simpa [OrderBookService.orderExists] using hseen
          show (OrderBookService.step _ _).1 = _
          rw [OrderBookService.step, hexists]
          rfl
        exact Or.inl (hstep ▸ hid)
      · rw [r.deliver_eq order now hseen] at hid
        unfold OrderBookService.placeOrder at hid
        split at hid
        · exact Or.inl hid
        · rcases List.mem_cons.mp hid with hown | hold
          · exact Or.inr ⟨order, rfl, hown⟩
          · exact Or.inl hold
  | closeMarket marketId => exact absurd hkind (by simp [ClobRequest.restores])
  | createOrder order now => exact absurd hkind (by simp [ClobRequest.restores])
  | cancelOrder marketId txId => exact absurd hkind (by simp [ClobRequest.restores])

theorem opsFor_append (key : Str) (requests requests' : List ClobRequest) :
    opsFor key (requests ++ requests') = opsFor key requests ++ opsFor key requests' := by
  rw [opsFor, List.filterMap_append, List.map_append]
  rfl

/-- From then on the market is on a run of its own. -/
theorem Process.Mirrors.run (hr : r.Mirrors key h)
    (hkind : ∀ request ∈ requests, request.restores = true)
    (hdistinct : ((offeredOrders requests).map (·.txId)).Nodup)
    (hnew : ∀ o ∈ offeredOrders requests, o.txId ∉ r.service.txIdLut) :
    (requests.foldl Process.step r).Mirrors key ((opsFor key requests).foldl History.step h) := by
  induction requests generalizing r h with
  | nil => exact hr
  | cons request requests ih =>
      have hsplit := offeredOrders_append [request] requests
      rw [List.singleton_append] at hsplit
      rw [hsplit] at hdistinct hnew
      rw [List.map_append, List.nodup_append] at hdistinct
      have hown (o : CreateOrderRequestClob) (ho : o ∈ request.order) :
          o ∈ offeredOrders [request] :=
        List.mem_filterMap.mpr ⟨request, List.mem_singleton_self _, ho⟩
      have hfirst := hr.step (hkind request List.mem_cons_self)
        fun o ho => hnew o (List.mem_append_left _ (hown o ho))
      have hrest := ih hfirst (fun request' h => hkind request' (List.mem_cons_of_mem _ h))
        hdistinct.2.1 (by
          intro o ho hmem
          rcases r.step_txIdLut (hkind request List.mem_cons_self) _ hmem with hold | ⟨o', ho', heq⟩
          · exact hnew o (List.mem_append_right _ ho) hold
          · exact hdistinct.2.2 _ (List.mem_map_of_mem (hown o' ho')) _ (List.mem_map_of_mem ho)
              heq.symm)
      have hops := opsFor_append key [request] requests
      rw [List.singleton_append] at hops
      rw [hops, List.foldl_append]
      exact hrest

theorem Process.Lacks.run (hr : r.Lacks key)
    (hkind : ∀ request ∈ requests, request.restores = true)
    (hother : ∀ marketId, .createMarket marketId ∈ requests → toAsciiLowercase marketId ≠ key) :
    (requests.foldl Process.step r).Lacks key := by
  induction requests generalizing r with
  | nil => exact hr
  | cons request requests ih =>
      apply ih
      · apply hr.step (hkind request List.mem_cons_self)
        rintro marketId rfl
        exact hother marketId List.mem_cons_self
      · exact fun request' h => hkind request' (List.mem_cons_of_mem _ h)
      · exact fun marketId h => hother marketId (List.mem_cons_of_mem _ h)

theorem Process.lacks_new (key : Str) : (Process.mk .new []).Lacks key := ⟨rfl, rfl⟩

theorem Process.run_txIdLut (r : Process)
    (hkind : ∀ request ∈ requests, request.restores = true) :
    ∀ id ∈ (requests.foldl Process.step r).service.txIdLut,
      id ∈ r.service.txIdLut ∨ ∃ o ∈ offeredOrders requests, id = o.txId := by
  induction requests generalizing r with
  | nil => exact fun id hid => Or.inl hid
  | cons request requests ih =>
      have hsplit := offeredOrders_append [request] requests
      rw [List.singleton_append] at hsplit
      intro id hid
      rw [hsplit]
      rcases ih _ (fun request' h => hkind request' (List.mem_cons_of_mem _ h)) id hid with
        hfirst | ⟨o, ho, heq⟩
      · rcases r.step_txIdLut (hkind request List.mem_cons_self) id hfirst with hold | ⟨o, ho, heq⟩
        · exact Or.inl hold
        · refine Or.inr ⟨o, List.mem_append_left _ ?_, heq⟩
          exact List.mem_filterMap.mpr ⟨request, List.mem_singleton_self _, ho⟩
      · exact Or.inr ⟨o, List.mem_append_right _ ho, heq⟩

/-- A market that is created once, before any order comes in for it. -/
theorem runProcess_mirrors {before after : List ClobRequest} {marketId : Str}
    (hrequests : requests = before ++ .createMarket marketId :: after)
    (hkind : ∀ request ∈ requests, request.restores = true)
    (hdistinct : ((offeredOrders requests).map (·.txId)).Nodup)
    (hfirst : ∀ id, .createMarket id ∈ before → toAsciiLowercase id ≠ toAsciiLowercase marketId)
    (hnone : opsFor (toAsciiLowercase marketId) before = []) :
    (runProcess requests).Mirrors (toAsciiLowercase marketId)
      (runBook (opsFor (toAsciiLowercase marketId) requests)) := by
  subst hrequests
  have hbefore : ∀ request ∈ before, request.restores = true :=
    fun request h => hkind request (List.mem_append_left _ h)
  have hafter : ∀ request ∈ after, request.restores = true :=
    fun request h => hkind request (List.mem_append_right _ (List.mem_cons_of_mem _ h))
  obtain ⟨hbook, hfills⟩ := (Process.lacks_new (toAsciiLowercase marketId)).run hbefore hfirst
  have hoffered : offeredOrders (before ++ .createMarket marketId :: after) =
      offeredOrders before ++ offeredOrders after := by
    rw [offeredOrders_append]
    rfl
  rw [hoffered, List.map_append, List.nodup_append] at hdistinct
  have hcreated : (((runProcess before).step (.createMarket marketId))).Mirrors
      (toAsciiLowercase marketId) History.empty := by
    refine ⟨?_, ?_⟩
    · show ((runProcess before).service.addMarket marketId).1.orderBooks _ = _
      rw [OrderBookService.addMarket, OrderBookService.bookOf,
        show (runProcess before).service.orderBooks _ = none from hbook]
      exact Function.update_self ..
    · show ((runProcess before).fills ++ []).filter _ = _
      rw [List.append_nil]
      exact hfills
  have hrun := hcreated.run hafter hdistinct.2.1 (by
    intro o ho hmem
    have hkind : (ClobRequest.createMarket marketId).restores = true := rfl
    rcases (runProcess before).step_txIdLut hkind _ hmem with hold | ⟨o', ho', _⟩
    · rcases (Process.mk .new []).run_txIdLut hbefore _ hold with hnew | ⟨o', ho', heq⟩
      · exact absurd hnew List.not_mem_nil
      · exact hdistinct.2.2 _ (List.mem_map_of_mem ho') _ (List.mem_map_of_mem ho) heq.symm
    · exact absurd ho' (by simp [ClobRequest.order]))
  rw [opsFor_append, hnone, List.nil_append, ← List.singleton_append, opsFor_append]
  rw [runProcess, List.foldl_append]
  exact hrun

end Market

/-! ## What becomes of an order -/

/-- The shares of an order that rest in its market, and those that it has lost in fills since the
process started. -/
def Process.sharesOf (r : Process) (marketId txId : Str) : Nat :=
  ((r.service.bookOf marketId).bind (·.find txId)).elim 0 remainingShares +
    ((r.fills.filter (·.involves txId)).map (·.fillShares)).sum

section Order

variable {ops : List BookOp} {requests : List ClobRequest} {o : CreateOrderRequestClob}

theorem runBook_dropped (ops : List BookOp) :
    ∀ p ∈ (runBook ops).dropped, ∃ o, BookOp.add o p.2 ∈ ops := by
  induction ops using List.reverseRecOn with
  | nil => exact fun p hp => absurd hp List.not_mem_nil
  | append_singleton ops op ih =>
      intro p hp
      have hold (h : p ∈ (runBook ops).dropped) : ∃ o, BookOp.add o p.2 ∈ ops ++ [op] := by
        obtain ⟨o, ho⟩ := ih p h
        exact ⟨o, List.mem_append_left _ ho⟩
      rw [runBook_concat] at hp
      cases op with
      | add order now =>
          rcases List.mem_append.mp hp with hp | hp
          · exact hold hp
          · obtain ⟨_, _, rfl⟩ := List.mem_map.mp hp
            exact ⟨order, List.mem_append_right _ (List.mem_singleton_self _)⟩
      | remove txId => exact hold hp

theorem Book.find_eq_some {book : Book} {txId : Str} {o : CreateOrderRequestClob}
    (h : book.find txId = some o) : o ∈ book.orders ∧ o.txId = txId := by
  unfold Book.find at h
  rcases Option.or_eq_some_iff.mp h with hbid | ⟨_, hask⟩
  · have hid := List.find?_some hbid
    exact ⟨List.mem_append_left _ (List.mem_of_find?_eq_some hbid), beq_iff_eq.mp hid⟩
  · have hid := List.find?_some hask
    exact ⟨List.mem_append_right _ (List.mem_of_find?_eq_some hask), beq_iff_eq.mp hid⟩

theorem Book.find_eq_none {book : Book} {txId : Str} :
    book.find txId = none ↔ ∀ o ∈ book.orders, o.txId ≠ txId := by
  unfold Book.find
  rw [Option.or_eq_none_iff, List.find?_eq_none, List.find?_eq_none]
  simp [Book.orders, or_imp, forall_and]

/-- Where nothing is removed, an order that has not expired rests with what the fills have left. -/
theorem runBook_rests (hdistinct : ((addedOrders ops).map (·.txId)).Nodup)
    (hopen : ∀ o ∈ addedOrders ops, o.sharesFilled < o.qtyShares)
    (hadds : ∀ txId, BookOp.remove txId ∉ ops) (ho : o ∈ addedOrders ops)
    (hlive : ∀ o' now, BookOp.add o' now ∈ ops → expired o now = false) :
    ((runBook ops).book.find o.txId).elim 0 remainingShares +
      filledShares o (runBook ops).matches_ = remainingShares o := by
  have hc := runBook_conserved ops hdistinct hopen
  have hrun : FairRun (addedOrders ops) (runBook ops).matches_ := hc.fair
  have hle := hrun.shares_le hdistinct ho (hopen o ho).le
  have hwhere : afterFills o (runBook ops).matches_ ∈ (runBook ops).orders :=
    hc.conserved.mem_iff.mpr (List.mem_map_of_mem ho)
  have hunique (o' : CreateOrderRequestClob) (ho' : o' ∈ (runBook ops).orders)
      (hid : o'.txId = o.txId) : o' = afterFills o (runBook ops).matches_ := by
    apply eq_of_txId ((hc.ids.nodup_iff).mpr hdistinct) ho' hwhere
    rw [hid, afterFills_txId]
  have hleft : ((runBook ops).book.find o.txId).elim 0 remainingShares =
      remainingShares (afterFills o (runBook ops).matches_) := by
    cases hfind : (runBook ops).book.find o.txId with
    | some o' =>
        obtain ⟨hmem, hid⟩ := Book.find_eq_some hfind
        rw [hunique o' ?_ hid, Option.elim_some]
        rw [History.orders, ← List.append_assoc]
        exact List.mem_append_left _ hmem
    | none =>
        have hgone := Book.find_eq_none.mp hfind
        rw [Option.elim_none]
        rw [History.orders, ← List.append_assoc] at hwhere
        rcases List.mem_append.mp hwhere with hbook | hwhere
        · exact absurd (afterFills_txId o _) (hgone _ hbook)
        rcases List.mem_append.mp hwhere with hremoved | hwhere
        · exact absurd (hc.removed _ hremoved) (hadds _)
        rcases List.mem_append.mp hwhere with hdropped | hfilled
        · obtain ⟨p, hp, heq⟩ := List.mem_map.mp hdropped
          obtain ⟨o', ho'⟩ := runBook_dropped ops p hp
          have hexpired := hc.dropped p hp
          rw [heq, afterFills_eq] at hexpired
          exact absurd hexpired (by simpa [expired] using hlive o' p.2 ho')
        · exact (hc.filled _ hfilled).symm
  rw [hleft, afterFills_eq] at *
  simp only [remainingShares] at *
  omega

/-! ## In the whole process -/

theorem addedOrders_opsFor (key : Str) (hkind : ∀ request ∈ requests, request.restores = true) :
    addedOrders (opsFor key requests) =
      (offeredOrders requests).filter fun o => toAsciiLowercase o.marketId == key := by
  induction requests with
  | nil => rfl
  | cons request requests ih =>
      have hrest := ih fun request' h => hkind request' (List.mem_cons_of_mem _ h)
      have hfirst := hkind request List.mem_cons_self
      rw [← List.singleton_append, opsFor_append, addedOrders_append, offeredOrders_append,
        List.filter_append, hrest]
      congr 1
      cases request with
      | createMarket marketId => rfl
      | deliverOrder order now =>
          by_cases hkey : toAsciiLowercase order.marketId = key
          · simp [opsFor, ClobRequest.reading, hkey, Reading.op, addedOrders, offeredOrders,
              ClobRequest.order]
          · simp [opsFor, ClobRequest.reading, hkey, addedOrders, offeredOrders, ClobRequest.order]
      | closeMarket marketId => exact absurd hfirst (by simp [ClobRequest.restores])
      | createOrder order now => exact absurd hfirst (by simp [ClobRequest.restores])
      | cancelOrder marketId txId => exact absurd hfirst (by simp [ClobRequest.restores])

theorem mem_opsFor {key : Str} {op : BookOp} (h : op ∈ opsFor key requests) :
    ∃ order now, op = .add order now ∧ .deliverOrder order now ∈ requests := by
  obtain ⟨reading, hreading, rfl⟩ := List.mem_map.mp h
  obtain ⟨request, hrequest, hsome⟩ := List.mem_filterMap.mp hreading
  cases request with
  | deliverOrder order now =>
      simp only [ClobRequest.reading, Option.ite_none_right_eq_some, Option.some.injEq] at hsome
      obtain ⟨_, rfl⟩ := hsome
      exact ⟨order, now, rfl, hrequest⟩
  | createMarket marketId => exact absurd hsome (by simp [ClobRequest.reading])
  | closeMarket marketId => exact absurd hsome (by simp [ClobRequest.reading])
  | createOrder order now => exact absurd hsome (by simp [ClobRequest.reading])
  | cancelOrder marketId txId => exact absurd hsome (by simp [ClobRequest.reading])

theorem Pairs.came {came : List CreateOrderRequestClob} {bid ask : CreateOrderRequestClob}
    {m : ClobMatch} (h : Pairs came bid ask m) {txId : Str} (hinvolves : m.involves txId = true) :
    ∃ o ∈ came, o.txId = txId ∧ toAsciiLowercase m.marketId = toAsciiLowercase o.marketId := by
  have hbid : toAsciiLowercase m.marketId = toAsciiLowercase bid.marketId := by
    rcases h.market with heq | heq
    · rw [heq]
    · rw [heq, h.book]
  unfold ClobMatch.involves at hinvolves
  rw [h.bid_eq, h.ask_eq] at hinvolves
  simp only [Option.any_some, Bool.or_eq_true, beq_iff_eq] at hinvolves
  rcases hinvolves with hid | hid
  · obtain ⟨o, ho, heq⟩ := h.bid_came
    refine ⟨o, ho, ?_, ?_⟩
    · rw [← txId_of_unfilled heq, hid]
    · rw [hbid, marketId_of_unfilled heq]
  · obtain ⟨o, ho, heq⟩ := h.ask_came
    refine ⟨o, ho, ?_, ?_⟩
    · rw [← txId_of_unfilled heq, hid]
    · rw [hbid, h.book, marketId_of_unfilled heq]

/-- An order that came in for its market and has not expired is there, with what it came with. -/
theorem Process.Mirrors.sharesOf_eq
    (hr : (runProcess requests).Mirrors (toAsciiLowercase o.marketId)
      (runBook (opsFor (toAsciiLowercase o.marketId) requests)))
    (hkind : ∀ request ∈ requests, request.restores = true)
    (hdistinct : ((offeredOrders requests).map (·.txId)).Nodup)
    (hopen : ∀ o ∈ offeredOrders requests, o.sharesFilled < o.qtyShares)
    (ho : o ∈ offeredOrders requests)
    (hlive : ∀ o' now, .deliverOrder o' now ∈ requests → expired o now = false) :
    (runProcess requests).sharesOf o.marketId o.txId = remainingShares o := by
  have hadded := addedOrders_opsFor (toAsciiLowercase o.marketId) hkind
  have hsublist : (addedOrders (opsFor (toAsciiLowercase o.marketId) requests)).Sublist
      (offeredOrders requests) := by
    rw [hadded]
    exact List.filter_sublist
  have hrests := runBook_rests (o := o) (hdistinct.sublist (hsublist.map _))
    (fun o' ho' => hopen o' (hsublist.subset ho'))
    (fun txId hmem => by
      obtain ⟨_, _, heq, _⟩ := mem_opsFor hmem
      cases heq)
    (by
      rw [hadded]
      exact List.mem_filter.mpr ⟨ho, beq_self_eq_true _⟩)
    (fun o' now hmem => by
      obtain ⟨order, time, heq, hrequest⟩ := mem_opsFor hmem
      cases heq
      exact hlive _ _ hrequest)
  have hfills : (runProcess requests).fills.filter (·.involves o.txId) =
      (runBook (opsFor (toAsciiLowercase o.marketId) requests)).matches_.filter
        (·.involves o.txId) := by
    rw [← hr.fills, Process.fillsOf, List.filter_filter]
    apply List.filter_congr
    intro m hm
    cases hinvolves : m.involves o.txId with
    | false => rfl
    | true =>
        obtain ⟨bid, ask, hpairs⟩ := (runProcess_shelved requests).2 m hm
        obtain ⟨o', ho', hid, hkey⟩ := hpairs.came hinvolves
        obtain rfl := eq_of_txId hdistinct ho' ho hid
        rw [hkey, beq_self_eq_true]
        rfl
  rw [Process.sharesOf, OrderBookService.bookOf, hr.book, hfills]
  exact hrests

/-- Of an order that did not come in there is nothing. -/
theorem runProcess_sharesOf_zero (marketId : Str) {txId : Str}
    (h : ∀ o ∈ offeredOrders requests, o.txId ≠ txId) :
    (runProcess requests).sharesOf marketId txId = 0 := by
  obtain ⟨hshelved, hpairs⟩ := runProcess_shelved requests
  have hfills : (runProcess requests).fills.filter (·.involves txId) = [] := by
    apply List.filter_eq_nil_iff.mpr
    intro m hm hinvolves
    obtain ⟨bid, ask, hpair⟩ := hpairs m hm
    obtain ⟨o, ho, hid, _⟩ := hpair.came hinvolves
    exact h o ho hid
  have hbook : ((runProcess requests).service.bookOf marketId).bind (·.find txId) = none := by
    apply Option.bind_eq_none_iff.mpr
    intro book hbook
    apply Book.find_eq_none.mpr
    intro o ho hid
    obtain ⟨_, o', ho', heq⟩ := hshelved _ book hbook o ho
    exact h o' ho' ((txId_of_unfilled heq).symm.trans hid)
  rw [Process.sharesOf, hfills, hbook]
  rfl

end Order

end PrismBackend.Clob
