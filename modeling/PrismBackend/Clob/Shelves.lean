import PrismBackend.Clob.Registry

/-!
# CLOB: orders in the book of their market

A fill changes how much of an order is filled and nothing else, so every order
that rests is one that came in, in the book that its market id names in lower
case, and a fill is between two of one book.
-/

namespace PrismBackend.Clob

def unfilled (order : CreateOrderRequestClob) : CreateOrderRequestClob :=
  { order with
    sharesFilled := 0
    collateralFilled := 0 }

theorem marketId_of_unfilled {a b : CreateOrderRequestClob} (h : unfilled a = unfilled b) :
    a.marketId = b.marketId := congrArg (·.marketId) h

theorem txId_of_unfilled {a b : CreateOrderRequestClob} (h : unfilled a = unfilled b) :
    a.txId = b.txId := congrArg (·.txId) h

def Book.orders (book : Book) : List CreateOrderRequestClob := book.bids ++ book.asks

/-! ## One pass -/

/-- A fill is of the incoming order, whose market it carries, and of one of the others. -/
def FillsWith (incoming : CreateOrderRequestClob) (others : List CreateOrderRequestClob)
    (m : ClobMatch) : Prop :=
  m.marketId = incoming.marketId ∧ ∃ bid ask, m.bid = some bid ∧ m.ask = some ask ∧
    ∃ o ∈ others, (unfilled bid = unfilled incoming ∧ unfilled ask = unfilled o) ∨
      (unfilled bid = unfilled o ∧ unfilled ask = unfilled incoming)

theorem FillsWith.mono {incoming : CreateOrderRequestClob}
    {others others' : List CreateOrderRequestClob} {m : ClobMatch} (h : FillsWith incoming others m)
    (hsub : ∀ o ∈ others, ∃ o' ∈ others', unfilled o = unfilled o') :
    FillsWith incoming others' m := by
  obtain ⟨hmarket, bid, ask, hbid, hask, o, ho, hpair⟩ := h
  obtain ⟨o', ho', heq⟩ := hsub o ho
  exact ⟨hmarket, bid, ask, hbid, hask, o', ho', heq ▸ hpair⟩

/-- A pass keeps the orders of its side as they are, but for their fills. -/
structure KeepsOrders (side : List CreateOrderRequestClob) (incoming : CreateOrderRequestClob)
    (pass : Pass) : Prop where
  incoming_eq : unfilled pass.incoming = unfilled incoming
  resting : ∀ o ∈ pass.resting, ∃ o' ∈ side, unfilled o = unfilled o'
  fills : ∀ m ∈ pass.matches_, FillsWith incoming side m

section Pass

variable {side : List CreateOrderRequestClob} {resting incoming incoming' : CreateOrderRequestClob}
  {pass : Pass}

theorem KeepsOrders.stop (side : List CreateOrderRequestClob) (incoming : CreateOrderRequestClob) :
    KeepsOrders side incoming ⟨side, incoming, [], [], []⟩ :=
  ⟨rfl, fun o ho => ⟨o, ho, rfl⟩, fun _ hm => absurd hm List.not_mem_nil⟩

/-- One more order on the side, which the pass leaves alone. -/
theorem KeepsOrders.cons (h : KeepsOrders side incoming pass) (resting : CreateOrderRequestClob) :
    KeepsOrders (resting :: side) incoming pass := by
  refine ⟨h.incoming_eq, ?_, ?_⟩
  · intro o ho
    obtain ⟨o', ho', heq⟩ := h.resting o ho
    exact ⟨o', List.mem_cons_of_mem _ ho', heq⟩
  · intro m hm
    exact (h.fills m hm).mono fun o ho => ⟨o, List.mem_cons_of_mem _ ho, rfl⟩

theorem KeepsOrders.keep (h : KeepsOrders side incoming pass) {o : CreateOrderRequestClob}
    (ho : ∃ o' ∈ side, unfilled o = unfilled o') :
    KeepsOrders side incoming { pass with resting := o :: pass.resting } :=
  ⟨h.incoming_eq, List.forall_mem_cons.mpr ⟨ho, h.resting⟩, h.fills⟩

/-- One more fill, after which the incoming order goes on with more of it filled. -/
theorem KeepsOrders.fill (h : KeepsOrders side incoming' pass)
    (hincoming : unfilled incoming' = unfilled incoming) {m : ClobMatch}
    (hm : FillsWith incoming side m) :
    KeepsOrders side incoming { pass with matches_ := m :: pass.matches_ } := by
  refine ⟨h.incoming_eq.trans hincoming, h.resting, List.forall_mem_cons.mpr ⟨hm, ?_⟩⟩
  intro m' hm'
  obtain ⟨hmarket, bid, ask, hbid, hask, o, ho, hpair⟩ := h.fills m' hm'
  exact ⟨hmarket.trans (marketId_of_unfilled hincoming), bid, ask, hbid, hask, o, ho,
    hincoming ▸ hpair⟩

end Pass

theorem fillsWith_bidAsk {incomingIsBid : Bool} {incoming resting : CreateOrderRequestClob}
    {side : List CreateOrderRequestClob} (hmem : resting ∈ side) (fill price yes no : Nat) :
    FillsWith incoming side ⟨incoming.marketId, some (bidAsk incomingIsBid incoming resting).1,
      some (bidAsk incomingIsBid incoming resting).2, fill, price, yes, no⟩ := by
  refine ⟨rfl, _, _, rfl, rfl, resting, hmem, ?_⟩
  cases incomingIsBid with
  | true => exact Or.inl ⟨rfl, rfl⟩
  | false => exact Or.inr ⟨rfl, rfl⟩

theorem matchLoop_keepsOrders (now : Nat) (incomingIsBid : Bool)
    (side : List CreateOrderRequestClob) (incoming : CreateOrderRequestClob) :
    KeepsOrders side incoming (matchLoop now incomingIsBid side incoming) := by
  fun_induction matchLoop with
  | case1 incoming => exact KeepsOrders.stop [] incoming
  | case2 resting rest incoming => exact KeepsOrders.stop _ _
  | case3 resting rest incoming hdone hexpired pass ih =>
      have hkept := ih.cons resting
      exact ⟨hkept.incoming_eq, hkept.resting, hkept.fills⟩
  | case4 resting rest incoming => exact KeepsOrders.stop _ _
  | case5 resting rest incoming pair hdone hexpired hcrosses hfill pass ih =>
      exact (ih.cons resting).keep ⟨resting, List.mem_cons_self, rfl⟩
  | case6 resting rest incoming pair hdone hexpired hcrosses fill price hfill legs clobMatch filled
      pass hfull ih =>
      have hfills : FillsWith incoming (resting :: rest) clobMatch :=
        fillsWith_bidAsk List.mem_cons_self fill price legs.1 legs.2
      have hsame : unfilled (filledBy incoming fill legs.1 legs.2) = unfilled incoming := rfl
      have hkept := (ih.cons resting).fill hsame hfills
      exact ⟨hkept.incoming_eq, hkept.resting, hkept.fills⟩
  | case7 resting rest incoming pair hdone hexpired hcrosses fill price hfill legs clobMatch filled
      pass hfull ih =>
      have hfills : FillsWith incoming (resting :: rest) clobMatch :=
        fillsWith_bidAsk List.mem_cons_self fill price legs.1 legs.2
      have hsame : unfilled (filledBy incoming fill legs.1 legs.2) = unfilled incoming := rfl
      have hkept := (ih.cons resting).fill hsame hfills
      exact hkept.keep ⟨resting, List.mem_cons_self, rfl⟩

/-! ## One book -/

/-- Adding an order keeps the orders of the book and adds the incoming one, but for fills, and the
fills are of the incoming order and of orders of the book. -/
theorem Book.add_orders (book : Book) (incoming : CreateOrderRequestClob) (now : Nat) :
    (∀ o ∈ (book.add incoming now).book.orders,
        ∃ o' ∈ incoming :: book.orders, unfilled o = unfilled o') ∧
      ∀ m ∈ (book.add incoming now).matches_, FillsWith incoming book.orders m := by
  have hincoming {o o' : CreateOrderRequestClob} {side : List CreateOrderRequestClob}
      (ho : o ∈ restRemainder side o') (heq : unfilled o' = unfilled incoming) :
      o ∈ side ∨ unfilled o = unfilled incoming := by
    rcases mem_restRemainder ho with hside | ⟨rfl, _⟩
    · exact Or.inl hside
    · exact Or.inr heq
  unfold Book.add
  split
  · exact ⟨fun o ho => ⟨o, List.mem_cons_of_mem _ ho, rfl⟩,
      fun m hm => absurd hm List.not_mem_nil⟩
  split
  · have hkept := matchLoop_keepsOrders now true (sortAsks book.asks) incoming
    have hside (o : CreateOrderRequestClob) (ho : o ∈ sortAsks book.asks) : o ∈ book.orders :=
      List.mem_append_right _ ((sortAsks_perm book.asks).mem_iff.mp ho)
    constructor
    · intro o ho
      rcases List.mem_append.mp ho with hbid | hask
      · rcases hincoming hbid hkept.incoming_eq with hthere | heq
        · exact ⟨o, List.mem_cons_of_mem _ (List.mem_append_left _ hthere), rfl⟩
        · exact ⟨incoming, List.mem_cons_self, heq⟩
      · obtain ⟨o', ho', heq⟩ := hkept.resting o hask
        exact ⟨o', List.mem_cons_of_mem _ (hside o' ho'), heq⟩
    · intro m hm
      exact (hkept.fills m hm).mono fun o ho => ⟨o, hside o ho, rfl⟩
  · have hkept := matchLoop_keepsOrders now false (sortBids book.bids) incoming
    have hside (o : CreateOrderRequestClob) (ho : o ∈ sortBids book.bids) : o ∈ book.orders :=
      List.mem_append_left _ ((sortBids_perm book.bids).mem_iff.mp ho)
    constructor
    · intro o ho
      rcases List.mem_append.mp ho with hbid | hask
      · obtain ⟨o', ho', heq⟩ := hkept.resting o hbid
        exact ⟨o', List.mem_cons_of_mem _ (hside o' ho'), heq⟩
      · rcases hincoming hask hkept.incoming_eq with hthere | heq
        · exact ⟨o, List.mem_cons_of_mem _ (List.mem_append_right _ hthere), rfl⟩
        · exact ⟨incoming, List.mem_cons_self, heq⟩
    · intro m hm
      exact (hkept.fills m hm).mono fun o ho => ⟨o, hside o ho, rfl⟩

/-! ## The books of a process -/

/-- Every order that rests came in, and is in the book of its market. -/
def OrderBookService.Shelved (s : OrderBookService) (came : List CreateOrderRequestClob) : Prop :=
  ∀ key book, s.orderBooks key = some book → ∀ o ∈ book.orders,
    toAsciiLowercase o.marketId = key ∧ ∃ o' ∈ came, unfilled o = unfilled o'

/-- The bid and the ask of a fill came in, for the market of one book, and one of them gave the
fill its market id. -/
structure Pairs (came : List CreateOrderRequestClob) (bid ask : CreateOrderRequestClob)
    (m : ClobMatch) : Prop where
  bid_eq : m.bid = some bid
  ask_eq : m.ask = some ask
  bid_came : ∃ o ∈ came, unfilled bid = unfilled o
  ask_came : ∃ o ∈ came, unfilled ask = unfilled o
  book : toAsciiLowercase bid.marketId = toAsciiLowercase ask.marketId
  market : m.marketId = bid.marketId ∨ m.marketId = ask.marketId

namespace OrderBookService

variable {s : OrderBookService} {came came' : List CreateOrderRequestClob}

theorem Shelved.mono (h : s.Shelved came) (hsub : came ⊆ came') : s.Shelved came' := by
  intro key book hbook o ho
  obtain ⟨hkey, o', ho', heq⟩ := h key book hbook o ho
  exact ⟨hkey, o', hsub ho', heq⟩

/-- A book is replaced by one whose orders came in for its market. -/
theorem Shelved.setBook (h : s.Shelved came) {marketId : Str} {book : Option Book}
    (hbook : ∀ b, book = some b → ∀ o ∈ b.orders,
      toAsciiLowercase o.marketId = toAsciiLowercase marketId ∧
        ∃ o' ∈ came, unfilled o = unfilled o') :
    (s.setBook marketId book).Shelved came := by
  intro key b hb
  rw [setBook_orderBooks] at hb
  split at hb
  · next hkey =>
    rw [hkey]
    exact hbook b hb
  · exact h key b hb

theorem Shelved.placeOrder (h : s.Shelved came) {order : CreateOrderRequestClob}
    (hcame : order ∈ came) (now : Nat) :
    (s.placeOrder order now).1.Shelved came ∧
      ∀ m ∈ (s.placeOrder order now).2, ∃ bid ask, Pairs came bid ask m := by
  unfold OrderBookService.placeOrder
  split
  · exact ⟨h, fun m hm => absurd hm List.not_mem_nil⟩
  next book hbook =>
  obtain ⟨hkept, hfills⟩ := book.add_orders order now
  have hthere (o : CreateOrderRequestClob) (ho : o ∈ book.orders) :
      toAsciiLowercase o.marketId = toAsciiLowercase order.marketId ∧
        ∃ o' ∈ came, unfilled o = unfilled o' :=
    h _ book hbook o ho
  constructor
  · refine Shelved.setBook (s := { s with txIdLut := order.txId :: s.txIdLut }) h ?_
    rintro b hb o ho
    cases hb
    obtain ⟨o', ho', heq⟩ := hkept o ho
    rcases List.mem_cons.mp ho' with rfl | hold
    · exact ⟨congrArg toAsciiLowercase (marketId_of_unfilled heq), o', hcame, heq⟩
    · obtain ⟨hkey, o'', ho'', heq'⟩ := hthere o' hold
      exact ⟨(congrArg toAsciiLowercase (marketId_of_unfilled heq)).trans hkey, o'', ho'',
        heq.trans heq'⟩
  · intro m hm
    obtain ⟨hmarket, bid, ask, hbid, hask, o, ho, hpair⟩ := hfills m hm
    obtain ⟨hkey, o', ho', heq'⟩ := hthere o ho
    refine ⟨bid, ask, ?_⟩
    rcases hpair with ⟨hown, hother⟩ | ⟨hother, hown⟩
    · refine ⟨hbid, hask, ⟨order, hcame, hown⟩, ⟨o', ho', hother.trans heq'⟩, ?_, Or.inl ?_⟩
      · rw [marketId_of_unfilled hown, marketId_of_unfilled hother, hkey]
      · rw [hmarket, marketId_of_unfilled hown]
    · refine ⟨hbid, hask, ⟨o', ho', hother.trans heq'⟩, ⟨order, hcame, hown⟩, ?_, Or.inr ?_⟩
      · rw [marketId_of_unfilled hown, marketId_of_unfilled hother, hkey]
      · rw [hmarket, marketId_of_unfilled hown]

theorem Shelved.cancelOrder (h : s.Shelved came) (marketId txId : Str) :
    (s.cancelOrder marketId txId).1.Shelved came := by
  unfold OrderBookService.cancelOrder
  split
  · exact h
  next book hbook =>
  obtain ⟨_, _, hbids, hasks⟩ := book.remove_perm txId
  refine h.setBook ?_
  rintro b hb o ho
  cases hb
  exact h _ book hbook o ((hbids.append hasks).subset ho)

theorem Shelved.step (h : s.Shelved came) {request : ClobRequest}
    (hcame : ∀ o ∈ request.order, o ∈ came) :
    (s.step request).1.Shelved came ∧
      ∀ m ∈ (s.step request).2, ∃ bid ask, Pairs came bid ask m := by
  have hnone {m : ClobMatch} (hm : m ∈ ([] : List ClobMatch)) : ∃ bid ask, Pairs came bid ask m :=
    absurd hm List.not_mem_nil
  cases request with
  | createMarket marketId =>
      refine ⟨?_, fun m hm => hnone hm⟩
      show (s.addMarket marketId).1.Shelved came
      unfold OrderBookService.addMarket
      split
      · exact h
      · refine h.setBook ?_
        rintro b hb o ho
        cases hb
        exact absurd ho List.not_mem_nil
  | closeMarket marketId =>
      refine ⟨h.setBook ?_, fun m hm => hnone hm⟩
      rintro b hb
      exact absurd hb (by simp)
  | deliverOrder order now =>
      simp only [OrderBookService.step]
      split
      · exact ⟨h, fun m hm => hnone hm⟩
      · exact h.placeOrder (hcame order rfl) now
  | createOrder order now => exact h.placeOrder (hcame order rfl) now
  | cancelOrder marketId txId => exact ⟨h.cancelOrder marketId txId, fun m hm => hnone hm⟩

end OrderBookService

theorem Pairs.mono {came came' : List CreateOrderRequestClob} {bid ask : CreateOrderRequestClob}
    {m : ClobMatch} (h : Pairs came bid ask m) (hsub : came ⊆ came') : Pairs came' bid ask m := by
  obtain ⟨o, ho, heq⟩ := h.bid_came
  obtain ⟨o', ho', heq'⟩ := h.ask_came
  exact ⟨h.bid_eq, h.ask_eq, ⟨o, hsub ho, heq⟩, ⟨o', hsub ho', heq'⟩, h.book, h.market⟩

/-- In every run of a process, orders rest in the book of their market, and fills are between
orders that came in for one book. -/
theorem runProcess_shelved (requests : List ClobRequest) :
    (runProcess requests).service.Shelved (offeredOrders requests) ∧
      ∀ m ∈ (runProcess requests).fills, ∃ bid ask, Pairs (offeredOrders requests) bid ask m := by
  induction requests using List.reverseRecOn with
  | nil =>
      refine ⟨fun key book hbook => absurd hbook (by simp [runProcess, OrderBookService.new]), ?_⟩
      intro m hm
      exact absurd hm List.not_mem_nil
  | append_singleton requests request ih =>
      obtain ⟨hshelved, hpairs⟩ := ih
      have hrun : runProcess (requests ++ [request]) = (runProcess requests).step request := by
        simp [runProcess, List.foldl_append]
      have hsub : offeredOrders requests ⊆ offeredOrders (requests ++ [request]) := by
        rw [offeredOrders_append]
        exact List.subset_append_left _ _
      have hnew : ∀ o ∈ request.order, o ∈ offeredOrders (requests ++ [request]) := by
        intro o ho
        rw [offeredOrders_append]
        refine List.mem_append_right _ (List.mem_filterMap.mpr ⟨request, ?_, ho⟩)
        exact List.mem_singleton_self _
      obtain ⟨hstep, hfills⟩ := (hshelved.mono hsub).step hnew
      rw [hrun]
      refine ⟨hstep, ?_⟩
      intro m hm
      rcases List.mem_append.mp hm with hold | hfill
      · obtain ⟨bid, ask, hpair⟩ := hpairs m hold
        exact ⟨bid, ask, hpair.mono hsub⟩
      · exact hfills m hfill

end PrismBackend.Clob
