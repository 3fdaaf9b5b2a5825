import Mathlib.Logic.Function.Basic
import PrismBackend.Lib.Entries
import PrismBackend.Clob.Conservation

/-!
# CLOB: one process

`orderbook.rs` with the two ways in: the messages of the stream that `nats.rs`
reads, and the requests of `grpc_service.rs`. Each market has a book of its own,
and every fill is published as it happens.
-/

namespace PrismBackend.Clob

open PrismBackend.Lib

/-! ## The service -/

/-- The books by market, and the ids of the orders that were placed. -/
structure OrderBookService where
  orderBooks : Str → Option Book
  txIdLut : List Str

def OrderBookService.new : OrderBookService := ⟨fun _ => none, []⟩

namespace OrderBookService

variable (s : OrderBookService)

/-- `to_lowercase`, on ids that are ASCII texts. -/
def bookOf (marketId : Str) : Option Book := s.orderBooks (toAsciiLowercase marketId)

def setBook (marketId : Str) (book : Option Book) : OrderBookService :=
  { s with orderBooks := Function.update s.orderBooks (toAsciiLowercase marketId) book }

/-- Whether the market is new. -/
def addMarket (marketId : Str) : OrderBookService × Bool :=
  match s.bookOf marketId with
  | some _ => (s, false)
  | none => (s.setBook marketId (some ⟨[], []⟩), true)

def closeMarket (marketId : Str) : OrderBookService := s.setBook marketId none

def orderExists (txId : Str) : Bool := s.txIdLut.contains txId

/-- The service and the fills of the order; nothing happens where the market is not found. -/
def placeOrder (order : CreateOrderRequestClob) (now : Nat) : OrderBookService × List ClobMatch :=
  match s.bookOf order.marketId with
  | none => (s, [])
  | some book =>
    let added := book.add order now
    ({ s.setBook order.marketId (some added.book) with txIdLut := order.txId :: s.txIdLut },
      added.matches_)

/-- Whether the order was found, where the market is. -/
def cancelOrder (marketId txId : Str) : OrderBookService × Option Bool :=
  match s.bookOf marketId with
  | none => (s, none)
  | some book =>
    let removed := book.remove txId
    (s.setBook marketId (some removed.1), some removed.2)

end OrderBookService

inductive ClobRequest
  | createMarket (marketId : Str)
  | closeMarket (marketId : Str)
  /- a message of the stream, new or redelivered -/
  | deliverOrder (order : CreateOrderRequestClob) (now : Nat)
  | createOrder (order : CreateOrderRequestClob) (now : Nat)
  | cancelOrder (marketId txId : Str)

def OrderBookService.step (s : OrderBookService) : ClobRequest → OrderBookService × List ClobMatch
  | .createMarket marketId => ((s.addMarket marketId).1, [])
  | .closeMarket marketId => (s.closeMarket marketId, [])
  | .deliverOrder order now => if s.orderExists order.txId then (s, []) else s.placeOrder order now
  | .createOrder order now => s.placeOrder order now
  | .cancelOrder marketId txId => ((s.cancelOrder marketId txId).1, [])

structure Process where
  service : OrderBookService
  fills : List ClobMatch

def Process.step (r : Process) (request : ClobRequest) : Process :=
  ⟨(r.service.step request).1, r.fills ++ (r.service.step request).2⟩

def runProcess (requests : List ClobRequest) : Process :=
  requests.foldl Process.step ⟨.new, []⟩

/-! ## Fill keys -/

/-- The market, the orders of a fill and what both had filled before. -/
abbrev FillKey := Str × Str × Str × Nat × Nat

def fillKey (m : ClobMatch) : Option FillKey := do
  let bid ← m.bid
  let ask ← m.ask
  return (m.marketId, bid.txId, ask.txId, bid.sharesFilled, ask.sharesFilled)

def bidKey (m : ClobMatch) : Option (Str × Nat) := m.bid.map fun bid => (bid.txId, bid.sharesFilled)

/-- The number as `format!` writes it. -/
def decimal (n : Nat) : Str := Nat.toDigits 10 n

def keyText (key : FillKey) : Str :=
  [':'].intercalate [key.1, key.2.1, key.2.2.1, decimal key.2.2.2.1, decimal key.2.2.2.2]

/-- The `Nats-Msg-Id` of `publish_match`; without both orders nothing is published. -/
def messageId (m : ClobMatch) : Option Str := (fillKey m).map keyText

theorem decimal_injective : Function.Injective decimal := by
  intro m n h
  have hdigits := congrArg (fun digits => Nat.ofDigitChars 10 digits 0) h
  simpa only [decimal, Nat.ofDigitChars_ten_toDigits] using hdigits

theorem colon_not_mem_decimal (n : Nat) : ':' ∉ decimal n := by
  intro hmem
  have hdigit := Nat.isDigit_of_mem_toDigits (by decide) (by decide) hmem
  exact absurd hdigit (by decide)

theorem keyText_injective {key key' : FillKey}
    (h : ∀ s ∈ [key.1, key.2.1, key.2.2.1], ':' ∉ s)
    (h' : ∀ s ∈ [key'.1, key'.2.1, key'.2.2.1], ':' ∉ s) (htext : keyText key = keyText key') :
    key = key' := by
  obtain ⟨market, bid, ask, bidBefore, askBefore⟩ := key
  obtain ⟨market', bid', ask', bidBefore', askBefore'⟩ := key'
  have hparts {market bid ask : Str} (m n : Nat) (h : ∀ s ∈ [market, bid, ask], ':' ∉ s) :
      ([':'].intercalate [market, bid, ask, decimal m, decimal n]).splitOn ':' =
        [market, bid, ask, decimal m, decimal n] := by
    apply List.splitOn_intercalate
    · intro s hs
      simp only [List.mem_cons, List.not_mem_nil, or_false] at hs h
      rcases hs with rfl | rfl | rfl | rfl | rfl
      · exact h _ (Or.inl rfl)
      · exact h _ (Or.inr (Or.inl rfl))
      · exact h _ (Or.inr (Or.inr rfl))
      · exact colon_not_mem_decimal m
      · exact colon_not_mem_decimal n
    · exact List.cons_ne_nil _ _
  have hsplit := congrArg (List.splitOn ':') htext
  simp only [keyText] at hsplit
  rw [hparts _ _ h, hparts _ _ h'] at hsplit
  simp only [List.cons.injEq, and_true] at hsplit
  obtain ⟨rfl, rfl, rfl, hbid, hask⟩ := hsplit
  rw [decimal_injective hbid, decimal_injective hask]

/-! ## The fills of one book -/

theorem Fair.fillKey_eq {bid ask : CreateOrderRequestClob} {m : ClobMatch} (h : Fair bid ask m) :
    fillKey m = some (m.marketId, bid.txId, ask.txId, bid.sharesFilled, ask.sharesFilled) := by
  rw [fillKey, h.bid_eq, h.ask_eq]
  rfl

theorem Fair.bidKey_eq {bid ask : CreateOrderRequestClob} {m : ClobMatch} (h : Fair bid ask m) :
    bidKey m = some (bid.txId, bid.sharesFilled) := by
  rw [bidKey, h.bid_eq, Option.map_some]

/-- A fill leaves its bid with more shares than before, whatever follows. -/
theorem Fair.bid_lt {b a : CreateOrderRequestClob} {before : List ClobMatch} {m : ClobMatch}
    (h : Fair (afterFills b before) (afterFills a before) m) (after : List ClobMatch) :
    (afterFills b before).sharesFilled < (afterFills b (before ++ m :: after)).sharesFilled := by
  have hinvolved : m.involves (afterFills b before).txId = true :=
    (h.involves_iff _).mpr (Or.inl rfl)
  have hpos := h.fill_pos
  rw [afterFills_append, afterFills_cons, afterFill, if_pos hinvolved,
    afterFills_eq _ after]
  simp only [filledBy]
  omega

theorem FairRun.of_mem {orders : List CreateOrderRequestClob} {ms : List ClobMatch}
    (h : FairRun orders ms) {m : ClobMatch} (hm : m ∈ ms) :
    ∃ b ∈ orders, ∃ a ∈ orders, ∃ before, Fair (afterFills b before) (afterFills a before) m := by
  obtain ⟨before, after, hsplit⟩ := List.append_of_mem hm
  obtain ⟨b, hb, a, ha, hfair⟩ := h before m after hsplit
  exact ⟨b, hb, a, ha, before, hfair⟩

/-- No two fills of a run find one bid equally filled: a later one finds more of it filled. -/
theorem FairRun.bidKeys_nodup {orders : List CreateOrderRequestClob} {ms : List ClobMatch}
    (h : FairRun orders ms) (hdistinct : (orders.map (·.txId)).Nodup) :
    (ms.map bidKey).Nodup := by
  induction ms using List.reverseRecOn with
  | nil => exact List.nodup_nil
  | append_singleton ms m ih =>
      rw [List.map_append, List.map_singleton]
      refine List.nodup_append.mpr ⟨ih h.init, List.nodup_singleton _, ?_⟩
      intro key hkey last hlast heq
      rw [List.mem_singleton.mp hlast] at heq
      obtain ⟨m', hm', rfl⟩ := List.mem_map.mp hkey
      obtain ⟨before, after, rfl⟩ := List.append_of_mem hm'
      obtain ⟨b', hb', a', _, hfair'⟩ := h before m' (after ++ [m]) (by simp)
      obtain ⟨b, hb, a, _, hfair⟩ := h (before ++ m' :: after) m [] rfl
      rw [hfair'.bidKey_eq, hfair.bidKey_eq] at heq
      simp only [Option.some.injEq, Prod.mk.injEq, afterFills_txId] at heq
      obtain rfl := eq_of_txId hdistinct hb' hb heq.1
      have hlt := hfair'.bid_lt after
      omega

theorem matchLoop_marketId (now : Nat) (incomingIsBid : Bool)
    (side : List CreateOrderRequestClob) (incoming : CreateOrderRequestClob) :
    ∀ m ∈ (matchLoop now incomingIsBid side incoming).matches_, m.marketId = incoming.marketId := by
  induction side generalizing incoming with
  | nil =>
      intro m hm
      exact absurd hm List.not_mem_nil
  | cons resting rest ih =>
      intro m hm
      simp only [matchLoop] at hm
      by_cases hdone : remainingShares incoming = 0
      · rw [if_pos hdone] at hm
        exact absurd hm List.not_mem_nil
      rw [if_neg hdone] at hm
      by_cases hexpired : expired resting now = true
      · rw [if_pos hexpired] at hm
        exact ih incoming m hm
      rw [if_neg hexpired] at hm
      by_cases hcrosses : crosses (bidAsk incomingIsBid incoming resting).1
          (bidAsk incomingIsBid incoming resting).2 = true
      · rw [if_neg (by simp [hcrosses])] at hm
        cases hfill : tryFill incomingIsBid incoming resting with
        | none =>
            rw [hfill] at hm
            exact ih incoming m hm
        | some found =>
            rw [hfill] at hm
            dsimp only at hm
            split at hm
            all_goals
              rcases List.mem_cons.mp hm with rfl | hm
              · rfl
              · have hmarket := ih _ m hm
                exact hmarket
      · rw [if_pos (by simp [hcrosses])] at hm
        exact absurd hm List.not_mem_nil

theorem Book.add_marketId (book : Book) (incoming : CreateOrderRequestClob) (now : Nat) :
    ∀ m ∈ (book.add incoming now).matches_, m.marketId = incoming.marketId := by
  intro m hm
  unfold Book.add at hm
  split at hm
  · exact absurd hm List.not_mem_nil
  · split at hm
    · exact matchLoop_marketId now true _ incoming m hm
    · exact matchLoop_marketId now false _ incoming m hm

/-! ## The books of a process -/

def ClobRequest.order : ClobRequest → Option CreateOrderRequestClob
  | .deliverOrder order _ => some order
  | .createOrder order _ => some order
  | _ => none

/-- The orders that come in, as often as they come in. -/
def offeredOrders (requests : List ClobRequest) : List CreateOrderRequestClob :=
  requests.filterMap ClobRequest.order

/-- Orders are told apart by their tx ids: a request to create an order brings a new one, and
only a message of the stream may repeat one. -/
def CreatesNew (requests : List ClobRequest) : Prop :=
  ∀ before order now after, requests = before ++ .createOrder order now :: after →
    order.txId ∉ (offeredOrders before).map (·.txId)

/-- A process in terms of its books, past and present: each is a run of its own. -/
structure Traced (requests : List ClobRequest) (r : Process) (lives : List (Str × List BookOp)) :
    Prop where
  fills : r.fills.Perm (lives.flatMap fun life => (runBook life.2).matches_)
  books : ∀ key book, r.service.orderBooks key = some book →
    ∃ ops, (key, ops) ∈ lives ∧ (runBook ops).book = book
  ids : (lives.flatMap fun life => (addedOrders life.2).map (·.txId)).Nodup
  offered : ∀ life ∈ lives, ∀ o ∈ addedOrders life.2, o ∈ offeredOrders requests ∧
    o.sharesFilled < o.qtyShares ∧ o.txId ∈ r.service.txIdLut

theorem offeredOrders_append (requests requests' : List ClobRequest) :
    offeredOrders (requests ++ requests') = offeredOrders requests ++ offeredOrders requests' :=
  List.filterMap_append

theorem runBook_concat (ops : List BookOp) (op : BookOp) :
    runBook (ops ++ [op]) = (runBook ops).step op := by
  simp [runBook, List.foldl_append]

section Trace

variable {requests requests' : List ClobRequest} {r : Process} {lives : List (Str × List BookOp)}

theorem Traced.keep (h : Traced requests r lives)
    (hrequests : ∀ o ∈ offeredOrders requests, o ∈ offeredOrders requests')
    {service : OrderBookService}
    (hbooks : ∀ key book, service.orderBooks key = some book →
      r.service.orderBooks key = some book)
    (hlut : ∀ id ∈ r.service.txIdLut, id ∈ service.txIdLut) :
    Traced requests' ⟨service, r.fills ++ []⟩ lives := by
  rw [List.append_nil]
  refine ⟨h.fills, fun key book hbook => h.books key book (hbooks key book hbook), h.ids, ?_⟩
  intro life hlife o ho
  obtain ⟨hoffered, hopen, hplaced⟩ := h.offered life hlife o ho
  exact ⟨hrequests o hoffered, hopen, hlut _ hplaced⟩

theorem Traced.start (h : Traced requests r lives)
    (hrequests : ∀ o ∈ offeredOrders requests, o ∈ offeredOrders requests') (key : Str) :
    Traced requests' ⟨⟨Function.update r.service.orderBooks key (some ⟨[], []⟩),
      r.service.txIdLut⟩, r.fills ++ []⟩ (lives ++ [(key, [])]) := by
  rw [List.append_nil]
  refine ⟨?_, ?_, ?_, ?_⟩
  · rw [List.flatMap_append, List.flatMap_singleton]
    show r.fills.Perm (_ ++ [])
    rw [List.append_nil]
    exact h.fills
  · intro key' book hbook
    dsimp only at hbook
    by_cases hkey : key' = key
    · subst hkey
      rw [Function.update_self, Option.some.injEq] at hbook
      exact ⟨[], List.mem_append_right _ (List.mem_singleton_self _), hbook⟩
    · rw [Function.update_of_ne hkey] at hbook
      obtain ⟨ops, hops, hrun⟩ := h.books key' book hbook
      exact ⟨ops, List.mem_append_left _ hops, hrun⟩
  · rw [List.flatMap_append, List.flatMap_singleton]
    show (_ ++ []).Nodup
    rw [List.append_nil]
    exact h.ids
  · intro life hlife o ho
    rcases List.mem_append.mp hlife with hlife | hlife
    · obtain ⟨hoffered, hopen, hlut⟩ := h.offered life hlife o ho
      exact ⟨hrequests o hoffered, hopen, hlut⟩
    · rw [List.mem_singleton.mp hlife] at ho
      exact absurd ho List.not_mem_nil

/-- An operation on one book extends the run of that book. -/
theorem Traced.extend (h : Traced requests r lives)
    (hrequests : ∀ o ∈ offeredOrders requests, o ∈ offeredOrders requests') {key : Str}
    {book book' : Book} (hbook : r.service.orderBooks key = some book) (op : BookOp)
    {lut : List Str} (hlut : ∀ id ∈ r.service.txIdLut, id ∈ lut) {new : List ClobMatch}
    (hstep : ∀ history : History, history.book = book → (history.step op).book = book' ∧
      (history.step op).matches_ = history.matches_ ++ new)
    (hop : ∀ o ∈ addedOrders [op], (o ∈ offeredOrders requests' ∧ o.sharesFilled < o.qtyShares ∧
      o.txId ∈ lut) ∧ ∀ life ∈ lives, o.txId ∉ (addedOrders life.2).map (·.txId)) :
    ∃ lives', Traced requests' ⟨⟨Function.update r.service.orderBooks key (some book'), lut⟩,
      r.fills ++ new⟩ lives' := by
  obtain ⟨ops, hmem, hrun⟩ := h.books key book hbook
  obtain ⟨left, right, rfl⟩ := List.append_of_mem hmem
  obtain ⟨hbook', hmatches⟩ := hstep (runBook ops) hrun
  refine ⟨left ++ (key, ops ++ [op]) :: right, ?_, ?_, ?_, ?_⟩
  · apply (h.fills.append_right new).trans
    apply flatMap_extend
    dsimp only
    rw [runBook_concat, hmatches]
  · intro key' found hfound
    dsimp only at hfound
    by_cases hkey : key' = key
    · subst hkey
      rw [Function.update_self, Option.some.injEq] at hfound
      refine ⟨ops ++ [op], by simp, ?_⟩
      rw [runBook_concat, hbook', hfound]
    · rw [Function.update_of_ne hkey] at hfound
      obtain ⟨ops', hops', hrun'⟩ := h.books key' found hfound
      refine ⟨ops', ?_, hrun'⟩
      simp only [List.mem_append, List.mem_cons, Prod.mk.injEq] at hops' ⊢
      rcases hops' with hleft | ⟨heq, _⟩ | hright
      · exact Or.inl hleft
      · exact absurd heq hkey
      · exact Or.inr (Or.inr hright)
  · let ids (life : Str × List BookOp) : List Str := (addedOrders life.2).map (·.txId)
    have hperm : ((left ++ (key, ops) :: right).flatMap ids ++ ids (key, [op])).Perm
        ((left ++ (key, ops ++ [op]) :: right).flatMap ids) := by
      apply flatMap_extend
      show (addedOrders (ops ++ [op])).map _ = _
      rw [addedOrders_append, List.map_append]
    rw [← hperm.nodup_iff, List.nodup_append]
    refine ⟨h.ids, ?_, ?_⟩
    · cases op with
      | add order now => exact List.nodup_singleton _
      | remove txId => exact List.nodup_nil
    · intro id hid id' hid' heq
      obtain ⟨life, hlife, hold⟩ := List.mem_flatMap.mp hid
      obtain ⟨o, ho, rfl⟩ := List.mem_map.mp hid'
      exact (hop o ho).2 life hlife (heq ▸ hold)
  · have hold (life : Str × List BookOp) (hlife : life ∈ left ++ (key, ops) :: right) (o)
        (ho : o ∈ addedOrders life.2) : o ∈ offeredOrders requests' ∧
        o.sharesFilled < o.qtyShares ∧ o.txId ∈ lut := by
      obtain ⟨hoffered, hopen, hplaced⟩ := h.offered life hlife o ho
      exact ⟨hrequests o hoffered, hopen, hlut _ hplaced⟩
    intro life hlife o ho
    rw [List.mem_append, List.mem_cons] at hlife
    rcases hlife with hleft | rfl | hright
    · exact hold life (List.mem_append_left _ hleft) o ho
    · rw [addedOrders_append, List.mem_append] at ho
      rcases ho with ho | ho
      · exact hold (key, ops) (by simp) o ho
      · exact (hop o ho).1
    · exact hold life (List.mem_append_right _ (List.mem_cons_of_mem _ hright)) o ho

theorem Book.add_of_full {order : CreateOrderRequestClob}
    (hfull : ¬order.sharesFilled < order.qtyShares) (book : Book) (now : Nat) :
    (book.add order now).book = book ∧ (book.add order now).matches_ = [] := by
  have hremaining : remainingShares order = 0 := by
    unfold remainingShares
    omega
  rw [Book.add, if_pos (Or.inr hremaining)]
  exact ⟨rfl, rfl⟩

theorem Traced.place (h : Traced requests r lives)
    (hrequests : ∀ o ∈ offeredOrders requests, o ∈ offeredOrders requests')
    {order : CreateOrderRequestClob} (horder : order ∈ offeredOrders requests')
    (hnew : ∀ life ∈ lives, order.txId ∉ (addedOrders life.2).map (·.txId)) (now : Nat) :
    ∃ lives', Traced requests' ⟨(r.service.placeOrder order now).1,
      r.fills ++ (r.service.placeOrder order now).2⟩ lives' := by
  unfold OrderBookService.placeOrder
  split
  · exact ⟨lives, h.keep hrequests (fun _ _ hbook => hbook) fun _ hid => hid⟩
  next book hbook =>
  have hlut : ∀ id ∈ r.service.txIdLut, id ∈ order.txId :: r.service.txIdLut :=
    fun _ hid => List.mem_cons_of_mem _ hid
  by_cases hopen : order.sharesFilled < order.qtyShares
  · apply h.extend hrequests hbook (.add order now) hlut
    · rintro history rfl
      exact ⟨rfl, rfl⟩
    · intro o ho
      rw [List.mem_singleton.mp ho]
      exact ⟨⟨horder, hopen, List.mem_cons_self⟩, hnew⟩
  · obtain ⟨hsame, hnone⟩ := Book.add_of_full hopen book now
    dsimp only [OrderBookService.setBook]
    rw [hsame, hnone]
    refine ⟨lives, h.keep hrequests ?_ hlut⟩
    intro key found hfound
    have hupdate : Function.update r.service.orderBooks (toAsciiLowercase order.marketId)
        (some book) = r.service.orderBooks := by
      rw [Function.update_eq_self_iff]
      exact hbook.symm
    exact (congrFun hupdate key).symm.trans hfound

/-- A request keeps every book on a run of its own. -/
theorem Traced.step (h : Traced requests r lives) {request : ClobRequest}
    (hnew : ∀ order now, request = .createOrder order now →
      order.txId ∉ (offeredOrders requests).map (·.txId)) :
    ∃ lives', Traced (requests ++ [request]) (r.step request) lives' := by
  have hrequests : ∀ o ∈ offeredOrders requests, o ∈ offeredOrders (requests ++ [request]) := by
    intro o ho
    rw [offeredOrders_append]
    exact List.mem_append_left _ ho
  have hkeep : ∃ lives', Traced (requests ++ [request]) ⟨r.service, r.fills ++ []⟩ lives' :=
    ⟨lives, h.keep hrequests (fun _ _ hbook => hbook) fun _ hid => hid⟩
  cases request with
  | createMarket marketId =>
      simp only [Process.step, OrderBookService.step, OrderBookService.addMarket]
      split
      · exact hkeep
      · exact ⟨_, h.start hrequests (toAsciiLowercase marketId)⟩
  | closeMarket marketId =>
      refine ⟨lives, h.keep hrequests ?_ fun _ hid => hid⟩
      intro key book hbook
      have hbook' : Function.update r.service.orderBooks (toAsciiLowercase marketId) none key =
          some book := hbook
      by_cases hkey : key = toAsciiLowercase marketId
      · subst hkey
        rw [Function.update_self] at hbook'
        exact absurd hbook' (by simp)
      · rwa [Function.update_of_ne hkey] at hbook'
  | cancelOrder marketId txId =>
      simp only [Process.step, OrderBookService.step, OrderBookService.cancelOrder]
      split
      · exact hkeep
      next book hbook =>
      apply h.extend hrequests hbook (.remove txId) fun _ hid => hid
      · rintro history rfl
        exact ⟨rfl, (List.append_nil _).symm⟩
      · intro o ho
        exact absurd ho List.not_mem_nil
  | createOrder order now =>
      have horder : order ∈ offeredOrders (requests ++ [.createOrder order now]) := by
        rw [offeredOrders_append]
        exact List.mem_append_right _ (List.mem_singleton_self _)
      apply h.place hrequests horder
      intro life hlife hmem
      obtain ⟨o, ho, hid⟩ := List.mem_map.mp hmem
      apply hnew order now rfl
      rw [← hid]
      exact List.mem_map_of_mem (h.offered life hlife o ho).1
  | deliverOrder order now =>
      have horder : order ∈ offeredOrders (requests ++ [.deliverOrder order now]) := by
        rw [offeredOrders_append]
        exact List.mem_append_right _ (List.mem_singleton_self _)
      simp only [Process.step, OrderBookService.step]
      split
      · exact hkeep
      next hexists =>
      apply h.place hrequests horder
      intro life hlife hmem
      obtain ⟨o, ho, hid⟩ := List.mem_map.mp hmem
      apply hexists
      rw [OrderBookService.orderExists, List.contains_iff_mem, ← hid]
      exact (h.offered life hlife o ho).2.2

end Trace

theorem traced_new : Traced [] ⟨.new, []⟩ [] := by
  refine ⟨List.Perm.refl _, ?_, List.nodup_nil, ?_⟩
  · intro key book hbook
    exact absurd hbook (by simp [OrderBookService.new])
  · intro life hlife
    exact absurd hlife List.not_mem_nil

theorem runProcess_traced (requests : List ClobRequest) (hnew : CreatesNew requests) :
    ∃ lives, Traced requests (runProcess requests) lives := by
  induction requests using List.reverseRecOn with
  | nil => exact ⟨[], traced_new⟩
  | append_singleton requests request ih =>
      have hbefore : CreatesNew requests := by
        intro before order now after hsplit
        exact hnew before order now (after ++ [request]) (by rw [hsplit]; simp)
      obtain ⟨lives, htraced⟩ := ih hbefore
      rw [show runProcess (requests ++ [request]) = (runProcess requests).step request by
        simp [runProcess, List.foldl_append]]
      apply htraced.step
      rintro order now rfl
      exact hnew requests order now [] rfl

/-! ## Fill identity -/

/-- A fill of a process is one of two of the orders that came in. -/
theorem Traced.fair {requests : List ClobRequest} {r : Process} {lives : List (Str × List BookOp)}
    (h : Traced requests r lives) {life : Str × List BookOp} (hlife : life ∈ lives) :
    FairRun (addedOrders life.2) (runBook life.2).matches_ ∧
      ((addedOrders life.2).map (·.txId)).Nodup := by
  have hdistinct := (List.nodup_flatMap.mp h.ids).1 life hlife
  exact ⟨(runBook_conserved life.2 hdistinct fun o ho => (h.offered life hlife o ho).2.1).fair,
    hdistinct⟩

/-- No two fills of one process find one bid equally filled. -/
theorem Traced.bidKeys_nodup {requests : List ClobRequest} {r : Process}
    {lives : List (Str × List BookOp)} (h : Traced requests r lives) :
    (r.fills.map bidKey).Nodup := by
  have hperm := h.fills.map bidKey
  rw [hperm.nodup_iff, List.map_flatMap, List.nodup_flatMap]
  constructor
  · intro life hlife
    obtain ⟨hfair, hdistinct⟩ := h.fair hlife
    exact hfair.bidKeys_nodup hdistinct
  · apply (List.nodup_flatMap.mp h.ids).2.imp_of_mem
    intro life life' hlife hlife' hdisjoint key hkey hkey'
    obtain ⟨m, hm, rfl⟩ := List.mem_map.mp hkey
    obtain ⟨m', hm', hsame⟩ := List.mem_map.mp hkey'
    obtain ⟨b, hb, a, _, before, hfair⟩ := (h.fair hlife).1.of_mem hm
    obtain ⟨b', hb', a', _, before', hfair'⟩ := (h.fair hlife').1.of_mem hm'
    rw [hfair.bidKey_eq, hfair'.bidKey_eq] at hsame
    simp only [Option.some.injEq, Prod.mk.injEq, afterFills_txId] at hsame
    apply hdisjoint (List.mem_map_of_mem hb)
    rw [← hsame.1]
    exact List.mem_map_of_mem hb'

/-- A fill of a process is between two of the orders that came in, in the market of one that
did. -/
structure FillOf (orders : List CreateOrderRequestClob) (m : ClobMatch) : Prop where
  market : ∃ o ∈ orders, m.marketId = o.marketId
  fair : ∃ b ∈ orders, ∃ a ∈ orders, ∃ before, Fair (afterFills b before) (afterFills a before) m

theorem runBook_marketId (ops : List BookOp) :
    ∀ m ∈ (runBook ops).matches_, ∃ o ∈ addedOrders ops, m.marketId = o.marketId := by
  induction ops using List.reverseRecOn with
  | nil =>
      intro m hm
      exact absurd hm List.not_mem_nil
  | append_singleton ops op ih =>
      intro m hm
      rw [runBook_concat] at hm
      rw [addedOrders_append]
      cases op with
      | add order now =>
          rcases List.mem_append.mp hm with hm | hm
          · obtain ⟨o, ho, hmarket⟩ := ih m hm
            exact ⟨o, List.mem_append_left _ ho, hmarket⟩
          · refine ⟨order, List.mem_append_right _ (List.mem_singleton_self _), ?_⟩
            exact Book.add_marketId _ order now m hm
      | remove txId =>
          obtain ⟨o, ho, hmarket⟩ := ih m hm
          exact ⟨o, List.mem_append_left _ ho, hmarket⟩

theorem Traced.fillOf {requests : List ClobRequest} {r : Process}
    {lives : List (Str × List BookOp)} (h : Traced requests r lives) :
    ∀ m ∈ r.fills, FillOf (offeredOrders requests) m := by
  intro m hm
  obtain ⟨life, hlife, hm⟩ := List.mem_flatMap.mp (h.fills.mem_iff.mp hm)
  have hoffered : ∀ o ∈ addedOrders life.2, o ∈ offeredOrders requests :=
    fun o ho => (h.offered life hlife o ho).1
  obtain ⟨o, ho, hmarket⟩ := runBook_marketId life.2 m hm
  obtain ⟨b, hb, a, ha, before, hfair⟩ := (h.fair hlife).1.of_mem hm
  exact ⟨⟨o, hoffered o ho, hmarket⟩, b, hoffered b hb, a, hoffered a ha, before, hfair⟩

/-- The key and the message id of a fill, where no text has a colon in it. -/
theorem FillOf.exists_key {orders : List CreateOrderRequestClob} {m : ClobMatch}
    (h : FillOf orders m) (htexts : ∀ o ∈ orders, ':' ∉ o.marketId ∧ ':' ∉ o.txId) :
    ∃ key, fillKey m = some key ∧ ∀ s ∈ [key.1, key.2.1, key.2.2.1], ':' ∉ s := by
  obtain ⟨o, ho, hmarket⟩ := h.market
  obtain ⟨b, hb, a, ha, before, hfair⟩ := h.fair
  refine ⟨_, hfair.fillKey_eq, ?_⟩
  simp only [List.forall_mem_cons, afterFills_txId, hmarket]
  exact ⟨(htexts o ho).1, (htexts b hb).2, (htexts a ha).2, fun _ hnil =>
    absurd hnil List.not_mem_nil⟩

/-- Different fills of a process have different keys, and are published under different ids. -/
theorem Traced.messageIds_nodup {requests : List ClobRequest} {r : Process}
    {lives : List (Str × List BookOp)} (h : Traced requests r lives)
    (htexts : ∀ o ∈ offeredOrders requests, ':' ∉ o.marketId ∧ ':' ∉ o.txId) :
    (r.fills.map fillKey).Nodup ∧ (r.fills.map messageId).Nodup := by
  have hkeys : (r.fills.map fillKey).Nodup := by
    apply List.Nodup.of_map fun key : Option FillKey => key.map fun k => (k.2.1, k.2.2.2.1)
    have hmap : (r.fills.map fillKey).map
        (fun key : Option FillKey => key.map fun k => (k.2.1, k.2.2.2.1)) = r.fills.map bidKey := by
      rw [List.map_map]
      apply List.map_congr_left
      intro m hm
      obtain ⟨b, _, a, _, before, hfair⟩ := (h.fillOf m hm).fair
      rw [Function.comp_apply, hfair.fillKey_eq, hfair.bidKey_eq, Option.map_some]
    rw [hmap]
    exact h.bidKeys_nodup
  refine ⟨hkeys, ?_⟩
  have hmap : r.fills.map messageId = (r.fills.map fillKey).map (Option.map keyText) := by
    rw [List.map_map]
    rfl
  rw [hmap]
  apply hkeys.map_on
  intro key hkey key' hkey' hsame
  obtain ⟨m, hm, rfl⟩ := List.mem_map.mp hkey
  obtain ⟨m', hm', rfl⟩ := List.mem_map.mp hkey'
  obtain ⟨key, hm, htext⟩ := (h.fillOf m hm).exists_key htexts
  obtain ⟨key', hm', htext'⟩ := (h.fillOf m' hm').exists_key htexts
  rw [hm, hm', Option.map_some, Option.map_some, Option.some.injEq] at hsame
  rw [hm, hm', keyText_injective htext htext' hsame]

end PrismBackend.Clob
