import PrismBackend.Api.Preimage
import PrismBackend.Api.Exchange
import PrismBackend.Api.Spelling
import PrismBackend.Clob.Registry

/-!
# API: the tx ids of one CLOB process

The CLOB knows an order by the text of its tx id. The stream brings the text of
the request, a rebuild and the kick-out the one of the database, and an owner
cancels with a text of his own.
-/

namespace PrismBackend.Api

open PrismBackend.Lib PrismBackend.Clob PrismBackend.PrismV2

/-! ## Names -/

def namedId : ClobRequest → Option Str
  | .deliverOrder order _ => some order.txId
  | .createOrder order _ => some order.txId
  | .cancelOrder _ txId => some txId
  | _ => none

def namedIds (requests : List ClobRequest) : List Str := requests.filterMap namedId

/-- The API publishes its orders, and does not ask for `create_order`. -/
def ofApi : ClobRequest → Bool
  | .createOrder _ _ => false
  | _ => true

/-- The texts that spell one UUID are the same. -/
def SpelledAlike (ids : List Str) : Prop :=
  ∀ s ∈ ids, ∀ t ∈ ids, uuidValue s = uuidValue t → s = t

instance (ids : List Str) : Decidable (SpelledAlike ids) :=
  inferInstanceAs (Decidable (∀ s ∈ ids, _))

def names (txId : Str) (o : CreateOrderRequestClob) : Bool := uuidValue o.txId == uuidValue txId

/-- The order that a request enters into a book. -/
def entry (s : OrderBookService) : ClobRequest → Option CreateOrderRequestClob
  | .deliverOrder order _ =>
    if s.orderExists order.txId ∨ (s.bookOf order.marketId).isNone then none else some order
  | .createOrder order _ => if (s.bookOf order.marketId).isNone then none else some order
  | _ => none

def entries : OrderBookService → List ClobRequest → List CreateOrderRequestClob
  | _, [] => []
  | s, request :: requests => (entry s request).toList ++ entries (s.step request).1 requests

/-- A removal takes out the order of the UUID that the text spells, and no other. -/
structure RemovesNamed (s : OrderBookService) (marketId txId : Str) : Prop where
  answer : (s.cancelOrder marketId txId).2 =
    (s.bookOf marketId).map fun book => (book.bids ++ book.asks).any (names txId)
  book : (s.cancelOrder marketId txId).1.bookOf marketId = (s.bookOf marketId).map fun book =>
    ⟨book.bids.filter (!names txId ·), book.asks.filter (!names txId ·)⟩
  others : ∀ key, key ≠ toAsciiLowercase marketId →
    (s.cancelOrder marketId txId).1.orderBooks key = s.orderBooks key
  once : ∀ book, s.bookOf marketId = some book →
    ((book.bids ++ book.asks).filter (names txId)).length ≤ 1

/-! ## Entries -/

section Entries

variable {s : OrderBookService} {request : ClobRequest}

theorem namedIds_append (requests requests' : List ClobRequest) :
    namedIds (requests ++ requests') = namedIds requests ++ namedIds requests' :=
  List.filterMap_append

theorem namedIds_cons (request : ClobRequest) (requests : List ClobRequest) :
    namedIds (request :: requests) = (namedId request).toList ++ namedIds requests := by
  rw [namedIds, List.filterMap_cons]
  cases namedId request with
  | none => rfl
  | some id => rfl

/-- A request registers the order that it enters, and nothing else. -/
theorem step_txIdLut (hapi : ofApi request = true) :
    (s.step request).1.txIdLut = (entry s request).toList.map (·.txId) ++ s.txIdLut := by
  cases request with
  | createMarket marketId =>
      show (s.addMarket marketId).1.txIdLut = s.txIdLut
      unfold OrderBookService.addMarket
      split
      · rfl
      · rfl
  | closeMarket marketId => rfl
  | createOrder order now => exact absurd hapi (by simp [ofApi])
  | cancelOrder marketId txId =>
      show (s.cancelOrder marketId txId).1.txIdLut = s.txIdLut
      unfold OrderBookService.cancelOrder
      split
      · rfl
      · rfl
  | deliverOrder order now =>
      simp only [OrderBookService.step, entry]
      by_cases hexists : s.orderExists order.txId = true
      · rw [if_pos hexists, if_pos (Or.inl hexists)]
        rfl
      · rw [if_neg hexists]
        unfold OrderBookService.placeOrder
        cases hbook : s.bookOf order.marketId with
        | none =>
            have habsent : (none : Option Book).isNone = true := rfl
            rw [if_pos (Or.inr habsent)]
            rfl
        | some book =>
            rw [if_neg (by simp [hexists])]
            rfl

theorem entry_new {order : CreateOrderRequestClob} (hapi : ofApi request = true)
    (h : entry s request = some order) :
    order.txId ∉ s.txIdLut ∧ namedId request = some order.txId := by
  cases request with
  | deliverOrder order' now =>
      simp only [entry] at h
      split at h
      · cases h
      · next hnew =>
        cases h
        refine ⟨?_, rfl⟩
        intro hmem
        exact hnew (Or.inl (List.contains_iff_mem.mpr hmem))
  | createOrder order' now => exact absurd hapi (by simp [ofApi])
  | createMarket marketId => cases h
  | closeMarket marketId => cases h
  | cancelOrder marketId txId => cases h

/-- The texts of the orders that enter are distinct, new, and named. -/
theorem entries_spec (s : OrderBookService) (requests : List ClobRequest)
    (hapi : ∀ request ∈ requests, ofApi request = true) :
    ((entries s requests).map (·.txId)).Nodup ∧
      (∀ o ∈ entries s requests, o.txId ∉ s.txIdLut) ∧
      ∀ o ∈ entries s requests, o.txId ∈ namedIds requests := by
  induction requests generalizing s with
  | nil => exact ⟨List.nodup_nil, fun o ho => absurd ho List.not_mem_nil,
      fun o ho => absurd ho List.not_mem_nil⟩
  | cons request requests ih =>
      have hfirst := hapi request List.mem_cons_self
      obtain ⟨hnodup, hnew, hnamed⟩ :=
        ih (s.step request).1 fun r hr => hapi r (List.mem_cons_of_mem _ hr)
      have hlut : (s.step request).1.txIdLut = _ := step_txIdLut hfirst
      have hlater (o : CreateOrderRequestClob) (ho : o ∈ entries (s.step request).1 requests) :
          o.txId ∉ s.txIdLut := by
        intro hmem
        apply hnew o ho
        rw [hlut]
        exact List.mem_append_right _ hmem
      rw [namedIds_cons]
      cases hentry : entry s request with
      | none =>
          simp only [entries, hentry, Option.toList_none, List.nil_append]
          exact ⟨hnodup, hlater, fun o ho => List.mem_append_right _ (hnamed o ho)⟩
      | some order =>
          obtain ⟨horder, hname⟩ := entry_new hfirst hentry
          simp only [entries, hentry, Option.toList_some, List.singleton_append, List.map_cons,
            List.nodup_cons, hname]
          refine ⟨⟨?_, hnodup⟩, List.forall_mem_cons.mpr ⟨horder, hlater⟩,
            List.forall_mem_cons.mpr ⟨List.mem_cons_self, fun o ho => ?_⟩⟩
          on_goal 2 => exact List.mem_cons_of_mem _ (hnamed o ho)
          intro hmem
          obtain ⟨o, ho, heq⟩ := List.mem_map.mp hmem
          apply hnew o ho
          rw [hlut, hentry, heq]
          exact List.mem_append_left _ (List.mem_singleton_self _)

end Entries

/-! ## Removals -/

section Removals

theorem eraseP_eq_filter {side : List CreateOrderRequestClob} {txId : Str}
    (hnodup : (side.map (·.txId)).Nodup) :
    side.eraseP (·.txId == txId) = side.filter (·.txId != txId) := by
  induction side with
  | nil => rfl
  | cons o side ih =>
      rw [List.map_cons, List.nodup_cons] at hnodup
      by_cases heq : o.txId = txId
      · rw [List.eraseP_cons_of_pos (by simpa using heq), List.filter_cons_of_neg (by simp [heq])]
        refine (List.filter_eq_self.mpr ?_).symm
        intro o' ho'
        have hne : o'.txId ≠ txId := by
          rintro rfl
          exact hnodup.1 (heq ▸ List.mem_map_of_mem ho')
        simpa using hne
      · rw [List.eraseP_cons_of_neg (by simpa using heq), List.filter_cons_of_pos (by simp [heq]),
          ih hnodup.2]

theorem filter_absent {side : List CreateOrderRequestClob} {txId : Str}
    (h : side.any (·.txId == txId) = false) : side.filter (·.txId != txId) = side := by
  rw [List.filter_eq_self]
  intro o ho
  rw [List.any_eq_false] at h
  simpa using h o ho

/-- Where ids are distinct, `remove` takes out what has the id. -/
theorem Book.remove_eq {book : Book} (hnodup : book.txIds.Nodup) (txId : Str) :
    book.remove txId = (⟨book.bids.filter (·.txId != txId), book.asks.filter (·.txId != txId)⟩,
      (book.bids ++ book.asks).any (·.txId == txId)) := by
  rw [Book.txIds, List.map_append, List.nodup_append] at hnodup
  obtain ⟨hbids, hasks, hdisjoint⟩ := hnodup
  unfold Book.remove
  rw [List.any_append]
  by_cases hbid : book.bids.any (·.txId == txId) = true
  · have hask : book.asks.any (·.txId == txId) = false := by
      rw [List.any_eq_false]
      intro o ho heq
      obtain ⟨o', ho', heq'⟩ := List.any_eq_true.mp hbid
      exact hdisjoint _ (List.mem_map_of_mem ho') _ (List.mem_map_of_mem ho)
        ((beq_iff_eq.mp heq').trans (beq_iff_eq.mp heq).symm)
    rw [if_pos hbid, eraseP_eq_filter hbids, filter_absent hask, hbid, Bool.true_or]
  · rw [if_neg hbid]
    rw [Bool.not_eq_true] at hbid
    by_cases hask : book.asks.any (·.txId == txId) = true
    · rw [if_pos hask, eraseP_eq_filter hasks, filter_absent hbid, hbid, hask, Bool.false_or]
    · rw [if_neg hask]
      rw [Bool.not_eq_true] at hask
      rw [filter_absent hbid, filter_absent hask, hbid, hask, Bool.or_self]

variable {s : OrderBookService}

/-- Where ids are distinct and texts that spell one UUID are the same, a removal takes out the
order of the UUID. -/
theorem removesNamed {ids : List Str} (htidy : s.Tidy) (halike : SpelledAlike ids)
    (hrests : ∀ key id, s.Rests key id → id ∈ ids) (marketId : Str) {txId : Str}
    (htxId : txId ∈ ids) : RemovesNamed s marketId txId := by
  have hnames (book : Book) (hbook : s.bookOf marketId = some book) (o : CreateOrderRequestClob)
      (ho : o ∈ book.bids ++ book.asks) : names txId o = (o.txId == txId) := by
    have hmem : o.txId ∈ ids := hrests _ _ ⟨book, hbook, List.mem_map_of_mem ho⟩
    rw [names, Bool.eq_iff_iff, beq_iff_eq, beq_iff_eq]
    exact ⟨halike _ hmem _ htxId, fun heq => congrArg uuidValue heq⟩
  cases hbook : s.bookOf marketId with
  | none =>
      have hnone : s.cancelOrder marketId txId = (s, none) := by
        rw [OrderBookService.cancelOrder, hbook]
      refine ⟨?_, ?_, ?_, ?_⟩
      · rw [hnone, hbook]
        rfl
      · rw [hnone, hbook]
        rfl
      · intro key _
        rw [hnone]
      · intro book hsome
        rw [hbook] at hsome
        cases hsome
  | some book =>
      have hnodup := htidy.nodup _ book hbook
      have hsome : s.cancelOrder marketId txId = (s.setBook marketId (some (book.remove txId).1),
          some (book.remove txId).2) := by
        rw [OrderBookService.cancelOrder, hbook]
      have hbidNames := fun o ho => hnames book hbook o (List.mem_append_left book.asks ho)
      have haskNames := fun o ho => hnames book hbook o (List.mem_append_right book.bids ho)
      refine ⟨?_, ?_, ?_, ?_⟩
      · rw [hsome, hbook, Book.remove_eq hnodup, Option.map_some]
        dsimp only
        refine congrArg some (Bool.eq_iff_iff.mpr ?_)
        rw [List.any_eq_true, List.any_eq_true]
        exact exists_congr fun o => and_congr_right fun ho => by rw [hnames book hbook o ho]
      · rw [hsome, hbook, Book.remove_eq hnodup, Option.map_some]
        show Function.update s.orderBooks (toAsciiLowercase marketId) _ _ = _
        rw [Function.update_self]
        have hbids : book.bids.filter (!names txId ·) = book.bids.filter (·.txId != txId) :=
          List.filter_congr fun o ho => congrArg (!·) (hbidNames o ho)
        have hasks : book.asks.filter (!names txId ·) = book.asks.filter (·.txId != txId) :=
          List.filter_congr fun o ho => congrArg (!·) (haskNames o ho)
        rw [hbids, hasks]
      · intro key hkey
        rw [hsome]
        exact Function.update_of_ne hkey _ _
      · intro book' hbook'
        rw [hbook, Option.some.injEq] at hbook'
        subst hbook'
        rw [List.filter_congr (hnames book hbook)]
        have hsingle : ((book.bids ++ book.asks).filter (·.txId == txId)).map (·.txId) =
            book.txIds.filter (· == txId) := by
          rw [Book.txIds, List.filter_map]
          rfl
        rw [← List.length_map (f := (·.txId)), hsingle, List.filter_beq, List.length_replicate]
        exact List.nodup_iff_count_le_one.mp hnodup txId

end Removals

/-! ## Runs -/

/-- A request keeps the ids of each book distinct, and lets in no id but a new one that it
delivers. -/
theorem step_tidy {s : OrderBookService} (h : s.Tidy) {request : ClobRequest}
    (hapi : ofApi request = true) :
    (s.step request).1.Tidy ∧
      ∀ key id, (s.step request).1.Rests key id → s.Rests key id ∨ ∃ order now,
        request = .deliverOrder order now ∧ s.orderExists order.txId = false ∧
          key = toAsciiLowercase order.marketId ∧ id = order.txId := by
  cases request with
  | createMarket marketId =>
      exact ⟨h.addMarket marketId, fun _ _ hrests =>
        Or.inl (OrderBookService.rests_addMarket hrests)⟩
  | closeMarket marketId =>
      exact ⟨h.closeMarket marketId,
        fun _ _ hrests => Or.inl (OrderBookService.rests_closeMarket hrests)⟩
  | createOrder order now => exact absurd hapi (by simp [ofApi])
  | cancelOrder marketId txId =>
      exact ⟨h.cancelOrder marketId txId,
        fun _ _ hrests => Or.inl (OrderBookService.rests_cancelOrder hrests).1⟩
  | deliverOrder order now =>
      simp only [OrderBookService.step]
      by_cases hexists : s.orderExists order.txId = true
      · rw [if_pos hexists]
        exact ⟨h, fun _ _ => Or.inl⟩
      · rw [if_neg hexists]
        have hnew := Bool.eq_false_iff.mpr hexists
        refine ⟨h.placeOrder hnew now, ?_⟩
        intro key id hrests
        refine ((s.placeOrder_rests order now).1 key id hrests).imp_right ?_
        exact fun hplaced => ⟨order, now, rfl, hnew, hplaced⟩

theorem runProcess_concat (requests : List ClobRequest) (request : ClobRequest) :
    (runProcess (requests ++ [request])).service =
      ((runProcess requests).service.step request).1 := by
  simp [runProcess, List.foldl_append, Process.step]

theorem runProcess_tidy (requests : List ClobRequest)
    (hapi : ∀ request ∈ requests, ofApi request = true) :
    (runProcess requests).service.Tidy ∧
      ∀ key id, (runProcess requests).service.Rests key id → id ∈ namedIds requests := by
  induction requests using List.reverseRecOn with
  | nil =>
      refine ⟨OrderBookService.tidy_new, ?_⟩
      rintro key id ⟨book, hbook, _⟩
      exact absurd hbook (by simp [runProcess, OrderBookService.new])
  | append_singleton requests request ih =>
      obtain ⟨htidy, hrests⟩ := ih fun r hr => hapi r (List.mem_append_left _ hr)
      have hlast := hapi request (List.mem_append_right _ (List.mem_singleton_self _))
      obtain ⟨hstep, hnew⟩ := step_tidy htidy hlast
      rw [runProcess_concat, namedIds_append]
      refine ⟨hstep, ?_⟩
      intro key id hafter
      rcases hnew key id hafter with hbefore | ⟨order, now, rfl, _, _, rfl⟩
      · exact List.mem_append_left _ (hrests key id hbefore)
      · apply List.mem_append_right
        rw [namedIds_cons]
        exact List.mem_cons_self

/-- In a run that spells each UUID in one way, every order enters once, and every removal takes out
the order of its UUID. -/
theorem tx_identity (requests : List ClobRequest)
    (hapi : ∀ request ∈ requests, ofApi request = true)
    (halike : SpelledAlike (namedIds requests)) :
    ((entries .new requests).map fun o => uuidValue o.txId).Nodup ∧
      ∀ before marketId txId after, requests = before ++ .cancelOrder marketId txId :: after →
        RemovesNamed (runProcess before).service marketId txId := by
  constructor
  · obtain ⟨hnodup, _, hnamed⟩ := entries_spec .new requests hapi
    have hvalues : ((entries .new requests).map (·.txId)).map uuidValue =
        (entries .new requests).map fun o => uuidValue o.txId := List.map_map
    rw [← hvalues]
    refine hnodup.map_on ?_
    intro s hs t ht heq
    obtain ⟨o, ho, rfl⟩ := List.mem_map.mp hs
    obtain ⟨o', ho', rfl⟩ := List.mem_map.mp ht
    exact halike _ (hnamed o ho) _ (hnamed o' ho') heq
  · rintro before marketId txId after rfl
    obtain ⟨htidy, hrests⟩ := runProcess_tidy before fun r hr => hapi r (List.mem_append_left _ hr)
    refine removesNamed htidy halike ?_ marketId ?_
    · intro key id hbefore
      rw [namedIds_append]
      exact List.mem_append_left _ (hrests key id hbefore)
    · rw [namedIds_append, namedIds_cons]
      exact List.mem_append_right _ (List.mem_append_left _ (List.mem_singleton_self _))

/-! ## Two spellings of one order -/

def sampleRestored : CreateOrderRequestClob :=
  { clobRequest sampleRequest with
    txId := toAsciiLowercase sampleRequest.txId
    marketId := toAsciiLowercase sampleRequest.marketId }

def sampleEviction (order : CreateOrderRequestClob) : List ClobRequest :=
  [.createMarket order.marketId, .deliverOrder order 10, .deliverOrder order 20,
    .cancelOrder sampleRestored.marketId sampleRestored.txId]

theorem tx_identity_sample :
    ((entries .new (sampleEviction sampleRestored)).map fun o => uuidValue o.txId).Nodup ∧
      RemovesNamed (runProcess ((sampleEviction sampleRestored).take 3)).service
        sampleRestored.marketId sampleRestored.txId := by
  obtain ⟨honce, hremoves⟩ :=
    tx_identity (sampleEviction sampleRestored) (by decide) (by decide +kernel)
  exact ⟨honce, hremoves _ _ _ [] rfl⟩

/-- The request spells its tx id with letters in upper case: the eviction finds no order and leaves
the one that it names, and an order that a rebuild publishes enters a second time. -/
theorem tx_identity_lost :
    sampleRequest.Validated ∧ uuidValue sampleRequest.txId = uuidValue sampleRestored.txId ∧
      ((runProcess ((sampleEviction (clobRequest sampleRequest)).take 3)).service.cancelOrder
        sampleRestored.marketId sampleRestored.txId).2 = some false ∧
      ((runProcess (sampleEviction (clobRequest sampleRequest))).service.bookOf
        sampleRestored.marketId).map Book.txIds = some [sampleRequest.txId] ∧
      ¬((entries .new (sampleEviction (clobRequest sampleRequest) ++
        [.deliverOrder sampleRestored 30])).map fun o => uuidValue o.txId).Nodup := by
  refine ⟨sampleRequest_validated, ?_, ?_, ?_, ?_⟩
  · decide +kernel
  · decide +kernel
  · decide +kernel
  · decide +kernel

end PrismBackend.Api
