import Mathlib.Data.List.Perm.Subperm
import PrismBackend.Clob.Service

/-!
# CLOB: which orders rest

The ids of the orders in the books of one process. A placement keeps ids or adds
its own, and a removal takes one out.
-/

namespace PrismBackend.Clob

def Book.txIds (book : Book) : List Str := (book.bids ++ book.asks).map (·.txId)

/-! ## One pass -/

/-- A pass keeps ids, and its fills are of the incoming order and of orders on the other side. -/
structure KeepsIds (side : List CreateOrderRequestClob) (incoming : CreateOrderRequestClob)
    (pass : Pass) : Prop where
  incoming_eq : pass.incoming.txId = incoming.txId
  resting : (pass.resting.map (·.txId)).Sublist (side.map (·.txId))
  fills : ∀ m ∈ pass.matches_, ∀ txId, m.involves txId = true →
    txId = incoming.txId ∨ txId ∈ side.map (·.txId)

theorem bidAsk_involves_ids {incomingIsBid : Bool} {incoming resting : CreateOrderRequestClob}
    {m : ClobMatch} (hbid : m.bid = some (bidAsk incomingIsBid incoming resting).1)
    (hask : m.ask = some (bidAsk incomingIsBid incoming resting).2) {txId : Str}
    (h : m.involves txId = true) : txId = incoming.txId ∨ txId = resting.txId := by
  unfold ClobMatch.involves at h
  rw [hbid, hask, Option.any_some, Option.any_some, Bool.or_eq_true, beq_iff_eq, beq_iff_eq] at h
  cases incomingIsBid with
  | true => exact h.imp Eq.symm Eq.symm
  | false => exact h.symm.imp Eq.symm Eq.symm

theorem matchLoop_keepsIds (now : Nat) (incomingIsBid : Bool) (side : List CreateOrderRequestClob)
    (incoming : CreateOrderRequestClob) :
    KeepsIds side incoming (matchLoop now incomingIsBid side incoming) := by
  have hnone {side : List CreateOrderRequestClob} {incoming : CreateOrderRequestClob} :
      KeepsIds side incoming ⟨side, incoming, [], [], []⟩ :=
    ⟨rfl, .refl _, fun m hm => absurd hm List.not_mem_nil⟩
  fun_induction matchLoop with
  | case1 incoming => exact hnone
  | case2 => exact hnone
  | case3 resting rest incoming hdone hexpired pass ih =>
      refine ⟨ih.incoming_eq, ih.resting.cons _, fun m hm txId hinvolves => ?_⟩
      exact (ih.fills m hm txId hinvolves).imp_right (List.mem_cons_of_mem _)
  | case4 => exact hnone
  | case5 resting rest incoming pair hdone hexpired hcrosses hfill pass ih =>
      refine ⟨ih.incoming_eq, ih.resting.cons_cons _, fun m hm txId hinvolves => ?_⟩
      exact (ih.fills m hm txId hinvolves).imp_right (List.mem_cons_of_mem _)
  | case6 resting rest incoming pair hdone hexpired hcrosses fill price hfill legs clobMatch filled
      pass hfull ih =>
      refine ⟨ih.incoming_eq, ih.resting.cons _, fun m hm txId hinvolves => ?_⟩
      rcases List.mem_cons.mp hm with rfl | hm
      · rcases bidAsk_involves_ids rfl rfl hinvolves with heq | heq
        · exact Or.inl heq
        · exact Or.inr (heq ▸ List.mem_cons_self)
      · exact (ih.fills m hm txId hinvolves).imp_right (List.mem_cons_of_mem _)
  | case7 resting rest incoming pair hdone hexpired hcrosses fill price hfill legs clobMatch filled
      pass hfull ih =>
      refine ⟨ih.incoming_eq, ih.resting.cons_cons _, fun m hm txId hinvolves => ?_⟩
      rcases List.mem_cons.mp hm with rfl | hm
      · rcases bidAsk_involves_ids rfl rfl hinvolves with heq | heq
        · exact Or.inl heq
        · exact Or.inr (heq ▸ List.mem_cons_self)
      · exact (ih.fills m hm txId hinvolves).imp_right (List.mem_cons_of_mem _)

/-! ## One book -/

theorem restRemainder_txIds (side : List CreateOrderRequestClob)
    (incoming : CreateOrderRequestClob) :
    ((restRemainder side incoming).map (·.txId)).Subperm (incoming.txId :: side.map (·.txId)) := by
  have hperm := (restRemainder_perm side incoming).map (·.txId)
  rw [List.map_append, List.map_cons] at hperm
  exact (List.sublist_append_left _ _).subperm.trans hperm.subperm

/-- Adding an order keeps ids or adds its own, and its fills are of it and of orders that rest. -/
theorem Book.add_txIds (book : Book) (incoming : CreateOrderRequestClob) (now : Nat) :
    (book.add incoming now).book.txIds.Subperm (incoming.txId :: book.txIds) ∧
      ∀ m ∈ (book.add incoming now).matches_, ∀ txId, m.involves txId = true →
        txId = incoming.txId ∨ txId ∈ book.txIds := by
  unfold Book.add
  split
  · exact ⟨(List.sublist_cons_self _ _).subperm, fun m hm => absurd hm List.not_mem_nil⟩
  split
  · have hpass := matchLoop_keepsIds now true (sortAsks book.asks) incoming
    have hsorted := (sortAsks_perm book.asks).map (·.txId)
    refine ⟨?_, ?_⟩
    · have hrest := restRemainder_txIds book.bids
        (matchLoop now true (sortAsks book.asks) incoming).incoming
      rw [hpass.incoming_eq] at hrest
      unfold Book.txIds
      rw [List.map_append, List.map_append, ← List.cons_append]
      exact hrest.append (hpass.resting.subperm.trans hsorted.subperm)
    · intro m hm txId hinvolves
      refine (hpass.fills m hm txId hinvolves).imp_right fun hmem => ?_
      unfold Book.txIds
      rw [List.map_append]
      exact List.mem_append_right _ (hsorted.mem_iff.mp hmem)
  · have hpass := matchLoop_keepsIds now false (sortBids book.bids) incoming
    have hsorted := (sortBids_perm book.bids).map (·.txId)
    refine ⟨?_, ?_⟩
    · have hrest := restRemainder_txIds book.asks
        (matchLoop now false (sortBids book.bids) incoming).incoming
      rw [hpass.incoming_eq] at hrest
      unfold Book.txIds
      rw [List.map_append, List.map_append]
      exact ((hpass.resting.subperm.trans hsorted.subperm).append hrest).trans
        List.perm_middle.subperm
    · intro m hm txId hinvolves
      refine (hpass.fills m hm txId hinvolves).imp_right fun hmem => ?_
      unfold Book.txIds
      rw [List.map_append]
      exact List.mem_append_left _ (hsorted.mem_iff.mp hmem)

/-- Where ids are distinct, the id that is removed does not rest any more. -/
theorem Book.remove_txIds (book : Book) (txId : Str) :
    (book.remove txId).1.txIds.Sublist book.txIds ∧
      (book.txIds.Nodup → txId ∉ (book.remove txId).1.txIds) := by
  obtain ⟨hperm, hfind, hbids, hasks⟩ := book.remove_perm txId
  refine ⟨(hbids.append hasks).map _, ?_⟩
  intro hnodup hmem
  have hids := hperm.map (·.txId)
  cases hfound : book.find txId with
  | some o =>
      have hkey := hfind o hfound
      rw [hfound, Option.toList_some, List.singleton_append, List.map_cons, hkey] at hids
      exact (List.nodup_cons.mp (hids.nodup_iff.mp hnodup)).1 hmem
  | none =>
      rw [hfound, Option.toList_none, List.nil_append] at hids
      obtain ⟨o, ho, hkey⟩ := List.mem_map.mp (hids.symm.mem_iff.mp hmem)
      unfold Book.find at hfound
      rw [Option.or_eq_none_iff, List.find?_eq_none, List.find?_eq_none] at hfound
      rcases List.mem_append.mp ho with hbid | hask
      · exact hfound.1 o hbid (beq_iff_eq.mpr hkey)
      · exact hfound.2 o hask (beq_iff_eq.mpr hkey)

/-! ## The service -/

namespace OrderBookService

variable {s : OrderBookService} {key : Str} {id : Str}

def Rests (s : OrderBookService) (key id : Str) : Prop :=
  ∃ book, s.orderBooks key = some book ∧ id ∈ book.txIds

/-- Ids are distinct in each book, and they were all registered. -/
structure Tidy (s : OrderBookService) : Prop where
  nodup : ∀ key book, s.orderBooks key = some book → book.txIds.Nodup
  registered : ∀ key id, s.Rests key id → id ∈ s.txIdLut

theorem setBook_orderBooks {marketId : Str} {book : Option Book} :
    (s.setBook marketId book).orderBooks key =
      if key = toAsciiLowercase marketId then book else s.orderBooks key := by
  unfold setBook
  exact Function.update_apply _ _ _ _

/-- Where a book was set, what rests there is in it. -/
theorem rests_setBook {marketId : Str} {book : Option Book}
    (h : (s.setBook marketId book).Rests key id) :
    (key = toAsciiLowercase marketId ∧ ∃ b, book = some b ∧ id ∈ b.txIds) ∨
      (key ≠ toAsciiLowercase marketId ∧ s.Rests key id) := by
  obtain ⟨b, hb, hmem⟩ := h
  rw [setBook_orderBooks] at hb
  split at hb
  · next hkey => exact Or.inl ⟨hkey, b, hb, hmem⟩
  · next hkey => exact Or.inr ⟨hkey, b, hb, hmem⟩

theorem Tidy.setBook (h : s.Tidy) {marketId : Str} {book : Option Book}
    (hnodup : ∀ b, book = some b → b.txIds.Nodup)
    (hregistered : ∀ b, book = some b → ∀ id ∈ b.txIds, id ∈ s.txIdLut) :
    (s.setBook marketId book).Tidy := by
  refine ⟨?_, ?_⟩
  · intro key b hb
    rw [setBook_orderBooks] at hb
    split at hb
    · exact hnodup b hb
    · exact h.nodup key b hb
  · intro key id hrests
    rcases rests_setBook hrests with ⟨_, b, hb, hmem⟩ | ⟨_, hbefore⟩
    · exact hregistered b hb id hmem
    · exact h.registered key id hbefore

theorem tidy_new : new.Tidy := by
  refine ⟨fun key book hbook => absurd hbook (by simp [new]), ?_⟩
  rintro key id ⟨book, hbook, _⟩
  exact absurd hbook (by simp [new])

theorem Tidy.addMarket (h : s.Tidy) (marketId : Str) : (s.addMarket marketId).1.Tidy := by
  unfold OrderBookService.addMarket
  split
  · exact h
  · apply h.setBook
    · rintro b hb
      cases hb
      exact List.nodup_nil
    · rintro b hb id hmem
      cases hb
      exact absurd hmem List.not_mem_nil

theorem rests_addMarket {marketId : Str} (h : (s.addMarket marketId).1.Rests key id) :
    s.Rests key id := by
  unfold OrderBookService.addMarket at h
  split at h
  · exact h
  · rcases rests_setBook h with ⟨_, b, hb, hmem⟩ | ⟨_, hbefore⟩
    · cases hb
      exact absurd hmem List.not_mem_nil
    · exact hbefore

theorem Tidy.closeMarket (h : s.Tidy) (marketId : Str) : (s.closeMarket marketId).Tidy :=
  h.setBook (fun _ hb => absurd hb (by simp)) (fun _ hb => absurd hb (by simp))

theorem rests_closeMarket {marketId : Str} (h : (s.closeMarket marketId).Rests key id) :
    s.Rests key id := by
  rcases rests_setBook h with ⟨_, b, hb, _⟩ | ⟨_, hbefore⟩
  · exact absurd hb (by simp)
  · exact hbefore

/-- A removal takes nothing in, and the id does not rest in that market any more. -/
theorem rests_cancelOrder {marketId txId : Str} (h : (s.cancelOrder marketId txId).1.Rests key id) :
    s.Rests key id ∧ (s.Tidy → key = toAsciiLowercase marketId → id ≠ txId) := by
  unfold OrderBookService.cancelOrder at h
  split at h
  · next hnone =>
    refine ⟨h, fun _ hkey => ?_⟩
    obtain ⟨b, hb, _⟩ := h
    rw [hkey] at hb
    exact absurd (hnone.symm.trans hb) (by simp)
  · next book hbook =>
    obtain ⟨hsublist, hremoved⟩ := book.remove_txIds txId
    rcases rests_setBook h with ⟨hkey, b, hb, hmem⟩ | ⟨hkey, hbefore⟩
    · cases hb
      refine ⟨⟨book, hkey ▸ hbook, hsublist.subset hmem⟩, fun htidy _ heq => ?_⟩
      exact hremoved (htidy.nodup _ book hbook) (heq ▸ hmem)
    · exact ⟨hbefore, fun _ hsame => absurd hsame hkey⟩

theorem Tidy.cancelOrder (h : s.Tidy) (marketId txId : Str) :
    (s.cancelOrder marketId txId).1.Tidy := by
  unfold OrderBookService.cancelOrder
  split
  · exact h
  · next book hbook =>
    have hsublist := (book.remove_txIds txId).1
    apply h.setBook
    · rintro b hb
      cases hb
      exact (h.nodup _ book hbook).sublist hsublist
    · rintro b hb id hmem
      cases hb
      exact h.registered _ id ⟨book, hbook, hsublist.subset hmem⟩

/-- A placement takes in no id but its own, which it registers, and fills only orders that rest. -/
theorem placeOrder_rests (s : OrderBookService) (order : CreateOrderRequestClob) (now : Nat) :
    (∀ key id, (s.placeOrder order now).1.Rests key id →
      s.Rests key id ∨ key = toAsciiLowercase order.marketId ∧ id = order.txId) ∧
      (∀ id ∈ s.txIdLut, id ∈ (s.placeOrder order now).1.txIdLut) ∧
      ∀ m ∈ (s.placeOrder order now).2, ∀ id, m.involves id = true →
        id = order.txId ∨ ∃ key, s.Rests key id := by
  unfold OrderBookService.placeOrder
  split
  · exact ⟨fun _ _ => Or.inl, fun _ => id, fun m hm => absurd hm List.not_mem_nil⟩
  · next book hbook =>
    obtain ⟨hsubperm, hfills⟩ := book.add_txIds order now
    refine ⟨?_, fun _ => List.mem_cons_of_mem _, ?_⟩
    · rintro key id ⟨b, hb, hmem⟩
      rcases rests_setBook ⟨b, hb, hmem⟩ with ⟨hkey, b', hb', hmem'⟩ | ⟨_, hbefore⟩
      · cases hb'
        rcases List.mem_cons.mp (hsubperm.subset hmem') with hown | hthere
        · exact Or.inr ⟨hkey, hown⟩
        · exact Or.inl ⟨book, hkey ▸ hbook, hthere⟩
      · exact Or.inl hbefore
    · intro m hm id hinvolves
      exact (hfills m hm id hinvolves).imp_right fun hmem => ⟨_, book, hbook, hmem⟩

theorem Tidy.placeOrder (h : s.Tidy) {order : CreateOrderRequestClob}
    (hnew : s.orderExists order.txId = false) (now : Nat) : (s.placeOrder order now).1.Tidy := by
  unfold OrderBookService.placeOrder
  split
  · exact h
  · next book hbook =>
    have hsubperm := (book.add_txIds order now).1
    have hgrown : Tidy { s with txIdLut := order.txId :: s.txIdLut } :=
      ⟨h.nodup, fun key id hrests => List.mem_cons_of_mem _ (h.registered key id hrests)⟩
    have hunknown : order.txId ∉ book.txIds := by
      intro hmem
      have hknown := h.registered _ _ ⟨book, hbook, hmem⟩
      simp [orderExists, hknown] at hnew
    refine hgrown.setBook ?_ ?_
    · rintro b hb
      cases hb
      obtain ⟨ids, hperm, hsublist⟩ := hsubperm
      have hnodup := List.nodup_cons.mpr ⟨hunknown, h.nodup _ book hbook⟩
      exact hperm.nodup_iff.mp (hnodup.sublist hsublist)
    · rintro b hb id hmem
      cases hb
      rcases List.mem_cons.mp (hsubperm.subset hmem) with rfl | hthere
      · exact List.mem_cons_self
      · exact List.mem_cons_of_mem _ (h.registered _ id ⟨book, hbook, hthere⟩)

end OrderBookService

end PrismBackend.Clob
