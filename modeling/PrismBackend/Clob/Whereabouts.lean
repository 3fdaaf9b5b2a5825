import Mathlib.Data.Multiset.AddSub
import PrismBackend.Clob.Service

/-!
# CLOB: where an order is

Every order that a run adds to a book is in one place: it rests, it was filled, it
was removed, or it was dropped, and what it lost on the way there it lost in the
matches of the run. Here nothing is asked of the ids, which several orders may
share.
-/

namespace PrismBackend.Clob

/-- What an order comes to be by some of the matches, each of which carries it as it was then. -/
inductive Traded (ms : List ClobMatch) :
    CreateOrderRequestClob → CreateOrderRequestClob → Prop
  | refl (o : CreateOrderRequestClob) : Traded ms o o
  | fill {o o' : CreateOrderRequestClob} {m : ClobMatch} (before : Traded ms o o') (hm : m ∈ ms)
      (hcarries : m.bid = some o' ∨ m.ask = some o') :
      Traded ms o (filledBy o' m.fillShares m.yesCollateral m.noCollateral)

namespace Traded

variable {ms ms' : List ClobMatch} {o o' o'' : CreateOrderRequestClob}

theorem trans (h : Traded ms o o') (h' : Traded ms o' o'') : Traded ms o o'' := by
  induction h' with
  | refl => exact h
  | fill _ hm hcarries ih => exact ih.fill hm hcarries

theorem mono (h : Traded ms o o') (hsub : ms ⊆ ms') : Traded ms' o o' := by
  induction h with
  | refl => exact .refl _
  | fill _ hm hcarries ih => exact ih.fill (hsub hm) hcarries

theorem eq_of_nil (h : Traded [] o o') : o = o' := by
  cases h with
  | refl => rfl
  | fill _ hm _ => exact absurd hm List.not_mem_nil

/-- A match of an incoming with a resting order fills both. -/
theorem of_match {incomingIsBid : Bool} {incoming resting : CreateOrderRequestClob}
    {m : ClobMatch} (hm : m ∈ ms) (hbid : m.bid = some (bidAsk incomingIsBid incoming resting).1)
    (hask : m.ask = some (bidAsk incomingIsBid incoming resting).2) :
    Traded ms incoming (filledBy incoming m.fillShares m.yesCollateral m.noCollateral) ∧
      Traded ms resting (filledBy resting m.fillShares m.yesCollateral m.noCollateral) := by
  cases incomingIsBid with
  | true => exact ⟨(refl incoming).fill hm (Or.inl hbid), (refl resting).fill hm (Or.inr hask)⟩
  | false => exact ⟨(refl incoming).fill hm (Or.inr hask), (refl resting).fill hm (Or.inl hbid)⟩

end Traded

/-- The same orders in any order, each as it was or as the matches left it. -/
def TradedOrders (ms : List ClobMatch) (orders orders' : List CreateOrderRequestClob) : Prop :=
  Multiset.Rel (Traded ms) (orders : Multiset CreateOrderRequestClob) orders'

instance (ms : List ClobMatch) : IsTrans CreateOrderRequestClob (Traded ms) :=
  ⟨fun _ _ _ => Traded.trans⟩

namespace TradedOrders

variable {ms ms' : List ClobMatch} {s t u v : List CreateOrderRequestClob}
  {o o' : CreateOrderRequestClob}

theorem refl (s : List CreateOrderRequestClob) : TradedOrders ms s s :=
  Multiset.rel_refl_of_refl_on fun o _ => Traded.refl o

theorem trans (h : TradedOrders ms s t) (h' : TradedOrders ms t u) : TradedOrders ms s u :=
  Multiset.Rel.trans (Traded ms) h h'

theorem append (h : TradedOrders ms s t) (h' : TradedOrders ms u v) :
    TradedOrders ms (s ++ u) (t ++ v) :=
  Multiset.Rel.add h h'

theorem cons (ho : Traded ms o o') (h : TradedOrders ms s t) :
    TradedOrders ms (o :: s) (o' :: t) :=
  Multiset.Rel.cons ho h

theorem of_perm (h : s.Perm t) : TradedOrders ms s t := by
  unfold TradedOrders
  rw [Multiset.coe_eq_coe.mpr h]
  exact refl t

theorem mono (h : TradedOrders ms s t) (hsub : ms ⊆ ms') : TradedOrders ms' s t :=
  Multiset.Rel.mono h fun _ _ _ _ htraded => htraded.mono hsub

theorem perm_of_nil (h : TradedOrders [] s t) : s.Perm t := by
  have heq : Multiset.Rel Eq (s : Multiset CreateOrderRequestClob) t :=
    Multiset.Rel.mono h fun _ _ _ _ htraded => htraded.eq_of_nil
  exact Multiset.coe_eq_coe.mp (Multiset.rel_eq.mp heq)

end TradedOrders

/-! ## One placement -/

structure Walked (now : Nat) (side : List CreateOrderRequestClob)
    (incoming : CreateOrderRequestClob) (pass : Pass) : Prop where
  incoming : Traded pass.matches_ incoming pass.incoming
  orders : TradedOrders pass.matches_ side (pass.resting ++ (pass.dropped ++ pass.filled))
  dropped : ∀ o ∈ pass.dropped, expired o now = true
  filled : ∀ o ∈ pass.filled, remainingShares o = 0

theorem Walked.stop (now : Nat) (side : List CreateOrderRequestClob)
    (incoming : CreateOrderRequestClob) :
    Walked now side incoming ⟨side, incoming, [], [], []⟩ where
  incoming := .refl incoming
  orders := .of_perm (by simp)
  dropped _ ho := absurd ho List.not_mem_nil
  filled _ ho := absurd ho List.not_mem_nil

theorem matchLoop_walked (now : Nat) (incomingIsBid : Bool) (side : List CreateOrderRequestClob)
    (incoming : CreateOrderRequestClob) :
    Walked now side incoming (matchLoop now incomingIsBid side incoming) := by
  fun_induction matchLoop with
  | case1 incoming => exact .stop now _ _
  | case2 => exact .stop now _ _
  | case3 resting rest incoming hdone hexpired pass ih =>
      refine ⟨ih.incoming, ?_, ?_, ih.filled⟩
      · exact (ih.orders.cons (.refl resting)).trans (.of_perm List.perm_middle.symm)
      · exact List.forall_mem_cons.mpr ⟨hexpired, ih.dropped⟩
  | case4 => exact .stop now _ _
  | case5 resting rest incoming pair hdone hexpired hcrosses hfill pass ih =>
      exact ⟨ih.incoming, ih.orders.cons (.refl resting), ih.dropped, ih.filled⟩
  | case6 resting rest incoming pair hdone hexpired hcrosses fill price hfill legs clobMatch filled
      pass hfull ih =>
      have hlater : pass.matches_ ⊆ clobMatch :: pass.matches_ := List.subset_cons_self _ _
      have hnow : clobMatch ∈ clobMatch :: pass.matches_ := List.mem_cons_self
      obtain ⟨hincoming, hresting⟩ := Traded.of_match hnow rfl rfl
      refine ⟨hincoming.trans (ih.incoming.mono hlater), ?_, ih.dropped, ?_⟩
      · refine ((ih.orders.mono hlater).cons hresting).trans (.of_perm ?_)
        rw [← List.append_assoc, ← List.append_assoc]
        exact List.perm_middle.symm
      · exact List.forall_mem_cons.mpr ⟨hfull, ih.filled⟩
  | case7 resting rest incoming pair hdone hexpired hcrosses fill price hfill legs clobMatch filled
      pass hfull ih =>
      have hlater : pass.matches_ ⊆ clobMatch :: pass.matches_ := List.subset_cons_self _ _
      have hnow : clobMatch ∈ clobMatch :: pass.matches_ := List.mem_cons_self
      obtain ⟨hincoming, hresting⟩ := Traded.of_match hnow rfl rfl
      exact ⟨hincoming.trans (ih.incoming.mono hlater), (ih.orders.mono hlater).cons hresting,
        ih.dropped, ih.filled⟩

/-- What `add` does to the orders of a book. -/
structure AddSpec (book : Book) (incoming : CreateOrderRequestClob) (now : Nat) (added : Added) :
    Prop where
  orders : TradedOrders added.matches_ (incoming :: (book.bids ++ book.asks))
    (added.book.bids ++ (added.book.asks ++ (added.dropped ++ added.filled)))
  dropped : ∀ o ∈ added.dropped, expired o now = true ∨ remainingShares o = 0
  filled : ∀ o ∈ added.filled, remainingShares o = 0

/-- The pass over one side, and the remainder that rests on the other. -/
theorem Walked.rests {now : Nat} {same opposite opposite' : List CreateOrderRequestClob}
    {incoming : CreateOrderRequestClob} {pass : Pass} (h : Walked now opposite' incoming pass)
    (hsorted : opposite'.Perm opposite) :
    TradedOrders pass.matches_ (incoming :: (same ++ opposite))
      (restRemainder same pass.incoming ++ (pass.resting ++
        (pass.dropped ++ (completed pass.incoming ++ pass.filled)))) := by
  have hwalk := ((TradedOrders.refl same).append h.orders).cons h.incoming
  have hstart : TradedOrders pass.matches_ (incoming :: (same ++ opposite))
      (incoming :: (same ++ opposite')) :=
    .of_perm ((hsorted.symm.append_left same).cons incoming)
  refine hstart.trans (hwalk.trans (.of_perm ?_))
  have hrest := (restRemainder_perm same pass.incoming).symm
  rw [List.perm_iff_count] at hrest ⊢
  intro o
  have hcount := hrest o
  simp only [List.count_append, List.count_cons] at hcount ⊢
  omega

theorem Book.add_spec (book : Book) (incoming : CreateOrderRequestClob) (now : Nat) :
    AddSpec book incoming now (book.add incoming now) := by
  unfold Book.add
  by_cases hdrop : expired incoming now = true ∨ remainingShares incoming = 0
  · rw [if_pos hdrop]
    refine ⟨.of_perm ?_, ?_, fun o ho => absurd ho List.not_mem_nil⟩
    · rw [List.append_nil, ← List.append_assoc]
      exact (List.perm_append_singleton _ _).symm
    · intro o ho
      rw [List.mem_singleton.mp ho]
      exact hdrop
  rw [if_neg hdrop]
  by_cases hbid : isBid incoming = true
  · rw [if_pos hbid]
    have hwalked := matchLoop_walked now true (sortAsks book.asks) incoming
    refine ⟨hwalked.rests (sortAsks_perm _), ?_, ?_⟩
    · exact fun o ho => Or.inl (hwalked.dropped o ho)
    · exact fun o ho => (List.mem_append.mp ho).elim completed_full (hwalked.filled o)
  · rw [if_neg hbid]
    have hwalked := matchLoop_walked now false (sortBids book.bids) incoming
    refine ⟨?_, ?_, ?_⟩
    · have hswap : (incoming :: (book.bids ++ book.asks)).Perm
          (incoming :: (book.asks ++ book.bids)) := List.perm_append_comm.cons incoming
      refine (TradedOrders.of_perm hswap).trans
        ((hwalked.rests (sortBids_perm _)).trans (.of_perm ?_))
      exact List.perm_append_comm_assoc _ _ _
    · exact fun o ho => Or.inl (hwalked.dropped o ho)
    · exact fun o ho => (List.mem_append.mp ho).elim completed_full (hwalked.filled o)

/-! ## Whole runs -/

/-- Where the orders of a run are, and why those that rest no longer left. -/
structure Whereabouts (ops : List BookOp) (h : History) : Prop where
  orders : TradedOrders h.matches_ (addedOrders ops) h.orders
  filled : ∀ o ∈ h.filled, remainingShares o = 0
  removed : ∀ o ∈ h.removed, BookOp.remove o.txId ∈ ops
  dropped : ∀ p ∈ h.dropped, (expired p.1 p.2 = true ∨ remainingShares p.1 = 0) ∧
    ∃ o, BookOp.add o p.2 ∈ ops

theorem Whereabouts.add {ops : List BookOp} {h : History} (hw : Whereabouts ops h)
    (incoming : CreateOrderRequestClob) (now : Nat) :
    Whereabouts (ops ++ [.add incoming now]) (h.step (.add incoming now)) := by
  have hspec := h.book.add_spec incoming now
  have hadded : addedOrders (ops ++ [.add incoming now]) = addedOrders ops ++ [incoming] :=
    addedOrders_append ops _
  refine ⟨?_, ?_, fun o ho => List.mem_append_left _ (hw.removed o ho), ?_⟩
  · rw [hadded]
    have hbefore : TradedOrders (h.step (.add incoming now)).matches_ (addedOrders ops) h.orders :=
      hw.orders.mono (List.subset_append_left _ _)
    have hnow := hspec.orders.mono (List.subset_append_right h.matches_ _)
    have hothers : TradedOrders (h.step (.add incoming now)).matches_
        (h.removed ++ (h.dropped.map Prod.fst ++ h.filled)) _ := .refl _
    refine (hbefore.append (.refl [incoming])).trans (.trans (.of_perm ?_)
      ((hnow.append hothers).trans (.of_perm ?_)))
    · rw [List.perm_iff_count]
      intro o
      simp only [History.orders, List.count_append, List.count_cons, List.count_nil]
      omega
    · rw [List.perm_iff_count]
      intro o
      simp only [History.step, History.orders, List.count_append, List.map_append, List.map_map,
        Function.comp_def, List.map_id']
      omega
  · intro o ho
    exact (List.mem_append.mp ho).elim (hw.filled o) (hspec.filled o)
  · intro p hp
    rcases List.mem_append.mp hp with hold | hnew
    · obtain ⟨hreason, o, ho⟩ := hw.dropped p hold
      exact ⟨hreason, o, List.mem_append_left _ ho⟩
    · obtain ⟨o, ho, rfl⟩ := List.mem_map.mp hnew
      exact ⟨hspec.dropped o ho, incoming, List.mem_append_right _ List.mem_cons_self⟩

theorem Whereabouts.remove {ops : List BookOp} {h : History} (hw : Whereabouts ops h)
    (txId : Str) : Whereabouts (ops ++ [.remove txId]) (h.step (.remove txId)) := by
  obtain ⟨hperm, hfound, _, _⟩ := h.book.remove_perm txId
  refine ⟨?_, hw.filled, ?_, ?_⟩
  · rw [addedOrders_append]
    refine (hw.orders.append (.refl [])).trans (.of_perm ?_)
    rw [List.perm_iff_count]
    intro o
    have hcount := hperm.count_eq o
    simp only [History.step, History.orders, List.count_append, List.count_nil] at hcount ⊢
    omega
  · intro o ho
    rcases List.mem_append.mp ho with hold | hnew
    · exact List.mem_append_left _ (hw.removed o hold)
    · rw [hfound o (Option.mem_toList.mp hnew)]
      exact List.mem_append_right _ List.mem_cons_self
  · intro p hp
    obtain ⟨hreason, o, ho⟩ := hw.dropped p hp
    exact ⟨hreason, o, List.mem_append_left _ ho⟩

theorem runBook_whereabouts (ops : List BookOp) : Whereabouts ops (runBook ops) := by
  induction ops using List.reverseRecOn with
  | nil =>
      refine ⟨.refl [], ?_, ?_, ?_⟩
      all_goals exact fun _ h => absurd h List.not_mem_nil
  | append_singleton ops op ih =>
      rw [runBook_concat]
      cases op with
      | add incoming now => exact ih.add incoming now
      | remove txId => exact ih.remove txId

end PrismBackend.Clob
