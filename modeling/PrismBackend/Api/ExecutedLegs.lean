import PrismBackend.Api.FillBookkeeping

/-!
# API: the legs of executed matches

The contract's positions are the sum of what the legs of the executed matches
say, and as long as no message is lost a leg of a finalized match is counted or
waits in one task.
-/

namespace PrismBackend.Api

open PrismBackend.Lib PrismBackend.Clob PrismBackend.PrismV2

/-! ## The contract -/

structure Executed (net : Network) (spelling : Address → Str) (s : PositionsWorld) : Prop where
  settled : ∀ q ∈ s.settled, q.Settled spelling
  executed : ∀ q ∈ s.settled, (s.contract net).executedMatches q.matchID = true
  distinct : (s.settled.map fun q => q.record.matchID).Nodup
  balances : ∀ side marketID trader, ((s.contract net).position side marketID trader : Int) =
    netTotal (legDelta s.settled side marketID trader) (legsOf s.settled.length)
  never : ∀ side marketID trader,
    NeverNegative (legDelta s.settled side marketID trader) (legsOf s.settled.length)

theorem matchIDText_injective : Function.Injective matchIDText := by
  intro x y h
  exact hexText_injective 64 (List.append_cancel_left h)

section Contract

variable {p : Platform} {net : Network} {spelling : Address → Str} {s s' : PositionsWorld}

theorem netTotal_settled (q : Prepared) {x y : Authorization}
    (hx : (q.auth .bid).decoded = some x) (hy : (q.auth .ask).decoded = some y)
    (settled : List Prepared) (side : Side) (marketID : Uint128) (trader : Address) :
    netTotal (legDelta (settled ++ [q]) side marketID trader)
        (legsOf settled.length ++ [(settled.length, .bid)]) =
      netTotal (legDelta settled side marketID trader) (legsOf settled.length) +
        x.shareDelta q.record.fillShares side marketID trader ∧
    netTotal (legDelta (settled ++ [q]) side marketID trader) (legsOf (settled ++ [q]).length) =
      netTotal (legDelta settled side marketID trader) (legsOf settled.length) +
        x.shareDelta q.record.fillShares side marketID trader +
        y.shareDelta q.record.fillShares side marketID trader := by
  have hlast : (settled ++ [q])[settled.length]? = some q := List.getElem?_concat_length
  have hbid := legDelta_eq hlast hx side marketID trader
  have hask := legDelta_eq hlast hy side marketID trader
  have hearlier := netTotal_congr (legDelta_append settled q side marketID trader)
  constructor
  · rw [netTotal_append, ← hearlier, netTotal_cons, netTotal_nil, hbid, add_zero]
  · rw [List.length_append, List.length_singleton, legsOf_succ, netTotal_append, ← hearlier,
      netTotal_cons, netTotal_cons, netTotal_nil, hbid, hask, add_zero, add_assoc]

theorem Executed.settle (h : Executed net spelling s) {q : Prepared}
    (hq : q.Settled spelling) {x y : Authorization} (hx : LegOf spelling q .bid x)
    (hy : LegOf spelling q .ask y) {env : Env} {signatureA signatureB : Bytes}
    {event : Option Redeemed}
    (heffect : Effect net.c env (s.contract net) (.settle x signatureA y signatureB
      q.record.fillShares q.record.executionYesPrice q.matchID) (s'.contract net) event)
    (hsettled : s'.settled = s.settled ++ [q]) : Executed net spelling s' := by
  obtain ⟨hadmitted, _⟩ := effect_settle heffect
  have hmoved := settle_position heffect
  have hmatches : (s'.contract net).executedMatches =
      Function.update (s.contract net).executedMatches q.matchID true := by
    cases effect_books heffect with
    | settle _ _ _ hmatches _ => exact hmatches
    | other _ hmatch => exact absurd hmatch (by simp [Call.matchIdOf])
  have htotal := netTotal_settled q hx.decoded hy.decoded s.settled
  have hbalances : ∀ side marketID trader, ((s'.contract net).position side marketID trader : Int) =
      netTotal (legDelta s'.settled side marketID trader) (legsOf s'.settled.length) := by
    intro side marketID trader
    rw [hsettled, (htotal side marketID trader).2, ← h.balances, hmoved]
  constructor
  · intro q' hq'
    rw [hsettled, List.mem_append, List.mem_singleton] at hq'
    rcases hq' with hq' | rfl
    · exact h.settled q' hq'
    · exact hq
  · intro q' hq'
    rw [hsettled, List.mem_append, List.mem_singleton] at hq'
    rw [hmatches]
    rcases hq' with hq' | rfl
    · rw [Function.update_apply, h.executed q' hq', ite_self]
    · exact Function.update_self ..
  · rw [hsettled, List.map_append, List.map_singleton]
    refine List.nodup_append.mpr ⟨h.distinct, List.nodup_singleton _, ?_⟩
    intro matchID hold _ hnew
    obtain ⟨q', hq', rfl⟩ := List.mem_map.mp hold
    rw [List.mem_singleton.mp hnew, (h.settled q' hq').recordID, hq.recordID]
    -- the contract would not have executed the match a second time
    intro hsame
    have hexecuted := h.executed q' hq'
    rw [matchIDText_injective hsame, hadmitted.fresh] at hexecuted
    exact absurd hexecuted (by decide)
  · exact hbalances
  · intro side marketID trader
    have hbefore := (h.never side marketID trader).congr
      (legDelta_append s.settled q side marketID trader)
    have hafter := (Int.natCast_nonneg _).trans_eq (hbalances side marketID trader)
    obtain ⟨hmiddle, hall⟩ := htotal side marketID trader
    have hold := (h.never side marketID trader).total
    have hlegs : legsOf (s.settled ++ [q]).length =
        legsOf s.settled.length ++ [(s.settled.length, .bid)] ++ [(s.settled.length, .ask)] := by
      rw [List.length_append, List.length_singleton, legsOf_succ, List.append_cons]
    rw [hsettled] at hafter ⊢
    have hbid : 0 ≤ netTotal (legDelta (s.settled ++ [q]) side marketID trader)
        (legsOf s.settled.length ++ [(s.settled.length, .bid)]) := by
      by_cases hmine : marketID = x.marketId ∧ trader = x.signer ∧ side = x.side
      · have hother : y.shareDelta q.record.fillShares side marketID trader = 0 :=
          shareDelta_of_other hadmitted.signers hmine
        rw [hall, hother] at hafter
        omega
      · have hnone : x.shareDelta q.record.fillShares side marketID trader = 0 := if_neg hmine
        rw [hmiddle, hnone]
        omega
    rw [hlegs] at hafter ⊢
    exact (hbefore.concat hbid).concat hafter

theorem Executed.congr (h : Executed net spelling s)
    (hexecuted : (s'.contract net).executedMatches = (s.contract net).executedMatches)
    (hposition : (s'.contract net).position = (s.contract net).position)
    (hsettled : s'.settled = s.settled) : Executed net spelling s' where
  settled := by
    rw [hsettled]
    exact h.settled
  executed := by
    rw [hsettled, hexecuted]
    exact h.executed
  distinct := by
    rw [hsettled]
    exact h.distinct
  balances := by
    rw [hsettled, hposition]
    exact h.balances
  never := by
    rw [hsettled]
    exact h.never

variable (net) in
theorem contract_concat {tx : Tx} (h : s'.history = s.history ++ [tx]) :
    (∃ r, exec net.c tx (s.contract net) = .ok r ∧
        Effect net.c tx.env (s.contract net) tx.call (s'.contract net) r.2) ∨
      ((exec net.c tx (s.contract net)).toOption = none ∧ s'.contract net = s.contract net) := by
  have hrun : s'.contract net = apply net.c (s.contract net) tx := by
    unfold PositionsWorld.contract
    rw [h, run_append]
    rfl
  cases hexec : exec net.c tx (s.contract net) with
  | ok r =>
      refine Or.inl ⟨r, rfl, ?_⟩
      rw [hrun, apply_ok hexec]
      exact exec_effect hexec
  | error err => exact Or.inr ⟨rfl, hrun.trans (apply_error hexec)⟩

theorem Executed.external (h : Executed net spelling s) {tx : Tx}
    (htx : tx.call.movesShares = false) (hhistory : s'.history = s.history ++ [tx])
    (hsettled : s'.settled = s.settled) : Executed net spelling s' := by
  obtain ⟨env, call⟩ := tx
  rcases contract_concat net hhistory with ⟨_, _, heffect⟩ | ⟨_, hsame⟩
  · refine h.congr ?_ (effect_position_same heffect htx) hsettled
    cases effect_books heffect with
    | settle => exact absurd htx (by simp [Call.movesShares])
    | other _ _ _ _ hmatches _ => exact hmatches
  · exact h.congr (by rw [hsame]) (by rw [hsame]) hsettled

variable (net) in
theorem order_cases {q : Prepared} {call : Call} (hcall : q.call p = some call) (env : Env) :
    (∃ event, Effect net.c env (s.contract net) call ((s.order p net q env).contract net) event ∧
        (s.order p net q env).settled = s.settled ++ [q]) ∨
      ((s.order p net q env).contract net = s.contract net ∧
        (s.order p net q env).settled = s.settled) := by
  have hhistory : (s.order p net q env).history = s.history ++ [⟨env, call⟩] := by
    unfold PositionsWorld.order
    rw [hcall]
  have hsettled : (s.order p net q env).settled =
      if (exec net.c ⟨env, call⟩ (s.contract net)).toOption.isSome then s.settled ++ [q]
        else s.settled := by
    unfold PositionsWorld.order
    rw [hcall]
  rcases contract_concat net hhistory with ⟨r, hexec, heffect⟩ | ⟨hfailed, hsame⟩
  · refine Or.inl ⟨r.2, heffect, ?_⟩
    rw [hsettled, hexec]
    rfl
  · refine Or.inr ⟨hsame, ?_⟩
    rw [hsettled, hfailed]
    rfl

theorem Executed.order (hkeccak : ∀ text, (p.keccak256 text).length = 32)
    (hsignatures : ∀ row signature, p.signatureMap row = .ok signature →
      signature.length < 2 ^ 32)
    (h : Executed net spelling s) {m : ClobMatch} {bid ask : CreateOrderRequestClob}
    {bidRow askRow : PredictionIntent} {cfg : PrismV2Network} {market : MarketRow} {q : Prepared}
    (hbid : m.bid = some bid) (hask : m.ask = some ask) (hfill : m.fillShares < 2 ^ 64)
    (hbidRow : Stored bidRow) (haskRow : Stored askRow)
    (hprepare : prepare p m bid ask bidRow askRow cfg market = .ok q)
    (hspelt : ∀ leg x, (q.auth leg).decoded = some x →
      (q.row leg).evmaddress = spelling x.signer)
    (env : Env) : Executed net spelling (s.order p net q env) := by
  cases hcall : q.call p with
  | none =>
      unfold PositionsWorld.order
      rw [hcall]
      exact h
  | some call =>
  obtain ⟨x, y, signatureA, signatureB, hx, hy, rfl⟩ :=
    prepared_call hkeccak hsignatures hbid hask hfill hbidRow haskRow hprepare hcall
  have hq := prepare_ok hbid hask hprepare
  rcases order_cases net hcall env with ⟨event, heffect, hsettled⟩ | ⟨hsame, hsettled⟩
  · obtain ⟨hadmitted, _⟩ := effect_settle heffect
    have hmarket : x.marketId = q.record.marketID := by
      rw [hq.marketID]
      exact hx.decodes.marketId
    have hbidLeg : LegOf spelling q .bid x :=
      prepared_leg hq .bid hx hmarket (hspelt .bid x hx.decoded)
    have haskLeg : LegOf spelling q .ask y :=
      prepared_leg hq .ask hy (hadmitted.market.symm.trans hmarket) (hspelt .ask y hy.decoded)
    have hprice := (splitCollateralV2_ok hfill hq.split).2.2.1
    refine h.settle ⟨?_, hq.recordID, ?_⟩ hbidLeg haskLeg heffect hsettled
    · intro leg
      cases leg with
      | bid => exact ⟨x, hbidLeg⟩
      | ask => exact ⟨y, haskLeg⟩
    · rw [hq.executionYesPrice]
      exact hprice.le
  · exact h.congr (by rw [hsame]) (by rw [hsame]) hsettled

end Contract

/-! ## The legs -/

/-- The task of a finalized match: its legs are not counted. -/
structure Bookkeeping.Of (s : PositionsWorld) (task : Bookkeeping) : Prop where
  settled : s.settled[task.fill]? = some task.q
  finalized : s.db.finalized task.q.record.matchID = true
  fits : task.q.record.fillShares ≤ maxInt64
  legs : task.legs.Nodup
  waiting : ∀ leg ∈ task.legs, (task.fill, leg) ∉ s.counted

/-- Every leg of a finalized match is counted or waits in the task of its match. -/
structure Tracked (s : PositionsWorld) : Prop where
  known : ∀ matchID, s.db.finalized matchID = true →
    ∃ q ∈ s.settled, q.record.matchID = matchID
  tasks : ∀ task ∈ s.tasks, task.Of s
  apart : (s.tasks.map fun task => task.fill).Nodup
  counted : ∀ key ∈ s.counted, ∃ q, s.settled[key.1]? = some q ∧
    s.db.finalized q.record.matchID = true
  done : ∀ k q, s.settled[k]? = some q → s.db.finalized q.record.matchID = true → ∀ leg,
    (k, leg) ∈ s.counted ∨ ∃ task ∈ s.tasks, task.fill = k ∧ leg ∈ task.legs

section Legs

variable {p : Platform} {net : Network} {spelling : Address → Str} {s s' : PositionsWorld}
  {tasks : List Bookkeeping} {i : Nat} {task task' : Bookkeeping}

theorem mem_set_task (hapart : (tasks.map fun task => task.fill).Nodup)
    (htask : tasks[i]? = some task) {other : Bookkeeping} :
    other ∈ tasks.set i task' ↔ other = task' ∨ other ∈ tasks ∧ other.fill ≠ task.fill := by
  induction tasks generalizing i with
  | nil => exact absurd htask (by simp)
  | cons first tasks ih =>
      rw [List.map_cons, List.nodup_cons] at hapart
      obtain ⟨hfirst, hapart⟩ := hapart
      have hother : ∀ t ∈ tasks, t.fill ≠ first.fill := fun t ht heq =>
        hfirst (heq ▸ List.mem_map_of_mem ht)
      cases i with
      | zero =>
          rw [List.getElem?_cons_zero, Option.some.injEq] at htask
          subst htask
          rw [List.set_cons_zero, List.mem_cons, List.mem_cons]
          constructor
          · rintro (h | h)
            · exact Or.inl h
            · exact Or.inr ⟨Or.inr h, hother other h⟩
          · rintro (h | ⟨rfl | h, hne⟩)
            · exact Or.inl h
            · exact absurd rfl hne
            · exact Or.inr h
      | succ i =>
          rw [List.getElem?_cons_succ] at htask
          have hne : first.fill ≠ task.fill := (hother task (List.mem_of_getElem? htask)).symm
          rw [List.set_cons_succ, List.mem_cons, ih hapart htask, List.mem_cons]
          constructor
          · rintro (rfl | h | h)
            · exact Or.inr ⟨Or.inl rfl, hne⟩
            · exact Or.inl h
            · exact Or.inr ⟨Or.inr h.1, h.2⟩
          · rintro (h | ⟨rfl | h, hne⟩)
            · exact Or.inr (Or.inl h)
            · exact Or.inl rfl
            · exact Or.inr (Or.inr ⟨h, hne⟩)

theorem map_fill_set (htask : tasks[i]? = some task) (hfill : task'.fill = task.fill) :
    (tasks.set i task').map (fun task => task.fill) = tasks.map fun task => task.fill := by
  induction tasks generalizing i with
  | nil => exact absurd htask (by simp)
  | cons first tasks ih =>
      cases i with
      | zero =>
          rw [List.getElem?_cons_zero, Option.some.injEq] at htask
          rw [List.set_cons_zero, List.map_cons, List.map_cons, hfill, htask]
      | succ i =>
          rw [List.getElem?_cons_succ] at htask
          rw [List.set_cons_succ, List.map_cons, List.map_cons, ih htask]

theorem Tracked.congr (h : Tracked s) (hsettled : s'.settled = s.settled)
    (hfinalized : ∀ matchID, s'.db.finalized matchID = s.db.finalized matchID)
    (htasks : s'.tasks = s.tasks) (hcounted : s'.counted = s.counted) : Tracked s' where
  known := by
    simp only [hsettled, hfinalized]
    exact h.known
  tasks := by
    intro task htask
    rw [htasks] at htask
    obtain ⟨hat, hfinal, hfits, hlegs, hwaiting⟩ := h.tasks task htask
    exact ⟨hsettled ▸ hat, (hfinalized _).trans hfinal, hfits, hlegs, hcounted ▸ hwaiting⟩
  apart := by
    rw [htasks]
    exact h.apart
  counted := by
    simp only [hsettled, hfinalized, hcounted]
    exact h.counted
  done := by
    simp only [hsettled, hfinalized, hcounted, htasks]
    exact h.done

theorem Tracked.settle (h : Tracked s) {q : Prepared} (hsettled : s'.settled = s.settled ++ [q])
    (hdistinct : (s'.settled.map fun q => q.record.matchID).Nodup)
    (hdb : s'.db = s.db) (htasks : s'.tasks = s.tasks) (hcounted : s'.counted = s.counted) :
    Tracked s' := by
  have hearlier : ∀ {k : Nat} {q' : Prepared}, s.settled[k]? = some q' →
      s'.settled[k]? = some q' := by
    intro k q' hk
    rw [hsettled, List.getElem?_append_left (List.getElem?_eq_some_iff.mp hk).1]
    exact hk
  have hopen : s.db.finalized q.record.matchID = false := by
    rw [Bool.eq_false_iff]
    intro hfinal
    obtain ⟨q', hq', hsame⟩ := h.known _ hfinal
    rw [hsettled, List.map_append, List.nodup_append] at hdistinct
    exact hdistinct.2.2 _ (List.mem_map_of_mem hq') _ (by simp) hsame
  constructor
  · intro matchID hfinal
    rw [hdb] at hfinal
    obtain ⟨q', hq', hsame⟩ := h.known matchID hfinal
    exact ⟨q', by rw [hsettled]; exact List.mem_append_left _ hq', hsame⟩
  · intro task htask
    rw [htasks] at htask
    obtain ⟨hat, hfinal, hfits, hlegs, hwaiting⟩ := h.tasks task htask
    exact ⟨hearlier hat, hdb ▸ hfinal, hfits, hlegs, hcounted ▸ hwaiting⟩
  · rw [htasks]
    exact h.apart
  · intro key hkey
    rw [hcounted] at hkey
    obtain ⟨q', hq', hfinal⟩ := h.counted key hkey
    exact ⟨q', hearlier hq', hdb ▸ hfinal⟩
  · intro k q' hq' hfinal leg
    rw [hdb] at hfinal
    rw [hcounted, htasks]
    rw [hsettled, List.getElem?_append] at hq'
    split at hq'
    · exact h.done k q' hq' hfinal leg
    · have hlast := List.mem_singleton.mp (List.mem_of_getElem? hq')
      rw [hlast, hopen] at hfinal
      exact absurd hfinal (by decide)

/-- A match is finalized, and its two legs are left to do. -/
theorem Tracked.finalize (h : Tracked s)
    (hdistinct : (s.settled.map fun q => q.record.matchID).Nodup) {k : Nat} {q : Prepared}
    (hq : s.settled[k]? = some q) (hfits : q.record.fillShares ≤ maxInt64)
    (hopen : s.db.finalized q.record.matchID = false)
    (hfinal : ∀ matchID, s'.db.finalized matchID = true ↔
      matchID = q.record.matchID ∨ s.db.finalized matchID = true)
    (hsettled : s'.settled = s.settled)
    (htasks : s'.tasks = s.tasks ++ [⟨k, q, [.bid, .ask], none⟩])
    (hcounted : s'.counted = s.counted) : Tracked s' := by
  have hnew : ∀ {k' : Nat} {q' : Prepared}, s.settled[k']? = some q' →
      s.db.finalized q'.record.matchID = true → k' ≠ k := by
    rintro k' q' hq' hdone rfl
    rw [hq, Option.some.injEq] at hq'
    rw [← hq', hopen] at hdone
    exact absurd hdone (by decide)
  constructor
  · intro matchID hdone
    rw [hsettled]
    rcases (hfinal matchID).mp hdone with rfl | hold
    · exact ⟨q, List.mem_of_getElem? hq, rfl⟩
    · exact h.known matchID hold
  · intro task htask
    rw [htasks, List.mem_append, List.mem_singleton] at htask
    rcases htask with hold | rfl
    · obtain ⟨hat, hdone, hfits, hlegs, hwaiting⟩ := h.tasks task hold
      exact ⟨hsettled ▸ hat, (hfinal _).mpr (Or.inr hdone), hfits, hlegs, hcounted ▸ hwaiting⟩
    · refine ⟨hsettled ▸ hq, (hfinal _).mpr (Or.inl rfl), hfits, by simp, ?_⟩
      intro leg _ hmem
      rw [hcounted] at hmem
      obtain ⟨q', hq', hdone⟩ := h.counted _ hmem
      exact hnew hq' hdone rfl
  · rw [htasks, List.map_append, List.map_singleton]
    refine List.nodup_append.mpr ⟨h.apart, List.nodup_singleton _, ?_⟩
    intro fill hfill _ hlast
    obtain ⟨task, htask, rfl⟩ := List.mem_map.mp hfill
    rw [List.mem_singleton.mp hlast]
    exact hnew (h.tasks task htask).settled (h.tasks task htask).finalized
  · intro key hkey
    rw [hcounted] at hkey
    obtain ⟨q', hq', hdone⟩ := h.counted key hkey
    exact ⟨q', hsettled ▸ hq', (hfinal _).mpr (Or.inr hdone)⟩
  · intro k' q' hq' hdone leg
    rw [hsettled] at hq'
    rw [hcounted, htasks]
    by_cases hk : k' = k
    · refine Or.inr ⟨_, List.mem_append_right _ List.mem_cons_self, hk.symm, ?_⟩
      cases leg <;> simp
    · have hother : q'.record.matchID ≠ q.record.matchID := by
        intro hsame
        apply hk
        have hlt := (List.getElem?_eq_some_iff.mp hq').1
        apply (List.getElem?_inj (by rwa [List.length_map]) hdistinct).mp
        rw [List.getElem?_map, List.getElem?_map, hq', hq, Option.map_some, Option.map_some, hsame]
      rcases h.done k' q' hq' (((hfinal _).mp hdone).resolve_left hother) leg with hmem | htask
      · exact Or.inl hmem
      · obtain ⟨task, htask, hfill, hleg⟩ := htask
        exact Or.inr ⟨task, List.mem_append_left _ htask, hfill, hleg⟩

theorem Tracked.goesOn (h : Tracked s) (htask : s.tasks[i]? = some task) (task' : Bookkeeping)
    (counted : List Leg) (hlegs : task.legs = counted ++ task'.legs)
    (hfill : task'.fill = task.fill)
    (hq : task'.q = task.q) (hsettled : s'.settled = s.settled) (hdb : s'.db = s.db)
    (htasks : s'.tasks = s.tasks.set i task')
    (hcounted : s'.counted = (counted.map fun leg => (task.fill, leg)) ++ s.counted) :
    Tracked s' := by
  have hmem := List.mem_of_getElem? htask
  obtain ⟨hat, hfinal, hfits, hnodup, hwaiting⟩ := h.tasks task hmem
  rw [hlegs, List.nodup_append] at hnodup
  constructor
  · rw [hsettled, hdb]
    exact h.known
  · intro other hother
    rw [htasks, mem_set_task h.apart htask] at hother
    rcases hother with rfl | ⟨hold, hne⟩
    · refine ⟨?_, ?_, ?_, hnodup.2.1, ?_⟩
      · rw [hsettled, hfill, hq]
        exact hat
      · rw [hdb, hq]
        exact hfinal
      · rw [hq]
        exact hfits
      · intro leg hleg hdone
        rw [hcounted, hfill, List.mem_append] at hdone
        rcases hdone with hnew | hbefore
        · obtain ⟨leg', hleg', heq⟩ := List.mem_map.mp hnew
          exact hnodup.2.2 leg' hleg' leg hleg (Prod.mk.inj heq).2
        · exact hwaiting leg (by rw [hlegs]; exact List.mem_append_right _ hleg) hbefore
    · obtain ⟨hat', hfinal', hfits', hnodup', hwaiting'⟩ := h.tasks other hold
      refine ⟨hsettled ▸ hat', hdb ▸ hfinal', hfits', hnodup', ?_⟩
      intro leg hleg hdone
      rw [hcounted, List.mem_append] at hdone
      rcases hdone with hnew | hbefore
      · obtain ⟨_, _, heq⟩ := List.mem_map.mp hnew
        exact hne (Prod.mk.inj heq).1.symm
      · exact hwaiting' leg hleg hbefore
  · rw [htasks, map_fill_set htask hfill]
    exact h.apart
  · intro key hkey
    rw [hsettled, hdb]
    rw [hcounted, List.mem_append] at hkey
    rcases hkey with hnew | hbefore
    · obtain ⟨_, _, rfl⟩ := List.mem_map.mp hnew
      exact ⟨task.q, hat, hfinal⟩
    · exact h.counted key hbefore
  · intro k q' hq' hdone leg
    rw [hsettled] at hq'
    rw [hdb] at hdone
    rw [hcounted, htasks]
    rcases h.done k q' hq' hdone leg with hbefore | ⟨other, hother, rfl, hleg⟩
    · exact Or.inl (List.mem_append_right _ hbefore)
    · by_cases hsame : other.fill = task.fill
      · have heq := List.inj_on_of_nodup_map h.apart hother hmem hsame
        rw [heq, hlegs, List.mem_append] at hleg
        rw [hsame]
        rcases hleg with hnow | hlater
        · exact Or.inl (List.mem_append_left _ (List.mem_map.mpr ⟨leg, hnow, rfl⟩))
        · exact Or.inr ⟨task', (mem_set_task h.apart htask).mpr (Or.inl rfl), hfill, hlater⟩
      · exact Or.inr ⟨other, (mem_set_task h.apart htask).mpr (Or.inr ⟨hother, hsame⟩), rfl, hleg⟩

theorem Tracked.stop (h : Tracked s) (hdone : ∀ task, s.tasks[i]? = some task → task.legs = []) :
    Tracked { s with tasks := s.tasks.eraseIdx i } := by
  constructor
  · exact h.known
  · intro task htask
    obtain ⟨hat, hfinal, hfits, hnodup, hwaiting⟩ :=
      h.tasks task (List.eraseIdx_subset htask)
    exact ⟨hat, hfinal, hfits, hnodup, hwaiting⟩
  · exact h.apart.sublist ((List.eraseIdx_sublist ..).map _)
  · exact h.counted
  · intro k q hq hfinal leg
    rcases h.done k q hq hfinal leg with hcounted | ⟨task, htask, hfill, hleg⟩
    · exact Or.inl hcounted
    · refine Or.inr ⟨task, ?_, hfill, hleg⟩
      obtain ⟨j, hj⟩ := List.mem_iff_getElem?.mp htask
      refine List.mem_eraseIdx_iff_getElem?.mpr ⟨j, ?_, hj⟩
      rintro rfl
      rw [hdone task hj] at hleg
      exact absurd hleg List.not_mem_nil

end Legs

end PrismBackend.Api
