import PrismBackend.Lib.System
import PrismBackend.Rewards.Campaign

/-!
# Rewards: the windows of the campaign

Runs of the campaign beside resolutions of markets. A run reads its clock first
and the table later, and it looks back for a time that it derives from the
schedule, not to the run before.
-/

namespace PrismBackend.Rewards

open PrismBackend.Lib PrismBackend.Clob PrismBackend.PrismV2

/-! ## State -/

/-- A run that has read the table: when it started, and the markets that it found. -/
structure Look where
  cronRanAt : Nat
  markets : List Uint128
  deriving DecidableEq

structure Campaign where
  clock : Nat
  markets : Markets
  /- the runs that have not read the table yet -/
  running : List Nat
  looked : List Look
  /- every resolution that was recorded, with its time -/
  resolutions : List (Uint128 × Nat)

inductive CampaignEvent
  | tick (microseconds : Nat)
  | create (marketID : Uint128) (net : Str)
  | resolve (marketID : Uint128)
  | togglePause (marketID : Uint128)
  | toggleSuspend (marketID : Uint128)
  | softDelete (marketID : Uint128)
  | start
  | look (i : Nat)

namespace Campaign

/-! ## Steps -/

def newMarket (marketID : Uint128) (net : Str) : Market where
  marketID
  net
  resolvedAt := none
  deletedAt := false
  isSuspended := false
  isPaused := false

def resolvedMarket (now : Nat) (market : Market) : Market := { market with resolvedAt := some now }

theorem resolvedMarket_marketID (now : Nat) (market : Market) :
    (resolvedMarket now market).marketID = market.marketID := rfl

/-- `ResolveMarket`: the time is written whether or not there was one. -/
def resolve (s : Campaign) (marketID : Uint128) : Campaign :=
  if (s.markets.find marketID).isNone then s
  else
    { s with
      markets := s.markets.modify marketID (resolvedMarket s.clock) (resolvedMarket_marketID _)
      resolutions := s.resolutions ++ [(marketID, s.clock)] }

def look (window : Nat) (s : Campaign) (i : Nat) : Campaign :=
  match s.running[i]? with
  | none => s
  | some cronRanAt =>
    { s with
      running := s.running.eraseIdx i
      looked := s.looked ++ [⟨cronRanAt,
        (getResolvedMarketsAfter s.markets (cronRanAt - window)).map (·.marketID)⟩] }

def next (window : Nat) (s : Campaign) : CampaignEvent → Campaign
  | .tick microseconds => { s with clock := s.clock + microseconds }
  | .create marketID net => { s with markets := s.markets.insert (newMarket marketID net) }
  | .resolve marketID => s.resolve marketID
  | .togglePause marketID =>
    { s with
      markets := s.markets.modify marketID
        (fun market => { market with isPaused := !market.isPaused }) fun _ => rfl }
  | .toggleSuspend marketID =>
    { s with
      markets := s.markets.modify marketID
        (fun market => { market with isSuspended := !market.isSuspended }) fun _ => rfl }
  | .softDelete marketID =>
    { s with
      markets := s.markets.modify marketID
        (fun market => { market with deletedAt := true }) fun _ => rfl }
  | .start => { s with running := s.running ++ [s.clock] }
  | .look i => s.look window i

/-- A run starts when the schedule fires. -/
def Allowed (schedule : Schedule) (s : Campaign) : CampaignEvent → Prop
  | .start => s.clock % second = 0 ∧ schedule (s.clock / second) = true
  | _ => True

end Campaign

def campaign (schedule : Schedule) : System Campaign CampaignEvent where
  next := Campaign.next (lookBack schedule)
  Allowed := Campaign.Allowed schedule

namespace Campaign

variable {schedule : Schedule} {window : Nat} {s : Campaign} {e : CampaignEvent}

/-! ## Conditions -/

def timesFound (s : Campaign) (marketID : Uint128) : Nat :=
  s.looked.countP (·.markets.contains marketID)

/-- Each market that was resolved after the first run, and no later than the last one, is found by
exactly one run. -/
def OnceEach (s : Campaign) : Prop :=
  ∀ resolution ∈ s.resolutions, ∀ first ∈ s.looked.head?, ∀ last ∈ s.looked.getLast?,
    first.cronRanAt < resolution.2 → resolution.2 ≤ last.cronRanAt →
      s.timesFound resolution.1 = 1

def AfterLast (s : Campaign) (at_ : Nat) : Prop :=
  ∀ last ∈ s.looked.getLast?, last.cronRanAt < at_

/-- Runs come one window after the other and are not overtaken by a resolution, a market is resolved
again only before the next run, and a market that was resolved since the last run is shown. -/
def Regular (window : Nat) (s : Campaign) : CampaignEvent → Prop
  | .resolve marketID => s.running = [] ∧ s.AfterLast s.clock ∧
    ∀ market ∈ s.markets.find marketID, ∀ resolvedAt ∈ market.resolvedAt, s.AfterLast resolvedAt
  | .start => s.running = [] ∧ ∀ last ∈ s.looked.getLast?, s.clock = last.cronRanAt + window
  | .look _ => ∀ market ∈ s.markets.rows, ∀ resolvedAt ∈ market.resolvedAt,
    s.AfterLast resolvedAt → market.isShown = true
  | _ => True

instance (s : Campaign) (at_ : Nat) : Decidable (s.AfterLast at_) :=
  inferInstanceAs (Decidable (∀ last ∈ s.looked.getLast?, last.cronRanAt < at_))

instance (s : Campaign) : Decidable s.OnceEach :=
  inferInstanceAs (Decidable (∀ resolution ∈ s.resolutions, ∀ first ∈ s.looked.head?,
    ∀ last ∈ s.looked.getLast?, first.cronRanAt < resolution.2 →
      resolution.2 ≤ last.cronRanAt → s.timesFound resolution.1 = 1))

instance (s : Campaign) : (e : CampaignEvent) → Decidable (Allowed schedule s e)
  | .start => inferInstanceAs (Decidable (_ ∧ _))
  | .tick _ | .create _ _ | .resolve _ | .togglePause _ | .toggleSuspend _ | .softDelete _
  | .look _ => inferInstanceAs (Decidable True)

instance (s : Campaign) : (e : CampaignEvent) → Decidable (Regular window s e)
  | .resolve marketID => inferInstanceAs (Decidable (s.running = [] ∧ s.AfterLast s.clock ∧
      ∀ market ∈ s.markets.find marketID, ∀ resolvedAt ∈ market.resolvedAt,
        s.AfterLast resolvedAt))
  | .start => inferInstanceAs (Decidable (s.running = [] ∧
      ∀ last ∈ s.looked.getLast?, s.clock = last.cronRanAt + window))
  | .look _ => inferInstanceAs (Decidable (∀ market ∈ s.markets.rows,
      ∀ resolvedAt ∈ market.resolvedAt, s.AfterLast resolvedAt → market.isShown = true))
  | .tick _ | .create _ _ | .togglePause _ | .toggleSuspend _ | .softDelete _ =>
    inferInstanceAs (Decidable True)

structure Fresh (s : Campaign) : Prop where
  running : s.running = []
  looked : s.looked = []
  resolutions : s.resolutions = []
  markets : ∀ market ∈ s.markets.rows, market.resolvedAt = none

/-! ## The invariant -/

def lastResolved (s : Campaign) (marketID : Uint128) : Option Nat :=
  (s.markets.find marketID).bind (·.resolvedAt)

/-- What is found of a market that was resolved last at an instant: nothing before the next run,
and then one run. -/
structure Found (s : Campaign) (marketID : Uint128) (resolvedAt : Nat) : Prop where
  not_yet : s.AfterLast resolvedAt → s.timesFound marketID = 0
  once : ∀ first, s.looked.head? = some first → first.cronRanAt < resolvedAt →
    ¬s.AfterLast resolvedAt → s.timesFound marketID = 1

structure Steady (window : Nat) (s : Campaign) : Prop where
  /- a run that has not read the table yet is one window after the last, and nothing was resolved
  since it started -/
  running : s.running = [] ∨ ∃ cronRanAt, s.running = [cronRanAt] ∧
    (∀ last, s.looked.getLast? = some last → cronRanAt = last.cronRanAt + window) ∧
    ∀ marketID resolvedAt, s.lastResolved marketID = some resolvedAt → resolvedAt ≤ cronRanAt
  resolved_le : ∀ marketID resolvedAt, s.lastResolved marketID = some resolvedAt →
    resolvedAt ≤ s.clock
  found : ∀ marketID resolvedAt, s.lastResolved marketID = some resolvedAt →
    s.Found marketID resolvedAt
  unresolved : ∀ marketID, s.lastResolved marketID = none → s.timesFound marketID = 0
  /- an earlier resolution of a market is on the same side of the last run as its latest -/
  recorded : ∀ marketID resolvedAt, (marketID, resolvedAt) ∈ s.resolutions →
    ∃ latest, s.lastResolved marketID = some latest ∧ resolvedAt ≤ latest ∧
      (s.AfterLast latest → s.AfterLast resolvedAt)

theorem Fresh.steady (h : s.Fresh) : s.Steady window := by
  have hnone : ∀ marketID, s.lastResolved marketID = none := by
    intro marketID
    unfold lastResolved
    cases hfind : s.markets.find marketID with
    | none => rfl
    | some market => exact h.markets market (Table.find_eq_some.mp hfind).1
  have hsome {marketID : Uint128} {resolvedAt : Nat} :
      s.lastResolved marketID ≠ some resolvedAt := by
    rw [hnone]
    exact Option.some_ne_none _ |>.symm
  refine ⟨Or.inl h.running, fun _ _ hr => absurd hr hsome, fun _ _ hr => absurd hr hsome, ?_, ?_⟩
  · intro marketID _
    rw [timesFound, h.looked, List.countP_nil]
  · intro marketID resolvedAt hmem
    rw [h.resolutions] at hmem
    exact absurd hmem List.not_mem_nil

/-- Steps that resolve nothing and neither start nor finish a run. -/
theorem Steady.keep (h : s.Steady window) (s' : Campaign) (hclock : s.clock ≤ s'.clock)
    (hrunning : s'.running = s.running) (hlooked : s'.looked = s.looked)
    (hresolutions : s'.resolutions = s.resolutions)
    (hlast : ∀ marketID, s'.lastResolved marketID = s.lastResolved marketID) :
    s'.Steady window := by
  have hafter (at_ : Nat) : s'.AfterLast at_ ↔ s.AfterLast at_ := by
    rw [AfterLast, AfterLast, hlooked]
  have htimes (marketID : Uint128) : s'.timesFound marketID = s.timesFound marketID := by
    rw [timesFound, timesFound, hlooked]
  constructor
  · rw [hrunning, hlooked]
    simp only [hlast]
    exact h.running
  · intro marketID resolvedAt hr
    rw [hlast] at hr
    exact (h.resolved_le marketID resolvedAt hr).trans hclock
  · intro marketID resolvedAt hr
    rw [hlast] at hr
    have hfound := h.found marketID resolvedAt hr
    refine ⟨fun hnot => ?_, fun first hfirst hlt hnot => ?_⟩
    · rw [htimes]
      exact hfound.not_yet ((hafter _).mp hnot)
    · rw [hlooked] at hfirst
      rw [htimes]
      exact hfound.once first hfirst hlt (mt (hafter _).mpr hnot)
  · intro marketID hr
    rw [hlast] at hr
    rw [htimes]
    exact h.unresolved marketID hr
  · intro marketID resolvedAt hmem
    rw [hresolutions] at hmem
    obtain ⟨latest, hlatest, hle, hside⟩ := h.recorded marketID resolvedAt hmem
    refine ⟨latest, (hlast marketID).trans hlatest, hle, ?_⟩
    intro hnot
    exact (hafter _).mpr (hside ((hafter _).mp hnot))

theorem Steady.update (h : s.Steady window) (k : Uint128) {f : Market → Market}
    (hf : ∀ market, (f market).marketID = market.marketID)
    (hresolved : ∀ market, (f market).resolvedAt = market.resolvedAt) :
    ({ s with markets := s.markets.modify k f hf } : Campaign).Steady window := by
  refine h.keep _ (Nat.le_refl s.clock) rfl rfl rfl fun marketID => ?_
  unfold lastResolved
  dsimp only
  rw [Table.find_modify_map hf]
  cases s.markets.find marketID with
  | none => rfl
  | some market =>
      show Market.resolvedAt (if marketID = k then f market else market) = market.resolvedAt
      split
      · exact hresolved market
      · rfl

theorem lastResolved_create (s : Campaign) (marketID : Uint128) (net : Str) (other : Uint128) :
    (s.next window (.create marketID net)).lastResolved other = s.lastResolved other := by
  unfold lastResolved
  show ((s.markets.insert (newMarket marketID net)).find other).bind _ = _
  cases hfind : s.markets.find other with
  | some market => rw [Table.find_insert hfind]
  | none =>
      by_cases hother : marketID = other
      · subst hother
        have hself : (s.markets.insert (newMarket marketID net)).find marketID =
            some (newMarket marketID net) := Table.find_insert_self hfind
        rw [hself]
        rfl
      · have hne : (s.markets.insert (newMarket marketID net)).find other = s.markets.find other :=
          Table.find_insert_of_ne hother
        rw [hne, hfind]

/-! ## Steps of the invariant -/

theorem lastResolved_resolve {marketID : Uint128} {market : Market}
    (h : s.markets.find marketID = some market) (other : Uint128) :
    (s.resolve marketID).lastResolved other =
      if other = marketID then some s.clock else s.lastResolved other := by
  unfold Campaign.resolve lastResolved
  rw [if_neg (by simp [h])]
  dsimp only
  rw [Table.find_modify_map (resolvedMarket_marketID _)]
  split
  · next hother =>
    rw [hother, h]
    rfl
  · rw [Option.map_id']

theorem Steady.resolve (h : s.Steady window) {marketID : Uint128}
    (hregular : s.Regular window (.resolve marketID)) : (s.resolve marketID).Steady window := by
  obtain ⟨hidle, hclock, hagain⟩ := hregular
  cases hfind : s.markets.find marketID with
  | none =>
      have hsame : s.resolve marketID = s := by
        unfold Campaign.resolve
        rw [if_pos (by simp [hfind])]
      rw [hsame]
      exact h
  | some market =>
      have hlast := lastResolved_resolve hfind
      have hlooked : (s.resolve marketID).looked = s.looked := by
        unfold Campaign.resolve
        split
        · rfl
        · rfl
      have hafter (at_ : Nat) : (s.resolve marketID).AfterLast at_ ↔ s.AfterLast at_ := by
        rw [AfterLast, AfterLast, hlooked]
      have htimes (other : Uint128) :
        (s.resolve marketID).timesFound other = s.timesFound other := by
        rw [timesFound, timesFound, hlooked]
      have hnow : (s.resolve marketID).clock = s.clock := by
        unfold Campaign.resolve
        split
        · rfl
        · rfl
      -- the market was not found yet: it was not resolved, or only after the last run
      have hnone : s.timesFound marketID = 0 := by
        cases hbefore : s.lastResolved marketID with
        | none => exact h.unresolved marketID hbefore
        | some resolvedAt =>
            rw [lastResolved, hfind, Option.bind_some] at hbefore
            have hfound := h.found marketID resolvedAt (by rw [lastResolved, hfind]; exact hbefore)
            exact hfound.not_yet (hagain market hfind resolvedAt hbefore)
      constructor
      · left
        unfold Campaign.resolve
        split
        · exact hidle
        · exact hidle
      · intro other resolvedAt hr
        rw [hlast] at hr
        rw [hnow]
        split at hr
        · exact (Option.some.inj hr).ge
        · exact h.resolved_le other resolvedAt hr
      · intro other resolvedAt hr
        rw [hlast] at hr
        split at hr
        · next hother =>
          cases Option.some.inj hr
          refine ⟨fun _ => ?_, fun first hfirst hlt hnot => ?_⟩
          · rw [htimes, hother, hnone]
          · exact absurd ((hafter _).mpr hclock) hnot
        · have hfound := h.found other resolvedAt hr
          refine ⟨fun hnot => ?_, fun first hfirst hlt hnot => ?_⟩
          · rw [htimes]
            exact hfound.not_yet ((hafter _).mp hnot)
          · rw [hlooked] at hfirst
            rw [htimes]
            exact hfound.once first hfirst hlt (mt (hafter _).mpr hnot)
      · intro other hr
        rw [hlast] at hr
        split at hr
        · exact absurd hr (Option.some_ne_none _)
        · rw [htimes]
          exact h.unresolved other hr
      · intro other resolvedAt hmem
        have hresolutions : (s.resolve marketID).resolutions =
            s.resolutions ++ [(marketID, s.clock)] := by
          unfold Campaign.resolve
          rw [if_neg (by simp [hfind])]
        rw [hresolutions, List.mem_append, List.mem_singleton, Prod.mk.injEq] at hmem
        simp only [hlast, hafter]
        rcases hmem with hold | ⟨rfl, rfl⟩
        · obtain ⟨latest, hlatest, hle, hside⟩ := h.recorded other resolvedAt hold
          by_cases hother : other = marketID
          · subst hother
            refine ⟨s.clock, if_pos rfl, hle.trans (h.resolved_le _ _ hlatest), fun _ => ?_⟩
            rw [lastResolved, hfind, Option.bind_some] at hlatest
            exact hside (hagain market hfind latest hlatest)
          · exact ⟨latest, (if_neg hother).trans hlatest, hle, hside⟩
        · exact ⟨s.clock, if_pos rfl, le_rfl, id⟩

theorem Steady.start (h : s.Steady window) (hregular : s.Regular window .start) :
    (s.next window .start).Steady window := by
  obtain ⟨hidle, hspaced⟩ := hregular
  refine ⟨Or.inr ⟨s.clock, ?_, hspaced, h.resolved_le⟩, h.resolved_le, ?_, h.unresolved, h.recorded⟩
  · show s.running ++ [s.clock] = [s.clock]
    rw [hidle, List.nil_append]
  · intro marketID resolvedAt hr
    exact ⟨(h.found marketID resolvedAt hr).not_yet, (h.found marketID resolvedAt hr).once⟩

/-- A market is found where its latest resolution is in the window and it is shown. -/
theorem found_iff {after : Nat} {marketID : Uint128} :
    ((getResolvedMarketsAfter s.markets after).map (·.marketID)).contains marketID = true ↔
      ∃ market resolvedAt, s.markets.find marketID = some market ∧
        market.resolvedAt = some resolvedAt ∧ after < resolvedAt ∧ market.isShown = true := by
  unfold getResolvedMarketsAfter
  rw [List.contains_eq_mem, decide_eq_true_eq, List.mem_map]
  constructor
  · intro h
    obtain ⟨market, hmem, rfl⟩ := h
    rw [List.mem_filter, Bool.and_eq_true] at hmem
    obtain ⟨hrow, hresolved, hshown⟩ := hmem
    obtain ⟨resolvedAt, hat, hlt⟩ := (Option.any_eq_true _ _).mp hresolved
    exact ⟨market, resolvedAt, Table.find_key hrow, hat, of_decide_eq_true hlt, hshown⟩
  · intro h
    obtain ⟨market, resolvedAt, hfind, hat, hlt, hshown⟩ := h
    obtain ⟨hrow, hkey⟩ := Table.find_eq_some.mp hfind
    refine ⟨market, List.mem_filter.mpr ⟨hrow, ?_⟩, hkey⟩
    rw [hat, Option.any_some, decide_eq_true hlt, hshown]
    rfl

theorem Steady.look (h : s.Steady window) {i : Nat} (hregular : s.Regular window (.look i)) :
    (s.look window i).Steady window := by
  unfold Campaign.look
  split
  · exact h
  next cronRanAt hi =>
  -- the run that reads the table is the only one
  obtain ⟨hone, hspaced, hresolved⟩ : s.running = [cronRanAt] ∧
      (∀ last, s.looked.getLast? = some last → cronRanAt = last.cronRanAt + window) ∧
      ∀ marketID resolvedAt, s.lastResolved marketID = some resolvedAt →
        resolvedAt ≤ cronRanAt := by
    rcases h.running with hidle | ⟨cronRanAt', hrunning, hrest⟩
    · rw [hidle] at hi
      exact absurd hi (by simp)
    · have hmem := List.mem_of_getElem? hi
      rw [hrunning, List.mem_singleton] at hmem
      subst hmem
      exact ⟨hrunning, hrest⟩
  have hi0 : i = 0 := by
    have hlt := (List.getElem?_eq_some_iff.mp hi).1
    rw [hone, List.length_singleton] at hlt
    omega
  generalize hids : (getResolvedMarketsAfter s.markets (cronRanAt - window)).map (·.marketID) = ids
  have hcontains (marketID : Uint128) : ids.contains marketID = true ↔
      ∃ market resolvedAt, s.markets.find marketID = some market ∧
        market.resolvedAt = some resolvedAt ∧ cronRanAt - window < resolvedAt ∧
        market.isShown = true := by
    rw [← hids]
    exact found_iff
  let s' : Campaign :=
    { s with
      running := s.running.eraseIdx i
      looked := s.looked ++ [⟨cronRanAt, ids⟩] }
  have htimes (marketID : Uint128) : s'.timesFound marketID =
      s.timesFound marketID + if ids.contains marketID = true then 1 else 0 := by
    show (s.looked ++ [_]).countP _ = _
    rw [List.countP_append, List.countP_singleton]
    rfl
  have hafter {resolvedAt : Nat} (hle : resolvedAt ≤ cronRanAt) : ¬s'.AfterLast resolvedAt := by
    intro hnot
    have hlt : cronRanAt < resolvedAt := hnot ⟨cronRanAt, ids⟩ List.getLast?_concat
    omega
  show s'.Steady window
  constructor
  · left
    show s.running.eraseIdx i = []
    rw [hone, hi0]
    rfl
  · exact h.resolved_le
  · intro marketID resolvedAt hr
    have hle := hresolved marketID resolvedAt hr
    obtain ⟨market, hfind, hat⟩ := Option.bind_eq_some_iff.mp hr
    refine ⟨fun hnot => absurd hnot (hafter hle), fun first hfirst hlt _ => ?_⟩
    rw [htimes]
    cases hbefore : s.looked.getLast? with
    | none =>
        -- the first run: what it finds was resolved before it
        have hlooked : s'.looked = [⟨cronRanAt, ids⟩] := by
          show s.looked ++ [_] = _
          rw [List.getLast?_eq_none_iff.mp hbefore, List.nil_append]
        rw [hlooked, List.head?_cons, Option.some.injEq] at hfirst
        rw [← hfirst] at hlt
        have hlate : cronRanAt < resolvedAt := hlt
        omega
    | some last =>
        have hhead : s.looked.head? = some first := by
          cases hlooked : s.looked with
          | nil =>
              rw [hlooked] at hbefore
              exact absurd hbefore (by simp)
          | cons head rest =>
              have hfirst' : (s.looked ++ [Look.mk cronRanAt ids]).head? = some first := hfirst
              rw [hlooked] at hfirst'
              exact hfirst'
        have hspace := hspaced last hbefore
        by_cases hnew : last.cronRanAt < resolvedAt
        · have hfresh : s.AfterLast resolvedAt := by
            intro last' hlast'
            rw [hbefore, Option.mem_some] at hlast'
            exact hlast' ▸ hnew
          have hshown := hregular market (Table.find_eq_some.mp hfind).1 resolvedAt hat hfresh
          have hlate : cronRanAt - window < resolvedAt := by omega
          have hin := (hcontains marketID).mpr ⟨market, resolvedAt, hfind, hat, hlate, hshown⟩
          rw [(h.found marketID resolvedAt hr).not_yet hfresh, if_pos hin]
        · have hold : ¬s.AfterLast resolvedAt := fun hfresh => hnew (hfresh last hbefore)
          have hout : ¬ids.contains marketID = true := by
            intro hin
            obtain ⟨market', resolvedAt', hfind', hat', hlt', _⟩ := (hcontains marketID).mp hin
            rw [hfind, Option.some.injEq] at hfind'
            subst hfind'
            rw [hat, Option.some.injEq] at hat'
            omega
          rw [(h.found marketID resolvedAt hr).once first hhead hlt hold, if_neg hout]
  · intro marketID hr
    have hout : ¬ids.contains marketID = true := by
      intro hin
      obtain ⟨market, resolvedAt, hfind, hat, _⟩ := (hcontains marketID).mp hin
      have hsome : s.lastResolved marketID = some resolvedAt :=
        Option.bind_eq_some_iff.mpr ⟨market, hfind, hat⟩
      exact absurd (hr.symm.trans hsome) (by simp)
    rw [htimes, h.unresolved marketID hr, if_neg hout]
  · intro marketID resolvedAt hmem
    obtain ⟨latest, hlatest, hle, _⟩ := h.recorded marketID resolvedAt hmem
    exact ⟨latest, hlatest, hle, fun hnot =>
      absurd hnot (hafter (hresolved marketID latest hlatest))⟩

/-! ## Runs -/

theorem Steady.next (h : s.Steady window) (hregular : s.Regular window e) :
    (s.next window e).Steady window := by
  cases e with
  | tick microseconds => exact h.keep _ (Nat.le_add_right _ _) rfl rfl rfl fun _ => rfl
  | create marketID net => exact h.keep _ le_rfl rfl rfl rfl (s.lastResolved_create marketID net)
  | resolve marketID => exact h.resolve hregular
  | togglePause marketID =>
      exact h.update marketID (f := fun market => { market with isPaused := !market.isPaused })
        (fun _ => rfl) fun _ => rfl
  | toggleSuspend marketID =>
      exact h.update marketID (f := fun market =>
        { market with isSuspended := !market.isSuspended })
        (fun _ => rfl) fun _ => rfl
  | softDelete marketID =>
      exact h.update marketID (f := fun market => { market with deletedAt := true })
        (fun _ => rfl) fun _ => rfl
  | start => exact h.start hregular
  | look i => exact h.look hregular

theorem Steady.onceEach (h : s.Steady window) : s.OnceEach := by
  rintro ⟨marketID, resolvedAt⟩ hmem first hfirst last hlast hlt hle
  dsimp only at hlt hle
  obtain ⟨latest, hlatest, hearlier, hside⟩ := h.recorded marketID resolvedAt hmem
  have hold : ¬s.AfterLast latest := by
    intro hnot
    have hcontra := hside hnot last hlast
    omega
  exact (h.found marketID latest hlatest).once first hfirst (by omega) hold

end Campaign

/-! ## Sample runs -/

def sampleCampaign : Campaign where
  clock := launchDate + 1200 * second
  markets := (Table.empty).insert (Campaign.newMarket 1 "testnet".toList)
  running := []
  looked := []
  resolutions := []

theorem sampleCampaign_fresh : sampleCampaign.Fresh := ⟨rfl, rfl, rfl, by decide⟩

/-- A day on which the market is resolved an hour after a run, up to the next run. -/
def sampleDay : List CampaignEvent :=
  [.tick hour, .resolve 1, .tick (23 * hour), .start, .look 0]

theorem campaign_daily :
    campaign daily = ⟨Campaign.next (24 * hour), Campaign.Allowed daily⟩ := by
  rw [campaign, lookBack_daily]

/-- Where runs come one window after the other and no market is resolved again after a run that
found it, every market that is resolved between the first and the last run is found once. -/
theorem each_market_found_once {schedule : Schedule} {start : Campaign} (hfresh : start.Fresh)
    {events : List CampaignEvent}
    (h : (campaign schedule).Runs (Campaign.Regular (lookBack schedule)) start events) :
    ((campaign schedule).run start events).OnceEach :=
  (h.preserves (P := Campaign.Steady (lookBack schedule))
    (fun _ _ hsteady _ hregular => hsteady.next hregular) hfresh.steady).onceEach

theorem each_market_found_once_sample :
    ((campaign daily).run sampleCampaign ([.start, .look 0] ++ sampleDay)).OnceEach :=
  each_market_found_once sampleCampaign_fresh (by
    rw [lookBack_daily, campaign_daily]
    decide +kernel)

/-- A resolution that is retried the day after moves the market into the window of another run. -/
theorem market_found_twice :
    (campaign daily).Runs (fun _ _ => True) sampleCampaign
        ([.start, .look 0] ++ sampleDay ++ sampleDay) ∧
      ¬((campaign daily).run sampleCampaign
        ([.start, .look 0] ++ sampleDay ++ sampleDay)).OnceEach := by
  rw [campaign_daily]
  decide +kernel

end PrismBackend.Rewards
