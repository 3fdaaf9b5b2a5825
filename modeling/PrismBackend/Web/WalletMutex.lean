import Mathlib.Data.Option.Basic
import PrismBackend.Lib.Entries
import PrismBackend.Lib.System

/-!
# Web: the wallet mutex

`withWalletLock` without the Web Locks API: the calls of a tab wait for one
another in a chain of promises, and a hold ends with the wallet's answer, at its
ceiling, by an abort or by a reset. A handle of the module is the call that it
belongs to. Instants and durations are in milliseconds; the clock moves between
two tasks, when no continuation of a promise is left and no timer is due.
-/

namespace PrismBackend.Web

open PrismBackend.Lib

/-! ## Calls -/

def holdCeilingMs : Nat := 310000
def cancelGraceMs : Nat := 10000

inductive WalletError
  | sessionNotFound
  | other (message : String)

def WalletError.message : WalletError → String
  | .sessionNotFound => "Wallet session was lost. Please reconnect your wallet and try again."
  | .other message => message

/-- A call of `withWalletLock`: the call that it is chained to, how far its `run` has come, what
was done to the promise of its caller, and its timers. A timer that is not due has not fired and
was not cleared. -/
structure WalletCall (T : Type) where
  label : String
  ceilingMs : Nat
  prev : Option Nat
  acquired : Bool
  heldSince : Nat
  released : Bool
  finished : Bool
  walletSettled : Bool
  callerSettled : Bool
  settlements : List (Except String T)
  ceilingDue : Option Nat
  /- when `graceTimer` was started -/
  graceTimer : Option Nat
  graceDue : Option Nat

namespace WalletCall

def new {T : Type} (label : String) (ceilingMs : Nat) (prev : Option Nat) : WalletCall T where
  label := label
  ceilingMs := ceilingMs
  prev := prev
  acquired := false
  heldSince := 0
  released := false
  finished := false
  walletSettled := false
  callerSettled := false
  settlements := []
  ceilingDue := none
  graceTimer := none
  graceDue := none

variable {T : Type} (call : WalletCall T)

/-- `settleResolve` and `settleReject`. -/
def settle (result : Except String T) : WalletCall T :=
  if call.callerSettled then call
  else { call with callerSettled := true, settlements := call.settlements ++ [result] }

def markReleased : WalletCall T := { call with released := true }

/-- The start of `run`. -/
def acquire (now : Nat) : WalletCall T :=
  { call with acquired := true, heldSince := now, ceilingDue := some (now + call.ceilingMs) }

/-- The callbacks of the wallet promise. -/
def walletAnswer (result : Except WalletError T) : WalletCall T :=
  ({ call with walletSettled := true }.settle (result.mapError WalletError.message)).markReleased

def reachCeiling : WalletCall T :=
  ({ call with ceilingDue := none }.settle
    (.error "Wallet did not respond in time. Please open your wallet and retry.")).markReleased

def reachGrace : WalletCall T := { call with graceDue := none }.markReleased

/-- `currentAbort` of the call. -/
def abort (now : Nat) (reason : String) (releaseLock : Bool) : WalletCall T :=
  let aborted := call.settle (.error ("Wallet call aborted: " ++ reason))
  if releaseLock then aborted.markReleased
  else if aborted.graceTimer.isNone then
    { aborted with graceTimer := some now, graceDue := some (now + cancelGraceMs) }
  else aborted

/-- The `finally` of `run` clears the timers. -/
def finish : WalletCall T := { call with ceilingDue := none, graceDue := none, finished := true }

/-- The call has the lock. -/
def Holding : Prop := call.acquired = true ∧ call.finished = false

end WalletCall

/-! ## The module -/

structure WalletMutex (T : Type) where
  now : Nat
  calls : List (WalletCall T)
  fallbackChain : Option Nat
  currentAbort : Option Nat
  currentRelease : Option Nat
  currentLabel : Option String
  lockHeldSince : Option Nat

inductive WalletEvent (T : Type)
  | withWalletLock (label : String) (ceilingMs : Option Nat)
  /- `prev.then(run, run)` -/
  | run (call : Nat)
  | walletAnswer (call : Nat) (result : Except WalletError T)
  | ceilingTimer (call : Nat)
  | graceTimer (call : Nat)
  | abortActiveWalletCall (reason : String) (releaseLock : Bool)
  | forceResetWalletLock
  /- `await released` goes on -/
  | finish (call : Nat)
  | tick (ms : Nat)

namespace WalletMutex

variable {T : Type} (s : WalletMutex T)

def modify (id : Nat) (f : WalletCall T → WalletCall T) : WalletMutex T :=
  { s with calls := s.calls.modify id f }

def withHandle (handle : Option Nat) (f : WalletCall T → WalletCall T) : WalletMutex T :=
  match handle with
  | none => s
  | some id => s.modify id f

def next : WalletEvent T → WalletMutex T
  | .withWalletLock label ceilingMs =>
    { s with
      calls := s.calls ++ [WalletCall.new label (ceilingMs.getD holdCeilingMs) s.fallbackChain]
      fallbackChain := some s.calls.length }
  | .run id =>
    match s.calls[id]? with
    | none => s
    | some call =>
      { s.modify id (·.acquire s.now) with
        currentLabel := some call.label
        lockHeldSince := some s.now
        currentRelease := some id
        currentAbort := some id }
  | .walletAnswer id result => s.modify id (·.walletAnswer result)
  | .ceilingTimer id => s.modify id (·.reachCeiling)
  | .graceTimer id => s.modify id (·.reachGrace)
  | .abortActiveWalletCall reason releaseLock =>
    s.withHandle s.currentAbort (·.abort s.now reason releaseLock)
  | .forceResetWalletLock =>
    if s.currentRelease.isNone then s
    else
      (s.withHandle s.currentAbort (·.abort s.now "wallet queue reset" true)).withHandle
        s.currentRelease (·.markReleased)
  | .finish id =>
    { s.modify id (·.finish) with
      currentAbort := none
      currentRelease := none
      currentLabel := none
      lockHeldSince := none }
  | .tick ms => { s with now := s.now + ms }

/-- The promise that the call is chained to has settled, and its `run` has not begun. -/
def MayRun (id : Nat) : Prop := ∃ call, s.calls[id]? = some call ∧ call.acquired = false ∧
  ∀ prev, call.prev = some prev → ∃ before, s.calls[prev]? = some before ∧ before.finished = true

def MayFinish (id : Nat) : Prop := ∃ call, s.calls[id]? = some call ∧ call.Holding ∧
  call.released = true

def Allowed : WalletEvent T → Prop
  | .run id => s.MayRun id
  | .walletAnswer id _ => ∃ call, s.calls[id]? = some call ∧ call.acquired = true ∧
      call.walletSettled = false
  | .ceilingTimer id => ∃ call due, s.calls[id]? = some call ∧ call.ceilingDue = some due ∧
      due ≤ s.now
  | .graceTimer id => ∃ call due, s.calls[id]? = some call ∧ call.graceDue = some due ∧ due ≤ s.now
  | .finish id => s.MayFinish id
  | .tick ms => (∀ id, ¬s.MayRun id ∧ ¬s.MayFinish id) ∧
      ∀ (id : Nat) (call : WalletCall T) (due : Nat), s.calls[id]? = some call →
        call.ceilingDue = some due ∨ call.graceDue = some due → s.now + ms ≤ due
  | _ => True

def new (T : Type) (now : Nat) : WalletMutex T := ⟨now, [], none, none, none, none, none⟩

end WalletMutex

def walletMutex (T : Type) : System (WalletMutex T) (WalletEvent T) where
  next := WalletMutex.next
  Allowed := WalletMutex.Allowed

/-! ## What holds of one call -/

/-- While a call has the lock and has not released it, its timers are set; while it has the lock,
none of them is overdue; and its caller's promise is settled at most once. -/
structure WalletCall.Sound {T : Type} (now : Nat) (call : WalletCall T) : Prop where
  released_of_finished : call.finished = true → call.released = true
  acquired_of_released : call.released = true → call.acquired = true
  fresh : call.acquired = false → call.graceTimer = none
  armed : call.acquired = true → call.released = false →
    call.ceilingDue = some (call.heldSince + call.ceilingMs) ∧
      ∀ t, call.graceTimer = some t → call.graceDue = some (t + cancelGraceMs)
  bounded : call.Holding → now ≤ call.heldSince + call.ceilingMs ∧
    ∀ t, call.graceTimer = some t → t ≤ now ∧ now ≤ t + cancelGraceMs
  idle : call.ceilingDue.isSome = true ∨ call.graceDue.isSome = true → call.Holding
  once : call.settlements.length ≤ 1
  unsettled : call.callerSettled = false → call.settlements = []

structure WalletCall.SameCourse {T : Type} (call call' : WalletCall T) : Prop where
  label : call'.label = call.label
  prev : call'.prev = call.prev
  acquired : call'.acquired = call.acquired
  finished : call'.finished = call.finished
  heldSince : call'.heldSince = call.heldSince

namespace WalletCall

variable {T : Type} {call : WalletCall T} {now : Nat}

theorem Sound.acquired_of_finished (h : call.Sound now) (hfinished : call.finished = true) :
    call.acquired = true :=
  h.acquired_of_released (h.released_of_finished hfinished)

theorem Sound.unfinished_of_waiting (h : call.Sound now) (hwaiting : call.acquired = false) :
    call.finished = false := by
  apply Bool.eq_false_iff.mpr
  intro hfinished
  exact absurd (hwaiting.symm.trans (h.acquired_of_finished hfinished)) (by simp)

theorem SameCourse.holding {call' : WalletCall T} (h : call.SameCourse call') :
    call'.Holding ↔ call.Holding := by
  unfold Holding
  rw [h.acquired, h.finished]

theorem settle_course (result : Except String T) : call.SameCourse (call.settle result) := by
  unfold settle
  split <;> exact ⟨rfl, rfl, rfl, rfl, rfl⟩

theorem settle_sound (h : call.Sound now) (result : Except String T) :
    (call.settle result).Sound now := by
  unfold settle
  split
  · exact h
  · next hopen =>
    have hnone := h.unsettled (Bool.eq_false_iff.mpr hopen)
    refine ⟨h.released_of_finished, h.acquired_of_released, h.fresh, h.armed, h.bounded, h.idle,
      ?_, ?_⟩
    · rw [hnone]
      exact Nat.le_refl 1
    · exact fun hsettled => absurd hsettled (by simp)

theorem markReleased_course : call.SameCourse call.markReleased := ⟨rfl, rfl, rfl, rfl, rfl⟩

theorem markReleased_sound (h : call.Sound now) (hacquired : call.acquired = true) :
    call.markReleased.Sound now :=
  ⟨fun _ => rfl, fun _ => hacquired, h.fresh, fun _ hreleased => absurd hreleased (by
    simp [markReleased]), h.bounded, h.idle, h.once, h.unsettled⟩

theorem SameCourse.trans {call' call'' : WalletCall T} (h : call.SameCourse call')
    (h' : call'.SameCourse call'') : call.SameCourse call'' :=
  ⟨h'.label.trans h.label, h'.prev.trans h.prev, h'.acquired.trans h.acquired,
    h'.finished.trans h.finished, h'.heldSince.trans h.heldSince⟩

theorem walletAnswer_course (result : Except WalletError T) :
    call.SameCourse (call.walletAnswer result) := by
  have hanswered : call.SameCourse { call with walletSettled := true } := ⟨rfl, rfl, rfl, rfl, rfl⟩
  exact (hanswered.trans (settle_course _)).trans markReleased_course

theorem walletAnswer_sound (h : call.Sound now) (hacquired : call.acquired = true)
    (result : Except WalletError T) : (call.walletAnswer result).Sound now := by
  have hanswered : WalletCall.Sound now { call with walletSettled := true } :=
    ⟨h.released_of_finished, h.acquired_of_released, h.fresh, h.armed, h.bounded, h.idle, h.once,
      h.unsettled⟩
  apply markReleased_sound (settle_sound hanswered _)
  rw [(settle_course _).acquired]
  exact hacquired

theorem fire_sound (h : call.Sound now) (hholding : call.Holding) {ceilingDue graceDue : Option Nat}
    : ({ call with ceilingDue, graceDue, released := true } : WalletCall T).Sound now :=
  ⟨fun _ => rfl, fun _ => hholding.1, h.fresh, fun _ hreleased => absurd hreleased (by simp),
    h.bounded, fun _ => hholding, h.once, h.unsettled⟩

theorem reachCeiling_eq : call.reachCeiling =
    { call.settle (.error "Wallet did not respond in time. Please open your wallet and retry.") with
      ceilingDue := none, released := true } := by
  by_cases hsettled : call.callerSettled = true <;>
    simp [reachCeiling, settle, markReleased, hsettled]

theorem reachCeiling_course : call.SameCourse call.reachCeiling := by
  rw [reachCeiling_eq]
  exact (settle_course _).trans ⟨rfl, rfl, rfl, rfl, rfl⟩

theorem reachCeiling_sound (h : call.Sound now) (hholding : call.Holding) :
    call.reachCeiling.Sound now := by
  rw [reachCeiling_eq]
  exact fire_sound (settle_sound h _) ((settle_course _).holding.mpr hholding)

theorem reachGrace_course : call.SameCourse call.reachGrace := ⟨rfl, rfl, rfl, rfl, rfl⟩

theorem reachGrace_sound (h : call.Sound now) (hholding : call.Holding) :
    call.reachGrace.Sound now :=
  fire_sound h hholding

theorem abort_course (reason : String) (releaseLock : Bool) :
    call.SameCourse (call.abort now reason releaseLock) := by
  have hsettled : call.SameCourse (call.settle (.error ("Wallet call aborted: " ++ reason))) :=
    settle_course _
  unfold abort
  dsimp only
  split
  · exact hsettled.trans markReleased_course
  · split
    · exact hsettled.trans ⟨rfl, rfl, rfl, rfl, rfl⟩
    · exact hsettled

/-- An abort that keeps the lock starts the grace timer, unless it runs already. -/
theorem abort_sound (h : call.Sound now) (hholding : call.Holding) (reason : String)
    (releaseLock : Bool) : (call.abort now reason releaseLock).Sound now := by
  have hcourse : call.SameCourse (call.settle (.error ("Wallet call aborted: " ++ reason))) :=
    settle_course _
  have hsettled := settle_sound h (.error ("Wallet call aborted: " ++ reason))
  have hstill := hcourse.holding.mpr hholding
  unfold abort
  dsimp only
  split
  · exact markReleased_sound hsettled hstill.1
  · split
    · refine ⟨hsettled.released_of_finished, hsettled.acquired_of_released, ?_, ?_, ?_,
        fun _ => hstill, hsettled.once, hsettled.unsettled⟩
      · intro hwaiting
        exact absurd (hstill.1.symm.trans hwaiting) (by simp)
      · intro hacquired hreleased
        refine ⟨(hsettled.armed hacquired hreleased).1, ?_⟩
        intro t ht
        rw [Option.some.inj ht]
      · intro _
        refine ⟨(hsettled.bounded hstill).1, ?_⟩
        intro t ht
        have hnow := Option.some.inj ht
        exact ⟨by omega, by omega⟩
    · exact hsettled

theorem acquire_sound (h : call.Sound now) (hwaiting : call.acquired = false) :
    (call.acquire now).Sound now := by
  have hnone : ∀ t, call.graceTimer ≠ some t := by simp [h.fresh hwaiting]
  exact ⟨h.released_of_finished, fun _ => rfl, fun _ => h.fresh hwaiting,
    fun _ _ => ⟨rfl, fun t ht => absurd ht (hnone t)⟩,
    fun _ => ⟨Nat.le_add_right _ _, fun t ht => absurd ht (hnone t)⟩,
    fun _ => ⟨rfl, h.unfinished_of_waiting hwaiting⟩, h.once, h.unsettled⟩

theorem finish_sound (h : call.Sound now) (hreleased : call.released = true) :
    call.finish.Sound now :=
  ⟨fun _ => hreleased, h.acquired_of_released, h.fresh,
    fun _ hheld => absurd hreleased (by simp [show call.released = false from hheld]),
    fun hholding => absurd hholding.2 (by simp [finish]),
    fun hdue => absurd hdue (by simp [finish]),
    h.once, h.unsettled⟩

theorem new_sound (label : String) (ceilingMs : Nat) (prev : Option Nat) :
    (@new T label ceilingMs prev).Sound now where
  released_of_finished h := absurd h (by simp [new])
  acquired_of_released h := absurd h (by simp [new])
  fresh _ := rfl
  armed h := absurd h (by simp [new])
  bounded h := absurd h.1 (by simp [new])
  idle h := absurd h (by simp [new])
  once := Nat.zero_le _
  unsettled _ := rfl

/-- The clock moves while no timer of the call is due, and not past a hold that was released. -/
theorem Sound.tick (h : call.Sound now) {ms : Nat} (hkept : call.Holding → call.released = false)
    (hdue : ∀ due, call.ceilingDue = some due ∨ call.graceDue = some due → now + ms ≤ due) :
    call.Sound (now + ms) where
  released_of_finished := h.released_of_finished
  acquired_of_released := h.acquired_of_released
  fresh := h.fresh
  armed := h.armed
  bounded hholding := by
    have harmed := h.armed hholding.1 (hkept hholding)
    refine ⟨hdue _ (.inl harmed.1), ?_⟩
    intro t ht
    have hstarted := ((h.bounded hholding).2 t ht).1
    exact ⟨by omega, hdue _ (.inr (harmed.2 t ht))⟩
  idle := h.idle
  once := h.once
  unsettled := h.unsettled

end WalletCall

/-! ## What holds of the module -/

namespace WalletMutex

variable {T : Type} {s : WalletMutex T}

def before : Nat → Option Nat
  | 0 => none
  | id + 1 => some id

structure HandlesOf (s : WalletMutex T) (id : Nat) (call : WalletCall T) : Prop where
  currentAbort : s.currentAbort = some id
  currentRelease : s.currentRelease = some id
  currentLabel : s.currentLabel = some call.label
  lockHeldSince : s.lockHeldSince = some call.heldSince

structure NoHandles (s : WalletMutex T) : Prop where
  currentAbort : s.currentAbort = none
  currentRelease : s.currentRelease = none
  currentLabel : s.currentLabel = none
  lockHeldSince : s.lockHeldSince = none

structure Sound (s : WalletMutex T) : Prop where
  calls (id : Nat) (call : WalletCall T) : s.calls[id]? = some call → call.Sound s.now
  chained (id : Nat) (call : WalletCall T) : s.calls[id]? = some call → call.prev = before id
  chain : s.fallbackChain = before s.calls.length
  earlier (i j : Nat) (ahead call : WalletCall T) : i < j → s.calls[i]? = some ahead →
    s.calls[j]? = some call → call.acquired = true → ahead.finished = true
  handles (id : Nat) (call : WalletCall T) : s.calls[id]? = some call → call.Holding →
    s.HandlesOf id call
  free : (∀ (id : Nat) (call : WalletCall T), s.calls[id]? = some call → ¬call.Holding) →
    s.NoHandles

theorem getElem?_modify_iff {id j : Nat} {f : WalletCall T → WalletCall T} {call' : WalletCall T} :
    (s.modify id f).calls[j]? = some call' ↔
      ∃ call, s.calls[j]? = some call ∧ call' = if id = j then f call else call := by
  unfold modify
  rw [List.getElem?_modify]
  cases s.calls[j]? <;> simp [eq_comm]

theorem Sound.holder_unique (h : s.Sound) {i j : Nat} {ahead call : WalletCall T}
    (hi : s.calls[i]? = some ahead) (hj : s.calls[j]? = some call) (hahead : ahead.Holding)
    (hcall : call.Holding) : i = j := by
  by_contra hne
  cases Nat.lt_or_gt_of_ne hne with
  | inl hlt => exact absurd (h.earlier i j ahead call hlt hi hj hcall.1) (by simp [hahead.2])
  | inr hgt => exact absurd (h.earlier j i call ahead hgt hj hi hahead.1) (by simp [hcall.2])

theorem Sound.handle_holds (h : s.Sound) {id : Nat}
    (hhandle : s.currentAbort = some id ∨ s.currentRelease = some id) :
    ∃ call, s.calls[id]? = some call ∧ call.Holding := by
  by_contra hnone
  have hheld : ∃ (j : Nat) (call : WalletCall T), s.calls[j]? = some call ∧ call.Holding := by
    by_contra hfree
    have hempty := h.free fun j call hj hholding => hfree ⟨j, call, hj, hholding⟩
    simp [hempty.currentAbort, hempty.currentRelease] at hhandle
  obtain ⟨j, call, hj, hholding⟩ := hheld
  have hof := h.handles j call hj hholding
  rw [hof.currentAbort, hof.currentRelease, or_self, Option.some.injEq] at hhandle
  subst hhandle
  exact hnone ⟨call, hj, hholding⟩

/-- A change of one call that keeps its link to the call before it. -/
theorem Sound.advance (h : s.Sound) {s' : WalletMutex T} {id : Nat}
    {f : WalletCall T → WalletCall T} (hcalls : s'.calls = (s.modify id f).calls)
    (hnow : s'.now = s.now) (hchain : s'.fallbackChain = s.fallbackChain)
    (hf : ∀ call, s.calls[id]? = some call → (f call).Sound s.now ∧ (f call).prev = call.prev ∧
      (call.finished = true → (f call).finished = true))
    (hearlier : ∀ call, s.calls[id]? = some call → (f call).acquired = true →
      ∀ (i : Nat) (ahead : WalletCall T), i < id → s.calls[i]? = some ahead → ahead.finished = true)
    (hhandles : ∀ (j : Nat) (call : WalletCall T), s'.calls[j]? = some call → call.Holding →
      s'.HandlesOf j call)
    (hfree : (∀ (j : Nat) (call : WalletCall T), s'.calls[j]? = some call → ¬call.Holding) →
      s'.NoHandles) : s'.Sound := by
  refine ⟨?_, ?_, ?_, ?_, hhandles, hfree⟩
  · intro j call' hj
    rw [hcalls] at hj
    obtain ⟨call, hcall, hcall'⟩ := getElem?_modify_iff.mp hj
    rw [hnow]
    split at hcall'
    · next hid =>
      rw [hcall']
      exact (hf call (hid ▸ hcall)).1
    · rw [hcall']
      exact h.calls j call hcall
  · intro j call' hj
    rw [hcalls] at hj
    obtain ⟨call, hcall, hcall'⟩ := getElem?_modify_iff.mp hj
    rw [← h.chained j call hcall]
    split at hcall'
    · next hid =>
      rw [hcall']
      exact (hf call (hid ▸ hcall)).2.1
    · rw [hcall']
  · rw [hchain, hcalls, show (s.modify id f).calls.length = s.calls.length from
      List.length_modify ..]
    exact h.chain
  · intro i j ahead' call' hlt hi hj hacquired
    rw [hcalls] at hi hj
    obtain ⟨ahead, hahead, hahead'⟩ := getElem?_modify_iff.mp hi
    obtain ⟨call, hcall, hcall'⟩ := getElem?_modify_iff.mp hj
    have hfinished : ahead.finished = true := by
      split at hcall'
      · next hid =>
        subst hid
        rw [hcall'] at hacquired
        exact hearlier call hcall hacquired i ahead hlt hahead
      · rw [hcall'] at hacquired
        exact h.earlier i j ahead call hlt hahead hcall hacquired
    split at hahead'
    · next hid =>
      rw [hahead']
      exact (hf ahead (hid ▸ hahead)).2.2 hfinished
    · rw [hahead']
      exact hfinished

/-- A change of one call that leaves its place in the chain as it is. -/
theorem Sound.modify (h : s.Sound) {id : Nat} {f : WalletCall T → WalletCall T}
    (hf : ∀ call, s.calls[id]? = some call → call.SameCourse (f call) ∧ (f call).Sound s.now) :
    (s.modify id f).Sound := by
  have hcourse : ∀ (j : Nat) (call' : WalletCall T), (s.modify id f).calls[j]? = some call' →
      ∃ call, s.calls[j]? = some call ∧ call.SameCourse call' := by
    intro j call' hj
    obtain ⟨call, hcall, hcall'⟩ := getElem?_modify_iff.mp hj
    refine ⟨call, hcall, ?_⟩
    split at hcall'
    · next hid =>
      rw [hcall']
      exact (hf call (hid ▸ hcall)).1
    · rw [hcall']
      exact ⟨rfl, rfl, rfl, rfl, rfl⟩
  apply @advance T s h _ id f rfl rfl rfl
  · intro call hcall
    have hsame := (hf call hcall).1
    exact ⟨(hf call hcall).2, hsame.prev, hsame.finished.trans⟩
  · intro call hcall hacquired i ahead hlt hi
    rw [(hf call hcall).1.acquired] at hacquired
    exact h.earlier i id ahead call hlt hi hcall hacquired
  · intro j call' hj hholding
    obtain ⟨call, hcall, hsame⟩ := hcourse j call' hj
    have hof := h.handles j call hcall (hsame.holding.mp hholding)
    refine ⟨hof.currentAbort, hof.currentRelease, ?_, ?_⟩
    · rw [hsame.label]
      exact hof.currentLabel
    · rw [hsame.heldSince]
      exact hof.lockHeldSince
  · intro hfree
    have hnone := h.free fun j call hj hholding => by
      have hj' := (@getElem?_modify_iff T s id j f _).mpr ⟨call, hj, rfl⟩
      obtain ⟨old, hold, hsame⟩ := hcourse j _ hj'
      rw [hj, Option.some.injEq] at hold
      subst hold
      exact hfree j _ hj' (hsame.holding.mpr hholding)
    exact ⟨hnone.currentAbort, hnone.currentRelease, hnone.currentLabel, hnone.lockHeldSince⟩

theorem Sound.modify_of_eq (h : s.Sound) {id : Nat} {call : WalletCall T}
    {f : WalletCall T → WalletCall T} (hcall : s.calls[id]? = some call)
    (hcourse : call.SameCourse (f call)) (hsound : (f call).Sound s.now) :
    (s.modify id f).Sound := by
  apply h.modify
  intro call' hcall'
  rw [hcall, Option.some.injEq] at hcall'
  rw [← hcall']
  exact ⟨hcourse, hsound⟩

theorem Sound.new (now : Nat) : (WalletMutex.new T now).Sound where
  calls id call h := absurd h (by simp [WalletMutex.new])
  chained id call h := absurd h (by simp [WalletMutex.new])
  chain := rfl
  earlier i j ahead call _ h := absurd h (by simp [WalletMutex.new])
  handles id call h := absurd h (by simp [WalletMutex.new])
  free _ := ⟨rfl, rfl, rfl, rfl⟩

/-- An abort and a reset reach the call that has the lock. -/
theorem Sound.withHandle (h : s.Sound) {handle : Option Nat}
    (hhandle : handle = s.currentAbort ∨ handle = s.currentRelease)
    {f : WalletCall T → WalletCall T}
    (hf : ∀ call : WalletCall T, call.Sound s.now → call.Holding →
      call.SameCourse (f call) ∧ (f call).Sound s.now) :
    (s.withHandle handle f).Sound := by
  cases handle with
  | none => exact h
  | some id =>
    obtain ⟨call, hcall, hholding⟩ := h.handle_holds (hhandle.imp Eq.symm Eq.symm)
    obtain ⟨hcourse, hsound⟩ := hf call (h.calls id call hcall) hholding
    exact h.modify_of_eq hcall hcourse hsound

theorem withHandle_handles (handle : Option Nat) (f : WalletCall T → WalletCall T) :
    (s.withHandle handle f).currentAbort = s.currentAbort ∧
      (s.withHandle handle f).currentRelease = s.currentRelease := by
  cases handle <;> exact ⟨rfl, rfl⟩

theorem Sound.abortHandle (h : s.Sound) (reason : String) (releaseLock : Bool) :
    (s.withHandle s.currentAbort (·.abort s.now reason releaseLock)).Sound := by
  apply h.withHandle (.inl rfl)
  intro call hsound hholding
  exact ⟨WalletCall.abort_course reason releaseLock,
    WalletCall.abort_sound hsound hholding reason releaseLock⟩

theorem Sound.request (h : s.Sound) (label : String) (ceilingMs : Option Nat) :
    (s.next (.withWalletLock label ceilingMs)).Sound := by
  have hwaiting : (@WalletCall.new T label (ceilingMs.getD holdCeilingMs)
      s.fallbackChain).acquired = false := rfl
  refine ⟨?_, ?_, ?_, ?_, ?_, ?_⟩
  · intro id call hcall
    cases getElem?_concat_iff.mp hcall with
    | inl hold => exact h.calls id call hold
    | inr hnew =>
      rw [← hnew.2]
      exact WalletCall.new_sound ..
  · intro id call hcall
    cases getElem?_concat_iff.mp hcall with
    | inl hold => exact h.chained id call hold
    | inr hnew =>
      rw [← hnew.2, hnew.1]
      exact h.chain
  · simp [next, before]
  · intro i j ahead call hlt hi hj hacquired
    cases getElem?_concat_iff.mp hj with
    | inl hold =>
      cases getElem?_concat_iff.mp hi with
      | inl hahead => exact h.earlier i j ahead call hlt hahead hold hacquired
      | inr hnew =>
        have hlength := (List.getElem?_eq_some_iff.mp hold).1
        omega
    | inr hnew =>
      rw [← hnew.2, hwaiting] at hacquired
      exact absurd hacquired (by simp)
  · intro id call hcall hholding
    cases getElem?_concat_iff.mp hcall with
    | inl hold =>
      have hof := h.handles id call hold hholding
      exact ⟨hof.currentAbort, hof.currentRelease, hof.currentLabel, hof.lockHeldSince⟩
    | inr hnew =>
      rw [← hnew.2] at hholding
      exact absurd hholding.1 (by simp [hwaiting])
  · intro hfree
    have hnone := h.free fun id call hcall =>
      hfree id call (getElem?_concat_iff.mpr (.inl hcall))
    exact ⟨hnone.currentAbort, hnone.currentRelease, hnone.currentLabel, hnone.lockHeldSince⟩

theorem Sound.earlier_of_mayRun (h : s.Sound) {id : Nat} (hrun : s.MayRun id) {i : Nat}
    {ahead : WalletCall T} (hlt : i < id) (hi : s.calls[i]? = some ahead) :
    ahead.finished = true := by
  obtain ⟨call, hcall, hwaiting, hprev⟩ := hrun
  cases id with
  | zero => omega
  | succ n =>
    obtain ⟨last, hlast, hfinished⟩ := hprev n (h.chained _ call hcall)
    by_cases heq : i = n
    · subst heq
      rw [hi, Option.some.injEq] at hlast
      rw [hlast]
      exact hfinished
    · exact h.earlier i n ahead last (by omega) hi hlast
        ((h.calls n last hlast).acquired_of_finished hfinished)

theorem Sound.free_of_mayRun (h : s.Sound) {id : Nat} (hrun : s.MayRun id) {j : Nat}
    {call : WalletCall T} (hj : s.calls[j]? = some call) : ¬call.Holding := by
  intro hholding
  obtain hlt | heq | hgt := Nat.lt_trichotomy j id
  · exact absurd (h.earlier_of_mayRun hrun hlt hj) (by simp [hholding.2])
  · obtain ⟨call', hcall', hwaiting, _⟩ := hrun
    rw [← heq, hj, Option.some.injEq] at hcall'
    rw [← hcall', hholding.1] at hwaiting
    exact absurd hwaiting (by simp)
  · obtain ⟨call', hcall', hwaiting, _⟩ := hrun
    have hfinished := h.earlier id j call' call hgt hcall' hj hholding.1
    have hacquired := (h.calls id call' hcall').acquired_of_finished hfinished
    exact absurd (hwaiting.symm.trans hacquired) (by simp)

theorem next_run {id : Nat} {call : WalletCall T} (hcall : s.calls[id]? = some call) :
    s.next (.run id) = { s.modify id (·.acquire s.now) with
      currentLabel := some call.label
      lockHeldSince := some s.now
      currentRelease := some id
      currentAbort := some id } := by
  simp [next, hcall]

/-- The call that runs is the only one that has the lock, and the handles become its own. -/
theorem Sound.run (h : s.Sound) {id : Nat} (hrun : s.MayRun id) : (s.next (.run id)).Sound := by
  have hwaiting := hrun
  obtain ⟨call, hcall, hwaiting, _⟩ := hwaiting
  rw [next_run hcall]
  apply @advance T s h _ id (·.acquire s.now)
  · rfl
  · rfl
  · rfl
  · intro call' hcall'
    rw [hcall, Option.some.injEq] at hcall'
    subst hcall'
    exact ⟨WalletCall.acquire_sound (h.calls id call hcall) hwaiting, rfl, fun h => h⟩
  · intro _ _ _ i ahead hlt hi
    exact h.earlier_of_mayRun hrun hlt hi
  · intro j call' hj hholding
    obtain ⟨old, hold, hcall'⟩ := getElem?_modify_iff.mp hj
    split at hcall'
    · next hid =>
      subst hid
      rw [hcall, Option.some.injEq] at hold
      rw [hcall', ← hold]
      exact ⟨rfl, rfl, rfl, rfl⟩
    · rw [hcall'] at hholding
      exact absurd hholding (h.free_of_mayRun hrun hold)
  · intro hfree
    have hnow := (@getElem?_modify_iff T s id id (·.acquire s.now) _).mpr ⟨call, hcall, rfl⟩
    rw [if_pos rfl] at hnow
    have hfinished := (h.calls id call hcall).unfinished_of_waiting hwaiting
    exact absurd ⟨rfl, hfinished⟩ (hfree id _ hnow)

/-- The call that finishes had the lock, so that the handles it clears are its own. -/
theorem Sound.finish (h : s.Sound) {id : Nat} (hfinish : s.MayFinish id) :
    (s.next (.finish id)).Sound := by
  obtain ⟨call, hcall, hholding, hreleased⟩ := hfinish
  have hdone : ∀ (j : Nat) (call' : WalletCall T), (s.next (.finish id)).calls[j]? = some call' →
      ¬call'.Holding := by
    intro j call' hj hheld
    obtain ⟨old, hold, hcall'⟩ := getElem?_modify_iff.mp hj
    split at hcall'
    · rw [hcall'] at hheld
      exact absurd hheld.2 (by simp [WalletCall.finish])
    · next hne =>
      rw [hcall'] at hheld
      exact hne (h.holder_unique hcall hold hholding hheld)
  apply @advance T s h _ id (·.finish)
  · rfl
  · rfl
  · rfl
  · intro call' hcall'
    rw [hcall, Option.some.injEq] at hcall'
    subst hcall'
    exact ⟨WalletCall.finish_sound (h.calls id call hcall) hreleased, rfl, fun _ => rfl⟩
  · intro call' hcall' hacquired i ahead hlt hi
    exact h.earlier i id ahead call' hlt hi hcall' hacquired
  · intro j call' hj hheld
    exact absurd hheld (hdone j call' hj)
  · intro _
    exact ⟨rfl, rfl, rfl, rfl⟩

theorem Sound.tick (h : s.Sound) {ms : Nat} (htick : s.Allowed (.tick ms)) :
    (s.next (.tick ms)).Sound where
  calls id call hcall := by
    apply (h.calls id call hcall).tick
    · intro hholding
      apply Bool.eq_false_iff.mpr
      intro hreleased
      exact (htick.1 id).2 ⟨call, hcall, hholding, hreleased⟩
    · intro due hdue
      exact htick.2 id call due hcall hdue
  chained := h.chained
  chain := h.chain
  earlier := h.earlier
  handles id call hcall hholding := by
    have hof := h.handles id call hcall hholding
    exact ⟨hof.currentAbort, hof.currentRelease, hof.currentLabel, hof.lockHeldSince⟩
  free hfree := by
    have hnone := h.free hfree
    exact ⟨hnone.currentAbort, hnone.currentRelease, hnone.currentLabel, hnone.lockHeldSince⟩

/-- A timer that is set belongs to the call that has the lock. -/
theorem Sound.timer_holding (h : s.Sound) {id : Nat} {call : WalletCall T} {due : Nat}
    (hcall : s.calls[id]? = some call)
    (hdue : call.ceilingDue = some due ∨ call.graceDue = some due) : call.Holding := by
  apply (h.calls id call hcall).idle
  cases hdue with
  | inl hceiling => exact .inl (by rw [hceiling]; rfl)
  | inr hgrace => exact .inr (by rw [hgrace]; rfl)

theorem Sound.next (h : s.Sound) (event : WalletEvent T) (hallowed : s.Allowed event) :
    (s.next event).Sound := by
  cases event with
  | withWalletLock label ceilingMs => exact h.request label ceilingMs
  | run id => exact h.run hallowed
  | walletAnswer id result =>
    obtain ⟨call, hcall, hacquired, _⟩ := hallowed
    exact h.modify_of_eq hcall (WalletCall.walletAnswer_course result)
      (WalletCall.walletAnswer_sound (h.calls id call hcall) hacquired result)
  | ceilingTimer id =>
    obtain ⟨call, due, hcall, hdue, _⟩ := hallowed
    exact h.modify_of_eq hcall WalletCall.reachCeiling_course
      (WalletCall.reachCeiling_sound (h.calls id call hcall) (h.timer_holding hcall (.inl hdue)))
  | graceTimer id =>
    obtain ⟨call, due, hcall, hdue, _⟩ := hallowed
    exact h.modify_of_eq hcall WalletCall.reachGrace_course
      (WalletCall.reachGrace_sound (h.calls id call hcall) (h.timer_holding hcall (.inr hdue)))
  | abortActiveWalletCall reason releaseLock => exact h.abortHandle reason releaseLock
  | forceResetWalletLock =>
    unfold WalletMutex.next
    dsimp only
    split
    · exact h
    · have hsame := withHandle_handles (s := s) s.currentAbort
        (·.abort s.now "wallet queue reset" true)
      apply (h.abortHandle _ _).withHandle (.inr hsame.2.symm)
      intro call hsound hholding
      exact ⟨WalletCall.markReleased_course, WalletCall.markReleased_sound hsound hholding.1⟩
  | finish id => exact h.finish hallowed
  | tick ms => exact h.tick hallowed

theorem run_sound {start : Nat} {events : List (WalletEvent T)}
    (hruns : (walletMutex T).Runs (fun _ _ => True) (WalletMutex.new T start) events) :
    ((walletMutex T).run (WalletMutex.new T start) events).Sound :=
  hruns.preserves (fun _ event h hallowed _ => h.next event hallowed) (Sound.new start)

end WalletMutex

/-! ## What callers see -/

namespace WalletEvent

variable {T : Type}

def OfOther (id : Nat) : WalletEvent T → Prop
  | .run other | .walletAnswer other _ | .ceilingTimer other | .graceTimer other | .finish other =>
    other ≠ id
  | _ => False

def ByHandle : WalletEvent T → Prop
  | .abortActiveWalletCall _ _ | .forceResetWalletLock => True
  | _ => False

end WalletEvent

namespace WalletMutex

variable {T : Type} {s : WalletMutex T}

theorem getElem?_modify_of_ne {id j : Nat} {f : WalletCall T → WalletCall T} (hne : id ≠ j) :
    (s.modify id f).calls[j]? = s.calls[j]? :=
  List.getElem?_modify_ne f s.calls hne

/-- What an event of another call does leaves the holder and its handles alone. -/
theorem Sound.late (h : s.Sound) {id : Nat} {call : WalletCall T} (hcall : s.calls[id]? = some call)
    (hholding : call.Holding) {event : WalletEvent T} (hallowed : s.Allowed event)
    (hother : event.OfOther id) :
    (s.next event).calls[id]? = some call ∧ (s.next event).HandlesOf id call := by
  have hof := h.handles id call hcall hholding
  have hquiet : ∀ (other : Nat) (f : WalletCall T → WalletCall T), other ≠ id →
      (s.modify other f).calls[id]? = some call ∧ (s.modify other f).HandlesOf id call :=
    fun other f hne => ⟨(getElem?_modify_of_ne hne).trans hcall,
      ⟨hof.currentAbort, hof.currentRelease, hof.currentLabel, hof.lockHeldSince⟩⟩
  cases event with
  | run other => exact absurd hholding (h.free_of_mayRun hallowed hcall)
  | walletAnswer other result => exact hquiet other _ hother
  | ceilingTimer other => exact hquiet other _ hother
  | graceTimer other => exact hquiet other _ hother
  | finish other =>
    obtain ⟨call', hcall', hholding', _⟩ := hallowed
    exact absurd (h.holder_unique hcall' hcall hholding' hholding) hother
  | withWalletLock label ceilingMs => exact hother.elim
  | abortActiveWalletCall reason releaseLock => exact hother.elim
  | forceResetWalletLock => exact hother.elim
  | tick ms => exact hother.elim

theorem Sound.getElem?_withHandle (h : s.Sound) {handle : Option Nat}
    (hhandle : handle = s.currentAbort ∨ handle = s.currentRelease) {id : Nat}
    {call : WalletCall T} (hcall : s.calls[id]? = some call) (hidle : ¬call.Holding)
    (f : WalletCall T → WalletCall T) : (s.withHandle handle f).calls[id]? = some call := by
  cases handle with
  | none => exact hcall
  | some holder =>
    obtain ⟨call', hcall', hholding⟩ := h.handle_holds (hhandle.imp Eq.symm Eq.symm)
    apply (getElem?_modify_of_ne _).trans hcall
    intro heq
    rw [heq, hcall, Option.some.injEq] at hcall'
    rw [hcall'] at hidle
    exact hidle hholding

theorem Sound.byHandle (h : s.Sound) {id : Nat} {call : WalletCall T}
    (hcall : s.calls[id]? = some call) (hidle : ¬call.Holding) {event : WalletEvent T}
    (hevent : event.ByHandle) : (s.next event).calls[id]? = some call := by
  cases event with
  | abortActiveWalletCall reason releaseLock =>
    exact h.getElem?_withHandle (.inl rfl) hcall hidle _
  | forceResetWalletLock =>
    unfold WalletMutex.next
    dsimp only
    split
    · exact hcall
    · have hsame := withHandle_handles (s := s) s.currentAbort
        (·.abort s.now "wallet queue reset" true)
      apply (h.abortHandle _ _).getElem?_withHandle (.inr hsame.2.symm) _ hidle
      exact h.getElem?_withHandle (.inl rfl) hcall hidle _
  | withWalletLock label ceilingMs => exact hevent.elim
  | run other => exact hevent.elim
  | walletAnswer other result => exact hevent.elim
  | ceilingTimer other => exact hevent.elim
  | graceTimer other => exact hevent.elim
  | finish other => exact hevent.elim
  | tick ms => exact hevent.elim

/-- When the clock moves, a call that waits is behind a holder that has not released the lock. -/
theorem Sound.waits (h : s.Sound) {ms : Nat} (htick : s.Allowed (.tick ms)) {id : Nat}
    {waiter : WalletCall T} (hwaiter : s.calls[id]? = some waiter)
    (hwaiting : waiter.acquired = false) : ∃ (holder : Nat) (call : WalletCall T), holder < id ∧
      s.calls[holder]? = some call ∧ call.Holding ∧ call.released = false := by
  induction id generalizing waiter with
  | zero =>
    have hprev := h.chained 0 waiter hwaiter
    exact absurd ⟨waiter, hwaiter, hwaiting, by simp [hprev, before]⟩ (htick.1 0).1
  | succ n ih =>
    have hlength := (List.getElem?_eq_some_iff.mp hwaiter).1
    have hahead : s.calls[n]? = some (s.calls[n]) := List.getElem?_eq_getElem (by omega)
    by_cases hfinished : s.calls[n].finished = true
    · have hrun : s.MayRun (n + 1) := by
        refine ⟨waiter, hwaiter, hwaiting, ?_⟩
        intro prev hprev
        rw [h.chained _ waiter hwaiter] at hprev
        rw [← Option.some.inj hprev]
        exact ⟨_, hahead, hfinished⟩
      exact absurd hrun (htick.1 (n + 1)).1
    · have hopen := Bool.eq_false_iff.mpr hfinished
      cases hacquired : s.calls[n].acquired with
      | true =>
        refine ⟨n, _, Nat.lt_succ_self n, hahead, ⟨hacquired, hopen⟩, ?_⟩
        apply Bool.eq_false_iff.mpr
        intro hreleased
        exact (htick.1 n).2 ⟨_, hahead, ⟨hacquired, hopen⟩, hreleased⟩
      | false =>
        obtain ⟨holder, call, hlt, hholder⟩ := ih hahead hacquired
        exact ⟨holder, call, by omega, hholder⟩

/-- When a holder has released the lock, the next call gets it. -/
theorem Sound.admits (h : s.Sound) {id : Nat} {call waiter : WalletCall T}
    (hcall : s.calls[id]? = some call) (hholding : call.Holding) (hreleased : call.released = true)
    (hwaiter : s.calls[id + 1]? = some waiter) :
    s.Allowed (.finish id) ∧ (s.next (.finish id)).Allowed (.run (id + 1)) ∧
      ∃ call', ((s.next (.finish id)).next (.run (id + 1))).calls[id + 1]? = some call' ∧
        call'.Holding := by
  have hfinish : s.MayFinish id := ⟨call, hcall, hholding, hreleased⟩
  have hwaiting : waiter.acquired = false := by
    apply Bool.eq_false_iff.mpr
    intro hacquired
    have hfinished :=
      h.earlier id (id + 1) call waiter (Nat.lt_succ_self id) hcall hwaiter hacquired
    exact absurd (hholding.2.symm.trans hfinished) (by simp)
  have hdone : (s.next (.finish id)).calls[id]? = some call.finish := by
    apply getElem?_modify_iff.mpr
    exact ⟨call, hcall, (if_pos rfl).symm⟩
  have hstill : (s.next (.finish id)).calls[id + 1]? = some waiter :=
    (getElem?_modify_of_ne (Nat.ne_of_lt (Nat.lt_succ_self id))).trans hwaiter
  have hrun : (s.next (.finish id)).MayRun (id + 1) := by
    refine ⟨waiter, hstill, hwaiting, ?_⟩
    intro prev hprev
    rw [h.chained _ waiter hwaiter] at hprev
    rw [← Option.some.inj hprev]
    exact ⟨_, hdone, rfl⟩
  refine ⟨hfinish, hrun, waiter.acquire s.now, ?_, rfl,
    (h.calls _ waiter hwaiter).unfinished_of_waiting hwaiting⟩
  rw [next_run hstill]
  apply getElem?_modify_iff.mpr
  exact ⟨waiter, hstill, (if_pos rfl).symm⟩

/-- One holder at a time, admitted in the order of the requests. -/
structure Orderly (s : WalletMutex T) : Prop where
  oneHolder (i j : Nat) (ahead call : WalletCall T) : s.calls[i]? = some ahead →
    s.calls[j]? = some call → ahead.Holding → call.Holding → i = j
  inOrder (i j : Nat) (ahead call : WalletCall T) : i < j → s.calls[i]? = some ahead →
    s.calls[j]? = some call → call.acquired = true → ahead.finished = true
  ownHandles (id : Nat) (call : WalletCall T) : s.calls[id]? = some call → call.Holding →
    s.HandlesOf id call
  noHandles : (∀ (id : Nat) (call : WalletCall T), s.calls[id]? = some call → ¬call.Holding) →
    s.NoHandles
  late (id : Nat) (call : WalletCall T) (event : WalletEvent T) : s.calls[id]? = some call →
    call.Holding → s.Allowed event → event.OfOther id →
      (s.next event).calls[id]? = some call ∧ (s.next event).HandlesOf id call
  byHandle (id : Nat) (call : WalletCall T) (event : WalletEvent T) : s.calls[id]? = some call →
    ¬call.Holding → event.ByHandle → (s.next event).calls[id]? = some call
  settledOnce (id : Nat) (call : WalletCall T) : s.calls[id]? = some call →
    call.settlements.length ≤ 1
  ceiling (id : Nat) (call : WalletCall T) : s.calls[id]? = some call → call.Holding →
    s.now ≤ call.heldSince + call.ceilingMs
  /- until the lock is released, the timer that releases it at the ceiling is set -/
  armed (id : Nat) (call : WalletCall T) : s.calls[id]? = some call → call.Holding →
    call.released = false → call.ceilingDue = some (call.heldSince + call.ceilingMs)
  waits (ms id : Nat) (waiter : WalletCall T) : s.Allowed (.tick ms) → s.calls[id]? = some waiter →
    waiter.acquired = false → ∃ (holder : Nat) (call : WalletCall T), holder < id ∧
      s.calls[holder]? = some call ∧ call.Holding ∧ call.released = false
  admits (id : Nat) (call waiter : WalletCall T) : s.calls[id]? = some call → call.Holding →
    call.released = true → s.calls[id + 1]? = some waiter →
      s.Allowed (.finish id) ∧ (s.next (.finish id)).Allowed (.run (id + 1)) ∧
        ∃ call', ((s.next (.finish id)).next (.run (id + 1))).calls[id + 1]? = some call' ∧
          call'.Holding

theorem Sound.orderly (h : s.Sound) : s.Orderly where
  oneHolder _ _ _ _ := h.holder_unique
  inOrder := h.earlier
  ownHandles := h.handles
  noHandles := h.free
  late _ _ _ hcall hholding := h.late hcall hholding
  byHandle _ _ _ hcall hidle := h.byHandle hcall hidle
  settledOnce id call hcall := (h.calls id call hcall).once
  ceiling id call hcall hholding := ((h.calls id call hcall).bounded hholding).1
  armed id call hcall hholding hkept := ((h.calls id call hcall).armed hholding.1 hkept).1
  waits _ _ _ htick := h.waits htick
  admits _ _ _ := h.admits

end WalletMutex

end PrismBackend.Web
