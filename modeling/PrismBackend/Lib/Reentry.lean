import PrismBackend.Lib.Interact

/-!
# Code that hands over control

The code of a transaction reads and writes a storage and makes requests. While a
request is answered control is elsewhere, and other transactions may be entered
before it comes back, to any depth. Where such a transaction either asks nothing,
or takes a guard, writes first and only asks after that, a run with callbacks is
a run of the same transactions one after the other.
-/

namespace PrismBackend.Lib

variable {σ τ ρ β ε : Type} {A : ρ → Type}

/-- Code that leaves its storage with each request, and goes on from the storage that it gets
back. -/
abbrev Code (σ : Type) (A : ρ → Type) (α : Type) : Type :=
  Program (σ × ρ) (fun r => σ × A r.2) α

/-- What happens in a run: a transaction is entered, with the answers that its code gets and the
value that it returns, or control is handed over with a storage. -/
inductive Event (σ τ : Type) (A : ρ → Type) (β : Type)
  | call (nested : Bool) (tx : τ) (asked : List ((r : ρ) × A r)) (value : β)
  | handed (s : σ)

namespace Event

def inside : Event σ τ A β → Event σ τ A β
  | .call _ tx asked value => .call true tx asked value
  | .handed s => .handed s

/-- A transaction with its answers and its value. -/
def performed : Event σ τ A β → Option (τ × List ((r : ρ) × A r) × β)
  | .call _ tx asked value => some (tx, asked, value)
  | .handed _ => none

end Event

/-- The transactions of a run, in the order in which they were entered. -/
def performed (events : List (Event σ τ A β)) : List (τ × List ((r : ρ) × A r) × β) :=
  events.filterMap Event.performed

@[simp] theorem performed_nil : performed ([] : List (Event σ τ A β)) = [] := rfl

@[simp] theorem performed_append (events later : List (Event σ τ A β)) :
    performed (events ++ later) = performed events ++ performed later :=
  List.filterMap_append

@[simp] theorem performed_cons_call (nested : Bool) (tx : τ) (asked : List ((r : ρ) × A r))
    (value : β) (events : List (Event σ τ A β)) :
    performed (.call nested tx asked value :: events) = (tx, asked, value) :: performed events :=
  rfl

@[simp] theorem performed_map_inside (events : List (Event σ τ A β)) :
    performed (events.map Event.inside) = performed events := by
  have hinside : (Event.performed ∘ Event.inside : Event σ τ A β → _) = Event.performed := by
    funext event
    cases event <;> rfl
  rw [performed, List.filterMap_map, hinside]
  rfl

/-- A place in two lists is in the first or in the second. -/
theorem split_append {α : Type} {first second earlier later : List α} {a : α}
    (h : first ++ second = earlier ++ a :: later) :
    (∃ later', first = earlier ++ a :: later') ∨
      ∃ earlier', earlier = first ++ earlier' ∧ second = earlier' ++ a :: later := by
  rcases List.append_eq_append_iff.mp h with ⟨middle, hearlier, hsecond⟩ | ⟨middle, hfirst, hlater⟩
  · exact Or.inr ⟨middle, hearlier, hsecond⟩
  · cases middle with
    | nil => exact Or.inr ⟨[], by simpa using hfirst.symm, by simpa using hlater.symm⟩
    | cons b middle =>
        rw [List.cons_append, List.cons.injEq] at hlater
        obtain ⟨rfl, _⟩ := hlater
        exact Or.inl ⟨middle, hfirst⟩

/-! ## Runs -/

section Runs

variable (code : τ → σ → Code σ A (Except ε (σ × β))) (isView : ρ → Bool)

/-- A program runs to its end. A view leaves the storage alone; at any other request, transactions
may be entered before the answer. -/
inductive Runs {α : Type} (enters : σ → List (Event σ τ A β) → σ → Prop) :
    Code σ A α → List ((r : ρ) × A r) → List (Event σ τ A β) → α → Prop
  | ret (value : α) : Runs enters (.ret value) [] [] value
  | view {s : σ} {r : ρ} {rest : σ × A r → Code σ A α} {asked : List ((r : ρ) × A r)}
      {events : List (Event σ τ A β)} {value : α} (a : A r) (hview : isView r = true)
      (h : Runs enters (rest (s, a)) asked events value) :
      Runs enters (.call (s, r) rest) (⟨r, a⟩ :: asked) events value
  | away {s s' : σ} {r : ρ} {rest : σ × A r → Code σ A α} {asked : List ((r : ρ) × A r)}
      {inner events : List (Event σ τ A β)} {value : α} (a : A r) (hview : isView r = false)
      (hinner : enters s inner s') (h : Runs enters (rest (s', a)) asked events value) :
      Runs enters (.call (s, r) rest) (⟨r, a⟩ :: asked)
        (.handed s :: inner.map Event.inside ++ events) value

/-- Transactions are entered one after the other; those that fail leave nothing behind. -/
inductive Entries (enters : σ → List (Event σ τ A β) → σ → Prop) :
    σ → List (Event σ τ A β) → σ → Prop
  | nil (s : σ) : Entries enters s [] s
  | cons {s s₁ s' : σ} {tx : τ} {asked : List ((r : ρ) × A r)} {value : β}
      {inner events : List (Event σ τ A β)}
      (hrun : Runs isView enters (code tx s) asked inner (.ok (s₁, value)))
      (h : Entries enters s₁ events s') :
      Entries enters s (.call false tx asked value :: inner ++ events) s'

/-- Transactions with callbacks, nested to less than some depth. -/
def Entered : Nat → σ → List (Event σ τ A β) → σ → Prop
  | 0 => fun s events s' => events = [] ∧ s' = s
  | depth + 1 => Entries code isView (Entered depth)

/-- A program runs to its end, and nothing is entered meanwhile. -/
inductive Quiet {α : Type} : Code σ A α → List ((r : ρ) × A r) → α → Prop
  | ret (value : α) : Quiet (.ret value) [] value
  | call {s : σ} {r : ρ} {rest : σ × A r → Code σ A α} {asked : List ((r : ρ) × A r)} {value : α}
      (a : A r) (h : Quiet (rest (s, a)) asked value) :
      Quiet (.call (s, r) rest) (⟨r, a⟩ :: asked) value

/-- The transactions run one after the other, without callbacks. -/
inductive Sequential : σ → List (τ × List ((r : ρ) × A r) × β) → σ → Prop
  | nil (s : σ) : Sequential s [] s
  | cons {s s₁ s' : σ} {tx : τ} {asked : List ((r : ρ) × A r)} {value : β}
      {log : List (τ × List ((r : ρ) × A r) × β)}
      (hrun : Quiet (code tx s) asked (.ok (s₁, value))) (h : Sequential s₁ log s') :
      Sequential s ((tx, asked, value) :: log) s'

variable {code isView}

theorem Sequential.append {s s₁ s' : σ} {log later : List (τ × List ((r : ρ) × A r) × β)}
    (h : Sequential code s log s₁) (hlater : Sequential code s₁ later s') :
    Sequential code s (log ++ later) s' := by
  induction h with
  | nil s => exact hlater
  | cons hrun h ih => exact .cons hrun (ih hlater)

theorem quiet_ret_iff {α : Type} {v value : α} {asked : List ((r : ρ) × A r)} :
    Quiet (.ret v : Code σ A α) asked value ↔ asked = [] ∧ value = v := by
  constructor
  · intro h
    cases h
    exact ⟨rfl, rfl⟩
  · rintro ⟨rfl, rfl⟩
    exact .ret _

theorem runs_ret_iff {α : Type} {enters : σ → List (Event σ τ A β) → σ → Prop} {v value : α}
    {asked : List ((r : ρ) × A r)} {events : List (Event σ τ A β)} :
    Runs isView enters (.ret v : Code σ A α) asked events value ↔
      asked = [] ∧ events = [] ∧ value = v := by
  constructor
  · intro h
    cases h
    exact ⟨rfl, rfl, rfl⟩
  · rintro ⟨rfl, rfl, rfl⟩
    exact .ret _

end Runs

/-! ## Surroundings that answer at once -/

section Served

variable {δ α : Type} {serve : δ → (r : σ × ρ) → (σ × A r.2) × δ}

theorem quiet_of_handle (hserve : ∀ d r, (serve d r).1.1 = r.1) (program : Code σ A α) (d : δ) :
    ∃ asked, Quiet program asked (program.handle serve d).1 := by
  induction program generalizing d with
  | ret value => exact ⟨[], .ret value⟩
  | call r rest ih =>
      obtain ⟨s, r⟩ := r
      obtain ⟨asked, hquiet⟩ := ih (serve d (s, r)).1 (serve d (s, r)).2
      refine ⟨⟨r, (serve d (s, r)).1.2⟩ :: asked, .call _ ?_⟩
      have hsame : (s, (serve d (s, r)).1.2) = (serve d (s, r)).1 :=
        Prod.ext (hserve d (s, r)).symm rfl
      rw [hsame]
      exact hquiet

/-- Surroundings that change the storage by entries, and leave it alone at a view. -/
theorem runs_of_handle {isView : ρ → Bool} {enters : σ → List (Event σ τ A β) → σ → Prop}
    (hview : ∀ d r, isView r.2 = true → (serve d r).1.1 = r.1)
    (haway : ∀ d r, isView r.2 = false → ∃ inner, enters r.1 inner (serve d r).1.1)
    (program : Code σ A α) (d : δ) :
    ∃ asked events, Runs isView enters program asked events (program.handle serve d).1 := by
  induction program generalizing d with
  | ret value => exact ⟨[], [], .ret value⟩
  | call r rest ih =>
      obtain ⟨s, r⟩ := r
      obtain ⟨asked, events, hruns⟩ := ih (serve d (s, r)).1 (serve d (s, r)).2
      cases hisView : isView r with
      | true =>
          refine ⟨⟨r, (serve d (s, r)).1.2⟩ :: asked, events, .view _ hisView ?_⟩
          have hsame : (s, (serve d (s, r)).1.2) = (serve d (s, r)).1 :=
            Prod.ext (hview d (s, r) hisView).symm rfl
          rw [hsame]
          exact hruns
      | false =>
          obtain ⟨inner, hinner⟩ := haway d (s, r) hisView
          exact ⟨⟨r, (serve d (s, r)).1.2⟩ :: asked, _, .away _ hisView hinner hruns⟩

end Served

/-! ## Sequences -/

namespace Program

variable {Req : Type} {Ans : Req → Type} {γ δ α : Type}

theorem andThen_assoc (program : Program Req Ans (Except ε γ))
    (k : γ → Program Req Ans (Except ε δ)) (k' : δ → Program Req Ans (Except ε α)) :
    andThen (andThen program k) k' = andThen program fun value => andThen (k value) k' := by
  induction program with
  | ret result =>
      cases result with
      | error err => rfl
      | ok value => rfl
  | call r rest ih => exact congrArg (Program.call r) (funext fun answer => ih answer)

theorem attempt_andThen (result : Except ε γ) (k : γ → Program Req Ans (Except ε δ))
    (k' : δ → Program Req Ans (Except ε α)) :
    andThen (attempt result k) k' = attempt result fun value => andThen (k value) k' := by
  cases result with
  | error err => rfl
  | ok value => rfl

end Program

/-! ## The rest of a guarded transaction -/

/-- What is left of a transaction that has written all that it writes, from the storage that it goes
on with: it asks, tests what no callback touches, fails, or releases the guard and returns its
value. -/
inductive Asks (frame : σ → σ → Prop) (release : σ → σ) (value : β) :
    (σ → Code σ A (Except ε (σ × β))) → Prop
  | done : Asks frame release value fun s => .ret (.ok (release s, value))
  | fail (err : ε) : Asks frame release value fun _ => .ret (.error err)
  | ask (r : ρ) {k : A r → σ → Code σ A (Except ε (σ × β))}
      (hk : ∀ a, Asks frame release value (k a)) :
      Asks frame release value fun s => .call (s, r) fun answer => k answer.2 answer.1
  | test {P : σ → Prop} [DecidablePred P] {k k' : σ → Code σ A (Except ε (σ × β))}
      (hP : ∀ s s', frame s s' → (P s ↔ P s')) (hk : Asks frame release value k)
      (hk' : Asks frame release value k') :
      Asks frame release value fun s => if P s then k s else k' s

/-- A guard of some transactions: whatever else is entered asks nothing, and leaves alone what a
guarded one still tests; nothing guarded is entered twice. -/
structure Guard (code : τ → σ → Code σ A (Except ε (σ × β))) where
  guarded : τ → Bool
  idle : σ → Prop
  taken : σ → Prop
  release : σ → σ
  frame : σ → σ → Prop
  frame_refl : ∀ s, frame s s
  frame_trans : ∀ s s₁ s', frame s s₁ → frame s₁ s' → frame s s'
  idle_release : ∀ s, taken s → idle (release s)
  /-- an unguarded transaction is one step, which does not look at the guard -/
  step : ∀ tx s, guarded tx = false → ∃ result, code tx s = .ret result
  step_idle : ∀ tx s s' value, guarded tx = false → idle s →
    code tx s = .ret (.ok (s', value)) → idle s'
  step_taken : ∀ tx s s' value, guarded tx = false → taken s →
    code tx s = .ret (.ok (s', value)) → taken s' ∧ frame s s' ∧
      code tx (release s) = .ret (.ok (release s', value))
  blocked : ∀ tx s, guarded tx = true → taken s → ∃ err, code tx s = .ret (.error err)
  entered : ∀ tx s, guarded tx = true → idle s → (∃ err, code tx s = .ret (.error err)) ∨
    ∃ k s₁ value, code tx s = k s₁ ∧ taken s₁ ∧ Asks frame release value k

namespace Asks

variable {frame : σ → σ → Prop} {release : σ → σ} {value : β}
  {k : σ → Code σ A (Except ε (σ × β))}

/-- Without callbacks, the rest releases the guard, and gets on from any storage that differs only
in what it does not test. -/
theorem quiet (hk : Asks frame release value k) {s s₁ s' : σ} {asked : List ((r : ρ) × A r)}
    {value' : β} (hframe : frame s s₁) (h : Quiet (k s₁) asked (.ok (s', value'))) :
    s' = release s₁ ∧ value' = value ∧ Quiet (k s) asked (.ok (release s, value)) := by
  induction hk generalizing asked with
  | done =>
      obtain ⟨rfl, hresult⟩ := quiet_ret_iff.mp h
      cases hresult
      exact ⟨rfl, rfl, .ret _⟩
  | fail err =>
      obtain ⟨_, hresult⟩ := quiet_ret_iff.mp h
      cases hresult
  | ask r hk ih =>
      cases h with
      | call a h =>
          obtain ⟨hs', hvalue, hquiet⟩ := ih a h
          exact ⟨hs', hvalue, .call a hquiet⟩
  | test hP hk hk' ih ih' =>
      dsimp only at h ⊢
      rw [if_congr (hP s s₁ hframe) rfl rfl]
      split at h
      · next htest =>
          rw [if_pos htest]
          exact ih h
      · next htest =>
          rw [if_neg htest]
          exact ih' h

end Asks

namespace Guard

variable {code : τ → σ → Code σ A (Except ε (σ × β))} {isView : ρ → Bool} (G : Guard code)

/-- What is entered while the guard is taken: it would run the same without the guard, and control
is handed over nowhere but in states that such a run comes through. -/
structure Within (s : σ) (events : List (Event σ τ A β)) (s' : σ) : Prop where
  taken : G.taken s'
  frame : G.frame s s'
  sequential : Sequential code (G.release s) (performed events) (G.release s')
  unguarded : ∀ nested tx asked value, .call nested tx asked value ∈ events → G.guarded tx = false
  seen : ∀ earlier s₁ later, events = earlier ++ .handed s₁ :: later → G.taken s₁ ∧
    Sequential code (G.release s) (performed earlier) (G.release s₁)

variable {G}

theorem Within.nil {s : σ} (hs : G.taken s) : G.Within s [] s := by
  refine ⟨hs, G.frame_refl s, .nil _, ?_, ?_⟩
  · intro _ _ _ _ hmem
    exact absurd hmem List.not_mem_nil
  · intro _ _ _ hevents
    exact absurd hevents.symm (by simp)

theorem Within.handed {s : σ} (hs : G.taken s) : G.Within s [.handed s] s := by
  refine ⟨hs, G.frame_refl s, .nil _, ?_, ?_⟩
  · intro _ _ _ _ hmem
    exact absurd (List.mem_singleton.mp hmem) (by simp)
  · intro earlier s₁ later hevents
    cases earlier with
    | nil =>
        cases hevents
        exact ⟨hs, .nil _⟩
    | cons event earlier => exact absurd hevents (by simp)

theorem Within.append {s s₁ s' : σ} {events later : List (Event σ τ A β)}
    (h : G.Within s events s₁) (hlater : G.Within s₁ later s') :
    G.Within s (events ++ later) s' := by
  refine ⟨hlater.taken, G.frame_trans _ _ _ h.frame hlater.frame, ?_, ?_, ?_⟩
  · rw [performed_append]
    exact h.sequential.append hlater.sequential
  · intro nested tx asked value hmem
    rcases List.mem_append.mp hmem with hmem | hmem
    · exact h.unguarded nested tx asked value hmem
    · exact hlater.unguarded nested tx asked value hmem
  · intro earlier seen rest hevents
    rcases split_append hevents with ⟨rest', hsplit⟩ | ⟨earlier', rfl, hsplit⟩
    · exact h.seen earlier seen rest' hsplit
    · obtain ⟨htaken, hsequential⟩ := hlater.seen earlier' seen rest hsplit
      rw [performed_append]
      exact ⟨htaken, h.sequential.append hsequential⟩

theorem Within.inside {s s' : σ} {events : List (Event σ τ A β)} (h : G.Within s events s') :
    G.Within s (events.map Event.inside) s' := by
  refine ⟨h.taken, h.frame, ?_, ?_, ?_⟩
  · rw [performed_map_inside]
    exact h.sequential
  · intro nested tx asked value hmem
    obtain ⟨event, hevent, heq⟩ := List.mem_map.mp hmem
    cases event with
    | call nested' tx' asked' value' =>
        cases heq
        exact h.unguarded nested' tx asked value hevent
    | handed s₁ => exact absurd heq (by simp [Event.inside])
  · intro earlier seen later hevents
    obtain ⟨earlier', rest, rfl, rfl, hrest⟩ := List.map_eq_append_iff.mp hevents
    obtain ⟨event, later', rfl, hevent, _⟩ := List.map_eq_cons_iff.mp hrest
    rw [performed_map_inside]
    cases event with
    | call nested tx asked value => exact absurd hevent (by simp [Event.inside])
    | handed s₁ =>
        cases hevent
        exact h.seen earlier' seen later' rfl

theorem run_step {enters : σ → List (Event σ τ A β) → σ → Prop} {s s₁ : σ} {tx : τ}
    {asked : List ((r : ρ) × A r)} {value : β} {inner : List (Event σ τ A β)}
    (hguarded : G.guarded tx = false)
    (h : Runs isView enters (code tx s) asked inner (.ok (s₁, value))) :
    asked = [] ∧ inner = [] ∧ code tx s = .ret (.ok (s₁, value)) := by
  obtain ⟨result, hcode⟩ := G.step tx s hguarded
  rw [hcode] at h
  obtain ⟨rfl, rfl, rfl⟩ := runs_ret_iff.mp h
  exact ⟨rfl, rfl, hcode⟩

theorem within_of_entries {enters : σ → List (Event σ τ A β) → σ → Prop} {s s' : σ}
    {events : List (Event σ τ A β)} (h : Entries code isView enters s events s')
    (hs : G.taken s) : G.Within s events s' := by
  induction h with
  | nil s => exact .nil hs
  | @cons s s₁ s' tx asked value inner events hrun h ih =>
      have hguarded : G.guarded tx = false := by
        cases hguarded : G.guarded tx with
        | false => rfl
        | true =>
            obtain ⟨err, hcode⟩ := G.blocked tx s hguarded hs
            rw [hcode] at hrun
            exact absurd (runs_ret_iff.mp hrun).2.2 (by simp)
      obtain ⟨rfl, rfl, hcode⟩ := run_step hguarded hrun
      obtain ⟨htaken, hframe, hreleased⟩ := G.step_taken tx s s₁ value hguarded hs hcode
      have hhead : G.Within s [.call false tx [] value] s₁ := by
        refine ⟨htaken, hframe, ?_, ?_, ?_⟩
        · refine .cons ?_ (.nil _)
          rw [hreleased]
          exact .ret _
        · intro nested tx' asked' value' hmem
          cases List.mem_singleton.mp hmem
          exact hguarded
        · intro earlier seen later hevents
          cases earlier with
          | nil => exact absurd hevents (by simp)
          | cons event earlier => exact absurd hevents (by simp)
      exact hhead.append (ih htaken)

theorem within_of_entered {depth : Nat} {s s' : σ} {events : List (Event σ τ A β)}
    (h : Entered code isView depth s events s') (hs : G.taken s) : G.Within s events s' := by
  cases depth with
  | zero =>
      obtain ⟨rfl, rfl⟩ := h
      exact .nil hs
  | succ depth => exact within_of_entries h hs

/-- The rest of a guarded transaction, with whatever is entered meanwhile: the transaction itself
could end at once, and the others run after it. -/
theorem within_of_asks {depth : Nat} {value value' : β} {k : σ → Code σ A (Except ε (σ × β))}
    (hk : Asks G.frame G.release value k) {s s' : σ} {asked : List ((r : ρ) × A r)}
    {inner : List (Event σ τ A β)} (hs : G.taken s)
    (h : Runs isView (Entered code isView depth) (k s) asked inner (.ok (s', value'))) :
    ∃ s₁, s' = G.release s₁ ∧ Quiet (k s) asked (.ok (G.release s, value')) ∧
      G.Within s inner s₁ := by
  induction hk generalizing s asked inner with
  | done =>
      obtain ⟨rfl, rfl, hresult⟩ := runs_ret_iff.mp h
      cases hresult
      exact ⟨s, rfl, .ret _, .nil hs⟩
  | fail err =>
      obtain ⟨_, _, hresult⟩ := runs_ret_iff.mp h
      cases hresult
  | @ask r k hk ih =>
      cases h with
      | view a hview h =>
          obtain ⟨s₁, hs', hquiet, hwithin⟩ := ih a hs h
          exact ⟨s₁, hs', .call a hquiet, hwithin⟩
      | @away _ s₂ _ _ asked callbacks events _ a hview hinner h =>
          have hcallbacks := within_of_entered hinner hs
          obtain ⟨s₁, hs', hquiet, hwithin⟩ := ih a hcallbacks.taken h
          -- what the transaction has still to do does not depend on what was entered
          obtain ⟨-, rfl, hquiet'⟩ := (hk a).quiet hcallbacks.frame hquiet
          refine ⟨s₁, hs', .call a hquiet', ?_⟩
          exact ((Within.handed hs).append hcallbacks.inside).append hwithin
  | test hP hk hk' ih ih' =>
      dsimp only at h ⊢
      split at h
      · next htest =>
          rw [if_pos htest]
          exact ih hs h
      · next htest =>
          rw [if_neg htest]
          exact ih' hs h

/-! ## Linearization -/

variable (G) in
/-- A run with callbacks, and the same transactions one after the other. -/
structure Linear (s : σ) (events : List (Event σ τ A β)) (s' : σ) : Prop where
  idle : G.idle s'
  sequential : Sequential code s (performed events) s'
  unguarded : ∀ tx asked value, .call true tx asked value ∈ events → G.guarded tx = false
  seen : ∀ earlier s₁ later, events = earlier ++ .handed s₁ :: later → G.taken s₁ ∧
    Sequential code s (performed earlier) (G.release s₁)

theorem Linear.append {s s₁ s' : σ} {events later : List (Event σ τ A β)}
    (h : G.Linear s events s₁) (hlater : G.Linear s₁ later s') :
    G.Linear s (events ++ later) s' := by
  refine ⟨hlater.idle, ?_, ?_, ?_⟩
  · rw [performed_append]
    exact h.sequential.append hlater.sequential
  · intro tx asked value hmem
    rcases List.mem_append.mp hmem with hmem | hmem
    · exact h.unguarded tx asked value hmem
    · exact hlater.unguarded tx asked value hmem
  · intro earlier seen rest hevents
    rcases split_append hevents with ⟨rest', hsplit⟩ | ⟨earlier', rfl, hsplit⟩
    · exact h.seen earlier seen rest' hsplit
    · obtain ⟨htaken, hsequential⟩ := hlater.seen earlier' seen rest hsplit
      rw [performed_append]
      exact ⟨htaken, h.sequential.append hsequential⟩

/-- One transaction from outside: it is run first, then what was entered under it. -/
theorem linear_of_run {depth : Nat} {s s₁ : σ} {tx : τ} {asked : List ((r : ρ) × A r)} {value : β}
    {inner : List (Event σ τ A β)} (hs : G.idle s)
    (h : Runs isView (Entered code isView depth) (code tx s) asked inner (.ok (s₁, value))) :
    G.Linear s (.call false tx asked value :: inner) s₁ := by
  cases hguarded : G.guarded tx with
  | false =>
      obtain ⟨rfl, rfl, hcode⟩ := run_step hguarded h
      refine ⟨G.step_idle tx s s₁ value hguarded hs hcode, ?_, ?_, ?_⟩
      · refine .cons ?_ (.nil _)
        rw [hcode]
        exact .ret _
      · intro tx' asked' value' hmem
        exact absurd (List.mem_singleton.mp hmem) (by simp)
      · intro earlier seen later hevents
        cases earlier with
        | nil => exact absurd hevents (by simp)
        | cons event earlier => exact absurd hevents (by simp)
  | true =>
      rcases G.entered tx s hguarded hs with ⟨err, hcode⟩ | ⟨k, s₂, _, hcode, htaken, hk⟩
      · rw [hcode] at h
        exact absurd (runs_ret_iff.mp h).2.2 (by simp)
      · rw [hcode] at h
        obtain ⟨s₃, rfl, hquiet, hwithin⟩ := within_of_asks hk htaken h
        rw [← hcode] at hquiet
        refine ⟨G.idle_release _ hwithin.taken, ?_, ?_, ?_⟩
        · rw [performed_cons_call]
          exact .cons hquiet hwithin.sequential
        · intro tx' asked' value' hmem
          rcases List.mem_cons.mp hmem with heq | hmem
          · exact absurd heq (by simp)
          · exact hwithin.unguarded true tx' asked' value' hmem
        · intro earlier seen later hevents
          cases earlier with
          | nil => exact absurd hevents (by simp)
          | cons event earlier =>
              rw [List.cons_append, List.cons.injEq] at hevents
              obtain ⟨rfl, hevents⟩ := hevents
              obtain ⟨htaken', hsequential⟩ := hwithin.seen earlier seen later hevents
              rw [performed_cons_call]
              exact ⟨htaken', .cons hquiet hsequential⟩

/-- A run with callbacks to any depth is linear: no guarded transaction is entered within another,
the state that it leaves is that of the same transactions, with the same answers and values, one
after the other in the order of entry, and wherever control was handed over, the state was that of
the transactions entered so far, with the guard taken. -/
theorem linear_of_entered {depth : Nat} {s s' : σ} {events : List (Event σ τ A β)} (hs : G.idle s)
    (h : Entered code isView depth s events s') : G.Linear s events s' := by
  cases depth with
  | zero =>
      obtain ⟨rfl, rfl⟩ := h
      exact ⟨hs, .nil _, fun _ _ _ hmem => absurd hmem List.not_mem_nil,
        fun _ _ _ hevents => absurd hevents.symm (by simp)⟩
  | succ depth =>
      induction h with
      | nil s =>
          exact ⟨hs, .nil _, fun _ _ _ hmem => absurd hmem List.not_mem_nil,
            fun _ _ _ hevents => absurd hevents.symm (by simp)⟩
      | cons hrun h ih =>
          have hhead := linear_of_run hs hrun
          exact hhead.append (ih hhead.idle)

end Guard

end PrismBackend.Lib
