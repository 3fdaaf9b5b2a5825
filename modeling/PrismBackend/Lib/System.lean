/-!
# Systems that take steps

A system takes labelled steps, and which of them can happen depends on its state.
A run may also be held to a condition on every step, which says how the
surroundings behave.
-/

namespace PrismBackend.Lib

structure System (σ L : Type) where
  next : σ → L → σ
  Allowed : σ → L → Prop

namespace System

variable {σ L : Type} (S : System σ L)

def run (s : σ) (ls : List L) : σ := ls.foldl S.next s

/-- Every label can happen in the state that it meets, and satisfies the condition there. -/
def Runs (condition : σ → L → Prop) : σ → List L → Prop
  | _, [] => True
  | s, l :: ls => S.Allowed s l ∧ condition s l ∧ Runs condition (S.next s l) ls

instance decidableRuns (condition : σ → L → Prop) [∀ s l, Decidable (S.Allowed s l)]
    [∀ s l, Decidable (condition s l)] :
    (s : σ) → (ls : List L) → Decidable (S.Runs condition s ls)
  | _, [] => inferInstanceAs (Decidable True)
  | s, l :: ls =>
    have := decidableRuns condition (S.next s l) ls
    inferInstanceAs (Decidable (S.Allowed s l ∧ condition s l ∧ S.Runs condition (S.next s l) ls))

variable {S}

@[simp] theorem run_nil (s : σ) : S.run s [] = s := rfl

@[simp] theorem run_cons (s : σ) (l : L) (ls : List L) :
    S.run s (l :: ls) = S.run (S.next s l) ls := rfl

theorem run_append (s : σ) (ls ls' : List L) : S.run s (ls ++ ls') = S.run (S.run s ls) ls' :=
  List.foldl_append

theorem run_concat (s : σ) (ls : List L) (l : L) :
    S.run s (ls ++ [l]) = S.next (S.run s ls) l :=
  run_append s ls [l]

theorem runs_append {condition : σ → L → Prop} {s : σ} {ls ls' : List L} :
    S.Runs condition s (ls ++ ls') ↔
      S.Runs condition s ls ∧ S.Runs condition (S.run s ls) ls' := by
  induction ls generalizing s with
  | nil => exact ⟨fun h => ⟨trivial, h⟩, And.right⟩
  | cons l ls ih =>
      rw [List.cons_append]
      constructor
      · intro h
        have hrest := ih.mp h.2.2
        exact ⟨⟨h.1, h.2.1, hrest.1⟩, hrest.2⟩
      · intro h
        exact ⟨h.1.1, h.1.2.1, ih.mpr ⟨h.1.2.2, h.2⟩⟩

/-- The labels of parts that are run in turn, each chosen in the state that it meets. -/
def script (S : System σ L) : List (σ → List L) → σ → List L
  | [], _ => []
  | part :: parts, s => part s ++ S.script parts (S.run s (part s))

theorem runs_script_cons {condition : σ → L → Prop} {s : σ} {part : σ → List L}
    {parts : List (σ → List L)} :
    S.Runs condition s (S.script (part :: parts) s) ↔ S.Runs condition s (part s) ∧
      S.Runs condition (S.run s (part s)) (S.script parts (S.run s (part s))) :=
  runs_append

theorem run_preserves_of_mem {P : σ → Prop} {ls : List L}
    (hstep : ∀ s, ∀ l ∈ ls, P s → P (S.next s l)) {s : σ} (hs : P s) : P (S.run s ls) := by
  induction ls generalizing s with
  | nil => exact hs
  | cons l ls ih =>
      have hhead := hstep s l List.mem_cons_self hs
      exact ih (fun s l' hl' => hstep s l' (List.mem_cons_of_mem _ hl')) hhead

/-- A run under a stronger condition is a run under a weaker one. -/
theorem Runs.imp {condition condition' : σ → L → Prop} {s : σ} {ls : List L}
    (h : S.Runs condition s ls) (himp : ∀ s l, condition s l → condition' s l) :
    S.Runs condition' s ls := by
  induction ls generalizing s with
  | nil => trivial
  | cons l ls ih => exact ⟨h.1, himp s l h.2.1, ih h.2.2⟩

/-- What every allowed step under the condition preserves holds after a run. -/
theorem Runs.preserves {condition : σ → L → Prop} {P : σ → Prop} {s : σ} {ls : List L}
    (h : S.Runs condition s ls)
    (hstep : ∀ s l, P s → S.Allowed s l → condition s l → P (S.next s l)) (hs : P s) :
    P (S.run s ls) := by
  induction ls generalizing s with
  | nil => exact hs
  | cons l ls ih => exact ih h.2.2 (hstep s l hs h.1 h.2.1)

/-- What every allowed step under the condition preserves holds at every step of a run. -/
theorem Runs.at {condition : σ → L → Prop} {P : σ → Prop} {s : σ} {before : List L} {l : L}
    {after : List L} (h : S.Runs condition s (before ++ l :: after))
    (hstep : ∀ s l, P s → S.Allowed s l → condition s l → P (S.next s l)) (hs : P s) :
    P (S.run s before) ∧ S.Allowed (S.run s before) l ∧ condition (S.run s before) l := by
  obtain ⟨hbefore, hallowed, hcondition, _⟩ := runs_append.mp h
  exact ⟨hbefore.preserves hstep hs, hallowed, hcondition⟩

end System

end PrismBackend.Lib
