import Mathlib.Logic.Basic

/-!
# Programs that make requests

A program is a tree of requests to its surroundings, so that a system of several
running programs can serve one request of one of them at a time, or lose a
program between two requests.
-/

namespace PrismBackend.Lib

inductive Program (Req : Type) (Ans : Req → Type) (α : Type)
  | ret (value : α)
  | call (request : Req) (rest : Ans request → Program Req Ans α)

namespace Program

variable {Req : Type} {Ans : Req → Type} {α β : Type}

protected def bind : Program Req Ans α → (α → Program Req Ans β) → Program Req Ans β
  | .ret value, k => k value
  | .call request rest, k => .call request fun answer => (rest answer).bind k

instance : Monad (Program Req Ans) where
  pure := .ret
  bind := Program.bind

/-- The program that makes one request and returns the answer. -/
def request (r : Req) : Program Req Ans (Ans r) := .call r .ret

@[simp] theorem pure_eq (value : α) : (pure value : Program Req Ans α) = .ret value := rfl

@[simp] theorem ret_bind (value : α) (k : α → Program Req Ans β) :
    (Program.ret value >>= k) = k value := rfl

@[simp] theorem request_bind (r : Req) (k : Ans r → Program Req Ans β) :
    (request r >>= k) = .call r k := rfl

@[simp] theorem call_bind (r : Req) (rest : Ans r → Program Req Ans α) (k : α → Program Req Ans β) :
    (Program.call r rest >>= k) = .call r fun answer => rest answer >>= k := rfl

/-- A program is at another one after some requests were answered. -/
inductive Path : Program Req Ans α → List ((r : Req) × Ans r) → Program Req Ans α → Prop
  | nil (program : Program Req Ans α) : Path program [] program
  | cons {r : Req} {rest : Ans r → Program Req Ans α} {answers : List ((r : Req) × Ans r)}
      {target : Program Req Ans α} (answer : Ans r) (h : Path (rest answer) answers target) :
      Path (.call r rest) (⟨r, answer⟩ :: answers) target

theorem Path.concat {program : Program Req Ans α} {answers : List ((r : Req) × Ans r)} {r : Req}
    {rest : Ans r → Program Req Ans α} (h : Path program answers (.call r rest)) (answer : Ans r) :
    Path program (answers ++ [⟨r, answer⟩]) (rest answer) := by
  generalize htarget : Program.call r rest = target at h
  induction h with
  | nil program =>
      subst htarget
      exact .cons answer (.nil _)
  | cons first h ih => exact .cons first (ih htarget)

/-- An answer on a path was given where the program asked. -/
theorem Path.of_mem {program target : Program Req Ans α} {answers : List ((r : Req) × Ans r)}
    (h : Path program answers target) {r : Req} {answer : Ans r} (hmem : ⟨r, answer⟩ ∈ answers) :
    ∃ earlier later rest, answers = earlier ++ ⟨r, answer⟩ :: later ∧
      Path program earlier (.call r rest) := by
  induction h with
  | nil program => exact absurd hmem List.not_mem_nil
  | @cons r' rest answers target answer' h ih =>
      rcases List.mem_cons.mp hmem with heq | hmem
      · cases heq
        exact ⟨[], answers, rest, rfl, .nil _⟩
      · obtain ⟨earlier, later, rest', rfl, hpath⟩ := ih hmem
        exact ⟨⟨r', answer'⟩ :: earlier, later, rest', rfl, .cons answer' hpath⟩

theorem path_ret_iff {value : α} {answers : List ((r : Req) × Ans r)}
    {target : Program Req Ans α} :
    Path (.ret value) answers target ↔ answers = [] ∧ target = .ret value := by
  constructor
  · intro h
    cases h
    exact ⟨rfl, rfl⟩
  · rintro ⟨rfl, rfl⟩
    exact .nil _

theorem path_call_iff {r : Req} {rest : Ans r → Program Req Ans α}
    {answers : List ((r : Req) × Ans r)} {target : Program Req Ans α} :
    Path (.call r rest) answers target ↔ (answers = [] ∧ target = .call r rest) ∨
      ∃ answer later, answers = ⟨r, answer⟩ :: later ∧ Path (rest answer) later target := by
  constructor
  · intro h
    cases h with
    | nil => exact Or.inl ⟨rfl, rfl⟩
    | cons answer h => exact Or.inr ⟨answer, _, rfl, h⟩
  · rintro (⟨rfl, rfl⟩ | ⟨answer, later, rfl, h⟩)
    · exact .nil _
    · exact .cons answer h

theorem not_path_pure {value : α} {answers : List ((r : Req) × Ans r)} {r : Req}
    {rest : Ans r → Program Req Ans α} : ¬Path (pure value) answers (.call r rest) := by
  intro h
  cases h

/-- A path through a sequence ends in its first part, or runs through that and into the second. -/
theorem path_bind {program : Program Req Ans α} {k : α → Program Req Ans β}
    {answers : List ((r : Req) × Ans r)} {target : Program Req Ans β}
    (h : Path (program >>= k) answers target) :
    (∃ first, Path program answers first ∧ target = first >>= k) ∨
      ∃ value earlier later, answers = earlier ++ later ∧ Path program earlier (.ret value) ∧
        Path (k value) later target := by
  induction program generalizing answers with
  | ret value => exact Or.inr ⟨value, [], answers, rfl, .nil _, h⟩
  | call r rest ih =>
      rcases path_call_iff.mp h with ⟨rfl, rfl⟩ | ⟨answer, later, rfl, hlater⟩
      · exact Or.inl ⟨.call r rest, .nil _, rfl⟩
      · rcases ih answer hlater with ⟨first, hfirst, rfl⟩ | ⟨value, earlier, later', rfl, hpath, hk⟩
        · exact Or.inl ⟨first, .cons answer hfirst, rfl⟩
        · exact Or.inr ⟨value, ⟨r, answer⟩ :: earlier, later', rfl, .cons answer hpath, hk⟩

/-- A path to a request through a sequence: the request is of the first part, which goes on in the
sequence, or of the second one. -/
theorem path_bind_call {program : Program Req Ans α} {k : α → Program Req Ans β}
    {answers : List ((r : Req) × Ans r)} {r : Req} {rest : Ans r → Program Req Ans β}
    (h : Path (program >>= k) answers (.call r rest)) :
    (∃ rest', Path program answers (.call r rest') ∧ rest = fun answer => rest' answer >>= k) ∨
      ∃ value earlier later, answers = earlier ++ later ∧ Path program earlier (.ret value) ∧
        Path (k value) later (.call r rest) := by
  rcases path_bind h with ⟨first, hfirst, htarget⟩ | hpast
  · cases first with
    | ret value =>
        refine Or.inr ⟨value, answers, [], (List.append_nil _).symm, hfirst, ?_⟩
        rw [htarget]
        exact .nil _
    | call r' rest' =>
        cases htarget
        exact Or.inl ⟨rest', hfirst, rfl⟩
  · exact Or.inr hpast

/-- A path that ends in a value runs through both parts of a sequence. -/
theorem path_bind_ret {program : Program Req Ans α} {k : α → Program Req Ans β}
    {answers : List ((r : Req) × Ans r)} {out : β} (h : Path (program >>= k) answers (.ret out)) :
    ∃ value earlier later, answers = earlier ++ later ∧ Path program earlier (.ret value) ∧
      Path (k value) later (.ret out) := by
  rcases path_bind h with ⟨first, hfirst, htarget⟩ | hboth
  · cases first with
    | ret value =>
        refine ⟨value, answers, [], (List.append_nil _).symm, hfirst, ?_⟩
        rw [htarget]
        exact .nil _
    | call r rest => exact absurd htarget (by simp)
  · exact hboth

theorem path_request {r : Req} {answers : List ((r : Req) × Ans r)} {answer : Ans r}
    (h : Path (request r) answers (.ret answer)) : answers = [⟨r, answer⟩] := by
  rcases path_call_iff.mp h with ⟨_, htarget⟩ | ⟨answer', later, rfl, hlater⟩
  · exact absurd htarget (by simp)
  · obtain ⟨rfl, htarget⟩ := path_ret_iff.mp hlater
    cases htarget
    rfl

section Embed

variable {Req' : Type} {Ans' : Req' → Type} {f : Req → Req'} {g : (r : Req) → Ans' (f r) → Ans r}

variable (f g) in
/-- The program as a part of another one, whose requests include its own. -/
def embed : Program Req Ans α → Program Req' Ans' α
  | .ret value => .ret value
  | .call r rest => .call (f r) fun answer => embed (rest (g r answer))

end Embed

/-- The program after some requests that one function answers, and these answers. -/
def after (answers : (r : Req) → Ans r) : Nat → Program Req Ans α → Program Req Ans α
  | count + 1, .call r rest => after answers count (rest (answers r))
  | _, program => program

def log (answers : (r : Req) → Ans r) : Nat → Program Req Ans α → List ((r : Req) × Ans r)
  | count + 1, .call r rest => ⟨r, answers r⟩ :: log answers count (rest (answers r))
  | _, _ => []

theorem path_after (answers : (r : Req) → Ans r) (count : Nat) (program : Program Req Ans α) :
    Path program (log answers count program) (after answers count program) := by
  induction count generalizing program with
  | zero => cases program <;> exact .nil _
  | succ count ih =>
      cases program with
      | ret value => exact .nil _
      | call r rest => exact .cons (answers r) (ih _)

theorem mem_log {answers : (r : Req) → Ans r} {count : Nat} {program : Program Req Ans α}
    {r : Req} {answer : Ans r} (h : ⟨r, answer⟩ ∈ log answers count program) :
    answer = answers r := by
  induction count generalizing program with
  | zero => cases program <;> exact absurd h List.not_mem_nil
  | succ count ih =>
      cases program with
      | ret value => exact absurd h List.not_mem_nil
      | call r' rest =>
          rcases List.mem_cons.mp h with heq | hmem
          · cases heq
            rfl
          · exact ih hmem

/-- A program run to its end on a state, which answers each request and changes with it. -/
def runOn {σ : Type} (handle : (r : Req) → σ → Ans r × σ) : Program Req Ans α → σ → α × σ
  | .ret value, s => (value, s)
  | .call r rest, s => runOn handle (rest (handle r s).1) (handle r s).2

section RunOn

variable {σ : Type} {handle : (r : Req) → σ → Ans r × σ} {s : σ}

@[simp] theorem runOn_ret (value : α) :
    runOn handle (.ret value : Program Req Ans α) s = (value, s) := rfl

@[simp] theorem runOn_call (r : Req) (rest : Ans r → Program Req Ans α) :
    runOn handle (.call r rest) s = runOn handle (rest (handle r s).1) (handle r s).2 := rfl

theorem runOn_bind (program : Program Req Ans α) (k : α → Program Req Ans β) :
    runOn handle (program >>= k) s =
      runOn handle (k (runOn handle program s).1) (runOn handle program s).2 := by
  induction program generalizing s with
  | ret value => rfl
  | call r rest ih => exact ih (handle r s).1

end RunOn

def asks : Program Req Ans α → Option Req
  | .ret _ => none
  | .call r _ => some r

theorem exists_call {program : Program Req Ans α} {r : Req} (h : program.asks = some r) :
    ∃ rest, program = .call r rest := by
  cases program with
  | ret value => exact absurd h (by simp [asks])
  | call r' rest =>
      cases Option.some.inj h
      exact ⟨rest, rfl⟩

/-- Every request that the program may make satisfies the predicate. -/
def Makes (P : Req → Prop) : Program Req Ans α → Prop
  | .ret _ => True
  | .call r rest => P r ∧ ∀ answer, (rest answer).Makes P

@[simp] theorem makes_ret {P : Req → Prop} {value : α} :
    (Program.ret value : Program Req Ans α).Makes P := trivial

@[simp] theorem makes_call {P : Req → Prop} {r : Req} {rest : Ans r → Program Req Ans α} :
    (Program.call r rest).Makes P ↔ P r ∧ ∀ answer, (rest answer).Makes P := Iff.rfl

theorem makes_request {P : Req → Prop} {r : Req} (hr : P r) :
    (request r : Program Req Ans (Ans r)).Makes P :=
  ⟨hr, fun _ => trivial⟩

theorem makes_bind {P : Req → Prop} {program : Program Req Ans α} {k : α → Program Req Ans β}
    (h : program.Makes P) (hk : ∀ value, (k value).Makes P) : (program >>= k).Makes P := by
  induction program with
  | ret value => exact hk value
  | call r rest ih => exact ⟨h.1, fun answer => ih answer (h.2 answer)⟩

theorem Makes.imp {P Q : Req → Prop} {program : Program Req Ans α} (h : program.Makes P)
    (himp : ∀ r, P r → Q r) : program.Makes Q := by
  induction program with
  | ret value => trivial
  | call r rest ih => exact ⟨himp r h.1, fun answer => ih answer (h.2 answer)⟩

theorem Path.makes {P : Req → Prop} {program target : Program Req Ans α}
    {answers : List ((r : Req) × Ans r)} (h : Path program answers target)
    (hmakes : program.Makes P) : target.Makes P := by
  induction h with
  | nil program => exact hmakes
  | cons answer h ih => exact ih (hmakes.2 answer)

theorem Path.made {P : Req → Prop} {program target : Program Req Ans α}
    {answers : List ((r : Req) × Ans r)} (h : Path program answers target)
    (hmakes : program.Makes P) : ∀ a ∈ answers, P a.1 := by
  intro a ha
  obtain ⟨_, _, rest, _, hpath⟩ := h.of_mem ha
  exact (hpath.makes hmakes).1

/-- As long as the answers satisfy one predicate, the requests satisfy the other. -/
def MakesUnder (K : (r : Req) → Ans r → Prop) (P : Req → Prop) : Program Req Ans α → Prop
  | .ret _ => True
  | .call r rest => P r ∧ ∀ answer, K r answer → (rest answer).MakesUnder K P

theorem Makes.under {P : Req → Prop} {program : Program Req Ans α} (h : program.Makes P)
    (K : (r : Req) → Ans r → Prop) : program.MakesUnder K P := by
  induction program with
  | ret value => trivial
  | call r rest ih => exact ⟨h.1, fun answer _ => ih answer (h.2 answer)⟩

/-- Every value that the program may return satisfies the predicate. -/
def Returns (Q : α → Prop) : Program Req Ans α → Prop
  | .ret value => Q value
  | .call _ rest => ∀ answer, (rest answer).Returns Q

theorem Path.returns {Q : α → Prop} {program : Program Req Ans α} {value : α}
    {answers : List ((r : Req) × Ans r)} (h : Path program answers (.ret value))
    (hreturns : program.Returns Q) : Q value := by
  generalize htarget : Program.ret value = target at h
  induction h with
  | nil program =>
      subst htarget
      exact hreturns
  | cons answer h ih => exact ih (hreturns answer) htarget

/-! ## Programs that may fail -/

section Failing

variable {ε γ : Type}

def attempt (result : Except ε γ) (k : γ → Program Req Ans (Except ε β)) :
    Program Req Ans (Except ε β) :=
  match result with
  | .error err => .ret (.error err)
  | .ok value => k value

/-- Goes on with what a program returns, unless that is an error. -/
def andThen (program : Program Req Ans (Except ε γ)) (k : γ → Program Req Ans (Except ε β)) :
    Program Req Ans (Except ε β) :=
  program >>= fun result => attempt result k

theorem path_attempt {result : Except ε γ} {k : γ → Program Req Ans (Except ε β)}
    {answers : List ((r : Req) × Ans r)} {r : Req} {rest : Ans r → Program Req Ans (Except ε β)}
    (h : Path (attempt result k) answers (.call r rest)) :
    ∃ value, result = .ok value ∧ Path (k value) answers (.call r rest) := by
  cases result with
  | error err => exact absurd (path_ret_iff.mp h).2 (by simp)
  | ok value => exact ⟨value, rfl, h⟩

theorem path_attempt_ret {result : Except ε γ} {k : γ → Program Req Ans (Except ε β)}
    {answers : List ((r : Req) × Ans r)} {out : β}
    (h : Path (attempt result k) answers (.ret (.ok out))) :
    ∃ value, result = .ok value ∧ Path (k value) answers (.ret (.ok out)) := by
  cases result with
  | error err => exact absurd (path_ret_iff.mp h).2 (by simp)
  | ok value => exact ⟨value, rfl, h⟩

theorem path_andThen_ret {program : Program Req Ans (Except ε γ)}
    {k : γ → Program Req Ans (Except ε β)} {answers : List ((r : Req) × Ans r)} {out : β}
    (h : Path (andThen program k) answers (.ret (.ok out))) :
    ∃ value earlier later, answers = earlier ++ later ∧ Path program earlier (.ret (.ok value)) ∧
      Path (k value) later (.ret (.ok out)) := by
  obtain ⟨result, earlier, later, rfl, hprogram, hk⟩ := path_bind_ret h
  obtain ⟨value, rfl, hvalue⟩ := path_attempt_ret hk
  exact ⟨value, earlier, later, rfl, hprogram, hvalue⟩

theorem Path.andThen {program : Program Req Ans (Except ε γ)}
    {k : γ → Program Req Ans (Except ε β)} {earlier later : List ((r : Req) × Ans r)} {value : γ}
    {target : Program Req Ans (Except ε β)} (h : Path program earlier (.ret (.ok value)))
    (hk : Path (k value) later target) :
    Path (Program.andThen program k) (earlier ++ later) target := by
  generalize hend : Program.ret (Except.ok value) = last at h
  induction h with
  | nil program =>
      subst hend
      exact hk
  | cons answer h ih => exact .cons answer (ih hend)

/-- A path to a request ends in the first program, or runs past it and goes on with its value. -/
theorem path_andThen {program : Program Req Ans (Except ε γ)}
    {k : γ → Program Req Ans (Except ε β)} {answers : List ((r : Req) × Ans r)} {r : Req}
    {rest : Ans r → Program Req Ans (Except ε β)}
    (h : Path (andThen program k) answers (.call r rest)) :
    (∃ rest', Path program answers (.call r rest')) ∨
      ∃ value earlier later, answers = earlier ++ later ∧
        Path program earlier (.ret (.ok value)) ∧ Path (k value) later (.call r rest) := by
  rcases path_bind_call h with ⟨rest', hfirst, _⟩ | ⟨result, earlier, later, rfl, hpath, hk⟩
  · exact Or.inl ⟨rest', hfirst⟩
  · obtain ⟨value, rfl, hvalue⟩ := path_attempt hk
    exact Or.inr ⟨value, earlier, later, rfl, hpath, hvalue⟩

/-- A path to a request that a program does not make runs past it. -/
theorem path_past {program : Program Req Ans (Except ε γ)}
    {k : γ → Program Req Ans (Except ε β)} {answers : List ((r : Req) × Ans r)} {r : Req}
    {rest : Ans r → Program Req Ans (Except ε β)}
    (h : Path (andThen program k) answers (.call r rest)) {P : Req → Prop}
    (hmakes : program.Makes P) (hr : ¬P r) :
    ∃ value earlier later, answers = earlier ++ later ∧ Path program earlier (.ret (.ok value)) ∧
      Path (k value) later (.call r rest) := by
  rcases path_andThen h with ⟨rest', hfirst⟩ | hpast
  · exact absurd (hfirst.makes hmakes).1 hr
  · exact hpast

theorem makes_attempt {P : Req → Prop} {result : Except ε γ}
    {k : γ → Program Req Ans (Except ε β)} (hk : ∀ value, result = .ok value → (k value).Makes P) :
    (attempt result k).Makes P := by
  cases result with
  | error err => trivial
  | ok value => exact hk value rfl

theorem makes_andThen {P : Req → Prop} {program : Program Req Ans (Except ε γ)}
    {k : γ → Program Req Ans (Except ε β)} (h : program.Makes P)
    (hk : ∀ value, (k value).Makes P) : (andThen program k).Makes P :=
  makes_bind h fun _ => makes_attempt fun value _ => hk value

end Failing

/-! ## Surroundings that answer at once -/

section Handle

variable {σ : Type} (serve : σ → (r : Req) → Ans r × σ)

/-- A program is run to its end: every request is answered, and may change the surroundings. -/
def handle : Program Req Ans α → σ → α × σ
  | .ret value, s => (value, s)
  | .call r rest, s => handle (rest (serve s r).1) (serve s r).2

variable {serve} {s s' : σ} {ε γ : Type}

theorem handle_bind (program : Program Req Ans α) (k : α → Program Req Ans β) (s : σ) :
    (program >>= k).handle serve s =
      (k (program.handle serve s).1).handle serve (program.handle serve s).2 := by
  induction program generalizing s with
  | ret value => rfl
  | call r rest ih => exact ih _ _

theorem handle_attempt_ok {result : Except ε γ} {k : γ → Program Req Ans (Except ε β)} {out : β} :
    (attempt result k).handle serve s = (.ok out, s') ↔
      ∃ value, result = .ok value ∧ (k value).handle serve s = (.ok out, s') := by
  cases result with
  | error err => simp [attempt, handle]
  | ok value => simp [attempt]

/-- A sequence succeeds where its first part does, and its second part after that. -/
theorem handle_andThen_ok {program : Program Req Ans (Except ε γ)}
    {k : γ → Program Req Ans (Except ε β)} {out : β} :
    (andThen program k).handle serve s = (.ok out, s') ↔ ∃ value s₁,
      program.handle serve s = (.ok value, s₁) ∧ (k value).handle serve s₁ = (.ok out, s') := by
  rw [andThen, handle_bind, handle_attempt_ok]
  constructor
  · rintro ⟨value, hvalue, hk⟩
    exact ⟨value, _, Prod.ext hvalue rfl, hk⟩
  · rintro ⟨value, s₁, hprogram, hk⟩
    rw [hprogram]
    exact ⟨value, rfl, hk⟩

def named (what : String) (program : Program Req Ans (Except String γ)) :
    Program Req Ans (Except String γ) :=
  program >>= fun result => .ret (result.mapError (what ++ ·))

theorem handle_named_ok {what : String} {program : Program Req Ans (Except String γ)} {out : γ} :
    (named what program).handle serve s = (.ok out, s') ↔
      program.handle serve s = (.ok out, s') := by
  rw [named, handle_bind]
  generalize program.handle serve s = result
  obtain ⟨value, s₁⟩ := result
  cases value with
  | error err =>
    change (Except.error (what ++ err), s₁) = (.ok out, s') ↔ _
    simp
  | ok value => exact Iff.rfl

theorem makes_named {P : Req → Prop} {what : String} {program : Program Req Ans (Except String γ)}
    (h : program.Makes P) : (named what program).Makes P :=
  makes_bind h fun _ => trivial

end Handle

/-- The predicate holds of the program and of whatever it may become. -/
def Always (P : Program Req Ans α → Prop) : Program Req Ans α → Prop
  | .ret value => P (.ret value)
  | .call r rest => P (.call r rest) ∧ ∀ answer, (rest answer).Always P

theorem Path.always {P : Program Req Ans α → Prop} {program target : Program Req Ans α}
    {answers : List ((r : Req) × Ans r)} (h : Path program answers target)
    (halways : program.Always P) : P target := by
  induction h with
  | nil program =>
      cases program with
      | ret value => exact halways
      | call r rest => exact halways.1
  | cons answer h ih => exact ih (halways.2 answer)

end Program

end PrismBackend.Lib
