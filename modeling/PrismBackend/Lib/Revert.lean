import Mathlib.Algebra.Group.Nat.Defs
import Mathlib.Logic.Basic

/-!
# Computations that may revert

Guards and checked unsigned arithmetic in `Except ε`, with the equations that
turn "this computation returned" into the guards it passed.
-/

namespace PrismBackend.Lib

variable {ε α β : Type}

def revertIf (c : Prop) [Decidable c] (e : ε) : Except ε Unit :=
  if c then .error e else .ok ()

/-- Addition of unsigned words below `2 ^ width`, reverting with `e` on overflow. -/
def checkedAdd (width : Nat) (e : ε) (x y : Nat) : Except ε Nat :=
  if x + y < 2 ^ width then .ok (x + y) else .error e

def checkedMul (width : Nat) (e : ε) (x y : Nat) : Except ε Nat :=
  if x * y < 2 ^ width then .ok (x * y) else .error e

def checkedSub (e : ε) (x y : Nat) : Except ε Nat :=
  if y ≤ x then .ok (x - y) else .error e

@[simp] theorem bind_ok_iff (x : Except ε α) (k : α → Except ε β) (r : β) :
    x >>= k = .ok r ↔ ∃ v, x = .ok v ∧ k v = .ok r := by
  rcases x with err | v <;> simp [bind, Except.bind]

@[simp] theorem ok_bind (v : α) (k : α → Except ε β) : Except.ok v >>= k = k v := rfl

@[simp] theorem pure_ok_iff (v r : α) : (pure v : Except ε α) = .ok r ↔ v = r := by
  rw [show (pure v : Except ε α) = .ok v from rfl, Except.ok.injEq]

@[simp] theorem revertIf_ok_iff {c : Prop} [Decidable c] {e : ε} {u : Unit} :
    revertIf c e = .ok u ↔ ¬c := by
  unfold revertIf
  split <;> simp_all

@[simp] theorem checkedAdd_ok_iff {width x y z : Nat} {e : ε} :
    checkedAdd width e x y = .ok z ↔ x + y < 2 ^ width ∧ z = x + y := by
  by_cases h : x + y < 2 ^ width
  · simp [checkedAdd, h, eq_comm]
  · simp [checkedAdd, h]

@[simp] theorem checkedMul_ok_iff {width x y z : Nat} {e : ε} :
    checkedMul width e x y = .ok z ↔ x * y < 2 ^ width ∧ z = x * y := by
  by_cases h : x * y < 2 ^ width
  · simp [checkedMul, h, eq_comm]
  · simp [checkedMul, h]

@[simp] theorem checkedSub_ok_iff {x y z : Nat} {e : ε} :
    checkedSub e x y = .ok z ↔ y ≤ x ∧ z = x - y := by
  by_cases h : y ≤ x
  · simp [checkedSub, h, eq_comm]
  · simp [checkedSub, h]

theorem mapError_ok_iff {ε' : Type} {f : ε → ε'} {x : Except ε α} {v : α} :
    x.mapError f = .ok v ↔ x = .ok v := by
  cases x with
  | error e =>
    change Except.error (f e) = .ok v ↔ _
    simp
  | ok value =>
    change Except.ok value = .ok v ↔ _
    simp

/-- Every error that the computation may end with satisfies the predicate. -/
def Fails (P : ε → Prop) (x : Except ε α) : Prop := ∀ err, x = .error err → P err

section Fails

variable {P : ε → Prop}

theorem fails_ok (v : α) : Fails P (.ok v) := fun _ h => absurd h (by simp)

theorem fails_bind {x : Except ε α} {k : α → Except ε β} (h : Fails P x)
    (hk : ∀ v, Fails P (k v)) : Fails P (x >>= k) := by
  intro err herr
  cases x with
  | error err' =>
    cases herr
    exact h err rfl
  | ok v => exact hk v err herr

theorem fails_revertIf {c : Prop} [Decidable c] {e : ε} (h : P e) : Fails P (revertIf c e) := by
  intro err herr
  unfold revertIf at herr
  split at herr
  · cases herr
    exact h
  · exact absurd herr (by simp)

theorem fails_mapError {ε' : Type} {f : ε' → ε} {x : Except ε' α} (h : ∀ err, P (f err)) :
    Fails P (x.mapError f) := by
  intro err herr
  cases x with
  | error err' =>
    cases herr
    exact h err'
  | ok v => cases herr

end Fails

theorem map_bind {γ : Type} (x : Except ε α) (k : α → Except ε β) (g : β → γ) :
    (x >>= k).map g = x >>= fun value => (k value).map g := by
  cases x <;> rfl

theorem bind_map {γ : Type} (x : Except ε α) (g : α → β) (k : β → Except ε γ) :
    x.map g >>= k = x >>= fun value => k (g value) := by
  cases x <;> rfl

theorem map_fst_ok_iff {x : Except ε (α × β)} {a : α} :
    x.map Prod.fst = .ok a ↔ ∃ b, x = .ok (a, b) := by
  cases x with
  | error e => simp [Except.map]
  | ok r => simp [Except.map, Prod.ext_iff]

theorem toOption_eq_some_iff {x : Except ε α} {v : α} : x.toOption = some v ↔ x = .ok v := by
  cases x <;> simp [Except.toOption]

theorem exists_ok {x : Except ε α} (h : x.toOption.isSome = true) : ∃ v, x = .ok v := by
  cases x with
  | error err => exact absurd h (by simp [Except.toOption])
  | ok v => exact ⟨v, rfl⟩

/-! ## Errors -/

/-- Every error that the computation may end in satisfies the predicate. -/
def Raises (Q : ε → Prop) (x : Except ε α) : Prop := ∀ e, x = .error e → Q e

variable {Q : ε → Prop}

theorem raises_ok (v : α) : Raises Q (.ok v) := by
  intro e he
  exact absurd he (by simp)

theorem raises_error {e : ε} (h : Q e) : Raises Q (.error e : Except ε α) := by
  intro e' he
  cases he
  exact h

theorem Raises.bind {x : Except ε α} {k : α → Except ε β} (hx : Raises Q x)
    (hk : ∀ v, x = .ok v → Raises Q (k v)) : Raises Q (x >>= k) := by
  intro e he
  cases x with
  | error err =>
      cases he
      exact hx e rfl
  | ok v => exact hk v rfl e he

theorem raises_revertIf {c : Prop} [Decidable c] {e : ε} (h : c → Q e) :
    Raises Q (revertIf c e) := by
  unfold revertIf
  split
  · next hc => exact raises_error (h hc)
  · exact raises_ok ()

theorem raises_mapError {ε' : Type} {f : ε' → ε} (h : ∀ e, Q (f e)) (x : Except ε' α) :
    Raises Q (x.mapError f) := by
  cases x with
  | error err => exact raises_error (h err)
  | ok v => exact raises_ok v

theorem Raises.mapError {ε' : Type} {P : ε' → Prop} {f : ε' → ε} {x : Except ε' α}
    (hx : Raises P x) (h : ∀ e, P e → Q (f e)) : Raises Q (x.mapError f) := by
  cases x with
  | error err => exact raises_error (h err (hx err rfl))
  | ok v => exact raises_ok v

end PrismBackend.Lib
