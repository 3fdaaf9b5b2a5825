import Mathlib.Algebra.Group.Basic
import Mathlib.Data.List.Perm.Basic

/-!
# Courses whose labels are rearranged

Two courses from one state take the same labels in different orders. An
observation that the labels change in any order is the same at both ends, and
so is a cell that only its first label can fill.
-/

namespace PrismBackend.Lib

variable {σ L γ : Type}

/-- The steps from one state to another, with their labels in order. -/
inductive Course (step : σ → L → σ → Prop) : σ → List L → σ → Prop
  | nil (s : σ) : Course step s [] s
  | cons {s s' t : σ} {l : L} {ls : List L} (first : step s l s') (rest : Course step s' ls t) :
      Course step s (l :: ls) t

/-- Every step changes an observation as its label says. -/
def Observes (step : σ → L → σ → Prop) (observe : σ → γ) (change : γ → L → γ) : Prop :=
  ∀ s l s', step s l s' → observe s' = change (observe s) l

/-- A cell that a step fills if its label claims it, that is never left unset by such a step
and that no step rewrites. -/
structure FilledOnce (step : σ → L → σ → Prop) (cell : σ → γ) (unset : γ) (claim : L → Option γ) :
    Prop where
  filled : ∀ s l s' v, step s l s' → claim l = some v → cell s' = v ∧ v ≠ unset
  kept : ∀ s l s', step s l s' → cell s ≠ unset → cell s' = cell s
  other : ∀ s l s', step s l s' → claim l = none → cell s' = cell s

namespace Course

variable {step : σ → L → σ → Prop} {s t t' : σ} {ls ls' : List L}

theorem observe_eq {observe : σ → γ} {change : γ → L → γ} (h : Course step s ls t)
    (hobserves : Observes step observe change) :
    observe t = ls.foldl change (observe s) := by
  induction h with
  | nil => rfl
  | cons first _ ih => rw [ih, hobserves _ _ _ first, List.foldl_cons]

theorem observe_agrees {observe : σ → γ} {change : γ → L → γ} [RightCommutative change]
    (h : Course step s ls t) (h' : Course step s ls' t') (hperm : ls.Perm ls')
    (hobserves : Observes step observe change) : observe t = observe t' := by
  rw [h.observe_eq hobserves, h'.observe_eq hobserves]
  exact hperm.foldl_eq _

theorem sum_agrees [AddCommMonoid γ] {observe : σ → γ} (delta : L → γ)
    (h : Course step s ls t) (h' : Course step s ls' t') (hperm : ls.Perm ls')
    (hobserves : Observes step observe fun total l => total + delta l) :
    observe t = observe t' := by
  have : RightCommutative fun (total : γ) (l : L) => total + delta l :=
    ⟨fun total l l' => add_right_comm total (delta l) (delta l')⟩
  exact h.observe_agrees h' hperm hobserves

theorem flag_agrees {observe : σ → Bool} (raises : L → Bool)
    (h : Course step s ls t) (h' : Course step s ls' t') (hperm : ls.Perm ls')
    (hobserves : Observes step observe fun flag l => flag || raises l) :
    observe t = observe t' := by
  have : RightCommutative fun (flag : Bool) (l : L) => flag || raises l :=
    ⟨fun flag l l' => Bool.or_right_comm flag (raises l) (raises l')⟩
  exact h.observe_agrees h' hperm hobserves

theorem kept {observe : σ → γ} (h : Course step s ls t)
    (hkept : ∀ s l s', step s l s' → observe s' = observe s) : observe t = observe s := by
  induction h with
  | nil => rfl
  | cons first _ ih => exact ih.trans (hkept _ _ _ first)

section Cell

variable {cell : σ → γ} {unset : γ} {claim : L → Option γ}

theorem cell_kept (h : Course step s ls t) (honce : FilledOnce step cell unset claim)
    (hset : cell s ≠ unset) : cell t = cell s := by
  induction h with
  | nil => rfl
  | cons first _ ih =>
      have hstep := honce.kept _ _ _ first hset
      rw [← hstep] at hset
      exact (ih hset).trans hstep

theorem cell_claimed (h : Course step s ls t) (honce : FilledOnce step cell unset claim)
    {l : L} {v : γ} (hl : l ∈ ls) (hclaim : claim l = some v) : cell t = v := by
  induction h with
  | nil => exact absurd hl List.not_mem_nil
  | cons first rest ih =>
      rcases List.mem_cons.mp hl with rfl | hl
      · obtain ⟨hv, hset⟩ := honce.filled _ _ _ _ first hclaim
        rw [← hv] at hset
        exact (rest.cell_kept honce hset).trans hv
      · exact ih hl

theorem cell_unclaimed (h : Course step s ls t) (honce : FilledOnce step cell unset claim)
    (hnone : ∀ l ∈ ls, claim l = none) : cell t = cell s := by
  induction h with
  | nil => rfl
  | cons first _ ih =>
      rw [List.forall_mem_cons] at hnone
      exact (ih hnone.2).trans (honce.other _ _ _ first hnone.1)

/-- Whichever of the labels that claim a cell comes first, the cell ends the same. -/
theorem cell_agrees (h : Course step s ls t) (h' : Course step s ls' t') (hperm : ls.Perm ls')
    (honce : FilledOnce step cell unset claim) : cell t = cell t' := by
  by_cases hnone : ∀ l ∈ ls, claim l = none
  · have hnone' : ∀ l ∈ ls', claim l = none := fun l hl => hnone l (hperm.mem_iff.mpr hl)
    rw [h.cell_unclaimed honce hnone, h'.cell_unclaimed honce hnone']
  · push Not at hnone
    obtain ⟨l, hl, hclaims⟩ := hnone
    obtain ⟨v, hv⟩ := Option.ne_none_iff_exists'.mp hclaims
    rw [h.cell_claimed honce hl hv, h'.cell_claimed honce (hperm.mem_iff.mp hl) hv]

end Cell

end Course

end PrismBackend.Lib
