import Mathlib.Data.List.Sort

/-!
# Stability of insertion sort

A relation that the order of a list already respects, and that says nothing of two
elements which the sort would exchange, is respected after the sort as well.
-/

namespace PrismBackend.Lib

variable {α : Type} {r R : α → α → Prop} [DecidableRel r]

theorem pairwise_orderedInsert (hswap : ∀ a b, ¬r a b → R b a) {a : α} {l : List α}
    (ha : ∀ b ∈ l, R a b) (hl : l.Pairwise R) : (l.orderedInsert r a).Pairwise R := by
  induction l with
  | nil => exact List.pairwise_singleton R a
  | cons b l ih =>
      obtain ⟨hb, hrest⟩ := List.pairwise_cons.mp hl
      rw [List.orderedInsert_cons]
      by_cases hab : r a b
      · rw [if_pos hab]
        exact List.pairwise_cons.mpr ⟨ha, hl⟩
      · rw [if_neg hab]
        apply List.pairwise_cons.mpr
        constructor
        · intro x hx
          rcases (List.mem_orderedInsert r).mp hx with rfl | hx
          · exact hswap x b hab
          · exact hb x hx
        · exact ih (fun x hx => ha x (List.mem_cons_of_mem _ hx)) hrest

theorem pairwise_insertionSort (hswap : ∀ a b, ¬r a b → R b a) {l : List α}
    (hl : l.Pairwise R) : (l.insertionSort r).Pairwise R := by
  induction l with
  | nil => exact List.Pairwise.nil
  | cons a l ih =>
      obtain ⟨ha, hrest⟩ := List.pairwise_cons.mp hl
      rw [List.insertionSort_cons]
      apply pairwise_orderedInsert hswap _ (ih hrest)
      intro b hb
      exact ha b ((List.mem_insertionSort r).mp hb)

end PrismBackend.Lib
