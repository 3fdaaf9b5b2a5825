import Mathlib.Algebra.BigOperators.Group.List.Basic
import Mathlib.Algebra.GroupWithZero.Nat
import Mathlib.Data.List.Perm.Basic

/-!
# Lists, entry by entry

A list in which one entry is replaced, taken out or added: what is found in it
afterwards, and what its counts, its images and its sums are then. A log is a
list of entries under keys.
-/

namespace PrismBackend.Lib

variable {α β : Type}

/-! ## Finding -/

theorem getElem?_set_iff {xs : List α} {i j : Nat} {x y old : α} (h : xs[i]? = some old) :
    (xs.set i x)[j]? = some y ↔ (j = i ∧ x = y) ∨ (j ≠ i ∧ xs[j]? = some y) := by
  obtain ⟨hlt, _⟩ := List.getElem?_eq_some_iff.mp h
  by_cases heq : j = i
  · subst heq
    rw [List.getElem?_set_self hlt, Option.some.injEq]
    simp
  · rw [List.getElem?_set_ne fun hne => heq hne.symm]
    simp [heq]

theorem getElem?_concat_iff {xs : List α} {j : Nat} {x y : α} :
    (xs ++ [x])[j]? = some y ↔ xs[j]? = some y ∨ (j = xs.length ∧ x = y) := by
  by_cases hlt : j < xs.length
  · rw [List.getElem?_append_left hlt]
    have hne : j ≠ xs.length := by omega
    simp [hne]
  · rw [List.getElem?_append_right (by omega), List.getElem?_eq_none (by omega : xs.length ≤ j)]
    by_cases heq : j = xs.length
    · subst heq
      simp
    · have hnone : ([x] : List α)[j - xs.length]? = none := by
        apply List.getElem?_eq_none
        rw [List.length_singleton]
        omega
      rw [hnone]
      simp [heq]

theorem mem_set_kept {xs : List α} {k : Nat} {x a : α} (h : a ∈ xs) :
    a ∈ xs.set k x ∨ xs[k]? = some a := by
  obtain ⟨j, hj⟩ := List.mem_iff_getElem?.mp h
  by_cases hk : k = j
  · subst hk
    exact Or.inr hj
  · refine Or.inl (List.mem_iff_getElem?.mpr ⟨j, ?_⟩)
    rw [List.getElem?_set_ne hk]
    exact hj

theorem mem_eraseIdx_or {l : List α} {i : Nat} {a b : α} (h : l[i]? = some a) (hb : b ∈ l) :
    b = a ∨ b ∈ l.eraseIdx i := by
  induction l generalizing i with
  | nil => exact absurd hb List.not_mem_nil
  | cons c l ih =>
      cases i with
      | zero =>
          cases h
          exact List.mem_cons.mp hb
      | succ i =>
          rcases List.mem_cons.mp hb with rfl | hb
          · exact Or.inr List.mem_cons_self
          · rcases ih h hb with heq | hmem
            · exact Or.inl heq
            · exact Or.inr (List.mem_cons_of_mem _ hmem)

/-- What is left after an erasure has other keys than what was erased. -/
theorem eraseIdx_key_ne {f : α → β} {l : List α} {i : Nat} {a b : α} (hnodup : (l.map f).Nodup)
    (h : l[i]? = some a) (hb : b ∈ l.eraseIdx i) : f b ≠ f a := by
  obtain ⟨hi, rfl⟩ := List.getElem?_eq_some_iff.mp h
  have hperm := (List.getElem_cons_eraseIdx_perm hi).map f
  have hsplit := hperm.nodup_iff.mpr hnodup
  rw [List.map_cons, List.nodup_cons] at hsplit
  intro heq
  exact hsplit.1 (heq ▸ List.mem_map_of_mem hb)

/-- An entry of a list with one more entry is the new one or an old one. -/
theorem mem_concat_split {xs before after : List α} {x y : α}
    (h : xs ++ [x] = before ++ y :: after) :
    (x = y ∧ before = xs) ∨ ∃ after', xs = before ++ y :: after' := by
  rcases List.eq_nil_or_concat after with rfl | ⟨after', z, rfl⟩
  · have hlast := List.append_inj' h rfl
    exact Or.inl ⟨List.singleton_inj.mp hlast.2, hlast.1.symm⟩
  · rw [List.concat_eq_append, ← List.cons_append, ← List.append_assoc] at h
    exact Or.inr ⟨after', (List.append_inj' h rfl).1⟩

theorem sublist_of_lt {l : List α} {i j : Nat} {a b : α} (hij : i < j) (ha : l[i]? = some a)
    (hb : l[j]? = some b) : [a, b].Sublist l := by
  have hfirst : a ∈ l.take j := by
    apply List.mem_of_getElem? (i := i)
    rw [List.getElem?_take_of_lt hij]
    exact ha
  have hsecond : b ∈ l.drop j := by
    apply List.mem_of_getElem? (i := 0)
    rw [List.getElem?_drop]
    exact hb
  have hboth := (List.singleton_sublist.mpr hfirst).append (List.singleton_sublist.mpr hsecond)
  rwa [List.take_append_drop] at hboth

theorem map_fst_zip_sublist (l : List α) (l' : List β) :
    ((l.zip l').map Prod.fst).Sublist l := by
  induction l generalizing l' with
  | nil => exact .slnil
  | cons a l ih =>
      cases l' with
      | nil => exact List.nil_sublist _
      | cons b l' => exact (ih l').cons_cons a

theorem filter_comm (f g : α → Bool) (xs : List α) :
    (xs.filter f).filter g = (xs.filter g).filter f := by
  rw [List.filter_filter, List.filter_filter]
  exact List.filter_congr fun x _ => Bool.and_comm _ _

theorem eraseP_perm {p : α → Bool} {xs : List α} {x : α} (h : xs.find? p = some x) :
    xs.Perm (x :: xs.eraseP p) := by
  obtain ⟨hp, before, after, hsplit, hbefore⟩ := List.find?_eq_some_iff_append.mp h
  rw [hsplit, List.eraseP_append_right _ (by simpa using hbefore), List.eraseP_cons_of_pos hp]
  exact List.perm_middle

/-! ## Counts and images -/

theorem countP_set_add {l : List α} {i : Nat} {a : α} (h : l[i]? = some a) (b : α)
    (p : α → Bool) :
    (l.set i b).countP p + (if p a then 1 else 0) = l.countP p + (if p b then 1 else 0) := by
  induction l generalizing i with
  | nil => exact absurd h (by simp)
  | cons x l ih =>
      cases i with
      | zero =>
          obtain rfl : x = a := Option.some.inj h
          rw [List.set_cons_zero, List.countP_cons, List.countP_cons]
          omega
      | succ i =>
          have hrest := ih h
          rw [List.set_cons_succ, List.countP_cons, List.countP_cons]
          omega

theorem countP_set_of_eq {l : List α} {i : Nat} {a b : α} (h : l[i]? = some a) {p : α → Bool}
    (hp : p b = p a) : (l.set i b).countP p = l.countP p := by
  have hcount := countP_set_add h b p
  rw [hp] at hcount
  exact Nat.add_right_cancel hcount

theorem length_filter_range (a b n : Nat) :
    ((List.range n).filter fun i => decide (a ≤ i) && decide (i < b)).length =
      min n b - min n a := by
  induction n with
  | zero => rw [Nat.zero_min, Nat.zero_min]; rfl
  | succ n ih =>
      rw [List.range_succ, List.filter_append, List.length_append, ih, List.filter_cons]
      split
      case isTrue hbetween =>
        rw [Bool.and_eq_true, decide_eq_true_iff, decide_eq_true_iff] at hbetween
        rw [List.filter_nil, List.length_singleton]
        omega
      case isFalse hbetween =>
        rw [Bool.and_eq_true, decide_eq_true_iff, decide_eq_true_iff] at hbetween
        rw [List.filter_nil, List.length_nil]
        omega

theorem map_set_same {f : α → β} {l : List α} {j : Nat} {a b : α} (h : l[j]? = some a)
    (hf : f b = f a) : (l.set j b).map f = l.map f := by
  obtain ⟨hj, rfl⟩ := List.getElem?_eq_some_iff.mp h
  apply List.ext_getElem
  · simp
  · intro i hi hi'
    rw [List.getElem_map, List.getElem_map, List.getElem_set]
    split
    · next heq =>
      subst heq
      exact hf
    · rfl

theorem filterMap_set_perm {l : List α} {i : Nat} {a : α} (h : l[i]? = some a) (b : α)
    (f : α → Option β) :
    ((f a).toList ++ (l.set i b).filterMap f).Perm ((f b).toList ++ l.filterMap f) := by
  have hcons (x : α) (l : List α) : (x :: l).filterMap f = (f x).toList ++ l.filterMap f := by
    cases hx : f x with
    | none => rw [List.filterMap_cons_none hx, Option.toList_none, List.nil_append]
    | some y => rw [List.filterMap_cons_some hx, Option.toList_some, List.singleton_append]
  induction l generalizing i with
  | nil => exact absurd h (by simp)
  | cons x l ih =>
      cases i with
      | zero =>
          obtain rfl : x = a := Option.some.inj h
          rw [List.set_cons_zero, hcons, hcons]
          exact List.perm_append_comm_assoc _ _ _
      | succ i =>
          rw [List.set_cons_succ, hcons, hcons]
          exact (List.perm_append_comm_assoc _ _ _).trans
            (((ih h).append_left _).trans (List.perm_append_comm_assoc _ _ _))

/-- What one of several entries grows by comes last, up to order. -/
theorem flatMap_extend {f : α → List β} {x y : α} {new : List β} (left right : List α)
    (h : f y = f x ++ new) :
    ((left ++ x :: right).flatMap f ++ new).Perm ((left ++ y :: right).flatMap f) := by
  simp only [List.flatMap_append, List.flatMap_cons, h, List.append_assoc]
  exact (List.perm_append_comm.append_left _).append_left _

/-- A sum of words that wraps at every step is the sum, wrapped once. -/
theorem foldl_add_mod (w : Nat) (f : α → Nat) (xs : List α) (n : Nat) :
    xs.foldl (fun total x => (total + f x) % w) (n % w) = (n + (xs.map f).sum) % w := by
  induction xs generalizing n with
  | nil => rfl
  | cons x xs ih =>
      rw [List.foldl_cons, Nat.mod_add_mod, ih, List.map_cons, List.sum_cons, Nat.add_assoc]

/-! ## Logs -/

section Log

variable {κ : Type} [DecidableEq κ]

def entriesOf (key : κ) (log : List (κ × α)) : List α := (log.filter (·.1 == key)).map Prod.snd

@[simp] theorem entriesOf_append (key : κ) (log log' : List (κ × α)) :
    entriesOf key (log ++ log') = entriesOf key log ++ entriesOf key log' := by
  rw [entriesOf, List.filter_append, List.map_append]
  rfl

theorem entriesOf_under (key key' : κ) (xs : List α) :
    entriesOf key (xs.map fun x => (key', x)) = if key' = key then xs else [] := by
  unfold entriesOf
  split
  · next h =>
    have hall : (xs.map fun x => (key', x)).filter (·.1 == key) = xs.map fun x => (key', x) := by
      apply List.filter_eq_self.mpr
      intro entry hentry
      obtain ⟨x, _, rfl⟩ := List.mem_map.mp hentry
      exact beq_iff_eq.mpr h
    rw [hall, List.map_map]
    exact List.map_id xs
  · next h =>
    have hnone : (xs.map fun x => (key', x)).filter (·.1 == key) = [] := by
      apply List.filter_eq_nil_iff.mpr
      intro entry hentry
      obtain ⟨x, _, rfl⟩ := List.mem_map.mp hentry
      simpa using h
    rw [hnone, List.map_nil]

end Log

end PrismBackend.Lib
