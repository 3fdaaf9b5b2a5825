import Mathlib.Algebra.BigOperators.Group.List.Basic
import Mathlib.Algebra.GroupWithZero.Nat
import Mathlib.Data.List.Nodup
import Mathlib.Data.List.Perm.Basic

/-!
# Tables

A table is a list of rows whose keys are distinct. Rows are looked up, inserted
and modified by key, and a column can be summed over all rows.
-/

namespace PrismBackend.Lib

structure Table (ρ κ : Type) (key : ρ → κ) where
  rows : List ρ
  nodup : (rows.map key).Nodup

namespace Table

variable {ρ κ : Type} {key : ρ → κ} [DecidableEq κ]

def empty : Table ρ κ key := ⟨[], List.nodup_nil⟩

def find (t : Table ρ κ key) (k : κ) : Option ρ := t.rows.find? fun row => key row = k

/-- Add a row unless its key is taken. -/
def insert (t : Table ρ κ key) (row : ρ) : Table ρ κ key :=
  if h : key row ∈ t.rows.map key then t
  else ⟨t.rows ++ [row], by
    rw [List.map_append, List.map_singleton]
    exact List.nodup_append.mpr ⟨t.nodup, List.nodup_singleton _, by
      intro k hk k' hk' heq
      rw [List.mem_singleton.mp hk'] at heq
      exact h (heq ▸ hk)⟩⟩

/-- Replace the row of one key by an update that keeps keys. -/
def modify (t : Table ρ κ key) (k : κ) (f : ρ → ρ) (hf : ∀ row, key (f row) = key row) :
    Table ρ κ key where
  rows := t.rows.map fun row => if key row = k then f row else row
  nodup := by
    rw [List.map_map]
    have hkeys : key ∘ (fun row => if key row = k then f row else row) = key := by
      funext row
      show key (if key row = k then f row else row) = key row
      split
      · exact hf row
      · rfl
    rw [hkeys]
    exact t.nodup

/-- Replace the row that has the key of the new one. -/
def put (t : Table ρ κ key) (row : ρ) : Table ρ κ key where
  rows := t.rows.map fun old => if key old = key row then row else old
  nodup := by
    rw [List.map_map]
    have hkeys : key ∘ (fun old => if key old = key row then row else old) = key := by
      funext old
      show key (if key old = key row then row else old) = key old
      split
      · next h => exact h.symm
      · rfl
    rw [hkeys]
    exact t.nodup

/-- Replace every row by an update that keeps keys. -/
def modifyAll (t : Table ρ κ key) (f : ρ → ρ) (hf : ∀ row, key (f row) = key row) :
    Table ρ κ key where
  rows := t.rows.map f
  nodup := by
    rw [List.map_map, show key ∘ f = key from funext hf]
    exact t.nodup

variable {t : Table ρ κ key}

/-! ## Lookup -/

omit [DecidableEq κ] in
theorem eq_of_key {row row' : ρ} (h : row ∈ t.rows) (h' : row' ∈ t.rows)
    (hkey : key row = key row') : row = row' :=
  List.inj_on_of_nodup_map t.nodup h h' hkey

theorem find_eq_some {k : κ} {row : ρ} :
    t.find k = some row ↔ row ∈ t.rows ∧ key row = k := by
  constructor
  · intro h
    exact ⟨List.mem_of_find?_eq_some h, by simpa using List.find?_some h⟩
  · intro h
    cases hfind : t.find k with
    | none =>
        have hnone := List.find?_eq_none.mp hfind row h.1
        exact absurd h.2 (by simpa using hnone)
    | some row' =>
        have hmem := List.mem_of_find?_eq_some hfind
        have hkey : key row' = k := by simpa using List.find?_some hfind
        rw [eq_of_key hmem h.1 (hkey.trans h.2.symm)]

theorem find_eq_none {k : κ} : t.find k = none ↔ ∀ row ∈ t.rows, key row ≠ k := by
  unfold find
  rw [List.find?_eq_none]
  simp

theorem find_key {row : ρ} (h : row ∈ t.rows) : t.find (key row) = some row :=
  find_eq_some.mpr ⟨h, rfl⟩

/-! ## Insertion -/

theorem insert_of_taken {row row' : ρ} (h : t.find (key row) = some row') :
    t.insert row = t := by
  obtain ⟨hmem, hkey⟩ := find_eq_some.mp h
  unfold insert
  rw [dif_pos (hkey ▸ List.mem_map_of_mem hmem)]

theorem rows_insert {row : ρ} (h : t.find (key row) = none) :
    (t.insert row).rows = t.rows ++ [row] := by
  unfold insert
  rw [dif_neg]
  intro hmem
  obtain ⟨row', hmem, hkey⟩ := List.mem_map.mp hmem
  exact find_eq_none.mp h row' hmem hkey

theorem mem_insert {row row' : ρ} (h : row' ∈ t.rows) : row' ∈ (t.insert row).rows := by
  cases hfind : t.find (key row) with
  | some taken =>
      rw [insert_of_taken hfind]
      exact h
  | none =>
      rw [rows_insert hfind]
      exact List.mem_append_left _ h

theorem find_insert {row row' : ρ} {k : κ} (h : t.find k = some row') :
    (t.insert row).find k = some row' := by
  obtain ⟨hmem, hkey⟩ := find_eq_some.mp h
  exact find_eq_some.mpr ⟨mem_insert hmem, hkey⟩

theorem find_insert_self {row : ρ} (h : t.find (key row) = none) :
    (t.insert row).find (key row) = some row := by
  rw [find_eq_some, rows_insert h]
  exact ⟨List.mem_append_right _ (List.mem_singleton_self _), rfl⟩

theorem find_insert_of_ne {row : ρ} {k : κ} (hne : key row ≠ k) :
    (t.insert row).find k = t.find k := by
  cases hfind : t.find (key row) with
  | some taken => rw [insert_of_taken hfind]
  | none =>
      unfold find
      rw [rows_insert hfind, List.find?_append]
      simp [hne]

theorem mem_of_mem_insert {row row' : ρ} (h : row' ∈ (t.insert row).rows) :
    row' ∈ t.rows ∨ row' = row := by
  cases hfind : t.find (key row) with
  | some taken =>
      rw [insert_of_taken hfind] at h
      exact Or.inl h
  | none =>
      rw [rows_insert hfind, List.mem_append, List.mem_singleton] at h
      exact h

/-! ## Updates -/

section Modify

variable {k : κ} {f : ρ → ρ} {hf : ∀ row, key (f row) = key row}

theorem mem_modify {row' : ρ} : row' ∈ (t.modify k f hf).rows ↔
    ∃ row ∈ t.rows, row' = if key row = k then f row else row := by
  unfold modify
  rw [List.mem_map]
  constructor
  · intro h
    obtain ⟨row, hmem, heq⟩ := h
    exact ⟨row, hmem, heq.symm⟩
  · intro h
    obtain ⟨row, hmem, heq⟩ := h
    exact ⟨row, hmem, heq.symm⟩

theorem find_of_mem_modify (hf : ∀ row, key (f row) = key row) {row' : ρ}
    (h : row' ∈ (t.modify k f hf).rows) :
    ∃ row, t.find (key row') = some row ∧ (row' = row ∨ key row' = k ∧ row' = f row) := by
  obtain ⟨row, hrow, rfl⟩ := mem_modify.mp h
  split
  · next hkey =>
    refine ⟨row, ?_, Or.inr ⟨(hf row).trans hkey, rfl⟩⟩
    rw [hf row]
    exact find_key hrow
  · exact ⟨row, find_key hrow, Or.inl rfl⟩

theorem find_modify_self {row : ρ} (h : t.find k = some row) :
    (t.modify k f hf).find k = some (f row) := by
  obtain ⟨hmem, hkey⟩ := find_eq_some.mp h
  rw [find_eq_some, mem_modify]
  refine ⟨⟨row, hmem, ?_⟩, (hf row).trans hkey⟩
  rw [if_pos hkey]

theorem find_modify_of_ne {k' : κ} (hne : k' ≠ k) : (t.modify k f hf).find k' = t.find k' := by
  cases h : t.find k' with
  | some row =>
      obtain ⟨hmem, hkey⟩ := find_eq_some.mp h
      rw [find_eq_some, mem_modify]
      refine ⟨⟨row, hmem, ?_⟩, hkey⟩
      rw [if_neg (hkey ▸ hne)]
  | none =>
      rw [find_eq_none] at h ⊢
      intro row' hmem
      obtain ⟨row, hrow, rfl⟩ := mem_modify.mp hmem
      split
      · rw [hf row]
        exact h row hrow
      · exact h row hrow

theorem modify_of_none (h : t.find k = none) : (t.modify k f hf).rows = t.rows := by
  rw [find_eq_none] at h
  unfold modify
  show List.map _ t.rows = t.rows
  conv_rhs => rw [← List.map_id t.rows]
  apply List.map_congr_left
  intro row hmem
  exact if_neg (h row hmem)

theorem find_modify_map (hf : ∀ row, key (f row) = key row) (k' : κ) : (t.modify k f hf).find k' =
    (t.find k').map fun row => if k' = k then f row else row := by
  cases h : t.find k' with
  | none =>
      rw [Option.map_none, find_eq_none]
      rw [find_eq_none] at h
      intro row' hmem
      obtain ⟨row, hrow, rfl⟩ := mem_modify.mp hmem
      split
      · rw [hf row]
        exact h row hrow
      · exact h row hrow
  | some row =>
      rw [Option.map_some]
      by_cases hk : k' = k
      · subst hk
        rw [if_pos rfl]
        exact find_modify_self h
      · rw [if_neg hk, find_modify_of_ne hk]
        exact h

/-- A row of one key is carried over, changed or not. -/
theorem find_modify {k' : κ} {row : ρ} (h : t.find k' = some row) :
    (t.modify k f hf).find k' = some (if k' = k then f row else row) := by
  rw [find_modify_map hf, h, Option.map_some]

end Modify

theorem find_put (row : ρ) (k : κ) : (t.put row).find k =
    if k = key row then (t.find k).map fun _ => row else t.find k := by
  split
  · next hk =>
    subst hk
    cases h : t.find (key row) with
    | none =>
        rw [Option.map_none, find_eq_none]
        rw [find_eq_none] at h
        intro row' hmem
        obtain ⟨old, hold, rfl⟩ := List.mem_map.mp hmem
        rw [if_neg (h old hold)]
        exact h old hold
    | some old =>
        obtain ⟨hmem, hkey⟩ := find_eq_some.mp h
        rw [Option.map_some, find_eq_some]
        exact ⟨List.mem_map.mpr ⟨old, hmem, if_pos hkey⟩, rfl⟩
  · next hk =>
    cases h : t.find k with
    | some old =>
        obtain ⟨hmem, hkey⟩ := find_eq_some.mp h
        rw [find_eq_some]
        exact ⟨List.mem_map.mpr ⟨old, hmem, if_neg (hkey ▸ hk)⟩, hkey⟩
    | none =>
        rw [find_eq_none] at h ⊢
        intro row' hmem
        obtain ⟨old, hold, rfl⟩ := List.mem_map.mp hmem
        split
        · exact fun heq => hk heq.symm
        · exact h old hold

theorem find_modifyAll {f : ρ → ρ} (hf : ∀ row, key (f row) = key row) (k : κ) :
    (t.modifyAll f hf).find k = (t.find k).map f := by
  cases h : t.find k with
  | none =>
      rw [Option.map_none, find_eq_none]
      rw [find_eq_none] at h
      intro row' hmem
      obtain ⟨row, hrow, rfl⟩ := List.mem_map.mp hmem
      rw [hf row]
      exact h row hrow
  | some row =>
      obtain ⟨hmem, hkey⟩ := find_eq_some.mp h
      rw [Option.map_some, find_eq_some]
      exact ⟨List.mem_map_of_mem hmem, (hf row).trans hkey⟩

/-! ## Sums -/

def sum (t : Table ρ κ key) (column : ρ → Nat) : Nat := (t.rows.map column).sum

theorem sum_insert {row : ρ} (h : t.find (key row) = none) (column : ρ → Nat) :
    (t.insert row).sum column = t.sum column + column row := by
  unfold sum
  rw [rows_insert h, List.map_append, List.sum_append, List.map_singleton, List.sum_singleton]

theorem sum_map_ite {rows : List ρ} (hnodup : (rows.map key).Nodup) {row : ρ} (hmem : row ∈ rows)
    (f : ρ → ρ) (column : ρ → Nat) :
    (rows.map fun r => column (if key r = key row then f r else r)).sum + column row =
      (rows.map column).sum + column (f row) := by
  induction rows with
  | nil => exact absurd hmem List.not_mem_nil
  | cons first rest ih =>
      rw [List.map_cons, List.nodup_cons] at hnodup
      rw [List.map_cons, List.map_cons, List.sum_cons, List.sum_cons]
      rcases List.mem_cons.mp hmem with heq | hrest
      · subst heq
        have hsame : (rest.map fun r => column (if key r = key row then f r else r)) =
            rest.map column := by
          apply List.map_congr_left
          intro r hr
          have hkey : key r ∈ rest.map key := List.mem_map_of_mem hr
          have hne : key r ≠ key row := fun heq => hnodup.1 (heq ▸ hkey)
          rw [if_neg hne]
        rw [if_pos rfl, hsame]
        omega
      · have hne : key first ≠ key row :=
          fun hkey => hnodup.1 (hkey ▸ List.mem_map_of_mem hrest)
        have htail := ih hnodup.2 hrest
        rw [if_neg hne]
        omega

theorem sum_modify {k : κ} {f : ρ → ρ} {hf : ∀ row, key (f row) = key row} {row : ρ}
    (h : t.find k = some row) (column : ρ → Nat) :
    (t.modify k f hf).sum column + column row = t.sum column + column (f row) := by
  obtain ⟨hmem, rfl⟩ := find_eq_some.mp h
  have hsum := sum_map_ite t.nodup hmem f column
  unfold sum modify
  rw [List.map_map]
  exact hsum

/-- An update that leaves a column of the rows leaves its sum. -/
theorem sum_modify_same (t : Table ρ κ key) (k : κ) (f : ρ → ρ)
    (hf : ∀ row, key (f row) = key row) {column : ρ → Nat}
    (h : ∀ row, column (f row) = column row) : (t.modify k f hf).sum column = t.sum column := by
  cases hfind : t.find k with
  | none =>
      unfold sum
      rw [modify_of_none hfind]
  | some row =>
      have hsum : (t.modify k f hf).sum column + column row = t.sum column + column (f row) :=
        sum_modify hfind column
      rw [h row] at hsum
      exact Nat.add_right_cancel hsum

omit [DecidableEq κ] in
theorem sum_eq_zero {column : ρ → Nat} (h : ∀ row ∈ t.rows, column row = 0) :
    t.sum column = 0 := by
  apply List.sum_eq_zero
  intro n hn
  obtain ⟨row, hrow, rfl⟩ := List.mem_map.mp hn
  exact h row hrow

omit [DecidableEq κ] in
theorem sum_congr {column column' : ρ → Nat} (h : ∀ row ∈ t.rows, column row = column' row) :
    t.sum column = t.sum column' := by
  unfold sum
  rw [List.map_congr_left h]

/-- The sum over the rows with one key is a matter of one row. -/
theorem sum_key (k : κ) (column : ρ → Nat) :
    (t.sum fun row => if key row = k then column row else 0) = ((t.find k).map column).getD 0 := by
  have hzero {rows : List ρ} (h : ∀ row ∈ rows, key row ≠ k) :
      (rows.map fun row => if key row = k then column row else 0).sum = 0 := by
    apply List.sum_eq_zero
    intro n hn
    obtain ⟨row, hrow, rfl⟩ := List.mem_map.mp hn
    exact if_neg (h row hrow)
  cases hfind : t.find k with
  | none => exact hzero (find_eq_none.mp hfind)
  | some row =>
      obtain ⟨hmem, hkey⟩ := find_eq_some.mp hfind
      obtain ⟨before, after, hrows⟩ := List.append_of_mem hmem
      have hnodup := t.nodup
      rw [hrows, List.map_append, List.map_cons, List.nodup_append] at hnodup
      obtain ⟨_, hlater, hapart⟩ := hnodup
      have hbefore : ∀ row' ∈ before, key row' ≠ k := fun row' hrow' heq =>
        hapart _ (List.mem_map_of_mem hrow') _ List.mem_cons_self (heq.trans hkey.symm)
      have hafter : ∀ row' ∈ after, key row' ≠ k := fun row' hrow' heq =>
        (List.nodup_cons.mp hlater).1 (hkey.trans heq.symm ▸ List.mem_map_of_mem hrow')
      unfold sum
      rw [hrows, List.map_append, List.sum_append, List.map_cons, List.sum_cons, hzero hbefore,
        hzero hafter, if_pos hkey]
      simp

end Table

/-- Entries with distinct keys that all occur in another list, with no smaller amounts, sum up to
no more than that list. -/
theorem sum_le_of_keys {α β κ : Type} (keyA : α → κ) (keyB : β → κ) {f : α → Nat} {g : β → Nat}
    {entries : List α} {ledger : List β} (hnodup : (entries.map keyA).Nodup)
    (h : ∀ a ∈ entries, ∃ b ∈ ledger, keyB b = keyA a ∧ f a ≤ g b) :
    (entries.map f).sum ≤ (ledger.map g).sum := by
  induction entries generalizing ledger with
  | nil => exact Nat.zero_le _
  | cons a entries ih =>
      rw [List.map_cons, List.nodup_cons] at hnodup
      obtain ⟨b, hb, hkey, hamount⟩ := h a List.mem_cons_self
      obtain ⟨left, right, rfl⟩ := List.append_of_mem hb
      have hrest : (entries.map f).sum ≤ ((left ++ right).map g).sum := by
        apply ih hnodup.2
        intro a' ha'
        obtain ⟨b', hb', hkey', hamount'⟩ := h a' (List.mem_cons_of_mem a ha')
        refine ⟨b', ?_, hkey', hamount'⟩
        rw [List.mem_append, List.mem_cons] at hb'
        rcases hb' with hleft | heq | hright
        · exact List.mem_append_left _ hleft
        · -- the entry already used has another key
          subst heq
          have hsame : keyA a = keyA a' := hkey.symm.trans hkey'
          exact absurd (hsame ▸ List.mem_map_of_mem ha') hnodup.1
        · exact List.mem_append_right _ hright
      simp only [List.map_append, List.map_cons, List.sum_append, List.sum_cons] at hrest ⊢
      omega

theorem sum_filter_map {α : Type} (P : α → Bool) (g : α → Nat) (entries : List α) :
    ((entries.filter P).map g).sum = (entries.map fun a => if P a then g a else 0).sum := by
  induction entries with
  | nil => rfl
  | cons a entries ih =>
      cases h : P a with
      | true => simp [h, ih]
      | false => simp [h, ih]

/-- Entries that have a key have their own one, where the keys of all entries are distinct. -/
theorem filter_keys_nodup {α κ : Type} (P : α → Bool) (key : α → Option κ) {entries : List α}
    (hkeyed : ∀ a, P a = true → (key a).isSome) (h : (entries.filterMap key).Nodup) :
    ((entries.filter P).map key).Nodup := by
  induction entries with
  | nil => exact List.nodup_nil
  | cons a entries ih =>
      have htail : (entries.filterMap key).Nodup := by
        rw [List.filterMap_cons] at h
        split at h
        · exact h
        · exact (List.nodup_cons.mp h).2
      cases hP : P a with
      | false =>
          rw [List.filter_cons_of_neg (by simp [hP])]
          exact ih htail
      | true =>
          obtain ⟨k, hk⟩ := Option.isSome_iff_exists.mp (hkeyed a hP)
          rw [List.filter_cons_of_pos hP, List.map_cons, List.nodup_cons]
          refine ⟨?_, ih htail⟩
          intro hmem
          obtain ⟨b, hb, hkb⟩ := List.mem_map.mp hmem
          rw [List.filterMap_cons, hk] at h
          refine (List.nodup_cons.mp h).1 (List.mem_filterMap.mpr ?_)
          exact ⟨b, List.mem_of_mem_filter hb, by rw [hkb, hk]⟩

end PrismBackend.Lib
