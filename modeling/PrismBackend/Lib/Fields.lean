import Mathlib.Algebra.Group.Int.Defs
import Mathlib.Algebra.Group.Nat.Defs
import Mathlib.Data.List.Lex
import Mathlib.Data.List.Nodup
import Mathlib.Data.List.Perm.Basic
import Mathlib.Data.List.Sort
import Mathlib.Data.Nat.Basic

/-!
# Objects of scalar fields

A JSON object whose values are texts and integers, as an encoder that omits zero
values writes it, a store that keeps each key once in an order of its own hands
it on, and a decoder that fills missing fields with defaults reads it.
-/

namespace PrismBackend.Lib

inductive Scalar
  | str (s : List Char)
  | num (n : Int)
  deriving DecidableEq, Repr

/-- The values that an encoder with `omitempty` leaves out. -/
def Scalar.isZero : Scalar → Bool
  | .str s => s.isEmpty
  | .num n => n == 0

abbrev Fields := List (List Char × Scalar)

namespace Fields

def omitEmpty (fields : Fields) : Fields := fields.filter fun field => !field.2.isZero

def get (fields : Fields) (key : List Char) : Option Scalar :=
  (fields.find? fun field => field.1 == key).map Prod.snd

def keys (fields : Fields) : List (List Char) := fields.map Prod.fst

/-- Shorter keys come first, then the order of the characters. -/
def keyLE (key key' : List Char) : Bool :=
  key.length < key'.length ||
    (key.length == key'.length && decide (key.map Char.toNat ≤ key'.map Char.toNat))

/-- How the store keeps an object whose keys are distinct. -/
def stored (fields : Fields) : Fields :=
  fields.insertionSort fun field field' => keyLE field.1 field'.1

theorem stored_perm (fields : Fields) : fields.stored.Perm fields := List.perm_insertionSort _ _

/-! ## Reading a field -/

/-- A text field; one that is missing is empty. -/
def readStr : Option Scalar → Option (List Char)
  | none => some []
  | some (.str s) => some s
  | some (.num _) => none

/-- An integer field of a type with bounds; one that is missing is zero. -/
def readInt (low high : Int) : Option Scalar → Option Int
  | none => some 0
  | some (.num n) => if low ≤ n ∧ n < high then some n else none
  | some (.str _) => none

def readNat (bits : Nat) (field : Option Scalar) : Option Nat :=
  (readInt 0 (2 ^ bits) field).map Int.toNat

theorem get_eq_some {fields : Fields} (h : fields.keys.Nodup) {key : List Char} {value : Scalar} :
    fields.get key = some value ↔ (key, value) ∈ fields := by
  induction fields with
  | nil => simp [get]
  | cons field fields ih =>
      obtain ⟨hnot, hrest⟩ := List.nodup_cons.mp h
      unfold get at ih ⊢
      rw [List.find?_cons]
      by_cases hkey : field.1 = key
      · subst hkey
        have hother : (field.1, value) ∉ fields := fun hmem =>
          hnot (List.mem_map.mpr ⟨_, hmem, rfl⟩)
        simp only [beq_self_eq_true, Option.map_some, Option.some.injEq, List.mem_cons, hother,
          or_false]
        constructor
        · intro hvalue
          rw [← hvalue]
        · intro heq
          rw [← heq]
      · rw [beq_eq_false_iff_ne.mpr hkey, ih hrest, List.mem_cons]
        constructor
        · exact Or.inr
        · rintro (heq | hmem)
          · exact absurd (congrArg Prod.fst heq).symm hkey
          · exact hmem

/-- The order of the fields does not matter to a reader. -/
theorem get_of_perm {fields fields' : Fields} (hperm : fields.Perm fields')
    (h : fields.keys.Nodup) (key : List Char) : fields.get key = fields'.get key := by
  have h' : fields'.keys.Nodup := (hperm.map Prod.fst).nodup_iff.mp h
  apply Option.ext
  intro value
  rw [get_eq_some h, get_eq_some h', hperm.mem_iff]

theorem get_omitEmpty {fields : Fields} (h : fields.keys.Nodup) (key : List Char) :
    fields.omitEmpty.get key = (fields.get key).filter fun value => !value.isZero := by
  have hsub : fields.omitEmpty.keys.Nodup := h.sublist (List.filter_sublist.map _)
  apply Option.ext
  intro value
  rw [get_eq_some hsub, Option.filter_eq_some_iff, get_eq_some h, omitEmpty, List.mem_filter]

theorem nodup_omitEmpty {fields : Fields} (h : fields.keys.Nodup) : fields.omitEmpty.keys.Nodup :=
  h.sublist (List.filter_sublist.map _)

theorem nodup_stored {fields : Fields} (h : fields.keys.Nodup) : fields.stored.keys.Nodup :=
  (fields.stored_perm.map Prod.fst).nodup_iff.mpr h

/-- What is read of a stored object is what is read of it before fields were omitted. -/
theorem get_stored {fields : Fields} (h : fields.keys.Nodup) (key : List Char) :
    fields.omitEmpty.stored.get key = (fields.get key).filter fun value => !value.isZero := by
  rw [get_of_perm (stored_perm _) (nodup_stored (nodup_omitEmpty h)), get_omitEmpty h]

@[simp] theorem readStr_filter (s : List Char) :
    readStr ((some (Scalar.str s)).filter fun value => !value.isZero) = some s := by
  cases s <;> rfl

theorem readInt_filter {low high n : Int} (hlow : low ≤ n) (hhigh : n < high) :
    readInt low high ((some (Scalar.num n)).filter fun value => !value.isZero) = some n := by
  by_cases hzero : n = 0
  · subst hzero
    rfl
  · have hkept : (!(Scalar.num n).isZero) = true := by simp [Scalar.isZero, hzero]
    rw [Option.filter_some, if_pos hkept]
    exact if_pos ⟨hlow, hhigh⟩

theorem readNat_filter {bits n : Nat} (h : n < 2 ^ bits) :
    readNat bits ((some (Scalar.num n)).filter fun value => !value.isZero) = some n := by
  have hlow : (0 : Int) ≤ n := Int.natCast_nonneg n
  have hhigh : (n : Int) < 2 ^ bits := by exact_mod_cast h
  rw [readNat, readInt_filter hlow hhigh, Option.map_some, Int.toNat_natCast]

end Fields

end PrismBackend.Lib
