import Mathlib.Data.Nat.Digits.Defs

/-!
# Decimal numbers

A number written in decimal digits. Without leading zeros there is one way to
write a number.
-/

namespace PrismBackend.Lib

def digitValue (c : Char) : Nat := c.toNat - '0'.toNat

def decimalValue (s : List Char) : Nat := Nat.ofDigits 10 (s.reverse.map digitValue)

/-- No leading zero, unless it is the whole text. -/
structure PlainNumber (s : List Char) : Prop where
  digits : ∀ c ∈ s, c.isDigit = true
  nonempty : s ≠ []
  plain : s = ['0'] ∨ s.head? ≠ some '0'

theorem isDigit_bounds {c : Char} (h : c.isDigit = true) : 48 ≤ c.toNat ∧ c.toNat ≤ 57 := by
  unfold Char.isDigit at h
  rw [Bool.and_eq_true, decide_eq_true_iff, decide_eq_true_iff] at h
  exact ⟨UInt32.le_iff_toNat_le.mp h.1, UInt32.le_iff_toNat_le.mp h.2⟩

theorem digitValue_lt {c : Char} (h : c.isDigit = true) : digitValue c < 10 := by
  have hbounds := isDigit_bounds h
  have hzero : '0'.toNat = 48 := rfl
  unfold digitValue
  omega

theorem digitValue_inj {c d : Char} (hc : c.isDigit = true) (hd : d.isDigit = true)
    (h : digitValue c = digitValue d) : c = d := by
  have hcBounds := isDigit_bounds hc
  have hdBounds := isDigit_bounds hd
  have hzero : '0'.toNat = 48 := rfl
  have hnat : c.toNat = d.toNat := by
    unfold digitValue at h
    omega
  exact Char.toNat_inj.mp hnat

variable {s t : List Char}

theorem eq_of_map_digitValue (hs : ∀ c ∈ s, c.isDigit = true) (ht : ∀ c ∈ t, c.isDigit = true)
    (h : s.map digitValue = t.map digitValue) : s = t := by
  induction s generalizing t with
  | nil => exact (List.map_eq_nil_iff.mp h.symm).symm
  | cons c s ih =>
      cases t with
      | nil => exact absurd h (by simp)
      | cons d t =>
          rw [List.map_cons, List.map_cons, List.cons.injEq] at h
          rw [List.forall_mem_cons] at hs ht
          have hhead : c = d := digitValue_inj hs.1 ht.1 h.1
          have htail : s = t := ih hs.2 ht.2 h.2
          rw [hhead, htail]

theorem mem_digits_lt (h : ∀ c ∈ s, c.isDigit = true) :
    ∀ digit ∈ s.reverse.map digitValue, digit < 10 := by
  intro digit hdigit
  obtain ⟨c, hc, rfl⟩ := List.mem_map.mp hdigit
  exact digitValue_lt (h c (List.mem_reverse.mp hc))

/-- A number that does not start with a zero has the digits that are written. -/
theorem PlainNumber.digits_decimalValue (h : PlainNumber s) (hhead : s.head? ≠ some '0') :
    Nat.digits 10 (decimalValue s) = s.reverse.map digitValue := by
  apply Nat.digits_ofDigits 10 (by norm_num) _ (mem_digits_lt h.digits)
  intro hnonempty hlast
  cases s with
  | nil => exact h.nonempty rfl
  | cons c s =>
      have hdigit := h.digits c (List.mem_cons_self ..)
      have hzero : digitValue c = 0 := by simpa using hlast
      have hc : c = '0' := digitValue_inj hdigit rfl hzero
      exact hhead (congrArg some hc)

theorem PlainNumber.decimalValue_ne_zero (h : PlainNumber s) (hhead : s.head? ≠ some '0') :
    decimalValue s ≠ 0 := by
  intro hzero
  have hdigits := h.digits_decimalValue hhead
  rw [hzero, Nat.digits_zero] at hdigits
  have hempty : s.reverse = [] := List.map_eq_nil_iff.mp hdigits.symm
  exact h.nonempty (List.reverse_eq_nil_iff.mp hempty)

theorem PlainNumber.eq_of_decimalValue (hs : PlainNumber s) (ht : PlainNumber t)
    (h : decimalValue s = decimalValue t) : s = t := by
  have hvalue : decimalValue ['0'] = 0 := rfl
  rcases hs.plain with hzero | hheadS
  · rcases ht.plain with hzero' | hheadT
    · rw [hzero, hzero']
    · exact absurd (by rw [← h, hzero, hvalue]) (ht.decimalValue_ne_zero hheadT)
  rcases ht.plain with hzero' | hheadT
  · exact absurd (by rw [h, hzero', hvalue]) (hs.decimalValue_ne_zero hheadS)
  have hdigits : s.reverse.map digitValue = t.reverse.map digitValue := by
    rw [← hs.digits_decimalValue hheadS, ← ht.digits_decimalValue hheadT, h]
  rw [List.map_reverse, List.map_reverse, List.reverse_inj] at hdigits
  exact eq_of_map_digitValue hs.digits ht.digits hdigits

end PrismBackend.Lib
