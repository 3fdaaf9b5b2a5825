import PrismBackend.Api.Orders

/-!
# API: spellings of a UUID

A UUID has many spellings, one for each choice of the case of its digits, and
two spellings of one UUID agree in lower case. The database and the UUID package
write the one in lower case.
-/

namespace PrismBackend.Api

open PrismBackend.Lib PrismBackend.Clob PrismBackend.PrismV2

def uuidValue (s : Str) : Option Nat := hexNat (uuidDigits s)

/-- `uuid.String` writes the digits in lower case. -/
def Uuid.WritesHex (uuid : Uuid) : Prop := ∀ u, uuid.string u = uuidText u

theorem sampleUuid_writesHex : sampleUuid.WritesHex := fun _ => rfl

/-- The pattern of a UUID of any version, digits of either case. -/
def uuidPattern : List (Char → Bool) :=
  List.replicate 8 isHexDigit ++ isDash :: List.replicate 4 isHexDigit ++
    isDash :: List.replicate 4 isHexDigit ++ isDash :: List.replicate 4 isHexDigit ++
    isDash :: List.replicate 12 isHexDigit

def isUuid (s : Str) : Bool := matchesPattern uuidPattern s

/-! ## Groups of digits -/

def uuidGroups (digits : Str) : Str :=
  digits.take 8 ++ '-' :: ((digits.drop 8).take 4 ++ '-' :: ((digits.drop 12).take 4 ++
    '-' :: ((digits.drop 16).take 4 ++ '-' :: digits.drop 20)))

theorem matchesPattern_append {pattern pattern' : List (Char → Bool)} {s : Str}
    (h : matchesPattern (pattern ++ pattern') s = true) :
    ∃ t t', s = t ++ t' ∧ matchesPattern pattern t = true ∧ matchesPattern pattern' t' = true := by
  induction pattern generalizing s with
  | nil => exact ⟨[], s, rfl, rfl, h⟩
  | cons cls pattern ih =>
      cases s with
      | nil => exact absurd h (by simp [matchesPattern])
      | cons ch s =>
          rw [List.cons_append, matchesPattern, Bool.and_eq_true] at h
          obtain ⟨t, t', rfl, ht, ht'⟩ := ih h.2
          refine ⟨ch :: t, t', rfl, ?_, ht'⟩
          rw [matchesPattern, h.1, ht, Bool.and_self]

/-- A text of classes without the dash has as many digits as classes. -/
theorem matchesPattern_digits {pattern : List (Char → Bool)} {s : Str}
    (hpattern : ∀ cls ∈ pattern, cls '-' = false) (h : matchesPattern pattern s = true) :
    uuidDigits s = s ∧ s.length = pattern.length := by
  induction pattern generalizing s with
  | nil =>
      cases s with
      | nil => exact ⟨rfl, rfl⟩
      | cons ch s => exact absurd h (by simp [matchesPattern])
  | cons cls pattern ih =>
      cases s with
      | nil => exact absurd h (by simp [matchesPattern])
      | cons ch s =>
          rw [matchesPattern, Bool.and_eq_true] at h
          obtain ⟨hdigits, hlength⟩ :=
            ih (fun cls' hmem => hpattern cls' (List.mem_cons_of_mem _ hmem)) h.2
          have hdash : ch ≠ '-' := by
            rintro rfl
            exact absurd ((hpattern cls List.mem_cons_self).symm.trans h.1) (by decide)
          refine ⟨?_, congrArg (· + 1) hlength⟩
          rw [uuidDigits, List.filter_cons_of_pos (by simpa using hdash)]
          exact congrArg (ch :: ·) hdigits

theorem matchesPattern_dash {pattern : List (Char → Bool)} {s : Str}
    (h : matchesPattern (isDash :: pattern) s = true) :
    ∃ t, s = '-' :: t ∧ matchesPattern pattern t = true := by
  cases s with
  | nil => exact absurd h (by simp [matchesPattern])
  | cons ch t =>
      rw [matchesPattern, Bool.and_eq_true, isDash, beq_iff_eq] at h
      exact ⟨t, by rw [h.1], h.2⟩

theorem isHexDigit_replicate (n : Nat) : ∀ cls ∈ List.replicate n isHexDigit, cls '-' = false := by
  intro cls hcls
  rw [List.eq_of_mem_replicate hcls]
  decide

theorem uuidGroups_of_isUuid {s : Str} (h : isUuid s = true) : uuidGroups (uuidDigits s) = s := by
  have hpattern : uuidPattern = List.replicate 8 isHexDigit ++
      (isDash :: (List.replicate 4 isHexDigit ++ (isDash :: (List.replicate 4 isHexDigit ++
        (isDash :: (List.replicate 4 isHexDigit ++
          (isDash :: List.replicate 12 isHexDigit))))))) := rfl
  rw [isUuid, hpattern] at h
  obtain ⟨a, s, rfl, ha, h⟩ := matchesPattern_append h
  obtain ⟨s, rfl, h⟩ := matchesPattern_dash h
  obtain ⟨b, s, rfl, hb, h⟩ := matchesPattern_append h
  obtain ⟨s, rfl, h⟩ := matchesPattern_dash h
  obtain ⟨c, s, rfl, hc, h⟩ := matchesPattern_append h
  obtain ⟨s, rfl, h⟩ := matchesPattern_dash h
  obtain ⟨d, s, rfl, hd, h⟩ := matchesPattern_append h
  obtain ⟨e, rfl, he⟩ := matchesPattern_dash h
  obtain ⟨hdigitsA, hlengthA⟩ := matchesPattern_digits (isHexDigit_replicate 8) ha
  obtain ⟨hdigitsB, hlengthB⟩ := matchesPattern_digits (isHexDigit_replicate 4) hb
  obtain ⟨hdigitsC, hlengthC⟩ := matchesPattern_digits (isHexDigit_replicate 4) hc
  obtain ⟨hdigitsD, hlengthD⟩ := matchesPattern_digits (isHexDigit_replicate 4) hd
  obtain ⟨hdigitsE, _⟩ := matchesPattern_digits (isHexDigit_replicate 12) he
  rw [List.length_replicate] at hlengthA hlengthB hlengthC hlengthD
  simp only [uuidDigits_append, uuidDigits_dash, hdigitsA, hdigitsB, hdigitsC, hdigitsD, hdigitsE]
  have hdrop12 : (a ++ (b ++ (c ++ (d ++ e)))).drop 12 = c ++ (d ++ e) := by
    rw [← List.append_assoc a b, List.drop_left' (by rw [List.length_append, hlengthA, hlengthB])]
  have hdrop16 : (a ++ (b ++ (c ++ (d ++ e)))).drop 16 = d ++ e := by
    rw [← List.drop_drop (i := 4) (j := 12), hdrop12, List.drop_left' hlengthC]
  have hdrop20 : (a ++ (b ++ (c ++ (d ++ e)))).drop 20 = e := by
    rw [← List.drop_drop (i := 4) (j := 16), hdrop16, List.drop_left' hlengthD]
  rw [uuidGroups, hdrop12, hdrop16, hdrop20, List.take_left' hlengthA, List.drop_left' hlengthA,
    List.take_left' hlengthB, List.take_left' hlengthC, List.take_left' hlengthD]

/-- A text that matches a pattern matches every pattern of wider classes. -/
theorem matchesPattern_mono {pattern pattern' : List (Char → Bool)} {s : Str}
    (hclasses : List.Forall₂ (fun cls cls' => ∀ ch, cls ch = true → cls' ch = true)
      pattern pattern') (h : matchesPattern pattern s = true) :
    matchesPattern pattern' s = true := by
  induction hclasses generalizing s with
  | nil => exact h
  | cons hcls _ ih =>
      cases s with
      | nil => exact absurd h (by simp [matchesPattern])
      | cons ch s =>
          rw [matchesPattern, Bool.and_eq_true] at h ⊢
          exact ⟨hcls ch h.1, ih h.2⟩

theorem isUuid_of_isUuidV7 {s : Str} (h : isUuidV7 s = true) : isUuid s = true := by
  have hsame (cls : Char → Bool) : ∀ ch, cls ch = true → cls ch = true := fun _ => id
  have hreplicate (n : Nat) :
      List.Forall₂ (fun cls cls' => ∀ ch, cls ch = true → cls' ch = true)
        (List.replicate n isHexDigit) (List.replicate n isHexDigit) :=
    List.forall₂_same.mpr fun cls _ => hsame cls
  have hseven : ∀ ch, isSeven ch = true → isHexDigit ch = true := by
    intro ch hch
    rw [beq_iff_eq.mp hch]
    decide
  have hvariant : ∀ ch, isVariant ch = true → isHexDigit ch = true := fun _ h => isVariant_digit h
  apply matchesPattern_mono _ h
  refine List.rel_append (List.rel_append (List.rel_append (List.rel_append (hreplicate 8)
    (.cons (hsame isDash) (hreplicate 4))) (.cons (hsame isDash) (.cons hseven (hreplicate 3))))
    (.cons (hsame isDash) (.cons hvariant (hreplicate 3))))
    (.cons (hsame isDash) (hreplicate 12))

theorem uuidGroups_uuidDigits {s : Str} (h : isUuidV7 s = true) :
    uuidGroups (uuidDigits s) = s := uuidGroups_of_isUuid (isUuid_of_isUuidV7 h)

theorem uuidDigits_of_isUuid {s : Str} (h : isUuid s = true) :
    (uuidDigits s).length = 32 ∧ ∀ ch ∈ uuidDigits s, (hexDigit ch).isSome := by
  have hmem {cls : Char → Bool} (hcls : cls ∈ uuidPattern) : cls = isHexDigit ∨ cls = isDash := by
    simp only [uuidPattern, List.mem_append, List.mem_cons, List.mem_replicate] at hcls
    tauto
  apply uuidDigits_of_matches _ _ h
  · intro cls hcls hdash
    rcases hmem hcls with rfl | rfl
    · exact absurd hdash (by decide)
    · rfl
  · intro cls hcls ch hch hdash
    rcases hmem hcls with rfl | rfl
    · exact hch
    · exact absurd (by simpa [isDash] using hch) hdash

theorem toAsciiLowercase_uuidGroups (digits : Str) :
    toAsciiLowercase (uuidGroups digits) = uuidGroups (toAsciiLowercase digits) := by
  have hdash : Char.toLower '-' = '-' := rfl
  simp only [toAsciiLowercase, uuidGroups, List.map_append, List.map_cons, List.map_take,
    List.map_drop, hdash]

/-! ## Spellings -/

theorem toAsciiLowercase_idem (s : Str) :
    toAsciiLowercase (toAsciiLowercase s) = toAsciiLowercase s := by
  rw [toAsciiLowercase, toAsciiLowercase, List.map_map]
  exact List.map_congr_left fun ch _ => toLower_toLower ch

theorem matchesPattern_lowercase {pattern : List (Char → Bool)} {s : Str}
    (hpattern : ∀ cls ∈ pattern, ∀ ch, cls ch = true → cls ch.toLower = true)
    (h : matchesPattern pattern s = true) : matchesPattern pattern (toAsciiLowercase s) = true := by
  induction pattern generalizing s with
  | nil =>
      cases s with
      | nil => rfl
      | cons ch s => exact absurd h (by simp [matchesPattern])
  | cons cls pattern ih =>
      cases s with
      | nil => exact absurd h (by simp [matchesPattern])
      | cons ch s =>
          rw [matchesPattern, Bool.and_eq_true] at h
          have hrest := ih (fun cls' hmem => hpattern cls' (List.mem_cons_of_mem _ hmem)) h.2
          show (cls ch.toLower && matchesPattern pattern (toAsciiLowercase s)) = true
          rw [hpattern cls List.mem_cons_self ch h.1, hrest, Bool.and_self]

theorem isUuidV7_lowercase {s : Str} (h : isUuidV7 s = true) :
    isUuidV7 (toAsciiLowercase s) = true := by
  apply matchesPattern_lowercase _ h
  intro cls hcls ch hch
  rcases mem_uuidV7Pattern hcls with rfl | rfl | rfl | rfl
  · rwa [isHexDigit, hexDigit_toLower]
  · rw [beq_iff_eq.mp hch]
    decide
  · rw [beq_iff_eq.mp hch]
    decide
  · rwa [isVariant, toLower_toLower]

theorem toLower_hexDigits : ∀ d < 16, (Nat.digitChar d).toLower = Nat.digitChar d := by decide

theorem hexText_lowercase (width n : Nat) :
    (hexText width n).map Char.toLower = hexText width n := by
  have hdigits : (Nat.toDigits 16 n).map Char.toLower = Nat.toDigits 16 n := by
    induction n using Nat.strongRecOn with
    | ind n ih =>
        rw [Nat.toDigits_eq_if (by decide)]
        split
        · next hlt => rw [List.map_singleton, toLower_hexDigits n hlt]
        · next hge =>
          rw [List.map_append, List.map_singleton, ih (n / 16) (by omega),
            toLower_hexDigits _ (Nat.mod_lt _ (by decide))]
  have hzero : Char.toLower '0' = '0' := rfl
  rw [hexText, List.map_append, List.map_replicate, hdigits, hzero]

theorem hexText_length {width n : Nat} (h : n < 16 ^ width) (hwidth : 0 < width) :
    (hexText width n).length = width := by
  have hdigits := (Nat.length_toDigits_le_iff (b := 16) (n := n) (by decide) hwidth).mpr h
  rw [hexText, List.length_append, List.length_replicate]
  omega

/-- What the UUID package makes of a UUIDv7 text is the text in lower case. -/
theorem Uuid.string_of_parse {uuid : Uuid} (hreads : uuid.ReadsHex) (hwrites : uuid.WritesHex)
    {s : Str} (hs : isUuidV7 s = true) {n : Uint128} (hn : uuid.parse s = .ok n) :
    uuid.string n = toAsciiLowercase s ∧ uuidValue s = some n.val := by
  obtain ⟨k, hk⟩ := hexNat_uuidDigits hs
  have heq : k = n := Except.ok.inj ((hreads s k hs hk).symm.trans hn)
  rw [heq] at hk
  have hlength : (hexText 32 n.val).length = (uuidDigits s).length :=
    (hexText_length (by simp) (by decide)).trans (uuidDigits_spec hs).1.symm
  have hdigits := map_toLower_eq_of_hexNat hlength (hexNat_hexText 32 n.val) hk
  rw [hexText_lowercase] at hdigits
  refine ⟨?_, hk⟩
  calc uuid.string n = uuidGroups (hexText 32 n.val) := hwrites n
    _ = uuidGroups (toAsciiLowercase (uuidDigits s)) := congrArg uuidGroups hdigits
    _ = toAsciiLowercase s := by rw [← toAsciiLowercase_uuidGroups, uuidGroups_uuidDigits hs]

end PrismBackend.Api
