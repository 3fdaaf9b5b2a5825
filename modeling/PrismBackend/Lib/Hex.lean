import Mathlib.Data.Nat.Digits.Defs
import Mathlib.Data.Option.Basic
import PrismBackend.Lib.Abi

/-!
# Hexadecimal text

Reading a number from hexadecimal digits of either case, most significant digit
first. Two texts of one length that read as the same number differ in case only.
-/

namespace PrismBackend.Lib

def hexDigits : List Char :=
  ['0', '1', '2', '3', '4', '5', '6', '7', '8', '9', 'a', 'b', 'c', 'd', 'e', 'f']

def hexDigit (ch : Char) : Option Nat := hexDigits.idxOf? ch.toLower

/-- The values of all digits, or nothing when some character is not a digit. -/
def hexValues : List Char → Option (List Nat)
  | [] => some []
  | ch :: text => do
    let d ← hexDigit ch
    let ds ← hexValues text
    return d :: ds

def hexNat (text : List Char) : Option Nat :=
  (hexValues text).map fun ds => Nat.ofDigits 16 ds.reverse

/-- The digits of a number in lower case, with zeros in front up to a width. -/
def hexText (width n : Nat) : List Char :=
  let digits := Nat.toDigits 16 n
  List.replicate (width - digits.length) '0' ++ digits

def hexBytes : List Char → Option (List UInt8)
  | [] => some []
  | [_] => none
  | high :: low :: text => do
    let h ← hexDigit high
    let l ← hexDigit low
    let bytes ← hexBytes text
    return UInt8.ofNat (h * 16 + l) :: bytes

/-! ## Digits -/

theorem toLower_toLower (ch : Char) : ch.toLower.toLower = ch.toLower := by
  unfold Char.toLower
  split
  · next h =>
    rw [dif_neg]
    simp only [UInt32.le_iff_toNat_le, ge_iff_le, UInt32.toNat_add] at h ⊢
    have hlow : 'A'.val.toNat = 65 := rfl
    have hhigh : 'Z'.val.toNat = 90 := rfl
    have hshift : ('a'.val - 'A'.val).toNat = 32 := rfl
    omega
  · rfl

theorem hexDigit_toLower (ch : Char) : hexDigit ch.toLower = hexDigit ch := by
  unfold hexDigit
  rw [toLower_toLower]

theorem hexDigit_eq_some {ch : Char} {d : Nat} (h : hexDigit ch = some d) :
    d < 16 ∧ hexDigits[d]? = some ch.toLower := by
  obtain ⟨hlt, heq, _⟩ := List.idxOf?_eq_some_iff.mp h
  refine ⟨hlt, ?_⟩
  rw [List.getElem?_eq_getElem hlt, heq]

/-! ## Texts -/

theorem hexValues_cons_eq_some {ch : Char} {text : List Char} {ds : List Nat} :
    hexValues (ch :: text) = some ds ↔
      ∃ d ds', hexDigit ch = some d ∧ hexValues text = some ds' ∧ ds = d :: ds' := by
  simp only [hexValues, Option.bind_eq_bind, Option.bind_eq_some_iff, Option.pure_def,
    Option.some.injEq]
  constructor
  · intro h
    obtain ⟨d, hd, ds', hds', rfl⟩ := h
    exact ⟨d, ds', hd, hds', rfl⟩
  · intro h
    obtain ⟨d, ds', hd, hds', rfl⟩ := h
    exact ⟨d, hd, ds', hds', rfl⟩

theorem hexValues_spec {text : List Char} {ds : List Nat} (h : hexValues text = some ds) :
    ds.length = text.length ∧ (∀ d ∈ ds, d < 16) ∧
      ds.map (hexDigits[·]?) = text.map fun ch => some ch.toLower := by
  induction text generalizing ds with
  | nil =>
      rw [hexValues, Option.some.injEq] at h
      subst h
      exact ⟨rfl, fun d hd => absurd hd List.not_mem_nil, rfl⟩
  | cons ch text ih =>
      obtain ⟨d, ds', hd, hds', rfl⟩ := hexValues_cons_eq_some.mp h
      obtain ⟨hlength, hlt, hmap⟩ := ih hds'
      obtain ⟨hdigit, hchar⟩ := hexDigit_eq_some hd
      refine ⟨congrArg Nat.succ hlength, ?_, ?_⟩
      · intro d' hd'
        rcases List.mem_cons.mp hd' with rfl | hd'
        · exact hdigit
        · exact hlt d' hd'
      · rw [List.map_cons, List.map_cons, hchar, hmap]

theorem hexValues_map_toLower (text : List Char) :
    hexValues (text.map Char.toLower) = hexValues text := by
  induction text with
  | nil => rfl
  | cons ch text ih =>
      rw [List.map_cons]
      simp only [hexValues, hexDigit_toLower, ih]

theorem hexNat_map_toLower (text : List Char) : hexNat (text.map Char.toLower) = hexNat text := by
  unfold hexNat
  rw [hexValues_map_toLower]

theorem hexNat_lt {text : List Char} {n : Nat} (h : hexNat text = some n) :
    n < 16 ^ text.length := by
  obtain ⟨ds, hds, rfl⟩ := Option.map_eq_some_iff.mp h
  obtain ⟨hlength, hlt, _⟩ := hexValues_spec hds
  have hbound := Nat.ofDigits_lt_base_pow_length (b := 16) (l := ds.reverse) (by decide)
    fun d hd => hlt d (List.mem_reverse.mp hd)
  rwa [List.length_reverse, hlength] at hbound

theorem hexNat_isSome {text : List Char} (h : ∀ ch ∈ text, (hexDigit ch).isSome) :
    ∃ n, hexNat text = some n := by
  suffices hvalues : ∃ ds, hexValues text = some ds by
    obtain ⟨ds, hds⟩ := hvalues
    exact ⟨_, by rw [hexNat, hds]; rfl⟩
  induction text with
  | nil => exact ⟨[], rfl⟩
  | cons ch text ih =>
      obtain ⟨d, hd⟩ := Option.isSome_iff_exists.mp (h ch List.mem_cons_self)
      obtain ⟨ds, hds⟩ := ih fun ch' hch' => h ch' (List.mem_cons_of_mem _ hch')
      exact ⟨d :: ds, hexValues_cons_eq_some.mpr ⟨d, ds, hd, hds, rfl⟩⟩

/-- Reading is injective on texts of one length, up to case. -/
theorem map_toLower_eq_of_hexNat {text text' : List Char} {n : Nat}
    (hlength : text.length = text'.length) (h : hexNat text = some n)
    (h' : hexNat text' = some n) : text.map Char.toLower = text'.map Char.toLower := by
  obtain ⟨ds, hds, hn⟩ := Option.map_eq_some_iff.mp h
  obtain ⟨ds', hds', hn'⟩ := Option.map_eq_some_iff.mp h'
  obtain ⟨hlen, hlt, hmap⟩ := hexValues_spec hds
  obtain ⟨hlen', hlt', hmap'⟩ := hexValues_spec hds'
  have hreverse : ds.reverse = ds'.reverse := by
    apply Nat.ofDigits_inj_of_len_eq (b := 16) (by decide)
    · rw [List.length_reverse, List.length_reverse, hlen, hlen', hlength]
    · intro d hd
      exact hlt d (List.mem_reverse.mp hd)
    · intro d hd
      exact hlt' d (List.mem_reverse.mp hd)
    · exact hn.trans hn'.symm
  have hsome : (text.map Char.toLower).map some = (text'.map Char.toLower).map some := by
    calc (text.map Char.toLower).map some = ds.map (hexDigits[·]?) := by
          rw [hmap, List.map_map]
          rfl
      _ = ds'.map (hexDigits[·]?) := by rw [List.reverse_inj.mp hreverse]
      _ = (text'.map Char.toLower).map some := by
          rw [hmap', List.map_map]
          rfl
  exact (List.map_inj_right fun _ _ => Option.some.inj).mp hsome

/-! ## Writing -/

theorem hexValues_append {text text' : List Char} {ds ds' : List Nat}
    (h : hexValues text = some ds) (h' : hexValues text' = some ds') :
    hexValues (text ++ text') = some (ds ++ ds') := by
  induction text generalizing ds with
  | nil =>
      rw [hexValues, Option.some.injEq] at h
      subst h
      exact h'
  | cons ch text ih =>
      obtain ⟨d, rest, hd, hrest, rfl⟩ := hexValues_cons_eq_some.mp h
      exact hexValues_cons_eq_some.mpr ⟨d, rest ++ ds', hd, ih hrest, rfl⟩

theorem hexDigit_digitChar : ∀ d < 16, hexDigit (Nat.digitChar d) = some d := by decide

theorem hexNat_concat {text : List Char} {n d : Nat} (h : hexNat text = some n) (hd : d < 16) :
    hexNat (text ++ [Nat.digitChar d]) = some (d + 16 * n) := by
  obtain ⟨ds, hds, rfl⟩ := Option.map_eq_some_iff.mp h
  have hlast : hexValues [Nat.digitChar d] = some [d] :=
    hexValues_cons_eq_some.mpr ⟨d, [], hexDigit_digitChar d hd, rfl, rfl⟩
  rw [hexNat, hexValues_append hds hlast, Option.map_some, List.reverse_append,
    List.reverse_singleton, List.singleton_append, Nat.ofDigits_cons]

theorem hexNat_toDigits (n : Nat) : hexNat (Nat.toDigits 16 n) = some n := by
  induction n using Nat.strongRecOn with
  | ind n ih =>
      rw [Nat.toDigits_eq_if (by decide)]
      split
      · next hlt =>
        have hnone : hexNat [] = some 0 := rfl
        have hdigit := hexNat_concat hnone hlt
        simpa using hdigit
      · next hge =>
        have hdiv := ih (n / 16) (by omega)
        rw [hexNat_concat hdiv (by omega)]
        congr 1
        omega

theorem hexValues_zeros (k : Nat) :
    hexValues (List.replicate k '0') = some (List.replicate k 0) := by
  induction k with
  | zero => rfl
  | succ k ih => exact hexValues_cons_eq_some.mpr ⟨0, _, by decide, ih, rfl⟩

theorem hexNat_hexText (width n : Nat) : hexNat (hexText width n) = some n := by
  obtain ⟨ds, hds, hn⟩ := Option.map_eq_some_iff.mp (hexNat_toDigits n)
  rw [hexNat, hexText, hexValues_append (hexValues_zeros _) hds, Option.map_some,
    List.reverse_append, List.reverse_replicate, Nat.ofDigits_append_replicate_zero, hn]

theorem hexText_injective (width : Nat) : Function.Injective (hexText width) := by
  intro n k h
  have hread := hexNat_hexText width n
  rw [h, hexNat_hexText] at hread
  exact (Option.some.inj hread).symm

/-- Every character of a text that reads as a number is a digit. -/
theorem isSome_of_hexNat {text : List Char} {n : Nat} (h : hexNat text = some n) :
    ∀ ch ∈ text, (hexDigit ch).isSome := by
  obtain ⟨ds, hds, hn⟩ := Option.map_eq_some_iff.mp h
  clear h hn
  induction text generalizing ds with
  | nil => exact fun ch hch => absurd hch List.not_mem_nil
  | cons first text ih =>
      obtain ⟨d, rest, hd, hrest, rfl⟩ := hexValues_cons_eq_some.mp hds
      intro ch hch
      rcases List.mem_cons.mp hch with rfl | hch
      · rw [hd]
        rfl
      · exact ih rest hrest ch hch

/-! ## Bytes -/

theorem hexNat_cons {ch : Char} {text : List Char} {d n : Nat} (hd : hexDigit ch = some d)
    (hn : hexNat text = some n) : hexNat (ch :: text) = some (d * 16 ^ text.length + n) := by
  obtain ⟨ds, hds, rfl⟩ := Option.map_eq_some_iff.mp hn
  have hlength := (hexValues_spec hds).1
  rw [hexNat, hexValues_cons_eq_some.mpr ⟨d, ds, hd, hds, rfl⟩, Option.map_some,
    List.reverse_cons, Nat.ofDigits_append, Nat.ofDigits_singleton, List.length_reverse, hlength,
    Nat.mul_comm, Nat.add_comm]

theorem hexBytes_isSome {k : Nat} {text : List Char} (hlength : text.length = 2 * k)
    (h : ∀ ch ∈ text, (hexDigit ch).isSome) : ∃ bytes, hexBytes text = some bytes := by
  induction text using hexBytes.induct generalizing k with
  | case1 => exact ⟨[], rfl⟩
  | case2 =>
      rw [List.length_singleton] at hlength
      omega
  | case3 high low text ih =>
      simp only [List.forall_mem_cons] at h
      obtain ⟨hhigh, hlow, hrest⟩ := h
      simp only [List.length_cons] at hlength
      obtain ⟨d, hd⟩ := Option.isSome_iff_exists.mp hhigh
      obtain ⟨e, he⟩ := Option.isSome_iff_exists.mp hlow
      obtain ⟨bytes, hbytes⟩ := ih (k := k - 1) (by omega) hrest
      exact ⟨_, by rw [hexBytes, hd, he, hbytes]; rfl⟩

/-- Pairs of digits spell the same number as bytes and as a text. -/
theorem hexNat_of_hexBytes {text : List Char} {bytes : List UInt8}
    (h : hexBytes text = some bytes) :
    text.length = 2 * bytes.length ∧ hexNat text = some (Abi.beNat bytes) := by
  induction text using hexBytes.induct generalizing bytes with
  | case1 =>
      rw [hexBytes, Option.some.injEq] at h
      subst h
      exact ⟨rfl, rfl⟩
  | case2 => exact absurd h (by simp [hexBytes])
  | case3 high low text ih =>
      simp only [hexBytes, Option.bind_eq_bind, Option.bind_eq_some_iff, Option.pure_def,
        Option.some.injEq] at h
      obtain ⟨d, hd, e, he, rest, hrest, rfl⟩ := h
      obtain ⟨hlength, hn⟩ := ih hrest
      have hdlt := (hexDigit_eq_some hd).1
      have helt := (hexDigit_eq_some he).1
      have hbyte : (UInt8.ofNat (d * 16 + e)).toNat = d * 16 + e := by
        rw [UInt8.toNat_ofNat']
        omega
      have hpow : 16 ^ text.length = 256 ^ rest.length := by
        rw [hlength, Nat.pow_mul]
      constructor
      · rw [List.length_cons, List.length_cons, List.length_cons, hlength]
        omega
      · rw [hexNat_cons hd (hexNat_cons he hn), Abi.beNat_cons, hbyte, List.length_cons,
          Nat.pow_succ, hpow]
        congr 1
        ring


/-- `hex.EncodeToString`. -/
def hexEncode (bytes : List UInt8) : List Char := bytes.flatMap fun byte => hexText 2 byte.toNat

theorem hexText_byte {n : Nat} (h : n < 256) :
    hexText 2 n = [Nat.digitChar (n / 16), Nat.digitChar (n % 16)] := by
  rw [hexText]
  by_cases hsmall : n < 16
  · rw [Nat.toDigits_of_lt_base hsmall, Nat.div_eq_of_lt hsmall, Nat.mod_eq_of_lt hsmall]
    rfl
  · rw [Nat.toDigits_of_base_le (by decide) (by omega), Nat.toDigits_of_lt_base (by omega)]
    rfl

theorem hexBytes_hexEncode (bytes : List UInt8) : hexBytes (hexEncode bytes) = some bytes := by
  induction bytes with
  | nil => rfl
  | cons byte bytes ih =>
      have hlt := byte.toNat_lt
      have hbyte : UInt8.ofNat (byte.toNat / 16 * 16 + byte.toNat % 16) = byte := by
        rw [Nat.div_add_mod', UInt8.ofNat_toNat]
      rw [hexEncode, List.flatMap_cons, hexText_byte hlt, ← hexEncode]
      simp only [List.cons_append, List.nil_append, hexBytes]
      rw [hexDigit_digitChar _ (by omega), hexDigit_digitChar _ (by omega), ih]
      show some (UInt8.ofNat (byte.toNat / 16 * 16 + byte.toNat % 16) :: bytes) = _
      rw [hbyte]

end PrismBackend.Lib
