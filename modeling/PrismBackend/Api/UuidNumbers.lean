import PrismBackend.Api.Preimage
import PrismBackend.Api.Spelling

/-!
# API: the number of a UUID

The contract knows a market by a number of 128 bits. `Uuid7_to_bigint` and
`Bigint_to_uuid7` convert between the number and the text through `big.Int`; an
authorization carries the sixteen bytes, and the web client reads the text as a
literal of its own. All of them agree on the number.
-/

namespace PrismBackend.Api

open PrismBackend.Lib PrismBackend.Clob PrismBackend.PrismV2
open PrismBackend.Lib.Abi (beBytes beNat word words wordAt)

/-! ## `big.Int` -/

/-- The digits of a number in a base, up to 16. A separator stands after a digit or the prefix of
the base, and before a digit. -/
def scanDigits (base : Nat) : Bool → Nat → Str → Option Nat
  | afterDigit, value, [] => if afterDigit then some value else none
  | afterDigit, value, ch :: text =>
    if ch = '_' then
      if afterDigit then scanDigits base false value text else none
    else do
      let d ← hexDigit ch
      if d < base then scanDigits base true (value * base + d) text else none

def scanPrefixed (base : Nat) (text : Str) : Option Nat :=
  if text = [] then none else scanDigits base true 0 text

/-- `nat.scan` with base 0: the prefix decides the base, and a zero in front is one for octal. -/
def scanNat : Str → Option Nat
  | '0' :: mark :: text =>
    if mark.toLower = 'b' then scanPrefixed 2 text
    else if mark.toLower = 'o' then scanPrefixed 8 text
    else if mark.toLower = 'x' then scanPrefixed 16 text
    else scanDigits 8 true 0 (mark :: text)
  | text => scanDigits 10 false 0 text

/-- `big.Int.SetString` with base 0. -/
def bigSetString : Str → Option Int
  | '+' :: text => (scanNat text).map Int.ofNat
  | '-' :: text => (scanNat text).map fun value => -Int.ofNat value
  | text => (scanNat text).map Int.ofNat

/-- The format `%032x`: the sign counts in the width, and the zeros stand behind it. -/
def format032x (v : Int) : Str :=
  if v < 0 then '-' :: hexText 31 v.natAbs else hexText 32 v.natAbs

/-! ## The conversions -/

def uuid7ToBigint (uuid7 : Str) : Except String Int :=
  let uuid7Cleaned := uuidDigits uuid7
  match bigSetString ('0' :: 'x' :: uuid7Cleaned) with
  | some bigIntValue => .ok bigIntValue
  | none => .error "failed to convert UUID7 to big.Int"

def bigintToUuid7 (bigIntValue : Int) : Except String Str :=
  let hexString := format032x bigIntValue
  if hexString.length = 32 then .ok (uuidGroups hexString)
  else .error "bigIntValue does not represent a valid UUID7"

/-- `uuid.Parse` reads each pair of digits, of either case, into one of the sixteen bytes. -/
def Uuid.ReadsBytes (uuid : Uuid) : Prop :=
  ∀ s, isUuid s = true →
    ∃ id, uuid.parse s = .ok id ∧ hexBytes (uuidDigits s) = some (beBytes 16 id.val)

/-! ## From text to number -/

theorem scanDigits_hex {text : Str} {n : Nat} (h : hexNat text = some n) (value : Nat) :
    scanDigits 16 true value text = some (value * 16 ^ text.length + n) := by
  induction text generalizing value n with
  | nil =>
      have hzero : n = 0 := (Option.some.inj h).symm
      rw [hzero, scanDigits, if_pos rfl, List.length_nil, pow_zero, Nat.mul_one, Nat.add_zero]
  | cons ch text ih =>
      have hdigits := isSome_of_hexNat h
      obtain ⟨d, hd⟩ := Option.isSome_iff_exists.mp (hdigits ch List.mem_cons_self)
      obtain ⟨k, hk⟩ := hexNat_isSome fun ch' hch' => hdigits ch' (List.mem_cons_of_mem _ hch')
      have hn : d * 16 ^ text.length + k = n :=
        Option.some.inj ((hexNat_cons hd hk).symm.trans h)
      have hseparator : ch ≠ '_' := by
        intro heq
        have hnone : hexDigit '_' = none := by decide
        rw [heq, hnone] at hd
        exact absurd hd (by simp)
      rw [scanDigits, if_neg hseparator, hd, Option.bind_eq_bind, Option.bind_some,
        if_pos (hexDigit_eq_some hd).1, ih hk, List.length_cons, pow_succ, ← hn]
      congr 1
      ring

/-- Behind the prefix that `Uuid7_to_bigint` writes, digits are read in base 16. -/
theorem uuid7ToBigint_eq {s : Str} {n : Nat} (hdigits : uuidDigits s ≠ [])
    (h : hexNat (uuidDigits s) = some n) : uuid7ToBigint s = .ok n := by
  have hscan : bigSetString ('0' :: 'x' :: uuidDigits s) = some (n : Int) := by
    show (scanPrefixed 16 (uuidDigits s)).map Int.ofNat = some (n : Int)
    rw [scanPrefixed, if_neg hdigits, scanDigits_hex h, Nat.zero_mul, Nat.zero_add]
    rfl
  rw [uuid7ToBigint]
  simp only [hscan]

theorem hexNat_of_isUuid {s : Str} (h : isUuid s = true) :
    uuidDigits s ≠ [] ∧ ∃ n : Nat, n < 2 ^ 128 ∧ hexNat (uuidDigits s) = some n := by
  obtain ⟨hlength, hdigits⟩ := uuidDigits_of_isUuid h
  obtain ⟨n, hn⟩ := hexNat_isSome hdigits
  have hbound : n < 2 ^ 128 := by
    calc n < 16 ^ (uuidDigits s).length := hexNat_lt hn
      _ = 2 ^ 128 := by rw [hlength]; norm_num
  constructor
  · intro hnil
    rw [hnil, List.length_nil] at hlength
    omega
  · exact ⟨n, hbound, hn⟩

/-! ## From number to text -/

theorem format032x_nat (n : Nat) : format032x n = hexText 32 n := by
  rw [format032x, if_neg (by omega), Int.natAbs_natCast]

theorem bigintToUuid7_eq {n : Nat} (h : n < 2 ^ 128) :
    bigintToUuid7 n = .ok (uuidGroups (hexText 32 n)) := by
  have hlength : (hexText 32 n).length = 32 :=
    hexText_length (h.trans_eq (by norm_num)) (by decide)
  rw [bigintToUuid7, format032x_nat]
  exact if_pos hlength

theorem bigintToUuid7_large {n : Nat} (h : 2 ^ 128 ≤ n) :
    bigintToUuid7 n = .error "bigIntValue does not represent a valid UUID7" := by
  have hdigits : ¬(Nat.toDigits 16 n).length ≤ 32 := by
    rw [Nat.length_toDigits_le_iff (by decide) (by decide), not_lt]
    exact le_trans (by norm_num) h
  have hlength : (hexText 32 n).length ≠ 32 := by
    rw [hexText, List.length_append, List.length_replicate]
    omega
  rw [bigintToUuid7, format032x_nat]
  exact if_neg hlength

/-- The text of the number of a UUID text is that text in lower case. -/
theorem uuidGroups_hexText {s : Str} (h : isUuid s = true) {n : Nat}
    (hn : hexNat (uuidDigits s) = some n) (hbound : n < 2 ^ 128) :
    uuidGroups (hexText 32 n) = toAsciiLowercase s := by
  have hlength : (hexText 32 n).length = (uuidDigits s).length :=
    (hexText_length (hbound.trans_eq (by norm_num)) (by decide)).trans
      (uuidDigits_of_isUuid h).1.symm
  have hdigits := map_toLower_eq_of_hexNat hlength (hexNat_hexText 32 n) hn
  rw [hexText_lowercase] at hdigits
  calc uuidGroups (hexText 32 n) = uuidGroups (toAsciiLowercase (uuidDigits s)) :=
        congrArg uuidGroups hdigits
    _ = toAsciiLowercase s := by rw [← toAsciiLowercase_uuidGroups, uuidGroups_of_isUuid h]

theorem uuid7ToBigint_hexText {n : Nat} (h : n < 2 ^ 128) :
    uuid7ToBigint (uuidGroups (hexText 32 n)) = .ok n := by
  have hdigits : uuidDigits (uuidGroups (hexText 32 n)) = hexText 32 n :=
    uuidDigits_uuidText ⟨n, h⟩
  have hlength : (hexText 32 n).length = 32 :=
    hexText_length (h.trans_eq (by norm_num)) (by decide)
  apply uuid7ToBigint_eq
  · intro hnil
    rw [← hdigits, hnil] at hlength
    exact absurd hlength (by decide)
  · rw [hdigits, hexNat_hexText]

/-! ## The bytes -/

/-- The word of the market in `ABIEncode`. -/
theorem wordAt_marketId {a : AuthorizationV2} (hdeadline : a.deadline < 2 ^ 64) {encoded : Bytes}
    (h : a.abiEncode = .ok encoded) : wordAt encoded (4 * 32) = some a.marketId.val := by
  have hvalid : a.validate 0 = .ok () := by
    rw [AuthorizationV2.abiEncode, bind_ok_iff] at h
    obtain ⟨_, hchecks, _⟩ := h
    exact hchecks
  obtain ⟨x, hx, hrange, hencoded⟩ := abiEncode_eq hvalid hdeadline
  have hwords : encoded = words (tupleWords x) := Except.ok.inj (h.symm.trans hencoded)
  have hsplit : tupleWords x = [x.version, x.chainId, x.verifyingContract.val, x.signer.val] ++
      (x.marketId.val :: (tupleWords x).drop 5) := rfl
  have hlt : x.marketId.val < 2 ^ 256 := x.marketId.isLt.trans (by norm_num)
  have hread := Abi.wordAt_append (words [x.version, x.chainId, x.verifyingContract.val,
    x.signer.val]) (words ((tupleWords x).drop 5)) hlt
  rw [Abi.length_words] at hread
  rw [hwords, hsplit, words, List.flatMap_append, List.flatMap_cons,
    ← (decodes_of_decoded hx).marketId]
  exact hread

/-- The bytes that `uuid.Parse` reads are those of the number, most significant first. -/
theorem Uuid.ReadsBytes.parse {uuid : Uuid} (hreads : uuid.ReadsBytes) {s : Str}
    (h : isUuid s = true) {n : Nat} (hn : hexNat (uuidDigits s) = some n) :
    ∃ id, uuid.parse s = .ok id ∧ beNat (beBytes 16 id.val) = n ∧ id.val = n := by
  obtain ⟨id, hparse, hbytes⟩ := hreads s h
  have hvalue : beNat (beBytes 16 id.val) = n :=
    Option.some.inj ((hexNat_of_hexBytes hbytes).2.symm.trans hn)
  have hid : beNat (beBytes 16 id.val) = id.val :=
    Abi.beNat_beBytes (id.isLt.trans_eq (by norm_num))
  exact ⟨id, hparse, hvalue, hid.symm.trans hvalue⟩

/-! ## One number -/

structure NumberOf (uuid : Uuid) (s : Str) (n : Nat) : Prop where
  bigint : uuid7ToBigint s = .ok n
  text : bigintToUuid7 n = .ok (toAsciiLowercase s)
  literal : uuidToUint128 s = some n
  signed : (uuidToUint128 s).bind (coderUint 128) = some (word n)
  bytes : ∃ id, uuid.parse s = .ok id ∧ beNat (beBytes 16 id.val) = n ∧
    leftPad (beBytes 16 id.val) 32 = word n ∧
    ∀ (a : AuthorizationV2) (encoded : Bytes), a.marketId = id → a.deadline < 2 ^ 64 →
      a.abiEncode = .ok encoded → wordAt encoded (4 * 32) = some n

theorem numberOf_of_hexNat {uuid : Uuid} (hreads : uuid.ReadsBytes) {s : Str}
    (h : isUuid s = true) {n : Nat} (hn : hexNat (uuidDigits s) = some n)
    (hbound : n < 2 ^ 128) : NumberOf uuid s n := by
  have hdigits := (hexNat_of_isUuid h).1
  have hliteral : uuidToUint128 s = some n := by
    rw [uuidToUint128]
    exact (if_neg hdigits).trans hn
  obtain ⟨id, hparse, hvalue, hid⟩ := hreads.parse h hn
  constructor
  · exact uuid7ToBigint_eq hdigits hn
  · rw [bigintToUuid7_eq hbound, uuidGroups_hexText h hn hbound]
  · exact hliteral
  · rw [hliteral, Option.bind_some, coderUint_eq hbound]
  · refine ⟨id, hparse, hvalue, ?_, ?_⟩
    · rw [uuid_word, hid]
    · intro a encoded hmarket hdeadline hencoded
      rw [wordAt_marketId hdeadline hencoded, hmarket, hid]

/-- Every UUID text has one number for all programs, every number of 128 bits is that of a text,
and no larger number has one. -/
theorem uuid_uint128_agree {uuid : Uuid} (hreads : uuid.ReadsBytes) :
    (∀ s, isUuid s = true → ∃ n, n < 2 ^ 128 ∧ NumberOf uuid s n) ∧
      (∀ n : Nat, n < 2 ^ 128 → ∃ s, bigintToUuid7 n = .ok s ∧ uuid7ToBigint s = .ok n) ∧
      ∀ n : Nat, 2 ^ 128 ≤ n →
        bigintToUuid7 n = .error "bigIntValue does not represent a valid UUID7" := by
  refine ⟨?_, ?_, ?_⟩
  · intro s hs
    obtain ⟨_, n, hbound, hn⟩ := hexNat_of_isUuid hs
    exact ⟨n, hbound, numberOf_of_hexNat hreads hs hn hbound⟩
  · intro n hn
    exact ⟨uuidGroups (hexText 32 n), bigintToUuid7_eq hn, uuid7ToBigint_hexText hn⟩
  · intro n hn
    exact bigintToUuid7_large hn

theorem sampleUuid_readsBytes : sampleUuid.ReadsBytes := by
  intro s hs
  obtain ⟨_, n, hbound, hn⟩ := hexNat_of_isUuid hs
  obtain ⟨hlength, hdigits⟩ := uuidDigits_of_isUuid hs
  obtain ⟨bytes, hbytes⟩ := hexBytes_isSome (k := 16) hlength hdigits
  obtain ⟨hbytesLength, hvalue⟩ := hexNat_of_hexBytes hbytes
  have hcount : bytes.length = 16 := by omega
  have hbeNat : Abi.beNat bytes = n := Option.some.inj (hvalue.symm.trans hn)
  refine ⟨⟨n, hbound⟩, ?_, ?_⟩
  · show parseUuidText s = .ok _
    rw [parseUuidText, hn]
    exact dif_pos hbound
  · show hexBytes (uuidDigits s) = some (beBytes 16 n)
    rw [hbytes, ← hbeNat, ← hcount, Abi.beBytes_beNat]

theorem uuid_uint128_agree_sample :
    ∃ n, n < 2 ^ 128 ∧ NumberOf sampleUuid "019E221F-9322-7383-a038-6964c1a94b4e".toList n :=
  (uuid_uint128_agree sampleUuid_readsBytes).1 _ (by decide)

end PrismBackend.Api
