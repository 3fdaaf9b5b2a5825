import Mathlib.Data.List.Basic
import Mathlib.Data.List.Induction
import Mathlib.Tactic.NormNum
import Mathlib.Tactic.Ring

/-!
# The Solidity ABI

Arguments of a call are static words or dynamic bytes. The head of an encoding
holds the words and, for each dynamic argument, the offset of its place in the
tail: its length, its bytes and zeros up to a whole word. Decoding what was
encoded gives the arguments back.
-/

namespace PrismBackend.Lib.Abi

/-! ## Words -/

/-- The low bytes of a number, most significant first. -/
def beBytes : Nat → Nat → List UInt8
  | 0, _ => []
  | width + 1, n => beBytes width (n / 256) ++ [UInt8.ofNat n]

def beNat (bytes : List UInt8) : Nat :=
  bytes.foldl (fun value byte => value * 256 + byte.toNat) 0

def word (n : Nat) : List UInt8 := beBytes 32 n

theorem length_beBytes (width n : Nat) : (beBytes width n).length = width := by
  induction width generalizing n with
  | zero => rfl
  | succ width ih =>
      rw [beBytes, List.length_append, ih]
      rfl

@[simp] theorem length_word (n : Nat) : (word n).length = 32 := length_beBytes 32 n

theorem beNat_concat (bytes : List UInt8) (byte : UInt8) :
    beNat (bytes ++ [byte]) = beNat bytes * 256 + byte.toNat := by
  unfold beNat
  rw [List.foldl_append]
  rfl

theorem beNat_cons (byte : UInt8) (bytes : List UInt8) :
    beNat (byte :: bytes) = byte.toNat * 256 ^ bytes.length + beNat bytes := by
  induction bytes using List.reverseRecOn with
  | nil => simp [beNat]
  | append_singleton bytes last ih =>
      rw [← List.cons_append, beNat_concat, ih, beNat_concat, List.length_append,
        List.length_singleton, pow_succ]
      ring

theorem beNat_beBytes {width n : Nat} (h : n < 256 ^ width) : beNat (beBytes width n) = n := by
  induction width generalizing n with
  | zero =>
      rw [Nat.pow_zero] at h
      have hzero : n = 0 := by omega
      rw [hzero]
      rfl
  | succ width ih =>
      have hdiv : n / 256 < 256 ^ width := by
        apply Nat.div_lt_of_lt_mul
        calc n < 256 ^ (width + 1) := h
          _ = 256 * 256 ^ width := by ring
      have hbyte : (UInt8.ofNat n).toNat = n % 256 := by simp
      rw [beBytes, beNat_concat, ih hdiv, hbyte]
      omega

theorem beBytes_beNat (bytes : List UInt8) : beBytes bytes.length (beNat bytes) = bytes := by
  induction bytes using List.reverseRecOn with
  | nil => rfl
  | append_singleton bytes last ih =>
      have hlt := last.toNat_lt
      have hdiv : (beNat bytes * 256 + last.toNat) / 256 = beNat bytes := by omega
      have hbyte : UInt8.ofNat (beNat bytes * 256 + last.toNat) = last := by
        apply UInt8.toNat.inj
        rw [UInt8.toNat_ofNat']
        omega
      rw [List.length_append, List.length_singleton, beNat_concat, beBytes, hdiv, ih, hbyte]

theorem beNat_word {n : Nat} (h : n < 2 ^ 256) : beNat (word n) = n := by
  apply beNat_beBytes
  calc n < 2 ^ 256 := h
    _ = 256 ^ 32 := by norm_num

theorem beNat_lt (bytes : List UInt8) : beNat bytes < 256 ^ bytes.length := by
  induction bytes using List.reverseRecOn with
  | nil => exact Nat.one_pos
  | append_singleton bytes byte ih =>
      have hbyte := byte.toNat_lt
      rw [beNat_concat, List.length_append, List.length_singleton, Nat.pow_succ]
      omega

theorem beBytes_eq_map (width n : Nat) :
    beBytes width n = (List.range width).map fun i => UInt8.ofNat (n / 256 ^ (width - 1 - i)) := by
  induction width generalizing n with
  | zero => rfl
  | succ width ih =>
      rw [beBytes, ih, List.range_succ, List.map_append]
      congr 1
      · apply List.map_congr_left
        intro i hi
        rw [List.mem_range] at hi
        have hexponent : width + 1 - 1 - i = (width - 1 - i) + 1 := by omega
        rw [hexponent, Nat.div_div_eq_div_mul]
        congr 2
        ring
      · simp

theorem beBytes_add {k n : Nat} (width : Nat) (h : n < 256 ^ k) :
    beBytes (width + k) n = List.replicate width 0 ++ beBytes k n := by
  induction k generalizing n with
  | zero =>
      rw [Nat.pow_zero] at h
      have hzero : n = 0 := by omega
      subst hzero
      rw [Nat.add_zero, beBytes, List.append_nil]
      induction width with
      | zero => rfl
      | succ width ih =>
          rw [beBytes, Nat.zero_div, ih, List.replicate_succ']
          rfl
  | succ k ih =>
      have hdiv : n / 256 < 256 ^ k := by
        apply Nat.div_lt_of_lt_mul
        calc n < 256 ^ (k + 1) := h
          _ = 256 * 256 ^ k := by ring
      rw [← Nat.add_assoc, beBytes, ih hdiv, beBytes, List.append_assoc]

/-! ## Arguments -/

inductive Component
  | static (words : List Nat)
  | dynamic (bytes : List UInt8)
  deriving DecidableEq

inductive Shape
  | static (count : Nat)
  | dynamic
  deriving DecidableEq

def Component.shape : Component → Shape
  | .static words => .static words.length
  | .dynamic _ => .dynamic

def words (values : List Nat) : List UInt8 := values.flatMap word

/-- The bytes and zeros up to a whole word. -/
def padded (bytes : List UInt8) : List UInt8 :=
  bytes ++ List.replicate ((32 - bytes.length % 32) % 32) 0

def Component.tail : Component → List UInt8
  | .static _ => []
  | .dynamic bytes => word bytes.length ++ padded bytes

def Component.headSize : Component → Nat
  | .static values => 32 * values.length
  | .dynamic _ => 32

def headSize (args : List Component) : Nat := (args.map Component.headSize).sum

/-- The head, when the tail of the first argument starts at an offset. -/
def heads : Nat → List Component → List UInt8
  | _, [] => []
  | offset, .static values :: args => words values ++ heads offset args
  | offset, .dynamic bytes :: args =>
    word offset ++ heads (offset + (Component.dynamic bytes).tail.length) args

def tails (args : List Component) : List UInt8 := args.flatMap Component.tail

def encode (args : List Component) : List UInt8 := heads (headSize args) args ++ tails args

/-! ## Decoding -/

def wordAt (data : List UInt8) (pos : Nat) : Option Nat :=
  if pos + 32 ≤ data.length then some (beNat ((data.drop pos).take 32)) else none

def wordsAt (data : List UInt8) : Nat → Nat → Option (List Nat)
  | 0, _ => some []
  | count + 1, pos => do
    let first ← wordAt data pos
    let rest ← wordsAt data count (pos + 32)
    return first :: rest

def bytesAt (data : List UInt8) (pos : Nat) : Option (List UInt8) := do
  let length ← wordAt data pos
  if length < 2 ^ 64 ∧ pos + 32 + length ≤ data.length then
    some ((data.drop (pos + 32)).take length)
  else none

/-- Decode arguments of given shapes whose heads start at a position. -/
def decodeAt (data : List UInt8) : List Shape → Nat → Option (List Component)
  | [], _ => some []
  | .static count :: shapes, pos => do
    let values ← wordsAt data count pos
    let rest ← decodeAt data shapes (pos + 32 * count)
    return .static values :: rest
  | .dynamic :: shapes, pos => do
    let offset ← wordAt data pos
    if offset < 2 ^ 64 then
      let bytes ← bytesAt data offset
      let rest ← decodeAt data shapes (pos + 32)
      return .dynamic bytes :: rest
    else none

def decode (shapes : List Shape) (data : List UInt8) : Option (List Component) :=
  decodeAt data shapes 0

/-! ## Round trip -/

theorem length_words (values : List Nat) : (words values).length = 32 * values.length := by
  induction values with
  | nil => rfl
  | cons value values ih =>
      rw [words, List.flatMap_cons, List.length_append, length_word, List.length_cons]
      rw [words] at ih
      omega

theorem length_heads (offset : Nat) (args : List Component) :
    (heads offset args).length = headSize args := by
  induction args generalizing offset with
  | nil => rfl
  | cons arg args ih =>
      cases arg with
      | static values =>
          rw [heads, List.length_append, length_words, ih]
          rfl
      | dynamic bytes =>
          rw [heads, List.length_append, length_word, ih]
          rfl

theorem wordAt_append (before after : List UInt8) {n : Nat} (h : n < 2 ^ 256) :
    wordAt (before ++ (word n ++ after)) before.length = some n := by
  have htake : ((before ++ (word n ++ after)).drop before.length).take 32 = word n := by
    rw [List.drop_left]
    apply List.take_left'
    exact length_word n
  rw [wordAt, htake, beNat_word h, if_pos]
  simp only [List.length_append, length_word]
  omega

theorem wordsAt_append (before after : List UInt8) {values : List Nat}
    (h : ∀ value ∈ values, value < 2 ^ 256) :
    wordsAt (before ++ (words values ++ after)) values.length before.length = some values := by
  induction values generalizing before with
  | nil => rfl
  | cons value values ih =>
      have hfirst : wordAt (before ++ (words (value :: values) ++ after)) before.length =
          some value := by
        rw [words, List.flatMap_cons, List.append_assoc]
        exact wordAt_append before _ (h value List.mem_cons_self)
      have hrest := ih (before ++ word value)
        fun other hother => h other (List.mem_cons_of_mem value hother)
      rw [List.length_append, length_word, List.append_assoc, ← List.append_assoc (word value)]
        at hrest
      rw [List.length_cons, wordsAt, hfirst]
      show (wordsAt _ values.length (before.length + 32)).bind _ = _
      rw [words, List.flatMap_cons, ← words, hrest]
      rfl

theorem words_injective {values values' : List Nat} (h : ∀ value ∈ values, value < 2 ^ 256)
    (h' : ∀ value ∈ values', value < 2 ^ 256) (hlength : values.length = values'.length)
    (hwords : words values = words values') : values = values' := by
  have hread := wordsAt_append [] [] h
  rw [hwords, hlength, wordsAt_append [] [] h', Option.some.injEq] at hread
  exact hread.symm

theorem bytesAt_append (before after : List UInt8) {bytes : List UInt8}
    (h : bytes.length < 2 ^ 64) :
    bytesAt (before ++ (word bytes.length ++ (bytes ++ after))) before.length = some bytes := by
  have hword : bytes.length < 2 ^ 256 := h.trans (by norm_num)
  rw [bytesAt, wordAt_append before _ hword]
  show (if _ then some _ else none) = some bytes
  rw [if_pos]
  · have hdrop : (before ++ (word bytes.length ++ (bytes ++ after))).drop (before.length + 32) =
        bytes ++ after := by
      rw [← List.append_assoc]
      apply List.drop_left'
      rw [List.length_append, length_word]
    rw [hdrop, List.take_left]
  · refine ⟨h, ?_⟩
    simp only [List.length_append, length_word]
    omega

def WordsFit (args : List Component) : Prop :=
  ∀ values, Component.static values ∈ args → ∀ value ∈ values, value < 2 ^ 256

/-- Arguments whose heads and tails stand anywhere in the data are read back: the induction
moves one head into what stands before and one tail into what stands between. -/
theorem decodeAt_append {data : List UInt8} (before between : List UInt8) (offset : Nat)
    {args : List Component}
    (hwords : WordsFit args) (hsize : data.length < 2 ^ 64)
    (hdata : data = before ++ (heads offset args ++ (between ++ tails args)))
    (hoffset : offset = before.length + headSize args + between.length) :
    decodeAt data (args.map Component.shape) before.length = some args := by
  induction args generalizing before between offset with
  | nil => rfl
  | cons arg args ih =>
      have hrest : WordsFit args := fun values hmem => hwords values (List.mem_cons_of_mem arg hmem)
      cases arg with
      | static values =>
          have hvalues := hwords values List.mem_cons_self
          have hread : wordsAt data values.length before.length = some values := by
            rw [hdata, heads, List.append_assoc]
            exact wordsAt_append before _ hvalues
          have htail := ih (before ++ words values) between offset hrest
            (by rw [hdata, heads, tails, List.flatMap_cons]; simp only [Component.tail,
              List.append_assoc, List.nil_append]; rfl)
            (by
              rw [hoffset, List.length_append, length_words]
              simp only [headSize, List.map_cons, List.sum_cons, Component.headSize]
              omega)
          rw [List.length_append, length_words] at htail
          rw [List.map_cons, Component.shape, decodeAt, hread]
          show (decodeAt data _ (before.length + 32 * values.length)).bind _ = _
          rw [htail]
          rfl
      | dynamic bytes =>
          have htailLength : (Component.dynamic bytes).tail.length =
              32 + (padded bytes).length := by
            rw [Component.tail, List.length_append, length_word]
          have hlength : bytes.length ≤ (padded bytes).length := by
            rw [padded, List.length_append]
            omega
          have hplace : data = (before ++ (word offset ++
              (heads (offset + (Component.dynamic bytes).tail.length) args ++ between))) ++
              (word bytes.length ++ (bytes ++
                (List.replicate ((32 - bytes.length % 32) % 32) 0 ++ tails args))) := by
            rw [hdata, heads, tails, List.flatMap_cons]
            simp only [Component.tail, padded, List.append_assoc]
            rfl
          have hoffsetPlace : offset = (before ++ (word offset ++
              (heads (offset + (Component.dynamic bytes).tail.length) args ++
                between))).length := by
            simp only [List.length_append, length_word, length_heads]
            rw [hoffset]
            simp only [headSize, List.map_cons, List.sum_cons, Component.headSize]
            omega
          have hsmall : offset + 32 + bytes.length ≤ data.length := by
            have hlen := congrArg List.length hplace
            simp only [List.length_append, length_word] at hlen hoffsetPlace
            omega
          have hhead : wordAt data before.length = some offset := by
            rw [hdata, heads, List.append_assoc]
            exact wordAt_append before _ (by omega)
          have hbytes : bytesAt data offset = some bytes := by
            have hfits : bytes.length < 2 ^ 64 := by omega
            have hread := bytesAt_append (before ++ (word offset ++
              (heads (offset + (Component.dynamic bytes).tail.length) args ++ between)))
              (List.replicate ((32 - bytes.length % 32) % 32) 0 ++ tails args) hfits
            rw [← hplace, ← hoffsetPlace] at hread
            exact hread
          have htail := ih (before ++ word offset)
            (between ++ (Component.dynamic bytes).tail)
            (offset + (Component.dynamic bytes).tail.length) hrest
            (by
              rw [hdata, heads, tails, List.flatMap_cons]
              simp only [List.append_assoc]
              rfl)
            (by
              rw [hoffset]
              simp only [headSize, List.map_cons, List.sum_cons, Component.headSize,
                List.length_append, length_word]
              omega)
          rw [List.length_append, length_word] at htail
          rw [List.map_cons, Component.shape, decodeAt, hhead]
          show (if offset < 2 ^ 64 then _ else none) = _
          rw [if_pos (by omega), hbytes]
          show (decodeAt data _ (before.length + 32)).bind _ = _
          rw [htail]
          rfl

theorem decode_encode {args : List Component} (hwords : WordsFit args)
    (hsize : (encode args).length < 2 ^ 64) :
    decode (args.map Component.shape) (encode args) = some args := by
  apply decodeAt_append [] [] _ hwords hsize
  · rfl
  · rw [List.length_nil]
    omega

end PrismBackend.Lib.Abi
