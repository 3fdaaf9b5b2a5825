import Mathlib.Data.List.Induction
import Mathlib.Logic.Function.Basic
import PrismBackend.Lib.Entries
import PrismBackend.Lib.System

/-!
# Web: the cached fetcher

`createCachedFetcher` keeps the last value of each key and the promise of an
unforced request that is under way. Requests are answered in any order, and a
forced one starts beside those under way. A request is known by its place in the
order in which the requests were started.
-/

namespace PrismBackend.Web

open PrismBackend.Lib

/-! ## The fetcher -/

inductive Response (R : Type)
  | value (value : R) (ts : Int)
  | error

/-- A promise of the fetcher; it is settled once its `finally` has run. -/
structure FetchPromise (K R : Type) where
  key : K
  force : Bool
  response : Option (Response R)
  isSettled : Bool

structure Entry (R : Type) where
  value : R
  ts : Int
  request : Nat

structure CachedFetcher (K R : Type) where
  now : Int
  promises : List (FetchPromise K R)
  cache : K → Option (Entry R)
  inflight : K → Option Nat

inductive Source (R : Type)
  | cached (entry : Entry R)
  | existing (request : Nat)
  | fetch

inductive FetchEvent (K R : Type)
  /- the fetcher may throw instead of returning a promise -/
  | call (key : K) (force : Bool) (throws : Bool)
  /- the callback of `then` -/
  | resolve (request : Nat) (value : R)
  | reject (request : Nat)
  /- the callback of `finally` -/
  | settle (request : Nat)
  | tick (ms : Nat)

namespace CachedFetcher

variable {K R : Type} [DecidableEq K] (ttlMs : Int) (s : CachedFetcher K R)

def existing (key : K) : Source R :=
  match s.inflight key with
  | some p => .existing p
  | none => .fetch

def source (key : K) (force : Bool) : Source R :=
  if force then .fetch
  else
    match s.cache key with
    | some cached => if s.now - cached.ts < ttlMs then .cached cached else s.existing key
    | none => s.existing key

def requestOf : Source R → Nat
  | .cached entry => entry.request
  | .existing request => request
  | .fetch => s.promises.length

def start (key : K) (force : Bool) : CachedFetcher K R :=
  { s with
    promises := s.promises ++ [⟨key, force, none, false⟩]
    inflight :=
      if force then s.inflight else Function.update s.inflight key (some s.promises.length) }

def next : FetchEvent K R → CachedFetcher K R
  | .call key force throws =>
    match s.source ttlMs key force with
    | .fetch => if throws then s else s.start key force
    | _ => s
  | .resolve request value =>
    match s.promises[request]? with
    | none => s
    | some p =>
      { s with
        promises := s.promises.set request { p with response := some (.value value s.now) }
        cache := Function.update s.cache p.key (some ⟨value, s.now, request⟩) }
  | .reject request =>
    match s.promises[request]? with
    | none => s
    | some p => { s with promises := s.promises.set request { p with response := some .error } }
  | .settle request =>
    match s.promises[request]? with
    | none => s
    | some p =>
      { s with
        promises := s.promises.set request { p with isSettled := true }
        inflight :=
          if s.inflight p.key = some request then Function.update s.inflight p.key none
          else s.inflight }
  | .tick ms => { s with now := s.now + ms }

/-- A request is answered once, and its promise settles after that. -/
def Allowed : FetchEvent K R → Prop
  | .resolve request _ => ∃ p, s.promises[request]? = some p ∧ p.response = none
  | .reject request => ∃ p, s.promises[request]? = some p ∧ p.response = none
  | .settle request =>
    ∃ p, s.promises[request]? = some p ∧ p.response.isSome = true ∧ p.isSettled = false
  | _ => True

end CachedFetcher

def createCachedFetcher (K R : Type) [DecidableEq K] (ttlMs : Int) :
    System (CachedFetcher K R) (FetchEvent K R) where
  next := CachedFetcher.next ttlMs
  Allowed := CachedFetcher.Allowed

instance {K R : Type} [DecidableEq K] (ttlMs : Int) (s : CachedFetcher K R) (e : FetchEvent K R) :
    Decidable ((createCachedFetcher K R ttlMs).Allowed s e) :=
  match e with
  | .resolve request _ =>
    inferInstanceAs (Decidable (∃ p ∈ s.promises[request]?, p.response = none))
  | .reject request =>
    inferInstanceAs (Decidable (∃ p ∈ s.promises[request]?, p.response = none))
  | .settle request => inferInstanceAs
      (Decidable (∃ p ∈ s.promises[request]?, p.response.isSome = true ∧ p.isSettled = false))
  | .call _ _ _ => inferInstanceAs (Decidable True)
  | .tick _ => inferInstanceAs (Decidable True)

def CachedFetcher.new (K R : Type) (now : Int) : CachedFetcher K R :=
  ⟨now, [], fun _ => none, fun _ => none⟩

/-! ## What it promises -/

namespace CachedFetcher

variable {K R : Type} [DecidableEq K] (ttlMs : Int) (s : CachedFetcher K R)

/-- A forced request has brought a value that is still within the time to live. -/
def Refreshed (request : Nat) (key : K) : Prop :=
  ∃ p value ts, s.promises[request]? = some p ∧ p.key = key ∧ p.force = true ∧
    p.response = some (.value value ts) ∧ s.now - ts < ttlMs

/-- No call returns a value that was fetched before such a request. -/
def Fresh : Prop := ∀ request key, s.Refreshed ttlMs request key →
  ∀ force, request ≤ s.requestOf (s.source ttlMs key force)

/-- The cache holds what requests have brought, and no call joins a promise that has settled. -/
structure ForgetsFailures : Prop where
  cache : ∀ key entry, s.cache key = some entry → ∃ p, s.promises[entry.request]? = some p ∧
    p.key = key ∧ p.response = some (.value entry.value entry.ts)
  calls : ∀ key force request, s.source ttlMs key force = .existing request →
    ∃ p, s.promises[request]? = some p ∧ p.key = key ∧ p.isSettled = false

def UnderWay (request : Nat) (key : K) : Prop :=
  ∃ p, s.promises[request]? = some p ∧ p.key = key ∧ p.force = false ∧ p.isSettled = false

/-- There is at most one unforced request for a key under way, and meanwhile no unforced call
starts another. -/
structure Shares : Prop where
  one : ∀ request request' key, s.UnderWay request key → s.UnderWay request' key →
    request = request'
  joins : ∀ request key, s.UnderWay request key →
    (∃ entry, s.source ttlMs key false = .cached entry) ∨
      s.source ttlMs key false = .existing request

/-- The answer is not overtaken: no request that was started later and forced has brought a value
that is still within the time to live. -/
def InOrder (request : Nat) : Prop := ∀ p, s.promises[request]? = some p →
  ∀ request', s.Refreshed ttlMs request' p.key → request' ≤ request

def Response.isWithin (now : Int) : Response R → Bool
  | .value _ ts => decide (now - ts < ttlMs)
  | .error => false

instance (request : Nat) (key : K) : Decidable (s.Refreshed ttlMs request key) :=
  decidable_of_iff (∃ p ∈ s.promises[request]?, p.key = key ∧ p.force = true ∧
    p.response.any (Response.isWithin ttlMs s.now) = true) <| by
      constructor
      · rintro ⟨p, hp, hkey, hforce, hwithin⟩
        obtain ⟨response, hresponse, hwithin⟩ := (Option.any_eq_true _ _).mp hwithin
        cases response with
        | value value ts =>
            exact ⟨p, value, ts, hp, hkey, hforce, hresponse, of_decide_eq_true hwithin⟩
        | error => exact absurd hwithin Bool.false_ne_true
      · rintro ⟨p, value, ts, hp, hkey, hforce, hresponse, hwithin⟩
        refine ⟨p, hp, hkey, hforce, ?_⟩
        rw [hresponse]
        exact decide_eq_true hwithin

instance (request : Nat) : Decidable (s.InOrder ttlMs request) :=
  decidable_of_iff (∀ p ∈ s.promises[request]?, ∀ request' < s.promises.length,
    s.Refreshed ttlMs request' p.key → request' ≤ request) <| by
      constructor
      · intro h p hp request' hrefreshed
        obtain ⟨q, _, _, hq, _⟩ := id hrefreshed
        exact h p hp request' (List.getElem?_eq_some_iff.mp hq).1 hrefreshed
      · exact fun h p hp request' _ => h p hp request'

def AnswersInOrder (s : CachedFetcher K R) : FetchEvent K R → Prop
  | .resolve request _ => s.InOrder ttlMs request
  | _ => True

instance (e : FetchEvent K R) : Decidable (s.AnswersInOrder ttlMs e) :=
  match e with
  | .resolve request _ => inferInstanceAs (Decidable (s.InOrder ttlMs request))
  | .call _ _ _ => inferInstanceAs (Decidable True)
  | .reject _ => inferInstanceAs (Decidable True)
  | .settle _ => inferInstanceAs (Decidable True)
  | .tick _ => inferInstanceAs (Decidable True)

end CachedFetcher

/-! ## The invariant -/

namespace CachedFetcher

variable {K R : Type} [DecidableEq K] {ttlMs : Int} {s s' : CachedFetcher K R}

/-- The cache holds answers, `inflight` the unforced requests under way, and answers lie in the
past. -/
structure Sound (s : CachedFetcher K R) : Prop where
  cache : ∀ key entry, s.cache key = some entry → ∃ p, s.promises[entry.request]? = some p ∧
    p.key = key ∧ p.response = some (.value entry.value entry.ts)
  inflight : ∀ key request, s.inflight key = some request ↔ s.UnderWay request key
  past : ∀ (request : Nat) (p : FetchPromise K R) (value : R) (ts : Int),
    s.promises[request]? = some p → p.response = some (.value value ts) → ts ≤ s.now

omit [DecidableEq K] in
/-- Where one promise changes, the others are under way as before. -/
theorem underWay_set {i : Nat} {p p' : FetchPromise K R} (h : s.promises[i]? = some p)
    (hset : s'.promises = s.promises.set i p') (j : Nat) (key : K) :
    s'.UnderWay j key ↔
      if j = i then p'.key = key ∧ p'.force = false ∧ p'.isSettled = false
      else s.UnderWay j key := by
  unfold UnderWay
  simp only [hset, getElem?_set_iff h]
  split
  · next heq =>
    constructor
    · intro hway
      obtain ⟨q, ⟨_, rfl⟩ | ⟨hne, _⟩, hq⟩ := hway
      · exact hq
      · exact absurd heq hne
    · exact fun hself => ⟨p', Or.inl ⟨heq, rfl⟩, hself⟩
  · next hne =>
    constructor
    · intro hway
      obtain ⟨q, ⟨heq, _⟩ | ⟨_, hq⟩, hway⟩ := hway
      · exact absurd heq hne
      · exact ⟨q, hq, hway⟩
    · intro hway
      obtain ⟨q, hq, hway⟩ := hway
      exact ⟨q, Or.inr ⟨hne, hq⟩, hway⟩

omit [DecidableEq K] in
theorem underWay_answered {i : Nat} {p p' : FetchPromise K R} (h : s.promises[i]? = some p)
    (hset : s'.promises = s.promises.set i p') (hkey : p'.key = p.key)
    (hforce : p'.force = p.force) (hsettled : p'.isSettled = p.isSettled) (j : Nat) (key : K) :
    s'.UnderWay j key ↔ s.UnderWay j key := by
  rw [underWay_set h hset, hkey, hforce, hsettled]
  split
  · next heq =>
    subst heq
    constructor
    · exact fun hself => ⟨p, h, hself⟩
    · intro hway
      obtain ⟨q, hq, hway⟩ := hway
      rwa [Option.some.inj (h.symm.trans hq)]
  · rfl

/-! ## Steps -/

theorem Sound.start (h : s.Sound) {key : K} {force : Bool}
    (hnone : force = false → s.inflight key = none) : (s.start key force).Sound := by
  have hpromise {j : Nat} {q : FetchPromise K R} (hq : s.promises[j]? = some q) :
      (s.start key force).promises[j]? = some q := getElem?_concat_iff.mpr (Or.inl hq)
  have hway (j : Nat) (key' : K) : (s.start key force).UnderWay j key' ↔
      s.UnderWay j key' ∨ (j = s.promises.length ∧ key = key' ∧ force = false) := by
    unfold UnderWay
    simp only [CachedFetcher.start, getElem?_concat_iff]
    constructor
    · intro hafter
      obtain ⟨q, hq | ⟨hj, rfl⟩, hkey, hforce, hsettled⟩ := hafter
      · exact Or.inl ⟨q, hq, hkey, hforce, hsettled⟩
      · exact Or.inr ⟨hj, hkey, hforce⟩
    · intro hafter
      cases hafter with
      | inl hbefore =>
          obtain ⟨q, hq, hway⟩ := hbefore
          exact ⟨q, Or.inl hq, hway⟩
      | inr hnew => exact ⟨_, Or.inr ⟨hnew.1, rfl⟩, hnew.2.1, hnew.2.2, rfl⟩
  constructor
  · intro key' entry hentry
    obtain ⟨q, hq, hkey, hresponse⟩ := h.cache key' entry hentry
    exact ⟨q, hpromise hq, hkey, hresponse⟩
  · intro key' request
    rw [hway, ← h.inflight]
    cases force with
    | true =>
        show s.inflight key' = some request ↔ _
        simp
    | false =>
        show Function.update s.inflight key (some s.promises.length) key' = some request ↔ _
        by_cases hkey : key' = key
        · subst hkey
          rw [Function.update_self, hnone rfl, Option.some.injEq]
          simp [eq_comm]
        · rw [Function.update_of_ne hkey]
          have hne : key ≠ key' := fun heq => hkey heq.symm
          simp [hne]
  · intro request q value ts hq hresponse
    have hq' : (s.promises ++ [⟨key, force, none, false⟩])[request]? = some q := hq
    cases getElem?_concat_iff.mp hq' with
    | inl hold => exact h.past request q value ts hold hresponse
    | inr hnew =>
        rw [← hnew.2] at hresponse
        exact absurd hresponse (by simp)

omit [DecidableEq K] in
/-- Only a forced call starts a request while one is in flight. -/
theorem inflight_of_fetch {key : K} {force : Bool} (h : s.source ttlMs key force = .fetch) :
    force = false → s.inflight key = none := by
  intro hforce
  have hexisting : s.existing key = .fetch := by
    unfold source at h
    rw [hforce, if_neg Bool.false_ne_true] at h
    split at h
    · split at h
      · exact absurd h (by simp)
      · exact h
    · exact h
  unfold existing at hexisting
  split at hexisting
  · exact absurd hexisting (by simp)
  · next hnone => exact hnone

omit [DecidableEq K] in
theorem Sound.key_of_inflight (h : s.Sound) {key : K} {request : Nat} {p : FetchPromise K R}
    (hp : s.promises[request]? = some p) (hflight : s.inflight key = some request) :
    p.key = key := by
  obtain ⟨q, hq, hqKey, _⟩ := (h.inflight key request).mp hflight
  rw [Option.some.inj (hp.symm.trans hq), hqKey]

/-- The promise that settles leaves the table of those in flight, and no other does. -/
theorem Sound.inflight_settle (h : s.Sound) {request : Nat} {p : FetchPromise K R}
    (hp : s.promises[request]? = some p) (key : K) (j : Nat) :
    (if s.inflight p.key = some request then Function.update s.inflight p.key none
      else s.inflight) key = some j ↔ j ≠ request ∧ s.inflight key = some j := by
  by_cases hkey : key = p.key
  · subst hkey
    split
    · next hown =>
      rw [Function.update_self, hown, Option.some.injEq]
      simp [eq_comm]
    · next hown =>
      constructor
      · intro hflight
        refine ⟨?_, hflight⟩
        intro heq
        exact hown (heq ▸ hflight)
      · exact And.right
  · have hsame : (if s.inflight p.key = some request then Function.update s.inflight p.key none
        else s.inflight) key = s.inflight key := by
      split
      · rw [Function.update_of_ne hkey]
      · rfl
    rw [hsame]
    constructor
    · intro hflight
      refine ⟨?_, hflight⟩
      intro heq
      rw [heq] at hflight
      exact hkey (h.key_of_inflight hp hflight).symm
    · exact And.right

theorem Sound.settle (h : s.Sound) {request : Nat} (hallowed : s.Allowed (.settle request)) :
    (s.next ttlMs (.settle request)).Sound := by
  obtain ⟨p, hp, _, _⟩ := hallowed
  simp only [CachedFetcher.next, hp]
  let p' : FetchPromise K R := { p with isSettled := true }
  constructor
  · intro key entry hentry
    obtain ⟨q, hq, hqKey, hresponse⟩ := h.cache key entry hentry
    by_cases heq : entry.request = request
    · rw [heq, hp] at hq
      obtain rfl := Option.some.inj hq
      exact ⟨p', (getElem?_set_iff hp).mpr (Or.inl ⟨heq, rfl⟩), hqKey, hresponse⟩
    · exact ⟨q, (getElem?_set_iff hp).mpr (Or.inr ⟨heq, hq⟩), hqKey, hresponse⟩
  · intro key j
    rw [@underWay_set K R s _ request p p' hp rfl, ← h.inflight key j]
    apply (h.inflight_settle hp key j).trans
    split
    · next heq => simp [heq, p']
    · next hne => exact ⟨And.right, fun hflight => ⟨hne, hflight⟩⟩
  · intro j q value ts hq hresponse
    have hq' : (s.promises.set request p')[j]? = some q := hq
    cases (getElem?_set_iff hp).mp hq' with
    | inl hself =>
        rw [← hself.2] at hresponse
        exact h.past request p value ts hp hresponse
    | inr hother => exact h.past j q value ts hother.2 hresponse

theorem Sound.next (h : s.Sound) {e : FetchEvent K R} (hallowed : s.Allowed e) :
    (s.next ttlMs e).Sound := by
  cases e with
  | call key force throws =>
      simp only [CachedFetcher.next]
      split
      · next hfetch =>
        split
        · exact h
        · exact h.start (inflight_of_fetch hfetch)
      · exact h
  | resolve request value =>
      obtain ⟨p, hp, hpending⟩ := hallowed
      simp only [CachedFetcher.next, hp]
      let p' : FetchPromise K R := { p with response := some (.value value s.now) }
      constructor
      · intro key entry hentry
        have hentry' : Function.update s.cache p.key (some ⟨value, s.now, request⟩) key =
            some entry := hentry
        by_cases hkey : key = p.key
        · rw [hkey, Function.update_self, Option.some.injEq] at hentry'
          subst hentry'
          exact ⟨p', (getElem?_set_iff hp).mpr (Or.inl ⟨rfl, rfl⟩), hkey.symm, rfl⟩
        · rw [Function.update_of_ne hkey] at hentry'
          obtain ⟨q, hq, hqKey, hresponse⟩ := h.cache key entry hentry'
          have hne : entry.request ≠ request := by
            intro heq
            rw [heq, hp] at hq
            rw [← Option.some.inj hq, hpending] at hresponse
            exact absurd hresponse (by simp)
          exact ⟨q, (getElem?_set_iff hp).mpr (Or.inr ⟨hne, hq⟩), hqKey, hresponse⟩
      · intro key j
        rw [@underWay_answered K R s _ request p p' hp rfl rfl rfl rfl]
        exact h.inflight key j
      · intro j q value' ts hq hresponse
        have hq' : (s.promises.set request p')[j]? = some q := hq
        show ts ≤ s.now
        cases (getElem?_set_iff hp).mp hq' with
        | inl hself =>
            rw [← hself.2] at hresponse
            have hts := Option.some.inj hresponse
            injection hts with _ hts
            exact Int.le_of_eq hts.symm
        | inr hother => exact h.past j q value' ts hother.2 hresponse
  | reject request =>
      obtain ⟨p, hp, hpending⟩ := hallowed
      simp only [CachedFetcher.next, hp]
      let p' : FetchPromise K R := { p with response := some .error }
      constructor
      · intro key entry hentry
        obtain ⟨q, hq, hqKey, hresponse⟩ := h.cache key entry hentry
        have hne : entry.request ≠ request := by
          intro heq
          rw [heq, hp] at hq
          rw [← Option.some.inj hq, hpending] at hresponse
          exact absurd hresponse (by simp)
        exact ⟨q, (getElem?_set_iff hp).mpr (Or.inr ⟨hne, hq⟩), hqKey, hresponse⟩
      · intro key j
        rw [@underWay_answered K R s _ request p p' hp rfl rfl rfl rfl]
        exact h.inflight key j
      · intro j q value' ts hq hresponse
        have hq' : (s.promises.set request p')[j]? = some q := hq
        cases (getElem?_set_iff hp).mp hq' with
        | inl hself =>
            rw [← hself.2] at hresponse
            exact absurd (Option.some.inj hresponse) (by simp)
        | inr hother => exact h.past j q value' ts hother.2 hresponse
  | settle request => exact h.settle hallowed
  | tick ms =>
      refine ⟨h.cache, h.inflight, ?_⟩
      intro j q value' ts hq hresponse
      have hpast := h.past j q value' ts hq hresponse
      show ts ≤ s.now + ms
      omega

omit [DecidableEq K] in
theorem sound_new (K R : Type) (now : Int) : (CachedFetcher.new K R now).Sound := by
  have hnone {request : Nat} : (CachedFetcher.new K R now).promises[request]? = none := rfl
  constructor
  · intro key entry hentry
    exact absurd hentry (by simp [CachedFetcher.new])
  · intro key request
    constructor
    · intro hflight
      exact absurd hflight (by simp [CachedFetcher.new])
    · intro hway
      obtain ⟨p, hp, _⟩ := hway
      exact absurd (hnone.symm.trans hp) (by simp)
  · intro request p value ts hp
    exact absurd (hnone.symm.trans hp) (by simp)

/-! ## What holds of every run -/

omit [DecidableEq K] in
theorem existing_cases (key : K) :
    (∃ request, s.inflight key = some request ∧ s.existing key = .existing request) ∨
      (s.inflight key = none ∧ s.existing key = .fetch) := by
  unfold existing
  cases hflight : s.inflight key with
  | some request => exact Or.inl ⟨request, rfl, rfl⟩
  | none => exact Or.inr ⟨rfl, rfl⟩

omit [DecidableEq K] in
/-- An unforced call takes a value that the cache has and that is within the time to live, or goes
by what is in flight. -/
theorem source_cases (ttlMs : Int) (s : CachedFetcher K R) (key : K) :
    (∃ entry, s.cache key = some entry ∧ s.now - entry.ts < ttlMs ∧
        s.source ttlMs key false = .cached entry) ∨
      s.source ttlMs key false = s.existing key := by
  unfold source
  rw [if_neg Bool.false_ne_true]
  split
  · next entry hentry =>
    split
    · next hwithin => exact Or.inl ⟨entry, hentry, hwithin, rfl⟩
    · exact Or.inr rfl
  · exact Or.inr rfl

omit [DecidableEq K] in
theorem Sound.forgetsFailures (h : s.Sound) : s.ForgetsFailures ttlMs := by
  refine ⟨h.cache, ?_⟩
  intro key force request hsource
  cases force with
  | true => exact absurd hsource (by simp [source])
  | false =>
      obtain ⟨entry, _, _, hcached⟩ | hexisting := source_cases ttlMs s key
      · rw [hcached] at hsource
        exact absurd hsource (by simp)
      · rw [hexisting] at hsource
        obtain ⟨other, hflight, hother⟩ | ⟨_, hfetch⟩ := existing_cases (s := s) key
        · rw [hother, Source.existing.injEq] at hsource
          rw [hsource] at hflight
          obtain ⟨p, hp, hkey, _, hsettled⟩ := (h.inflight key request).mp hflight
          exact ⟨p, hp, hkey, hsettled⟩
        · rw [hfetch] at hsource
          exact absurd hsource (by simp)

omit [DecidableEq K] in
theorem Sound.shares (h : s.Sound) : s.Shares ttlMs := by
  constructor
  · intro request request' key hway hway'
    have hflight := (h.inflight key request).mpr hway
    rw [(h.inflight key request').mpr hway', Option.some.injEq] at hflight
    exact hflight.symm
  · intro request key hway
    have hflight := (h.inflight key request).mpr hway
    obtain ⟨entry, _, _, hcached⟩ | hexisting := source_cases ttlMs s key
    · exact Or.inl ⟨entry, hcached⟩
    · right
      rw [hexisting, existing, hflight]

/-! ## Freshness -/

/-- What a forced request has brought within the time to live, the cache has or has newer. -/
def Leads (ttlMs : Int) (s : CachedFetcher K R) : Prop :=
  ∀ (request : Nat) (p : FetchPromise K R) (value : R) (ts : Int),
    s.promises[request]? = some p → p.force = true →
    p.response = some (.value value ts) → s.now - ts < ttlMs →
    ∃ entry, s.cache p.key = some entry ∧ request ≤ entry.request ∧ ts ≤ entry.ts

omit [DecidableEq K] in
theorem Leads.fresh (h : s.Leads ttlMs) : s.Fresh ttlMs := by
  intro request key hrefreshed force
  obtain ⟨p, value, ts, hp, hkey, hforce, hresponse, hwithin⟩ := hrefreshed
  cases force with
  | true =>
      have hlt : request < s.promises.length := (List.getElem?_eq_some_iff.mp hp).1
      exact Nat.le_of_lt hlt
  | false =>
      obtain ⟨entry, hentry, hrequest, hts⟩ := h request p value ts hp hforce hresponse hwithin
      rw [hkey] at hentry
      have hcached : s.source ttlMs key false = .cached entry := by
        unfold source
        rw [if_neg Bool.false_ne_true, hentry]
        exact if_pos (by omega)
      rw [hcached]
      exact hrequest

omit [DecidableEq K] in
/-- Where the answers are those of before, and the cache is, no less is known. -/
theorem Leads.of_same (h : s.Leads ttlMs) (hcache : s'.cache = s.cache) (hnow : s'.now = s.now)
    (hsame : ∀ (j : Nat) (q : FetchPromise K R) (value : R) (ts : Int),
      s'.promises[j]? = some q → q.response = some (.value value ts) →
      ∃ p : FetchPromise K R, s.promises[j]? = some p ∧ p.key = q.key ∧ p.force = q.force ∧
        p.response = some (.value value ts)) : s'.Leads ttlMs := by
  intro request q value ts hq hforce hresponse hwithin
  obtain ⟨p, hp, hpKey, hpForce, hpResponse⟩ := hsame request q value ts hq hresponse
  rw [hcache, ← hpKey]
  rw [hnow] at hwithin
  exact h request p value ts hp (hpForce.trans hforce) hpResponse hwithin

theorem Leads.next (h : s.Leads ttlMs) (hsound : s.Sound) {e : FetchEvent K R}
    (hallowed : s.Allowed e)
    (horder : ∀ request value, e = .resolve request value → s.InOrder ttlMs request) :
    (s.next ttlMs e).Leads ttlMs := by
  cases e with
  | call key force throws =>
      simp only [CachedFetcher.next]
      split
      · split
        · exact h
        · refine h.of_same (by rfl) (by rfl) ?_
          intro j q value ts hq hresponse
          cases getElem?_concat_iff.mp hq with
          | inl hold => exact ⟨q, hold, rfl, rfl, hresponse⟩
          | inr hnew =>
              rw [← hnew.2] at hresponse
              exact absurd hresponse (by simp)
      · exact h
  | resolve request value =>
      obtain ⟨p, hp, hpending⟩ := hallowed
      have hordered := horder request value rfl p hp
      simp only [CachedFetcher.next, hp]
      intro j q value' ts hq hforce hresponse hwithin
      have hnow : s.now - ts < ttlMs := hwithin
      show ∃ entry, Function.update s.cache p.key (some ⟨value, s.now, request⟩) q.key =
        some entry ∧ j ≤ entry.request ∧ ts ≤ entry.ts
      cases (getElem?_set_iff hp).mp hq with
      | inl hself =>
          obtain ⟨hj, rfl⟩ := hself
          have hts := Option.some.inj hresponse
          injection hts with _ hts
          exact ⟨_, Function.update_self _ _ _, Nat.le_of_eq hj, Int.le_of_eq hts.symm⟩
      | inr hother =>
          by_cases hkey : q.key = p.key
          · have hle : j ≤ request :=
              hordered j ⟨q, value', ts, hother.2, hkey, hforce, hresponse, hnow⟩
            rw [hkey, Function.update_self]
            exact ⟨_, rfl, hle, hsound.past j q value' ts hother.2 hresponse⟩
          · rw [Function.update_of_ne hkey]
            exact h j q value' ts hother.2 hforce hresponse hnow
  | reject request =>
      obtain ⟨p, hp, _⟩ := hallowed
      simp only [CachedFetcher.next, hp]
      refine h.of_same (by rfl) (by rfl) ?_
      intro j q value ts hq hresponse
      cases (getElem?_set_iff hp).mp hq with
      | inl hself =>
          rw [← hself.2] at hresponse
          exact absurd (Option.some.inj hresponse) (by simp)
      | inr hother => exact ⟨q, hother.2, rfl, rfl, hresponse⟩
  | settle request =>
      obtain ⟨p, hp, _⟩ := hallowed
      simp only [CachedFetcher.next, hp]
      refine h.of_same (by rfl) (by rfl) ?_
      intro j q value ts hq hresponse
      cases (getElem?_set_iff hp).mp hq with
      | inl hself =>
          rw [← hself.2] at hresponse ⊢
          exact ⟨p, hself.1 ▸ hp, rfl, rfl, hresponse⟩
      | inr hother => exact ⟨q, hother.2, rfl, rfl, hresponse⟩
  | tick ms =>
      intro request p value ts hp hforce hresponse hwithin
      have hnow : s.now + ms - ts < ttlMs := hwithin
      exact h request p value ts hp hforce hresponse (by omega)

/-- An answer after which the cache is fresh was not overtaken. -/
theorem inOrder_of_fresh (hsound : s.Sound) {request : Nat} {value : R}
    (hfresh : (s.next ttlMs (.resolve request value)).Fresh ttlMs) :
    s.InOrder ttlMs request := by
  intro p hp j hrefreshed
  obtain ⟨q, value', ts, hq, hkey, hforce, hresponse, hwithin⟩ := hrefreshed
  by_cases heq : j = request
  · exact Nat.le_of_eq heq
  · have hpast := hsound.past j q value' ts hq hresponse
    simp only [CachedFetcher.next, hp] at hfresh
    have hle := hfresh j p.key
      ⟨q, value', ts, (getElem?_set_iff hp).mpr (Or.inr ⟨heq, hq⟩), hkey, hforce, hresponse,
        hwithin⟩ false
    have hcached : ({ s with
        promises := s.promises.set request { p with response := some (.value value s.now) }
        cache := Function.update s.cache p.key (some ⟨value, s.now, request⟩)
        } : CachedFetcher K R).source ttlMs p.key false = .cached ⟨value, s.now, request⟩ := by
      unfold source
      rw [if_neg Bool.false_ne_true]
      simp only [Function.update_self]
      exact if_pos (by omega)
    rw [hcached] at hle
    exact hle

end CachedFetcher

/-! ## Runs -/

section Runs

variable {K R : Type} [DecidableEq K] {ttlMs now : Int} {events : List (FetchEvent K R)}

abbrev fetched (ttlMs now : Int) (events : List (FetchEvent K R)) : CachedFetcher K R :=
  (createCachedFetcher K R ttlMs).run (.new K R now) events

abbrev Happens (ttlMs now : Int) (events : List (FetchEvent K R)) : Prop :=
  (createCachedFetcher K R ttlMs).Runs (fun _ _ => True) (.new K R now) events

theorem sound_fetched (h : Happens ttlMs now events) : (fetched ttlMs now events).Sound :=
  System.Runs.preserves h (fun _ _ hs hallowed _ => hs.next hallowed)
    (CachedFetcher.sound_new K R now)

theorem happens_before {before after : List (FetchEvent K R)}
    (h : Happens ttlMs now (before ++ after)) : Happens ttlMs now before :=
  (System.runs_append.mp h).1

/-- In a run, no call returns a value older than a forced request's that came back within the time
to live, exactly when no answer is overtaken. What failed is forgotten and unforced calls share a
request in every run. -/
theorem cachedFetcher_fresh_iff (h : Happens ttlMs now events) :
    ((∀ before after, events = before ++ after → (fetched ttlMs now before).Fresh ttlMs) ↔
      ∀ before request value after, events = before ++ .resolve request value :: after →
        (fetched ttlMs now before).InOrder ttlMs request) ∧
      ∀ before after, events = before ++ after →
        (fetched ttlMs now before).ForgetsFailures ttlMs ∧
          (fetched ttlMs now before).Shares ttlMs := by
  constructor
  · constructor
    · intro hfresh before request value after hevents
      subst hevents
      apply CachedFetcher.inOrder_of_fresh (sound_fetched (happens_before h))
      have hnext := hfresh (before ++ [.resolve request value]) after (by simp)
      rwa [fetched, System.run_concat] at hnext
    · intro horder before after hevents
      apply CachedFetcher.Leads.fresh
      subst hevents
      induction before using List.reverseRecOn generalizing after with
      | nil =>
          intro request p value ts hp
          have hnone : (fetched ttlMs now ([] : List (FetchEvent K R))).promises[request]? =
              none := rfl
          exact absurd (hnone.symm.trans hp) (by simp)
      | append_singleton before e ih =>
          have happened : Happens ttlMs now (before ++ e :: after) := by
            rwa [List.append_assoc] at h
          rw [fetched, System.run_concat]
          apply CachedFetcher.Leads.next
          · apply ih (e :: after) happened
            intro earlier request value later hevents
            exact horder earlier request value later (by rw [← hevents]; simp)
          · exact sound_fetched (happens_before happened)
          · exact (System.runs_append.mp happened).2.1
          · intro request value he
            exact horder before request value after (by rw [he]; simp)
  · intro before after hevents
    subst hevents
    have hsound := sound_fetched (happens_before h)
    exact ⟨hsound.forgetsFailures, hsound.shares⟩

end Runs

/-! ## An answer that is overtaken -/

/-- A request is under way, a forced one starts beside it, and they come back in turn. -/
def sampleForced : List (FetchEvent Nat Nat) :=
  [.call 0 false false, .call 0 true false, .resolve 0 10, .settle 0, .resolve 1 20, .settle 1]

theorem cachedFetcher_fresh_iff_sample :
    (fetched 1000 0 sampleForced).Refreshed 1000 1 0 ∧
      (fetched 1000 0 sampleForced).source 1000 0 false = .cached ⟨20, 0, 1⟩ ∧
      (fetched 1000 0 sampleForced).Fresh 1000 := by
  have hruns : (createCachedFetcher Nat Nat 1000).Runs (CachedFetcher.AnswersInOrder 1000)
      (.new Nat Nat 0) sampleForced := by decide +kernel
  have happens : Happens 1000 0 sampleForced := hruns.imp fun _ _ _ => trivial
  refine ⟨by decide +kernel, rfl, ?_⟩
  refine (cachedFetcher_fresh_iff happens).1.mpr ?_ sampleForced [] (List.append_nil _).symm
  intro before request value after hevents
  rw [hevents] at hruns
  exact (System.runs_append.mp hruns).2.2.1

/-- A request is under way, a forced one starts and comes back, and then the first comes back. -/
def sampleOvertaken : List (FetchEvent Nat Nat) :=
  [.call 0 false false, .call 0 true false, .resolve 1 20, .settle 1, .resolve 0 10, .settle 0]

/-- The next call, within the time to live, returns the value of the request that started before the
forced one. -/
theorem forced_value_overwritten : Happens 1000 0 sampleOvertaken ∧
    (fetched 1000 0 sampleOvertaken).Refreshed 1000 1 0 ∧
    (fetched 1000 0 sampleOvertaken).source 1000 0 false = .cached ⟨10, 0, 0⟩ ∧
    ¬(fetched 1000 0 sampleOvertaken).Fresh 1000 := by
  have happens : Happens 1000 0 sampleOvertaken :=
    ⟨trivial, trivial, trivial, trivial, ⟨_, rfl, rfl⟩, trivial, ⟨_, rfl, rfl, rfl⟩, trivial,
      ⟨_, rfl, rfl⟩, trivial, ⟨_, rfl, rfl, rfl⟩, trivial, trivial⟩
  have hrefreshed : (fetched 1000 0 sampleOvertaken).Refreshed 1000 1 0 :=
    ⟨_, 20, 0, rfl, rfl, rfl, rfl, by decide⟩
  have hsource : (fetched 1000 0 sampleOvertaken).source 1000 0 false = .cached ⟨10, 0, 0⟩ := rfl
  refine ⟨happens, hrefreshed, hsource, ?_⟩
  intro hfresh
  have hle := hfresh 1 0 hrefreshed false
  rw [hsource] at hle
  exact absurd hle (by decide)

end PrismBackend.Web
