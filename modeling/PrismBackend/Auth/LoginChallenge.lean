import PrismBackend.Lib.Interact
import PrismBackend.Lib.System
import PrismBackend.Lib.Ledger
import PrismBackend.Lib.Hex
import PrismBackend.Clob.Service

/-!
# Login challenges

`GetChallenge`, `UpdateChallenge` and `VerifyChallenge` of `auth.go`, and their
calls for any wallets side by side. Each access to the table `users` is one step,
and an update may fail with or without being written.
-/

namespace PrismBackend.Auth

open PrismBackend.Lib PrismBackend.Clob
open Program (request)

/-! ## Texts -/

/-- `fmt.Sprintf("%d", challenge)`. -/
def int64Text : Int → Str
  | .ofNat n => decimal n
  | .negSucc n => '-' :: decimal (n + 1)

def payloadBytes (payload : Str) : List UInt8 := (String.ofList payload).toUTF8.toList

/-- `fmt.Sprintf("%x", payload)`. -/
def payloadHex (payload : Str) : Str := (payloadBytes payload).flatMap fun b => hexText 2 b.toNat

def isPlainNumber (s : Str) : Bool :=
  s == ['0'] || (s.all Char.isDigit && !s.isEmpty && s.head? != some '0')

/-- The pattern of `account_id`: three numbers without leading zeros. -/
def isAccountId (s : Str) : Bool :=
  match s.splitOn '.' with
  | [shard, realm, num] => isPlainNumber shard && isPlainNumber realm && isPlainNumber num
  | _ => false

theorem minus_not_mem_decimal (n : Nat) : '-' ∉ decimal n := by
  intro hmem
  have hdigit := Nat.isDigit_of_mem_toDigits (by decide) (by decide) hmem
  exact absurd hdigit (by decide)

theorem int64Text_injective : Function.Injective int64Text := by
  intro m n h
  cases m with
  | ofNat m =>
      cases n with
      | ofNat n => rw [decimal_injective h]
      | negSucc n =>
          have hminus : '-' ∈ decimal m := by
            have heq : decimal m = '-' :: decimal (n + 1) := h
            rw [heq]
            exact List.mem_cons_self
          exact absurd hminus (minus_not_mem_decimal m)
  | negSucc m =>
      cases n with
      | ofNat n =>
          have hminus : '-' ∈ decimal n := by
            have heq : '-' :: decimal (m + 1) = decimal n := h
            rw [← heq]
            exact List.mem_cons_self
          exact absurd hminus (minus_not_mem_decimal n)
      | negSucc n =>
          have htail : decimal (m + 1) = decimal (n + 1) := List.tail_eq_of_cons_eq h
          have hsucc := decimal_injective htail
          rw [Nat.succ.inj hsucc]

/-! ## The service -/

inductive AuthRequest
  | getPublicKey (accountId network : Str)
  | getUserChallenge (walletId network : Str)
  | randRead
  | updateUserChallenge (walletId network : Str) (challenge : Int)
  deriving DecidableEq

abbrev AuthRequest.Answer : AuthRequest → Type
  | .getPublicKey _ _ => Except String Str
  | .getUserChallenge _ _ => Except String Int
  | .randRead => Except String Int
  | .updateUserChallenge _ _ _ => Except String Unit

abbrev AuthM := Program AuthRequest AuthRequest.Answer

/-- What the SDK and the signature check do: the text of an account that is parsed, the check of a
signature, and the digest that a message quotes. A text of the pattern is the account's own. -/
structure AuthPlatform where
  accountIDFromString : Str → Except String Str
  verifySig : Str → Str → Str → Except String Bool
  digest : Str → Str
  canonical : ∀ s accountId, isAccountId s = true → accountIDFromString s = .ok accountId →
    accountId = s

section Service

variable (p : AuthPlatform)

def getChallenge (accountId network : Str) : AuthM (Except String Int) := do
  match ← request (AuthRequest.getUserChallenge accountId network) with
  | .error err => return .error ("failed to get user challenge: " ++ err)
  | .ok challenge => return .ok challenge

def updateChallenge (accountId network : Str) : AuthM (Except String Bool) := do
  match ← request AuthRequest.randRead with
  | .error err => return .error ("failed to generate random challenge: " ++ err)
  | .ok challenge =>
    match ← request (AuthRequest.updateUserChallenge accountId network challenge) with
    | .error err => return .error ("failed to update user challenge: " ++ err)
    | .ok () => return .ok true

def acceptChallenge (accountId network : Str) : AuthM (Except String Bool) := do
  match ← updateChallenge accountId network with
  | .error err => return .error ("failed to update challenge: " ++ err)
  | .ok false => return .error "failed to update challenge: <nil>"
  | .ok true => return .ok true

/-- The checks of a response against the challenge that was read. -/
def checkResponse (publicKey challenge sigBase64 payload : Str) : Except String Unit :=
  let names := "publicKey=" ++ String.ofList publicKey ++ ", payloadDigest=" ++
    String.ofList (p.digest (payloadHex payload)) ++ ", signatureLength=" ++
    toString (payloadBytes sigBase64).length
  if payload ≠ challenge then
    .error ("payload does not exactly match the correct challenge: " ++ String.ofList challenge)
  else
    match p.verifySig publicKey (payloadHex payload) sigBase64 with
    | .error err => .error ("failed to verify signature (" ++ names ++ "). Error: " ++ err)
    | .ok false => .error ("invalid signature (" ++ names ++ ")")
    | .ok true => .ok ()

def answerChallenge (walletIdStr walletId network sigBase64 payload publicKey : Str) :
    AuthM (Except String Bool) :=
  if (payloadBytes payload).length < 5 ∨ 2048 < (payloadBytes payload).length then
    return .error ("invalid payload length: " ++ toString (payloadBytes payload).length)
  else do
    match ← getChallenge walletIdStr network with
    | .error err => return .error ("failed to get challenge: " ++ err)
    | .ok challenge =>
      match checkResponse p publicKey (int64Text challenge) sigBase64 payload with
      | .error err => return .error err
      | .ok () => acceptChallenge walletId network

def verifyChallenge (walletIdStr network sigBase64 payload : Str) : AuthM (Except String Bool) := do
  match p.accountIDFromString walletIdStr with
  | .error err => return .error err
  | .ok walletId =>
    match ← request (AuthRequest.getPublicKey walletId network) with
    | .error err => return .error ("failed to get public key: " ++ err)
    | .ok publicKey =>
      answerChallenge p walletIdStr walletId network sigBase64 payload publicKey

end Service

/-! ## Calls side by side -/

/-- A call of `VerifyChallenge`: its arguments, and what is left to do. -/
structure VerifyCall where
  walletId : Str
  network : Str
  sigBase64 : Str
  payload : Str
  program : AuthM (Except String Bool)

/-- The column `challenge` of the table `users`, the values that were ever stored or drawn, and the
calls. -/
structure AuthWorld where
  users : Str → Str → Option Int
  issued : List Int
  calls : List VerifyCall

inductive AuthLabel
  | getChallenge (walletId network : Str)
  | verifyChallenge (walletId network sigBase64 payload : Str)
  /- a request of a call is answered, and its effect takes place or not -/
  | serve (i : Nat) (answer : (r : AuthRequest) → r.Answer) (written : Bool)

def AuthWorld.effect (w : AuthWorld) : (r : AuthRequest) → r.Answer → AuthWorld
  | .randRead, .ok challenge => { w with issued := challenge :: w.issued }
  | .updateUserChallenge walletId network challenge, _ =>
    if (w.users walletId network).isSome then
      { w with users := update₂ w.users walletId network (some challenge) }
    else w
  | _, _ => w

/-- What an answer may say: a row that was read is the row, a value that was drawn is new, and an
update that succeeded was written. -/
def AuthWorld.honest (w : AuthWorld) : (r : AuthRequest) → r.Answer → Bool → Bool
  | .getUserChallenge walletId network, .ok challenge, _ =>
    w.users walletId network == some challenge
  | .randRead, .ok challenge, written => written && !w.issued.contains challenge
  | .updateUserChallenge _ _ _, .ok (), written => written
  | _, _, _ => true

def AuthWorld.serve (w : AuthWorld) (i : Nat) (answer : (r : AuthRequest) → r.Answer)
    (written : Bool) : AuthWorld :=
  match w.calls[i]? with
  | none => w
  | some call =>
    match call.program with
    | .ret _ => w
    | .call r rest =>
      { (if written then w.effect r (answer r) else w) with
        calls := w.calls.set i { call with program := rest (answer r) } }

/-- What can happen: requests match their patterns, and answers are honest. -/
def AuthWorld.allowed (w : AuthWorld) : AuthLabel → Bool
  | .getChallenge walletId _ => isAccountId walletId
  | .verifyChallenge walletId _ _ _ => isAccountId walletId
  | .serve i answer written =>
    match w.calls[i]? with
    | none => true
    | some call =>
      match call.program with
      | .ret _ => true
      | .call r _ => w.honest r (answer r) written

def authSystem (p : AuthPlatform) : System AuthWorld AuthLabel where
  next w
    | .getChallenge _ _ => w
    | .verifyChallenge walletId network sigBase64 payload =>
      { w with calls := w.calls ++ [⟨walletId, network, sigBase64, payload,
        verifyChallenge p walletId network sigBase64 payload⟩] }
    | .serve i answer written => w.serve i answer written
  Allowed w l := w.allowed l = true

instance (p : AuthPlatform) (w : AuthWorld) (l : AuthLabel) :
    Decidable ((authSystem p).Allowed w l) :=
  inferInstanceAs (Decidable (w.allowed l = true))

def accepted : AuthM (Except String Bool) → Bool
  | .ret (.ok true) => true
  | _ => false

def pending : AuthM (Except String Bool) → Option Int
  | .call (.updateUserChallenge _ _ challenge) _ => some challenge
  | _ => none

/-- The row still holds the challenge that the call has read, whenever a call's replacement of it
succeeds. -/
def AuthWorld.findsRead (w : AuthWorld) : AuthLabel → Bool
  | .serve i answer _ =>
    match w.calls[i]? with
    | none => true
    | some call =>
      match call.program with
      | .call (.updateUserChallenge walletId network challenge) _ =>
        match answer (.updateUserChallenge walletId network challenge) with
        | .ok () => (w.users call.walletId call.network).map int64Text == some call.payload
        | .error _ => true
      | _ => true
  | _ => true

/-- What a call has authenticated with: the wallet, its network and the signed payload. -/
def AuthWorld.taken (w : AuthWorld) (i : Nat) : Option (Str × Str × Str) :=
  w.calls[i]?.bind fun call =>
    if accepted call.program then some (call.walletId, call.network, call.payload) else none

def AuthWorld.waits (w : AuthWorld) (i : Nat) : Option Int :=
  w.calls[i]?.bind fun call => pending call.program

def AuthWorld.SingleUse (w : AuthWorld) : Prop :=
  ∀ i j key, w.taken i = some key → w.taken j = some key → i = j

/-- Before the first call; the values of the table are known. -/
structure AuthWorld.Fresh (w : AuthWorld) : Prop where
  calls : w.calls = []
  issued : ∀ walletId network challenge, w.users walletId network = some challenge →
    challenge ∈ w.issued

/-! ## What a call does next -/

/-- What an answer leads to: only a draw leaves a challenge to store, and only its update can accept
the call. -/
def Follows (walletId network : Str) (next : AuthM (Except String Bool)) :
    (r : AuthRequest) → r.Answer → Prop
  | .randRead, .ok challenge => pending next = some challenge ∧ accepted next = false
  | .updateUserChallenge accountId network' _, .ok () =>
    accountId = walletId ∧ network' = network ∧ pending next = none
  | _, _ => pending next = none ∧ accepted next = false

def Sound (walletId network : Str) : AuthM (Except String Bool) → Prop
  | .ret _ => True
  | .call r rest =>
    ∀ answer, Follows walletId network (rest answer) r answer ∧
      Sound walletId network (rest answer)

theorem sound_acceptChallenge (walletId network : Str) :
    Sound walletId network (acceptChallenge walletId network) := by
  intro drawn
  cases drawn with
  | error err => exact ⟨⟨rfl, rfl⟩, trivial⟩
  | ok challenge =>
      refine ⟨⟨rfl, rfl⟩, ?_⟩
      intro updated
      cases updated with
      | error err => exact ⟨⟨rfl, rfl⟩, trivial⟩
      | ok _ => exact ⟨⟨rfl, rfl, rfl⟩, trivial⟩

def Idle (program : AuthM (Except String Bool)) : Prop :=
  pending program = none ∧ accepted program = false

section Verify

variable (p : AuthPlatform) (walletId network sigBase64 payload : Str)

theorem sound_judged (result : Except String Unit) :
    let next : AuthM (Except String Bool) := match result with
      | .error err => return .error err
      | .ok () => acceptChallenge walletId network
    Idle next ∧ Sound walletId network next := by
  cases result with
  | error err => exact ⟨⟨rfl, rfl⟩, trivial⟩
  | ok _ => exact ⟨⟨rfl, rfl⟩, sound_acceptChallenge walletId network⟩

theorem sound_answerChallenge (publicKey : Str) :
    Idle (answerChallenge p walletId walletId network sigBase64 payload publicKey) ∧
      Sound walletId network
        (answerChallenge p walletId walletId network sigBase64 payload publicKey) := by
  unfold answerChallenge
  split
  · exact ⟨⟨rfl, rfl⟩, trivial⟩
  · refine ⟨⟨rfl, rfl⟩, ?_⟩
    intro row
    cases row with
    | error err => exact ⟨⟨rfl, rfl⟩, trivial⟩
    | ok challenge =>
        exact sound_judged walletId network
          (checkResponse p publicKey (int64Text challenge) sigBase64 payload)

variable {walletId} in
theorem sound_verifyChallenge (hwallet : isAccountId walletId = true) :
    Idle (verifyChallenge p walletId network sigBase64 payload) ∧
      Sound walletId network (verifyChallenge p walletId network sigBase64 payload) := by
  unfold verifyChallenge
  cases hid : p.accountIDFromString walletId with
  | error err => exact ⟨⟨rfl, rfl⟩, trivial⟩
  | ok accountId =>
      have hcanonical := p.canonical walletId accountId hwallet hid
      subst hcanonical
      refine ⟨⟨rfl, rfl⟩, ?_⟩
      intro key
      cases key with
      | error err => exact ⟨⟨rfl, rfl⟩, trivial⟩
      | ok publicKey => exact sound_answerChallenge p accountId network sigBase64 payload publicKey

end Verify

/-! ## Where a challenge is -/

/-- Every value is in one place: it waits to be stored by one call, or is in the table, or has
authenticated one call and is in neither. -/
structure Tidy (users : Str → Str → Option Int) (issued : List Int) (waits : Nat → Option Int)
    (taken : Nat → Option (Str × Str × Str)) : Prop where
  stored : ∀ walletId network challenge, users walletId network = some challenge →
    challenge ∈ issued
  waiting : ∀ i challenge, waits i = some challenge →
    challenge ∈ issued ∧ ∀ walletId network, users walletId network ≠ some challenge
  once : ∀ i j challenge, waits i = some challenge → waits j = some challenge → i = j
  spent : ∀ i walletId network payload, taken i = some (walletId, network, payload) →
    ∃ challenge ∈ issued, payload = int64Text challenge ∧
      users walletId network ≠ some challenge ∧ ∀ j, waits j ≠ some challenge
  single : ∀ i j key, taken i = some key → taken j = some key → i = j

namespace Tidy

variable {users : Str → Str → Option Int} {issued : List Int} {waits : Nat → Option Int}
  {taken : Nat → Option (Str × Str × Str)} {i : Nat} {challenge : Int}

theorem update_none_ne {j : Nat} {value : Option Int} (h : waits j ≠ value)
    (hnone : none ≠ value) : Function.update waits i none j ≠ value := by
  rw [Function.update_apply]
  split
  · exact hnone
  · exact h

theorem of_update_none {j : Nat} (h : Function.update waits i none j = some challenge) :
    j ≠ i ∧ waits j = some challenge := by
  rw [Function.update_apply] at h
  split at h
  · exact absurd h (by simp)
  · next hne => exact ⟨hne, h⟩

theorem idle (h : Tidy users issued waits taken) (i : Nat) :
    Tidy users issued (Function.update waits i none) taken where
  stored := h.stored
  waiting j challenge hj := h.waiting j challenge (of_update_none hj).2
  once j k challenge hj hk := h.once j k challenge (of_update_none hj).2 (of_update_none hk).2
  spent j walletId network payload hj := by
    obtain ⟨challenge, hissued, hpayload, hrow, hwaits⟩ := h.spent j walletId network payload hj
    exact ⟨challenge, hissued, hpayload, hrow, fun k => update_none_ne (hwaits k) (by simp)⟩
  single := h.single

theorem draw (h : Tidy users issued waits taken) (hnew : challenge ∉ issued) (i : Nat) :
    Tidy users (challenge :: issued) (Function.update waits i (some challenge)) taken where
  stored walletId network value hrow := List.mem_cons_of_mem _ (h.stored _ _ value hrow)
  waiting j value hj := by
    rw [Function.update_apply] at hj
    split at hj
    · rw [Option.some.injEq] at hj
      subst hj
      exact ⟨List.mem_cons_self, fun _ _ hrow => hnew (h.stored _ _ _ hrow)⟩
    · exact ⟨List.mem_cons_of_mem _ (h.waiting j value hj).1, (h.waiting j value hj).2⟩
  once j k value hj hk := by
    rw [Function.update_apply] at hj hk
    split at hj
    · next hji =>
      split at hk
      · next hki => exact hji.trans hki.symm
      · rw [← hj] at hk
        exact absurd (h.waiting k challenge hk).1 hnew
    · split at hk
      · rw [← hk] at hj
        exact absurd (h.waiting j challenge hj).1 hnew
      · exact h.once j k value hj hk
  spent j walletId network payload hj := by
    obtain ⟨value, hissued, hpayload, hrow, hwaits⟩ := h.spent j walletId network payload hj
    refine ⟨value, List.mem_cons_of_mem _ hissued, hpayload, hrow, ?_⟩
    intro k
    rw [Function.update_apply]
    split
    · intro heq
      rw [Option.some.injEq] at heq
      rw [heq] at hnew
      exact hnew hissued
    · exact hwaits k
  single := h.single

/-- A call writes the value that it waits with, over any row. -/
theorem store (h : Tidy users issued waits taken) (hi : waits i = some challenge)
    (walletId network : Str) :
    Tidy (update₂ users walletId network (some challenge)) issued (Function.update waits i none)
      taken where
  stored walletId' network' value hrow := by
    rw [update₂_apply] at hrow
    split at hrow
    · rw [Option.some.injEq] at hrow
      rw [← hrow]
      exact (h.waiting i challenge hi).1
    · exact h.stored walletId' network' value hrow
  waiting j value hj := by
    obtain ⟨hne, hwaits⟩ := of_update_none hj
    refine ⟨(h.waiting j value hwaits).1, ?_⟩
    intro walletId' network'
    rw [update₂_apply]
    split
    · intro heq
      rw [← heq] at hwaits
      exact hne (h.once j i challenge hwaits hi)
    · exact (h.waiting j value hwaits).2 walletId' network'
  once j k value hj hk := h.once j k value (of_update_none hj).2 (of_update_none hk).2
  spent j walletId' network' payload hj := by
    obtain ⟨value, hissued, hpayload, hrow, hwaits⟩ := h.spent j walletId' network' payload hj
    refine ⟨value, hissued, hpayload, ?_, fun k => update_none_ne (hwaits k) (by simp)⟩
    rw [update₂_apply]
    split
    · intro heq
      rw [← heq] at hwaits
      exact hwaits i hi
    · exact hrow
  single := h.single

/-- A call writes over the value that it has read, and is accepted with it. -/
theorem accept (h : Tidy users issued waits taken) (hi : waits i = some challenge)
    {walletId network : Str} {old : Int} (hold : users walletId network = some old) :
    Tidy (update₂ users walletId network (some challenge)) issued (Function.update waits i none)
      (Function.update taken i (some (walletId, network, int64Text old))) where
  stored := (h.store hi walletId network).stored
  waiting := (h.store hi walletId network).waiting
  once := (h.store hi walletId network).once
  spent j walletId' network' payload hj := by
    rw [Function.update_apply] at hj
    split at hj
    · simp only [Option.some.injEq, Prod.mk.injEq] at hj
      obtain ⟨rfl, rfl, rfl⟩ := hj
      refine ⟨old, h.stored _ _ old hold, rfl, ?_, ?_⟩
      · rw [update₂_same]
        intro heq
        exact (h.waiting i challenge hi).2 walletId network (hold.trans heq.symm)
      · intro k hk
        exact (h.waiting k old (of_update_none hk).2).2 _ _ hold
    · exact (h.store hi walletId network).spent j walletId' network' payload hj
  single j k key hj hk := by
    -- the row still held the old value, so no call has been accepted with it before
    have hfirst (j : Nat) : taken j ≠ some (walletId, network, int64Text old) := by
      intro hj
      obtain ⟨value, _, htext, hrow, _⟩ := h.spent j walletId network _ hj
      rw [int64Text_injective htext] at hold
      exact hrow hold
    rw [Function.update_apply] at hj hk
    split at hj
    · next hji =>
      split at hk
      · next hki => exact hji.trans hki.symm
      · rw [← hj] at hk
        exact absurd hk (hfirst k)
    · split at hk
      · rw [← hk] at hj
        exact absurd hj (hfirst j)
      · exact h.single j k key hj hk

end Tidy

/-! ## Runs -/

structure AuthWorld.Orderly (w : AuthWorld) : Prop where
  sound : ∀ call ∈ w.calls, Sound call.walletId call.network call.program
  tidy : Tidy w.users w.issued w.waits w.taken

section Steps

variable {w : AuthWorld} {i : Nat} {call : VerifyCall}

theorem AuthWorld.Fresh.orderly (h : w.Fresh) : w.Orderly := by
  have hwaits (i : Nat) : w.waits i = none := by
    simp [AuthWorld.waits, h.calls]
  have htaken (i : Nat) : w.taken i = none := by
    simp [AuthWorld.taken, h.calls]
  constructor
  · rw [h.calls]
    exact fun _ hcall => absurd hcall List.not_mem_nil
  · constructor
    case stored => exact h.issued
    all_goals simp [hwaits, htaken]

def AuthWorld.goOn (w : AuthWorld) (i : Nat) (call : VerifyCall)
    (next : AuthM (Except String Bool)) : AuthWorld :=
  { w with calls := w.calls.set i { call with program := next } }

theorem AuthWorld.waits_goOn (hcall : w.calls[i]? = some call)
    (next : AuthM (Except String Bool)) :
    (w.goOn i call next).waits = Function.update w.waits i (pending next) := by
  funext j
  simp only [AuthWorld.waits, AuthWorld.goOn, Function.update_apply]
  have hi : i < w.calls.length := (List.getElem?_eq_some_iff.mp hcall).1
  by_cases hj : j = i
  · subst hj
    rw [if_pos rfl, List.getElem?_set_self hi]
    rfl
  · rw [if_neg hj, List.getElem?_set_ne (Ne.symm hj)]

theorem AuthWorld.taken_goOn (hcall : w.calls[i]? = some call)
    (next : AuthM (Except String Bool)) :
    (w.goOn i call next).taken = Function.update w.taken i
      (if accepted next then some (call.walletId, call.network, call.payload) else none) := by
  funext j
  simp only [AuthWorld.taken, AuthWorld.goOn, Function.update_apply]
  have hi : i < w.calls.length := (List.getElem?_eq_some_iff.mp hcall).1
  by_cases hj : j = i
  · subst hj
    rw [if_pos rfl, List.getElem?_set_self hi]
    rfl
  · rw [if_neg hj, List.getElem?_set_ne (Ne.symm hj)]

theorem AuthWorld.update_taken_none (hcall : w.calls[i]? = some call)
    (hrunning : accepted call.program = false) : Function.update w.taken i none = w.taken := by
  apply Function.update_eq_self_iff.mpr
  simp [AuthWorld.taken, hcall, hrunning]

theorem AuthWorld.Orderly.goOn (h : w.Orderly) {w' : AuthWorld} (hcalls : w'.calls = w.calls)
    (hcall : w.calls[i]? = some call) {next : AuthM (Except String Bool)}
    (hsound : Sound call.walletId call.network next)
    (htidy : Tidy w'.users w'.issued (Function.update w.waits i (pending next))
      (Function.update w.taken i
        (if accepted next then some (call.walletId, call.network, call.payload) else none))) :
    (w'.goOn i call next).Orderly := by
  have hwaits : w'.waits = w.waits := by
    unfold AuthWorld.waits
    rw [hcalls]
  have htaken : w'.taken = w.taken := by
    unfold AuthWorld.taken
    rw [hcalls]
  have hcall' : w'.calls[i]? = some call := by
    rw [hcalls]
    exact hcall
  constructor
  · intro c hc
    rcases List.mem_or_eq_of_mem_set hc with hc | rfl
    · rw [hcalls] at hc
      exact h.sound c hc
    · exact hsound
  · rw [AuthWorld.waits_goOn hcall', AuthWorld.taken_goOn hcall', hwaits, htaken]
    exact htidy

theorem AuthWorld.effect_calls (w : AuthWorld) (r : AuthRequest) (answer : r.Answer) :
    (w.effect r answer).calls = w.calls := by
  unfold AuthWorld.effect
  split
  · rfl
  · split <;> rfl
  · rfl

/-- The world in which the effect of a request has taken place, or not. -/
def AuthWorld.afterEffect (w : AuthWorld) (r : AuthRequest) (answer : r.Answer) (written : Bool) :
    AuthWorld :=
  if written then w.effect r answer else w

theorem AuthWorld.afterEffect_calls (w : AuthWorld) (r : AuthRequest) (answer : r.Answer)
    (written : Bool) : (w.afterEffect r answer written).calls = w.calls := by
  unfold AuthWorld.afterEffect
  split
  · exact w.effect_calls r answer
  · rfl

theorem AuthWorld.serve_eq (hcall : w.calls[i]? = some call) {r : AuthRequest}
    {rest : r.Answer → AuthM (Except String Bool)} (hprogram : call.program = .call r rest)
    (answer : (r : AuthRequest) → r.Answer) (written : Bool) :
    w.serve i answer written =
      (w.afterEffect r (answer r) written).goOn i call (rest (answer r)) := by
  unfold AuthWorld.serve AuthWorld.goOn
  rw [AuthWorld.afterEffect_calls]
  simp only [hcall, hprogram]
  rfl

/-- An update that was written or not: the value no longer waits. -/
theorem AuthWorld.Orderly.tidy_update (h : w.Orderly) {challenge : Int}
    (hwaits : w.waits i = some challenge) (walletId network : Str) (answer : Except String Unit)
    (written : Bool) :
    Tidy (w.afterEffect (.updateUserChallenge walletId network challenge) answer written).users
      (w.afterEffect (.updateUserChallenge walletId network challenge) answer written).issued
      (Function.update w.waits i none) w.taken := by
  unfold AuthWorld.afterEffect
  cases written with
  | false => exact h.tidy.idle i
  | true =>
      simp only [if_true, AuthWorld.effect]
      split
      · exact h.tidy.store hwaits walletId network
      · exact h.tidy.idle i

section Serve

variable {walletId network sigBase64 payload : Str} {r : AuthRequest}
  {rest : r.Answer → AuthM (Except String Bool)}

theorem AuthWorld.Orderly.goOn_idle (h : w.Orderly)
    (hcall : w.calls[i]? = some ⟨walletId, network, sigBase64, payload, .call r rest⟩)
    {answer : r.Answer} {written : Bool} (hidle : Idle (rest answer))
    (htidy : Tidy (w.afterEffect r answer written).users (w.afterEffect r answer written).issued
      (Function.update w.waits i none) w.taken) :
    ((w.afterEffect r answer written).goOn i
      ⟨walletId, network, sigBase64, payload, .call r rest⟩ (rest answer)).Orderly := by
  have hsound := (h.sound _ (List.mem_of_getElem? hcall) answer).2
  apply h.goOn (w.afterEffect_calls r answer written) hcall hsound
  rw [hidle.1, hidle.2]
  simp only [Bool.false_eq_true, if_false, AuthWorld.update_taken_none hcall rfl]
  exact htidy

end Serve

theorem AuthWorld.Orderly.serve (h : w.Orderly)
    {answer : (r : AuthRequest) → r.Answer} {written : Bool}
    (hallowed : w.allowed (.serve i answer written) = true)
    (hfinds : w.findsRead (.serve i answer written) = true) :
    (w.serve i answer written).Orderly := by
  cases hcall : w.calls[i]? with
  | none =>
      unfold AuthWorld.serve
      rw [hcall]
      exact h
  | some call =>
      obtain ⟨walletId, network, sigBase64, payload, program⟩ := call
      cases program with
      | ret value =>
          unfold AuthWorld.serve
          rw [hcall]
          exact h
      | call r rest =>
          simp only [AuthWorld.allowed, AuthWorld.findsRead, hcall] at hallowed hfinds
          rw [AuthWorld.serve_eq hcall rfl]
          obtain ⟨hfollows, hsound⟩ := h.sound _ (List.mem_of_getElem? hcall) (answer r)
          cases r with
          | getPublicKey accountId net =>
              apply h.goOn_idle hcall hfollows
              cases written <;> exact h.tidy.idle i
          | getUserChallenge accountId net =>
              apply h.goOn_idle hcall hfollows
              cases written <;> exact h.tidy.idle i
          | randRead =>
              cases hdrawn : answer .randRead with
              | error err =>
                  rw [hdrawn] at hfollows
                  apply h.goOn_idle hcall hfollows
                  cases written <;> exact h.tidy.idle i
              | ok challenge =>
                  rw [hdrawn] at hallowed hfollows hsound
                  simp only [AuthWorld.honest, Bool.and_eq_true, Bool.not_eq_true',
                    List.contains_eq_mem, decide_eq_false_iff_not] at hallowed
                  obtain ⟨hwritten, hnew⟩ := hallowed
                  subst hwritten
                  apply h.goOn (w.afterEffect_calls ..) hcall hsound
                  rw [hfollows.1, hfollows.2]
                  simp only [Bool.false_eq_true, if_false, AuthWorld.update_taken_none hcall rfl]
                  exact h.tidy.draw hnew i
          | updateUserChallenge accountId net challenge =>
              have hwaits : w.waits i = some challenge := by
                simp [AuthWorld.waits, hcall, pending]
              cases hupdated : answer (.updateUserChallenge accountId net challenge) with
              | error err =>
                  rw [hupdated] at hfollows
                  exact h.goOn_idle hcall hfollows (h.tidy_update hwaits ..)
              | ok _ =>
                  rw [hupdated] at hallowed hfollows hsound
                  simp only [hupdated, beq_iff_eq] at hfinds
                  obtain ⟨old, hold, htext⟩ := Option.map_eq_some_iff.mp hfinds
                  obtain ⟨rfl, rfl, hnext⟩ := hfollows
                  have hwritten : written = true := hallowed
                  subst hwritten
                  apply h.goOn (w.afterEffect_calls ..) hcall hsound
                  rw [hnext]
                  simp only [AuthWorld.afterEffect, AuthWorld.effect, if_true, hold,
                    Option.isSome_some]
                  split
                  · rw [← htext]
                    exact h.tidy.accept hwaits hold
                  · rw [AuthWorld.update_taken_none hcall rfl]
                    exact h.tidy.store hwaits accountId net

theorem bind_concat {α : Type} {f : VerifyCall → Option α} (hf : f call = none)
    (calls : List VerifyCall) (j : Nat) : (calls ++ [call])[j]?.bind f = calls[j]?.bind f := by
  rw [List.getElem?_append]
  split
  · rfl
  · next hj =>
    rw [List.getElem?_eq_none (not_lt.mp hj)]
    cases hlast : [call][j - calls.length]? with
    | none => rfl
    | some last =>
        rw [List.mem_singleton.mp (List.mem_of_getElem? hlast)]
        exact hf

theorem AuthWorld.Orderly.start (h : w.Orderly)
    (hsound : Sound call.walletId call.network call.program) (hidle : Idle call.program) :
    { w with calls := w.calls ++ [call] }.Orderly := by
  have hwaits : AuthWorld.waits { w with calls := w.calls ++ [call] } = w.waits :=
    funext fun j => bind_concat hidle.1 w.calls j
  have htaken : AuthWorld.taken { w with calls := w.calls ++ [call] } = w.taken :=
    funext fun j => bind_concat (by simp [hidle.2]) w.calls j
  constructor
  · intro c hc
    rcases List.mem_append.mp hc with hc | hc
    · exact h.sound c hc
    · rw [List.mem_singleton.mp hc]
      exact hsound
  · rw [hwaits, htaken]
    exact h.tidy

theorem AuthWorld.Orderly.next (p : AuthPlatform) (h : w.Orderly) {l : AuthLabel}
    (hallowed : (authSystem p).Allowed w l) (hfinds : w.findsRead l = true) :
    ((authSystem p).next w l).Orderly := by
  cases l with
  | getChallenge walletId network => exact h
  | verifyChallenge walletId network sigBase64 payload =>
      obtain ⟨hidle, hsound⟩ := sound_verifyChallenge p network sigBase64 payload hallowed
      exact h.start hsound hidle
  | serve i answer written => exact h.serve hallowed hfinds

end Steps

/-- In every run in which each replacement of a challenge that succeeds finds the challenge that
its call has read, no challenge authenticates two calls. -/
theorem challenge_single_use (p : AuthPlatform) {w : AuthWorld} (hw : w.Fresh)
    {ls : List AuthLabel} (h : (authSystem p).Runs (fun w l => w.findsRead l = true) w ls) :
    ((authSystem p).run w ls).SingleUse :=
  (h.preserves (fun _ _ horderly hallowed hfinds => horderly.next p hallowed hfinds)
    hw.orderly).tidy.single

/-! ## Two calls with one response -/

/-- The texts of the pattern are the accounts, and every signature is valid. -/
def samplePlatform : AuthPlatform where
  accountIDFromString s := if isAccountId s then .ok s else .error "invalid account id"
  verifySig _ _ _ := .ok true
  digest s := s
  canonical s accountId hs h := by
    rw [if_pos hs] at h
    exact (Except.ok.inj h).symm

def sampleWallet : Str := "0.0.1001".toList

def sampleUsers : AuthWorld where
  users walletId network :=
    if walletId = sampleWallet ∧ network = "testnet".toList then some 123456 else none
  issued := [123456]
  calls := []

theorem sampleUsers_fresh : sampleUsers.Fresh where
  calls := rfl
  issued walletId network challenge h := by
    simp only [sampleUsers] at h ⊢
    split at h
    · rw [Option.some.injEq] at h
      rw [← h]
      exact List.mem_cons_self
    · exact absurd h (by simp)

/-- Every request succeeds; the row and the drawn value are as given. -/
def answers (row drawn : Int) : (r : AuthRequest) → r.Answer
  | .getPublicKey _ _ => .ok []
  | .getUserChallenge _ _ => .ok row
  | .randRead => .ok drawn
  | .updateUserChallenge _ _ _ => .ok ()

def sampleVerify (payload : Str) : AuthLabel :=
  .verifyChallenge sampleWallet "testnet".toList "c2lnbmF0dXJl".toList payload

/-- A call, its replay, and a call with the challenge that the first one left. -/
def callsInTurn : List AuthLabel :=
  sampleVerify "123456".toList :: List.replicate 4 (.serve 0 (answers 123456 777777) true) ++
    (sampleVerify "123456".toList :: List.replicate 2 (.serve 1 (answers 777777 0) true) ++
      sampleVerify "777777".toList :: List.replicate 4 (.serve 2 (answers 777777 888888) true))

def overlappingCalls : List AuthLabel :=
  sampleVerify "123456".toList :: sampleVerify "123456".toList ::
    (List.replicate 4 [.serve 0 (answers 123456 777777) true,
      .serve 1 (answers 123456 888888) true]).flatten

theorem callsInTurn_runs : (authSystem samplePlatform).Runs (fun w l => w.findsRead l = true)
    sampleUsers callsInTurn := by
  decide +kernel

theorem challenge_single_use_sample :
    let w := (authSystem samplePlatform).run sampleUsers callsInTurn
    w.taken 0 = some (sampleWallet, "testnet".toList, "123456".toList) ∧ w.taken 1 = none ∧
      w.taken 2 = some (sampleWallet, "testnet".toList, "777777".toList) ∧ w.SingleUse :=
  ⟨by decide +kernel, by decide +kernel, by decide +kernel,
    challenge_single_use samplePlatform sampleUsers_fresh callsInTurn_runs⟩

theorem overlappingCalls_runs :
    (authSystem samplePlatform).Runs (fun _ _ => True) sampleUsers overlappingCalls := by
  decide +kernel

/-- Two calls are accepted with one challenge. -/
theorem challenge_used_twice : ¬∀ (p : AuthPlatform) (w : AuthWorld) (ls : List AuthLabel),
    w.Fresh → (authSystem p).Runs (fun _ _ => True) w ls →
      ((authSystem p).run w ls).SingleUse := by
  intro h
  have hsingle := h samplePlatform sampleUsers overlappingCalls sampleUsers_fresh
    overlappingCalls_runs
  have hfirst : ((authSystem samplePlatform).run sampleUsers overlappingCalls).taken 0 =
      some (sampleWallet, "testnet".toList, "123456".toList) := by
    decide +kernel
  have hsecond : ((authSystem samplePlatform).run sampleUsers overlappingCalls).taken 1 =
      some (sampleWallet, "testnet".toList, "123456".toList) := by
    decide +kernel
  exact absurd (hsingle 0 1 _ hfirst hsecond) (by decide)

end PrismBackend.Auth
