import PrismBackend.Api.Attempts

/-!
# API: the stream of matches

JetStream keeps the message of a match until a handler acknowledges or terminates
it, and hands it out twenty times at most. A match that a contract has executed
keeps its message until it is finalized, as long as every submission is marked.
-/

namespace PrismBackend.Api

open PrismBackend.Lib PrismBackend.Clob PrismBackend.PrismV2

/-! ## The stream -/

/-- `nats.MaxDeliver` of the consumer `api-settlement-v2`. -/
def maxDeliver : Nat := 20

/-- The messages as the consumer keeps them, beside the world of their handlers. -/
structure MatchStream where
  world : World
  deliveries : ClobMatch → Nat
  acknowledged : List ClobMatch
  terminated : List ClobMatch

inductive StreamEvent
  | api (l : Label)
  /- what a handler has returned reaches the stream; otherwise it is lost with the handler -/
  | report (i : Nat)

def StreamEvent.label : StreamEvent → Label
  | .api l => l
  | .report i => .stop i

/-- The message and the outcome of a handler that has returned. -/
def World.returned (w : World) (i : Nat) : Option (ClobMatch × SettlementOutcome) :=
  w.handlers[i]?.bind fun h =>
    match h.program with
    | .ret settlement => some (h.msg, settlement.1)
    | .call _ _ => none

namespace MatchStream

variable (s : MatchStream)

def reported (outcome : SettlementOutcome) : StreamEvent → List ClobMatch
  | .api _ => []
  | .report i =>
    match s.world.returned i with
    | some (m, returned) => if returned = outcome then [m] else []
    | none => []

def delivered : StreamEvent → ClobMatch → Nat
  | .api (.deliver m) => Function.update s.deliveries m (s.deliveries m + 1)
  | _ => s.deliveries

/-- A match that is done is acknowledged, one that is rejected is terminated, and any other is
delivered again later. -/
def next (p : Platform) (nets : Str → Network) (s : MatchStream) (e : StreamEvent) :
    MatchStream where
  world := s.world.next p nets e.label
  deliveries := s.delivered e
  acknowledged := s.reported .done e ++ s.acknowledged
  terminated := s.reported .rejected e ++ s.terminated

def Deliverable (m : ClobMatch) : Prop :=
  m ∉ s.acknowledged ∧ m ∉ s.terminated ∧ s.deliveries m < maxDeliver

def Allowed (p : Platform) (nets : Str → Network) (s : MatchStream) (e : StreamEvent) : Prop :=
  s.world.Allowed p nets e.label ∧ s.world.KeepsMarkets e.label ∧
    match e with
    | .api (.deliver m) => s.Deliverable m
    | .api _ => True
    | .report i => (s.world.returned i).isSome = true

/-- Submissions are reported and marked, a message is handled by one handler at a time, and it is
not delivered for the last time. -/
def Careful (e : StreamEvent) : Prop :=
  s.world.Careful e.label ∧ ∀ m, e = .api (.deliver m) → s.deliveries m + 1 < maxDeliver

structure Fresh : Prop where
  world : s.world.Fresh
  deliveries : ∀ m, s.deliveries m = 0
  acknowledged : s.acknowledged = []
  terminated : s.terminated = []

end MatchStream

def matchStream (p : Platform) (nets : Str → Network) : System MatchStream StreamEvent where
  next := MatchStream.next p nets
  Allowed := MatchStream.Allowed p nets

section Keeps

variable (p : Platform) (nets : Str → Network)

structure MatchStream.Guarded (messages : Set ClobMatch) (s : MatchStream) : Prop where
  tracks : s.world.Tracks p nets messages
  dispatched : s.world.Dispatched p nets messages
  recorded : s.world.Recorded p nets messages
  marks : s.world.Marks p messages
  /- a message is terminated when its match was not submitted and nobody works on it -/
  terminated : ∀ m ∈ s.terminated, m ∈ messages ∧ (∀ h ∈ s.world.handlers, h.msg ≠ m) ∧
    ∀ matchID, Names p m matchID → ¬s.world.HasSubmitted p matchID
  acknowledged : ∀ m ∈ s.acknowledged, ∃ q, s.world.Prepares p {m} q ∧
    s.world.db.finalized q.record.matchID = true
  deliveries : ∀ m, s.deliveries m < maxDeliver

end Keeps

section Steps

variable {p : Platform} {nets : Str → Network} {messages : Set ClobMatch} {s : MatchStream}
  {e : StreamEvent}

/-! ## Reports -/

theorem World.returned_eq_some {w : World} {i : Nat} {m : ClobMatch}
    {outcome : SettlementOutcome} : w.returned i = some (m, outcome) ↔
      ∃ h settlement, w.handlers[i]? = some h ∧ h.program = .ret settlement ∧ h.msg = m ∧
        settlement.1 = outcome := by
  rw [World.returned, Option.bind_eq_some_iff]
  constructor
  · rintro ⟨h, hh, hreturned⟩
    split at hreturned
    · next settlement hprogram =>
      cases hreturned
      exact ⟨h, settlement, hh, hprogram, rfl, rfl⟩
    · exact absurd hreturned (by simp)
  · rintro ⟨h, settlement, hh, hprogram, rfl, rfl⟩
    refine ⟨h, hh, ?_⟩
    rw [hprogram]

theorem MatchStream.mem_reported {outcome : SettlementOutcome} {m : ClobMatch} :
    m ∈ s.reported outcome e ↔
      ∃ i, e = .report i ∧ s.world.returned i = some (m, outcome) := by
  cases e with
  | api l => simp [MatchStream.reported]
  | report i =>
      simp only [MatchStream.reported, StreamEvent.report.injEq, exists_eq_left']
      split
      · next m' returned hreturned =>
        rw [hreturned, Option.some.injEq, Prod.mk.injEq]
        split
        · next heq => simp [heq, eq_comm]
        · next hne => simp [hne]
      · next hnone => simp [hnone]

/-! ## The invariant -/

theorem MatchStream.delivered_of_ne {m : ClobMatch} (h : e ≠ .api (.deliver m)) :
    s.delivered e m = s.deliveries m := by
  unfold MatchStream.delivered
  split
  · next m' =>
    rw [Function.update_of_ne]
    rintro rfl
    exact h rfl
  · rfl

/-- No handler of a terminated message comes back. -/
theorem MatchStream.Guarded.terminated_next (h : s.Guarded p nets messages)
    (hkeccak : ∀ text, (p.keccak256 text).length = 32)
    (hsignatures : ∀ row signature, p.signatureMap row = .ok signature →
      signature.length < 2 ^ 32) (hwords : ∀ m ∈ messages, InWords m)
    (hone : OneMessage p messages) (hallowed : s.Allowed p nets e) :
    ∀ m ∈ (s.next p nets e).terminated, m ∈ messages ∧
      (∀ g ∈ (s.next p nets e).world.handlers, g.msg ≠ m) ∧
        ∀ matchID, Names p m matchID → ¬(s.next p nets e).world.HasSubmitted p matchID := by
  intro m hm
  rcases List.mem_append.mp hm with hnew | hold
  · obtain ⟨i, rfl, hreturned⟩ := MatchStream.mem_reported.mp hnew
    obtain ⟨g, settlement, hg, hprogram, rfl, hrejected⟩ := World.returned_eq_some.mp hreturned
    have hmem := List.mem_of_getElem? hg
    refine ⟨h.tracks.delivered g hmem, fun g' hg' => eraseIdx_key_ne h.marks.alone hg hg', ?_⟩
    intro matchID hnames hsubmitted
    rcases World.hasSubmitted_next hkeccak hsignatures hwords h.tracks hsubmitted with hbefore |
      ⟨_, _, _, _, hlabel, _⟩
    · exact h.marks.rejected h.tracks hone hmem hprogram hrejected hnames hbefore
    · exact absurd hlabel nofun
  · obtain ⟨hmessage, hfree, hunsubmitted⟩ := h.terminated m hold
    refine ⟨hmessage, ?_, ?_⟩
    · rintro g hg rfl
      rcases World.mem_handlers_next hg with hkept | ⟨m, hlabel, rfl⟩ |
        ⟨_, _, _, handler, _, _, _, hhandler, _, rfl⟩
      · exact hfree g hkept rfl
      · cases e with
        | report i => exact absurd hlabel nofun
        | api l =>
            obtain rfl : l = .deliver m := hlabel
            exact hallowed.2.2.2.1 hold
      · exact hfree handler (List.mem_of_getElem? hhandler) rfl
    · intro matchID hnames hsubmitted
      rcases World.hasSubmitted_next hkeccak hsignatures hwords h.tracks hsubmitted with hbefore |
        ⟨_, _, g, q, _, hsubmitting, rfl⟩
      · exact hunsubmitted matchID hnames hbefore
      · have hg := List.mem_of_getElem? hsubmitting.handler
        exact hfree g hg (hone g.msg (h.tracks.delivered g hg) m hmessage _
          hsubmitting.handles.prepares.names hnames)

theorem MatchStream.Guarded.acknowledged_next (h : s.Guarded p nets messages) :
    ∀ m ∈ (s.next p nets e).acknowledged, ∃ q, (s.next p nets e).world.Prepares p {m} q ∧
      (s.next p nets e).world.db.finalized q.record.matchID = true := by
  intro m hm
  have hlater := s.world.later_next p nets e.label
  rcases List.mem_append.mp hm with hnew | hold
  · obtain ⟨i, rfl, hreturned⟩ := MatchStream.mem_reported.mp hnew
    obtain ⟨g, settlement, hg, hprogram, rfl, hdone⟩ := World.returned_eq_some.mp hreturned
    obtain ⟨q, hq, hfinal⟩ := h.marks.done h.tracks (List.mem_of_getElem? hg) hprogram hdone
    exact ⟨q, hq.later hlater, World.finalized_next hfinal⟩
  · obtain ⟨q, hq, hfinal⟩ := h.acknowledged m hold
    exact ⟨q, hq.later hlater, World.finalized_next hfinal⟩

theorem MatchStream.Guarded.deliveries_next (h : s.Guarded p nets messages)
    (hcareful : s.Careful e) (m : ClobMatch) : (s.next p nets e).deliveries m < maxDeliver := by
  by_cases hdeliver : e = .api (.deliver m)
  · subst hdeliver
    have hless := hcareful.2 m rfl
    simpa only [MatchStream.next, MatchStream.delivered, Function.update_self] using hless
  · exact (MatchStream.delivered_of_ne hdeliver).trans_lt (h.deliveries m)

theorem MatchStream.Fresh.guarded (h : s.Fresh) : s.Guarded p nets messages := by
  obtain ⟨htracks, hdispatched, hrecorded⟩ := h.world.start
  have hunsubmitted {matchID : Bytes32} : ¬s.world.HasSubmitted p matchID := by
    rintro ⟨t, ht, _⟩
    rw [h.world.sent] at ht
    exact absurd ht List.not_mem_nil
  have hnone {g : Handler} : g ∉ s.world.handlers := by
    rw [h.world.handlers]
    exact List.not_mem_nil
  refine ⟨htracks, hdispatched, hrecorded, ⟨?_, ?_, ?_, ?_⟩, ?_, ?_, ?_⟩
  · rw [h.world.handlers]
    exact List.nodup_nil
  · exact fun g hg => absurd hg hnone
  · exact fun matchID hsubmitted => absurd hsubmitted hunsubmitted
  · exact fun g hg => absurd hg hnone
  · rw [h.terminated]
    exact fun m hm => absurd hm List.not_mem_nil
  · rw [h.acknowledged]
    exact fun m hm => absurd hm List.not_mem_nil
  · intro m
    rw [h.deliveries]
    decide

theorem MatchStream.Guarded.kept (h : s.Guarded p nets messages)
    (hone : OneMessage p messages) {m : ClobMatch} (hm : m ∈ messages) {q : Prepared}
    (hq : s.world.Prepares p {m} q)
    (hexecuted : (s.world.contract nets q.cfg.net).executedMatches q.matchID = true) :
    m ∉ s.terminated ∧
      (∀ i outcome, s.world.returned i = some (m, outcome) → outcome ≠ .rejected) ∧
      (s.world.db.finalized q.record.matchID = true ∨ s.Deliverable m) := by
  have hsubmitted := h.dispatched.hasSubmitted hexecuted
  have hopen : m ∉ s.terminated := by
    intro hterminated
    exact (h.terminated m hterminated).2.2 _ hq.names hsubmitted
  refine ⟨hopen, ?_, ?_⟩
  · rintro i outcome hreturned rfl
    obtain ⟨g, settlement, hg, hprogram, rfl, hrejected⟩ := World.returned_eq_some.mp hreturned
    exact h.marks.rejected h.tracks hone (List.mem_of_getElem? hg) hprogram hrejected hq.names
      hsubmitted
  · by_cases hacknowledged : m ∈ s.acknowledged
    · obtain ⟨q', hq', hfinal⟩ := h.acknowledged m hacknowledged
      rw [hq'.recordID, hq'.matchID_eq hq, ← hq.recordID] at hfinal
      exact Or.inl hfinal
    · exact Or.inr ⟨hacknowledged, hopen, h.deliveries m⟩

theorem MatchStream.Guarded.announced (h : s.Guarded p nets messages)
    (hkeccak : ∀ text, (p.keccak256 text).length = 32)
    (hsignatures : ∀ row signature, p.signatureMap row = .ok signature →
      signature.length < 2 ^ 32) (hwords : ∀ m ∈ messages, InWords m) {net : Str}
    {matchID : Bytes32}
    (hexecuted : (s.world.contract nets net).executedMatches matchID = true) :
    ∃ m ∈ messages, ∃ q, s.world.Prepares p {m} q ∧ q.cfg.net = net ∧ q.matchID = matchID := by
  obtain ⟨r, hr, hid⟩ := (s.world.executed_iff nets net matchID).mp hexecuted
  obtain ⟨q, x, y, hran, hq⟩ := h.dispatched.ran_of hkeccak hsignatures hwords hr hid
  obtain ⟨m, hm, hprepared⟩ := hran.prepares
  exact ⟨m, hm, q, ⟨m, rfl, hprepared⟩, hran.net, hq⟩

section Runs

variable (hkeccak : ∀ text, (p.keccak256 text).length = 32)
  (hsignatures : ∀ row signature, p.signatureMap row = .ok signature → signature.length < 2 ^ 32)
  (hwords : ∀ m ∈ messages, InWords m) (hone : OneMessage p messages)
include hkeccak hsignatures hwords hone

/-- When no message can be delivered any more, every executed match is finalized. -/
theorem MatchStream.Guarded.caught (h : s.Guarded p nets messages)
    (hdone : ∀ m ∈ messages, ¬s.Deliverable m) : s.world.Caught nets := by
  intro M hM net matchID hkey hexecuted
  obtain ⟨m, hm, q, hq, rfl, rfl⟩ := h.announced hkeccak hsignatures hwords hexecuted
  obtain ⟨_, _, hfinal | hdeliverable⟩ := h.kept hone hm hq hexecuted
  · obtain ⟨row, hrow, hstatus⟩ := Db.finalized_iff.mp hfinal
    rw [hq.recordID, ← hkey, Table.find_key hM, Option.some.injEq] at hrow
    rw [hrow]
    exact hstatus
  · exact absurd hdeliverable (hdone m hm)

variable (hcollision : Set.InjOn p.keccak256 (fillPreimages p messages))
include hcollision

theorem MatchStream.Guarded.next (h : s.Guarded p nets messages) (hallowed : s.Allowed p nets e)
    (hof : e.label.Of messages) (hcareful : s.Careful e) :
    (s.next p nets e).Guarded p nets messages where
  tracks := h.tracks.next hallowed.1 hof
  dispatched := h.dispatched.next h.tracks hkeccak hsignatures hwords hallowed.1
  recorded := h.recorded.next hkeccak hwords hcollision (s.world.later_next p nets e.label)
    (World.writes_next h.tracks h.dispatched hkeccak hsignatures hwords hallowed.1)
  marks := h.marks.next hkeccak hsignatures hwords h.tracks hone hallowed.1 hof hallowed.2.1
    hcareful.1
  terminated := h.terminated_next hkeccak hsignatures hwords hone hallowed
  acknowledged := h.acknowledged_next
  deliveries := h.deliveries_next hcareful

end Runs

end Steps

/-! ## A sample match -/

section Sample

instance (s : MatchStream) (m : ClobMatch) : Decidable (s.Deliverable m) :=
  inferInstanceAs (Decidable (_ ∧ _ ∧ _))

abbrev sampleConsumer : System MatchStream StreamEvent :=
  matchStream samplePlatform packingNetworks

/-- Events of the sample match: its delivery, requests of its handler that are answered by a mirror
that lags or granted, its loss or its report, the order of its submission, and a cancellation. -/
inductive StreamPart
  | deliver
  | replies (count : Nat)
  | grants (count : Nat)
  | lose
  | report
  | order
  | cancel

namespace StreamPart

def events (s : MatchStream) : StreamPart → List StreamEvent
  | deliver => [.api (.deliver sampleFill)]
  | replies count => (World.replies samplePlatform packingNetworks count s.world).map .api
  | grants count => (s.world.grants samplePlatform packingNetworks count).map .api
  | lose => [.api (.stop 0)]
  | report => [.report 0]
  | order => [.api (.order 0 sampleWallets)]
  | cancel => [.api (.cancel 1)]

/-- No request of the first handler is a submission. -/
def unsent : Nat → World → Bool
  | 0, _ => true
  | count + 1, w => w.asking.all (fun r => !r.executing) &&
      unsent count (w.next samplePlatform packingNetworks (.serve 0 (w.reply samplePlatform) true))

def ok (s : MatchStream) : StreamPart → Bool
  | deliver => decide (s.Deliverable sampleFill) &&
      decide (s.deliveries sampleFill + 1 < maxDeliver) && s.world.handlers.isEmpty
  | replies count => unsent count s.world
  | grants count => s.world.allGrantable samplePlatform packingNetworks count
  | lose => s.world.asking.all fun r => !(r matches .markMatchSubmitted _ _)
  | report => (s.world.returned 0).isSome
  | order => true
  | cancel => true

def run (parts : List StreamPart) (s : MatchStream) : List StreamEvent :=
  sampleConsumer.script (parts.map fun part s => part.events s) s

/-- The steps of the condition, on the sample message. -/
def Within (s : MatchStream) (e : StreamEvent) : Prop := e.label.Of {sampleFill} ∧ s.Careful e

theorem runs_replies {count : Nat} {s : MatchStream} (h : unsent count s.world = true) :
    sampleConsumer.Runs Within s ((replies count).events s) := by
  induction count generalizing s with
  | zero => trivial
  | succ count ih =>
      rw [unsent, Bool.and_eq_true] at h
      refine ⟨⟨fun g r rest _ _ => s.world.reply_honest r, trivial, trivial⟩, ⟨?_, ?_, ?_⟩,
        ih h.2⟩
      · intro net contractID calldata heq
        cases heq
      · intro g r rest hg hprogram
        cases r with
        | execute net contractID calldata =>
            have hasking : s.world.asking = some (.execute net contractID calldata) := by
              simp only [World.asking, hg, Option.bind_some, hprogram, Program.asks]
            rw [hasking] at h
            exact absurd h.1 (by simp [SettlementRequest.executing])
        | markMatchSubmitted matchID hederaTxID => exact rfl
        | _ => trivial
      · intro m heq
        cases heq

theorem runs_grants {count : Nat} {s : MatchStream}
    (h : s.world.allGrantable samplePlatform packingNetworks count = true) :
    sampleConsumer.Runs Within s ((grants count).events s) := by
  induction count generalizing s with
  | zero => trivial
  | succ count ih =>
      rw [World.allGrantable, Bool.and_eq_true] at h
      refine ⟨⟨World.grant_allowed h.1, trivial, trivial⟩, ⟨s.world.grant_of, ?_, ?_⟩, ih h.2⟩
      · intro g r rest _ _
        cases r with
        | execute net contractID calldata => exact fun _ => ⟨_, rfl⟩
        | markMatchSubmitted matchID hederaTxID => exact rfl
        | _ => trivial
      · intro m heq
        cases heq

theorem careful_stop {w : World}
    (h : w.asking.all (fun r => !(r matches .markMatchSubmitted _ _)) = true) :
    w.Careful (.stop 0) := by
  rintro g matchID hg ⟨hederaTxID, rest, hprogram⟩
  have hasking : w.asking = some (.markMatchSubmitted matchID hederaTxID) := by
    simp only [World.asking, hg, Option.bind_some, hprogram, Program.asks]
  rw [hasking] at h
  exact absurd h (by simp)

theorem careful_report {w : World} (h : (w.returned 0).isSome = true) : w.Careful (.stop 0) := by
  rintro g matchID hg ⟨hederaTxID, rest, hprogram⟩
  obtain ⟨⟨m, outcome⟩, hreturned⟩ := Option.isSome_iff_exists.mp h
  obtain ⟨g', settlement, hg', hprogram', _⟩ := World.returned_eq_some.mp hreturned
  cases hg.symm.trans hg'
  exact absurd (hprogram.symm.trans hprogram') (by simp)

theorem runs {part : StreamPart} {s : MatchStream} (h : part.ok s = true) :
    sampleConsumer.Runs Within s (part.events s) := by
  cases part with
  | deliver =>
      simp only [ok, Bool.and_eq_true, decide_eq_true_eq, List.isEmpty_iff] at h
      obtain ⟨⟨hdeliverable, hless⟩, hidle⟩ := h
      have hfill : sampleFill.fillShares < 2 ^ 64 := by decide
      refine ⟨⟨hfill, trivial, hdeliverable⟩, ⟨rfl, ?_, ?_⟩, trivial⟩
      · intro g hg
        rw [hidle] at hg
        exact absurd hg List.not_mem_nil
      · intro m heq
        cases heq
        exact hless
  | replies count => exact runs_replies h
  | grants count => exact runs_grants h
  | lose => exact ⟨⟨trivial, trivial, trivial⟩, ⟨trivial, careful_stop h, nofun⟩, trivial⟩
  | report => exact ⟨⟨trivial, trivial, h⟩, ⟨trivial, careful_report h, nofun⟩, trivial⟩
  | order => exact ⟨⟨trivial, trivial, trivial⟩, ⟨trivial, trivial, nofun⟩, trivial⟩
  | cancel => exact ⟨⟨trivial, trivial, trivial⟩, ⟨trivial, trivial, nofun⟩, trivial⟩

end StreamPart

end Sample

end PrismBackend.Api
