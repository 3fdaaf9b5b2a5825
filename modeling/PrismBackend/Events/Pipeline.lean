import PrismBackend.Lib.Entries
import PrismBackend.Events.Messages
import PrismBackend.Lib.System

/-!
# Events: from the contract logs to the table

Pollers that publish the logs of the mirror node, each with a table of what it
has published, and an API that stores what is delivered. A publish may fail, a
message may be lost, and processes come and go.
-/

namespace PrismBackend.Events

open PrismBackend.Lib PrismBackend.Clob

/-! ## Pollers -/

/-- The keys in the order in which they were added. -/
structure Dedupe where
  publishedTxs : List Str
  maxSize : Nat

namespace Dedupe

variable (stack : Dedupe)

def isDuplicate (key : Str) : Bool := stack.publishedTxs.contains key

def markPublished (key : Str) : Dedupe :=
  let publishedTxs :=
    if stack.publishedTxs.contains key then stack.publishedTxs else stack.publishedTxs ++ [key]
  { stack with
    publishedTxs := if stack.maxSize < publishedTxs.length then publishedTxs.tail
      else publishedTxs }

end Dedupe

structure Poller where
  id : Nat
  host : Str
  stack : Dedupe

/-! ## State -/

/-- The messages in flight, and the logs that a poll has covered and whose message has not been
lost since. -/
structure Pipeline where
  pollers : Table Poller Nat fun poller => poller.id
  inFlight : List Message
  events : EventRows
  covered : List ContractLog

inductive PipelineEvent
  | start (id : Nat) (host : Str) (maxSize : Nat)
  /- a log on a page that was fetched; its message reaches the bus, or the publish fails -/
  | handle (id : Nat) (log : ContractLog) (reached : Bool)
  /- a message is delivered and its row is stored, or it is lost -/
  | deliver (i : Nat) (stored : Bool)

def Message.isOf (message : Message) (log : ContractLog) : Bool :=
  message == log.message message.evt.host

namespace Pipeline

variable (encoding : Encoding) (networks : PrismV2Networks) (s : Pipeline)

/-! ## Steps -/

/-- The loop body of `pubAllEventsForContract`: the mark does not wait for the publish. -/
def handle (id : Nat) (log : ContractLog) (reached : Bool) : Pipeline :=
  match s.pollers.find id with
  | none => s
  | some poller =>
    let key := encoding.dedupeKey (log.evt poller.host)
    if poller.stack.isDuplicate key then { s with covered := log :: s.covered }
    else
      { s with
        pollers := s.pollers.put { poller with stack := poller.stack.markPublished key }
        inFlight := if reached then s.inFlight ++ [log.message poller.host] else s.inFlight
        covered := if reached then log :: s.covered else s.covered }

/-- The API stores the messages of its contract; a row with the same key is left as it is. -/
def deliver (i : Nat) (stored : Bool) : Pipeline :=
  match s.inFlight[i]? with
  | none => s
  | some message =>
    { s with
      inFlight := s.inFlight.eraseIdx i
      events :=
        if stored && message.isPrismV2 networks then s.events.insert (message.row encoding)
        else s.events
      covered := if stored then s.covered else s.covered.filter fun log => !message.isOf log }

def next : PipelineEvent → Pipeline
  | .start id host maxSize => { s with pollers := s.pollers.insert ⟨id, host, ⟨[], maxSize⟩⟩ }
  | .handle id log reached => s.handle encoding id log reached
  | .deliver i stored => s.deliver encoding networks i stored

end Pipeline

def pipeline (encoding : Encoding) (networks : PrismV2Networks) :
    System Pipeline PipelineEvent where
  next := Pipeline.next encoding networks
  Allowed := fun _ _ => True

instance (encoding : Encoding) (networks : PrismV2Networks) (s : Pipeline) (e : PipelineEvent) :
    Decidable ((pipeline encoding networks).Allowed s e) :=
  inferInstanceAs (Decidable True)

/-! ## The property -/

def SmartContractEventV2.isOf (row : SmartContractEventV2) (log : ContractLog) : Bool :=
  row.net == log.net && row.contractID == log.contractId && row.event == log.event &&
    row.args == log.args && row.txHash == log.txHash && row.eventTimestamp == log.timestamp

namespace Pipeline

variable {encoding : Encoding} {networks : PrismV2Networks} {s : Pipeline} {e : PipelineEvent}

def rowsOf (s : Pipeline) (log : ContractLog) : List SmartContractEventV2 :=
  s.events.rows.filter (·.isOf log)

/-- No log is stored twice, and a log that a poll has covered is stored once its message is
there. -/
structure ExactlyOnce (networks : PrismV2Networks) (s : Pipeline) : Prop where
  never_twice : ∀ log, (s.rowsOf log).length ≤ 1
  not_lost : ∀ log ∈ s.covered, networks log.net = some log.contractId →
    (∀ message ∈ s.inFlight, message.isOf log = false) → (s.rowsOf log).length = 1

/-! ## The condition -/

/-- The message of the log from this host is in flight or stored. -/
def Carries (encoding : Encoding) (s : Pipeline) (log : ContractLog) (host : Str) : Prop :=
  log.message host ∈ s.inFlight ∨ (log.message host).row encoding ∈ s.events.rows

/-- A poller has the host name of what was published of the log before, and skips a log only when
its message was not lost; and different messages have different digests. -/
def Unfailing (encoding : Encoding) (networks : PrismV2Networks) (s : Pipeline) :
    PipelineEvent → Prop
  | .start _ _ _ => True
  | .handle id log _ => ∀ poller ∈ s.pollers.find id,
      (∀ message ∈ s.inFlight, message.isOf log = true → message = log.message poller.host) ∧
        (∀ row ∈ s.events.rows, row.isOf log = true →
          row = (log.message poller.host).row encoding) ∧
        (networks log.net = some log.contractId →
          poller.stack.isDuplicate (encoding.dedupeKey (log.evt poller.host)) = true →
            (∃ message ∈ s.inFlight, message.isOf log = true) ∨
              ∃ row ∈ s.events.rows, row.isOf log = true)
  | .deliver i _ => ∀ message ∈ s.inFlight[i]?, ∀ row ∈ s.events.find (encoding.md5uniq message),
      row = message.row encoding

instance (encoding : Encoding) (networks : PrismV2Networks) (s : Pipeline) :
    (e : PipelineEvent) → Decidable (s.Unfailing encoding networks e)
  | .start _ _ _ => inferInstanceAs (Decidable True)
  | .handle id _ _ => inferInstanceAs (Decidable (∀ _ ∈ s.pollers.find id, _))
  | .deliver i _ => inferInstanceAs (Decidable (∀ _ ∈ s.inFlight[i]?, _))

/-! ## The invariant -/

structure Steady (encoding : Encoding) (networks : PrismV2Networks) (s : Pipeline) : Prop where
  messages : ∀ message ∈ s.inFlight, ∃ log host, message = ContractLog.message log host
  rows : ∀ row ∈ s.events.rows, ∃ log host, row = (ContractLog.message log host).row encoding
  one_host : ∀ log host host', s.Carries encoding log host → s.Carries encoding log host' →
    host = host'
  covered : ∀ log ∈ s.covered, networks log.net = some log.contractId →
    ∃ host, s.Carries encoding log host

theorem row_isOf {log log' : ContractLog} {host : Str}
    (h : ((log'.message host).row encoding).isOf log = true) : log' = log := by
  obtain ⟨net, contractId, event, args, timestamp, txHash, hnet⟩ := log
  obtain ⟨net', contractId', event', args', timestamp', txHash', hnet'⟩ := log'
  simp only [SmartContractEventV2.isOf, Message.row, Message.network, ContractLog.message,
    ContractLog.evt, Bool.and_eq_true, beq_iff_eq, hnet'] at h
  obtain ⟨⟨⟨⟨⟨rfl, rfl⟩, rfl⟩, rfl⟩, rfl⟩, rfl⟩ := h
  rfl

theorem isOf_row (log : ContractLog) (host : Str) :
    ((log.message host).row encoding).isOf log = true := by
  simp [SmartContractEventV2.isOf, Message.row, Message.network, ContractLog.message,
    ContractLog.evt, log.net_lowercase]

theorem row_injective {log log' : ContractLog} {host host' : Str}
    (h : (log'.message host').row encoding = (log.message host).row encoding) :
    log' = log ∧ host' = host := by
  have hlog : log' = log := by
    apply row_isOf
    rw [h]
    exact isOf_row log host
  have hhost : (if host' = [] then none else some host') = if host = [] then none else some host :=
    congrArg SmartContractEventV2.host h
  refine ⟨hlog, ?_⟩
  split at hhost
  · split at hhost
    · simp_all
    · exact absurd hhost (by simp)
  · split at hhost
    · exact absurd hhost (by simp)
    · exact Option.some.inj hhost

theorem message_isOf {log log' : ContractLog} {host : Str}
    (h : (log'.message host).isOf log = true) : log' = log := by
  obtain ⟨net, contractId, event, args, timestamp, txHash, hnet⟩ := log
  obtain ⟨net', contractId', event', args', timestamp', txHash', hnet'⟩ := log'
  simp only [Message.isOf, ContractLog.message, ContractLog.evt, beq_iff_eq, Message.mk.injEq,
    Evt.mk.injEq] at h
  obtain ⟨rfl, rfl, rfl, rfl, rfl, rfl, -⟩ := h
  rfl

theorem isOf_message (log : ContractLog) (host : Str) : (log.message host).isOf log = true := by
  simp [Message.isOf, ContractLog.message, ContractLog.evt]

theorem Steady.exactlyOnce (h : s.Steady encoding networks) : s.ExactlyOnce networks := by
  have hsame (log : ContractLog) : ∀ row ∈ s.rowsOf log, ∃ host,
      row = (log.message host).row encoding ∧ s.Carries encoding log host := by
    intro row hmem
    obtain ⟨hrow, hof⟩ := List.mem_filter.mp hmem
    obtain ⟨log', host, rfl⟩ := h.rows row hrow
    cases row_isOf hof
    exact ⟨host, rfl, Or.inr hrow⟩
  have htwice (log : ContractLog) : (s.rowsOf log).length ≤ 1 := by
    have hnodup : (s.rowsOf log).Nodup := s.events.nodup.of_map.filter _
    match hrows : s.rowsOf log with
    | [] => exact Nat.zero_le 1
    | [row] => exact le_rfl
    | first :: second :: rest =>
        obtain ⟨host, hfirst, hcarries⟩ := hsame log first (by rw [hrows]; simp)
        obtain ⟨host', hsecond, hcarries'⟩ := hsame log second (by rw [hrows]; simp)
        have heq : first = second := by
          rw [hfirst, hsecond, h.one_host log host host' hcarries hcarries']
        rw [hrows, List.nodup_cons] at hnodup
        exact absurd (heq ▸ List.mem_cons_self) hnodup.1
  refine ⟨htwice, fun log hcovered hnetwork hflight => ?_⟩
  obtain ⟨host, hmessage | hrow⟩ := h.covered log hcovered hnetwork
  · exact absurd ((hflight _ hmessage).symm.trans (isOf_message log host)) Bool.false_ne_true
  · have hmem : (log.message host).row encoding ∈ s.rowsOf log :=
      List.mem_filter.mpr ⟨hrow, isOf_row log host⟩
    have hpos := List.length_pos_of_mem hmem
    have hle := htwice log
    omega

/-! ## Steps keep the invariant -/

theorem Steady.start (h : s.Steady encoding networks) (id : Nat) (host : Str) (maxSize : Nat) :
    (s.next encoding networks (.start id host maxSize)).Steady encoding networks :=
  ⟨h.messages, h.rows, h.one_host, h.covered⟩

theorem Steady.handle (h : s.Steady encoding networks) {id : Nat} {log : ContractLog}
    {reached : Bool} (hcondition : s.Unfailing encoding networks (.handle id log reached)) :
    (s.handle encoding id log reached).Steady encoding networks := by
  unfold Pipeline.handle
  split
  · exact h
  next poller hpoller =>
  obtain ⟨hmessages, hrows, hduplicates⟩ := hcondition poller hpoller
  have hhost : ∀ host, s.Carries encoding log host → host = poller.host := by
    rintro host (hmessage | hrow)
    · have hsame := hmessages _ hmessage (isOf_message log host)
      exact congrArg (fun message => message.evt.host) hsame
    · exact (row_injective (hrows _ hrow (isOf_row log host))).2
  dsimp only
  split
  · next hduplicate =>
    refine ⟨h.messages, h.rows, h.one_host, ?_⟩
    rw [List.forall_mem_cons]
    refine ⟨fun hnetwork => ?_, h.covered⟩
    rcases hduplicates hnetwork hduplicate with ⟨message, hmem, hof⟩ | ⟨row, hmem, hof⟩
    · obtain ⟨log', host, rfl⟩ := h.messages message hmem
      cases message_isOf hof
      exact ⟨host, Or.inl hmem⟩
    · obtain ⟨log', host, rfl⟩ := h.rows row hmem
      cases row_isOf hof
      exact ⟨host, Or.inr hmem⟩
  cases reached with
  | false => exact ⟨h.messages, h.rows, h.one_host, h.covered⟩
  | true =>
      -- what is carried now was carried before, or is the new message
      have hback : ∀ log' host', Carries encoding { s with
          pollers := s.pollers.put { poller with
            stack := poller.stack.markPublished (encoding.dedupeKey (log.evt poller.host)) }
          inFlight := s.inFlight ++ [log.message poller.host]
          covered := log :: s.covered } log' host' →
          s.Carries encoding log' host' ∨ (log' = log ∧ host' = poller.host) := by
        rintro log' host' (hmessage | hrow)
        · rcases List.mem_append.mp hmessage with hold | hnew
          · exact Or.inl (Or.inl hold)
          · rw [List.mem_singleton] at hnew
            have hlog : log' = log := by
              apply message_isOf
              rw [hnew]
              exact isOf_message log poller.host
            have hevt : host' = poller.host := congrArg (fun message => message.evt.host) hnew
            exact Or.inr ⟨hlog, hevt⟩
        · exact Or.inl (Or.inr hrow)
      refine ⟨?_, h.rows, ?_, ?_⟩
      · intro message hmem
        rcases List.mem_append.mp hmem with hold | hnew
        · exact h.messages message hold
        · exact ⟨log, poller.host, List.mem_singleton.mp hnew⟩
      · intro log' host' host'' hcarries hcarries'
        rcases hback log' host' hcarries with hold | ⟨rfl, rfl⟩
        · rcases hback log' host'' hcarries' with hold' | ⟨rfl, rfl⟩
          · exact h.one_host log' host' host'' hold hold'
          · exact hhost host' hold
        · rcases hback log' host'' hcarries' with hold' | ⟨_, rfl⟩
          · exact (hhost host'' hold').symm
          · rfl
      · intro log' hmem hnetwork
        have hmem' : log' ∈ log :: s.covered := hmem
        rcases List.mem_cons.mp hmem' with rfl | hold
        · exact ⟨poller.host, Or.inl (List.mem_append_right _ (List.mem_singleton_self _))⟩
        · obtain ⟨host, hmessage | hrow⟩ := h.covered log' hold hnetwork
          · exact ⟨host, Or.inl (List.mem_append_left _ hmessage)⟩
          · exact ⟨host, Or.inr hrow⟩

theorem isPrismV2_message {log : ContractLog} {host : Str} :
    (log.message host).isPrismV2 networks = true ↔ networks log.net = some log.contractId := by
  simp [Message.isPrismV2, Message.network, ContractLog.message, ContractLog.evt,
    log.net_lowercase]

theorem Steady.deliver (h : s.Steady encoding networks) {i : Nat} {stored : Bool}
    (hcondition : s.Unfailing encoding networks (.deliver i stored)) :
    (s.deliver encoding networks i stored).Steady encoding networks := by
  unfold Pipeline.deliver
  split
  · exact h
  next message hmessage =>
  have hmem : message ∈ s.inFlight := List.mem_of_getElem? hmessage
  obtain ⟨log, host, rfl⟩ := h.messages message hmem
  have hkept : ∀ other ∈ s.inFlight.eraseIdx i, other ∈ s.inFlight :=
    fun other hother => List.mem_of_mem_eraseIdx hother
  cases hinsert : stored && (log.message host).isPrismV2 networks with
  | false =>
      have hback : ∀ log' host', Carries encoding { s with
          inFlight := s.inFlight.eraseIdx i
          covered := if stored = true then s.covered
            else s.covered.filter fun log' => !(log.message host).isOf log' } log' host' →
          s.Carries encoding log' host' := by
        rintro log' host' (hold | hrow)
        · exact Or.inl (hkept _ hold)
        · exact Or.inr hrow
      refine ⟨fun other hother => h.messages other (hkept other hother), h.rows, ?_, ?_⟩
      · intro log' host' host'' hcarries hcarries'
        exact h.one_host log' host' host'' (hback _ _ hcarries) (hback _ _ hcarries')
      · intro log' hcovered hnetwork
        have hother : log' ∈ s.covered ∧ log' ≠ log := by
          cases stored with
          | true =>
              refine ⟨hcovered, ?_⟩
              rintro rfl
              rw [Bool.true_and] at hinsert
              exact absurd (hinsert.symm.trans (isPrismV2_message.mpr hnetwork)) Bool.false_ne_true
          | false =>
              have hfilter := List.mem_filter.mp hcovered
              refine ⟨hfilter.1, ?_⟩
              rintro rfl
              rw [isOf_message] at hfilter
              exact absurd hfilter.2 Bool.false_ne_true
        obtain ⟨host', hold | hrow⟩ := h.covered log' hother.1 hnetwork
        · rcases mem_eraseIdx_or hmessage hold with heq | hstays
          · have hof : (log'.message host').isOf log = true := by
              rw [heq]
              exact isOf_message log host
            exact absurd (message_isOf hof) hother.2
          · exact ⟨host', Or.inl hstays⟩
        · exact ⟨host', Or.inr hrow⟩
  | true =>
      rw [Bool.and_eq_true] at hinsert
      have hstored : stored = true := hinsert.1
      subst hstored
      -- the row is new, or the one that is there
      have hrow : (log.message host).row encoding ∈
          (s.events.insert ((log.message host).row encoding)).rows := by
        cases hfind : s.events.find (encoding.md5uniq (log.message host)) with
        | none =>
            rw [Table.rows_insert hfind]
            exact List.mem_append_right _ (List.mem_singleton_self _)
        | some row =>
            rw [← hcondition _ hmessage row hfind]
            exact Table.mem_insert (Table.find_eq_some.mp hfind).1
      have hback : ∀ log' host', Carries encoding { s with
          inFlight := s.inFlight.eraseIdx i
          events := s.events.insert ((log.message host).row encoding) } log' host' →
          s.Carries encoding log' host' := by
        rintro log' host' (hold | hrow')
        · exact Or.inl (hkept _ hold)
        · rcases Table.mem_of_mem_insert hrow' with hold | hnew
          · exact Or.inr hold
          · obtain ⟨rfl, rfl⟩ := row_injective hnew
            exact Or.inl hmem
      refine ⟨fun other hother => h.messages other (hkept other hother), ?_, ?_, ?_⟩
      · intro row hmemRow
        rcases Table.mem_of_mem_insert hmemRow with hold | rfl
        · exact h.rows row hold
        · exact ⟨log, host, rfl⟩
      · intro log' host' host'' hcarries hcarries'
        exact h.one_host log' host' host'' (hback _ _ hcarries) (hback _ _ hcarries')
      · intro log' hcovered hnetwork
        obtain ⟨host', hold | hold⟩ := h.covered log' hcovered hnetwork
        · rcases mem_eraseIdx_or hmessage hold with heq | hstays
          · refine ⟨host', Or.inr ?_⟩
            rw [heq]
            exact hrow
          · exact ⟨host', Or.inl hstays⟩
        · exact ⟨host', Or.inr (Table.mem_insert hold)⟩

/-! ## Runs -/

theorem Steady.next (h : s.Steady encoding networks)
    (hcondition : s.Unfailing encoding networks e) :
    (s.next encoding networks e).Steady encoding networks := by
  cases e with
  | start id host maxSize => exact h.start id host maxSize
  | handle id log reached => exact h.handle hcondition
  | deliver i stored => exact h.deliver hcondition

def initial : Pipeline where
  pollers := .empty
  inFlight := []
  events := .empty
  covered := []

theorem steady_initial : initial.Steady encoding networks := by
  have hnone (log : ContractLog) (host : Str) : ¬initial.Carries encoding log host := by
    rintro (h | h)
    · exact absurd h List.not_mem_nil
    · exact absurd h List.not_mem_nil
  refine ⟨fun _ h => absurd h List.not_mem_nil, fun _ h => absurd h List.not_mem_nil, ?_,
    fun _ h => absurd h List.not_mem_nil⟩
  exact fun log host _ h => absurd h (hnone log host)

/-- In every state of a run in which the pollers that see a log have one host name and no poller
skips a log whose message was lost, logs are stored exactly once. -/
theorem logs_stored_once {events : List PipelineEvent}
    (hruns : (pipeline encoding networks).Runs (Unfailing encoding networks) initial events) :
    ((pipeline encoding networks).run initial events).ExactlyOnce networks := by
  have hsteady : ((pipeline encoding networks).run initial events).Steady encoding networks :=
    hruns.preserves (fun _ _ h _ hcondition => h.next hcondition) steady_initial
  exact hsteady.exactlyOnce

def sampleLog : ContractLog where
  net := "testnet".toList
  contractId := "0.0.7001".toList
  event := "Redeemed".toList
  args := [("marketId".toList, "5".toList)]
  timestamp := "1778699289.499882673".toList
  txHash := "0xbc".toList
  net_lowercase := rfl

def sampleNetworks : PrismV2Networks := fun net =>
  if net = "testnet".toList then some "0.0.7001".toList else none

/-- Two processes on one host publish the log, and both messages are delivered. -/
theorem logs_stored_once_sample : ((pipeline sampleEncoding sampleNetworks).run initial
    [.start 1 "a".toList 1000, .handle 1 sampleLog true, .start 2 "a".toList 1000,
      .handle 2 sampleLog true, .deliver 0 true, .deliver 0 true]).ExactlyOnce sampleNetworks := by
  apply logs_stored_once
  decide +kernel

/-- Pollers with two host names, and a poller whose first publish of the log fails. -/
theorem logs_not_stored_once :
    ¬((pipeline sampleEncoding sampleNetworks).run initial
        [.start 1 "a".toList 1000, .start 2 "b".toList 1000, .handle 1 sampleLog true,
          .handle 2 sampleLog true, .deliver 0 true, .deliver 0 true]).ExactlyOnce sampleNetworks ∧
      ¬((pipeline sampleEncoding sampleNetworks).run initial
        [.start 1 "a".toList 1000, .handle 1 sampleLog false,
          .handle 1 sampleLog true]).ExactlyOnce sampleNetworks := by
  constructor
  · intro h
    have htwo := h.never_twice sampleLog
    revert htwo
    decide +kernel
  · intro h
    have hone := h.not_lost sampleLog List.mem_cons_self rfl (fun _ hmem =>
      absurd hmem List.not_mem_nil)
    revert hone
    decide +kernel

end Pipeline

end PrismBackend.Events
