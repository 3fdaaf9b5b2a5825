import PrismBackend.Rewards.Claims

/-!
# Rewards: what a claim pays and marks

What is known of a claim at each of its requests, in every run: the rewards that
its total was read from, and that a claim which succeeds has paid and marked all
of them.
-/

namespace PrismBackend.Rewards

open PrismBackend.Lib PrismBackend.Clob
open Program (request attempt andThen)

/-! ## Stages -/

section Stages

variable (payer : HotPayer) (req : ClaimPrismRequest)

/-- Where a claim can be, with what is known about it there: the rewards that were read, whether
they are paid, and whether they are marked. -/
inductive Stage : ClaimM (Except String StdResponse) → Option (List Nat) → Bool → Bool → Prop
  | start : Stage (claimPrism payer req) none false false
  | total : Stage (readTotal payer req) none false false
  | transfer (tokenId srcAccountId destAccountId : Str) (amount : Nat) (ids : List Nat)
      (hdest : payer.accountIDFromString req.accountId = .ok destAccountId) :
      Stage (transferPrism req tokenId srcAccountId destAccountId amount) (some ids) false false
  | receipt (srcAccountId destAccountId transactionID : Str) (ids : List Nat) (paid : Bool)
      (hdest : payer.accountIDFromString req.accountId = .ok destAccountId) :
      Stage (awaitReceipt req srcAccountId destAccountId transactionID) (some ids) paid false
  | mark (srcAccountId destAccountId txHash : Str) (ids : List Nat)
      (hdest : payer.accountIDFromString req.accountId = .ok destAccountId) :
      Stage (markClaimed req srcAccountId destAccountId txHash) (some ids) true false
  | claimed (message : String) (ids : List Nat) :
      Stage (.ret (.ok ⟨0, message⟩)) (some ids) true true
  | refused (result : Except String StdResponse) (read : Option (List Nat)) (paid marked : Bool)
      (h : ∀ message, result ≠ .ok ⟨0, message⟩) : Stage (.ret result) read paid marked

end Stages

def ClaimTask.Stage (payer : HotPayer) (task : ClaimTask) : Prop :=
  Rewards.Stage payer task.req task.program task.read task.paid task.marked

section Answers

variable {payer : HotPayer} {s : Payouts} {task : ClaimTask}

theorem checkTransfer_dest {req : ClaimPrismRequest} {accounts : Str × Str × Str}
    (h : checkTransfer payer req = .ok accounts) :
    payer.accountIDFromString req.accountId = .ok accounts.2.2 := by
  simp only [checkTransfer, bind_ok_iff, mapError_ok_iff, Except.ok.injEq] at h
  obtain ⟨_, _, _, _, dest, hdest, _, _, rfl⟩ := h
  exact hdest

/-- After the total, a claim is refused or goes on to transfer it. -/
theorem sendPrism_cases (payer : HotPayer) (req : ClaimPrismRequest) (total : Nat) :
    (∃ tokenId srcAccountId destAccountId,
        payer.accountIDFromString req.accountId = .ok destAccountId ∧
        sendPrism payer req total = transferPrism req tokenId srcAccountId destAccountId total) ∨
      ∃ result, sendPrism payer req total = .ret result ∧ ∀ message, result ≠ .ok ⟨0, message⟩ := by
  have herror (err : String) : ∀ message, (.error err : Except String StdResponse) ≠
      .ok ⟨0, message⟩ := fun message => by simp
  unfold sendPrism
  split
  · exact Or.inr ⟨_, rfl, by simp⟩
  generalize revertIf (maxInt64 < total) _ = limit
  cases limit with
  | error err => exact Or.inr ⟨_, rfl, herror err⟩
  | ok u =>
      cases hcheck : checkTransfer payer req with
      | error err => exact Or.inr ⟨_, rfl, herror err⟩
      | ok accounts =>
          exact Or.inl ⟨accounts.1, accounts.2.1, accounts.2.2, checkTransfer_dest hcheck, rfl⟩

/-- An answer takes a claim from one stage to the next. -/
theorem ClaimTask.Stage.answered {r : ClaimRequest}
    {rest : r.Answer → ClaimM (Except String StdResponse)} (h : task.Stage payer)
    (hprogram : task.program = .call r rest) {answer : r.Answer} {commit : Bool}
    (hhonest : s.Honest task r answer commit) :
    (s.answered task r commit (rest answer)).Stage payer := by
  obtain ⟨id, req, program, read, paid, marked⟩ := task
  have herror (err : String) : ∀ message, (.error err : Except String StdResponse) ≠
      .ok ⟨0, message⟩ := fun message => by simp
  have hstage : Rewards.Stage payer req program read paid marked := h
  have hcall : program = .call r rest := hprogram
  clear h hprogram
  cases hstage with
  | start =>
      cases hcall
      show Rewards.Stage payer req (if answer = false then _ else _) none false false
      split
      · exact .refused _ _ _ _ (herror _)
      · exact .total
  | total =>
      cases hcall
      cases answer with
      | error err => exact .refused _ _ _ _ (herror _)
      | ok total =>
          show Rewards.Stage payer req (sendPrism payer req total) (some _) false false
          rcases sendPrism_cases payer req total with
            ⟨tokenId, src, dest, hdest, hsend⟩ | ⟨result, hsend, hresult⟩
          · rw [hsend]
            exact .transfer tokenId src dest total _ hdest
          · rw [hsend]
            exact .refused _ _ _ _ hresult
  | transfer tokenId src dest amount ids hdest =>
      cases hcall
      cases answer with
      | error err => exact .refused _ _ _ _ (herror _)
      | ok transactionID => exact .receipt src dest transactionID ids _ hdest
  | receipt src dest transactionID ids paid hdest =>
      cases hcall
      cases answer with
      | error err => exact .refused _ _ _ _ (herror _)
      | ok txHash =>
          have hpaid : paid = true := hhonest
          subst hpaid
          exact .mark src dest txHash ids hdest
  | mark src dest txHash ids hdest =>
      cases hcall
      cases answer with
      | error err => exact .refused _ _ _ _ (herror _)
      | ok u =>
          have hcommit : commit = true := hhonest
          subst hcommit
          exact .claimed _ ids
  | claimed message ids => exact absurd hcall (by simp)
  | refused result read paid marked hresult => exact absurd hcall (by simp)

end Answers

/-! ## What is known -/

namespace RewardRows

def amountOf (rewards : RewardRows) (ids : List Nat) : Nat :=
  (ids.map fun id => ((rewards.find id).map (·.amount)).getD 0).sum

variable {rewards rewards' : RewardRows} {ids : List Nat}

theorem Onward.amountOf (h : rewards.Onward rewards')
    (hids : ∀ id ∈ ids, ∃ row, rewards.find id = some row) :
    rewards'.amountOf ids = rewards.amountOf ids := by
  unfold RewardRows.amountOf
  refine congrArg List.sum (List.map_congr_left fun id hid => ?_)
  obtain ⟨row, hrow⟩ := hids id hid
  obtain ⟨row', hrow', hlater⟩ := h id row hrow
  rw [hrow, hrow', Option.map_some, Option.map_some, hlater.amount]

theorem mem_unredeemed {net accountId : Str} {row : PrismReward} :
    row ∈ rewards.unredeemed net accountId ↔
      row ∈ rewards.rows ∧ row.isOwedTo net accountId = true ∧ row.redeemedAt = false := by
  unfold unredeemed
  rw [List.mem_filter, Bool.and_eq_true, Bool.not_eq_true']

/-- The total of a claim is the amount of the rewards it was read from. -/
theorem amountOf_unredeemed (net accountId : Str) :
    rewards.amountOf ((rewards.unredeemed net accountId).map (·.id)) =
      ((rewards.unredeemed net accountId).map (·.amount)).sum := by
  unfold RewardRows.amountOf
  rw [List.map_map]
  refine congrArg List.sum (List.map_congr_left fun row hrow => ?_)
  have hfind : rewards.find row.id = some row := Table.find_key (mem_unredeemed.mp hrow).1
  show ((rewards.find row.id).map (·.amount)).getD 0 = row.amount
  rw [hfind]
  rfl

end RewardRows

def Prints (payer : HotPayer) (req : ClaimPrismRequest) : Prop :=
  ∀ accountId, payer.accountIDFromString req.accountId = .ok accountId → accountId = req.accountId

structure Known (s : Payouts) (task : ClaimTask) : Prop where
  read : ∀ ids, task.read = some ids → ∀ id ∈ ids, ∃ row, s.rewards.find id = some row ∧
    row.isOwedTo task.req.net task.req.accountId = true
  sending : ∀ net tokenId src dest amount rest,
    task.program = .call (.transfer net tokenId src dest amount) rest →
      ∃ ids, task.read = some ids ∧ amount = s.rewards.amountOf ids
  paid : task.paid = true → ∃ transfer ∈ s.transfers, transfer.net = task.req.net ∧
    transfer.accountId = task.req.accountId ∧ task.read = some transfer.rewards ∧
    transfer.amount = s.rewards.amountOf transfer.rewards
  marked : task.marked = true → ∀ ids, task.read = some ids → ∀ id ∈ ids,
    ∃ row, s.rewards.find id = some row ∧ row.redeemedAt = true

section Known

variable {payer : HotPayer} {s s' : Payouts} {task : ClaimTask}

/-- What is known stays known while rewards stay and transfers are added. -/
theorem Known.mono (h : Known s task) (hrewards : s.rewards.Onward s'.rewards)
    (htransfers : ∀ transfer ∈ s.transfers, transfer ∈ s'.transfers) : Known s' task := by
  have hthere (ids : List Nat) (hread : task.read = some ids) :
      s'.rewards.amountOf ids = s.rewards.amountOf ids := by
    apply hrewards.amountOf
    intro id hid
    obtain ⟨row, hrow, _⟩ := h.read ids hread id hid
    exact ⟨row, hrow⟩
  constructor
  · intro ids hread id hid
    obtain ⟨row, hrow, howed⟩ := h.read ids hread id hid
    obtain ⟨row', hrow', hlater⟩ := hrewards id row hrow
    exact ⟨row', hrow', (hlater.isOwedTo _ _).trans howed⟩
  · intro net tokenId src dest amount rest hprogram
    obtain ⟨ids, hread, hamount⟩ := h.sending net tokenId src dest amount rest hprogram
    exact ⟨ids, hread, hamount.trans (hthere ids hread).symm⟩
  · intro hpaid
    obtain ⟨transfer, hmem, hnet, haccount, hread, hamount⟩ := h.paid hpaid
    exact ⟨transfer, htransfers _ hmem, hnet, haccount, hread,
      hamount.trans (hthere _ hread).symm⟩
  · intro hmarked ids hread id hid
    obtain ⟨row, hrow, hredeemed⟩ := h.marked hmarked ids hread id hid
    obtain ⟨row', hrow', hlater⟩ := hrewards id row hrow
    exact ⟨row', hrow', hlater.redeemedAt hredeemed⟩

/-- A claim that makes another request next, or none, keeps what is known but the amount it
sends. -/
theorem Known.goOn (h : Known s task) {task' : ClaimTask} (hreq : task'.req = task.req)
    (hread : task'.read = task.read) (hpaid : task'.paid = task.paid)
    (hmarked : task'.marked = task.marked)
    (hsending : ∀ net tokenId src dest amount rest,
      task'.program ≠ .call (.transfer net tokenId src dest amount) rest) : Known s task' := by
  constructor
  · rw [hread, hreq]
    exact h.read
  · intro net tokenId src dest amount rest hprogram
    exact absurd hprogram (hsending net tokenId src dest amount rest)
  · rw [hread, hreq, hpaid]
    exact h.paid
  · rw [hread, hmarked]
    exact h.marked

theorem Payouts.effect_transfers (s : Payouts) (task : ClaimTask) (r : ClaimRequest)
    (commit : Bool) : ∀ transfer ∈ s.transfers,
      transfer ∈ (if commit then s.effect task r else s).transfers := by
  intro transfer hmem
  cases commit with
  | false => exact hmem
  | true =>
      cases r with
      | transfer net tokenId src dest amount => exact List.mem_append_left _ hmem
      | _ => exact hmem

theorem Payouts.effect_onward_if (s : Payouts) (task : ClaimTask) (r : ClaimRequest)
    (commit : Bool) : s.rewards.Onward (if commit then s.effect task r else s).rewards := by
  cases commit with
  | false => exact .refl _
  | true => exact s.effect_onward task r

theorem claimedRow_redeemed {net accountId redeemedBy txHash : Str} {row : PrismReward}
    (h : row.isOwedTo net accountId = true) :
    (claimedRow net accountId redeemedBy txHash row).redeemedAt = true := by
  unfold claimedRow
  split
  · rfl
  · next hnot => simpa [h] using hnot

theorem Known.answered {r : ClaimRequest} {rest : r.Answer → ClaimM (Except String StdResponse)}
    (h : Known s task) (hstage : task.Stage payer) (hprints : Prints payer task.req)
    (hprogram : task.program = .call r rest) {answer : r.Answer} {commit : Bool}
    (hhonest : s.Honest task r answer commit) :
    Known (if commit then s.effect task r else s) (s.answered task r commit (rest answer)) := by
  have hmono := h.mono (s.effect_onward_if task r commit) (s.effect_transfers task r commit)
  obtain ⟨id, req, program, read, paid, marked⟩ := task
  have hstage' : Rewards.Stage payer req program read paid marked := hstage
  have hcall : program = .call r rest := hprogram
  clear hstage hprogram
  cases hstage' with
  | start =>
      cases hcall
      refine hmono.goOn rfl rfl rfl rfl ?_
      intro net tokenId src dest amount rest
      show (if answer = false then _ else _) ≠ _
      split
      · intro hsend
        cases hsend
      · intro hsend
        cases hsend
  | total =>
      cases hcall
      have hread : ∀ ids,
          some ((s.rewards.unredeemed req.net req.accountId).map (·.id)) = some ids →
          ∀ id ∈ ids, ∃ row, s.rewards.find id = some row ∧
            row.isOwedTo req.net req.accountId = true := by
        intro ids hids id hid
        rw [← Option.some.inj hids] at hid
        obtain ⟨row, hrow, rfl⟩ := List.mem_map.mp hid
        have hmem := RewardRows.mem_unredeemed.mp hrow
        exact ⟨row, Table.find_key hmem.1, hmem.2.1⟩
      have hstate : (if commit = true then s.effect ⟨id, req, readTotal payer req,
        none, false, false⟩
          (.getTotalUnredeemedPrismRewardsByUser req.net req.accountId) else s) = s := by
        split
        · rfl
        · rfl
      rw [hstate]
      refine ⟨hread, ?_, fun hpaid => absurd hpaid Bool.false_ne_true,
        fun hmarked => absurd hmarked Bool.false_ne_true⟩
      intro net tokenId src dest amount rest hsend
      cases answer with
      | error err => cases hsend
      | ok total =>
          have hsend' : sendPrism payer req total =
              .call (.transfer net tokenId src dest amount) rest :=
            hsend
          rcases sendPrism_cases payer req total with ⟨_, _, _, _, htransfer⟩ | ⟨_, hret, _⟩
          · rw [htransfer] at hsend'
            cases hsend'
            refine ⟨_, rfl, ?_⟩
            rw [RewardRows.amountOf_unredeemed]
            exact hhonest
          · rw [hret] at hsend'
            cases hsend'
  | transfer tokenId src dest amount ids hdest =>
      cases hcall
      obtain ⟨ids', hids', hamount⟩ := h.sending _ _ _ _ _ _ rfl
      cases Option.some.inj hids'
      refine ⟨hmono.read, ?_, ?_, hmono.marked⟩
      · intro net tokenId src dest amount rest hsend
        cases answer with
        | error err => cases hsend
        | ok transactionID => cases hsend
      · intro hpaid
        have hcommit : commit = true := hpaid
        subst hcommit
        refine ⟨_, List.mem_append_right _ (List.mem_singleton_self _), rfl,
          hprints dest hdest, rfl, ?_⟩
        exact hamount
  | receipt src dest transactionID ids paid hdest =>
      cases hcall
      refine hmono.goOn rfl rfl rfl rfl ?_
      intro net tokenId src dest amount rest hsend
      cases answer with
      | error err => cases hsend
      | ok txHash => cases hsend
  | mark src dest txHash ids hdest =>
      cases hcall
      refine ⟨hmono.read, ?_, hmono.paid, ?_⟩
      · intro net tokenId src dest amount rest hsend
        cases answer with
        | error err => cases hsend
        | ok u => cases hsend
      · intro hmarked ids' hids' id hid
        have hcommit : commit = true := hmarked
        subst hcommit
        obtain ⟨row, hrow, howed⟩ := h.read ids' hids' id hid
        refine ⟨claimedRow req.net dest src txHash row, ?_, ?_⟩
        · show (s.rewards.markAllPrismClaimed req.net dest src txHash).find id = _
          unfold RewardRows.markAllPrismClaimed
          rw [Table.find_modifyAll, hrow, Option.map_some]
        · rw [hprints dest hdest]
          exact claimedRow_redeemed howed
  | claimed message ids => cases hcall
  | refused result read paid marked hresult => cases hcall

/-! ## Runs -/

variable {e : PayoutEvent}

theorem Payouts.serve_eq {id : Nat} {r : ClaimRequest}
    {rest : r.Answer → ClaimM (Except String StdResponse)} (hfind : s.claims.find id = some task)
    (hprogram : task.program = .call r rest) (answer : (r : ClaimRequest) → r.Answer)
    (commit : Bool) : s.serve id answer commit =
      { (if commit then s.effect task r else s) with
        claims := s.claims.put (s.answered task r commit (rest (answer r))) } := by
  unfold Payouts.serve
  rw [hfind]
  dsimp only
  rw [hprogram]

/-- Where a claim comes from: it was there, it was just started, one of its requests was just
answered, or it was just lost. -/
theorem Payouts.claim_next {id : Nat} {task' : ClaimTask}
    (h : (s.next payer e).claims.find id = some task') :
    s.claims.find id = some task' ∨
      (∃ req, e = .start id req ∧ task' = ⟨id, req, claimPrism payer req, none, false, false⟩) ∨
      (∃ answer commit task r rest, e = .serve id answer commit ∧ s.claims.find id = some task ∧
        task.program = .call r rest ∧ task' = s.answered task r commit (rest (answer r))) ∨
      ∃ task, e = .stop id ∧ s.claims.find id = some task ∧ task' = lost task := by
  cases e with
  | start k req =>
      have hmem : (s.claims.insert ⟨k, req, claimPrism payer req, none, false, false⟩).find id =
          some task' := h
      obtain ⟨hrow, hkey⟩ := Table.find_eq_some.mp hmem
      rcases Table.mem_of_mem_insert hrow with hold | rfl
      · exact Or.inl (Table.find_eq_some.mpr ⟨hold, hkey⟩)
      · cases hkey
        exact Or.inr (Or.inl ⟨req, rfl, rfl⟩)
  | serve k answer commit =>
      cases hfind : s.claims.find k with
      | none =>
          left
          simpa only [Payouts.next, Payouts.serve, hfind] using h
      | some task =>
          cases hprogram : task.program with
          | ret value =>
              left
              simpa only [Payouts.next, Payouts.serve, hfind, hprogram] using h
          | call r rest =>
              rw [show s.next payer (.serve k answer commit) = s.serve k answer commit from rfl,
                s.serve_eq hfind hprogram] at h
              dsimp only at h
              rw [Table.find_put, s.answered_id, (Table.find_eq_some.mp hfind).2] at h
              split at h
              · next hk =>
                subst hk
                rw [hfind, Option.map_some, Option.some.injEq] at h
                exact Or.inr (Or.inr (Or.inl
                  ⟨answer, commit, task, r, rest, rfl, hfind, hprogram, h.symm⟩))
              · exact Or.inl h
  | stop k =>
      have hfind : (s.claims.modify k lost fun _ => rfl).find id = some task' := h
      rw [Table.find_modify_map (f := lost) fun _ => rfl] at hfind
      cases hold : s.claims.find id with
      | none =>
          rw [hold] at hfind
          exact absurd hfind (by simp)
      | some task =>
          rw [hold, Option.map_some, Option.some.injEq] at hfind
          split at hfind
          · next hk =>
            subst hk
            exact Or.inr (Or.inr (Or.inr ⟨task, rfl, rfl, hfind.symm⟩))
          · exact Or.inl (congrArg some hfind)
  | _ => exact Or.inl h

theorem Payouts.next_transfers (payer : HotPayer) (s : Payouts) (e : PayoutEvent) :
    ∀ transfer ∈ s.transfers, transfer ∈ (s.next payer e).transfers := by
  intro transfer hmem
  cases e with
  | serve id answer commit =>
      simp only [Payouts.next, Payouts.serve]
      split
      · exact hmem
      split
      · exact hmem
      next r rest hprogram => exact s.effect_transfers _ r commit transfer hmem
  | _ => exact hmem

/-- Every claim is at a stage, and what is known of it holds. -/
def Payouts.AllKnown (payer : HotPayer) (s : Payouts) : Prop :=
  ∀ id task, s.claims.find id = some task →
    task.Stage payer ∧ (Prints payer task.req → Known s task)

theorem Payouts.AllKnown.next (h : s.AllKnown payer) (hallowed : s.Allowed e) :
    (s.next payer e).AllKnown payer := by
  intro id task' hfind'
  have hrewards := s.next_onward payer e
  have htransfers := s.next_transfers payer e
  rcases Payouts.claim_next hfind' with hold | ⟨req, rfl, rfl⟩ |
    ⟨answer, commit, task, r, rest, rfl, hfind, hprogram, rfl⟩ | ⟨task, rfl, hfind, rfl⟩
  · obtain ⟨hstage, hknown⟩ := h id task' hold
    exact ⟨hstage, fun hprints => (hknown hprints).mono hrewards htransfers⟩
  · refine ⟨.start, fun _ => ⟨fun ids hids => ?_, ?_, fun hpaid => ?_, fun hmarked => ?_⟩⟩
    · exact absurd hids (by simp)
    · intro net tokenId src dest amount rest hsend
      cases hsend
    · exact absurd hpaid Bool.false_ne_true
    · exact absurd hmarked Bool.false_ne_true
  · obtain ⟨hstage, hknown⟩ := h id task hfind
    have hhonest := hallowed task r rest hfind hprogram
    refine ⟨hstage.answered hprogram hhonest, fun hprints => ?_⟩
    have hreq : (s.answered task r commit (rest (answer r))).req = task.req := by
      cases r <;> rfl
    have hanswered := (hknown (hreq ▸ hprints)).answered hstage (hreq ▸ hprints) hprogram hhonest
    rw [show s.next payer (.serve id answer commit) = s.serve id answer commit from rfl,
      s.serve_eq hfind hprogram]
    exact hanswered.mono (.refl _) fun _ hmem => hmem
  · obtain ⟨_, hknown⟩ := h id task hfind
    refine ⟨.refused _ _ _ _ (by simp), fun hprints => ?_⟩
    have hlost : Known s (lost task) := by
      refine (hknown hprints).goOn rfl rfl rfl rfl ?_
      intro net tokenId src dest amount rest hsend
      cases hsend
    exact hlost.mono hrewards htransfers

end Known

end PrismBackend.Rewards
