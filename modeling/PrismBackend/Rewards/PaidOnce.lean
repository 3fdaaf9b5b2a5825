import PrismBackend.Rewards.Owners

/-!
# Rewards: paying once

Claims of one account that do not overlap pay every reward once: a claim reads
its total while no other claim of the account is under way and none has paid
without marking, and no reward is added between its read and its mark.
-/

namespace PrismBackend.Rewards

open PrismBackend.Lib PrismBackend.Clob

/-! ## The property -/

namespace Payouts

variable (s : Payouts)

def paidRewards : List Nat := s.transfers.flatMap (·.rewards)

def paidTo (net accountId : Str) : Nat :=
  ((s.transfers.filter fun transfer =>
    transfer.net == net && transfer.accountId == accountId).map (·.amount)).sum

def earnedBy (net accountId : Str) : Nat :=
  ((s.rewards.rows.filter (·.isOwedTo net accountId)).map (·.amount)).sum

/-- No account gets more than its rewards, no reward is paid twice, and what is marked was paid. -/
structure PaysOnce : Prop where
  total : ∀ net accountId, s.paidTo net accountId ≤ s.earnedBy net accountId
  once : s.paidRewards.Nodup
  redeemed : ∀ row ∈ s.rewards.rows, row.redeemedAt = true → row.id ∈ s.paidRewards

end Payouts

/-! ## The condition -/

def ClaimTask.Underway (task : ClaimTask) : Prop :=
  task.read.isSome = true ∧ ∃ r rest, task.program = .call r rest

def ClaimTask.Unmarked (task : ClaimTask) : Prop := task.paid = true ∧ task.marked = false

def ClaimTask.Open (task : ClaimTask) : Prop := task.Underway ∨ task.Unmarked

def ClaimTask.isOf (task : ClaimTask) (net accountId : Str) : Prop :=
  task.req.net = net ∧ task.req.accountId = accountId

/-- Claims are of account numbers; a claim reads its total while no other claim of the account is
under way and none has paid without marking; and a reward is created while no claim of its account
is under way. -/
def Payouts.OneByOne (s : Payouts) : PayoutEvent → Prop
  | .createPrismReward params _ => ∀ id task, s.claims.find id = some task →
      task.isOf params.net params.destAccountID → ¬task.Underway
  | .start _ req => ∃ account : AccountId, account.IsWritten req.accountId
  | .serve id _ _ => ∀ task net accountId rest, s.claims.find id = some task →
      task.program = .call (.getTotalUnredeemedPrismRewardsByUser net accountId) rest →
        ∀ other task', s.claims.find other = some task' → task'.isOf net accountId → ¬task'.Open
  | _ => True

/-! ## The invariant -/

structure Payouts.InOrder (s : Payouts) : Prop where
  /- a claim under way has read all that is open for its account -/
  current : ∀ id task ids, s.claims.find id = some task → task.Underway → task.read = some ids →
    ids = (s.rewards.unredeemed task.req.net task.req.accountId).map (·.id)
  alone : ∀ id id' task task', s.claims.find id = some task → s.claims.find id' = some task' →
    task'.isOf task.req.net task.req.accountId → task.Open → task'.Open → id = id'
  unpaid : ∀ id task ids, s.claims.find id = some task → task.Underway → task.paid = false →
    task.read = some ids → ∀ k ∈ ids, k ∉ s.paidRewards
  /- what is paid and not redeemed waits for a mark -/
  pending : ∀ row ∈ s.rewards.rows, row.redeemedAt = false → row.id ∈ s.paidRewards →
    ∃ id task, s.claims.find id = some task ∧ task.Unmarked ∧
      row.isOwedTo task.req.net task.req.accountId = true
  redeemed : ∀ row ∈ s.rewards.rows, row.redeemedAt = true → row.id ∈ s.paidRewards
  once : s.paidRewards.Nodup
  owed : ∀ transfer ∈ s.transfers, ∀ id ∈ transfer.rewards, ∃ row, s.rewards.find id = some row ∧
    row.isOwedTo transfer.net transfer.accountId = true
  amount : ∀ transfer ∈ s.transfers, transfer.amount = s.rewards.amountOf transfer.rewards

namespace Payouts

variable {payer : HotPayer} {s s' : Payouts} {e : PayoutEvent}

theorem amountOf_append (rewards : RewardRows) (ids ids' : List Nat) :
    rewards.amountOf (ids ++ ids') = rewards.amountOf ids + rewards.amountOf ids' := by
  unfold RewardRows.amountOf
  rw [List.map_append, List.sum_append]

theorem sum_amounts {transfers : List Transfer} {rewards : RewardRows}
    (h : ∀ transfer ∈ transfers, transfer.amount = rewards.amountOf transfer.rewards) :
    (transfers.map (·.amount)).sum = rewards.amountOf (transfers.flatMap (·.rewards)) := by
  induction transfers with
  | nil => rfl
  | cons transfer transfers ih =>
      rw [List.forall_mem_cons] at h
      rw [List.map_cons, List.sum_cons, List.flatMap_cons, amountOf_append, h.1, ih h.2]

/-- The transfers to an account are paid out of distinct rewards of the account. -/
theorem InOrder.paysOnce (h : s.InOrder) : s.PaysOnce := by
  refine ⟨fun net accountId => ?_, h.once, h.redeemed⟩
  have hkept : ∀ transfer ∈ s.transfers.filter fun transfer =>
      transfer.net == net && transfer.accountId == accountId,
      transfer ∈ s.transfers ∧ transfer.net = net ∧ transfer.accountId = accountId := by
    intro transfer hmem
    have hmem' := List.mem_filter.mp hmem
    rw [Bool.and_eq_true, beq_iff_eq, beq_iff_eq] at hmem'
    exact hmem'
  unfold paidTo earnedBy
  rw [sum_amounts fun transfer hmem => h.amount transfer (hkept transfer hmem).1]
  unfold RewardRows.amountOf
  apply sum_le_of_keys (fun id => id) (fun row : PrismReward => row.id)
  · rw [List.map_id']
    exact h.once.sublist (List.filter_sublist.flatMap _)
  · intro id hid
    obtain ⟨transfer, hmem, hreward⟩ := List.mem_flatMap.mp hid
    obtain ⟨htransfer, rfl, rfl⟩ := hkept transfer hmem
    obtain ⟨row, hrow, howed⟩ := h.owed transfer htransfer id hreward
    obtain ⟨hmemRow, hkey⟩ := Table.find_eq_some.mp hrow
    refine ⟨row, List.mem_filter.mpr ⟨hmemRow, howed⟩, hkey, ?_⟩
    rw [hrow]
    exact le_rfl

/-! ## Rewards that stay -/

theorem InOrder.owed_onward (h : s.InOrder) (htransfers : s'.transfers = s.transfers)
    (honward : s.rewards.Onward s'.rewards) : ∀ transfer ∈ s'.transfers, ∀ id ∈ transfer.rewards,
      ∃ row, s'.rewards.find id = some row ∧
        row.isOwedTo transfer.net transfer.accountId = true := by
  intro transfer hmem id hid
  rw [htransfers] at hmem
  obtain ⟨row, hrow, howed⟩ := h.owed transfer hmem id hid
  obtain ⟨row', hrow', hlater⟩ := honward id row hrow
  exact ⟨row', hrow', (hlater.isOwedTo _ _).trans howed⟩

theorem InOrder.amount_onward (h : s.InOrder) (htransfers : s'.transfers = s.transfers)
    (honward : s.rewards.Onward s'.rewards) :
    ∀ transfer ∈ s'.transfers, transfer.amount = s'.rewards.amountOf transfer.rewards := by
  intro transfer hmem
  rw [htransfers] at hmem
  rw [h.amount transfer hmem, honward.amountOf]
  intro id hid
  obtain ⟨row, hrow, _⟩ := h.owed transfer hmem id hid
  exact ⟨row, hrow⟩

/-! ## Claims that go on -/

/-- The claim goes on, and neither pays nor marks. -/
structure Continues (task task' : ClaimTask) : Prop where
  req : task'.req = task.req
  underway : task'.Underway → task.Underway ∧ task'.read = task.read
  paid : task'.paid = task.paid
  marked : task'.marked = task.marked

theorem Continues.refl (task : ClaimTask) : Continues task task :=
  ⟨rfl, fun h => ⟨h, rfl⟩, rfl, rfl⟩

theorem Continues.unmarked {task task' : ClaimTask} (h : Continues task task') :
    task'.Unmarked ↔ task.Unmarked := by
  unfold ClaimTask.Unmarked
  rw [h.paid, h.marked]

theorem Continues.open_ {task task' : ClaimTask} (h : Continues task task') (hopen : task'.Open) :
    task.Open := by
  rcases hopen with hunderway | hunmarked
  · exact Or.inl (h.underway hunderway).1
  · exact Or.inr (h.unmarked.mp hunmarked)

theorem Continues.isOf {task task' : ClaimTask} (h : Continues task task') (net accountId : Str) :
    task'.isOf net accountId ↔ task.isOf net accountId := by
  unfold ClaimTask.isOf
  rw [h.req]

theorem InOrder.of_claims (h : s.InOrder) (hrewards : s'.rewards = s.rewards)
    (htransfers : s'.transfers = s.transfers)
    (hfrom : ∀ id task', s'.claims.find id = some task' →
      ¬task'.Open ∨ ∃ task, s.claims.find id = some task ∧ Continues task task')
    (hto : ∀ id task, s.claims.find id = some task →
      ∃ task', s'.claims.find id = some task' ∧ Continues task task') : s'.InOrder := by
  have hpaid : s'.paidRewards = s.paidRewards := congrArg (List.flatMap _) htransfers
  have hback : ∀ id task', s'.claims.find id = some task' → task'.Open →
      ∃ task, s.claims.find id = some task ∧ Continues task task' := by
    intro id task' hfind hopen
    rcases hfrom id task' hfind with hnot | hcontinues
    · exact absurd hopen hnot
    · exact hcontinues
  constructor
  · intro id task' ids hfind hunderway hread
    obtain ⟨task, hold, hcontinues⟩ := hback id task' hfind (Or.inl hunderway)
    obtain ⟨hunderway', hsame⟩ := hcontinues.underway hunderway
    rw [hrewards, hcontinues.req]
    exact h.current id task ids hold hunderway' (hsame ▸ hread)
  · intro id id' task task' hfind hfind' hof hopen hopen'
    obtain ⟨old, hold, hcontinues⟩ := hback id task hfind hopen
    obtain ⟨old', hold', hcontinues'⟩ := hback id' task' hfind' hopen'
    refine h.alone id id' old old' hold hold' ?_ (hcontinues.open_ hopen) (hcontinues'.open_ hopen')
    rw [← hcontinues.req]
    exact (hcontinues'.isOf _ _).mp hof
  · intro id task' ids hfind hunderway hunpaid hread
    obtain ⟨task, hold, hcontinues⟩ := hback id task' hfind (Or.inl hunderway)
    obtain ⟨hunderway', hsame⟩ := hcontinues.underway hunderway
    rw [hpaid]
    exact h.unpaid id task ids hold hunderway' (hcontinues.paid ▸ hunpaid) (hsame ▸ hread)
  · intro row hrow hunredeemed hmem
    rw [hrewards] at hrow
    rw [hpaid] at hmem
    obtain ⟨id, task, hfind, hunmarked, howed⟩ := h.pending row hrow hunredeemed hmem
    obtain ⟨task', hfind', hcontinues⟩ := hto id task hfind
    refine ⟨id, task', hfind', hcontinues.unmarked.mpr hunmarked, ?_⟩
    rw [hcontinues.req]
    exact howed
  · rw [hrewards, hpaid]
    exact h.redeemed
  · rw [hpaid]
    exact h.once
  · rw [htransfers, hrewards]
    exact h.owed
  · rw [htransfers, hrewards]
    exact h.amount

theorem find_put_claim {id : Nat} {task task' : ClaimTask} (hfind : s.claims.find id = some task)
    (hid : task'.id = task.id) (k : Nat) :
    (s.claims.put task').find k = if k = id then some task' else s.claims.find k := by
  have hkey : task'.id = id := hid.trans (Table.find_eq_some.mp hfind).2
  rw [Table.find_put, hkey]
  split
  · next hk =>
    subst hk
    rw [hfind, Option.map_some]
  · rfl

theorem InOrder.of_claim (h : s.InOrder) {id : Nat} {task task' : ClaimTask}
    (hrewards : s'.rewards = s.rewards) (htransfers : s'.transfers = s.transfers)
    (hfind : s.claims.find id = some task) (hcontinues : Continues task task')
    (hclaims : ∀ k, s'.claims.find k = if k = id then some task' else s.claims.find k) :
    s'.InOrder := by
  apply h.of_claims hrewards htransfers
  · intro k other hother
    rw [hclaims k] at hother
    split at hother
    · next hk =>
      subst hk
      cases hother
      exact Or.inr ⟨task, hfind, hcontinues⟩
    · exact Or.inr ⟨other, hother, .refl other⟩
  · intro k other hother
    rw [hclaims k]
    split
    · next hk =>
      subst hk
      cases Option.some.inj (hfind.symm.trans hother)
      exact ⟨task', rfl, hcontinues⟩
    · exact ⟨other, hother, .refl other⟩

/-! ## Rewards that are added or become redeemable -/

theorem InOrder.of_rewards (h : s.InOrder) (hclaims : s'.claims = s.claims)
    (htransfers : s'.transfers = s.transfers) (honward : s.rewards.Onward s'.rewards)
    (hcurrent : ∀ id task, s.claims.find id = some task → task.Underway →
      (s'.rewards.unredeemed task.req.net task.req.accountId).map (·.id) =
        (s.rewards.unredeemed task.req.net task.req.accountId).map (·.id))
    (hrows : ∀ row' ∈ s'.rewards.rows, row'.redeemedAt = true ∨ row'.id ∈ s.paidRewards →
      ∃ row ∈ s.rewards.rows, row.Later row' ∧ row'.redeemedAt = row.redeemedAt) : s'.InOrder := by
  have hpaid : s'.paidRewards = s.paidRewards := congrArg (List.flatMap _) htransfers
  constructor
  · intro id task ids hfind hunderway hread
    rw [hclaims] at hfind
    rw [hcurrent id task hfind hunderway]
    exact h.current id task ids hfind hunderway hread
  · rw [hclaims]
    exact h.alone
  · rw [hclaims, hpaid]
    exact h.unpaid
  · intro row' hrow' hunredeemed hmem
    rw [hpaid] at hmem
    obtain ⟨row, hrow, hlater, hsame⟩ := hrows row' hrow' (Or.inr hmem)
    rw [hlater.sameId] at hmem
    obtain ⟨id, task, hfind, hunmarked, howed⟩ := h.pending row hrow (hsame ▸ hunredeemed) hmem
    exact ⟨id, task, hclaims ▸ hfind, hunmarked, (hlater.isOwedTo _ _).trans howed⟩
  · intro row' hrow' hredeemed
    obtain ⟨row, hrow, hlater, hsame⟩ := hrows row' hrow' (Or.inl hredeemed)
    rw [hpaid, hlater.sameId]
    exact h.redeemed row hrow (hsame ▸ hredeemed)
  · rw [hpaid]
    exact h.once
  · exact h.owed_onward htransfers honward
  · exact h.amount_onward htransfers honward

theorem unredeemed_modifyAll {rewards : RewardRows} {f : PrismReward → PrismReward}
    (hf : ∀ row, (f row).id = row.id) {net accountId : Str}
    (howed : ∀ row : PrismReward, (f row).isOwedTo net accountId = row.isOwedTo net accountId)
    (hsame : ∀ row : PrismReward, row.isOwedTo net accountId = true →
      (f row).redeemedAt = row.redeemedAt) :
    (RewardRows.unredeemed (rewards.modifyAll f hf) net accountId).map (·.id) =
      (rewards.unredeemed net accountId).map (·.id) := by
  have hkept : (fun row => row.isOwedTo net accountId && !row.redeemedAt) ∘ f =
      fun row : PrismReward => row.isOwedTo net accountId && !row.redeemedAt := by
    funext row
    show ((f row).isOwedTo net accountId && !(f row).redeemedAt) = _
    rw [howed row]
    cases hrow : row.isOwedTo net accountId with
    | false => rfl
    | true => rw [hsame row hrow]
  have hid : (fun row : PrismReward => row.id) ∘ f = fun row => row.id := funext hf
  unfold RewardRows.unredeemed
  show ((rewards.rows.map f).filter _).map _ = _
  rw [List.filter_map, List.map_map, hkept, hid]

theorem InOrder.markPrismAsClaimable (h : s.InOrder) (net accountId : Str) :
    (s.next payer (.markPrismAsClaimableByAccountId net accountId)).InOrder := by
  have hsame (row : PrismReward) :
    (claimableRow net accountId row).redeemedAt = row.redeemedAt := by
    unfold claimableRow
    split
    · rfl
    · rfl
  refine h.of_rewards rfl rfl (s.next_onward payer _) ?_ ?_
  · intro id task _ _
    exact unredeemed_modifyAll (claimableRow_id net accountId)
      (fun row => (claimableRow_later net accountId row).isOwedTo _ _) fun row _ => hsame row
  · intro row' hrow' _
    obtain ⟨row, hrow, rfl⟩ := List.mem_map.mp hrow'
    exact ⟨row, hrow, claimableRow_later net accountId row, hsame row⟩

theorem InOrder.create (h : s.InOrder) {params : CreatePrismRewardParams} {id : Nat}
    (hallowed : s.Allowed (.createPrismReward params id))
    (hcondition : s.OneByOne (.createPrismReward params id)) :
    (s.next payer (.createPrismReward params id)).InOrder := by
  by_cases hpermitted : params.permitted = true
  · have hnew : s.rewards.find id = none := hallowed
    have hrows : (s.rewards.create params id).rows =
        s.rewards.rows ++ [⟨params, id, false, none, none, false, hpermitted⟩] := by
      unfold RewardRows.create
      rw [dif_pos hpermitted]
      exact Table.rows_insert hnew
    refine h.of_rewards rfl rfl (s.next_onward payer _) ?_ ?_
    · intro k task hfind hunderway
      have hother : PrismReward.isOwedTo ⟨params, id, false, none, none, false, hpermitted⟩
          task.req.net task.req.accountId = false := by
        by_contra hnot
        rw [Bool.not_eq_false, PrismReward.isOwedTo, Bool.and_eq_true, beq_iff_eq,
          beq_iff_eq] at hnot
        exact hcondition k task hfind ⟨hnot.1.symm, hnot.2.symm⟩ hunderway
      unfold RewardRows.unredeemed
      show ((s.rewards.create params id).rows.filter _).map _ = _
      rw [hrows, List.filter_append, List.filter_cons_of_neg (by simp [hother]), List.filter_nil,
        List.append_nil]
    · intro row' hrow' hmarked
      have hmem : row' ∈ (s.rewards.create params id).rows := hrow'
      rw [hrows, List.mem_append, List.mem_singleton] at hmem
      rcases hmem with hold | rfl
      · exact ⟨row', hold, .refl row', rfl⟩
      · -- the new row is neither redeemed nor paid
        rcases hmarked with hredeemed | hpaid
        · exact absurd hredeemed Bool.false_ne_true
        · obtain ⟨transfer, hmem, hid⟩ := List.mem_flatMap.mp hpaid
          obtain ⟨row, hrow, _⟩ := h.owed transfer hmem id hid
          rw [hnew] at hrow
          exact absurd hrow (by simp)
  · have hsame : s.next payer (.createPrismReward params id) = s := by
      show { s with rewards := s.rewards.create params id } = s
      unfold RewardRows.create
      rw [dif_neg hpermitted]
    rw [hsame]
    exact h

/-! ## A claim that reads, pays or marks -/

section Serve

variable {id : Nat} {task task' : ClaimTask} {ids : List Nat}

def OthersStay (s s' : Payouts) (id : Nat) (task' : ClaimTask) : Prop :=
  ∀ k, s'.claims.find k = if k = id then some task' else s.claims.find k

theorem OthersStay.cases (h : OthersStay s s' id task') {k : Nat} {other : ClaimTask}
    (hfind : s'.claims.find k = some other) :
    (k = id ∧ other = task') ∨ (k ≠ id ∧ s.claims.find k = some other) := by
  rw [h k] at hfind
  split at hfind
  · next hk => exact Or.inl ⟨hk, (Option.some.inj hfind).symm⟩
  · next hk => exact Or.inr ⟨hk, hfind⟩

theorem OthersStay.find (h : OthersStay s s' id task') {k : Nat} {other : ClaimTask} (hk : k ≠ id)
    (hfind : s.claims.find k = some other) : s'.claims.find k = some other := by
  rw [h k, if_neg hk]
  exact hfind

theorem OthersStay.find_self (h : OthersStay s s' id task') : s'.claims.find id = some task' := by
  rw [h id, if_pos rfl]

/-- A claim reads what is open for its account, and no other claim of the account is open. -/
theorem InOrder.read (h : s.InOrder) (hfind : s.claims.find id = some task)
    (hclaims : OthersStay s s' id task') (hrewards : s'.rewards = s.rewards)
    (htransfers : s'.transfers = s.transfers) (hreq : task'.req = task.req)
    (hread : task'.read =
      some ((s.rewards.unredeemed task.req.net task.req.accountId).map (·.id)))
    (hpaid : task.paid = false)
    (halone : ∀ k other, s.claims.find k = some other →
      other.isOf task.req.net task.req.accountId → ¬other.Open) : s'.InOrder := by
  have hpaidRewards : s'.paidRewards = s.paidRewards := congrArg (List.flatMap _) htransfers
  constructor
  · intro k other ids hother hunderway hids
    rw [hrewards]
    rcases hclaims.cases hother with ⟨rfl, rfl⟩ | ⟨_, hold⟩
    · rw [hreq]
      exact Option.some.inj (hids.symm.trans hread)
    · exact h.current k other ids hold hunderway hids
  · intro k k' first second hfirst hsecond hof hopen hopen'
    rcases hclaims.cases hfirst with ⟨rfl, rfl⟩ | ⟨hk, hold⟩
    · rcases hclaims.cases hsecond with ⟨rfl, rfl⟩ | ⟨_, hold'⟩
      · rfl
      · rw [hreq] at hof
        exact absurd hopen' (halone k' second hold' hof)
    · rcases hclaims.cases hsecond with ⟨rfl, rfl⟩ | ⟨_, hold'⟩
      · unfold ClaimTask.isOf at hof
        rw [hreq] at hof
        exact absurd hopen (halone k first hold ⟨hof.1.symm, hof.2.symm⟩)
      · exact h.alone k k' first second hold hold' hof hopen hopen'
  · intro k other ids hother hunderway hunpaid hids
    rw [hpaidRewards]
    rcases hclaims.cases hother with ⟨rfl, rfl⟩ | ⟨_, hold⟩
    · -- a reward that was paid and is open would be of an open claim
      intro reward hreward hmem
      rw [Option.some.inj (hids.symm.trans hread)] at hreward
      obtain ⟨row, hrow, rfl⟩ := List.mem_map.mp hreward
      obtain ⟨hrows, howed, hunredeemed⟩ := RewardRows.mem_unredeemed.mp hrow
      obtain ⟨k', waiting, hwaiting, hunmarked, howed'⟩ := h.pending row hrows hunredeemed hmem
      refine halone k' waiting hwaiting ?_ (Or.inr hunmarked)
      simp only [PrismReward.isOwedTo, Bool.and_eq_true, beq_iff_eq] at howed howed'
      exact ⟨howed'.1.symm.trans howed.1, howed'.2.symm.trans howed.2⟩
    · exact h.unpaid k other ids hold hunderway hunpaid hids
  · intro row hrow hunredeemed hmem
    rw [hrewards] at hrow
    rw [hpaidRewards] at hmem
    obtain ⟨k, waiting, hwaiting, hunmarked, howed⟩ := h.pending row hrow hunredeemed hmem
    refine ⟨k, waiting, hclaims.find ?_ hwaiting, hunmarked, howed⟩
    rintro rfl
    cases Option.some.inj (hfind.symm.trans hwaiting)
    exact absurd (hpaid.symm.trans hunmarked.1) Bool.false_ne_true
  · rw [hrewards, hpaidRewards]
    exact h.redeemed
  · rw [hpaidRewards]
    exact h.once
  · rw [htransfers, hrewards]
    exact h.owed
  · rw [htransfers, hrewards]
    exact h.amount

/-- A claim that reads a reward of another account shares it with no claim of its own. -/
theorem disjoint_of_owed {task other : ClaimTask} {ids' : List Nat} (hknown : Known s task)
    (hknown' : Known s other) (hread : task.read = some ids) (hread' : other.read = some ids')
    (hother : ¬other.isOf task.req.net task.req.accountId) : ∀ k ∈ ids, k ∉ ids' := by
  intro k hk hk'
  obtain ⟨row, hrow, howed⟩ := hknown.read ids hread k hk
  obtain ⟨row', hrow', howed'⟩ := hknown'.read ids' hread' k hk'
  cases Option.some.inj (hrow.symm.trans hrow')
  simp only [PrismReward.isOwedTo, Bool.and_eq_true, beq_iff_eq] at howed howed'
  exact hother ⟨howed'.1.symm.trans howed.1, howed'.2.symm.trans howed.2⟩

theorem InOrder.pay (h : s.InOrder)
    (hknown : ∀ k other, s.claims.find k = some other → Known s other)
    (hfind : s.claims.find id = some task) (hclaims : OthersStay s s' id task')
    (hrewards : s'.rewards = s.rewards) (hreq : task'.req = task.req)
    (hread : task.read = some ids) (hread' : task'.read = some ids) (hunderway : task.Underway)
    (hunpaid : task.paid = false) (hpaid : task'.paid = true) (hmarked : task'.marked = false)
    (htransfers : s'.transfers = s.transfers ++
      [⟨task.req.net, task.req.accountId, s.rewards.amountOf ids, ids⟩]) : s'.InOrder := by
  have hpaidRewards : s'.paidRewards = s.paidRewards ++ ids := by
    unfold paidRewards
    rw [htransfers, List.flatMap_append, List.flatMap_singleton]
  have hcurrent := h.current id task ids hfind hunderway hread
  constructor
  · intro k other ids' hother hunderway' hids
    rw [hrewards]
    rcases hclaims.cases hother with ⟨rfl, rfl⟩ | ⟨_, hold⟩
    · rw [hreq, ← hcurrent]
      exact Option.some.inj (hids.symm.trans hread')
    · exact h.current k other ids' hold hunderway' hids
  · intro k k' first second hfirst hsecond hof hopen hopen'
    rcases hclaims.cases hfirst with ⟨rfl, rfl⟩ | ⟨_, hold⟩
    · rcases hclaims.cases hsecond with ⟨rfl, rfl⟩ | ⟨_, hold'⟩
      · rfl
      · rw [hreq] at hof
        exact h.alone k k' task second hfind hold' hof (Or.inl hunderway) hopen'
    · rcases hclaims.cases hsecond with ⟨rfl, rfl⟩ | ⟨_, hold'⟩
      · unfold ClaimTask.isOf at hof
        rw [hreq] at hof
        exact h.alone k k' first task hold hfind hof hopen (Or.inl hunderway)
      · exact h.alone k k' first second hold hold' hof hopen hopen'
  · intro k other ids' hother hunderway' hunpaid' hids
    rw [hpaidRewards]
    rcases hclaims.cases hother with ⟨rfl, rfl⟩ | ⟨hk, hold⟩
    · exact absurd (hunpaid'.symm.trans hpaid) Bool.false_ne_true
    · intro reward hreward hmem
      rcases List.mem_append.mp hmem with hmem | hmem
      · exact h.unpaid k other ids' hold hunderway' hunpaid' hids reward hreward hmem
      · refine disjoint_of_owed (hknown id task hfind) (hknown k other hold) hread hids ?_ reward
          hmem hreward
        intro hof
        exact hk (h.alone id k task other hfind hold hof (Or.inl hunderway)
          (Or.inl hunderway')).symm
  · intro row hrow hunredeemed hmem
    rw [hrewards] at hrow
    rw [hpaidRewards] at hmem
    rcases List.mem_append.mp hmem with hmem | hmem
    · obtain ⟨k, waiting, hwaiting, hunmarked, howed⟩ := h.pending row hrow hunredeemed hmem
      refine ⟨k, waiting, hclaims.find ?_ hwaiting, hunmarked, howed⟩
      rintro rfl
      cases Option.some.inj (hfind.symm.trans hwaiting)
      exact absurd (hunpaid.symm.trans hunmarked.1) Bool.false_ne_true
    · obtain ⟨row', hrow', howed⟩ := (hknown id task hfind).read ids hread row.id hmem
      cases Option.some.inj ((Table.find_key hrow).symm.trans hrow')
      refine ⟨id, task', hclaims.find_self, ⟨hpaid, hmarked⟩, ?_⟩
      rw [hreq]
      exact howed
  · intro row hrow hredeemed
    rw [hrewards] at hrow
    rw [hpaidRewards]
    exact List.mem_append_left _ (h.redeemed row hrow hredeemed)
  · rw [hpaidRewards, List.nodup_append]
    have hnodup : ids.Nodup := by
      rw [hcurrent]
      exact s.rewards.nodup.sublist (List.filter_sublist.map _)
    refine ⟨h.once, hnodup, ?_⟩
    rintro reward hpaid k hk rfl
    exact h.unpaid id task ids hfind hunderway hunpaid hread reward hk hpaid
  · intro transfer hmem
    rw [htransfers] at hmem
    rw [hrewards]
    rcases List.mem_append.mp hmem with hold | hnew
    · exact h.owed transfer hold
    · rw [List.mem_singleton.mp hnew]
      exact (hknown id task hfind).read ids hread
  · intro transfer hmem
    rw [htransfers] at hmem
    rw [hrewards]
    rcases List.mem_append.mp hmem with hold | hnew
    · exact h.amount transfer hold
    · rw [List.mem_singleton.mp hnew]

/-- A claim that has paid marks what is open for its account. -/
theorem InOrder.mark (h : s.InOrder) (hknown : Known s task)
    (hfind : s.claims.find id = some task) (hclaims : OthersStay s s' id task')
    (redeemedBy txHash : Str)
    (hrewards : s'.rewards =
      s.rewards.markAllPrismClaimed task.req.net task.req.accountId redeemedBy
      txHash) (htransfers : s'.transfers = s.transfers) (hread : task.read = some ids)
    (hunderway : task.Underway) (hpaid : task.paid = true) (hclosed : ¬task'.Open) :
    s'.InOrder := by
  have hpaidRewards : s'.paidRewards = s.paidRewards := congrArg (List.flatMap _) htransfers
  have hrows : s'.rewards.rows = s.rewards.rows.map
      (claimedRow task.req.net task.req.accountId redeemedBy txHash) := by
    rw [hrewards]
    rfl
  have honward : s.rewards.Onward s'.rewards := by
    rw [hrewards]
    exact RewardRows.onward_modifyAll (claimedRow_id _ _ _ _) (claimedRow_later _ _ _ _)
  have hback : ∀ k other, s'.claims.find k = some other → other.Open →
      k ≠ id ∧ s.claims.find k = some other := by
    intro k other hother hopen
    rcases hclaims.cases hother with ⟨_, rfl⟩ | hold
    · exact absurd hopen hclosed
    · exact hold
  constructor
  · intro k other ids' hother hunderway' hids
    obtain ⟨hk, hold⟩ := hback k other hother (Or.inl hunderway')
    rw [h.current k other ids' hold hunderway' hids, hrewards]
    refine (unredeemed_modifyAll (claimedRow_id _ _ _ _)
      (fun row => (claimedRow_later _ _ _ _ row).isOwedTo _ _) fun row howed => ?_).symm
    unfold claimedRow
    split
    · next hclaimed =>
      -- the two claims would be of one account
      rw [Bool.and_eq_true] at hclaimed
      simp only [PrismReward.isOwedTo, Bool.and_eq_true, beq_iff_eq] at howed hclaimed
      refine absurd (h.alone id k task other hfind hold ?_ (Or.inl hunderway) (Or.inl hunderway'))
        (Ne.symm hk)
      exact ⟨howed.1.symm.trans hclaimed.1.1, howed.2.symm.trans hclaimed.1.2⟩
    · rfl
  · intro k k' first second hfirst hsecond hof hopen hopen'
    exact h.alone k k' first second (hback k first hfirst hopen).2
      (hback k' second hsecond hopen').2
      hof hopen hopen'
  · intro k other ids' hother hunderway' hunpaid hids
    rw [hpaidRewards]
    exact h.unpaid k other ids' (hback k other hother (Or.inl hunderway')).2 hunderway' hunpaid hids
  · intro row' hrow' hunredeemed hmem
    rw [hrows] at hrow'
    obtain ⟨row, hrow, rfl⟩ := List.mem_map.mp hrow'
    have hlater := claimedRow_later task.req.net task.req.accountId redeemedBy txHash row
    have hopen : row.redeemedAt = false := by
      by_contra hredeemed
      rw [Bool.not_eq_false] at hredeemed
      exact absurd (hunredeemed.symm.trans (hlater.redeemedAt hredeemed)) Bool.false_ne_true
    rw [hpaidRewards, hlater.sameId] at hmem
    obtain ⟨k, waiting, hwaiting, hunmarked, howed⟩ := h.pending row hrow hopen hmem
    refine ⟨k, waiting, hclaims.find ?_ hwaiting, hunmarked, (hlater.isOwedTo _ _).trans howed⟩
    rintro rfl
    cases Option.some.inj (hfind.symm.trans hwaiting)
    exact absurd (hunredeemed.symm.trans (claimedRow_redeemed howed)) Bool.false_ne_true
  · intro row' hrow' hredeemed
    rw [hrows] at hrow'
    obtain ⟨row, hrow, rfl⟩ := List.mem_map.mp hrow'
    rw [hpaidRewards, claimedRow_id]
    cases hopen : row.redeemedAt with
    | true => exact h.redeemed row hrow hopen
    | false =>
        -- what is marked now was read by the claim, and paid by it
        unfold claimedRow at hredeemed
        split at hredeemed
        · next hclaimed =>
          rw [Bool.and_eq_true] at hclaimed
          have hmem : row.id ∈ ids := by
            rw [h.current id task ids hfind hunderway hread]
            exact List.mem_map_of_mem (RewardRows.mem_unredeemed.mpr ⟨hrow, hclaimed.1, hopen⟩)
          obtain ⟨transfer, htransfer, _, _, hsame, _⟩ := hknown.paid hpaid
          rw [hread, Option.some.injEq] at hsame
          exact List.mem_flatMap.mpr ⟨transfer, htransfer, hsame ▸ hmem⟩
        · exact absurd (hopen.symm.trans hredeemed) Bool.false_ne_true
  · rw [hpaidRewards]
    exact h.once
  · exact h.owed_onward htransfers honward
  · exact h.amount_onward htransfers honward

end Serve

/-! ## Steps -/

/-- The claims are known, their accounts are printed as they are written, and they pay in order. -/
structure Sound (payer : HotPayer) (s : Payouts) : Prop where
  known : s.AllKnown payer
  prints : ∀ id task, s.claims.find id = some task → Prints payer task.req
  inOrder : s.InOrder

theorem Sound.find_known (h : s.Sound payer) {id : Nat} {task : ClaimTask}
    (hfind : s.claims.find id = some task) : Known s task :=
  (h.known id task hfind).2 (h.prints id task hfind)

theorem continues_answered {task : ClaimTask} {r : ClaimRequest} {commit : Bool}
    {rest : r.Answer → ClaimM (Except String StdResponse)} (hprogram : task.program = .call r rest)
    (program : ClaimM (Except String StdResponse))
    (hread : ∀ net accountId, r ≠ .getTotalUnredeemedPrismRewardsByUser net accountId)
    (hcommit : commit = false ∨ (∃ net accountId, r = .isPRISMassociated net accountId) ∨
      ∃ net transactionID, r = .getReceipt net transactionID) :
    Continues task (s.answered task r commit program) := by
  have hsame : (s.answered task r commit program).req = task.req ∧
      (s.answered task r commit program).read = task.read ∧
      (s.answered task r commit program).paid = task.paid ∧
      (s.answered task r commit program).marked = task.marked := by
    rcases hcommit with rfl | ⟨net, accountId, rfl⟩ | ⟨net, transactionID, rfl⟩
    · cases r with
      | getTotalUnredeemedPrismRewardsByUser net accountId => exact absurd rfl (hread net accountId)
      | _ => simp [answered]
    · exact ⟨rfl, rfl, rfl, rfl⟩
    · exact ⟨rfl, rfl, rfl, rfl⟩
  refine ⟨hsame.1, fun hunderway => ⟨⟨hsame.2.1 ▸ hunderway.1, r, rest, hprogram⟩, hsame.2.1⟩,
    hsame.2.2.1, hsame.2.2.2⟩

end Payouts

section Stages

variable {payer : HotPayer} {req : ClaimPrismRequest} {read : Option (List Nat)}
  {paid marked : Bool}

theorem Stage.of_sends {net tokenId src dest : Str} {amount : Nat}
    {rest : Except String Str → ClaimM (Except String StdResponse)}
    (h : Stage payer req (.call (.transfer net tokenId src dest amount) rest) read paid marked) :
    net = req.net ∧ payer.accountIDFromString req.accountId = .ok dest ∧ read.isSome = true ∧
      paid = false ∧ marked = false := by
  cases h with
  | transfer tokenId src dest amount ids hdest => exact ⟨rfl, hdest, rfl, rfl, rfl⟩

theorem Stage.of_marks {net dest redeemedBy txHash : Str}
    {rest : Except String Unit → ClaimM (Except String StdResponse)}
    (h : Stage payer req (.call (.markAllPrismClaimed net dest redeemedBy txHash) rest) read paid
      marked) :
    net = req.net ∧ payer.accountIDFromString req.accountId = .ok dest ∧ read.isSome = true ∧
      paid = true ∧ ∀ answer, ∃ result, rest answer = .ret result := by
  cases h with
  | mark src dest txHash ids hdest =>
      refine ⟨rfl, hdest, rfl, rfl, fun answer => ?_⟩
      cases answer with
      | error err => exact ⟨_, rfl⟩
      | ok u => exact ⟨_, rfl⟩

end Stages

namespace Payouts

variable {payer : HotPayer} {s : Payouts} {e : PayoutEvent}

theorem Sound.serve (h : s.Sound payer) {id : Nat} {answer : (r : ClaimRequest) → r.Answer}
    {commit : Bool} (hallowed : s.Allowed (.serve id answer commit))
    (hcondition : s.OneByOne (.serve id answer commit)) : (s.serve id answer commit).InOrder := by
  cases hfind : s.claims.find id with
  | none =>
      rw [show s.serve id answer commit = s by simp only [Payouts.serve, hfind]]
      exact h.inOrder
  | some task =>
      cases hprogram : task.program with
      | ret value =>
          rw [show s.serve id answer commit = s by simp only [Payouts.serve, hfind, hprogram]]
          exact h.inOrder
      | call r rest =>
          have hknown := h.find_known hfind
          have hprints := h.prints id task hfind
          have hstage : Stage payer task.req task.program task.read task.paid task.marked :=
            (h.known id task hfind).1
          rw [hprogram] at hstage
          have hclaims : OthersStay s (s.serve id answer commit) id
              (s.answered task r commit (rest (answer r))) := by
            rw [s.serve_eq hfind hprogram]
            exact find_put_claim hfind (s.answered_id task r commit _)
          rw [s.serve_eq hfind hprogram] at hclaims ⊢
          cases r with
          | isPRISMassociated net accountId =>
              refine h.inOrder.of_claim ?_ ?_ hfind (continues_answered hprogram _ (by simp)
                (Or.inr (Or.inl ⟨net, accountId, rfl⟩))) hclaims
              · cases commit <;> rfl
              · cases commit <;> rfl
          | getReceipt net transactionID =>
              refine h.inOrder.of_claim ?_ ?_ hfind (continues_answered hprogram _ (by simp)
                (Or.inr (Or.inr ⟨net, transactionID, rfl⟩))) hclaims
              · cases commit <;> rfl
              · cases commit <;> rfl
          | getTotalUnredeemedPrismRewardsByUser net accountId =>
              obtain ⟨rfl, rfl, _, hpaid, _⟩ := hstage.of_asks
              refine h.inOrder.read hfind hclaims ?_ ?_ rfl rfl hpaid ?_
              · cases commit <;> rfl
              · cases commit <;> rfl
              · exact hcondition task _ _ rest hfind hprogram
          | transfer net tokenId src dest amount =>
              obtain ⟨rfl, hdest, hread, hunpaid, hmarked⟩ := hstage.of_sends
              cases commit with
              | false =>
                  exact h.inOrder.of_claim rfl rfl hfind
                    (continues_answered hprogram _ (by simp) (Or.inl rfl)) hclaims
              | true =>
                  obtain ⟨ids, hids, hamount⟩ := hknown.sending _ _ _ _ _ _ hprogram
                  have hunderway : task.Underway := ⟨hread, _, rest, hprogram⟩
                  refine h.inOrder.pay (fun k other hother => h.find_known hother) hfind hclaims rfl
                    rfl hids hids hunderway hunpaid ?_ hmarked ?_
                  · exact Bool.or_true _
                  · show s.transfers ++ [⟨_, dest, amount, task.read.getD []⟩] = _
                    rw [hprints dest hdest, hamount, hids]
                    rfl
          | markAllPrismClaimed net dest redeemedBy txHash =>
              obtain ⟨rfl, hdest, hread, hpaid, hends⟩ := hstage.of_marks
              cases commit with
              | false =>
                  exact h.inOrder.of_claim rfl rfl hfind
                    (continues_answered hprogram _ (by simp) (Or.inl rfl)) hclaims
              | true =>
                  obtain ⟨ids, hids⟩ := Option.isSome_iff_exists.mp hread
                  have hunderway : task.Underway := ⟨hread, _, rest, hprogram⟩
                  refine h.inOrder.mark hknown hfind hclaims redeemedBy txHash ?_ rfl hids hunderway
                    hpaid ?_
                  · show s.rewards.markAllPrismClaimed _ dest redeemedBy txHash = _
                    rw [hprints dest hdest]
                  · rintro (⟨-, r', rest', hcall⟩ | ⟨-, hunmarked⟩)
                    · obtain ⟨result, hret⟩ :=
                        hends (answer (.markAllPrismClaimed task.req.net dest redeemedBy txHash))
                      have hcall' : rest (answer (.markAllPrismClaimed task.req.net dest redeemedBy
                        txHash)) = .call r' rest' := hcall
                      rw [hret] at hcall'
                      cases hcall'
                    · have hmarked : (task.marked || true) = false := hunmarked
                      rw [Bool.or_true] at hmarked
                      exact absurd hmarked (by simp)

theorem Sound.next
    (hprints : ∀ account : AccountId, ∀ s t, account.IsWritten s →
      payer.accountIDFromString s = .ok t → t = s)
    (h : s.Sound payer) (hallowed : s.Allowed e) (hcondition : s.OneByOne e) :
    (s.next payer e).Sound payer := by
  refine ⟨h.known.next hallowed, fun id task' hfind' => ?_, ?_⟩
  · rcases claim_next hfind' with hold | ⟨req, rfl, rfl⟩ |
      ⟨answer, commit, task, r, rest, rfl, hfind, _, rfl⟩ | ⟨task, rfl, hfind, rfl⟩
    · exact h.prints id task' hold
    · obtain ⟨account, hwritten⟩ := hcondition
      exact fun t ht => hprints account _ t hwritten ht
    · have hreq : (s.answered task r commit (rest (answer r))).req = task.req := by
        cases r <;> rfl
      rw [hreq]
      exact h.prints id task hfind
    · exact h.prints id task hfind
  cases e with
  | createPrismReward params id => exact h.inOrder.create hallowed hcondition
  | markPrismAsClaimableByAccountId net accountId =>
    exact h.inOrder.markPrismAsClaimable net accountId
  | serve id answer commit => exact h.serve hallowed hcondition
  | start id req =>
      have hnew : s.claims.find id = none := hallowed.1
      refine h.inOrder.of_claims rfl rfl ?_ ?_
      · intro k task' hfind'
        obtain ⟨hmem, hkey⟩ := Table.find_eq_some.mp hfind'
        rcases Table.mem_of_mem_insert hmem with hold | rfl
        · exact Or.inr ⟨task', Table.find_eq_some.mpr ⟨hold, hkey⟩, .refl task'⟩
        · left
          rintro (⟨hread, _⟩ | ⟨hpaid, _⟩)
          · exact absurd hread Bool.false_ne_true
          · exact absurd hpaid Bool.false_ne_true
      · exact fun k task hfind => ⟨task, Table.find_insert hfind, .refl task⟩
  | stop id =>
      have hlost (task : ClaimTask) : Continues task (lost task) := by
        refine ⟨rfl, ?_, rfl, rfl⟩
        rintro ⟨_, r, rest, hcall⟩
        cases hcall
      have hmap (k : Nat) : (s.next payer (.stop id)).claims.find k =
          (s.claims.find k).map fun task => if k = id then lost task else task :=
        Table.find_modify_map (f := lost) (fun _ => rfl) k
      have hstep (k : Nat) (task : ClaimTask) :
          Continues task (if k = id then lost task else task) := by
        split
        · exact hlost task
        · exact .refl task
      refine h.inOrder.of_claims rfl rfl ?_ ?_
      · intro k task' hfind'
        rw [hmap k, Option.map_eq_some_iff] at hfind'
        obtain ⟨task, hfind, rfl⟩ := hfind'
        exact Or.inr ⟨task, hfind, hstep k task⟩
      · intro k task hfind
        refine ⟨_, ?_, hstep k task⟩
        rw [hmap k, hfind, Option.map_some]

/-! ## Runs -/

structure Fresh (s : Payouts) : Prop where
  claims : s.claims = .empty
  transfers : s.transfers = []
  rewards : ∀ row ∈ s.rewards.rows, row.redeemedAt = false

theorem Fresh.sound (h : s.Fresh) : s.Sound payer := by
  have hnone (id : Nat) (task : ClaimTask) : s.claims.find id ≠ some task := by
    rw [h.claims]
    simp [Table.find, Table.empty]
  have hpaid : s.paidRewards = [] := by
    rw [paidRewards, h.transfers, List.flatMap_nil]
  refine ⟨.of_empty h.claims, fun id task hfind => absurd hfind (hnone id task), ?_⟩
  constructor
  · exact fun id task _ hfind => absurd hfind (hnone id task)
  · exact fun id _ task _ hfind => absurd hfind (hnone id task)
  · exact fun id task _ hfind => absurd hfind (hnone id task)
  · intro row _ _ hmem
    rw [hpaid] at hmem
    exact absurd hmem List.not_mem_nil
  · intro row hrow hredeemed
    exact absurd ((h.rewards row hrow).symm.trans hredeemed) Bool.false_ne_true
  · rw [hpaid]
    exact List.nodup_nil
  · rw [h.transfers]
    exact fun _ hmem => absurd hmem List.not_mem_nil
  · rw [h.transfers]
    exact fun _ hmem => absurd hmem List.not_mem_nil

/-- In every state of a run in which claims of one account do not overlap, rewards are paid once. -/
theorem claims_pay_once
    (hprints : ∀ account : AccountId, ∀ s t, account.IsWritten s →
      payer.accountIDFromString s = .ok t → t = s)
    (hfresh : s.Fresh) {events : List PayoutEvent}
    (hruns : (payouts payer).Runs Payouts.OneByOne s events) :
    ((payouts payer).run s events).PaysOnce := by
  have hsound : ((payouts payer).run s events).Sound payer :=
    hruns.preserves (fun _ _ h hallowed hcondition =>
      h.next hprints hallowed hcondition) hfresh.sound
  exact hsound.inOrder.paysOnce

theorem oneByOne_serve {id : Nat} {task : ClaimTask} {r : ClaimRequest}
    {rest : r.Answer → ClaimM (Except String StdResponse)} {answer : (r : ClaimRequest) → r.Answer}
    {commit : Bool} (hfind : s.claims.find id = some task) (hprogram : task.program = .call r rest)
    (hread : ∀ net accountId, r ≠ .getTotalUnredeemedPrismRewardsByUser net accountId) :
    s.OneByOne (.serve id answer commit) := by
  intro task' net accountId rest' hfind' hprogram'
  cases Option.some.inj (hfind.symm.trans hfind')
  cases hprogram.symm.trans hprogram'
  exact absurd rfl (hread net accountId)

theorem not_open_of_start {task : ClaimTask} (hread : task.read = none)
    (hpaid : task.paid = false) : ¬task.Open := by
  rintro (⟨hsome, _⟩ | ⟨htrue, _⟩)
  · rw [hread] at hsome
    exact absurd hsome (by simp)
  · exact absurd (hpaid.symm.trans htrue) Bool.false_ne_true

theorem not_open_of_end {task : ClaimTask} {result : Except String StdResponse}
    (hprogram : task.program = .ret result) (hmarked : task.marked = true) : ¬task.Open := by
  rintro (⟨_, r, rest, hcall⟩ | ⟨_, hfalse⟩)
  · rw [hprogram] at hcall
    cases hcall
  · exact absurd (hfalse.symm.trans hmarked) Bool.false_ne_true

theorem oneByOne_read {id : Nat} {answer : (r : ClaimRequest) → r.Answer} {commit : Bool}
    (h : ∀ task ∈ s.claims.rows, ¬task.Open) : s.OneByOne (.serve id answer commit) :=
  fun _ _ _ _ _ _ _ task' hother _ => h task' (Table.find_eq_some.mp hother).1

/-- A claim is paid, another reward is created, and the next claim is paid that one. -/
def sampleInTurn : List PayoutEvent :=
  let again : PayoutEvent := .serve 8 sampleAnswer true
  [.start 7 sampleClaim, sampleStep, sampleStep, sampleStep, sampleStep, sampleStep,
    .createPrismReward sampleMined 2, .start 8 sampleClaim, again, again, again, again, again]

theorem claims_pay_once_sample :
    ((payouts samplePayer).run samplePayouts sampleInTurn).paidRewards = [1, 2] ∧
      ((payouts samplePayer).run samplePayouts sampleInTurn).PaysOnce := by
  have hprints : ∀ account : AccountId, ∀ s t, account.IsWritten s →
      samplePayer.accountIDFromString s = .ok t → t = s := by
    intro account s t hwritten h
    simp only [samplePayer, hwritten.1, if_true, Except.ok.injEq] at h
    exact h.symm
  have hfresh : samplePayouts.Fresh := by
    refine ⟨rfl, rfl, fun row hrow => ?_⟩
    rw [List.mem_singleton.mp hrow]
    rfl
  have hwritten : ∃ account : AccountId, account.IsWritten sampleClaim.accountId :=
    ⟨sampleTrader.account, by decide +kernel⟩
  have hfirst : ∀ task ∈ ((payouts samplePayer).run samplePayouts
      (sampleInTurn.take 2)).claims.rows, ¬task.Open := by
    intro task htask
    rw [List.mem_singleton.mp htask]
    exact not_open_of_start rfl rfl
  have hended : ∀ task ∈ ((payouts samplePayer).run samplePayouts
      (sampleInTurn.take 6)).claims.rows, ¬task.Open := by
    intro task htask
    rw [List.mem_singleton.mp htask]
    exact not_open_of_end rfl rfl
  have hsecond : ∀ task ∈ ((payouts samplePayer).run samplePayouts
      (sampleInTurn.take 9)).claims.rows, ¬task.Open := by
    intro task htask
    rcases List.mem_cons.mp htask with rfl | htask
    · exact not_open_of_end rfl rfl
    · rw [List.mem_singleton.mp htask]
      exact not_open_of_start rfl rfl
  refine ⟨rfl, claims_pay_once hprints hfresh ?_⟩
  refine ⟨⟨rfl, by decide +kernel⟩, hwritten, ?_⟩
  refine ⟨allowed_serve rfl rfl trivial, oneByOne_serve rfl rfl (by simp), ?_⟩
  refine ⟨allowed_serve rfl rfl (show 23561643835 = _ from rfl), oneByOne_read hfirst, ?_⟩
  refine ⟨allowed_serve rfl rfl trivial, oneByOne_serve rfl rfl (by simp), ?_⟩
  refine ⟨allowed_serve rfl rfl rfl, oneByOne_serve rfl rfl (by simp), ?_⟩
  refine ⟨allowed_serve rfl rfl rfl, oneByOne_serve rfl rfl (by simp), ?_⟩
  refine ⟨rfl, fun _ task hfind _ hunderway =>
    hended task (Table.find_eq_some.mp hfind).1 (Or.inl hunderway), ?_⟩
  refine ⟨⟨rfl, by decide +kernel⟩, hwritten, ?_⟩
  refine ⟨allowed_serve rfl rfl trivial, oneByOne_serve rfl rfl (by simp), ?_⟩
  refine ⟨allowed_serve rfl rfl (show 23561643835 = _ from rfl), oneByOne_read hsecond, ?_⟩
  refine ⟨allowed_serve rfl rfl trivial, oneByOne_serve rfl rfl (by simp), ?_⟩
  refine ⟨allowed_serve rfl rfl rfl, oneByOne_serve rfl rfl (by simp), ?_⟩
  exact ⟨allowed_serve rfl rfl rfl, oneByOne_serve rfl rfl (by simp), trivial⟩

/-- Two claims of one account read the same total, and both transfer it. -/
def sampleOverlap : List PayoutEvent :=
  [.start 7 sampleClaim, .start 8 sampleClaim, .serve 7 sampleAnswer true,
    .serve 8 sampleAnswer true, .serve 7 sampleAnswer true, .serve 8 sampleAnswer true,
    .serve 7 sampleAnswer true, .serve 8 sampleAnswer true]

theorem claims_pay_twice :
    (payouts samplePayer).Runs (fun _ _ => True) samplePayouts sampleOverlap ∧
      ¬((payouts samplePayer).run samplePayouts sampleOverlap).PaysOnce := by
  constructor
  · refine ⟨⟨rfl, by decide +kernel⟩, trivial, ⟨rfl, by decide +kernel⟩, trivial, ?_⟩
    refine ⟨allowed_serve rfl rfl trivial, trivial, allowed_serve rfl rfl trivial, trivial, ?_⟩
    refine ⟨allowed_serve rfl rfl (show 23561643835 = _ from rfl), trivial,
      allowed_serve rfl rfl (show 23561643835 = _ from rfl), trivial, ?_⟩
    exact ⟨allowed_serve rfl rfl trivial, trivial, allowed_serve rfl rfl trivial, trivial, trivial⟩
  · intro h
    have hpaid : ((payouts samplePayer).run samplePayouts sampleOverlap).paidRewards = [1, 1] := rfl
    have honce := h.once
    rw [hpaid] at honce
    exact absurd honce (by decide)

end Payouts

end PrismBackend.Rewards
