import PrismBackend.Api.Preimage
import PrismBackend.Lib.Decimal
import PrismBackend.Rewards.Claimable
import PrismBackend.Rewards.LimitOrderMining

/-!
# Rewards: owners

Which rewards belong to a trader: those of its orders, and those of its
positions. A claim of the trader's account that succeeds pays and marks all of
them.
-/

namespace PrismBackend.Rewards

open PrismBackend.Lib PrismBackend.Clob
open PrismBackend.Api (isHex40 isHex40_of_lowercase)

/-! ## Accounts -/

/-- The number of an account; the parts are signed 64-bit numbers. -/
structure AccountId where
  shard : Nat
  realm : Nat
  num : Nat
  shard_lt : shard < 2 ^ 63
  realm_lt : realm < 2 ^ 63
  num_lt : num < 2 ^ 63

/-- The text is accepted as an account id, and its numbers are those of the account. -/
def AccountId.IsWritten (account : AccountId) (s : Str) : Prop :=
  isAccountId s = true ∧
    (s.splitOn '.').map decimalValue = [account.shard, account.realm, account.num]

instance (account : AccountId) (s : Str) : Decidable (account.IsWritten s) :=
  inferInstanceAs (Decidable (_ ∧ _))

theorem plainNumber_of_isPlainNumber {s : Str} (h : isPlainNumber s = true) : PlainNumber s := by
  simp only [isPlainNumber, isDigits, Bool.and_eq_true, Bool.or_eq_true, bne_iff_ne, beq_iff_eq,
    List.all_eq_true] at h
  exact ⟨h.1.2, h.1.1, h.2⟩

theorem plainNumbers_of_isAccountId {s : Str} (h : isAccountId s = true) :
    ∃ shard realm num, s.splitOn '.' = [shard, realm, num] ∧ PlainNumber shard ∧
      PlainNumber realm ∧ PlainNumber num := by
  unfold isAccountId at h
  split at h
  · next shard realm num hparts =>
    rw [Bool.and_eq_true, Bool.and_eq_true] at h
    exact ⟨shard, realm, num, hparts, plainNumber_of_isPlainNumber h.1.1,
      plainNumber_of_isPlainNumber h.1.2, plainNumber_of_isPlainNumber h.2⟩
  · exact absurd h Bool.false_ne_true

theorem AccountId.IsWritten.unique {account : AccountId} {s t : Str} (hs : account.IsWritten s)
    (ht : account.IsWritten t) : s = t := by
  obtain ⟨shard, realm, num, hparts, hshard, hrealm, hnum⟩ := plainNumbers_of_isAccountId hs.1
  obtain ⟨shard', realm', num', hparts', hshard', hrealm', hnum'⟩ :=
    plainNumbers_of_isAccountId ht.1
  have hvalues := hs.2.trans ht.2.symm
  rw [hparts, hparts'] at hvalues
  simp only [List.map_cons, List.map_nil, List.cons.injEq, and_true] at hvalues
  have hsame : s.splitOn '.' = t.splitOn '.' := by
    rw [hparts, hparts', hshard.eq_of_decimalValue hshard' hvalues.1,
      hrealm.eq_of_decimalValue hrealm' hvalues.2.1, hnum.eq_of_decimalValue hnum' hvalues.2.2]
  calc s = ['.'].intercalate (s.splitOn '.') := (List.intercalate_splitOn '.').symm
    _ = ['.'].intercalate (t.splitOn '.') := by rw [hsame]
    _ = t := List.intercalate_splitOn '.'

theorem not_isValidHederaAccountID_of_isHex40 {s : Str} (h : isHex40 s) :
    isValidHederaAccountID s = false := by
  have hdot : '.' ∉ s := fun hmem => absurd (h.2 '.' hmem) (by decide)
  have hsingle : s.splitOn '.' = [s] := List.splitOn_eq_singleton hdot
  unfold isValidHederaAccountID
  rw [hsingle]

/-! ## Rewards of a trader -/

structure Trader where
  account : AccountId
  evmAddress : Str
  evmAddress_hex : isHex40 evmAddress

/-- The position is under the trader's EVM address, in either case, or, in the rows that were
written before the column held addresses, under the account id. -/
def Trader.Holds (trader : Trader) (position : Position) : Prop :=
  toAsciiLowercase position.evmAddress = toAsciiLowercase trader.evmAddress ∨
    trader.account.IsWritten position.evmAddress

/-- A job asked for this reward for orders or for positions of the trader. -/
inductive Trader.Earned (trader : Trader) (params : CreatePrismRewardParams) : Prop
  | mined (run : LomRun) (rewards : List CreatePrismRewardParams) (hrun : run.calcLOM = .ok rewards)
      (hmem : params ∈ rewards)
      (howner : ∀ order ∈ run.orders, order.accountID = params.destAccountID →
        trader.account.IsWritten order.accountID)
  | campaign (run : CampaignRun) (rewards : List CreatePrismRewardParams)
      (hrun : run.calc_ = .ok rewards) (hmem : params ∈ rewards)
      (howner : ∀ market positions, run.getPositionsByMarketId market = some positions →
        ∀ position ∈ positions.rows, position.evmAddress = params.destAccountID →
          trader.Holds position)

theorem CampaignRun.exists_position_of_mem_calc {run : CampaignRun}
    {rewards : List CreatePrismRewardParams} (h : run.calc_ = .ok rewards)
    {params : CreatePrismRewardParams} (hparams : params ∈ rewards) :
    ∃ market positions, run.getPositionsByMarketId market = some positions ∧
      ∃ position ∈ positions.rows, position.evmAddress = params.destAccountID := by
  simp only [CampaignRun.calc_, bind_ok_iff, Except.ok.injEq] at h
  obtain ⟨_, _, _, _, rfl⟩ := h
  obtain ⟨market, _, hreward⟩ := List.mem_flatMap.mp hparams
  unfold CampaignRun.rewardsOf at hreward
  split at hreward
  · exact absurd hreward List.not_mem_nil
  next positions hpositions =>
  obtain ⟨position, hposition, hparams⟩ := List.mem_filterMap.mp hreward
  refine ⟨market.marketID, positions, hpositions, position, hposition, ?_⟩
  unfold CampaignRun.reward at hparams
  split at hparams
  · exact absurd hparams (by simp)
  · cases hparams
    rfl

/-- A reward that the table takes is for the account id of its owner. -/
theorem Trader.Earned.isWritten {trader : Trader} {params : CreatePrismRewardParams}
    (h : trader.Earned params) (hpermitted : params.permitted = true) :
    trader.account.IsWritten params.destAccountID := by
  cases h with
  | mined run rewards hrun hmem howner =>
      obtain ⟨order, horder, haccount⟩ := LomRun.exists_order_of_mem_calcLOM hrun hmem
      rw [← haccount]
      exact howner order horder haccount
  | campaign run rewards hrun hmem howner =>
      obtain ⟨market, positions, hpositions, position, hposition, haddress⟩ :=
        CampaignRun.exists_position_of_mem_calc hrun hmem
      rcases howner market positions hpositions position hposition haddress with hevm | hwritten
      · -- the check of the column refuses an address
        have hhex : isHex40 params.destAccountID :=
          haddress ▸ isHex40_of_lowercase hevm trader.evmAddress_hex
        have hrefused := not_isValidHederaAccountID_of_isHex40 hhex
        simp [CreatePrismRewardParams.permitted, hrefused] at hpermitted
      · rw [← haddress]
        exact hwritten

/-! ## What a claim has read -/

section Stages

variable {payer : HotPayer} {req : ClaimPrismRequest} {read : Option (List Nat)}
  {paid marked : Bool}

theorem Stage.succeeded {message : String}
    (h : Stage payer req (.ret (.ok ⟨0, message⟩)) read paid marked) :
    paid = true ∧ marked = true := by
  cases h with
  | claimed message ids => exact ⟨rfl, rfl⟩
  | refused result read paid marked hresult => exact absurd rfl (hresult message)

theorem Stage.of_asks {net accountId : Str}
    {rest : Except String Nat → ClaimM (Except String StdResponse)}
    (h : Stage payer req (.call (.getTotalUnredeemedPrismRewardsByUser net accountId) rest) read
      paid marked) :
    net = req.net ∧ accountId = req.accountId ∧ read = none ∧ paid = false ∧ marked = false := by
  cases h with
  | total => exact ⟨rfl, rfl, rfl, rfl, rfl⟩

end Stages

namespace Payouts

variable {payer : HotPayer} {s : Payouts} {e : PayoutEvent} {id : Nat} {task : ClaimTask}
  {ids : List Nat}

theorem not_asks_again (h : s.AllKnown payer) (hfind : s.claims.find id = some task)
    (hread : task.read = some ids) (net accountId : Str)
    (rest : Except String Nat → ClaimM (Except String StdResponse)) :
    task.program ≠ .call (.getTotalUnredeemedPrismRewardsByUser net accountId) rest := by
  intro hprogram
  have hstage : Stage payer task.req task.program task.read task.paid task.marked :=
    (h id task hfind).1
  rw [hprogram] at hstage
  have hnone : task.read = none := hstage.of_asks.2.2.1
  rw [hread] at hnone
  exact absurd hnone (by simp)

theorem answered_read {r : ClaimRequest} {commit : Bool}
    {program : ClaimM (Except String StdResponse)} (hread : task.read = some ids)
    (hnot : ∀ net accountId, r ≠ .getTotalUnredeemedPrismRewardsByUser net accountId) :
    (s.answered task r commit program).read = some ids := by
  cases r with
  | getTotalUnredeemedPrismRewardsByUser net accountId => exact absurd rfl (hnot net accountId)
  | _ => exact hread

def HasRead (s : Payouts) (id : Nat) (req : ClaimPrismRequest) (ids : List Nat) : Prop :=
  ∃ task, s.claims.find id = some task ∧ task.req = req ∧ task.read = some ids

theorem HasRead.next {req : ClaimPrismRequest} (h : s.HasRead id req ids)
    (hknown : s.AllKnown payer) : (s.next payer e).HasRead id req ids := by
  obtain ⟨task, hfind, hreq, hread⟩ := h
  cases e with
  | createPrismReward params k => exact ⟨task, hfind, hreq, hread⟩
  | markPrismAsClaimableByAccountId net accountId => exact ⟨task, hfind, hreq, hread⟩
  | start k req => exact ⟨task, Table.find_insert hfind, hreq, hread⟩
  | serve k answer commit =>
      cases hk : s.claims.find k with
      | none =>
          refine ⟨task, ?_, hreq, hread⟩
          simpa only [Payouts.next, Payouts.serve, hk] using hfind
      | some other =>
          cases hprogram : other.program with
          | ret value =>
              refine ⟨task, ?_, hreq, hread⟩
              simpa only [Payouts.next, Payouts.serve, hk, hprogram] using hfind
          | call r rest =>
              rw [show s.next payer (.serve k answer commit) = s.serve k answer commit from rfl,
                s.serve_eq hk hprogram]
              by_cases hsame : k = id
              · subst hsame
                cases Option.some.inj (hk.symm.trans hfind)
                refine ⟨s.answered task r commit (rest (answer r)), ?_, ?_, ?_⟩
                · dsimp only
                  rw [Table.find_put, s.answered_id, (Table.find_eq_some.mp hfind).2, if_pos rfl,
                    hfind, Option.map_some]
                · rw [← hreq]
                  cases r <;> rfl
                · refine answered_read hread ?_
                  rintro net accountId rfl
                  exact not_asks_again hknown hfind hread net accountId rest hprogram
              · refine ⟨task, ?_, hreq, hread⟩
                dsimp only
                rw [Table.find_put, s.answered_id, (Table.find_eq_some.mp hk).2,
                  if_neg (Ne.symm hsame)]
                exact hfind
  | stop k =>
      have hmap : (s.next payer (.stop k)).claims.find id =
          (s.claims.find id).map fun task => if id = k then lost task else task :=
        Table.find_modify_map (f := lost) (fun _ => rfl) id
      rw [hfind, Option.map_some] at hmap
      refine ⟨_, hmap, ?_, ?_⟩
      · rw [← hreq]
        split <;> rfl
      · rw [← hread]
        split <;> rfl

theorem AllKnown.of_empty (h : s.claims = .empty) : s.AllKnown payer := by
  intro id task hfind
  rw [h] at hfind
  exact absurd hfind (by simp [Table.find, Table.empty])

theorem HasRead.of_serve (payer : HotPayer) {req : ClaimPrismRequest} {net accountId : Str}
    {rest : Except String Nat → ClaimM (Except String StdResponse)}
    (hfind : s.claims.find id = some task) (hreq : task.req = req)
    (hprogram : task.program = .call (.getTotalUnredeemedPrismRewardsByUser net accountId) rest)
    (answer : (r : ClaimRequest) → r.Answer) (commit : Bool) :
    (s.next payer (.serve id answer commit)).HasRead id req
      ((s.rewards.unredeemed net accountId).map (·.id)) := by
  rw [show s.next payer (.serve id answer commit) = s.serve id answer commit from rfl,
    s.serve_eq hfind hprogram]
  refine ⟨s.answered task (.getTotalUnredeemedPrismRewardsByUser net accountId) commit
    (rest (answer (.getTotalUnredeemedPrismRewardsByUser net accountId))), ?_, hreq, rfl⟩
  dsimp only
  rw [Table.find_put, s.answered_id, (Table.find_eq_some.mp hfind).2, if_pos rfl, hfind,
    Option.map_some]

end Payouts

theorem PrismReward.Later.trans {row row' row'' : PrismReward} (h : row.Later row')
    (h' : row'.Later row'') : row.Later row'' :=
  ⟨h'.params.trans h.params, h'.sameId.trans h.sameId, fun hold =>
    h'.redeemedAt (h.redeemedAt hold)⟩

theorem RewardRows.Onward.trans {rewards rewards' rewards'' : RewardRows}
    (h : rewards.Onward rewards') (h' : rewards'.Onward rewards'') : rewards.Onward rewards'' := by
  intro id row hrow
  obtain ⟨row', hrow', hlater⟩ := h id row hrow
  obtain ⟨row'', hrow'', hlater'⟩ := h' id row' hrow'
  exact ⟨row'', hrow'', hlater.trans hlater'⟩

/-! ## Claimability -/

section Claimability

variable {payer : HotPayer} {trader : Trader} {start : Payouts} {before after : List PayoutEvent}
  {id : Nat} {answer : (r : ClaimRequest) → r.Answer} {commit : Bool} {task done : ClaimTask}
  {net accountId : Str} {rest : Except String Nat → ClaimM (Except String StdResponse)}
  {row : PrismReward} {message : String}

/-- A claim of the trader's account that reads its total and succeeds has paid, and has marked,
every reward that a job created for the trader's orders or positions and that nobody had redeemed
when the total was read. -/
theorem reward_claimable
    (hprints : ∀ account : AccountId, ∀ s t, account.IsWritten s →
      payer.accountIDFromString s = .ok t → t = s)
    (hempty : start.claims = .empty)
    (hruns : (payouts payer).Runs (fun _ _ => True) start
      (before ++ .serve id answer commit :: after))
    (hfind : ((payouts payer).run start before).claims.find id = some task)
    (hasks : task.program = .call (.getTotalUnredeemedPrismRewardsByUser net accountId) rest)
    (hclaimant : trader.account.IsWritten task.req.accountId)
    (hdone : ((payouts payer).run start
      (before ++ .serve id answer commit :: after)).claims.find id =
      some done)
    (hok : done.program = .ret (.ok ⟨0, message⟩))
    (hrow : row ∈ ((payouts payer).run start before).rewards.rows) (hopen : row.redeemedAt = false)
    (hnet : row.net = task.req.net) (hearned : trader.Earned row.toCreatePrismRewardParams) :
    (∃ transfer ∈ ((payouts payer).run start
        (before ++ .serve id answer commit :: after)).transfers,
      transfer.net = row.net ∧ transfer.accountId = row.destAccountID ∧ row.id ∈ transfer.rewards ∧
        transfer.amount =
          ((payouts payer).run start before).rewards.amountOf transfer.rewards) ∧
      ∃ row', ((payouts payer).run start
          (before ++ .serve id answer commit :: after)).rewards.find row.id = some row' ∧
        row.Later row' ∧ row'.redeemedAt = true := by
  rw [System.run_append, System.run_cons] at hdone ⊢
  obtain ⟨hbefore, hallowed, -, hafter⟩ := System.runs_append.mp hruns
  generalize hs : (payouts payer).run start before = s at *
  generalize hs' : (payouts payer).next s (.serve id answer commit) = s' at *
  have hknown : s.AllKnown payer := by
    rw [← hs]
    exact hbefore.preserves (fun t e h hallowed _ => h.next hallowed)
      (Payouts.AllKnown.of_empty hempty)
  -- what the claim asks for is what its request names
  have hstage : Stage payer task.req task.program task.read task.paid task.marked :=
    (hknown id task hfind).1
  rw [hasks] at hstage
  obtain ⟨rfl, rfl, -⟩ := hstage.of_asks
  have howed : row.destAccountID = task.req.accountId :=
    (hearned.isWritten row.permitted).unique hclaimant
  have hread : s'.HasRead id task.req
      ((s.rewards.unredeemed task.req.net task.req.accountId).map (·.id)) := by
    rw [← hs']
    exact Payouts.HasRead.of_serve payer hfind rfl hasks answer commit
  have hmem : row.id ∈ (s.rewards.unredeemed task.req.net task.req.accountId).map (·.id) := by
    refine List.mem_map_of_mem (RewardRows.mem_unredeemed.mpr ⟨hrow, ?_, hopen⟩)
    simp [PrismReward.isOwedTo, hnet, howed]
  have hthere : ∀ id ∈ (s.rewards.unredeemed task.req.net task.req.accountId).map (·.id),
      ∃ row, s.rewards.find id = some row := by
    intro id hid
    obtain ⟨row, hrow, rfl⟩ := List.mem_map.mp hid
    exact ⟨row, Table.find_key (RewardRows.mem_unredeemed.mp hrow).1⟩
  generalize (s.rewards.unredeemed task.req.net task.req.accountId).map (·.id) = ids at *
  have hknown' : s'.AllKnown payer := by
    rw [← hs']
    exact hknown.next hallowed
  have honward : s.rewards.Onward s'.rewards := by
    rw [← hs']
    exact s.next_onward payer _
  have hfinal := hafter.preserves
    (P := fun t => t.AllKnown payer ∧ t.HasRead id task.req ids ∧ s.rewards.Onward t.rewards)
    (fun t e h hallowed _ => ⟨h.1.next hallowed, h.2.1.next h.1,
      h.2.2.trans (t.next_onward payer e)⟩)
    ⟨hknown', hread, honward⟩
  generalize (payouts payer).run s' after = final at *
  obtain ⟨hallKnown, ⟨task', hfind', hreq, hids⟩, hlater⟩ := hfinal
  cases Option.some.inj (hdone.symm.trans hfind')
  obtain ⟨hstage', hdoneKnown⟩ := hallKnown id done hdone
  have hprinted : Prints payer done.req := by
    rw [hreq]
    exact fun t ht => hprints trader.account _ t hclaimant ht
  have hstage'' : Stage payer done.req done.program done.read done.paid done.marked := hstage'
  rw [hok] at hstage''
  obtain ⟨hpaid, hmarked⟩ := hstage''.succeeded
  have hknownDone := hdoneKnown hprinted
  constructor
  · obtain ⟨transfer, htransfer, htransferNet, htransferAccount, hrewards, hamount⟩ :=
      hknownDone.paid hpaid
    have hsame : transfer.rewards = ids := Option.some.inj (hrewards.symm.trans hids)
    refine ⟨transfer, htransfer, ?_, ?_, hsame ▸ hmem, ?_⟩
    · rw [htransferNet, hreq, hnet]
    · rw [htransferAccount, hreq, howed]
    · rw [hamount, hsame]
      exact hlater.amountOf hthere
  · obtain ⟨row', hrow', hredeemed⟩ := hknownDone.marked hmarked ids hids row.id hmem
    obtain ⟨row'', hrow'', hlaterRow⟩ := hlater row.id row (Table.find_key hrow)
    cases Option.some.inj (hrow'.symm.trans hrow'')
    exact ⟨row', hrow', hlaterRow, hredeemed⟩

end Claimability

/-! ## A claim of mined rewards -/

def samplePayer : HotPayer where
  accountIDFromString s := if isAccountId s then .ok s else .error "invalid account id"
  prismTokenId _ := .ok "0.0.5001".toList
  srcAccountId _ := .ok "0.0.5002".toList
  client _ := .ok ()

def sampleTrader : Trader where
  account := ⟨0, 0, 1001, by norm_num, by norm_num, by norm_num⟩
  evmAddress := List.replicate 40 'a'
  evmAddress_hex := by decide

/-- A run on the second day, over one order at the price of its market. -/
def sampleMining : LomRun where
  cronRanAt := launchDate + 24 * hour
  now := launchDate + 24 * hour
  schedule := daily
  tokenDecimals := 6
  unresolvedMarkets := [⟨1, "testnet".toList, true⟩]
  orders := [{
    marketID := 1
    accountID := "0.0.1001".toList
    isSecondary := false
    priceUsd := 1 / 2
    qtyOrig := 10
    qtyRem := 10
    createdAt := launchDate
    cancelledAt := false
    fullyMatchedAt := false
    evictedAt := false }]
  getLatestPriceByMarket := fun _ => some (1 / 2)
  isReadable := fun _ _ => true

def sampleMined : CreatePrismRewardParams where
  net := "testnet".toList
  destAccountID := "0.0.1001".toList
  nPrismScaled := 23561643835
  ratioOfAllocation := some 1
  cronRanAt := launchDate + 24 * hour
  campaignID := 1

theorem sampleMining_rewards : sampleMining.calcLOM = .ok [sampleMined] := by
  have haccounts : sampleMining.accounts = ["0.0.1001".toList] := by decide +kernel
  have hcompounded : sampleMining.compoundedLOM "0.0.1001".toList = 415 / 2 := by decide +kernel
  have hnet : sampleMining.netOf "0.0.1001".toList = some "testnet".toList := by decide +kernel
  have htotal : sampleMining.totalLOMScoreCompounded = 415 / 2 := by
    rw [LomRun.totalLOMScoreCompounded, haccounts, List.map_singleton, hcompounded,
      List.sum_singleton]
  have hyear : lomRewardsForYearAtTime sampleMining.now = 8600000 := by decide +kernel
  have hallocated : sampleMining.prismToBeAllocatedThisRun = 8600000 / 365 := by
    unfold LomRun.prismToBeAllocatedThisRun lomRewardsPerDayAtTime cronJobsPerDay
    rw [hyear, show sampleMining.schedule = daily from rfl, cronJobs_daily]
    norm_num
  have hprism : sampleMining.prismToSendUser "0.0.1001".toList = 8600000 / 365 := by
    rw [LomRun.prismToSendUser, htotal, hcompounded, hallocated]
    norm_num
  have hsane : sampleMining.sanityCheckPrismAllocation "0.0.1001".toList = true := by
    rw [LomRun.sanityCheckPrismAllocation, hprism, hallocated]
    norm_num
  have hscaled : int64 (some (8600000 / 365 * 10 ^ sampleMining.tokenDecimals)) = 23561643835 := by
    decide +kernel
  have hratio : quotient (415 / 2) (415 / 2) = some 1 := by decide +kernel
  have hreward : sampleMining.reward "0.0.1001".toList = some sampleMined := by
    unfold LomRun.reward
    rw [hnet]
    dsimp only
    rw [if_pos hsane, hprism, hscaled, hcompounded, htotal, hratio]
    rfl
  have hended : revertIf (lomEnd < sampleMining.now)
      "LOM initiative has finished. Date is too far in the future." = .ok () := by decide +kernel
  have hstarted : revertIf (sampleMining.now < launchDate)
      "LOM initiative has not started yet. Date is too far in the past." = .ok () := by
    decide +kernel
  rw [LomRun.calcLOM, hended, ok_bind, hstarted, ok_bind, haccounts,
    List.filterMap_cons_some hreward, List.filterMap_nil]

def sampleReward : PrismReward :=
  ⟨sampleMined, 1, false, none, none, false, by decide +kernel⟩

def samplePayouts : Payouts where
  rewards := ⟨[sampleReward], List.nodup_singleton _⟩
  claims := .empty
  transfers := []

def sampleClaim : ClaimPrismRequest where
  accountId := "0.0.1001".toList
  net := "testnet".toList
  sig := []
  publicKey := []
  keyType := 0

def sampleAnswer : (r : ClaimRequest) → r.Answer
  | .isPRISMassociated _ _ => true
  | .getTotalUnredeemedPrismRewardsByUser _ _ => .ok 23561643835
  | .transfer _ _ _ _ _ => .ok "0.0.5002@1".toList
  | .getReceipt _ _ => .ok "0.0.5002@1".toList
  | .markAllPrismClaimed _ _ _ _ => .ok ()

theorem Payouts.allowed_serve {s : Payouts} {id : Nat} {task : ClaimTask} {r : ClaimRequest}
    {rest : r.Answer → ClaimM (Except String StdResponse)} {answer : (r : ClaimRequest) → r.Answer}
    {commit : Bool} (hfind : s.claims.find id = some task) (hprogram : task.program = .call r rest)
    (h : s.Honest task r (answer r) commit) : s.Allowed (.serve id answer commit) := by
  intro task' r' rest' hfind' hprogram'
  cases Option.some.inj (hfind.symm.trans hfind')
  cases hprogram.symm.trans hprogram'
  exact h

def sampleStep : PayoutEvent := .serve 7 sampleAnswer true

/-- The claim asks for the association, the total, the transfer, the receipt and the mark. -/
theorem sample_runs : (payouts samplePayer).Runs (fun _ _ => True) samplePayouts
    ([.start 7 sampleClaim, sampleStep] ++ sampleStep :: [sampleStep, sampleStep, sampleStep]) := by
  refine ⟨⟨rfl, by decide +kernel⟩, trivial, ?_⟩
  refine ⟨Payouts.allowed_serve rfl rfl trivial, trivial, ?_⟩
  refine ⟨Payouts.allowed_serve rfl rfl (show 23561643835 = _ from rfl), trivial, ?_⟩
  refine ⟨Payouts.allowed_serve rfl rfl trivial, trivial, ?_⟩
  refine ⟨Payouts.allowed_serve rfl rfl rfl, trivial, ?_⟩
  exact ⟨Payouts.allowed_serve rfl rfl rfl, trivial, trivial⟩

theorem reward_claimable_sample : ∃ row',
    ((payouts samplePayer).run samplePayouts ([.start 7 sampleClaim, sampleStep] ++
      sampleStep :: [sampleStep, sampleStep, sampleStep])).rewards.find 1 = some row' ∧
      row'.redeemedAt = true := by
  have hprints : ∀ account : AccountId, ∀ s t, account.IsWritten s →
      samplePayer.accountIDFromString s = .ok t → t = s := by
    intro account s t hwritten h
    simp only [samplePayer, hwritten.1, if_true, Except.ok.injEq] at h
    exact h.symm
  have hearned : sampleTrader.Earned sampleReward.toCreatePrismRewardParams := by
    refine .mined sampleMining _ sampleMining_rewards (List.mem_singleton_self _) ?_
    intro order horder _
    rw [List.mem_singleton.mp horder]
    decide +kernel
  have hwritten : sampleTrader.account.IsWritten sampleClaim.accountId := by decide +kernel
  obtain ⟨-, row', hrow', -, hredeemed⟩ := reward_claimable hprints rfl sample_runs rfl rfl hwritten
    rfl rfl (List.mem_singleton_self sampleReward) rfl rfl hearned
  exact ⟨row', hrow', hredeemed⟩

end PrismBackend.Rewards
