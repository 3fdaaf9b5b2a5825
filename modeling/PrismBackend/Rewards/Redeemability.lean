import PrismBackend.Api.Creation
import PrismBackend.Rewards.Claimable

/-!
# Rewards: what may be redeemed

`GetPrism` reports the rewards of an account that are marked redeemable, and
`ClaimPrism` pays and marks all that are unredeemed. The calls follow one another
here; what Hedera and the database answer is open.
-/

namespace PrismBackend.Rewards

open PrismBackend.Lib PrismBackend.Clob
open PrismBackend.Api (isValidNetwork)
open Program (request attempt andThen)

/-! ## Totals -/

namespace RewardRows

variable (rewards : RewardRows) (net accountId : Str)

/-- The rows that `GetTotalRedeemablePrismRewardsByUser` sums up. -/
def redeemable : List PrismReward :=
  rewards.rows.filter fun row => row.isOwedTo net accountId && !row.redeemedAt && row.isRedeemable

/-- `prism_unredeemed` of `GetPrism`. -/
def totalUnredeemed : Nat := ((rewards.unredeemed net accountId).map (·.amount)).sum

/-- `prism_redeemable` of `GetPrism`. -/
def totalRedeemable : Nat := ((rewards.redeemable net accountId).map (·.amount)).sum

def AllMarked : Prop := ∀ row ∈ rewards.unredeemed net accountId, row.isRedeemable = true

instance : Decidable (rewards.AllMarked net accountId) := List.decidableBAll _ _

variable {rewards net accountId}

theorem AllMarked.total (h : rewards.AllMarked net accountId) :
    rewards.totalUnredeemed net accountId = rewards.totalRedeemable net accountId := by
  have hrows : rewards.redeemable net accountId = rewards.unredeemed net accountId := by
    apply List.filter_congr
    intro row hrow
    cases hopen : row.isOwedTo net accountId && !row.redeemedAt with
    | false => rw [Bool.false_and]
    | true =>
        have hmem : row ∈ rewards.unredeemed net accountId := List.mem_filter.mpr ⟨hrow, hopen⟩
        rw [h row hmem, Bool.and_self]
  rw [totalUnredeemed, totalRedeemable, hrows]

end RewardRows

/-! ## Calls -/

structure RewardLedger where
  rewards : RewardRows
  transfers : List Transfer

/-- What Hedera and the database do during one claim. A receipt and a reported update are of what
took place. -/
structure ClaimSurroundings where
  isAssociated : Bool
  totalError : Option String
  transfer : Except String Str
  receipt : Except String Str
  isSent : Bool
  mark : Except String Unit
  isMarked : Bool
  sent_of_receipt : receipt.isOk = true → isSent = true
  marked_of_ok : mark.isOk = true → isMarked = true

namespace ClaimSurroundings

variable (surroundings : ClaimSurroundings)

/-- The sum is cast to a signed number of 64 bits. -/
def readTotal (total : Nat) : Except String Nat :=
  match surroundings.totalError with
  | some err => .error err
  | none => if total ≤ maxInt64 then .ok total else .error "bigint out of range"

def handle : (r : ClaimRequest) → RewardLedger → r.Answer × RewardLedger
  | .isPRISMassociated _ _, s => (surroundings.isAssociated, s)
  | .getTotalUnredeemedPrismRewardsByUser net accountId, s =>
    (surroundings.readTotal (s.rewards.totalUnredeemed net accountId), s)
  | .transfer net _ _ destAccountId amount, s =>
    (surroundings.transfer,
      if surroundings.isSent then
        { s with transfers := s.transfers ++ [⟨net, destAccountId, amount, []⟩] }
      else s)
  | .getReceipt _ _, s => (surroundings.receipt, s)
  | .markAllPrismClaimed net accountId redeemedBy txHash, s =>
    (surroundings.mark,
      if surroundings.isMarked then
        { s with rewards := s.rewards.markAllPrismClaimed net accountId redeemedBy txHash }
      else s)

end ClaimSurroundings

inductive RewardCall
  | createPrismReward (params : CreatePrismRewardParams) (id : Nat)
  /- the update may fail -/
  | markPrismAsClaimableByAccountId (accountId net : Str) (isMarked : Bool)
  | claimPrism (req : ClaimPrismRequest) (surroundings : ClaimSurroundings)

section Calls

variable (payer : HotPayer)

def RewardLedger.claimPrism (s : RewardLedger) (req : ClaimPrismRequest)
    (surroundings : ClaimSurroundings) : Except String StdResponse × RewardLedger :=
  (Rewards.claimPrism payer req).runOn surroundings.handle s

/-- `MarkPrismAsClaimableByAccountId`. -/
def RewardLedger.markClaimable (s : RewardLedger) (accountId net : Str) : RewardLedger :=
  match payer.accountIDFromString accountId with
  | .error _ => s
  | .ok account =>
    if isValidNetwork net then { s with rewards := s.rewards.markPrismAsClaimable net account }
    else s

def RewardLedger.next (s : RewardLedger) : RewardCall → RewardLedger
  | .createPrismReward params id => { s with rewards := s.rewards.create params id }
  | .markPrismAsClaimableByAccountId accountId net isMarked =>
    if isMarked then s.markClaimable payer accountId net else s
  | .claimPrism req surroundings => (s.claimPrism payer req surroundings).2

def rewardCalls : System RewardLedger RewardCall where
  next := RewardLedger.next payer
  Allowed := fun _ _ => True

end Calls

/-! ## What a claim does -/

def Succeeds (result : Except String StdResponse) : Prop := ∃ message, result = .ok ⟨0, message⟩

section Claim

variable {payer : HotPayer} {req : ClaimPrismRequest} {surroundings : ClaimSurroundings}
  {s : RewardLedger}

theorem runOn_askClaim {α : Type} (program : ClaimM (Except String α)) (what : String) :
    (askClaim program what).runOn surroundings.handle s =
      ((program.runOn surroundings.handle s).1.mapError (what ++ ·),
        (program.runOn surroundings.handle s).2) :=
  Program.runOn_bind program _

theorem runOn_andThen {α β : Type} (program : ClaimM (Except String α))
    (k : α → ClaimM (Except String β)) :
    (andThen program k).runOn surroundings.handle s =
      (attempt (program.runOn surroundings.handle s).1 k).runOn surroundings.handle
        (program.runOn surroundings.handle s).2 :=
  Program.runOn_bind program _

/-- What a claim leaves behind: at most one transfer, of all that is unredeemed, and at most one
update of the unredeemed rows. A claim that succeeds has made both. -/
structure ClaimEffect (req : ClaimPrismRequest) (account : Str) (total : Nat)
    (s s' : RewardLedger) (result : Except String StdResponse) : Prop where
  transfers : s'.transfers = s.transfers ∨
    s'.transfers = s.transfers ++ [⟨req.net, account, total, []⟩]
  rewards : s'.rewards = s.rewards ∨ ∃ redeemedBy txHash,
    s'.rewards = s.rewards.markAllPrismClaimed req.net account redeemedBy txHash
  succeeds : Succeeds result →
    s'.transfers = s.transfers ++ [⟨req.net, account, total, []⟩] ∧ ∃ redeemedBy txHash,
      s'.rewards = s.rewards.markAllPrismClaimed req.net account redeemedBy txHash

theorem not_succeeds_error (err : String) : ¬Succeeds (.error err) := by
  intro h
  obtain ⟨message, h⟩ := h
  exact absurd h (by simp)

/-- After the transfer, a claim that has it confirmed goes on to the update. -/
theorem awaitReceipt_effect (srcAccountId account transactionID : Str) :
    let out := (awaitReceipt req srcAccountId account transactionID).runOn surroundings.handle s
    out.2.transfers = s.transfers ∧
      (out.2.rewards = s.rewards ∨ ∃ txHash,
        out.2.rewards = s.rewards.markAllPrismClaimed req.net account srcAccountId txHash) ∧
      (Succeeds out.1 → surroundings.isSent = true ∧ ∃ txHash,
        out.2.rewards = s.rewards.markAllPrismClaimed req.net account srcAccountId txHash) := by
  intro out
  have hout : out = (awaitReceipt req srcAccountId account transactionID).runOn
      surroundings.handle s := rfl
  rw [awaitReceipt, runOn_andThen, runOn_askClaim] at hout
  have hreceipt : (request (ClaimRequest.getReceipt req.net transactionID)).runOn
      surroundings.handle s = (surroundings.receipt, s) := rfl
  rw [hreceipt] at hout
  cases hconfirmed : surroundings.receipt with
  | error err =>
      rw [hconfirmed] at hout
      rw [hout]
      exact ⟨rfl, Or.inl rfl, fun h => absurd h (not_succeeds_error _)⟩
  | ok txHash =>
      have hsent : surroundings.isSent = true :=
        surroundings.sent_of_receipt (by rw [hconfirmed]; rfl)
      rw [hconfirmed] at hout
      have hmark : out = (markClaimed req srcAccountId account txHash).runOn
          surroundings.handle s := hout
      have hupdate : (request (ClaimRequest.markAllPrismClaimed req.net account srcAccountId
          txHash)).runOn surroundings.handle s = (surroundings.mark,
            if surroundings.isMarked then
              { s with rewards :=
                  s.rewards.markAllPrismClaimed req.net account srcAccountId txHash }
            else s) := rfl
      rw [markClaimed, runOn_andThen, runOn_askClaim, hupdate] at hmark
      cases hreported : surroundings.mark with
      | error err =>
          rw [hreported] at hmark
          rw [hmark]
          refine ⟨?_, ?_, fun h => absurd h (not_succeeds_error _)⟩
          · show (ite _ _ _ : RewardLedger).transfers = _
            split <;> rfl
          · show (ite _ _ _ : RewardLedger).rewards = _ ∨ ∃ _, (ite _ _ _ : RewardLedger).rewards = _
            split
            · exact Or.inr ⟨txHash, rfl⟩
            · exact Or.inl rfl
      | ok u =>
          have hmarked : surroundings.isMarked = true :=
            surroundings.marked_of_ok (by rw [hreported]; rfl)
          rw [hreported, if_pos hmarked] at hmark
          rw [hmark]
          exact ⟨rfl, Or.inr ⟨txHash, rfl⟩, fun _ => ⟨hsent, txHash, rfl⟩⟩

theorem transferPrism_effect (tokenId srcAccountId account : Str) (total : Nat) :
    let out := (transferPrism req tokenId srcAccountId account total).runOn surroundings.handle s
    ClaimEffect req account total s out.2 out.1 := by
  intro out
  have hout : out = (transferPrism req tokenId srcAccountId account total).runOn
      surroundings.handle s := rfl
  let sent : RewardLedger :=
    { s with transfers := s.transfers ++ [⟨req.net, account, total, []⟩] }
  have htransfer : (request (ClaimRequest.transfer req.net tokenId srcAccountId account
      total)).runOn surroundings.handle s =
        (surroundings.transfer, if surroundings.isSent then sent else s) := rfl
  rw [transferPrism, runOn_andThen, runOn_askClaim, htransfer] at hout
  cases haccepted : surroundings.transfer with
  | error err =>
      rw [haccepted] at hout
      have herror : out = (.error ("failed to transfer PRISM tokens: " ++ err),
          if surroundings.isSent then sent else s) := hout
      rw [herror]
      refine ⟨?_, ?_, fun h => absurd h (not_succeeds_error _)⟩
      · by_cases hsent : surroundings.isSent = true
        · exact Or.inr (by rw [if_pos hsent])
        · exact Or.inl (by rw [if_neg hsent])
      · by_cases hsent : surroundings.isSent = true
        · exact Or.inl (by rw [if_pos hsent])
        · exact Or.inl (by rw [if_neg hsent])
  | ok transactionID =>
      rw [haccepted] at hout
      have hreceipt : out = (awaitReceipt req srcAccountId account transactionID).runOn
          surroundings.handle (if surroundings.isSent then sent else s) := hout
      rw [hreceipt]
      obtain ⟨htransfers, hrewards, hsucceeds⟩ := @awaitReceipt_effect req surroundings
        (if surroundings.isSent then sent else s) srcAccountId account transactionID
      have hsame : (if surroundings.isSent then sent else s).rewards = s.rewards := by
        split <;> rfl
      rw [hsame] at hrewards hsucceeds
      constructor
      · rw [htransfers]
        by_cases hsent : surroundings.isSent = true
        · exact Or.inr (by rw [if_pos hsent])
        · exact Or.inl (by rw [if_neg hsent])
      · cases hrewards with
        | inl hrewards => exact Or.inl hrewards
        | inr hrewards => exact Or.inr ⟨srcAccountId, hrewards⟩
      · intro hsuccess
        obtain ⟨hsent, txHash, hmarked⟩ := hsucceeds hsuccess
        exact ⟨by rw [htransfers, if_pos hsent], srcAccountId, txHash, hmarked⟩

/-- A claim is refused and changes nothing, or has the effect of its transfer. -/
theorem claimPrism_effect (payer : HotPayer) (s : RewardLedger) (req : ClaimPrismRequest)
    (surroundings : ClaimSurroundings) :
    let out := s.claimPrism payer req surroundings
    (out.2 = s ∧ ¬Succeeds out.1) ∨
      ∃ account, payer.accountIDFromString req.accountId = .ok account ∧
        ClaimEffect req account (s.rewards.totalUnredeemed req.net req.accountId) s out.2 out.1 := by
  intro out
  by_cases hassociated : surroundings.isAssociated = false
  · left
    have hout : out = (.error ("destination account " ++ text req.accountId ++
        " does not have the PRISM token associated on network " ++ text req.net), s) := by
      show (Rewards.claimPrism payer req).runOn surroundings.handle s = _
      rw [Rewards.claimPrism, Program.request_bind, Program.runOn_call]
      show Program.runOn _ (if surroundings.isAssociated = false then _ else _) s = _
      rw [if_pos hassociated]
      rfl
    rw [hout]
    exact ⟨rfl, not_succeeds_error _⟩
  · have hout : out = (readTotal payer req).runOn surroundings.handle s := by
      show (Rewards.claimPrism payer req).runOn surroundings.handle s = _
      rw [Rewards.claimPrism, Program.request_bind, Program.runOn_call]
      show Program.runOn _ (if surroundings.isAssociated = false then _ else _) s = _
      rw [if_neg hassociated]
    have htotal : (request (ClaimRequest.getTotalUnredeemedPrismRewardsByUser req.net
        req.accountId)).runOn surroundings.handle s =
          (surroundings.readTotal (s.rewards.totalUnredeemed req.net req.accountId), s) := rfl
    rw [readTotal, runOn_andThen, runOn_askClaim, htotal] at hout
    cases hread : surroundings.readTotal (s.rewards.totalUnredeemed req.net req.accountId) with
    | error err =>
        left
        rw [hread] at hout
        rw [hout]
        exact ⟨rfl, not_succeeds_error _⟩
    | ok total =>
        have hsum : total = s.rewards.totalUnredeemed req.net req.accountId := by
          unfold ClaimSurroundings.readTotal at hread
          split at hread
          · exact absurd hread (by simp)
          split at hread
          · exact (Except.ok.inj hread).symm
          · exact absurd hread (by simp)
        rw [hread] at hout
        have hsend : out = (sendPrism payer req total).runOn surroundings.handle s := hout
        rw [← hsum]
        cases sendPrism_cases payer req total with
        | inl hgoes =>
            obtain ⟨tokenId, srcAccountId, account, haccount, hgoes⟩ := hgoes
            rw [hgoes] at hsend
            right
            rw [hsend]
            exact ⟨account, haccount, transferPrism_effect tokenId srcAccountId account total⟩
        | inr hrefused =>
            obtain ⟨result, hresult, hfails⟩ := hrefused
            left
            rw [hresult] at hsend
            rw [hsend]
            refine ⟨rfl, ?_⟩
            intro hsuccess
            obtain ⟨message, hmessage⟩ := hsuccess
            exact hfails message hmessage

end Claim

/-! ## Rewards created since -/

section Since

variable {payer : HotPayer} {net accountId : Str}

def RewardCall.MarksFor (payer : HotPayer) (net accountId : Str) : RewardCall → Prop
  | .markPrismAsClaimableByAccountId account net' true =>
    net' = net ∧ payer.accountIDFromString account = .ok accountId
  | _ => False

/-- A reward of the account, where there is one with the id, is not redeemable. -/
def RewardRows.Unmarked (rewards : RewardRows) (net accountId : Str) (id : Nat) : Prop :=
  ∀ row, rewards.find id = some row → row.isOwedTo net accountId = true → row.isRedeemable = false

theorem unmarked_create {rewards : RewardRows} {id : Nat}
    (h : rewards.Unmarked net accountId id) (params : CreatePrismRewardParams) (k : Nat) :
    (rewards.create params k).Unmarked net accountId id := by
  intro row hrow howed
  unfold RewardRows.create at hrow
  split at hrow
  · next hpermitted =>
    obtain ⟨hmem, hid⟩ := Table.find_eq_some.mp hrow
    cases Table.mem_of_mem_insert hmem with
    | inl hold => exact h row (Table.find_eq_some.mpr ⟨hold, hid⟩) howed
    | inr hnew => rw [hnew]
  · exact h row hrow howed

theorem unmarked_modifyAll {rewards : RewardRows} {id : Nat}
    (h : rewards.Unmarked net accountId id) {f : PrismReward → PrismReward}
    (hf : ∀ row, (f row).id = row.id) (howed : ∀ row, (f row).isOwedTo net accountId = true →
      row.isOwedTo net accountId = true)
    (hmark : ∀ row, row.isOwedTo net accountId = true → row.isRedeemable = false →
      (f row).isRedeemable = false) :
    RewardRows.Unmarked (rewards.modifyAll f hf) net accountId id := by
  intro row hrow hrowOwed
  rw [Table.find_modifyAll hf, Option.map_eq_some_iff] at hrow
  obtain ⟨old, hold, rfl⟩ := hrow
  exact hmark old (howed old hrowOwed) (h old hold (howed old hrowOwed))

theorem unmarked_next {s : RewardLedger} {id : Nat} (h : s.rewards.Unmarked net accountId id)
    {call : RewardCall} (hcall : ¬call.MarksFor payer net accountId) :
    (s.next payer call).rewards.Unmarked net accountId id := by
  cases call with
  | createPrismReward params k => exact unmarked_create h params k
  | markPrismAsClaimableByAccountId account net' isMarked =>
      cases isMarked with
      | false => exact h
      | true =>
          show (s.markClaimable payer account net').rewards.Unmarked net accountId id
          unfold RewardLedger.markClaimable
          split
          · exact h
          next other hother =>
          split
          · apply unmarked_modifyAll h (claimableRow_id net' other)
            · intro row howed
              rwa [(claimableRow_later net' other row).isOwedTo] at howed
            · intro row howed hmark
              have hnot : row.isOwedTo net' other = false := by
                by_contra hne
                rw [Bool.not_eq_false] at hne
                simp only [PrismReward.isOwedTo, Bool.and_eq_true, beq_iff_eq] at hne howed
                exact hcall ⟨hne.1.symm.trans howed.1, by rw [hother, ← hne.2, howed.2]⟩
              rw [claimableRow, hnot, Bool.false_and, if_neg Bool.false_ne_true]
              exact hmark
          · exact h
  | claimPrism req surroundings =>
      show (s.claimPrism payer req surroundings).2.rewards.Unmarked net accountId id
      cases claimPrism_effect payer s req surroundings with
      | inl hnothing =>
          rw [hnothing.1]
          exact h
      | inr heffect =>
          obtain ⟨account, _, heffect⟩ := heffect
          cases heffect.rewards with
          | inl hsame =>
              rw [hsame]
              exact h
          | inr hmarked =>
              obtain ⟨redeemedBy, txHash, hmarked⟩ := hmarked
              rw [hmarked]
              apply unmarked_modifyAll h (claimedRow_id req.net account redeemedBy txHash)
              · intro row howed
                rwa [(claimedRow_later req.net account redeemedBy txHash row).isOwedTo] at howed
              · intro row _ hmark
                unfold claimedRow
                split
                · rfl
                · exact hmark

/-- A reward that was created since the last marking of its account is not redeemable. -/
theorem unmarked_run {s : RewardLedger} {id : Nat} (hnone : s.rewards.find id = none)
    {calls : List RewardCall} (hcalls : ∀ call ∈ calls, ¬call.MarksFor payer net accountId) :
    ((rewardCalls payer).run s calls).rewards.Unmarked net accountId id := by
  have hstart : s.rewards.Unmarked net accountId id := by
    intro row hrow
    rw [hnone] at hrow
    exact absurd hrow (by simp)
  clear hnone
  induction calls generalizing s with
  | nil => exact hstart
  | cons call calls ih =>
      rw [System.run_cons]
      apply ih
      · exact fun other hother => hcalls other (List.mem_cons_of_mem call hother)
      · exact unmarked_next hstart (hcalls call List.mem_cons_self)

end Since

/-! ## The gate -/

section Gate

variable (payer : HotPayer) (s₀ : RewardLedger)

/-- After these calls, a claim keeps to the gate: what it transfers is what is reported as
redeemable, what it redeems is marked redeemable, and what was created since the last marking stays
unredeemed. -/
structure ObeysGate (calls : List RewardCall) (req : ClaimPrismRequest)
    (surroundings : ClaimSurroundings) : Prop where
  amount : ∀ transfer,
    (((rewardCalls payer).run s₀ calls).claimPrism payer req surroundings).2.transfers =
      ((rewardCalls payer).run s₀ calls).transfers ++ [transfer] →
    transfer.amount =
      ((rewardCalls payer).run s₀ calls).rewards.totalRedeemable req.net req.accountId
  marked : ∀ row ∈ ((rewardCalls payer).run s₀ calls).rewards.unredeemed req.net req.accountId,
    ∀ row', (((rewardCalls payer).run s₀ calls).claimPrism payer req
      surroundings).2.rewards.find row.id = some row' → row'.redeemedAt = true →
    row.isRedeemable = true
  since : ∀ earlier later, calls = earlier ++ later →
    (∀ call ∈ later, ¬call.MarksFor payer req.net req.accountId) →
    ∀ row ∈ ((rewardCalls payer).run s₀ calls).rewards.unredeemed req.net req.accountId,
      ((rewardCalls payer).run s₀ earlier).rewards.find row.id = none →
      ∀ row', (((rewardCalls payer).run s₀ calls).claimPrism payer req
        surroundings).2.rewards.find row.id = some row' → row'.redeemedAt = false

variable {payer s₀} {calls : List RewardCall} {req : ClaimPrismRequest}
  {surroundings : ClaimSurroundings}

theorem obeysGate_of_allMarked
    (h : ((rewardCalls payer).run s₀ calls).rewards.AllMarked req.net req.accountId) :
    ObeysGate payer s₀ calls req surroundings := by
  constructor
  · intro transfer htransfer
    rw [← h.total]
    cases claimPrism_effect payer ((rewardCalls payer).run s₀ calls) req surroundings with
    | inl hnothing =>
        rw [hnothing.1] at htransfer
        exact absurd htransfer (by simp)
    | inr heffect =>
        obtain ⟨account, _, heffect⟩ := heffect
        cases heffect.transfers with
        | inl hsame =>
            rw [hsame] at htransfer
            exact absurd htransfer (by simp)
        | inr hsent =>
            rw [hsent] at htransfer
            have hlast := List.append_cancel_left htransfer
            rw [List.singleton_inj] at hlast
            rw [← hlast]
  · intro row hrow _ _ _
    exact h row hrow
  · intro earlier later hcalls hlater row hrow hnone
    exfalso
    have hmarked := h row hrow
    obtain ⟨hmem, howed, _⟩ := RewardRows.mem_unredeemed.mp hrow
    rw [hcalls, System.run_append] at hmem
    have hunmarked := unmarked_run hnone hlater row (Table.find_key hmem) howed
    rw [hunmarked] at hmarked
    exact absurd hmarked (by decide)

theorem allMarked_of_obeysGate (hprints : Prints payer req)
    (hsucceeds :
      Succeeds (((rewardCalls payer).run s₀ calls).claimPrism payer req surroundings).1)
    (h : ObeysGate payer s₀ calls req surroundings) :
    ((rewardCalls payer).run s₀ calls).rewards.AllMarked req.net req.accountId := by
  intro row hrow
  obtain ⟨hmem, howed, hopen⟩ := RewardRows.mem_unredeemed.mp hrow
  cases claimPrism_effect payer ((rewardCalls payer).run s₀ calls) req surroundings with
  | inl hnothing => exact absurd hsucceeds hnothing.2
  | inr heffect =>
      obtain ⟨account, haccount, heffect⟩ := heffect
      obtain ⟨_, redeemedBy, txHash, hmarked⟩ := heffect.succeeds hsucceeds
      rw [hprints account haccount] at hmarked
      apply h.marked row hrow (claimedRow req.net req.accountId redeemedBy txHash row)
      · rw [hmarked, RewardRows.markAllPrismClaimed, Table.find_modifyAll, Table.find_key hmem,
          Option.map_some]
      · rw [claimedRow, howed, hopen]
        rfl

def EveryClaimGated (payer : HotPayer) (s₀ : RewardLedger) (calls : List RewardCall) : Prop :=
  ∀ before req surroundings after, calls = before ++ .claimPrism req surroundings :: after →
    ObeysGate payer s₀ before req surroundings

/-- At every claim, all that is unredeemed is marked redeemable. -/
def EveryClaimMarked (payer : HotPayer) (s₀ : RewardLedger) (calls : List RewardCall) : Prop :=
  ∀ before req surroundings after, calls = before ++ .claimPrism req surroundings :: after →
    ((rewardCalls payer).run s₀ before).rewards.AllMarked req.net req.accountId

def EveryClaimSucceeds (payer : HotPayer) (s₀ : RewardLedger) (calls : List RewardCall) : Prop :=
  ∀ before req surroundings after, calls = before ++ .claimPrism req surroundings :: after →
    Succeeds (((rewardCalls payer).run s₀ before).claimPrism payer req surroundings).1

/-- The claims keep to the gate where all that is unredeemed is marked when they are made, and
those that succeed only there. -/
theorem claims_gated_iff (payer : HotPayer) (s₀ : RewardLedger) (calls : List RewardCall)
    (hprints : ∀ req surroundings, RewardCall.claimPrism req surroundings ∈ calls →
      Prints payer req) :
    (EveryClaimMarked payer s₀ calls → EveryClaimGated payer s₀ calls) ∧
      (EveryClaimSucceeds payer s₀ calls →
        (EveryClaimGated payer s₀ calls ↔ EveryClaimMarked payer s₀ calls)) := by
  have hgated : EveryClaimMarked payer s₀ calls → EveryClaimGated payer s₀ calls := by
    intro h before req surroundings after hcalls
    exact obeysGate_of_allMarked (h before req surroundings after hcalls)
  refine ⟨hgated, fun hsucceeds => ⟨?_, hgated⟩⟩
  intro h before req surroundings after hcalls
  apply allMarked_of_obeysGate
  · apply hprints req surroundings
    rw [hcalls]
    exact List.mem_append_right before List.mem_cons_self
  · exact hsucceeds before req surroundings after hcalls
  · exact h before req surroundings after hcalls

end Gate

/-! ## A claim without a marking -/

def printingPayer : HotPayer where
  accountIDFromString := .ok
  prismTokenId := fun _ => .ok "0.0.5005".toList
  srcAccountId := fun _ => .ok "0.0.6006".toList
  client := fun _ => .ok ()

def sampleParams : CreatePrismRewardParams where
  net := "testnet".toList
  destAccountID := "0.0.1001".toList
  nPrismScaled := 100
  ratioOfAllocation := some 1
  cronRanAt := 0
  campaignID := 1

def sampleClaimRequest : ClaimPrismRequest where
  accountId := "0.0.1001".toList
  net := "testnet".toList
  sig := []
  publicKey := []
  keyType := 1

def sampleSurroundings : ClaimSurroundings where
  isAssociated := true
  totalError := none
  transfer := .ok []
  receipt := .ok []
  isSent := true
  mark := .ok ()
  isMarked := true
  sent_of_receipt := fun _ => rfl
  marked_of_ok := fun _ => rfl

def sampleLedger : RewardLedger := ⟨Table.empty, []⟩

def sampleMarkedCalls : List RewardCall :=
  [.createPrismReward sampleParams 1,
    .markPrismAsClaimableByAccountId "0.0.1001".toList "testnet".toList true,
    .claimPrism sampleClaimRequest sampleSurroundings]

theorem claims_gated_iff_sample :
    EveryClaimGated printingPayer sampleLedger sampleMarkedCalls := by
  apply (claims_gated_iff printingPayer sampleLedger sampleMarkedCalls _).1
  · intro before req surroundings after hcalls
    rw [sampleMarkedCalls] at hcalls
    cases before with
    | nil => simp at hcalls
    | cons first before =>
        cases before with
        | nil => simp at hcalls
        | cons second before =>
            cases before with
            | nil =>
                simp only [List.cons_append, List.nil_append, List.cons.injEq,
                  RewardCall.claimPrism.injEq] at hcalls
                obtain ⟨rfl, rfl, ⟨rfl, _⟩, _⟩ := hcalls
                decide +kernel
            | cons third before => simp at hcalls
  · intro req surroundings _ account haccount
    exact (Except.ok.inj haccount).symm

/-- A reward that was never marked is paid, when nothing is reported as redeemable. -/
theorem unmarked_reward_paid :
    ((rewardCalls printingPayer).run sampleLedger
      [.createPrismReward sampleParams 1]).rewards.totalRedeemable "testnet".toList
        "0.0.1001".toList = 0 ∧
    ((rewardCalls printingPayer).run sampleLedger [.createPrismReward sampleParams 1,
      .claimPrism sampleClaimRequest sampleSurroundings]).transfers.map (·.amount) = [100] ∧
    ¬ObeysGate printingPayer sampleLedger [.createPrismReward sampleParams 1] sampleClaimRequest
      sampleSurroundings := by
  have hredeemable : ((rewardCalls printingPayer).run sampleLedger
      [.createPrismReward sampleParams 1]).rewards.totalRedeemable "testnet".toList
        "0.0.1001".toList = 0 := by decide +kernel
  have htransfers : (((rewardCalls printingPayer).run sampleLedger
      [.createPrismReward sampleParams 1]).claimPrism printingPayer sampleClaimRequest
        sampleSurroundings).2.transfers.map (·.amount) = [100] := by decide +kernel
  refine ⟨hredeemable, htransfers, ?_⟩
  intro h
  obtain ⟨transfer, htransfer⟩ := List.length_eq_one_iff.mp
    ((List.length_map _).symm.trans (congrArg List.length htransfers))
  have hamount := h.amount transfer htransfer
  rw [htransfer, List.map_singleton, List.singleton_inj] at htransfers
  rw [htransfers] at hamount
  exact absurd (hamount.trans hredeemable) (by decide)

end PrismBackend.Rewards
