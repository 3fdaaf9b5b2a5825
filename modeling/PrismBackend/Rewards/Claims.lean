import PrismBackend.Lib.Interact
import PrismBackend.Lib.System
import PrismBackend.Rewards.Campaign

/-!
# Rewards: claims

`ClaimPrism` as a program that reads what is owed to an account, transfers it on
Hedera and marks it, beside the jobs that create rewards and any number of other
claims. A claim may be lost between two of its requests.
-/

namespace PrismBackend.Rewards

open PrismBackend.Lib PrismBackend.Clob
open Program (request attempt andThen)

/-! ## Requests -/

structure ClaimPrismRequest where
  accountId : Str
  net : Str
  sig : Str
  publicKey : Str
  keyType : Nat

inductive ClaimRequest
  | isPRISMassociated (net accountId : Str)
  | getTotalUnredeemedPrismRewardsByUser (net accountId : Str)
  | transfer (net tokenId srcAccountId destAccountId : Str) (amount : Nat)
  | getReceipt (net transactionID : Str)
  | markAllPrismClaimed (net accountId redeemedBy txHash : Str)

abbrev ClaimRequest.Answer : ClaimRequest → Type
  | .isPRISMassociated _ _ => Bool
  | .getTotalUnredeemedPrismRewardsByUser _ _ => Except String Nat
  /- the id of the transaction -/
  | .transfer _ _ _ _ _ => Except String Str
  | .getReceipt _ _ => Except String Str
  | .markAllPrismClaimed _ _ _ _ => Except String Unit

abbrev ClaimM := Program ClaimRequest ClaimRequest.Answer

def askClaim {α : Type} (program : ClaimM (Except String α)) (what : String) :
    ClaimM (Except String α) :=
  program >>= fun result => pure (result.mapError (what ++ ·))

structure StdResponse where
  errorCode : Nat
  message : String
  deriving DecidableEq

/-- What the Hedera SDK and the environment provide: accounts in the form they are printed in, and
for a network the token, the account that pays, and a client with its key. -/
structure HotPayer where
  accountIDFromString : Str → Except String Str
  prismTokenId : Str → Except String Str
  srcAccountId : Str → Except String Str
  client : Str → Except String Unit

/-- The pattern `(0|[1-9]\d*)`. -/
def isPlainNumber (s : Str) : Bool := isDigits s && (s == ['0'] || s.head? != some '0')

/-- The rule of `accountId`: three numbers without leading zeros. -/
def isAccountId (s : Str) : Bool :=
  match s.splitOn '.' with
  | [shard, realm, num] => isPlainNumber shard && isPlainNumber realm && isPlainNumber num
  | _ => false

def ClaimPrismRequest.validated (req : ClaimPrismRequest) : Bool :=
  isAccountId req.accountId &&
    [ "mainnet", "testnet", "previewnet" ].any (·.toList == req.net)

/-! ## The program -/

def text (s : Str) : String := String.ofList s

def maxInt64 : Nat := 2 ^ 63 - 1

section Program

variable (payer : HotPayer) (req : ClaimPrismRequest)

def checkTransfer : Except String (Str × Str × Str) := do
  let tokenId ← payer.prismTokenId req.net
  let srcAccountId ← payer.srcAccountId req.net
  let destAccountId ← (payer.accountIDFromString req.accountId).mapError fun err =>
    "failed to parse destination account ID for network " ++ text req.net ++ ": " ++ err
  let _ ← payer.client req.net
  .ok (tokenId, srcAccountId, destAccountId)

def markClaimed (srcAccountId destAccountId txHash : Str) : ClaimM (Except String StdResponse) :=
  andThen (askClaim (request (ClaimRequest.markAllPrismClaimed req.net destAccountId srcAccountId
      txHash)) ("failed to mark PRISM as claimed for account " ++ text destAccountId ++ ": "))
        fun _ =>
  pure (.ok ⟨0, "Successfully claimed all PRISM tokens"⟩)

def awaitReceipt (srcAccountId destAccountId transactionID : Str) :
    ClaimM (Except String StdResponse) :=
  andThen (askClaim (request (ClaimRequest.getReceipt req.net transactionID))
    "failed to get receipt for PRISM token transfer: ") fun txHash =>
  markClaimed req srcAccountId destAccountId txHash

def transferPrism (tokenId srcAccountId destAccountId : Str) (amount : Nat) :
    ClaimM (Except String StdResponse) :=
  andThen (askClaim (request (ClaimRequest.transfer req.net tokenId srcAccountId destAccountId
      amount)) "failed to transfer PRISM tokens: ") fun transactionID =>
  awaitReceipt req srcAccountId destAccountId transactionID

/-- Steps 2 and 3: a positive total is transferred. -/
def sendPrism (totalUnredeemedPrismScaled : Nat) : ClaimM (Except String StdResponse) :=
  if totalUnredeemedPrismScaled = 0 then
    pure (.ok ⟨1, "No unredeemed PRISM rewards available"⟩)
  else
    attempt (revertIf (maxInt64 < totalUnredeemedPrismScaled)
      ("unredeemed PRISM rewards exceed the transferable amount limit for user " ++
        text req.accountId)) fun _ =>
    attempt (checkTransfer payer req) fun (tokenId, srcAccountId, destAccountId) =>
    transferPrism req tokenId srcAccountId destAccountId totalUnredeemedPrismScaled

def readTotal : ClaimM (Except String StdResponse) :=
  andThen (askClaim (request (ClaimRequest.getTotalUnredeemedPrismRewardsByUser req.net
      req.accountId)) ("failed to get total unredeemed prism rewards for user " ++
        text req.accountId ++ ": ")) (sendPrism payer req)

def claimPrism : ClaimM (Except String StdResponse) := do
  let associated ← request (ClaimRequest.isPRISMassociated req.net req.accountId)
  if associated = false then
    pure (.error ("destination account " ++ text req.accountId ++
      " does not have the PRISM token associated on network " ++ text req.net))
  else readTotal payer req

end Program

/-! ## State -/

/-- A call of `ClaimPrism`, what is left of it, and what is known about it: the rewards that its
total was read from, and whether its transfer and its mark took place. -/
structure ClaimTask where
  id : Nat
  req : ClaimPrismRequest
  program : ClaimM (Except String StdResponse)
  read : Option (List Nat)
  paid : Bool
  marked : Bool

/-- A transfer that took place, with the rewards that its amount was read from. -/
structure Transfer where
  net : Str
  accountId : Str
  amount : Nat
  rewards : List Nat

abbrev RewardRows := Table PrismReward Nat fun row => row.id

structure Payouts where
  rewards : RewardRows
  claims : Table ClaimTask Nat fun task => task.id
  transfers : List Transfer

inductive PayoutEvent
  /- a job creates a reward; the sequence gives it the id -/
  | createPrismReward (params : CreatePrismRewardParams) (id : Nat)
  | markPrismAsClaimableByAccountId (net accountId : Str)
  | start (id : Nat) (req : ClaimPrismRequest)
  /- a request of a claim is answered, and its effect takes place or not -/
  | serve (id : Nat) (answer : (r : ClaimRequest) → r.Answer) (commit : Bool)
  /- a claim is lost -/
  | stop (id : Nat)

/-! ## Steps -/

def PrismReward.isOwedTo (row : PrismReward) (net accountId : Str) : Bool :=
  row.net == net && row.destAccountID == accountId

/-- The rows that `GetTotalUnredeemedPrismRewardsByUser` sums up. -/
def RewardRows.unredeemed (rewards : RewardRows) (net accountId : Str) : List PrismReward :=
  rewards.rows.filter fun row => row.isOwedTo net accountId && !row.redeemedAt

def PrismReward.amount (row : PrismReward) : Nat := row.nPrismScaled.toNat

/-- `CreatePrismReward`: a row that breaks a check is refused. -/
def RewardRows.create (rewards : RewardRows) (params : CreatePrismRewardParams) (id : Nat) :
    RewardRows :=
  if h : params.permitted = true then
    rewards.insert ⟨params, id, false, none, none, false, h⟩
  else rewards

def claimedRow (net accountId redeemedBy txHash : Str) (row : PrismReward) : PrismReward :=
  if row.isOwedTo net accountId && !row.redeemedAt then
    { row with
      redeemedAt := true
      redeemedBy := some redeemedBy
      isRedeemable := false
      hederaTxHash := some txHash }
  else row

theorem claimedRow_id (net accountId redeemedBy txHash : Str) (row : PrismReward) :
    (claimedRow net accountId redeemedBy txHash row).id = row.id := by
  unfold claimedRow
  split
  · rfl
  · rfl

/-- `MarkAllPrismClaimed`. -/
def RewardRows.markAllPrismClaimed (rewards : RewardRows) (net accountId redeemedBy txHash : Str) :
    RewardRows :=
  rewards.modifyAll (claimedRow net accountId redeemedBy txHash) (claimedRow_id _ _ _ _)

def claimableRow (net accountId : Str) (row : PrismReward) : PrismReward :=
  if row.isOwedTo net accountId && !row.redeemedAt then { row with isRedeemable := true } else row

theorem claimableRow_id (net accountId : Str) (row : PrismReward) :
    (claimableRow net accountId row).id = row.id := by
  unfold claimableRow
  split
  · rfl
  · rfl

/-- `MarkPrismAsClaimableByAccountId`. -/
def RewardRows.markPrismAsClaimable (rewards : RewardRows) (net accountId : Str) : RewardRows :=
  rewards.modifyAll (claimableRow net accountId) (claimableRow_id _ _)

namespace Payouts

variable (payer : HotPayer) (s : Payouts)

def effect (task : ClaimTask) : ClaimRequest → Payouts
  | .transfer net _ _ destAccountId amount =>
    { s with transfers := s.transfers ++ [⟨net, destAccountId, amount, task.read.getD []⟩] }
  | .markAllPrismClaimed net accountId redeemedBy txHash =>
    { s with rewards := s.rewards.markAllPrismClaimed net accountId redeemedBy txHash }
  | _ => s

def answered (task : ClaimTask) (r : ClaimRequest) (commit : Bool)
    (program : ClaimM (Except String StdResponse)) : ClaimTask :=
  match r with
  | .getTotalUnredeemedPrismRewardsByUser net accountId =>
    { task with program, read := some ((s.rewards.unredeemed net accountId).map (·.id)) }
  | .transfer _ _ _ _ _ => { task with program, paid := task.paid || commit }
  | .markAllPrismClaimed _ _ _ _ => { task with program, marked := task.marked || commit }
  | _ => { task with program }

theorem answered_id (task : ClaimTask) (r : ClaimRequest) (commit : Bool)
    (program : ClaimM (Except String StdResponse)) :
    (s.answered task r commit program).id = task.id := by
  cases r <;> rfl

def serve (id : Nat) (answer : (r : ClaimRequest) → r.Answer) (commit : Bool) : Payouts :=
  match s.claims.find id with
  | none => s
  | some task =>
    match task.program with
    | .ret _ => s
    | .call r rest =>
      { (if commit then s.effect task r else s) with
        claims := s.claims.put (s.answered task r commit (rest (answer r))) }

def lost (task : ClaimTask) : ClaimTask := { task with program := .ret (.error "lost") }

def next : PayoutEvent → Payouts
  | .createPrismReward params id => { s with rewards := s.rewards.create params id }
  | .markPrismAsClaimableByAccountId net accountId =>
    { s with rewards := s.rewards.markPrismAsClaimable net accountId }
  | .start id req =>
    { s with claims := s.claims.insert ⟨id, req, claimPrism payer req, none, false, false⟩ }
  | .serve id answer commit => s.serve id answer commit
  | .stop id => { s with claims := s.claims.modify id lost fun _ => rfl }

/-- What an answer may say: a total is the sum of what is unredeemed, a receipt is of a transfer
that took place, and a mark that was reported has taken place. -/
def Honest (task : ClaimTask) : (r : ClaimRequest) → r.Answer → Bool → Prop
  | .getTotalUnredeemedPrismRewardsByUser net accountId, .ok total, _ =>
    total = ((s.rewards.unredeemed net accountId).map (·.amount)).sum
  | .getReceipt _ _, .ok _, _ => task.paid = true
  | .markAllPrismClaimed _ _ _ _, .ok _, commit => commit = true
  | _, _, _ => True

/-- What can happen: the sequence gives new ids, requests satisfy the rules of their message, and
answers are honest. -/
def Allowed : PayoutEvent → Prop
  | .createPrismReward _ id => s.rewards.find id = none
  | .start id req => s.claims.find id = none ∧ req.validated = true
  | .serve id answer commit => ∀ task r rest, s.claims.find id = some task →
      task.program = .call r rest → s.Honest task r (answer r) commit
  | _ => True

end Payouts

def payouts (payer : HotPayer) : System Payouts PayoutEvent where
  next := Payouts.next payer
  Allowed := Payouts.Allowed

/-! ## Rewards that stay -/

/-- A reward is never taken away, and what is owed for it does not change. -/
structure PrismReward.Later (row row' : PrismReward) : Prop where
  params : row'.toCreatePrismRewardParams = row.toCreatePrismRewardParams
  sameId : row'.id = row.id
  redeemedAt : row.redeemedAt = true → row'.redeemedAt = true

theorem PrismReward.Later.refl (row : PrismReward) : row.Later row := ⟨rfl, rfl, fun h => h⟩

theorem PrismReward.Later.amount {row row' : PrismReward} (h : row.Later row') :
    row'.amount = row.amount := by
  unfold PrismReward.amount
  rw [h.params]

theorem PrismReward.Later.isOwedTo {row row' : PrismReward} (h : row.Later row')
    (net accountId : Str) : row'.isOwedTo net accountId = row.isOwedTo net accountId := by
  unfold PrismReward.isOwedTo
  rw [h.params]

theorem claimedRow_later (net accountId redeemedBy txHash : Str) (row : PrismReward) :
    row.Later (claimedRow net accountId redeemedBy txHash row) := by
  unfold claimedRow
  split
  · exact ⟨rfl, rfl, fun _ => rfl⟩
  · exact .refl row

theorem claimableRow_later (net accountId : Str) (row : PrismReward) :
    row.Later (claimableRow net accountId row) := by
  unfold claimableRow
  split
  · exact ⟨rfl, rfl, fun h => h⟩
  · exact .refl row

def RewardRows.Onward (rewards rewards' : RewardRows) : Prop :=
  ∀ id row, rewards.find id = some row → ∃ row', rewards'.find id = some row' ∧ row.Later row'

theorem RewardRows.Onward.refl (rewards : RewardRows) : rewards.Onward rewards :=
  fun _ row h => ⟨row, h, .refl row⟩

theorem RewardRows.onward_modifyAll {rewards : RewardRows} {f : PrismReward → PrismReward}
    (hf : ∀ row, (f row).id = row.id) (hlater : ∀ row : PrismReward, row.Later (f row)) :
    rewards.Onward (rewards.modifyAll f hf) := by
  intro id row h
  refine ⟨f row, ?_, hlater row⟩
  rw [Table.find_modifyAll hf, h, Option.map_some]

theorem RewardRows.onward_create (rewards : RewardRows)
    (params : CreatePrismRewardParams) (id : Nat) :
    rewards.Onward (rewards.create params id) := by
  unfold RewardRows.create
  split
  · exact fun k row h => ⟨row, Table.find_insert h, .refl row⟩
  · exact .refl rewards

theorem Payouts.effect_onward (s : Payouts) (task : ClaimTask) (r : ClaimRequest) :
    s.rewards.Onward (s.effect task r).rewards := by
  cases r with
  | markAllPrismClaimed net accountId redeemedBy txHash =>
      exact RewardRows.onward_modifyAll (claimedRow_id _ _ _ _) (claimedRow_later _ _ _ _)
  | _ => exact .refl _

theorem Payouts.next_onward (payer : HotPayer) (s : Payouts) (e : PayoutEvent) :
    s.rewards.Onward (s.next payer e).rewards := by
  cases e with
  | createPrismReward params id => exact s.rewards.onward_create params id
  | markPrismAsClaimableByAccountId net accountId =>
      exact RewardRows.onward_modifyAll (claimableRow_id _ _) (claimableRow_later _ _)
  | serve id answer commit =>
      simp only [Payouts.next, Payouts.serve]
      split
      · exact .refl _
      split
      · exact .refl _
      next r rest hprogram =>
      cases commit with
      | false => exact .refl _
      | true => exact s.effect_onward _ r
  | _ => exact .refl _

end PrismBackend.Rewards
