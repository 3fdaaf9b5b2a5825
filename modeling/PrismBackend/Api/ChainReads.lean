import PrismBackend.Api.Calldata
import PrismBackend.Api.Creation
import PrismBackend.Api.Dispatch
import PrismBackend.PrismV2.Lifecycle

/-!
# API: reads of the contract

`prism_v2_reads.go` asks a mirror node for the contract's public getters. The
mirror answers out of an earlier state of the contract; here is what that
answer still says about the contract now.
-/

namespace PrismBackend.Api.ChainReads

open PrismBackend.Lib PrismBackend.Clob PrismBackend.PrismV2
open PrismBackend.Lib.Abi (beBytes beNat word)

/-! ## The contract's getters -/

inductive Getter
  | markets
  | yesBalance
  | noBalance
  | executedMatches
  deriving DecidableEq, Repr

def Getter.signature : Getter → String
  | .markets => "markets(uint128)"
  | .yesBalance => "yesBalance(uint128,address)"
  | .noBalance => "noBalance(uint128,address)"
  | .executedMatches => "executedMatches(bytes32)"

/-- The number of a state in the contract's `enum`. -/
def marketStateWord : MarketState → Nat
  | .uninitialized => 0
  | .open => 1
  | .halted => 2
  | .closed => 3
  | .resolvedYes => 4
  | .resolvedNo => 5
  | .void => 6

/-- The members of a market, in the order of the `struct`. -/
def marketWords (market : Market) : List Nat :=
  [marketStateWord market.state, market.closeTime, market.rakeBps, market.reserve,
    market.totalYes, market.totalNo]

/-- What a getter returns; an argument that is short or does not fit its type reverts. -/
def Getter.answer (s : State) (args : Bytes) : Getter → Option (List Nat)
  | .markets => do
    let marketId ← (Abi.wordAt args 0).bind uint128OfWord
    return marketWords (s.markets marketId)
  | .yesBalance => do
    let marketId ← (Abi.wordAt args 0).bind uint128OfWord
    let account ← (Abi.wordAt args 32).bind addressOfWord
    return [s.yesBalance marketId account]
  | .noBalance => do
    let marketId ← (Abi.wordAt args 0).bind uint128OfWord
    let account ← (Abi.wordAt args 32).bind addressOfWord
    return [s.noBalance marketId account]
  | .executedMatches => do
    let matchId ← Abi.wordAt args 0
    return [(s.executedMatches matchId).toNat]

def selector (keccak256 : Bytes → Bytes) (signature : String) : Bytes :=
  (keccak256 (utf8 signature)).take 4

/-- A read-only call of the contract: the returned bytes, or nothing when it reverts. -/
def ethCall (keccak256 : Bytes → Bytes) (s : State) (data : Bytes) : Option Bytes :=
  let called := [Getter.markets, .yesBalance, .noBalance, .executedMatches].find? fun getter =>
    selector keccak256 getter.signature = data.take 4
  called.bind fun getter => (getter.answer s (data.drop 4)).map Abi.words

/-! ## The mirror node -/

structure MirrorRequest where
  url : Str
  block : Str
  data : Str
  estimate : Bool
  «to» : Str

structure MirrorReply where
  status : Nat
  /-- the field `result` of the body, or the decoder's error -/
  result : Except String Str

abbrev Mirror := MirrorRequest → Except String MirrorReply

inductive ReadError
  | invalidNetwork (net : Str)
  | request (err : String)
  | decodeResponse (err : String) (status : Nat)
  | failedWithStatus (status : Nat)
  | hex
  | shortAbiResult
  | shortMarketsResult
  | invalidAccountAddress
  | invalidMarketId (err : String)
  | balanceExceedsUint64

def mirrorRequest (net contractAddress : Str) (data : Bytes) : MirrorRequest where
  url := "https://".toList ++ net ++ ".mirrornode.hedera.com/api/v1/contracts/call".toList
  block := "latest".toList
  data := '0' :: 'x' :: hexEncode data
  estimate := false
  «to» := '0' :: 'x' :: contractAddress

/-- `MirrorContractCall`, with the Solidity address of the contract id. -/
def mirrorContractCall (send : Mirror) (net contractAddress : Str) (data : Bytes) :
    Except ReadError Bytes := do
  revertIf (isValidNetwork net = false) (.invalidNetwork net)
  let resp ← (send (mirrorRequest net contractAddress data)).mapError .request
  let result ← resp.result.mapError (.decodeResponse · resp.status)
  revertIf (resp.status ≠ 200) (.failedWithStatus resp.status)
  match hexBytes (trimPrefix ['0', 'x'] result) with
  | some bytes => .ok bytes
  | none => .error .hex

/-! ## The reads -/

/-- `word` of the result; the name is taken by the encoder's. -/
def resultWord (data : Bytes) (index : Nat) : Except ReadError Bytes := do
  revertIf (data.length < (index + 1) * 32) .shortAbiResult
  .ok ((data.drop (index * 32)).take 32)

structure MarketV2 where
  state : UInt8
  closeTime : UInt64
  rakeBps : UInt16
  reserve : Nat
  totalYes : Nat
  totalNo : Nat

def getMarketV2 (keccak256 : Bytes → Bytes) (send : Mirror) (net contractAddress : Str)
    (marketId : Uint128) : Except ReadError MarketV2 := do
  let data := selector keccak256 "markets(uint128)" ++ leftPad (beBytes 16 marketId.val) 32
  let out ← mirrorContractCall send net contractAddress data
  revertIf (out.length < 6 * 32) .shortMarketsResult
  let w (i : Nat) : Nat := beNat ((resultWord out i).toOption.getD [])
  -- `Uint64` keeps the low 64 bits, and the conversions keep the low bits of these
  .ok
    { state := (UInt64.ofNat (w 0)).toUInt8
      closeTime := UInt64.ofNat (w 1)
      rakeBps := (UInt64.ofNat (w 2)).toUInt16
      reserve := w 3
      totalYes := w 4
      totalNo := w 5 }

def readBalance (keccak256 : Bytes → Bytes) (send : Mirror) (net contractAddress : Str)
    (args : Bytes) (signature : String) : Except ReadError Nat := do
  let out ← mirrorContractCall send net contractAddress (selector keccak256 signature ++ args)
  let b ← resultWord out 0
  .ok (beNat b)

def getPositionBalancesV2 (keccak256 : Bytes → Bytes) (send send' : Mirror)
    (net contractAddress : Str) (marketId : Uint128) (account : Str) :
    Except ReadError (Nat × Nat) := do
  revertIf (addressBytes account = none) .invalidAccountAddress
  let args := leftPad (beBytes 16 marketId.val) 32 ++ leftPad (addressField account) 32
  let yes ← readBalance keccak256 send net contractAddress args "yesBalance(uint128,address)"
  let no ← readBalance keccak256 send' net contractAddress args "noBalance(uint128,address)"
  .ok (yes, no)

def isMatchExecutedV2 (keccak256 : Bytes → Bytes) (send : Mirror) (net contractAddress : Str)
    (matchID : Bytes32) : Except ReadError Bool := do
  let out ← mirrorContractCall send net contractAddress
    (selector keccak256 "executedMatches(bytes32)" ++ bytes32 matchID)
  let b ← resultWord out 0
  .ok (beNat b != 0)

def getUserPositionBalancesV2 (keccak256 : Bytes → Bytes) (parse : UuidParse)
    (send send' : Mirror) (net contractAddress : Str) (marketId evmAddress : Str) :
    Except ReadError (UInt64 × UInt64) := do
  let id ← (parse marketId).mapError .invalidMarketId
  let balances ← getPositionBalancesV2 keccak256 send send' net contractAddress id evmAddress
  revertIf (2 ^ 64 ≤ balances.1 ∨ 2 ^ 64 ≤ balances.2) .balanceExceedsUint64
  .ok (UInt64.ofNat balances.1, UInt64.ofNat balances.2)

/-! ## What the node answers -/

/-- The selectors of the getters differ: the compiler refuses a contract in which two do not. -/
structure Selectors (keccak256 : Bytes → Bytes) : Prop where
  length : ∀ text, (keccak256 text).length = 32
  distinct : ∀ getter getter' : Getter,
    selector keccak256 getter.signature = selector keccak256 getter'.signature → getter = getter'

/-- Whatever the node returns for the contract is what the contract answers in a state. -/
def AnswersFrom (keccak256 : Bytes → Bytes) (s : State) (net contractAddress : Str)
    (send : Mirror) : Prop :=
  ∀ data text, send (mirrorRequest net contractAddress data) = .ok ⟨200, .ok text⟩ →
    ∃ out, ethCall keccak256 s data = some out ∧ text = '0' :: 'x' :: hexEncode out

def Serves (keccak256 : Bytes → Bytes) (s : State) (net contractAddress : Str) (send : Mirror) :
    Prop :=
  ∀ data out, ethCall keccak256 s data = some out →
    send (mirrorRequest net contractAddress data) = .ok ⟨200, .ok ('0' :: 'x' :: hexEncode out)⟩

section Calls

variable {keccak256 : Bytes → Bytes} {s : State} {net contractAddress : Str} {send : Mirror}
  {data out args : Bytes} {values : List Nat}

theorem mirrorContractCall_ok_iff :
    mirrorContractCall send net contractAddress data = .ok out ↔
      isValidNetwork net = true ∧ ∃ text,
        send (mirrorRequest net contractAddress data) = .ok ⟨200, .ok text⟩ ∧
        hexBytes (trimPrefix ['0', 'x'] text) = some out := by
  unfold mirrorContractCall
  simp only [bind_ok_iff, revertIf_ok_iff, exists_const, Bool.not_eq_false, not_not]
  apply and_congr_right
  intro _
  cases hsend : send (mirrorRequest net contractAddress data) with
  | error err => simp [Except.mapError]
  | ok reply =>
      obtain ⟨status, result⟩ := reply
      cases result with
      | error err => simp [Except.mapError]
      | ok text => cases hbytes : hexBytes (trimPrefix ['0', 'x'] text) <;>
          simp [Except.mapError, hbytes, and_comm]

theorem trimPrefix_hexEncode (out : Bytes) :
    trimPrefix ['0', 'x'] ('0' :: 'x' :: hexEncode out) = hexEncode out := rfl

theorem ethCall_of_mirror (hanswers : AnswersFrom keccak256 s net contractAddress send)
    (h : mirrorContractCall send net contractAddress data = .ok out) :
    ethCall keccak256 s data = some out := by
  obtain ⟨_, text, hsend, hbytes⟩ := mirrorContractCall_ok_iff.mp h
  obtain ⟨out', hcall, rfl⟩ := hanswers data text hsend
  rw [trimPrefix_hexEncode, hexBytes_hexEncode, Option.some.injEq] at hbytes
  rwa [← hbytes]

theorem mirror_of_ethCall (hnet : isValidNetwork net = true)
    (hserves : Serves keccak256 s net contractAddress send)
    (h : ethCall keccak256 s data = some out) :
    mirrorContractCall send net contractAddress data = .ok out :=
  mirrorContractCall_ok_iff.mpr ⟨hnet, _, hserves data out h, by
    rw [trimPrefix_hexEncode, hexBytes_hexEncode]⟩

theorem ethCall_getter (hselectors : Selectors keccak256) (s : State) (getter : Getter)
    (args : Bytes) :
    ethCall keccak256 s (selector keccak256 getter.signature ++ args) =
      (getter.answer s args).map Abi.words := by
  have hlength : (selector keccak256 getter.signature).length = 4 := by
    rw [selector, List.length_take, hselectors.length]
    rfl
  have hfind : [Getter.markets, .yesBalance, .noBalance, .executedMatches].find? (fun other =>
      selector keccak256 other.signature = selector keccak256 getter.signature) = some getter := by
    have hsame (other : Getter) : decide (selector keccak256 other.signature =
        selector keccak256 getter.signature) = decide (other = getter) :=
      decide_eq_decide.mpr ⟨hselectors.distinct other getter, fun h => by rw [h]⟩
    simp only [hsame]
    cases getter <;> rfl
  rw [ethCall, List.take_left' hlength, List.drop_left' hlength, hfind,
    Option.bind_some]

/-- A word of the result is the value at its place. -/
theorem resultWord_words (hvalues : ∀ value ∈ values, value < 2 ^ 256) (index : Nat)
    (hindex : index < values.length) :
    ∃ b, resultWord (Abi.words values) index = .ok b ∧ beNat b = values[index] := by
  have hlength := Abi.length_words values
  have hsplit : Abi.words values = Abi.words (values.take index) ++
      (word values[index] ++ Abi.words (values.drop (index + 1))) := by
    conv_lhs => rw [← List.take_append_drop index values, List.drop_eq_getElem_cons hindex]
    simp only [Abi.words, List.flatMap_append, List.flatMap_cons]
  have hbefore : (Abi.words (values.take index)).length = index * 32 := by
    rw [Abi.length_words, List.length_take]
    omega
  have hword : ((Abi.words values).drop (index * 32)).take 32 = word values[index] := by
    rw [hsplit, List.drop_left' hbefore]
    exact List.take_left' (Abi.length_word _)
  refine ⟨word values[index], ?_, Abi.beNat_word (hvalues _ (List.getElem_mem hindex))⟩
  simp only [resultWord, bind_ok_iff, revertIf_ok_iff, exists_const, hword]
  exact ⟨by omega, trivial⟩

def mirrorOf (keccak256 : Bytes → Bytes) (s : State) : Mirror := fun req =>
  match (hexBytes (trimPrefix ['0', 'x'] req.data)).bind (ethCall keccak256 s) with
  | some out => .ok ⟨200, .ok ('0' :: 'x' :: hexEncode out)⟩
  | none => .ok ⟨400, .ok []⟩

theorem mirrorOf_request (data : Bytes) :
    mirrorOf keccak256 s (mirrorRequest net contractAddress data) =
      match ethCall keccak256 s data with
      | some out => .ok ⟨200, .ok ('0' :: 'x' :: hexEncode out)⟩
      | none => .ok ⟨400, .ok []⟩ := by
  have hdata : hexBytes (trimPrefix ['0', 'x'] (mirrorRequest net contractAddress data).data) =
      some data := by
    show hexBytes (trimPrefix ['0', 'x'] ('0' :: 'x' :: hexEncode data)) = some data
    rw [trimPrefix_hexEncode, hexBytes_hexEncode]
  rw [mirrorOf, hdata, Option.bind_some]

theorem mirrorOf_answers :
    AnswersFrom keccak256 s net contractAddress (mirrorOf keccak256 s) := by
  intro data text h
  rw [mirrorOf_request] at h
  cases hcall : ethCall keccak256 s data with
  | none =>
      rw [hcall] at h
      cases h
  | some out =>
      rw [hcall] at h
      cases h
      exact ⟨out, rfl, rfl⟩

theorem mirrorOf_serves : Serves keccak256 s net contractAddress (mirrorOf keccak256 s) := by
  intro data out hcall
  rw [mirrorOf_request, hcall]

end Calls

/-! ## Values fit their types -/

/-- The close time of a created market is a `uint64`. -/
def CloseTimeFits : Call → Prop
  | .createMarket _ _ closeTime => closeTime < 2 ^ 64
  | _ => True

structure MarketFits (market : Market) : Prop where
  closeTime : market.closeTime < 2 ^ 64
  reserve : market.reserve < 2 ^ 256
  totalYes : market.totalYes < 2 ^ 256
  totalNo : market.totalNo < 2 ^ 256

theorem MarketFits.of_le {market market' : Market} (h : MarketFits market)
    (hcloseTime : market'.closeTime = market.closeTime)
    (hreserve : market'.reserve ≤ market.reserve) (hyes : market'.totalYes ≤ market.totalYes)
    (hno : market'.totalNo ≤ market.totalNo) : MarketFits market' :=
  ⟨hcloseTime ▸ h.closeTime, hreserve.trans_lt h.reserve, hyes.trans_lt h.totalYes,
    hno.trans_lt h.totalNo⟩

section Fits

variable {c : Chain} {env : Env} {s s' : State}

theorem setMarket_fits (h : ∀ m, MarketFits (s.markets m)) {marketId : Uint128} {market : Market}
    (hmarket : MarketFits market) (m : Uint128) :
    MarketFits ((s.setMarket marketId market).markets m) := by
  simp only [State.setMarket, Function.update_apply]
  split
  · exact hmarket
  · exact h m

theorem pairing_fits {a b : Authorization} {shares yesLeg noLeg : Nat}
    (hpair : PairingEffect c env a b shares yesLeg noLeg s s')
    (h : ∀ m, MarketFits (s.markets m)) (m : Uint128) : MarketFits (s'.markets m) := by
  have hmarket := h a.marketId
  cases hpair with
  | mint _ _ hguard =>
      have hminted : MarketFits { s.markets a.marketId with
          totalYes := (s.markets a.marketId).totalYes + shares
          totalNo := (s.markets a.marketId).totalNo + shares
          reserve := (s.markets a.marketId).reserve + shares } :=
        ⟨hmarket.closeTime, hguard.reserveFits, hguard.totalYesFits, hguard.totalNoFits⟩
      exact setMarket_fits h hminted m
  | merge =>
      have hmerged : MarketFits { s.markets a.marketId with
          totalYes := (s.markets a.marketId).totalYes - shares
          totalNo := (s.markets a.marketId).totalNo - shares
          reserve := (s.markets a.marketId).reserve - shares } :=
        hmarket.of_le rfl (Nat.sub_le _ _) (Nat.sub_le _ _) (Nat.sub_le _ _)
      exact setMarket_fits h hmerged m
  | transfer =>
      rw [transferred_markets]
      exact h m

theorem effect_fits {call : Call} {event : Option Redeemed}
    (heffect : Effect c env s call s' event) (hcall : CloseTimeFits call)
    (h : ∀ m, MarketFits (s.markets m)) (m : Uint128) : MarketFits (s'.markets m) := by
  cases heffect with
  | configure | cancel | tokenTransfer => exact h m
  | create _ _ closeTime =>
      have hcreated : MarketFits ⟨.open, closeTime, s.defaultRakeBps, 0, 0, 0⟩ :=
        ⟨hcall, Nat.two_pow_pos _, Nat.two_pow_pos _, Nat.two_pow_pos _⟩
      exact setMarket_fits h hcreated m
  | transition marketId state' =>
      have hmoved : MarketFits { s.markets marketId with state := state' } :=
        (h marketId).of_le rfl le_rfl le_rfl le_rfl
      exact setMarket_fits h hmoved m
  | settle _ hpair _ => exact pairing_fits hpair h m
  | redeem marketId =>
      by_cases hm : m = marketId
      · subst hm
        have hredeemed := congrArg MarketView.market (@redeemed_view s c m env.sender)
        rw [show (s.redeemed c m env.sender).markets m = _ from hredeemed]
        exact (h m).of_le rfl (Nat.sub_le _ _) (Nat.sub_le _ _) (Nat.sub_le _ _)
      · have hother := congrArg MarketView.market
          (@redeemed_view_of_ne s c marketId env.sender m hm)
        rw [show (s.redeemed c marketId env.sender).markets m = s.markets m from hother]
        exact h m

/-- Every market of a run of well-typed calls fits its types. -/
theorem run_fits (d : Deployment c) (txs : List Tx) (htyped : ∀ tx ∈ txs, CloseTimeFits tx.call)
    (m : Uint128) : MarketFits ((run c d.state txs).markets m) := by
  have hstart (m : Uint128) : MarketFits (d.state.markets m) := by
    obtain ⟨_, _, _, _, _, _, _, hstate⟩ :=
      (initialize_ok_iff _ _ _ _ _ _ _ _ _).mp d.initialized
    rw [hstate]
    exact ⟨Nat.two_pow_pos _, Nat.two_pow_pos _, Nat.two_pow_pos _, Nat.two_pow_pos _⟩
  suffices hrun : ∀ s : State, (∀ m, MarketFits (s.markets m)) →
      ∀ m, MarketFits ((run c s txs).markets m) from hrun d.state hstart m
  induction txs with
  | nil => exact fun s h => h
  | cons tx txs ih =>
      intro s h
      have hrest := ih fun tx' hmem => htyped tx' (List.mem_cons_of_mem _ hmem)
      rw [PrismV2.run_cons]
      cases hexec : exec c tx s with
      | error err =>
          rw [apply_error hexec]
          exact hrest s h
      | ok r =>
          rw [apply_ok hexec]
          exact hrest r.1 (effect_fits (exec_effect hexec) (htyped tx List.mem_cons_self) h)

end Fits

/-! ## What the reads return -/

structure MarketV2.Shows (m : MarketV2) (market : Market) : Prop where
  state : m.state.toNat = marketStateWord market.state
  closeTime : m.closeTime.toNat = market.closeTime
  rakeBps : m.rakeBps.toNat = market.rakeBps
  reserve : m.reserve = market.reserve
  totalYes : m.totalYes = market.totalYes
  totalNo : m.totalNo = market.totalNo

section Reads

variable {keccak256 : Bytes → Bytes} {c : Chain} {s s' : State} {net contractAddress : Str}
  {send send' : Mirror} {marketId : Uint128} {account : Str} {address : Address}

theorem marketStateWord_lt (state : MarketState) : marketStateWord state < 2 ^ 8 := by
  cases state <;> decide

theorem marketWords_lt (hfits : MarketFits (s.markets marketId))
    (hrake : (s.markets marketId).rakeBps ≤ maxRakeBps) :
    ∀ value ∈ marketWords (s.markets marketId), value < 2 ^ 256 := by
  have hstate := marketStateWord_lt (s.markets marketId).state
  have hcloseTime := hfits.closeTime
  intro value hvalue
  simp only [marketWords, List.mem_cons, List.not_mem_nil, or_false] at hvalue
  rcases hvalue with rfl | rfl | rfl | rfl | rfl | rfl
  · omega
  · omega
  · exact (hrake.trans_lt (by decide)).trans (show 1001 < 2 ^ 256 by norm_num)
  · exact hfits.reserve
  · exact hfits.totalYes
  · exact hfits.totalNo

theorem wordAt_zero {n : Nat} (h : n < 2 ^ 256) (after : Bytes) :
    Abi.wordAt (word n ++ after) 0 = some n := by
  have hword := Abi.wordAt_append [] after h
  rwa [List.nil_append, List.length_nil] at hword

theorem answer_markets :
    Getter.markets.answer s (leftPad (beBytes 16 marketId.val) 32) =
      some (marketWords (s.markets marketId)) := by
  have hlt : marketId.val < 2 ^ 256 := marketId.isLt.trans (by norm_num)
  have hword := wordAt_zero hlt []
  rw [List.append_nil] at hword
  rw [Getter.answer, uuid_word, hword, Option.bind_some, uint128OfWord_val]
  rfl

theorem wordAt_args (marketId : Uint128) (haddress : addressBytes account = some address) :
    let args := leftPad (beBytes 16 marketId.val) 32 ++ leftPad (addressField account) 32
    Abi.wordAt args 0 = some marketId.val ∧ Abi.wordAt args 32 = some address.val := by
  intro args
  have hargs : args = word marketId.val ++ word address.val := by
    simp only [args, uuid_word, addressField_word haddress]
  have hmarket : marketId.val < 2 ^ 256 := marketId.isLt.trans (by norm_num)
  have haccount : address.val < 2 ^ 256 := address.isLt.trans (by norm_num)
  have hsecond := Abi.wordAt_append (word marketId.val) [] haccount
  rw [List.append_nil, Abi.length_word] at hsecond
  rw [hargs]
  exact ⟨wordAt_zero hmarket _, hsecond⟩

theorem getMarketV2_of_words {out : Bytes} {market : Market}
    (hfits : ∀ value ∈ marketWords market, value < 2 ^ 256)
    (hcall : mirrorContractCall send net contractAddress
      (selector keccak256 "markets(uint128)" ++ leftPad (beBytes 16 marketId.val) 32) = .ok out)
    (hout : out = Abi.words (marketWords market)) :
    getMarketV2 keccak256 send net contractAddress marketId = .ok
      { state := (UInt64.ofNat (marketStateWord market.state)).toUInt8
        closeTime := UInt64.ofNat market.closeTime
        rakeBps := (UInt64.ofNat market.rakeBps).toUInt16
        reserve := market.reserve
        totalYes := market.totalYes
        totalNo := market.totalNo } := by
  have hlength : ¬out.length < 6 * 32 := by
    rw [hout, Abi.length_words]
    exact lt_irrefl _
  have hword (index : Nat) (hindex : index < 6) :
      beNat ((resultWord out index).toOption.getD []) = (marketWords market)[index] := by
    obtain ⟨b, hb, hvalue⟩ := resultWord_words hfits index hindex
    rw [hout, hb]
    exact hvalue
  unfold getMarketV2
  simp only [bind_ok_iff, revertIf_ok_iff, exists_const]
  refine ⟨out, hcall, hlength, ?_⟩
  rw [hword 0 (by decide), hword 1 (by decide), hword 2 (by decide), hword 3 (by decide),
    hword 4 (by decide), hword 5 (by decide)]
  rfl

theorem shows_of_fits {market : Market} (hfits : MarketFits market)
    (hrake : market.rakeBps ≤ maxRakeBps) :
    MarketV2.Shows
      { state := (UInt64.ofNat (marketStateWord market.state)).toUInt8
        closeTime := UInt64.ofNat market.closeTime
        rakeBps := (UInt64.ofNat market.rakeBps).toUInt16
        reserve := market.reserve
        totalYes := market.totalYes
        totalNo := market.totalNo } market := by
  have hstate := marketStateWord_lt market.state
  have hcloseTime := hfits.closeTime
  have hmax : maxRakeBps = 1000 := rfl
  constructor
  · rw [UInt64.toNat_toUInt8, UInt64.toNat_ofNat']
    omega
  · exact UInt64.toNat_ofNat_of_lt' hcloseTime
  · rw [UInt64.toNat_toUInt16, UInt64.toNat_ofNat']
    omega
  · rfl
  · rfl
  · rfl

theorem readBalance_of_words {args out : Bytes} {signature : String} {value : Nat}
    (hvalue : value < 2 ^ 256)
    (hcall : mirrorContractCall send net contractAddress (selector keccak256 signature ++ args) =
      .ok out) (hout : out = Abi.words [value]) :
    readBalance keccak256 send net contractAddress args signature = .ok value := by
  have hfits : ∀ n ∈ [value], n < 2 ^ 256 := by
    intro n hn
    rwa [List.mem_singleton.mp hn]
  obtain ⟨b, hb, hread⟩ := resultWord_words hfits 0 Nat.one_pos
  rw [← hout] at hb
  simp only [readBalance, bind_ok_iff]
  exact ⟨out, hcall, b, hb, congrArg Except.ok hread⟩

theorem getMarketV2_ok (hselectors : Selectors keccak256)
    (hanswers : AnswersFrom keccak256 s net contractAddress send)
    (hfits : MarketFits (s.markets marketId)) (hrake : (s.markets marketId).rakeBps ≤ maxRakeBps)
    {m : MarketV2} (h : getMarketV2 keccak256 send net contractAddress marketId = .ok m) :
    m.Shows (s.markets marketId) := by
  have hread := h
  simp only [getMarketV2, bind_ok_iff] at hread
  obtain ⟨out, hcall, _⟩ := hread
  have hout := ethCall_of_mirror hanswers hcall
  rw [show selector keccak256 "markets(uint128)" = selector keccak256 Getter.markets.signature
    from rfl, ethCall_getter hselectors, answer_markets, Option.map_some, Option.some.injEq] at hout
  rw [getMarketV2_of_words (marketWords_lt hfits hrake) hcall hout.symm, Except.ok.injEq] at h
  rw [← h]
  exact shows_of_fits hfits hrake

theorem getMarketV2_served (hselectors : Selectors keccak256)
    (hnet : isValidNetwork net = true) (hserves : Serves keccak256 s net contractAddress send)
    (hfits : MarketFits (s.markets marketId))
    (hrake : (s.markets marketId).rakeBps ≤ maxRakeBps) :
    ∃ m, getMarketV2 keccak256 send net contractAddress marketId = .ok m := by
  have hcall := ethCall_getter hselectors s .markets (leftPad (beBytes 16 marketId.val) 32)
  rw [answer_markets, Option.map_some] at hcall
  exact ⟨_, getMarketV2_of_words (marketWords_lt hfits hrake)
    (mirror_of_ethCall hnet hserves hcall) rfl⟩

theorem readBalance_eq (hselectors : Selectors keccak256) {getter : Getter} {args : Bytes}
    {value : Nat} (hvalue : value < 2 ^ 256) (hanswer : getter.answer s args = some [value]) :
    (AnswersFrom keccak256 s net contractAddress send → ∀ balance,
      readBalance keccak256 send net contractAddress args getter.signature = .ok balance →
        balance = value) ∧
    (isValidNetwork net = true → Serves keccak256 s net contractAddress send →
      readBalance keccak256 send net contractAddress args getter.signature = .ok value) := by
  have hcalled := ethCall_getter hselectors s getter args
  rw [hanswer, Option.map_some] at hcalled
  constructor
  · intro hanswers balance h
    have hread := h
    simp only [readBalance, bind_ok_iff] at hread
    obtain ⟨out, hcall, _⟩ := hread
    have hout := ethCall_of_mirror hanswers hcall
    rw [hcalled, Option.some.injEq] at hout
    rw [readBalance_of_words hvalue hcall hout.symm, Except.ok.injEq] at h
    exact h.symm
  · intro hnet hserves
    exact readBalance_of_words hvalue (mirror_of_ethCall hnet hserves hcalled) rfl

theorem isMatchExecutedV2_eq_readBalance (matchID : Bytes32) :
    isMatchExecutedV2 keccak256 send net contractAddress matchID =
      (readBalance keccak256 send net contractAddress (bytes32 matchID)
        Getter.executedMatches.signature).map (· != 0) := by
  unfold isMatchExecutedV2 readBalance Getter.signature
  dsimp only
  cases mirrorContractCall send net contractAddress
      (selector keccak256 "executedMatches(bytes32)" ++ bytes32 matchID) with
  | error err => rfl
  | ok out =>
      show (resultWord out 0).bind _ = ((resultWord out 0).bind _).map _
      cases resultWord out 0 <;> rfl

theorem answer_balances (s : State) (marketId : Uint128)
    (haddress : addressBytes account = some address) :
    let args := leftPad (beBytes 16 marketId.val) 32 ++ leftPad (addressField account) 32
    Getter.yesBalance.answer s args = some [s.yesBalance marketId address] ∧
      Getter.noBalance.answer s args = some [s.noBalance marketId address] := by
  intro args
  obtain ⟨hmarket, haccount⟩ := wordAt_args marketId haddress
  simp only [Getter.answer, args, hmarket, haccount, Option.bind_some, uint128OfWord_val,
    addressOfWord_val]
  exact ⟨rfl, rfl⟩

theorem answer_executedMatches {matchID : Bytes32} (hmatch : matchID < 2 ^ 256) :
    Getter.executedMatches.answer s (bytes32 matchID) =
      some [(s.executedMatches matchID).toNat] := by
  have hword := wordAt_zero hmatch []
  rw [List.append_nil] at hword
  rw [Getter.answer, bytes32_eq, hword]
  rfl

theorem toNat_bne_zero (executed : Bool) : (executed.toNat != 0) = executed := by
  cases executed <;> rfl

theorem isMatchExecutedV2_eq (hselectors : Selectors keccak256) {matchID : Bytes32}
    (hmatch : matchID < 2 ^ 256) :
    (AnswersFrom keccak256 s net contractAddress send → ∀ executed,
      isMatchExecutedV2 keccak256 send net contractAddress matchID = .ok executed →
        executed = s.executedMatches matchID) ∧
    (isValidNetwork net = true → Serves keccak256 s net contractAddress send →
      isMatchExecutedV2 keccak256 send net contractAddress matchID =
        .ok (s.executedMatches matchID)) := by
  have hvalue : (s.executedMatches matchID).toNat < 2 ^ 256 :=
    (Bool.toNat_lt _).trans (by norm_num)
  have hanswer := answer_executedMatches (s := s) hmatch
  rw [isMatchExecutedV2_eq_readBalance]
  constructor
  · intro hanswers executed h
    cases hbalance : readBalance keccak256 send net contractAddress (bytes32 matchID)
        Getter.executedMatches.signature with
    | error err =>
        rw [hbalance] at h
        cases h
    | ok balance =>
        rw [hbalance, (readBalance_eq hselectors hvalue hanswer).1 hanswers balance hbalance] at h
        cases h
        exact toNat_bne_zero _
  · intro hnet hserves
    rw [(readBalance_eq hselectors hvalue hanswer).2 hnet hserves]
    exact congrArg Except.ok (toNat_bne_zero _)

theorem isTerminal_of_word {state : MarketState} (h : 4 ≤ marketStateWord state) :
    state.isTerminal = true := by
  revert h
  cases state <;> decide

theorem balances_lt {d : Deployment c} (hs : Sound c d s) (hfits : ∀ m, MarketFits (s.markets m))
    (marketId : Uint128) (account : Address) :
    s.yesBalance marketId account < 2 ^ 256 ∧ s.noBalance marketId account < 2 ^ 256 := by
  have hmarket := hs.solvent.market marketId
  exact ⟨(hmarket.yes_le account).trans_lt (hfits marketId).totalYes,
    (hmarket.no_le account).trans_lt (hfits marketId).totalNo⟩

theorem getPositionBalancesV2_ok_iff {balances : Nat × Nat} :
    getPositionBalancesV2 keccak256 send send' net contractAddress marketId account =
        .ok balances ↔
      addressBytes account ≠ none ∧
      let args := leftPad (beBytes 16 marketId.val) 32 ++ leftPad (addressField account) 32
      readBalance keccak256 send net contractAddress args Getter.yesBalance.signature =
          .ok balances.1 ∧
        readBalance keccak256 send' net contractAddress args Getter.noBalance.signature =
          .ok balances.2 := by
  obtain ⟨yes, no⟩ := balances
  simp only [getPositionBalancesV2, bind_ok_iff, revertIf_ok_iff, exists_const, Except.ok.injEq,
    Prod.mk.injEq, Getter.signature]
  apply and_congr_right
  intro _
  constructor
  · rintro ⟨_, hyes, _, hno, rfl, rfl⟩
    exact ⟨hyes, hno⟩
  · rintro ⟨hyes, hno⟩
    exact ⟨_, hyes, _, hno, rfl, rfl⟩

theorem getUserPositionBalancesV2_ok_iff {parse : UuidParse} {text evmAddress : Str}
    {balances : UInt64 × UInt64} :
    getUserPositionBalancesV2 keccak256 parse send send' net contractAddress text evmAddress =
        .ok balances ↔
      ∃ id yes no, parse text = .ok id ∧
        getPositionBalancesV2 keccak256 send send' net contractAddress id evmAddress =
          .ok (yes, no) ∧
        yes < 2 ^ 64 ∧ no < 2 ^ 64 ∧ balances = (UInt64.ofNat yes, UInt64.ofNat no) := by
  simp only [getUserPositionBalancesV2, bind_ok_iff, revertIf_ok_iff, exists_const,
    Except.ok.injEq, not_or, not_le, Prod.exists]
  constructor
  · rintro ⟨id, hid, yes, no, hread, ⟨hyes, hno⟩, rfl⟩
    refine ⟨id, yes, no, ?_, hread, hyes, hno, rfl⟩
    cases hparse : parse text with
    | error err => rw [hparse] at hid; cases hid
    | ok id' => rw [hparse] at hid; cases hid; rfl
  · rintro ⟨id, yes, no, hid, hread, hyes, hno, rfl⟩
    exact ⟨id, by rw [hid]; rfl, yes, no, hread, ⟨hyes, hno⟩, rfl⟩

end Reads

/-! ## Reads during a run -/

/-- Over every run of the contract, and for a mirror node that answers each request out of some
earlier state of the run: a read returns exactly what the contract's storage was then; the terms
of a created market, a final outcome and an executed match are those of the contract now; and as
long as the node answers, no read fails. -/
theorem chain_reads_agree {c : Chain} {keccak256 : Bytes → Bytes}
    (hselectors : Selectors keccak256) (d : Deployment c) (txs : List Tx)
    (htyped : ∀ tx ∈ txs, CloseTimeFits tx.call) (n n' : Nat) {net contractAddress : Str}
    {send send' : Mirror}
    (hanswers : AnswersFrom keccak256 (run c d.state (txs.take n)) net contractAddress send)
    (hanswers' : AnswersFrom keccak256 (run c d.state (txs.take n')) net contractAddress send') :
    let seen := run c d.state (txs.take n)
    let seen' := run c d.state (txs.take n')
    let now := run c d.state txs
    (∀ marketId m, getMarketV2 keccak256 send net contractAddress marketId = .ok m →
      m.Shows (seen.markets marketId) ∧
      (m.state ≠ 0 →
        (now.markets marketId).state ≠ .uninitialized ∧
        m.closeTime.toNat = (now.markets marketId).closeTime ∧
        m.rakeBps.toNat = (now.markets marketId).rakeBps ∧
        (4 ≤ m.state.toNat → m.state.toNat = marketStateWord (now.markets marketId).state))) ∧
    (∀ parse text evmAddress balances,
      getUserPositionBalancesV2 keccak256 parse send send' net contractAddress text evmAddress =
          .ok balances →
        ∃ id account, parse text = .ok id ∧ addressBytes evmAddress = some account ∧
          balances.1.toNat = seen.yesBalance id account ∧
          balances.2.toNat = seen'.noBalance id account) ∧
    (∀ matchID < 2 ^ 256, ∀ executed,
      isMatchExecutedV2 keccak256 send net contractAddress matchID = .ok executed →
        executed = seen.executedMatches matchID ∧
        (executed = true → now.executedMatches matchID = true)) ∧
    (isValidNetwork net = true → Serves keccak256 seen net contractAddress send →
      Serves keccak256 seen' net contractAddress send' →
      (∀ marketId, ∃ m, getMarketV2 keccak256 send net contractAddress marketId = .ok m) ∧
      (∀ (parse : UuidParse) text evmAddress id account, parse text = .ok id →
        addressBytes evmAddress = some account → seen.yesBalance id account < 2 ^ 64 →
        seen'.noBalance id account < 2 ^ 64 → ∃ balances,
          getUserPositionBalancesV2 keccak256 parse send send' net contractAddress text
            evmAddress = .ok balances) ∧
      ∀ matchID < 2 ^ 256, ∃ executed,
        isMatchExecutedV2 keccak256 send net contractAddress matchID = .ok executed) := by
  intro seen seen' now
  have htake (k : Nat) : ∀ tx ∈ txs.take k, CloseTimeFits tx.call := fun tx hmem =>
    htyped tx (List.mem_of_mem_take hmem)
  have hfits := run_fits d (txs.take n) (htake n)
  have hfits' := run_fits d (txs.take n') (htake n')
  have hsound : Sound c d seen := run_sound d (txs.take n)
  have hsound' : Sound c d seen' := run_sound d (txs.take n')
  have hnow : now = run c seen (txs.drop n) := by
    rw [← run_append, List.take_append_drop]
  refine ⟨?_, ?_, ?_, ?_⟩
  · intro marketId m hread
    have hshows := getMarketV2_ok hselectors hanswers (hfits marketId)
      (hsound.configured.rakeBps marketId) hread
    refine ⟨hshows, ?_⟩
    intro hstate
    have hcreated : (seen.markets marketId).state ≠ .uninitialized := by
      intro huninitialized
      have hword := hshows.state
      rw [show ((run c d.state (txs.take n)).markets marketId).state = .uninitialized
        from huninitialized] at hword
      exact hstate (UInt8.toNat.inj hword)
    have hlater := run_later (c := c) hcreated (txs.drop n)
    rw [← hnow] at hlater
    refine ⟨?_, hshows.closeTime.trans hlater.closeTime.symm,
      hshows.rakeBps.trans hlater.rakeBps.symm, ?_⟩
    · have hphase := hlater.phase
      rw [Ne, ← MarketState.phase_eq_zero] at hcreated ⊢
      omega
    · intro hfinal
      have hterminal : (seen.markets marketId).state.isTerminal = true := by
        rw [hshows.state] at hfinal
        exact isTerminal_of_word hfinal
      rw [hshows.state, hlater.terminal hterminal]
  · intro parse text evmAddress balances hread
    obtain ⟨id, yes, no, hid, hbalances, hyes, hno, rfl⟩ :=
      getUserPositionBalancesV2_ok_iff.mp hread
    obtain ⟨haddress, hyesRead, hnoRead⟩ := getPositionBalancesV2_ok_iff.mp hbalances
    obtain ⟨account, haccount⟩ := Option.ne_none_iff_exists'.mp haddress
    refine ⟨id, account, hid, haccount, ?_, ?_⟩
    · have hanswer := (answer_balances seen id haccount).1
      have hlt := (balances_lt hsound hfits id account).1
      rw [UInt64.toNat_ofNat_of_lt' hyes]
      exact (readBalance_eq hselectors hlt hanswer).1 hanswers yes hyesRead
    · have hanswer := (answer_balances seen' id haccount).2
      have hlt := (balances_lt hsound' hfits' id account).2
      rw [UInt64.toNat_ofNat_of_lt' hno]
      exact (readBalance_eq hselectors hlt hanswer).1 hanswers' no hnoRead
  · intro matchID hmatch executed hread
    have hseen := (isMatchExecutedV2_eq hselectors hmatch).1 hanswers executed hread
    refine ⟨hseen, ?_⟩
    intro hexecuted
    rw [hnow, run_executed_iff]
    exact Or.inl (hseen.symm.trans hexecuted)
  · intro hnet hserves hserves'
    refine ⟨?_, ?_, ?_⟩
    · intro marketId
      exact getMarketV2_served hselectors hnet hserves (hfits marketId)
        (hsound.configured.rakeBps marketId)
    · intro parse text evmAddress id account hid haccount hyes hno
      have hanswer := (answer_balances seen id haccount).1
      have hanswer' := (answer_balances seen' id haccount).2
      have hlt := (balances_lt hsound hfits id account).1
      have hlt' := (balances_lt hsound' hfits' id account).2
      have haddress : addressBytes evmAddress ≠ none := by
        rw [haccount]
        exact Option.some_ne_none _
      have hread : getPositionBalancesV2 keccak256 send send' net contractAddress id evmAddress =
          .ok (seen.yesBalance id account, seen'.noBalance id account) :=
        getPositionBalancesV2_ok_iff.mpr ⟨haddress,
          (readBalance_eq hselectors hlt hanswer).2 hnet hserves,
          (readBalance_eq hselectors hlt' hanswer').2 hnet hserves'⟩
      exact ⟨_, getUserPositionBalancesV2_ok_iff.mpr ⟨id, _, _, hid, hread, hyes, hno, rfl⟩⟩
    · intro matchID hmatch
      exact ⟨_, (isMatchExecutedV2_eq hselectors hmatch).2 hnet hserves⟩


/-! ## A sample run -/

def keccakSample (text : Bytes) : Bytes :=
  let selector : Bytes :=
    if text = utf8 "markets(uint128)" then [0x3d, 0x3e, 0x49, 0xfc]
    else if text = utf8 "yesBalance(uint128,address)" then [0x95, 0x75, 0x8d, 0x7f]
    else if text = utf8 "noBalance(uint128,address)" then [0x64, 0xa0, 0x87, 0x77]
    else if text = utf8 "executedMatches(bytes32)" then [0xcc, 0xf4, 0x4e, 0x05]
    else [0, 0, 0, 0]
  selector ++ List.replicate 28 0

theorem keccakSample_selectors : Selectors keccakSample where
  length := by
    intro text
    unfold keccakSample
    split_ifs <;> rfl
  distinct := by
    intro getter getter'
    cases getter <;> cases getter' <;> decide +kernel

/-- The market is read before its first trade, and its terms are those of now. -/
theorem chain_reads_agree_sample :
    let d := sampleDeployment sampleChain rfl
    let seen := run sampleChain d.state (PrismV2.sampleTrades.take 1)
    let now := run sampleChain d.state PrismV2.sampleTrades
    let contractAddress := List.replicate 40 '1'
    ∃ m, getMarketV2 keccakSample (mirrorOf keccakSample seen) "testnet".toList contractAddress 7 =
        .ok m ∧
      m.totalYes = 0 ∧ (now.markets 7).totalYes = 101 ∧
      m.closeTime.toNat = (now.markets 7).closeTime ∧ m.closeTime.toNat = 100 := by
  intro d seen now contractAddress
  have htyped : ∀ tx ∈ PrismV2.sampleTrades, CloseTimeFits tx.call := by
    intro tx htx
    obtain rfl | rfl := List.mem_pair.mp htx
    · exact show 100 < 2 ^ 64 by decide
    · trivial
  have hanswers (s : State) : AnswersFrom keccakSample s "testnet".toList contractAddress
      (mirrorOf keccakSample s) := mirrorOf_answers
  obtain ⟨hmarket, _, _, hserved⟩ := chain_reads_agree keccakSample_selectors d
    PrismV2.sampleTrades htyped 1 2 (hanswers _) (hanswers _)
  obtain ⟨hserved, _⟩ := hserved (by decide) mirrorOf_serves mirrorOf_serves
  obtain ⟨m, hread⟩ := hserved 7
  obtain ⟨hshows, hterms⟩ := hmarket 7 m hread
  have hstate : m.state ≠ 0 := by
    intro hzero
    have hword := hshows.state
    rw [hzero] at hword
    exact absurd hword (by decide +kernel)
  obtain ⟨_, hcloseTime, _⟩ := hterms hstate
  refine ⟨m, hread, hshows.totalYes.trans (by decide +kernel), by decide +kernel, hcloseTime,
    hcloseTime.trans (by decide +kernel)⟩

end PrismBackend.Api.ChainReads
