import PrismBackend.Markets.Service

/-!
# Markets: the stores

The contracts, the CLOB and the database, what each request does to them, and
when the functions of the service succeed while nothing else happens.
-/

namespace PrismBackend.Markets

open PrismBackend.Lib PrismBackend.Clob
open PrismBackend.PrismV2 (Uint128 MarketState Market Call)
open PrismBackend.Api (Platform text isValidNetwork isHexDigit)
open Program (request attempt andThen named)

/-! ## The state -/

/-- The contracts by network and id, the CLOB, the tables of the database and the clock in
milliseconds. The calls that took effect are kept for the statements. -/
structure Stores where
  contracts : Str × Str → PrismV2.State
  clob : OrderBookService
  markets : Table MarketRecord Uint128 fun row => row.marketID
  categories : List Int
  links : Uint128 → List Int
  prices : Uint128 → Option Str
  clock : Nat
  executed : List Call

def Stores.onChain (w : Stores) (net contractID : Str) (marketID : Uint128) : Market :=
  (w.contracts (net, contractID)).markets marketID

def Stores.env (p : MarketPlatform) (w : Stores) : PrismV2.Env :=
  { p.signer with timestamp := w.clock / 1000 }

def MarketRecord.isUnresolved (row : MarketRecord) (now : Nat) : Bool :=
  row.deletedAt.isNone && row.resolvedAt.isNone && decide (now < row.closesAt) &&
    !row.isSuspended && !row.isPaused

def fitsColumn (width : Nat) (s : Str) : Bool := decide (s.length ≤ width) && !s.contains '\x00'

/-- The check of a colour: `^#[A-Fa-f0-9]{6}$`. -/
def isHexColor : Str → Bool
  | '#' :: digits => decide (digits.length = 6) && digits.all isHexDigit
  | _ => false

/-- The columns and checks of the table `markets`. -/
def MarketRecord.fits (row : MarketRecord) : Bool :=
  fitsColumn 32 row.net && !row.statement.contains '\x00' &&
    row.imageUrl.all (fitsColumn 2048) && fitsColumn 256 row.smartContractID &&
    decide (5 ≤ row.smartContractID.length ∧ 2 ≤ row.smartContractID.count '.') &&
    !row.description.contains '\x00' && row.rules.all (fun rules => !rules.contains '\x00') &&
    row.aliasYes.all (fitsColumn 255) && row.aliasNo.all (fitsColumn 255) &&
    row.hexColorYes.all isHexColor && row.hexColorNo.all isHexColor

/-- The price of a market without trades. -/
def midMarketPrice : Str := "0.500000".toList

/-! ## Requests -/

section Serve

variable (p : MarketPlatform)

/-- A successful transaction changes its contract. -/
def Stores.executes (w : Stores) (net contractID : Str) (function : Call) (s : PrismV2.State) :
    Stores :=
  { w with
    contracts := Function.update w.contracts (net, contractID) s
    executed := w.executed ++ [function] }

/-- The update of `ResolveMarket`. -/
def Stores.recordOutcome (w : Stores) (marketID : Uint128) (outcome : Int) : Stores :=
  { w with
    markets := w.markets.modify marketID (fun row =>
      { row with resolvedAt := some w.clock, outcome := some outcome }) fun _ => rfl }

def Stores.serve (w : Stores) : (r : MarketRequest) → r.Answer × Stores
  | .putObject _ _ _ _ => (.ok (), w)
  | .getMarketV2 net contractID marketID =>
    if isValidNetwork net then (.ok (w.onChain net contractID marketID), w)
    else (.error "invalid network", w)
  | .executeAdminCall net contractID function =>
    if isValidNetwork net then
      match PrismV2.exec p.chain ⟨w.env p, function⟩ (w.contracts (net, contractID)) with
      | .ok (s, _) => (.ok (), w.executes net contractID function s)
      | .error _ => (.error "CONTRACT_REVERT_EXECUTED", w)
    else (.error "no Hedera client", w)
  | .createMarketOnClob marketId =>
    if (w.clob.addMarket marketId).2 then (.ok (), { w with clob := (w.clob.addMarket marketId).1 })
    else (.error ("WARN: could not add market " ++ text marketId ++
      ". Does the market already exist?"), w)
  | .closeMarketOnClob marketId =>
    if (w.clob.bookOf marketId).isSome then (.ok (), { w with clob := w.clob.closeMarket marketId })
    else (.error ("WARN: could not close market " ++ text marketId), w)
  | .createMarket row =>
    if w.markets.find row.marketID = none ∧ row.fits = true then
      (.ok { row with createdAt := some w.clock },
        { w with markets := w.markets.insert { row with createdAt := some w.clock } })
    else (.error "CreateMarket failed", w)
  | .setCategoriesForMarket marketID categoryIds =>
    if categoryIds.all w.categories.contains then
      (.ok (), { w with links := Function.update w.links marketID categoryIds })
    else (.error "AssociateMarketCategoriesBatch failed", w)
  | .getLatestPriceByMarket marketID => (.ok ((w.prices marketID).getD midMarketPrice), w)
  | .getMarketById marketID isAdmin =>
    match w.markets.find marketID with
    | some row =>
      if row.deletedAt = none ∧ (isAdmin = true ∨ row.isSuspended = false ∧ row.isPaused = false)
        then (.ok row, w)
      else (.error ("GetMarketById failed: " ++ Api.noRows), w)
    | none => (.error ("GetMarketById failed: " ++ Api.noRows), w)
  | .resolveMarket marketID outcome => (.ok (), w.recordOutcome marketID outcome)
  | .publishHCSmessage _ _ _ => (.ok (), w)

/-- A program of the service runs to its end, and nothing else happens. -/
abbrev Stores.handle {α : Type} (w : Stores) (program : MarketM α) : α × Stores :=
  program.handle (fun w r => w.serve p r) w

end Serve

theorem find_recordOutcome {w : Stores} {marketID : Uint128} {row : MarketRecord} (outcome : Int)
    (h : w.markets.find marketID = some row) :
    (w.recordOutcome marketID outcome).markets.find marketID =
      some { row with resolvedAt := some w.clock, outcome := some outcome } := by
  unfold Stores.recordOutcome
  rw [Table.find_modify_self h]

theorem find_recordOutcome_of_ne {w : Stores} {marketID marketID' : Uint128} (outcome : Int)
    (hne : marketID ≠ marketID') :
    (w.recordOutcome marketID' outcome).markets.find marketID = w.markets.find marketID := by
  unfold Stores.recordOutcome
  dsimp only
  rw [Table.find_modify_of_ne hne]

/-! ## When the functions of the service succeed -/

section Success

variable {p : MarketPlatform} {w w' : Stores}

theorem serve_executeAdminCall_ok {net contractID : Str} {function : Call} {u : Unit} :
    w.serve p (.executeAdminCall net contractID function) = (.ok u, w') ↔
      isValidNetwork net = true ∧ ∃ s redeemed,
        PrismV2.exec p.chain ⟨w.env p, function⟩ (w.contracts (net, contractID)) =
          .ok (s, redeemed) ∧ w' = w.executes net contractID function s := by
  simp only [Stores.serve]
  by_cases hnet : isValidNetwork net = true
  · rw [if_pos hnet]
    cases hexec : PrismV2.exec p.chain ⟨w.env p, function⟩ (w.contracts (net, contractID)) with
    | error err => simp
    | ok result =>
        obtain ⟨s, redeemed⟩ := result
        simp [hnet, eq_comm]
  · rw [if_neg hnet]
    simp [hnet]

theorem serve_createMarketOnClob_ok {marketId : Str} {u : Unit} :
    w.serve p (.createMarketOnClob marketId) = (.ok u, w') ↔ w.clob.bookOf marketId = none ∧
      w' = { w with clob := w.clob.setBook marketId (some ⟨[], []⟩) } := by
  cases hbook : w.clob.bookOf marketId with
  | none => simp [Stores.serve, OrderBookService.addMarket, hbook, eq_comm]
  | some book => simp [Stores.serve, OrderBookService.addMarket, hbook]

theorem serve_closeMarketOnClob_ok {marketId : Str} {u : Unit} :
    w.serve p (.closeMarketOnClob marketId) = (.ok u, w') ↔ w.clob.bookOf marketId ≠ none ∧
      w' = { w with clob := w.clob.closeMarket marketId } := by
  simp only [Stores.serve]
  cases w.clob.bookOf marketId with
  | none => simp
  | some book => simp [eq_comm]

theorem serve_createMarket_ok {row row' : MarketRecord} :
    w.serve p (.createMarket row) = (.ok row', w') ↔
      (w.markets.find row.marketID = none ∧ row.fits = true) ∧
        row' = { row with createdAt := some w.clock } ∧
        w' = { w with markets := w.markets.insert row' } := by
  simp only [Stores.serve]
  split
  · next h =>
      simp only [Prod.mk.injEq, Except.ok.injEq, h, and_self, true_and]
      constructor
      · rintro ⟨rfl, rfl⟩
        exact ⟨rfl, rfl⟩
      · rintro ⟨rfl, rfl⟩
        exact ⟨rfl, rfl⟩
  · next h => simp [h]

theorem serve_setCategories_ok {marketID : Uint128} {categoryIds : List Int} {u : Unit} :
    w.serve p (.setCategoriesForMarket marketID categoryIds) = (.ok u, w') ↔
      categoryIds.all w.categories.contains = true ∧
        w' = { w with links := Function.update w.links marketID categoryIds } := by
  simp only [Stores.serve]
  split
  · next h => simp [h, eq_comm]
  · next h => simp [h]

theorem serve_getMarketById_ok {marketID : Uint128} {row : MarketRecord} :
    w.serve p (.getMarketById marketID true) = (.ok row, w') ↔
      w.markets.find marketID = some row ∧ row.deletedAt = none ∧ w' = w := by
  simp only [Stores.serve]
  cases w.markets.find marketID with
  | none => simp
  | some row₀ =>
      dsimp only
      split
      · next h =>
          simp only [Prod.mk.injEq, Except.ok.injEq, Option.some.injEq]
          constructor
          · rintro ⟨rfl, rfl⟩
            exact ⟨rfl, h.1, rfl⟩
          · rintro ⟨rfl, _, rfl⟩
            exact ⟨rfl, rfl⟩
      · next h =>
          simp only [Prod.mk.injEq, reduceCtorEq, false_and, Option.some.injEq, false_iff, not_and]
          rintro rfl hdeleted
          exact absurd ⟨hdeleted, Or.inl trivial⟩ h

theorem ret_ok_iff {α : Type} {out value : α} :
    w.handle p (.ret (.ok out) : MarketM (Except String α)) = (.ok value, w') ↔
      out = value ∧ w = w' := by
  show (Except.ok out, w) = (Except.ok value, w') ↔ _
  rw [Prod.mk.injEq, Except.ok.injEq]

def Stores.Executes (p : MarketPlatform) (w : Stores) (net contractID : Str) (function : Call)
    (w' : Stores) : Prop :=
  ∃ s redeemed, PrismV2.exec p.chain ⟨w.env p, function⟩ (w.contracts (net, contractID)) =
    .ok (s, redeemed) ∧ w' = w.executes net contractID function s

theorem serve_getMarketV2 {net contractID : Str} {marketID : Uint128}
    (h : isValidNetwork net = true) :
    w.serve p (.getMarketV2 net contractID marketID) =
      (.ok (w.onChain net contractID marketID), w) := if_pos h

theorem serve_getMarketV2_invalid {net contractID : Str} {marketID : Uint128}
    (h : ¬isValidNetwork net = true) :
    w.serve p (.getMarketV2 net contractID marketID) = (.error "invalid network", w) := if_neg h

theorem handle_call {α : Type} (r : MarketRequest) (k : r.Answer → MarketM α) :
    w.handle p (request r >>= k) = (w.serve p r).2.handle p (k (w.serve p r).1) := rfl

theorem submitNewMarket_ok {contractID marketId statement net contractID' : Str} {closesAt : Int} :
    w.handle p (submitNewMarket contractID marketId statement net closesAt) =
        (.ok contractID', w') ↔
      isValidNetwork net = true ∧ contractID' = contractID ∧ ∃ marketIdBig,
        uuid7ToBigint marketId = .ok marketIdBig ∧ w.Executes p net contractID
          (.createMarket marketIdBig (textBytes statement) (uint64 (unix closesAt))) w' := by
  simp only [submitNewMarket, Stores.handle, Program.handle_attempt_ok, mapError_ok_iff,
    Program.handle_andThen_ok]
  constructor
  · rintro ⟨marketIdBig, hbig, _, w₁, hcall, hret⟩
    obtain ⟨hnet, s, redeemed, hexec, rfl⟩ := serve_executeAdminCall_ok.mp hcall
    obtain ⟨rfl, rfl⟩ := ret_ok_iff.mp hret
    exact ⟨hnet, rfl, marketIdBig, hbig, s, redeemed, hexec, rfl⟩
  · rintro ⟨hnet, rfl, marketIdBig, hbig, s, redeemed, hexec, rfl⟩
    exact ⟨marketIdBig, hbig, (), _, serve_executeAdminCall_ok.mpr ⟨hnet, s, redeemed, hexec, rfl⟩,
      rfl⟩

theorem not_error_ok {α : Type} {err : String} {value : α} :
    w.handle p (.ret (.error err) : MarketM (Except String α)) ≠ (.ok value, w') := by
  intro h
  cases congrArg Prod.fst h

/-- A market is open afterwards that was open before, or that was not there and is created. -/
theorem createNewMarket_ok {marketId statement net contractID : Str} {closesAt : Int} :
    w.handle p (createNewMarket p marketId statement net closesAt) = (.ok contractID, w') ↔
      ∃ cfg, p.getPrismV2Network net = .ok cfg ∧ ∃ id, p.uuid.parse marketId = .ok id ∧
        isValidNetwork net = true ∧ contractID = cfg.contractID ∧
        (((w.onChain net cfg.contractID id).state = .open ∧ w' = w) ∨
          ((w.onChain net cfg.contractID id).state = .uninitialized ∧
            ∃ marketIdBig, uuid7ToBigint marketId = .ok marketIdBig ∧
              w.Executes p net cfg.contractID (.createMarket marketIdBig (textBytes statement)
                (uint64 (unix closesAt))) w')) := by
  simp only [createNewMarket, Stores.handle, Program.handle_attempt_ok, mapError_ok_iff]
  apply exists_congr
  intro cfg
  apply and_congr_right
  intro _
  apply exists_congr
  intro id
  apply and_congr_right
  intro _
  rw [← Stores.handle, handle_call]
  by_cases hnet : isValidNetwork net = true
  · rw [serve_getMarketV2 hnet]
    dsimp only
    cases hstate : (w.onChain net cfg.contractID id).state with
    | uninitialized =>
        rw [submitNewMarket_ok]
        simp [hnet]
    | «open» =>
        rw [ret_ok_iff]
        simp [hnet, eq_comm]
    | halted | closed | resolvedYes | resolvedNo | void =>
        simp [not_error_ok]
  · rw [serve_getMarketV2_invalid hnet]
    dsimp only
    rw [submitNewMarket_ok]
    simp [hnet]

theorem submitOutcome_ok {contractId marketId net : Str} {outcome : Int} {u : Unit} :
    w.handle p (submitOutcome contractId marketId net outcome) = (.ok u, w') ↔
      isValidNetwork net = true ∧ ∃ marketIdBig, uuid7ToBigint marketId = .ok marketIdBig ∧
        w.Executes p net contractId (outcomeCall marketIdBig outcome) w' := by
  simp only [submitOutcome, Stores.handle, Program.handle_attempt_ok, mapError_ok_iff]
  constructor
  · rintro ⟨marketIdBig, hbig, hcall⟩
    obtain ⟨hnet, hexec⟩ := serve_executeAdminCall_ok.mp hcall
    exact ⟨hnet, marketIdBig, hbig, hexec⟩
  · rintro ⟨hnet, marketIdBig, hbig, hexec⟩
    exact ⟨marketIdBig, hbig, serve_executeAdminCall_ok.mpr ⟨hnet, hexec⟩⟩

theorem resolveMarketOnChain_ok {net marketId contractIdStr : Str} {outcome : Int} {u : Unit} :
    w.handle p (resolveMarketOnChain p net marketId contractIdStr outcome) = (.ok u, w') ↔
      ∃ contractId, p.contractIDFromString contractIdStr = .ok contractId ∧
        ∃ id, p.uuid.parse marketId = .ok id ∧ ∃ want, targetState outcome = .ok want ∧
          isValidNetwork net = true ∧
          (((w.onChain net contractId id).state = want ∧ w' = w) ∨
            ((w.onChain net contractId id).state ≠ want ∧
              ∃ marketIdBig, uuid7ToBigint marketId = .ok marketIdBig ∧
                w.Executes p net contractId (outcomeCall marketIdBig outcome) w')) := by
  simp only [resolveMarketOnChain, Stores.handle, Program.handle_attempt_ok, mapError_ok_iff]
  apply exists_congr
  intro contractId
  apply and_congr_right
  intro _
  apply exists_congr
  intro id
  apply and_congr_right
  intro _
  apply exists_congr
  intro want
  apply and_congr_right
  intro _
  rw [← Stores.handle, handle_call]
  by_cases hnet : isValidNetwork net = true
  · rw [serve_getMarketV2 hnet]
    dsimp only
    by_cases hstate : (w.onChain net contractId id).state = want
    · rw [if_pos hstate, ret_ok_iff]
      simp [hnet, hstate, eq_comm]
    · rw [if_neg hstate, submitOutcome_ok]
      simp [hnet, hstate]
  · rw [serve_getMarketV2_invalid hnet]
    dsimp only
    rw [submitOutcome_ok]
    simp [hnet]

theorem saveImageToS3_ok {imageData : PrismV2.Bytes} {fileName mimeType url : Str} :
    w.handle p (saveImageToS3 p imageData fileName mimeType) = (.ok url, w') ↔
      checkImage p imageData fileName mimeType = .ok () ∧ url = s3Url p fileName ∧ w' = w := by
  simp only [saveImageToS3, Stores.handle, Program.handle_attempt_ok, Program.handle_andThen_ok]
  constructor
  · rintro ⟨_, hcheck, _, w₁, hput, hret⟩
    obtain ⟨rfl, rfl⟩ := ret_ok_iff.mp hret
    cases hput
    exact ⟨hcheck, rfl, rfl⟩
  · rintro ⟨hcheck, rfl, rfl⟩
    exact ⟨(), hcheck, (), _, rfl, rfl⟩

structure Insertable (p : MarketPlatform) (w : Stores) (req : CreateMarketv2Request) (id : Uint128)
    (imageUrl contractID : Str) (closesAt : Int) : Prop where
  parses : p.uuid.parse req.marketId = .ok id
  net : isValidNetwork (toAsciiLowercase req.net) = true
  contract : ∃ account, p.accountIDFromString contractID = .ok account
  new : w.markets.find id = none
  fits : (req.record id imageUrl contractID closesAt).fits = true

theorem createMarketRow_ok {req : CreateMarketv2Request} {imageUrl contractID : Str}
    {closesAt : Int} {row : MarketRecord} :
    w.handle p (createMarketRow p req imageUrl contractID closesAt) = (.ok row, w') ↔
      ∃ id, Insertable p w req id imageUrl contractID closesAt ∧
        row = { req.record id imageUrl contractID closesAt with createdAt := some w.clock } ∧
        w' = { w with markets := w.markets.insert row } := by
  simp only [createMarketRow, Stores.handle, Program.handle_attempt_ok, mapError_ok_iff,
    revertIf_ok_iff, Bool.not_eq_false]
  constructor
  · rintro ⟨id, hid, _, hnet, account, haccount, hinsert⟩
    obtain ⟨⟨hnew, hfits⟩, hrow, hw⟩ := (serve_createMarket_ok (p := p)).mp hinsert
    exact ⟨id, ⟨hid, hnet, ⟨account, haccount⟩, hnew, hfits⟩, hrow, hw⟩
  · rintro ⟨id, ⟨hid, hnet, ⟨account, haccount⟩, hnew, hfits⟩, hrow, hw⟩
    exact ⟨id, hid, (), hnet, account, haccount,
      (serve_createMarket_ok (p := p)).mpr ⟨⟨hnew, hfits⟩, hrow, hw⟩⟩

theorem setCategoriesForMarket_ok {marketId : Str} {categoryIds categoryIds' : List Int} :
    w.handle p (setCategoriesForMarket p marketId categoryIds) = (.ok categoryIds', w') ↔
      ∃ id, p.uuid.parse marketId = .ok id ∧ categoryIds.all w.categories.contains = true ∧
        categoryIds' = categoryIds ∧
        w' = { w with links := Function.update w.links id categoryIds } := by
  simp only [setCategoriesForMarket, Stores.handle, Program.handle_attempt_ok, mapError_ok_iff,
    Program.handle_andThen_ok]
  constructor
  · rintro ⟨id, hid, _, w₁, hlinks, hret⟩
    obtain ⟨hknown, rfl⟩ := (serve_setCategories_ok (p := p)).mp hlinks
    obtain ⟨rfl, rfl⟩ := ret_ok_iff.mp hret
    exact ⟨id, hid, hknown, rfl, rfl⟩
  · rintro ⟨id, hid, hknown, rfl, rfl⟩
    exact ⟨id, hid, (), _, (serve_setCategories_ok (p := p)).mpr ⟨hknown, rfl⟩, rfl⟩

/-- The stores after a market was created: its book, its row and its categories are new. -/
def Stores.withMarket (w : Stores) (req : CreateMarketv2Request) (row : MarketRecord) : Stores :=
  { w with
    clob := w.clob.setBook req.marketId (some ⟨[], []⟩)
    markets := w.markets.insert row
    links := Function.update w.links row.marketID req.categoryIds }

/-- A creation succeeds where the image is in order, the contract has the market or takes it, and
neither the CLOB nor the database has it. -/
theorem createMarketv2_ok {now : Nat} {req : CreateMarketv2Request} :
    (∃ response, w.handle p (createMarketv2 p now req) = (.ok response, w')) ↔
      ∃ closesAt, closesAtOf p now req = .ok closesAt ∧
        checkImage p req.imgChunk req.imgFileName req.imgMimeType = .ok () ∧
        ∃ contractID w₁, w.handle p
          (createNewMarket p req.marketId req.statement req.net closesAt) =
            (.ok contractID, w₁) ∧ w₁.clob.bookOf req.marketId = none ∧
          ∃ id, Insertable p w₁ req id (s3Url p req.imgFileName) contractID closesAt ∧
            req.categoryIds.all w₁.categories.contains = true ∧
            w' = w₁.withMarket req
              { req.record id (s3Url p req.imgFileName) contractID closesAt with
              createdAt := some w₁.clock } := by
  constructor
  · rintro ⟨response, h⟩
    simp only [createMarketv2, Stores.handle, Program.handle_attempt_ok, Program.handle_andThen_ok,
      Program.handle_named_ok] at h
    obtain ⟨closesAt, hcloses, url, w₀, hsave, contractID, w₁, hchain, _, w₂, hclob, row, w₃, hrow,
      categoryIds, w₄, hlinks, price, w₅, hprice, hret⟩ := h
    obtain ⟨himage, rfl, rfl⟩ := saveImageToS3_ok.mp hsave
    obtain ⟨hbook, rfl⟩ := (serve_createMarketOnClob_ok (p := p)).mp hclob
    obtain ⟨id, hinsert, rfl, rfl⟩ := createMarketRow_ok.mp hrow
    obtain ⟨id', hid', hknown, rfl, rfl⟩ := setCategoriesForMarket_ok.mp hlinks
    have hsame : id' = id := by
      have := hid'.symm.trans hinsert.parses
      exact Except.ok.inj this
    subst hsame
    cases hprice
    cases hret
    exact ⟨closesAt, hcloses, himage, contractID, w₁, hchain, hbook, id', ⟨hinsert.parses,
      hinsert.net, hinsert.contract, hinsert.new, hinsert.fits⟩, hknown, rfl⟩
  · rintro ⟨closesAt, hcloses, himage, contractID, w₁, hchain, hbook, id, hinsert, hknown, rfl⟩
    simp only [createMarketv2, Stores.handle, Program.handle_attempt_ok, Program.handle_andThen_ok,
      Program.handle_named_ok]
    refine ⟨_, closesAt, hcloses, _, w, saveImageToS3_ok.mpr ⟨himage, rfl, rfl⟩,
      contractID, w₁, hchain,
      (), _, (serve_createMarketOnClob_ok (p := p)).mpr ⟨hbook, rfl⟩, _, _,
        createMarketRow_ok.mpr ⟨id, ⟨hinsert.parses,
      hinsert.net, hinsert.contract, hinsert.new, hinsert.fits⟩, rfl, rfl⟩, _, _,
      setCategoriesForMarket_ok.mpr ⟨id, hinsert.parses, hknown, rfl, rfl⟩, _, _, rfl, rfl⟩

/-- A resolution succeeds where the row is there, the contract has the outcome or takes it, and the
CLOB has the book. -/
theorem resolveMarket_ok {marketId : Str} {outcome : Int} :
    (∃ done, w.handle p (resolveMarket p marketId outcome) = (.ok done, w')) ↔
      ∃ id row, p.uuid.parse marketId = .ok id ∧ w.markets.find id = some row ∧
        row.deletedAt = none ∧
        ∃ w₁, w.handle p (resolveMarketOnChain p row.net marketId row.smartContractID outcome) =
            (.ok (), w₁) ∧ w₁.clob.bookOf marketId ≠ none ∧
          (∃ topicID, p.hcsTopic row.net = .ok topicID) ∧
          w' = { w₁.recordOutcome id outcome with clob := w₁.clob.closeMarket marketId } := by
  constructor
  · rintro ⟨done, h⟩
    simp only [resolveMarket, Stores.handle, Program.handle_attempt_ok, Program.handle_andThen_ok,
      Program.handle_named_ok, mapError_ok_iff, resolveMarketRow, logMarketResolvedEvent] at h
    obtain ⟨row, w₀, ⟨id, hid, hget⟩, _, w₁, hchain, isOK, w₂, ⟨id', hid', _, w₃, hresolve, hok⟩, _,
      hflag, _, w₄, hclose, _, w₅, ⟨topicID, htopic, hpublish⟩, hret⟩ := h
    obtain ⟨hfind, hlive, rfl⟩ := (serve_getMarketById_ok (p := p)).mp hget
    have hsame : id' = id := Except.ok.inj (hid'.symm.trans hid)
    subst hsame
    cases hresolve
    cases hok
    obtain ⟨hbook, rfl⟩ := (serve_closeMarketOnClob_ok (p := p)).mp hclose
    cases hpublish
    cases hret
    exact ⟨id', row, hid, hfind, hlive, w₁, hchain, hbook, ⟨topicID, htopic⟩, rfl⟩
  · rintro ⟨id, row, hid, hfind, hlive, w₁, hchain, hbook, ⟨topicID, htopic⟩, rfl⟩
    simp only [resolveMarket, Stores.handle, Program.handle_attempt_ok, Program.handle_andThen_ok,
      Program.handle_named_ok, mapError_ok_iff, resolveMarketRow, logMarketResolvedEvent]
    exact ⟨true, row, w, ⟨id, hid, (serve_getMarketById_ok (p := p)).mpr ⟨hfind, hlive, rfl⟩⟩, (),
      w₁, hchain, true,
      _, ⟨id, hid, (), _, rfl, rfl⟩, (), rfl, (), _,
        (serve_closeMarketOnClob_ok (p := p)).mpr ⟨hbook, rfl⟩, (), _,
      ⟨topicID, htopic, rfl⟩, rfl⟩

/-! ## What requests leave as it is -/

theorem Stores.Executes.keeps {net contractID : Str} {function : Call}
    (h : w.Executes p net contractID function w') : w'.clob = w.clob ∧ w'.markets = w.markets ∧
      w'.categories = w.categories ∧ w'.clock = w.clock := by
  obtain ⟨s, _, _, rfl⟩ := h
  exact ⟨rfl, rfl, rfl, rfl⟩

theorem serve_executeAdminCall {net contractID : Str} {function : Call} :
    (w.serve p (.executeAdminCall net contractID function)).2 = w ∨
      w.Executes p net contractID function
        (w.serve p (.executeAdminCall net contractID function)).2 := by
  simp only [Stores.serve]
  split
  · split
    · next s event hexec => exact Or.inr ⟨s, event, hexec, rfl⟩
    · exact Or.inl rfl
  · exact Or.inl rfl

theorem serve_contracts {r : MarketRequest}
    (h : ∀ net contractID function, r ≠ .executeAdminCall net contractID function) :
    (w.serve p r).2.contracts = w.contracts ∧ (w.serve p r).2.executed = w.executed := by
  cases r with
  | executeAdminCall net contractID function => exact absurd rfl (h net contractID function)
  | putObject | getLatestPriceByMarket | publishHCSmessage | resolveMarket => exact ⟨rfl, rfl⟩
  | getMarketV2 | createMarketOnClob | closeMarketOnClob | createMarket | setCategoriesForMarket =>
      simp only [Stores.serve]
      split <;> exact ⟨rfl, rfl⟩
  | getMarketById =>
      simp only [Stores.serve]
      split
      · split <;> exact ⟨rfl, rfl⟩
      · exact ⟨rfl, rfl⟩

theorem serve_rows {r : MarketRequest} {marketID : Uint128} {row : MarketRecord}
    (h : w.markets.find marketID = some row) : ∃ row',
      (w.serve p r).2.markets.find marketID = some row' ∧ row'.net = row.net ∧
        row'.smartContractID = row.smartContractID := by
  have hsame (w' : Stores) (hw : w'.markets = w.markets) : ∃ row',
      w'.markets.find marketID = some row' ∧ row'.net = row.net ∧
        row'.smartContractID = row.smartContractID := ⟨row, hw ▸ h, rfl, rfl⟩
  cases r with
  | putObject | getLatestPriceByMarket | publishHCSmessage => exact hsame _ rfl
  | getMarketV2 | createMarketOnClob | closeMarketOnClob | setCategoriesForMarket =>
      simp only [Stores.serve]
      split <;> exact hsame _ rfl
  | executeAdminCall net contractID function =>
      rcases serve_executeAdminCall (p := p) (w := w) with hsame' | hexec
      · exact hsame _ (congrArg Stores.markets hsame')
      · exact hsame _ hexec.keeps.2.1
  | getMarketById =>
      simp only [Stores.serve]
      split
      · split <;> exact hsame _ rfl
      · exact hsame _ rfl
  | createMarket new =>
      simp only [Stores.serve]
      split
      · exact ⟨row, Table.find_insert h, rfl, rfl⟩
      · exact hsame _ rfl
  | resolveMarket marketID' outcome =>
      by_cases hid : marketID = marketID'
      · subst hid
        exact ⟨_, find_recordOutcome outcome h, rfl, rfl⟩
      · exact ⟨row, (find_recordOutcome_of_ne outcome hid).trans h, rfl, rfl⟩

end Success

end PrismBackend.Markets
