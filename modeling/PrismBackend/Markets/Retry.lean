import PrismBackend.Markets.Attempts

/-!
# Markets: trying again

A retry is an attempt that is served to its end. When it completes, after any
attempts before it, and when it cannot.
-/

namespace PrismBackend.Markets

open PrismBackend.Lib PrismBackend.Clob
open PrismBackend.PrismV2 (Uint128 MarketState Market Call)
open PrismBackend.Api (Platform text isValidNetwork)
open Program (request attempt andThen named)

/-! ## Where a retry completes -/

section Retriable

variable (p : MarketPlatform) (place : Place)

/-- The market is in the database exactly as on chain, and has its book while it is open. -/
def MarketOp.Settled (w : Stores) : MarketOp → Prop
  | .create req => (w.market place).state = .open ∧
      w.statement place = textBytes req.statement ∧ w.clob.bookOf req.marketId ≠ none ∧
      ∃ row, w.markets.find place.marketID = some row ∧ row.net = place.net ∧
        row.smartContractID = place.contractID ∧ row.statement = trimSpace req.statement ∧
        unix row.closesAt = (w.market place).closeTime ∧ row.resolvedAt = none ∧
        row.outcome = none ∧ row.deletedAt = none
  | .resolve marketId outcome => targetState outcome = .ok (w.market place).state ∧
      w.clob.bookOf marketId = none ∧
      ∃ row, w.markets.find place.marketID = some row ∧ row.resolvedAt ≠ none ∧
        row.outcome = some outcome

/-- A retry completes, without a second submission, and settles the market. -/
def MarketOp.Retried (w : Stores) (op : MarketOp) : Prop :=
  ∃ reply w', w.handle p (op.program p w.clock) = (.ok reply, w') ∧ op.Settled place w' ∧
    op.steps place w' ≤ 1

/-- What a creation needs, whether or not it was tried before. -/
structure CreateInOrder (w : Stores) (req : CreateMarketv2Request) (closesAt : Int) : Prop where
  closes : closesAtOf p w.clock req = .ok closesAt
  image : checkImage p req.imgChunk req.imgFileName req.imgMimeType = .ok ()
  net : isValidNetwork place.net = true
  contract : ∃ account, p.accountIDFromString place.contractID = .ok account
  fits : (req.record place.marketID (s3Url p req.imgFileName) place.contractID closesAt).fits = true
  categories : req.categoryIds.all w.categories.contains = true

/-- What a resolution needs, whether or not it was tried before. -/
structure ResolveInOrder (w : Stores) (outcome : Int) (want : MarketState) : Prop where
  outcome : targetState outcome = .ok want
  net : isValidNetwork place.net = true
  topic : ∃ topicID, p.hcsTopic place.net = .ok topicID
  row : ∃ row, w.markets.find place.marketID = some row ∧ row.deletedAt = none

def Stores.Takes (w : Stores) (function : Call) : Prop :=
  ∃ w', w.Executes p place.net place.contractID function w'

/-- A creation can be completed: the contract has the market with the time of the request, or takes
it, and neither the CLOB nor the database has the market. A resolution can be completed: the
contract has the outcome or takes it, and the CLOB has the book. -/
def MarketOp.Retriable (w : Stores) : MarketOp → Prop
  | .create req => ∃ closesAt, CreateInOrder p place w req closesAt ∧
      (((w.market place).state = .open ∧ (w.market place).closeTime = unix closesAt) ∨
        ((w.market place).state = .uninitialized ∧ (uint64 (unix closesAt) : Int) = unix closesAt ∧
          uuid7ToBigint req.marketId = .ok place.marketID ∧
          w.Takes p place (.createMarket place.marketID (textBytes req.statement)
            (uint64 (unix closesAt))))) ∧
      w.clob.bookOf req.marketId = none ∧ w.markets.find place.marketID = none
  | .resolve marketId outcome => ∃ want, ResolveInOrder p place w outcome want ∧
      ((w.market place).state = want ∨ (uuid7ToBigint marketId = .ok place.marketID ∧
        w.Takes p place (outcomeCall place.marketID outcome))) ∧
      w.clob.bookOf marketId ≠ none

variable {p place} {w w' : Stores}

theorem isValidNetwork_lowercase {net : Str} (h : isValidNetwork net = true) :
    toAsciiLowercase net = net := by
  obtain ⟨name, hmem, heq⟩ := List.any_eq_true.mp h
  rw [← beq_iff_eq.mp heq]
  simp only [List.mem_cons, List.not_mem_nil, or_false] at hmem
  rcases hmem with rfl | rfl | rfl <;> decide

theorem bookOf_setBook {clob : OrderBookService} {marketId : Str} {book : Option Book} :
    (clob.setBook marketId book).bookOf marketId = book := Function.update_self _ _ _

/-- The row that a creation leaves is the one of its request. -/
theorem withMarket_row {req : CreateMarketv2Request} {row row' : MarketRecord}
    (hnew : w.markets.find row.marketID = none)
    (hfind : (w.withMarket req row).markets.find row.marketID = some row') : row' = row := by
  have hself : (w.markets.insert row).find row.marketID = some row := Table.find_insert_self hnew
  exact Option.some.inj (hfind.symm.trans hself)

theorem executes_createMarket {statement : PrismV2.Bytes} {closeTime : Nat} {marketIdBig : Uint128}
    (h : w.Executes p place.net place.contractID
      (.createMarket marketIdBig statement closeTime) w') :
    (marketIdBig = place.marketID ∧ (w'.market place).closeTime = closeTime ∧
        (w'.market place).state = .open) ∨
      (marketIdBig ≠ place.marketID ∧ w'.market place = w.market place) := by
  obtain ⟨s, event, hexec, rfl⟩ := h
  obtain ⟨_, rfl⟩ := exec_createMarket hexec
  rw [market_executes]
  by_cases hid : marketIdBig = place.marketID
  · subst hid
    exact Or.inl ⟨rfl, congrArg Market.closeTime setMarket_self,
      congrArg Market.state setMarket_self⟩
  · exact Or.inr ⟨hid, Function.update_of_ne (Ne.symm hid) _ _⟩

theorem create_retried_iff {req : CreateMarketv2Request}
    (hnames : (MarketOp.create req).Names p place) (honce : (MarketOp.create req).Once place w) :
    (MarketOp.create req).Retried p place w ↔ (MarketOp.create req).Retriable p place w := by
  obtain ⟨hplaceNet, hid, cfg, hcfg, hcontract⟩ := hnames
  constructor
  · rintro ⟨reply, w', hhandle, hsettled, _⟩
    obtain ⟨closesAt, hcloses, himage, contractID, w₁, hchain, hbook, id, hinsert, hknown, rfl⟩ :=
      createMarketv2_ok.mp ⟨reply, hhandle⟩
    obtain ⟨cfg', hcfg', id', hid', hnet, rfl, hcase⟩ := createNewMarket_ok.mp hchain
    cases hcfg.symm.trans hcfg'
    cases hid.symm.trans hid'
    cases hid.symm.trans hinsert.parses
    rw [hcontract, hplaceNet] at hcase
    obtain ⟨hopen, _, _, row, hfind, _, _, _, hunix, _⟩ := hsettled
    rw [withMarket_row hinsert.new hfind] at hunix
    have horder (hw : w₁.categories = w.categories) : CreateInOrder p place w req closesAt :=
      ⟨hcloses, himage, hplaceNet ▸ hnet, hcontract ▸ hinsert.contract, hcontract ▸ hinsert.fits,
        hw ▸ hknown⟩
    rcases hcase with ⟨hstate, rfl⟩ | ⟨hstate, marketIdBig, hbig, hexec⟩
    · exact ⟨closesAt, horder rfl, Or.inl ⟨hstate, hunix.symm⟩, hbook, hinsert.new⟩
    · obtain ⟨hclob, hmarkets, hcategories, _⟩ := hexec.keeps
      rcases executes_createMarket hexec with ⟨rfl, hclose, _⟩ | ⟨_, hsame⟩
      · have hexact : unix closesAt = ((w₁.market place).closeTime : Int) := hunix
        rw [hclose] at hexact
        exact ⟨closesAt, horder hcategories, Or.inr ⟨hstate, hexact.symm, hbig, w₁, hexec⟩,
          hclob ▸ hbook, hmarkets ▸ hinsert.new⟩
      · have hstill : (w₁.market place).state = .open := hopen
        rw [hsame] at hstill
        exact absurd (hstill.symm.trans hstate) (by decide)
  · rintro ⟨closesAt, horder, hchain, hbook, hnew⟩
    obtain ⟨w₁, hstep, honce₁, hopen, hclose, hclob, hmarkets, hcategories⟩ : ∃ w₁,
        w.handle p (createNewMarket p req.marketId req.statement req.net closesAt) =
          (.ok cfg.contractID, w₁) ∧ (MarketOp.create req).Once place w₁ ∧
        (w₁.market place).state = .open ∧ ((w₁.market place).closeTime : Int) = unix closesAt ∧
        w₁.clob = w.clob ∧ w₁.markets = w.markets ∧ w₁.categories = w.categories := by
      have hnet : isValidNetwork req.net = true := hplaceNet ▸ horder.net
      rcases hchain with ⟨hopen, hclose⟩ | ⟨hstate, hexact, hbig, w₁, hexec⟩
      · refine ⟨w, createNewMarket_ok.mpr ⟨cfg, hcfg, place.marketID, hid, hnet, rfl,
          Or.inl ⟨?_, rfl⟩⟩, honce, hopen, hclose, rfl, rfl, rfl⟩
        rw [hplaceNet, hcontract]
        exact hopen
      · obtain ⟨hclob, hmarkets, hcategories, _⟩ := hexec.keeps
        have honce₁ := honce.executes ⟨place.marketID, _, rfl⟩ hexec
        rcases executes_createMarket hexec with ⟨_, hclose, hopen⟩ | ⟨hne, _⟩
        · refine ⟨w₁, createNewMarket_ok.mpr ⟨cfg, hcfg, place.marketID, hid, hnet, rfl,
            Or.inr ⟨?_, place.marketID, hbig, ?_⟩⟩, honce₁, hopen, hclose ▸ hexact, hclob, hmarkets,
            hcategories⟩
          · rw [hplaceNet, hcontract]
            exact hstate
          · rw [hplaceNet, hcontract]
            exact hexec
        · exact absurd rfl hne
    have hinsert : Insertable p w₁ req place.marketID (s3Url p req.imgFileName) cfg.contractID
        closesAt := by
      refine ⟨hid, ?_, hcontract ▸ horder.contract, hmarkets ▸ hnew, hcontract ▸ horder.fits⟩
      rw [hplaceNet, isValidNetwork_lowercase horder.net]
      exact horder.net
    obtain ⟨reply, hreply⟩ := createMarketv2_ok.mpr ⟨closesAt, horder.closes, horder.image,
      cfg.contractID, w₁, hstep, hclob ▸ hbook, place.marketID, hinsert,
        hcategories ▸ horder.categories,
      rfl⟩
    have hpast : w₁.statement place = textBytes req.statement ∧
        (MarketOp.create req).steps place w₁ ≤ 1 := by
      rcases honce₁ with ⟨hpending, _⟩ | ⟨⟨_, hstatement⟩, hsteps⟩
      · exact absurd (hopen.symm.trans hpending) (by decide)
      · exact ⟨hstatement, hsteps⟩
    refine ⟨reply, _, hreply, ⟨hopen, hpast.1, ?_, ?_⟩, hpast.2⟩
    · show (w₁.clob.setBook req.marketId (some ⟨[], []⟩)).bookOf req.marketId ≠ none
      rw [bookOf_setBook]
      exact Option.some_ne_none _
    · refine ⟨_, Table.find_insert_self hinsert.new, ?_, hcontract, rfl, hclose.symm, rfl, rfl, rfl⟩
      show toAsciiLowercase req.net = place.net
      rw [hplaceNet, isValidNetwork_lowercase horder.net]

theorem resolveMarketOnChain_place {marketId contractIdStr : Str} {outcome : Int}
    {want : MarketState} (hid : p.uuid.parse marketId = .ok place.marketID)
    (hcontract : p.contractIDFromString contractIdStr = .ok place.contractID)
    (hwant : targetState outcome = .ok want) {u : Unit} :
    w.handle p (resolveMarketOnChain p place.net marketId contractIdStr outcome) = (.ok u, w') ↔
      isValidNetwork place.net = true ∧ (((w.market place).state = want ∧ w' = w) ∨
        ((w.market place).state ≠ want ∧ ∃ marketIdBig,
          uuid7ToBigint marketId = .ok marketIdBig ∧
          w.Executes p place.net place.contractID (outcomeCall marketIdBig outcome) w')) := by
  rw [resolveMarketOnChain_ok]
  constructor
  · rintro ⟨contractId, hcontract', id, hid', want', hwant', hrest⟩
    cases hcontract.symm.trans hcontract'
    cases hid.symm.trans hid'
    cases hwant.symm.trans hwant'
    exact hrest
  · intro hrest
    exact ⟨place.contractID, hcontract, place.marketID, hid, want, hwant, hrest⟩

theorem executes_outcomeCall {outcome : Int} {want : MarketState} {marketIdBig : Uint128}
    (hwant : targetState outcome = .ok want)
    (h : w.Executes p place.net place.contractID (outcomeCall marketIdBig outcome) w') :
    (marketIdBig = place.marketID ∧ (w'.market place).state = want) ∨
      (marketIdBig ≠ place.marketID ∧ w'.market place = w.market place) := by
  obtain ⟨s, event, hexec, rfl⟩ := h
  obtain ⟨_, rfl⟩ := exec_outcomeCall hwant hexec
  rw [market_executes]
  by_cases hid : marketIdBig = place.marketID
  · subst hid
    exact Or.inl ⟨rfl, congrArg Market.state setMarket_self⟩
  · exact Or.inr ⟨hid, Function.update_of_ne (Ne.symm hid) _ _⟩

theorem resolve_retried_iff {marketId : Str} {outcome : Int}
    (hnames : (MarketOp.resolve marketId outcome).Names p place)
    (hrecorded : (MarketOp.resolve marketId outcome).Recorded p place w)
    (honce : (MarketOp.resolve marketId outcome).Once place w) :
    (MarketOp.resolve marketId outcome).Retried p place w ↔
      (MarketOp.resolve marketId outcome).Retriable p place w := by
  have hid : p.uuid.parse marketId = .ok place.marketID := hnames
  obtain ⟨row, hrow, hnet, hcontract⟩ := hrecorded
  constructor
  · rintro ⟨reply, w', hhandle, ⟨hwant, _⟩, _⟩
    obtain ⟨id, row', hid', hrow', hlive, w₁, hchain, hbook, htopic, rfl⟩ :=
      resolveMarket_ok.mp ⟨reply, hhandle⟩
    cases hid.symm.trans hid'
    cases hrow.symm.trans hrow'
    rw [hnet] at hchain htopic
    have hstate : targetState outcome = .ok (w₁.market place).state := hwant
    obtain ⟨hvalid, hcase⟩ := (resolveMarketOnChain_place hid hcontract hstate).mp hchain
    have horder : ResolveInOrder p place w outcome (w₁.market place).state :=
      ⟨hstate, hvalid, htopic, row, hrow, hlive⟩
    rcases hcase with ⟨hdone, rfl⟩ | ⟨hundone, marketIdBig, hbig, hexec⟩
    · exact ⟨_, horder, Or.inl hdone, hbook⟩
    · obtain ⟨hclob, _⟩ := hexec.keeps
      rcases executes_outcomeCall hstate hexec with ⟨rfl, _⟩ | ⟨_, hsame⟩
      · exact ⟨_, horder, Or.inr ⟨hbig, w₁, hexec⟩, hclob ▸ hbook⟩
      · exact absurd (congrArg Market.state hsame).symm hundone
  · rintro ⟨want, ⟨hwant, hvalid, htopic, row', hrow', hlive⟩, hchain, hbook⟩
    cases hrow.symm.trans hrow'
    obtain ⟨w₁, hstep, honce₁, hstate, hclob, hmarkets⟩ : ∃ w₁,
        w.handle p (resolveMarketOnChain p place.net marketId row.smartContractID outcome) =
          (.ok (), w₁) ∧ (MarketOp.resolve marketId outcome).Once place w₁ ∧
        (w₁.market place).state = want ∧ w₁.clob = w.clob ∧ w₁.markets = w.markets := by
      by_cases hdone : (w.market place).state = want
      · exact ⟨w, (resolveMarketOnChain_place hid hcontract hwant).mpr
          ⟨hvalid, Or.inl ⟨hdone, rfl⟩⟩, honce, hdone, rfl, rfl⟩
      · rcases hchain with hdone' | ⟨hbig, w₁, hexec⟩
        · exact absurd hdone' hdone
        · obtain ⟨hclob, hmarkets, _⟩ := hexec.keeps
          have honce₁ := honce.executes ⟨place.marketID, want, hwant, rfl⟩ hexec
          rcases executes_outcomeCall hwant hexec with ⟨_, hstate⟩ | ⟨hne, _⟩
          · exact ⟨w₁, (resolveMarketOnChain_place hid hcontract hwant).mpr
              ⟨hvalid, Or.inr ⟨hdone, place.marketID, hbig, hexec⟩⟩, honce₁, hstate,
                hclob, hmarkets⟩
          · exact absurd rfl hne
    obtain ⟨reply, hreply⟩ := resolveMarket_ok.mpr ⟨place.marketID, row, hid, hrow, hlive, w₁,
      hnet ▸ hstep, hclob ▸ hbook, hnet ▸ htopic, rfl⟩
    refine ⟨reply, _, hreply, ⟨?_, ?_, ?_⟩, honce₁.steps_le⟩
    · rw [← hstate] at hwant
      exact hwant
    · show (w₁.clob.setBook marketId none).bookOf marketId = none
      exact bookOf_setBook
    · have hrow₁ : w₁.markets.find place.marketID = some row := hmarkets ▸ hrow
      exact ⟨_, find_recordOutcome outcome hrow₁, Option.some_ne_none _, rfl⟩

/-- After any attempts, a retry completes exactly where what it would do is still to be done in the
CLOB and the database. -/
theorem retried_iff {op : MarketOp} (hfresh : op.Fresh p place w) (events : List MarketEvent)
    (hruns : (attempts p place op).Runs (fun _ _ => True) ⟨w, none⟩ events) :
    op.Retried p place ((attempts p place op).run ⟨w, none⟩ events).stores ↔
      op.Retriable p place ((attempts p place op).run ⟨w, none⟩ events).stores := by
  have hgood := good_of_run hfresh.names hfresh.good hruns
  cases op with
  | create req => exact create_retried_iff hfresh.names hgood.once
  | resolve marketId outcome => exact resolve_retried_iff hfresh.names hgood.recorded hgood.once

end Retriable

/-! ## Two markets -/

section Replies

variable (p : MarketPlatform) {op : MarketOp}

/-- The requests of an attempt are carried out and answered, one after another. -/
def Attempts.served (s : Attempts op) : Nat → List MarketEvent
  | 0 => []
  | count + 1 =>
    let e := MarketEvent.serve (fun r => (s.stores.serve p r).1) true
    e :: (s.next p e).served count

variable {p} {place : Place}

theorem honest_serve (w : Stores) (r : MarketRequest) :
    w.Honest p r (w.serve p r).1 true := by
  cases r with
  | getMarketV2 net contractID marketID =>
      intro market hanswer
      by_cases hnet : isValidNetwork net = true
      · rw [serve_getMarketV2 hnet] at hanswer
        exact Or.inl (Except.ok.inj hanswer).symm
      · rw [serve_getMarketV2_invalid hnet] at hanswer
        cases hanswer
  | _ => exact Or.inl ⟨rfl, rfl⟩

theorem runs_served (s : Attempts op) (count : Nat) :
    (attempts p place op).Runs (fun _ _ => True) s (s.served p count) := by
  induction count generalizing s with
  | zero => trivial
  | succ count ih => exact ⟨fun r _ _ => honest_serve s.stores r, trivial, ih _⟩

end Replies

def sampleCloses : Str := "2026-01-01T00:00:00.000Z".toList

def samplePlatform : MarketPlatform where
  uuid := Api.sampleUuid
  keccak256 := id
  getPrismV2Network := fun net => .ok ⟨net, "0.0.5001".toList, [], 296⟩
  collateralUnitScale := .ok 1000000
  signatureMap := fun _ => .ok []
  jetStream := Api.sampleStream
  s3BucketName := "images".toList
  s3awsRegion := "us-east-1".toList
  parseTime := fun s => if s = sampleCloses then .ok 1767225600000 else .error "cannot parse"
  accountIDFromString := .ok
  contractIDFromString := .ok
  hcsTopic := fun _ => .ok "0.0.6001".toList
  chain := PrismV2.sampleChain
  signer := PrismV2.sampleEnv 1 0

def sampleRequest : CreateMarketv2Request where
  marketId := "01890f3e-7c10-7cc1-98bc-0242ac120002".toList
  net := "testnet".toList
  statement := "Will it rain?".toList
  closesAt := some sampleCloses
  description := []
  rules := []
  categoryIds := [1]
  imgChunk := [1]
  imgFileName := "rain.png".toList
  imgMimeType := "image/png".toList
  aliasYes := none
  aliasNo := none
  hexColorYes := none
  hexColorNo := none
  isLomEnabled := none

def samplePlace : Place :=
  ⟨"testnet".toList, "0.0.5001".toList, 0x01890f3e7c107cc198bc0242ac120002⟩

def sampleStores : Stores where
  contracts := fun _ => { PrismV2.State.blank (fun _ => 0) with owner := 1, oracle := 1 }
  clob := .new
  markets := .empty
  categories := [1]
  links := fun _ => []
  prices := fun _ => none
  clock := 1750000000000
  executed := []

def sampleCreate : MarketOp := .create sampleRequest

def sampleCreation (count : Nat) : List MarketEvent :=
  .start :: (⟨sampleStores, some (sampleCreate.program samplePlatform sampleStores.clock)⟩ :
    Attempts sampleCreate).served samplePlatform count

theorem sampleCreate_fresh : sampleCreate.Fresh samplePlatform samplePlace sampleStores :=
  ⟨⟨rfl, by decide +kernel, _, rfl, rfl⟩, trivial, rfl, rfl⟩

theorem sampleCreation_runs (count : Nat) : (attempts samplePlatform samplePlace sampleCreate).Runs
    (fun _ _ => True) ⟨sampleStores, none⟩ (sampleCreation count) :=
  ⟨trivial, trivial, runs_served _ count⟩

/-- The API crashes after the market was created in the contract; the retry completes. -/
theorem retried_iff_sample : sampleCreate.Retried samplePlatform samplePlace
    ((attempts samplePlatform samplePlace sampleCreate).run ⟨sampleStores, none⟩
      (sampleCreation 3 ++ [.crash])).stores := by
  have hruns : (attempts samplePlatform samplePlace sampleCreate).Runs (fun _ _ => True)
      ⟨sampleStores, none⟩ (sampleCreation 3 ++ [.crash]) :=
    System.runs_append.mpr ⟨sampleCreation_runs 3, trivial, trivial, trivial⟩
  refine (retried_iff sampleCreate_fresh _ hruns).mpr ⟨1767225600000,
    ⟨?_, ?_, ?_, ⟨_, rfl⟩, ?_, ?_⟩,
    Or.inl ⟨?_, ?_⟩, Option.isNone_iff_eq_none.mp ?_, Option.isNone_iff_eq_none.mp ?_⟩
  all_goals decide +kernel

def sampleOpened : Stores :=
  { (sampleStores.handle samplePlatform
      (createMarketv2 samplePlatform sampleStores.clock sampleRequest)).2 with
    clock := 1767225601000, executed := [] }

def sampleResolve : MarketOp := .resolve sampleRequest.marketId 1

def sampleResolution (count : Nat) : List MarketEvent :=
  .start :: (⟨sampleOpened, some (sampleResolve.program samplePlatform sampleOpened.clock)⟩ :
    Attempts sampleResolve).served samplePlatform count

theorem sampleResolve_fresh : sampleResolve.Fresh samplePlatform samplePlace sampleOpened := by
  have hid : samplePlatform.uuid.parse sampleRequest.marketId = .ok samplePlace.marketID := by
    decide +kernel
  have hlive : isLive (sampleOpened.market samplePlace).state = true := by decide +kernel
  refine ⟨hid, ?_, hlive, rfl⟩
  have hrow : (sampleOpened.markets.find samplePlace.marketID).map
      (fun row => (row.net, row.smartContractID)) =
      some (samplePlace.net, samplePlace.contractID) := by decide +kernel
  obtain ⟨row, hfind, hplace⟩ := Option.map_eq_some_iff.mp hrow
  obtain ⟨hnet, hcontract⟩ := Prod.mk.inj hplace
  exact ⟨row, hfind, hnet, congrArg Except.ok hcontract⟩

theorem takes_of_isOk {p : MarketPlatform} {place : Place} {w : Stores} {function : Call}
    (h : (PrismV2.exec p.chain ⟨w.env p, function⟩
      (w.contracts (place.net, place.contractID))).isOk = true) : w.Takes p place function := by
  cases hexec : PrismV2.exec p.chain ⟨w.env p, function⟩
      (w.contracts (place.net, place.contractID)) with
  | ok result => exact ⟨_, result.1, result.2, hexec, rfl⟩
  | error err =>
      rw [hexec] at h
      cases h

theorem sampleCreate_first : sampleCreate.Retried samplePlatform samplePlace sampleStores := by
  have hfresh := sampleCreate_fresh
  refine (create_retried_iff hfresh.names (Or.inl ⟨hfresh.pending, hfresh.steps⟩)).mpr
    ⟨1767225600000, ⟨?_, ?_, ?_, ⟨_, rfl⟩, ?_, ?_⟩,
      Or.inr ⟨rfl, ?_, ?_, takes_of_isOk ?_⟩, rfl, rfl⟩
  all_goals decide +kernel

theorem sampleResolve_first : sampleResolve.Retried samplePlatform samplePlace sampleOpened := by
  have hfresh := sampleResolve_fresh
  have hlive : ((sampleOpened.markets.find samplePlace.marketID).map (·.deletedAt)) =
    some none := by
    decide +kernel
  have hbook : (sampleOpened.clob.bookOf sampleRequest.marketId).isSome = true := by decide +kernel
  refine (resolve_retried_iff hfresh.names hfresh.recorded
    (Or.inl ⟨hfresh.pending, hfresh.steps⟩)).mpr ⟨.resolvedYes, ⟨rfl, by decide, ⟨_, rfl⟩,
      Option.map_eq_some_iff.mp hlive⟩, Or.inr ⟨by decide +kernel, takes_of_isOk ?_⟩,
      Option.isSome_iff_ne_none.mp hbook⟩
  decide +kernel

def refused : MarketEvent := .serve (fun _ => .error "connection refused") false

theorem honest_refused (w : Stores) (p : MarketPlatform) (r : MarketRequest) :
    w.Honest p r (.error "connection refused") false := by
  cases r with
  | getMarketV2 => exact fun market hanswer => absurd hanswer (by simp)
  | _ => exact Or.inr ⟨_, rfl⟩

theorem not_retried_of_error {p : MarketPlatform} {op : MarketOp} {place : Place} {w : Stores}
    (h : (w.handle p (op.program p w.clock)).1.isOk = false) : ¬op.Retried p place w := by
  rintro ⟨reply, w', hhandle, _⟩
  rw [hhandle] at h
  cases h

/-- Both operations would have completed, fail at one request, and cannot be completed then. The
row of a new market is refused once the CLOB has its book; the event of a resolved market is
refused once the CLOB has closed it. -/
theorem not_retriable :
    (sampleCreate.Fresh samplePlatform samplePlace sampleStores ∧
      sampleCreate.Retried samplePlatform samplePlace sampleStores ∧
      (attempts samplePlatform samplePlace sampleCreate).Runs (fun _ _ => True)
        ⟨sampleStores, none⟩ (sampleCreation 4 ++ [refused]) ∧
      ¬sampleCreate.Retried samplePlatform samplePlace
        ((attempts samplePlatform samplePlace sampleCreate).run ⟨sampleStores, none⟩
          (sampleCreation 4 ++ [refused])).stores) ∧
    (sampleResolve.Fresh samplePlatform samplePlace sampleOpened ∧
      sampleResolve.Retried samplePlatform samplePlace sampleOpened ∧
      (attempts samplePlatform samplePlace sampleResolve).Runs (fun _ _ => True)
        ⟨sampleOpened, none⟩ (sampleResolution 5 ++ [refused]) ∧
      ¬sampleResolve.Retried samplePlatform samplePlace
        ((attempts samplePlatform samplePlace sampleResolve).run ⟨sampleOpened, none⟩
          (sampleResolution 5 ++ [refused])).stores) := by
  refine ⟨⟨sampleCreate_fresh, sampleCreate_first, ?_, ?_⟩, sampleResolve_fresh,
    sampleResolve_first, ?_, ?_⟩
  · exact System.runs_append.mpr ⟨sampleCreation_runs 4,
      fun r _ _ => honest_refused _ _ r, trivial, trivial⟩
  · exact not_retried_of_error (by decide +kernel)
  · exact System.runs_append.mpr ⟨⟨trivial, trivial, runs_served _ 5⟩,
      fun r _ _ => honest_refused _ _ r, trivial, trivial⟩
  · exact not_retried_of_error (by decide +kernel)

end PrismBackend.Markets
