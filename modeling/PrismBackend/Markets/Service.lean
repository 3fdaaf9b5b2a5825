import PrismBackend.Api.Creation
import PrismBackend.Clob.Service
import PrismBackend.PrismV2.Runs

/-!
# Markets: the service

`CreateMarketv2` and `ResolveMarket` of `markets.go`, with the functions of
`hedera.go` and of the repositories that they call. Everything outside the
service is asked for in a request.
-/

namespace PrismBackend.Markets

open PrismBackend.Lib PrismBackend.Clob
open PrismBackend.PrismV2 (Uint128 MarketState Market Call)
open PrismBackend.Api (Platform text isValidNetwork marketStateText uuidDigits)
open Program (request attempt andThen named)

/-! ## Rows and requests -/

/-- A row of the table `markets`, with times in milliseconds. -/
structure MarketRecord where
  marketID : Uint128
  net : Str
  statement : Str
  imageUrl : Option Str
  smartContractID : Str
  closesAt : Int
  description : Str
  rules : Option Str
  isPaused : Bool
  isSuspended : Bool
  createdAt : Option Nat
  resolvedAt : Option Nat
  outcome : Option Int
  deletedAt : Option Nat
  aliasYes : Option Str
  aliasNo : Option Str
  hexColorYes : Option Str
  hexColorNo : Option Str
  isLomEnabled : Bool

structure CreateMarketv2Request where
  marketId : Str
  net : Str
  statement : Str
  closesAt : Option Str
  description : Str
  rules : Str
  categoryIds : List Int
  imgChunk : PrismV2.Bytes
  imgFileName : Str
  imgMimeType : Str
  aliasYes : Option Str
  aliasNo : Option Str
  hexColorYes : Option Str
  hexColorNo : Option Str
  isLomEnabled : Option Bool

/-- What is configured, and what the standard library and the SDK read: a time in milliseconds, an
account and a contract. The API signs its calls of the contract with its own key. -/
structure MarketPlatform extends Platform where
  s3BucketName : Str
  s3awsRegion : Str
  parseTime : Str → Except String Int
  accountIDFromString : Str → Except String Str
  contractIDFromString : Str → Except String Str
  hcsTopic : Str → Except String Str
  chain : PrismV2.Chain
  signer : PrismV2.Env

inductive MarketRequest
  | putObject (bucket key : Str) (body : PrismV2.Bytes) (contentType : Str)
  | getMarketV2 (net contractID : Str) (marketID : Uint128)
  | executeAdminCall (net contractID : Str) (function : Call)
  | createMarketOnClob (marketId : Str)
  | closeMarketOnClob (marketId : Str)
  | createMarket (record : MarketRecord)
  | setCategoriesForMarket (marketID : Uint128) (categoryIds : List Int)
  | getLatestPriceByMarket (marketID : Uint128)
  | getMarketById (marketID : Uint128) (isAdmin : Bool)
  | resolveMarket (marketID : Uint128) (outcome : Int)
  | publishHCSmessage (net topicID : Str) (message : String)

/-- The rows that a request returns; every request may fail. -/
abbrev MarketRequest.Value : MarketRequest → Type
  | .getMarketV2 _ _ _ => Market
  | .createMarket _ | .getMarketById _ _ => MarketRecord
  | .getLatestPriceByMarket _ => Str
  | _ => Unit

abbrev MarketRequest.Answer (r : MarketRequest) : Type := Except String r.Value

abbrev MarketM := Program MarketRequest MarketRequest.Answer

/-! ## Texts, times and numbers -/

/-- `unicode.IsSpace`. -/
def isSpace (ch : Char) : Bool :=
  ['\t', '\n', '\x0b', '\x0c', '\r', ' ', '\u0085', '\u00a0', '\u1680', '\u2028', '\u2029',
    '\u202f', '\u205f', '\u3000'].contains ch || ('\u2000' ≤ ch && ch ≤ '\u200a')

/-- `strings.TrimSpace`. -/
def trimSpace (s : Str) : Str := ((s.dropWhile isSpace).reverse.dropWhile isSpace).reverse

/-- An empty text becomes NULL. -/
def nullString (s : Str) : Option Str := if s = [] then none else some s

def textBytes (s : Str) : PrismV2.Bytes := (String.ofList s).toUTF8.toList

/-- `Unix`: the seconds of a time. -/
def unix (time : Int) : Int := time.fdiv 1000

def uint64 (n : Int) : Nat := (n % 2 ^ 64).toNat

def uuid7ToBigint (uuid7 : Str) : Except String Uint128 :=
  match hexNat (uuidDigits uuid7) with
  | some n => if h : n < 2 ^ 128 then .ok ⟨n, h⟩ else .error "failed to convert UUID7 to big.Int"
  | none => .error "failed to convert UUID7 to big.Int"

/-! ## The contract -/

section Program

variable (p : MarketPlatform)

/-- The transaction of `CreateNewMarket`. -/
def submitNewMarket (contractID marketId statement net : Str) (closesAt : Int) :
    MarketM (Except String Str) :=
  attempt ((uuid7ToBigint marketId).mapError
    ("failed to convert marketId to bigint: " ++ ·)) fun marketIdBig =>
  andThen (request (MarketRequest.executeAdminCall net contractID
    (.createMarket marketIdBig (textBytes statement) (uint64 (unix closesAt))))) fun _ =>
  .ret (.ok contractID)

/-- A market that is open already is not created again. -/
def createNewMarket (marketId statement net : Str) (closesAt : Int) :
    MarketM (Except String Str) :=
  attempt (p.getPrismV2Network net) fun cfg =>
  attempt ((p.uuid.parse marketId).mapError ("invalid marketId: " ++ ·)) fun id => do
    match ← request (MarketRequest.getMarketV2 net cfg.contractID id) with
    | .error _ => submitNewMarket cfg.contractID marketId statement net closesAt
    | .ok existing =>
      match existing.state with
      | .uninitialized => submitNewMarket cfg.contractID marketId statement net closesAt
      | .open => .ret (.ok cfg.contractID)
      | state => .ret (.error
        ("market " ++ text marketId ++ " already exists on PrismV2 in state " ++
          marketStateText state))

def targetState (outcome : Int) : Except String MarketState :=
  if outcome = 0 then .ok .resolvedNo
  else if outcome = 1 then .ok .resolvedYes
  else if outcome = 2 then .ok .void
  else .error ("unsupported outcome " ++ toString outcome)

def outcomeCall (marketID : Uint128) (outcome : Int) : Call :=
  if outcome = 2 then .voidMarket marketID else .resolveMarket marketID (outcome == 1)

/-- The transaction of `ResolveMarketOnChain`. -/
def submitOutcome (contractId marketId net : Str) (outcome : Int) : MarketM (Except String Unit) :=
  attempt ((uuid7ToBigint marketId).mapError
    ("failed to convert marketId to bigint: " ++ ·)) fun marketIdBig =>
  request (MarketRequest.executeAdminCall net contractId (outcomeCall marketIdBig outcome))

/-- An outcome that is recorded already is not recorded again. -/
def resolveMarketOnChain (net marketId contractIdStr : Str) (outcome : Int) :
    MarketM (Except String Unit) :=
  attempt ((p.contractIDFromString contractIdStr).mapError
    ("invalid contract ID in market record: " ++ ·)) fun contractId =>
  attempt ((p.uuid.parse marketId).mapError ("invalid marketId: " ++ ·)) fun id =>
  attempt (targetState outcome) fun want => do
    match ← request (MarketRequest.getMarketV2 net contractId id) with
    | .error _ => submitOutcome contractId marketId net outcome
    | .ok existing =>
      if existing.state = want then .ret (.ok ())
      else submitOutcome contractId marketId net outcome

def logMarketResolvedEvent (net marketId : Str) (outcome : Int) : MarketM (Except String Unit) :=
  attempt (p.hcsTopic net) fun topicID =>
  request (MarketRequest.publishHCSmessage net topicID
    ("Market resolved: " ++ text marketId ++ ", Outcome: " ++ toString outcome))

/-! ## The repositories -/

/-- The row of a new market; the request has texts and the table has NULLs. -/
def newMarketRecord (id : Uint128) (net imageUrl statement : Str) (closesAt : Int)
    (description rules smartContractId aliasYes aliasNo hexColorYes hexColorNo : Str)
    (isLomEnabled : Bool) : MarketRecord where
  marketID := id
  net
  statement := trimSpace statement
  imageUrl := nullString (trimSpace imageUrl)
  smartContractID := smartContractId
  closesAt
  description := trimSpace description
  rules := nullString (trimSpace rules)
  isPaused := false
  isSuspended := false
  createdAt := none
  resolvedAt := none
  outcome := none
  deletedAt := none
  aliasYes := nullString aliasYes
  aliasNo := nullString aliasNo
  hexColorYes := nullString hexColorYes
  hexColorNo := nullString hexColorNo
  isLomEnabled

/-- The row of a request; what is left out has its default. -/
def CreateMarketv2Request.record (req : CreateMarketv2Request) (id : Uint128)
    (imageUrl smartContractId : Str) (closesAt : Int) : MarketRecord :=
  newMarketRecord id (toAsciiLowercase req.net) imageUrl req.statement closesAt req.description
    req.rules smartContractId (req.aliasYes.getD []) (req.aliasNo.getD [])
    (req.hexColorYes.getD []) (req.hexColorNo.getD []) (req.isLomEnabled.getD true)

/-- `marketsRepository.CreateMarket`. -/
def createMarketRow (req : CreateMarketv2Request) (imageUrl smartContractId : Str)
    (closesAt : Int) : MarketM (Except String MarketRecord) :=
  attempt ((p.uuid.parse req.marketId).mapError ("invalid marketId uuid: " ++ ·)) fun marketUUID =>
  attempt (revertIf (isValidNetwork (toAsciiLowercase req.net) = false) "invalid network") fun _ =>
  attempt ((p.accountIDFromString smartContractId).mapError
    ("invalid smart contract ID: " ++ ·)) fun _ =>
  request (MarketRequest.createMarket (req.record marketUUID imageUrl smartContractId closesAt))

/-- `SetCategoriesForMarket`: the categories that the market has then. -/
def setCategoriesForMarket (marketId : Str) (categoryIds : List Int) :
    MarketM (Except String (List Int)) :=
  attempt ((p.uuid.parse marketId).mapError ("invalid marketId uuid: " ++ ·)) fun marketUUID =>
  andThen (request (MarketRequest.setCategoriesForMarket marketUUID categoryIds)) fun _ =>
  .ret (.ok categoryIds)

/-- `marketsRepository.ResolveMarket`. -/
def resolveMarketRow (marketId : Str) (outcome : Int) : MarketM (Except String Bool) :=
  attempt ((p.uuid.parse marketId).mapError ("invalid marketId uuid: " ++ ·)) fun marketUUID =>
  andThen (request (MarketRequest.resolveMarket marketUUID outcome)) fun _ => .ret (.ok true)

/-! ## The image -/

def regionRefused (ch : Char) : Bool := [' ', '/', '\\', '@', ':'].contains ch

def s3Url (fileName : Str) : Str :=
  "https://".toList ++ p.s3BucketName ++ ".s3.".toList ++ p.s3awsRegion ++
    ".amazonaws.com/".toList ++ fileName

/-- The checks of `SaveImageToS3`. -/
def checkImage (imageData : PrismV2.Bytes) (fileName mimeType : Str) : Except String Unit := do
  revertIf (imageData = []) "image data is empty"
  revertIf (fileName = []) "file name is empty"
  revertIf (mimeType = []) "MIME type is empty"
  revertIf (p.s3BucketName = []) "S3_BUCKET_NAME environment variable is not set"
  revertIf (p.s3awsRegion = []) "S3_AWS_REGION environment variable is not set or empty"
  revertIf (p.s3awsRegion.any regionRefused = true ∨ p.s3awsRegion.length < 5)
    "S3_AWS_REGION environment variable is not a valid region string"

def saveImageToS3 (imageData : PrismV2.Bytes) (fileName mimeType : Str) :
    MarketM (Except String Str) :=
  attempt (checkImage p imageData fileName mimeType) fun _ =>
  andThen (request (MarketRequest.putObject p.s3BucketName fileName imageData mimeType)) fun _ =>
  .ret (.ok (s3Url p fileName))

/-! ## The service -/

structure MarketResponse where
  market : MarketRecord
  priceUsd : Str
  categoryIds : List Int
  rakePercent : Nat

def buildMarketResponse (market : MarketRecord) (priceUsd : Str) (categoryIds : List Int) :
    Except String MarketResponse := do
  revertIf (market.createdAt = none) "invalid market: createdAt is null"
  .ok ⟨market, priceUsd, categoryIds, 2⟩

/-- Thirty days in milliseconds. -/
def defaultLifetime : Int := 30 * 24 * 60 * 60 * 1000

def closesAtOf (now : Nat) (req : CreateMarketv2Request) : Except String Int :=
  match req.closesAt with
  | none => .ok (now + defaultLifetime)
  | some closesAt =>
    if closesAt = [] then .ok (now + defaultLifetime)
    else (p.parseTime closesAt).mapError
      ("invalid closesAt time format (must be RFC3339): " ++ ·)

def createMarketv2 (now : Nat) (req : CreateMarketv2Request) :
    MarketM (Except String MarketResponse) :=
  attempt (closesAtOf p now req) fun closesAt =>
  andThen (named "failed to save image to S3: "
    (saveImageToS3 p req.imgChunk req.imgFileName req.imgMimeType)) fun imgUrl =>
  andThen (named ("failed to create new market (marketId=" ++ text req.marketId ++ ") on Hedera: ")
    (createNewMarket p req.marketId req.statement req.net closesAt)) fun contractID =>
  andThen (named ("failed to create new market (marketId=" ++ text req.marketId ++ ") on CLOB: ")
    (request (.createMarketOnClob req.marketId))) fun _ =>
  andThen (named ("failed to create a new market row (marketId=" ++ text req.marketId ++
    ") on the db: ") (createMarketRow p req imgUrl contractID closesAt)) fun market =>
  andThen (named ("failed to set categories for market " ++ text req.marketId ++ ": ")
    (setCategoriesForMarket p req.marketId req.categoryIds)) fun categoryIds =>
  andThen (named ("failed to get latest price for market " ++ p.idText market.marketID ++ ": ")
    (request (.getLatestPriceByMarket market.marketID))) fun priceUsd =>
  .ret (buildMarketResponse market priceUsd categoryIds)

def resolveMarket (marketId : Str) (outcome : Int) : MarketM (Except String Bool) :=
  andThen (named "failed to get market by id: "
    (attempt ((p.uuid.parse marketId).mapError ("invalid marketId uuid: " ++ ·)) fun marketUUID =>
      request (MarketRequest.getMarketById marketUUID true))) fun market =>
  andThen (named "failed to resolve market on chain: "
    (resolveMarketOnChain p market.net marketId market.smartContractID outcome)) fun _ =>
  andThen (named "failed to resolve market on db: "
    (resolveMarketRow p marketId outcome)) fun isOK =>
  attempt (revertIf (isOK = false) "failed to resolve market on db for unknown reasons") fun _ =>
  andThen (named "failed to resolve market on CLOB: "
    (request (.closeMarketOnClob marketId))) fun _ =>
  andThen (named "failed to log market resolved event on HCS: "
    (logMarketResolvedEvent p market.net marketId outcome)) fun _ =>
  .ret (.ok true)

end Program

end PrismBackend.Markets
