import PrismBackend.Clob.Service
import PrismBackend.Lib.Table

/-!
# Events: messages

The message that a poller publishes for a contract log, and the row that the API
stores of it. Messages are taken as values; their text enters only through its
digest.
-/

namespace PrismBackend.Events

open PrismBackend.Lib PrismBackend.Clob

/-- A decoded log; the network has the lower case of a `LedgerId`. -/
structure ContractLog where
  net : Str
  contractId : Str
  event : Str
  args : List (Str × Str)
  timestamp : Str
  txHash : Str
  net_lowercase : toAsciiLowercase net = net
  deriving DecidableEq

/-- The payload of a message, less its constant type. -/
structure Evt where
  net : Str
  event : Str
  args : List (Str × Str)
  timestamp : Str
  txHash : Str
  host : Str
  deriving DecidableEq

structure Message where
  contractId : Str
  evt : Evt
  deriving DecidableEq

def ContractLog.evt (log : ContractLog) (host : Str) : Evt where
  net := log.net
  event := log.event
  args := log.args
  timestamp := log.timestamp
  txHash := log.txHash
  host

def ContractLog.message (log : ContractLog) (host : Str) : Message := ⟨log.contractId, log.evt host⟩

/-- The network, as the subject of the message has it. -/
def Message.network (message : Message) : Str := toAsciiLowercase message.evt.net

def Message.subject (message : Message) : Str := message.network ++ ':' :: message.contractId

/-- `JSON.stringify` and the digest. -/
structure Encoding where
  stringify : Evt → Str
  md5 : Str → Str

namespace Encoding

variable (encoding : Encoding)

def dedupeKey (evt : Evt) : Str := encoding.md5 (encoding.stringify evt)

/-- The key of the stored row: the subject and the body. -/
def md5uniq (message : Message) : Str :=
  encoding.md5 (message.subject ++ encoding.stringify message.evt)

end Encoding

/-- A row of `smart_contract_events_v2`. -/
structure SmartContractEventV2 where
  net : Str
  contractID : Str
  event : Str
  args : List (Str × Str)
  txHash : Str
  eventTimestamp : Str
  host : Option Str
  md5uniq : Str
  deriving DecidableEq

abbrev EventRows := Table SmartContractEventV2 Str fun row => row.md5uniq

def Message.row (encoding : Encoding) (message : Message) : SmartContractEventV2 where
  net := message.network
  contractID := message.contractId
  event := message.evt.event
  args := message.evt.args
  txHash := message.evt.txHash
  eventTimestamp := message.evt.timestamp
  host := if message.evt.host = [] then none else some message.evt.host
  md5uniq := encoding.md5uniq message

/-- `GetPrismV2Network`: the contract of a valid network that has one. -/
abbrev PrismV2Networks := Str → Option Str

/-- The messages that go to `handlePrismV2Event`. -/
def Message.isPrismV2 (networks : PrismV2Networks) (message : Message) : Bool :=
  networks message.network == some message.contractId

/-- The values of the fields one after another, and a digest that leaves texts as they are. -/
def sampleEncoding : Encoding where
  stringify evt := evt.net ++ '"' :: evt.event ++ '"' :: evt.timestamp ++ '"' :: evt.txHash ++
    '"' :: evt.host ++ '"' :: evt.args.flatMap fun arg => arg.1 ++ '"' :: arg.2 ++ ['"']
  md5 := fun text => text

end PrismBackend.Events
