import Mathlib.Logic.Basic

/-!
# CLOB: orders and matches

The protobuf messages of the CLOB, field by field. A string is the list of its
characters. Numbers are natural numbers; the sizes the code gives them are
stated where a computation could leave them.
-/

namespace PrismBackend.Clob

abbrev Str := List Char

/-- `trim_start_matches("0x")`: the prefix is removed as often as it occurs. -/
def trimStart0x : Str → Str
  | '0' :: 'x' :: rest => trimStart0x rest
  | s => s

def toAsciiLowercase (s : Str) : Str := s.map Char.toLower

def eqIgnoreAsciiCase (s t : Str) : Bool := toAsciiLowercase s == toAsciiLowercase t

structure CreateOrderRequestClob where
  txId : Str
  net : Str
  marketId : Str
  accountId : Str
  sig : Str
  publicKey : Str
  evmAddress : Str
  keyType : Int
  chainId : Nat
  verifyingContract : Str
  side : Nat
  action : Nat
  limitYesPrice : Nat
  qtyShares : Nat
  collateralCap : Nat
  deadline : Nat
  sharesFilled : Nat
  collateralFilled : Nat
  deriving DecidableEq, Repr

structure ClobMatch where
  marketId : Str
  bid : Option CreateOrderRequestClob
  ask : Option CreateOrderRequestClob
  fillShares : Nat
  executionYesPrice : Nat
  yesCollateral : Nat
  noCollateral : Nat
  deriving DecidableEq, Repr

end PrismBackend.Clob
