import OmocNode.Python

/-! The records the node exchanges with the contracts and with its own loops. -/

namespace OmocNode

/-- `0x` and forty hexadecimal digits, the form in which web3 returns addresses. -/
def isHexAddress (text : String) : Bool :=
  match text.toList with
  | '0' :: 'x' :: digits => digits.length == 40 && digits.all fun c => (c.toNat < 128) && (Python.digitValue 16 c).isSome
  | _ => false

/-- An address read from a contract. Two texts that differ in letter case only
are different strings to the node but one account. -/
structure Address where
  text : String
  wellFormed : isHexAddress text = true
  deriving DecidableEq

/-- The twenty bytes as a number, `int(addr, 16)`. -/
def Address.number (address : Address) : Int := (Python.int 16 address.text).getD 0

structure CoinPair where
  cp : String
  deriving DecidableEq, Repr

namespace CoinPair

/-- `shorter` drops trailing NULs; on nothing but NULs it indexes an empty string. -/
def make (cp : String) : Except PyError CoinPair :=
  match cp.toList.reverse.dropWhile (· = '\x00') with
  | [] => .error .indexError
  | kept => .ok ⟨String.ofList kept.reverse⟩

def longer (pair : CoinPair) : Except PyError Bytes :=
  (Python.encodeAscii pair.cp).map (Python.ljust 32)

def isTasksRunner (pair : CoinPair) : Bool := "task".toList.isPrefixOf (pair.cp.toList.map Char.toLower)

end CoinPair

structure PriceWithTimestamp where
  price : Int
  tsUtc : PyFloat
  deriving DecidableEq

structure OracleRegistrationInfo where
  addr : Address
  internetName : String
  stake : Nat
  owner : Address
  deriving DecidableEq

structure OracleRoundInfo where
  points : Nat
  selectedInCurrentRound : Bool
  selectedInRound : Nat
  deriving DecidableEq

structure RoundInfo where
  round : Nat
  startBlock : Nat
  lockPeriodTimestamp : Nat
  totalPoints : Nat
  selectedOwners : List Address
  selectedOracles : List Address
  deriving DecidableEq

structure FullOracleRoundInfo where
  addr : Address
  internetName : String
  stake : Nat
  owner : Address
  points : Nat
  selectedInCurrentRound : Bool
  selectedInRound : Nat
  deriving DecidableEq

/-- The fields of an `OracleBlockchainInfo`, over the type of its block hash. -/
structure BlockchainInfoOf (Hash : Type) where
  coinPair : CoinPair
  selectedOracles : List FullOracleRoundInfo
  blockchainPrice : Int
  blockNum : Int
  lastPubBlock : Int
  lastPubBlockHash : Hash
  validPricePeriodInBlocks : Int
  deriving DecidableEq

abbrev OracleBlockchainInfo := BlockchainInfoOf Bytes

end OmocNode
