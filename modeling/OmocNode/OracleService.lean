import OmocNode.BlockchainInfo

/-! Which coin pairs a node serves: those registered at the manager contract to
which its oracle, or the owner of its oracle, is subscribed. -/

namespace OmocNode
open BlockchainInfo

inductive CoinPairServiceType
  | coinPair
  | tasksRunner
  deriving DecidableEq

structure OracleCoinPairService where
  coinPair : CoinPair
  addr : Address
  coinPairType : CoinPairServiceType
  deriving DecidableEq

/-- What the manager contract answers while one list of pairs is put together.
The calls about a pair of the list have its position, as a pair may be
registered twice and the answers need not agree. -/
structure OracleManagerService where
  getCoinPairCount : Reply Nat
  getCoinPairAtIndex : Nat → Reply Bytes
  getContractAddress : (position : Nat) → (coinPair : Bytes) → Reply Address
  isSubscribed : (position : Nat) → (address : Reply String) → (coinPair : Bytes) → Reply Bool

namespace OracleManagerService

/-- The loop over the indices, which the first error value ends. -/
def coinPairsAt (manager : OracleManagerService) : List Nat → Except PyError (Reply (List CoinPair))
  | [] => .ok (.ok [])
  | index :: indices =>
    match manager.getCoinPairAtIndex index with
    | .error err => .ok (.error err)
    | .ok data => do
      let coinPair ← CoinPair.make (← Python.decodeAscii data)
      return (← manager.coinPairsAt indices).map (coinPair :: ·)

def getAllCoinPair (manager : OracleManagerService) : Except PyError (Reply (List CoinPair)) :=
  match manager.getCoinPairCount with
  | .error err => .ok (.error err)
  | .ok count => manager.coinPairsAt (List.range count)

/-- `is_subscribed`. The address may itself be an error value, that of a failed
`get_oracle_owner`. -/
def askSubscribed (manager : OracleManagerService) (position : Nat) (coinPair : CoinPair) (addr : Reply String) :
    Except PyError (Reply Bool) :=
  coinPair.longer.map (manager.isSubscribed position addr)

end OracleManagerService

/-- The truth value of an awaited answer. An error value is a tuple with fields, and so is true. -/
def BlockchainInfo.Reply.truthy : Reply Bool → Bool
  | .ok answer => answer
  | .error _ => true

namespace OracleService

def getCoinPairService (manager : OracleManagerService) (position : Nat) (coinPair : CoinPair) :
    Except PyError (Reply OracleCoinPairService) := do
  let pair ← coinPair.longer
  return (manager.getContractAddress position pair).map fun addr =>
    { coinPair, addr, coinPairType := if coinPair.isTasksRunner then .tasksRunner else .coinPair }

/-- The loop over the pairs and their positions, which the first error value ends. -/
def coinPairServices (manager : OracleManagerService) : List (CoinPair × Nat) → Except PyError (Reply (List OracleCoinPairService))
  | [] => .ok (.ok [])
  | (coinPair, position) :: coinPairs => do
    match ← getCoinPairService manager position coinPair with
    | .error err => return .error err
    | .ok service => return (← coinPairServices manager coinPairs).map (service :: ·)

/-- `ORACLE_COIN_PAIR_FILTER`, which lets every pair pass when it is empty. -/
def applyFilter (filter : List String) (services : List OracleCoinPairService) : List OracleCoinPairService :=
  if filter.length ≠ 0 then services.filter fun x => filter.contains x.coinPair.cp else services

def getAllCoinPairServices (manager : OracleManagerService) (filter : List String) :
    Except PyError (Reply (List OracleCoinPairService)) := do
  match ← manager.getAllCoinPair with
  | .error err => return .error err
  | .ok coinPairs => return (← coinPairServices manager coinPairs.zipIdx).map (applyFilter filter)

/-- The loop over the services and their positions. The answer is tested for truth, not for error. -/
def subscribedServices (manager : OracleManagerService) (addr : Reply String) :
    List (OracleCoinPairService × Nat) → Except PyError (List OracleCoinPairService)
  | [] => .ok []
  | (x, position) :: services => do
    let answer ← manager.askSubscribed position x.coinPair addr
    let later ← subscribedServices manager addr services
    return if answer.truthy then x :: later else later

def getSubscribedCoinPairServices (manager : OracleManagerService) (filter : List String) (addr : Reply String) :
    Except PyError (Reply (List OracleCoinPairService)) := do
  match ← getAllCoinPairServices manager filter with
  | .error err => return .error err
  | .ok ret => return .ok (← subscribedServices manager addr ret.zipIdx)

end OracleService
end OmocNode
