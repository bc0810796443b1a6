import OmocNode.Blockchain
import OmocNode.CoinPairLoop

/-! The end of a publication: the transaction is sent and waited for, and the
loop is told whether the price is out. -/

namespace OmocNode.Publishing
open BlockchainInfo Blockchain

/-- What the rest of `publish` is run with. `now` is the clock once the contract call has returned. -/
structure Setting where
  account : BlockchainAccount
  chain : BlockChain
  getCurrent : Awaited (Reply ℚ)
  tasksRunnerMinGas : Nat
  now : ℚ
  forceUpdate : Awaited Unit

structure BaseCoinPairService where
  lastPubAt : Option ℚ

abbrev PublishM := EStateM Raised BaseCoinPairService

def lift {α : Type} : Awaited α → PublishM α
  | .ok value => pure value
  | .error raised => throw raised

/-- `_publish`, of the service for prices or of that for tasks. Only the latter sets a gas limit. -/
def Setting.publishCall (setting : Setting) (call : CoinPairService.ContractCall) (lastGasPrice : Reply ℚ) : Awaited (Reply BCSuccess) :=
  let gas := if call.method = "runTasks" ∧ setting.tasksRunnerMinGas ≠ 0 then some setting.tasksRunnerMinGas else none
  setting.chain.bcExecute call (some setting.account) true lastGasPrice gas

/-- `BaseCoinPairService.publish` from `_publish` on. -/
def Setting.servicePublish (setting : Setting) (call : CoinPairService.ContractCall) (lastGasPrice : Reply ℚ) :
    PublishM (Reply BCSuccess) := do
  let ret ← lift (setting.publishCall call lastGasPrice)
  modify fun service => { service with lastPubAt := some setting.now }
  return ret

/-- The `try` of `publish`. The gas price is an argument of the contract call,
so it is read also where putting together the other arguments raises. -/
def Setting.send (setting : Setting) (call : Except PyError CoinPairService.ContractCall) : PublishM Bool := do
  let lastGasPrice ← lift (execWithCatch setting.chain.web3.str setting.getCurrent)
  match call with
  | .error err => throw (.exception err)
  | .ok call =>
    match ← setting.servicePublish call lastGasPrice with
    | .error _ => return false
    | .ok _ =>
      lift setting.forceUpdate
      return true

/-- Its `except` clauses. -/
def caught (body : PublishM Bool) : PublishM Bool :=
  tryCatch body fun
    | .cancelled => throw .cancelled
    | .exception _ => return false

def Setting.conclude (setting : Setting) : CoinPairLoop.Publication → PublishM Bool
  | .notEnoughSignatures _ _ | .tooCloseToExpiration => return false
  | .failed err => caught (setting.send (.error err))
  | .transaction call => caught (setting.send (.ok call))

/-- `OracleCoinPairLoop.publish`. -/
def publish (setting : Setting) (eth : EthAccount) (conf : OracleConfiguration) (debug : Bool) (network : CoinPairLoop.Network)
    (completed : List FullOracleRoundInfo) (now : Int) (oracles : List FullOracleRoundInfo) (params : PublishParams) :
    PublishM Bool :=
  match CoinPairLoop.publish eth setting.account conf debug network completed now oracles params with
  | .error err => throw (.exception err)
  | .ok publication => setting.conclude publication

end OmocNode.Publishing
