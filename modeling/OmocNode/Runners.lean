import OmocNode.RequestValidation

/-! The two kinds of coin pair a node serves: pairs with a price, and pairs that
run tasks. Each validates the sign requests for its pair and prepares its own. -/

namespace OmocNode

structure OracleConfiguration where
  turn : OracleTurnConfiguration
  oraclePriceRejectDeltaPct : ℚ
  priceSignatureExpirationSeconds : Int
  priceSignatureMinValiditySeconds : Int
  priceSignatureMaxValiditySeconds : Int
  taskMessageVersion : Int

/-- `lastPrice` answers as the price feeder does, for a time and whether the
price is to be published, and `blockchainInfo` is what the loop has read last. -/
structure CoinPairRunner where
  conf : OracleConfiguration
  coinPair : CoinPair
  lastPrice : (targetTimeUtc : PyFloat) → (toPublish : Bool) → Except PyError (Option PriceWithTimestamp)
  blockchainInfo : Option OracleBlockchainInfo
  oracleTurn : PriceOracleTurn

namespace CoinPairRunner

def preparePublishParams (runner : CoinPairRunner) (now : Int) (exchangePrice : PriceWithTimestamp)
    (blockchainInfo : OracleBlockchainInfo) (oracleAddr : String) : PublishPriceParams :=
  PublishPriceParams.make expiringPriceMessageVersion runner.coinPair exchangePrice oracleAddr blockchainInfo.lastPubBlock
    (some (now + runner.conf.priceSignatureExpirationSeconds))

def createValidator (runner : CoinPairRunner) : PublishParams → Except PyError PriceRequestValidation
  | .task _ => .error (.attributeError "price_ts_utc")
  | .price params => do
    let exchangePrice ← runner.lastPrice params.priceTsUtc false
    return { oraclePriceRejectDeltaPct := runner.conf.oraclePriceRejectDeltaPct
             params
             turnConfiguration := runner.conf.turn
             exchangePrice
             blockchainInfo := runner.blockchainInfo
             minExpirationValidity := runner.conf.priceSignatureMinValiditySeconds
             maxExpirationValidity := some runner.conf.priceSignatureMaxValiditySeconds }

end CoinPairRunner

/-- The three fields before the last are what the tasks contract answers. -/
structure TasksRunner where
  conf : OracleConfiguration
  coinPair : CoinPair
  signal : Signal
  lastBlockWhenAvailable : Option Int
  ignorePossiblyStuckTasks : List String
  areTasksAvailable : Bool
  tasksAvailableAsFlags : Int
  tasksAvailable : List Address
  blockchainInfo : Option OracleBlockchainInfo

namespace TasksRunner

def zeroAddress : String := "0x0000000000000000000000000000000000000000"

def getAvailableTasksState (runner : TasksRunner) : Bool × Int :=
  if runner.areTasksAvailable && !runner.ignorePossiblyStuckTasks.isEmpty then
    -- The contract leaves zero addresses for unavailable tasks.
    let availableTasks := (runner.tasksAvailable.map (·.text.toLower)).filter (· ≠ zeroAddress)
    if !availableTasks.isEmpty && availableTasks.all (runner.ignorePossiblyStuckTasks.contains ·) then (false, 0)
    else (runner.areTasksAvailable, runner.tasksAvailableAsFlags)
  else (runner.areTasksAvailable, runner.tasksAvailableAsFlags)

/-- A round of the node's own loop: the runner after it, the flags it keeps for
the message, and the answer, with whose turn it is if there are tasks. -/
def isOracleTurn (runner : TasksRunner) (disableFallbacks : Bool) (blockchainInfo : OracleBlockchainInfo) (oracleAddr : String) :
    TasksRunner × Int × Except PyError (Bool × Option (Bool × List String)) :=
  let (areTasksAvailable, tasksFlags) := runner.getAvailableTasksState
  if !areTasksAvailable then ({ runner with lastBlockWhenAvailable := none }, tasksFlags, .ok (false, none))
  else
    -- The block 0, with which the runner starts, counts as none.
    let since := (runner.lastBlockWhenAvailable.filter (· ≠ 0)).getD blockchainInfo.blockNum
    ({ runner with lastBlockWhenAvailable := some since }, tasksFlags,
      (TasksOracleTurn.isOracleTurn disableFallbacks runner.conf.turn blockchainInfo oracleAddr true (some since)).map
        fun turn => (true, some turn))

def preparePublishParams (runner : TasksRunner) (tasksFlags : Int) (blockchainInfo : OracleBlockchainInfo) (oracleAddr : String) :
    PublishTaskParams :=
  { version := runner.conf.taskMessageVersion, coinPair := runner.coinPair, tasksFlags, oracleAddr
    lastPubBlock := blockchainInfo.lastPubBlock }

def createValidator (runner : TasksRunner) (params : PublishParams) : TaskRequestValidation :=
  let (areTasksAvailable, tasksFlags) := runner.getAvailableTasksState
  { params, turnConfiguration := runner.conf.turn, areTasksAvailable
    lastBlockWhenAvailable := runner.lastBlockWhenAvailable, tasksFlags, blockchainInfo := runner.blockchainInfo }

end TasksRunner

inductive Runner
  | coinPair (runner : CoinPairRunner)
  | tasks (runner : TasksRunner)

end OmocNode
