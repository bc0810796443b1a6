import OmocNode.Blockchain
import OmocNode.CoinPairLoop
import OmocNode.PyFloat

/-! A round of the loop that publishes on a coin pair: it refreshes the signal,
asks the contract for the round, and publishes if the runner says it is its turn. -/

namespace OmocNode

/-- `update`. An exception leaves what the fetch had changed before. -/
def Signal.update (answers : FetchAnswers) : Signal → Except PyError Unit × Signal
  | .disabled => (.ok (), .disabled)
  | .enabled service =>
    match ConditionalPublishService.syncFetch answers service with
    | .ok _ fetched => (.ok (), .enabled fetched)
    | .error err fetched => (.error err, .enabled fetched)

/-- The line that the loop logs about a turn names the state of the signal, which reads it once more. -/
def Signal.logged : Signal → Signal
  | .disabled => .disabled
  | .enabled service => .enabled service.offlineCfg.2

namespace CoinPairRunner

def isOracleTurn (runner : CoinPairRunner) (disableFallbacks : Bool) (time : PyFloat) (blockchainInfo : OracleBlockchainInfo)
    (oracleAddr : String) : CoinPairRunner × Option PriceWithTimestamp × Except PyError (Bool × Option (Bool × List String)) :=
  match runner.lastPrice time true with
  | .error err => (runner, none, .error err)
  | .ok none => (runner, none, .ok (false, none))
  | .ok (some exchangePrice) =>
    if exchangePrice.tsUtc.nonpositive then (runner, some exchangePrice, .ok (false, none))
    else
      match PriceOracleTurn.isOracleTurn disableFallbacks runner.conf.turn blockchainInfo oracleAddr (some exchangePrice)
        runner.oracleTurn with
      | .ok turn oracleTurn => ({ runner with oracleTurn }, some exchangePrice, .ok (true, some turn))
      | .error err oracleTurn => ({ runner with oracleTurn }, some exchangePrice, .error err)

/-- The price on the chain is divided too, but there an exception is caught. -/
def getPrePublishLog (exchangePrice : PriceWithTimestamp) : Except PyError Unit :=
  (PyFloat.divide exchangePrice.price (10 ^ 18)).map fun _ => ()

def logged (runner : CoinPairRunner) : CoinPairRunner :=
  { runner with oracleTurn := { runner.oracleTurn with signal := runner.oracleTurn.signal.logged } }

end CoinPairRunner

def TasksRunner.logged (runner : TasksRunner) : TasksRunner := { runner with signal := runner.signal.logged }

namespace LoopRounds
open BlockchainInfo Blockchain

/-- What a round finds outside the runner. The clock is read twice, as a float
for the price and as an integer for the expiration. -/
structure Setting where
  disableFallbacks : Bool
  oracleCoinPairLoopTaskInterval : Int
  roundInfo : Reply RoundInfo
  time : PyFloat
  now : Int

inductive Decision
  | wait
  | publish (oracles : List FullOracleRoundInfo) (params : PublishParams) (fallbackIndex : Option Nat)

def blockchainInfo : Runner → Option OracleBlockchainInfo
  | .coinPair runner => runner.blockchainInfo
  | .tasks runner => runner.blockchainInfo

def updateSignal (answers : FetchAnswers) : Runner → Except PyError Unit × Runner
  | .coinPair runner =>
    let (updated, signal) := runner.oracleTurn.signal.update answers
    (updated, .coinPair { runner with oracleTurn := { runner.oracleTurn with signal } })
  | .tasks runner =>
    let (updated, signal) := runner.signal.update answers
    (updated, .tasks { runner with signal })

variable (setting : Setting) (oracleAddr : String)

def proceed (blockchainInfo : OracleBlockchainInfo) (turn : Bool × List String) (params : PublishParams) : Decision :=
  if turn.1 then .publish blockchainInfo.selectedOracles params (turn.2.idxOf? oracleAddr) else .wait

def decisionPrice (runner : CoinPairRunner) (blockchainInfo : OracleBlockchainInfo) : Except PyError Decision × CoinPairRunner :=
  let (runner, exchangePrice, answer) := runner.isOracleTurn setting.disableFallbacks setting.time blockchainInfo oracleAddr
  match answer, exchangePrice with
  | .error err, _ => (.error err, runner)
  | .ok (true, some turn), some exchangePrice =>
    ((CoinPairRunner.getPrePublishLog exchangePrice).map fun () => proceed oracleAddr blockchainInfo turn
      (.price (runner.preparePublishParams setting.now exchangePrice blockchainInfo oracleAddr)), runner.logged)
  | .ok _, _ => (.ok .wait, runner)

def decisionTask (runner : TasksRunner) (blockchainInfo : OracleBlockchainInfo) : Except PyError Decision × TasksRunner :=
  let (runner, tasksFlags, answer) := runner.isOracleTurn setting.disableFallbacks blockchainInfo oracleAddr
  match answer with
  | .error err => (.error err, runner)
  | .ok (true, some turn) =>
    (.ok (proceed oracleAddr blockchainInfo turn (.task (runner.preparePublishParams tasksFlags blockchainInfo oracleAddr))),
      runner.logged)
  | .ok _ => (.ok .wait, runner)

/-- `run` from the answer about the round to the call of `publish`. -/
def decision (runner : Runner) : Except PyError Decision × Runner :=
  match setting.roundInfo, blockchainInfo runner with
  | .error _, _ | .ok _, none => (.ok .wait, runner)
  | .ok roundInfo, some blockchainInfo =>
    if roundInfo.round = 0 then (.ok .wait, runner)
    else
      match runner with
      | .coinPair runner => (decisionPrice setting oracleAddr runner blockchainInfo).map id .coinPair
      | .tasks runner => (decisionTask setting oracleAddr runner blockchainInfo).map id .tasks

/-- The delay `run` returns; it comes back sooner where publishing has failed. -/
def conclude (publish : List FullOracleRoundInfo → PublishParams → Awaited Bool) : Decision → Awaited Int
  | .wait => .ok setting.oracleCoinPairLoopTaskInterval
  | .publish oracles params _ =>
    (publish oracles params).map fun success => if success then setting.oracleCoinPairLoopTaskInterval else 1

/-- `run`, where nothing else of the node happens while it waits. -/
def run (answers : FetchAnswers) (publish : List FullOracleRoundInfo → PublishParams → Awaited Bool) (runner : Runner) :
    Awaited Int × Runner :=
  match updateSignal answers runner with
  | (.error err, runner) => (.error (.exception err), runner)
  | (.ok (), runner) =>
    match decision setting oracleAddr runner with
    | (.error err, runner) => (.error (.exception err), runner)
    | (.ok decision, runner) => (conclude setting publish decision, runner)

end LoopRounds
end OmocNode
