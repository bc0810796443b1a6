import OmocNode.Dict
import OmocNode.OracleService
import OmocNode.OracleTurn

/-! The loop that gives every coin pair its own tasks. Each round compares the
pairs it runs with those that the contract says to run. -/

namespace OmocNode
open BlockchainInfo

inductive BgCall
  | start
  | stop
  deriving DecidableEq

/-- `calls` is what has been asked of the executor so far, oldest first. -/
structure BgTaskExecutor where
  name : String
  task : Bool
  cancel : Bool
  calls : List BgCall
  deriving DecidableEq

namespace BgTaskExecutor

def init (name : String) : BgTaskExecutor := ⟨name, false, false, []⟩

def startBgTask (executor : BgTaskExecutor) : BgTaskExecutor :=
  { executor with task := true, calls := executor.calls ++ [.start] }

def stopBgTask (executor : BgTaskExecutor) : BgTaskExecutor :=
  { executor with task := false, cancel := true, calls := executor.calls ++ [.stop] }

end BgTaskExecutor

/-- One entry of `exchanges.json` under a coin pair, where a field may be missing. -/
structure PriceOption where
  name : Option String
  ponderation : ℚ
  minVolume : Option ℚ
  maxDelay : Option ℚ

structure PriceEngine where
  name : String
  ponderation : ℚ
  minVolume : ℚ
  maxDelay : ℚ
  deriving DecidableEq

/-- What the tasks of a coin pair are built from. `environment` raises where a
parameter of the pair has a value that its cast refuses. -/
structure Settings where
  oracleRun : Bool
  oraclePriceEngines : String → Option (List PriceOption)
  engineNames : List String
  environment : String → Except PyError Environment
  firstFetch : String → FetchAnswers

inductive LoopRunner
  | coinPair (engines : List PriceEngine) (oracleTurn : PriceOracleTurn)
  | tasks (signal : Signal)

structure OracleLoopTasks where
  coinPairService : OracleCoinPairService
  tasks : List BgTaskExecutor
  runner : LoopRunner

namespace OracleLoopTasks

def start (entry : OracleLoopTasks) : OracleLoopTasks := { entry with tasks := entry.tasks.map BgTaskExecutor.startBgTask }

def stop (entry : OracleLoopTasks) : OracleLoopTasks := { entry with tasks := entry.tasks.map BgTaskExecutor.stopBgTask }

end OracleLoopTasks

namespace Settings

def ofKey {α : Type} : Option α → Except PyError α
  | some value => .ok value
  | none => .error .keyError

def addEngine (settings : Settings) (option : PriceOption) : Except PyError PriceEngine := do
  let name ← ofKey option.name
  if !settings.engineNames.contains name then
    throw (.exception "The engine price name not in the available list")
  return { name, ponderation := option.ponderation, minVolume := ← ofKey option.minVolume, maxDelay := ← ofKey option.maxDelay }

/-- `PriceFeederLoop.__init__`, which looks the pair up among the exchanges. -/
def priceFeederLoop (settings : Settings) (coinPair : CoinPair) : Except PyError (List PriceEngine) := do
  let options ← ofKey (settings.oraclePriceEngines coinPair.cp)
  options.mapM settings.addEngine

/-- `SyncCreate`, with the first fetch of the signal. -/
def signalService (settings : Settings) (coinPair : CoinPair) : Except PyError Signal := do
  let env ← settings.environment coinPair.cp
  Signal.syncCreate env (settings.firstFetch coinPair.cp)

/-- What `add_coin_pair` builds for a service before it stores it. -/
def construct (settings : Settings) (service : OracleCoinPairService) : Except PyError OracleLoopTasks :=
  let blLoop := BgTaskExecutor.init "OracleBlockchainInfoLoop"
  let cpLoop := BgTaskExecutor.init ("OracleCoinPairLoop-" ++ service.coinPair.cp)
  match service.coinPairType with
  | .coinPair => do
    let engines ← settings.priceFeederLoop service.coinPair
    let signal ← settings.signalService service.coinPair
    return { coinPairService := service, tasks := [.init "PriceFeederLoop", blLoop, cpLoop]
             runner := .coinPair engines (.init service.coinPair signal) }
  | .tasksRunner => do
    let signal ← settings.signalService service.coinPair
    return { coinPairService := service, tasks := [blLoop, cpLoop], runner := .tasks signal }

end Settings

/-- `stopped` keeps the entries that have been taken out of the map, whose tasks are all that is left of them. -/
structure OracleLoop where
  cpMap : Dict String OracleLoopTasks
  stopped : List (String × OracleLoopTasks)

namespace OracleLoop

abbrev LoopM := EStateM PyError OracleLoop

def init : OracleLoop := ⟨.empty, []⟩

def lift {α : Type} : Except PyError α → LoopM α
  | .ok value => pure value
  | .error failure => throw failure

def deleteCoinPair (cpKey : String) : LoopM Unit := do
  match (← get).cpMap.get? cpKey with
  | none => throw .keyError
  | some old =>
    modify fun loop => { cpMap := loop.cpMap.erase cpKey, stopped := loop.stopped ++ [(cpKey, old.stop)] }

/-- Without `ORACLE_RUN` there is nothing to build, to store or to start. -/
def addCoinPair (settings : Settings) (service : OracleCoinPairService) : LoopM Unit := do
  if settings.oracleRun then
    let entry ← lift (settings.construct service)
    modify fun loop => { loop with cpMap := loop.cpMap.set service.coinPair.cp entry.start }

/-- The pairs to run, by name. Of two services of one name the later one counts. -/
def cpServices (services : List OracleCoinPairService) : Dict String OracleCoinPairService :=
  Dict.ofList (services.map fun x => (x.coinPair.cp, x))

/-- `run`, once it has the services of the oracle and those of its owner. One
list alone cannot be added to an error value. -/
def reconcile (settings : Settings) : Reply (List OracleCoinPairService) → Reply (List OracleCoinPairService) → LoopM Unit
  | .error _, .error _ => pure ()
  | .error _, .ok _ | .ok _, .error _ => throw .typeError
  | .ok cpServ1, .ok cpServ2 => do
    let services := cpServices (cpServ1 ++ cpServ2)
    ((← get).cpMap.keys.filter fun key => !services.keys.contains key).forM deleteCoinPair
    let running := (← get).cpMap.keys
    ((services.entries.filter fun entry => !running.contains entry.1).map Prod.snd).forM (addCoinPair settings)

/-- One round. The contract is asked for the services of the oracle, and again for those of its owner. -/
def run (settings : Settings) (filter : List String) (oracleAddr : String) (owner : Reply String)
    (ofOracle ofOwner : OracleManagerService) : LoopM Unit := do
  let cpServ1 ← lift (OracleService.getSubscribedCoinPairServices ofOracle filter (.ok oracleAddr))
  let cpServ2 ← lift (OracleService.getSubscribedCoinPairServices ofOwner filter owner)
  reconcile settings cpServ1 cpServ2

end OracleLoop
end OmocNode
