import OmocNode.Runners

/-! What reaches the tasks runner of a node over time: the rounds of the node's
own loop, and the sign requests of other oracles. Only the first move the block
from which the runner counts. -/

namespace OmocNode.TaskEvents

/-- What the tasks contract answers. -/
structure TasksState where
  areTasksAvailable : Bool
  tasksAvailableAsFlags : Int
  tasksAvailable : List Address

inductive Event
  | poll (tasks : TasksState) (blockchainInfo : OracleBlockchainInfo) (oracleAddr : String)
  | request (tasks : TasksState) (blockchainInfo : Option OracleBlockchainInfo) (params : PublishTaskParams)

/-- The runner when it counts from `since` and finds these tasks and this chain. -/
def facing (runner : TasksRunner) (since : Option Int) (tasks : TasksState) (blockchainInfo : Option OracleBlockchainInfo) :
    TasksRunner :=
  { runner with
    lastBlockWhenAvailable := since, areTasksAvailable := tasks.areTasksAvailable
    tasksAvailableAsFlags := tasks.tasksAvailableAsFlags, tasksAvailable := tasks.tasksAvailable, blockchainInfo }

/-- `_last_block_when_available` as the constructor sets it. -/
def initialBlock : Option Int := some 0

variable (runner : TasksRunner) (disableFallbacks : Bool)

def observe (since : Option Int) : Event → Option Int
  | .poll tasks blockchainInfo oracleAddr =>
    ((facing runner since tasks blockchainInfo).isOracleTurn disableFallbacks blockchainInfo oracleAddr).1.lastBlockWhenAvailable
  | .request _ _ _ => since

/-- `_last_block_when_available` after the node has run. -/
def lastBlockAfter (events : List Event) : Option Int := events.foldl (observe runner disableFallbacks) initialBlock

/-- What the node's loop answers on a poll after these events. -/
def pollAnswer (events : List Event) (tasks : TasksState) (blockchainInfo : OracleBlockchainInfo) (oracleAddr : String) :
    Except PyError (Bool × Option (Bool × List String)) :=
  ((facing runner (lastBlockAfter runner disableFallbacks events) tasks blockchainInfo).isOracleTurn disableFallbacks
    blockchainInfo oracleAddr).2.2

/-- The validator the node makes for a request after these events. -/
def requestValidator (events : List Event) (tasks : TasksState) (blockchainInfo : Option OracleBlockchainInfo)
    (params : PublishTaskParams) : TaskRequestValidation :=
  (facing runner (lastBlockAfter runner disableFallbacks events) tasks blockchainInfo).createValidator (.task params)

end OmocNode.TaskEvents
