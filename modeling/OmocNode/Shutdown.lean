import OmocNode.DictIteration
import OmocNode.OracleLoop

/-! How the node stops. The main loop stops the tasks it started, one after the
other, and the oracle loop among them stops the tasks of every coin pair. -/

namespace OmocNode

/-- The loop of `stop_bg_task`, which takes the pairs out of the map it walks over. -/
def OracleLoop.deleteCoinPairs : OracleLoop.LoopM Unit := Dict.forKeys OracleLoop.cpMap OracleLoop.deleteCoinPair

/-- A task of the main loop. The oracle loop alone has a `stop_bg_task` of its own. -/
inductive MainTask
  | oracleLoop (loop : OracleLoop) (executor : BgTaskExecutor)
  | other (executor : BgTaskExecutor)

namespace MainTask

def startBgTask : MainTask → MainTask
  | .oracleLoop loop executor => .oracleLoop loop executor.startBgTask
  | .other executor => .other executor.startBgTask

def stopBgTask : MainTask → MainTask × Except PyError Unit
  | .oracleLoop loop executor =>
    match OracleLoop.deleteCoinPairs loop with
    | .ok () loop => (.oracleLoop loop executor.stopBgTask, .ok ())
    | .error err loop => (.oracleLoop loop executor, .error err)
  | .other executor => (.other executor.stopBgTask, .ok ())

/-- `for t in self.tasks: t.stop_bg_task()`, which an exception leaves. -/
def stopAll : List MainTask → List MainTask × Except PyError Unit
  | [] => ([], .ok ())
  | t :: tasks =>
    match t.stopBgTask with
    | (stopped, .error err) => (stopped :: tasks, .error err)
    | (stopped, .ok ()) =>
      let (rest, outcome) := stopAll tasks
      (stopped :: rest, outcome)

end MainTask

/-- The tasks of the main loop, and the loop as the task it is itself. -/
structure MainTasks where
  tasks : List MainTask
  executor : BgTaskExecutor

namespace MainTasks

def init : MainTasks := { tasks := [], executor := .init "MainLoop" }

/-- `_startup`. -/
def startup (oracleRunIpFilter oracleMonitorRun : Bool) (main : MainTasks) : MainTasks :=
  let tasks := main.tasks ++ [.oracleLoop .init (.init "OracleLoop"), .other (.init "BlockchainStateLoop")]
  let tasks := if oracleRunIpFilter then tasks ++ [.other (.init "IpFilterLoop")] else tasks
  let tasks := if oracleMonitorRun then tasks ++ [.other (.init "MonitorTask")] else tasks
  { main with tasks := tasks.map MainTask.startBgTask }

def shutdown (main : MainTasks) : MainTasks × Except PyError Unit :=
  match MainTask.stopAll main.tasks with
  | (tasks, .error err) => ({ main with tasks }, .error err)
  | (tasks, .ok ()) => ({ tasks, executor := main.executor.stopBgTask }, .ok ())

end MainTasks
end OmocNode
