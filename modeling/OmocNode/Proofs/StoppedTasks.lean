import OmocNode.Shutdown
import OmocNode.Proofs.Reconciliation

/-! What stopping the node reaches. The oracle loop walks over the map it empties,
so the first coin pair it stops is the last, and nothing after it is stopped. -/

namespace OmocNode.Proofs.StoppedTasks
open MainTask Reconciliation Dict

/-- A task before and after it has been stopped, with the tasks of every coin pair. -/
inductive Stopped : MainTask → MainTask → Prop
  | oracleLoop {loop after : OracleLoop} {executor : BgTaskExecutor} (emptied : after.cpMap.entries = [])
      (pairs : ∀ key entry, loop.cpMap.get? key = some entry → (key, entry.stop) ∈ after.stopped) :
      Stopped (.oracleLoop loop executor) (.oracleLoop after executor.stopBgTask)
  | other (executor : BgTaskExecutor) : Stopped (.other executor) (.other executor.stopBgTask)

/-- `stop_bg_task` returns and has stopped everything. -/
def Stops (task : MainTask) : Prop := ∃ after, task.stopBgTask = (after, .ok ()) ∧ Stopped task after

/-- `shutdown` returns and has stopped every task, and the main loop. -/
def ShutsDown (main : MainTasks) : Prop :=
  ∃ tasks, main.shutdown = (⟨tasks, main.executor.stopBgTask⟩, .ok ()) ∧ List.Forall₂ Stopped main.tasks tasks

/-- The oracle loop runs no coin pair. Other tasks have none. -/
def Idle : MainTask → Prop
  | .oracleLoop loop _ => loop.cpMap.entries = []
  | .other _ => True

variable {loop : OracleLoop} {executor : BgTaskExecutor}

theorem keys_eq_nil_iff {κ α : Type} {dict : Dict κ α} : dict.keys = [] ↔ dict.entries = [] := by
  rw [Dict.keys, List.map_eq_nil_iff]

/-- Each deletion changes the size, so the walk ends normally only over an empty map. -/
theorem deleteCoinPairs_cases (loop : OracleLoop) :
    loop.cpMap.entries = [] ∧ OracleLoop.deleteCoinPairs loop = .ok () loop ∨
      loop.cpMap.entries ≠ [] ∧ ∃ after, OracleLoop.deleteCoinPairs loop = .error changedSize after := by
  have shrinks : ∀ key ∈ loop.cpMap.keys, ∃ after, OracleLoop.deleteCoinPair key loop = .ok () after ∧
      after.cpMap.keys.length ≠ loop.cpMap.keys.length := by
    intro key present
    obtain ⟨old, read⟩ := mem_keys_iff.mp present
    exact ⟨_, deleteCoinPair_eq read, (length_keys_erase present).ne⟩
  simp only [ne_eq, ← keys_eq_nil_iff]
  rcases forKeys_cases fun key present => Or.inr (shrinks key present) with ⟨idle, normal⟩ | ⟨⟨key, present, _⟩, raised⟩
  · refine Or.inl ⟨?_, normal⟩
    apply List.eq_nil_iff_forall_not_mem.mpr
    intro key present
    obtain ⟨after, ran, changed⟩ := shrinks key present
    rw [idle key present] at ran
    injection ran with _ same
    exact changed (by rw [same])
  · exact Or.inr ⟨List.ne_nil_of_mem present, raised⟩

theorem stops_iff (task : MainTask) : Stops task ↔ Idle task := by
  cases task with
  | other executor => exact iff_of_true ⟨_, rfl, .other executor⟩ trivial
  | oracleLoop loop executor =>
    simp only [Stops, Idle, stopBgTask]
    rcases deleteCoinPairs_cases loop with ⟨empty, normal⟩ | ⟨filled, after, raised⟩
    · rw [normal]
      refine iff_of_true ⟨_, rfl, .oracleLoop empty ?_⟩ empty
      intro key entry read
      rw [get?_eq_some_iff, empty] at read
      cases read
    · rw [raised]
      refine iff_of_false ?_ filled
      intro stops
      obtain ⟨_, same, _⟩ := stops
      cases (Prod.mk.inj same).2

theorem stopAll_iff (tasks : List MainTask) :
    (∃ after, stopAll tasks = (after, .ok ()) ∧ List.Forall₂ Stopped tasks after) ↔ ∀ task ∈ tasks, Idle task := by
  induction tasks with
  | nil => exact iff_of_true ⟨[], rfl, .nil⟩ (by simp)
  | cons task tasks ih =>
    rw [List.forall_mem_cons, ← stops_iff, ← ih]
    constructor
    · intro all
      obtain ⟨after, stopped, each⟩ := all
      cases each with
      | cons first rest =>
        rw [stopAll] at stopped
        split at stopped
        · cases (Prod.mk.inj stopped).2
        next ran =>
          obtain ⟨same, outcome⟩ := Prod.mk.inj stopped
          obtain ⟨rfl, rfl⟩ := List.cons.inj same
          exact ⟨⟨_, ran, first⟩, _, Prod.ext rfl outcome, rest⟩
    · intro both
      obtain ⟨⟨first, ran, stopped⟩, rest, ran', each⟩ := both
      refine ⟨first :: rest, ?_, .cons stopped each⟩
      rw [stopAll, ran, ran']

theorem shutsDown_iff (main : MainTasks) : ShutsDown main ↔ ∀ task ∈ main.tasks, Idle task := by
  rw [← stopAll_iff]
  constructor
  · intro shuts
    obtain ⟨tasks, down, each⟩ := shuts
    rw [MainTasks.shutdown] at down
    split at down
    · cases (Prod.mk.inj down).2
    next ran =>
      obtain ⟨same, _⟩ := Prod.mk.inj down
      injection same with same'
      exact ⟨_, same' ▸ ran, each⟩
  · intro all
    obtain ⟨tasks, ran, each⟩ := all
    refine ⟨tasks, ?_, each⟩
    rw [MainTasks.shutdown, ran]

@[simp] theorem idle_startBgTask (task : MainTask) : Idle task.startBgTask ↔ Idle task := by cases task <;> rfl

/-- Until the oracle loop has added a pair, the node stops as it should. -/
theorem shutsDown_startup (oracleRunIpFilter oracleMonitorRun : Bool) :
    ShutsDown (MainTasks.init.startup oracleRunIpFilter oracleMonitorRun) := by
  rw [shutsDown_iff]
  simp only [MainTasks.startup, List.forall_mem_map, idle_startBgTask]
  cases oracleRunIpFilter <;> cases oracleMonitorRun <;> simp [MainTasks.init, Idle, OracleLoop.init, Dict.empty]

/-- The node stops everything exactly where its oracle loop runs no coin pair. -/
theorem stops_iff_no_pair (loop : OracleLoop) (executor : BgTaskExecutor) (main : MainTasks) :
    (Stops (.oracleLoop loop executor) ↔ loop.cpMap.entries = []) ∧
      (ShutsDown main ↔ ∀ loop executor, .oracleLoop loop executor ∈ main.tasks → loop.cpMap.entries = []) := by
  refine ⟨stops_iff _, ?_⟩
  rw [shutsDown_iff]
  constructor
  · exact fun idle loop executor member => idle _ member
  · intro empty task member
    cases task with
    | oracleLoop loop executor => exact empty loop executor member
    | other executor => exact trivial

/-- A node that runs one coin pair does not even stop the loop that runs it. -/
theorem one_pair_not_stopped :
    let loop : OracleLoop := { cpMap := .ofList [("taskKept", (tasksEntry "taskKept").start)], stopped := [] }
    let task := MainTask.oracleLoop loop (BgTaskExecutor.init "OracleLoop").startBgTask
    let others := [MainTask.other (BgTaskExecutor.init "BlockchainStateLoop").startBgTask]
    ¬Stops task ∧ ¬ShutsDown ⟨task :: others, (BgTaskExecutor.init "MainLoop").startBgTask⟩ := by
  intro loop task others
  have filled : ¬Idle task := List.cons_ne_nil _ _
  refine ⟨fun stops => filled ((stops_iff task).mp stops), ?_⟩
  intro shuts
  exact filled ((shutsDown_iff _).mp shuts task List.mem_cons_self)

end OmocNode.Proofs.StoppedTasks
