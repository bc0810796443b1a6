import OmocNode.Proofs.BgTaskRuns
import OmocNode.Proofs.PairIsolation

/-! The tasks behind the map of coin pairs. What the oracle loop asks of its
executors decides which of the pairs' own rounds still begin. -/

namespace OmocNode.Proofs.PairTasks
open Runs BgTasks BlockchainInfo OracleLoop StateFrame Reconciliation PairIsolation BgTaskRuns

/-- The tasks of an entry were started once, and stopped once after that. -/
def StoppedOnce (entry : OracleLoopTasks) : Prop := ∀ task ∈ entry.tasks, task.calls = [.start, .stop]

private theorem stoppedOnce_stop {entry : OracleLoopTasks} (started : StartedOnce entry) : StoppedOnce entry.stop := by
  intro task member
  obtain ⟨running, listed, rfl⟩ := List.mem_map.mp member
  simp [BgTaskExecutor.stopBgTask, started running listed]

structure CalledOnce (loop : OracleLoop) : Prop where
  started : AllStarted loop
  stopped : ∀ gone ∈ loop.stopped, StoppedOnce gone.2

private theorem calledOnce_deleteCoinPair (key : String) : Preserves CalledOnce (deleteCoinPair key) := by
  intro loop once
  refine ⟨preserves_deleteCoinPair key loop once.started, ?_⟩
  cases read : loop.cpMap.get? key with
  | none =>
    have raises : deleteCoinPair key loop = .error .keyError loop := by
      simp only [deleteCoinPair, run_bind, run_get, read, run_throw]
    rw [finalState, raises]
    exact once.stopped
  | some old =>
    rw [finalState, deleteCoinPair_eq read]
    intro gone member
    rcases List.mem_append.mp member with before | added
    · exact once.stopped gone before
    · rw [List.mem_singleton.mp added]
      exact stoppedOnce_stop (once.started key old read)

private theorem calledOnce_addCoinPair (settings : Settings) (service : OracleCoinPairService) :
    Preserves CalledOnce (addCoinPair settings service) := by
  intro loop once
  refine ⟨preserves_addCoinPair settings service loop once.started, ?_⟩
  have same : (finalState (addCoinPair settings service) loop).stopped = loop.stopped := by
    cases running : settings.oracleRun with
    | false =>
      have idle : addCoinPair settings service loop = .ok () loop := by
        simp only [addCoinPair, running, Bool.false_eq_true, if_false, run_pure]
      rw [finalState, idle]
    | true =>
      cases construction : settings.construct service with
      | error failure => rw [finalState, addCoinPair_raises running construction]
      | ok entry => rw [finalState, addCoinPair_built running construction]
  rw [same]
  exact once.stopped

private theorem calledOnce_reconcile (settings : Settings) (cpServ1 cpServ2 : Reply (List OracleCoinPairService)) :
    Preserves CalledOnce (reconcile settings cpServ1 cpServ2) := by
  rw [reconcile.eq_def]
  split
  · exact .pure _
  · exact .throw _
  · exact .throw _
  · exact .bind .get fun _ => .bind (.forM calledOnce_deleteCoinPair _) fun _ => .bind .get fun _ =>
      .forM (calledOnce_addCoinPair settings) _

private theorem calledOnce_lift {α : Type} (result : Except PyError α) : Preserves CalledOnce (OracleLoop.lift result) := by
  cases result with
  | error failure => exact .throw _
  | ok value => exact .pure _

private theorem calledOnce_round (round : Round) : Preserves CalledOnce round.run :=
  .bind (calledOnce_lift _) fun _ => .bind (calledOnce_lift _) fun _ => calledOnce_reconcile _ _ _

private theorem calledOnce_reached (rounds : List Round) : CalledOnce (reached rounds) := by
  apply run_preserves (fun loop round => calledOnce_round round loop) rounds .init
  exact ⟨fun _ _ read => (nomatch read), fun _ member => absurd member List.not_mem_nil⟩

def call : Event → Option BgCall
  | .start => some .start
  | .stop => some .stop
  | .cancel _ | .resume _ _ _ => none

/-- A run of an executor that was asked for just what the oracle loop has asked of it. -/
structure RunOf (executor : BgTaskExecutor) (events : List Event) (final : Executor) : Prop where
  ran : run Executor.step .init events = some final
  calls : events.filterMap call = executor.calls

/-- The calls, in either view of the executor. -/
structure Agrees (calls : List BgCall) (executor : Executor) : Prop where
  created : executor.tasks.length = calls.count .start
  cancel : executor.cancel = true ↔ .stop ∈ calls

private theorem step_agrees (past : List Event) (executor : Executor) (event : Event) (next : Executor)
    (agrees : Agrees (past.filterMap call) executor) (stepped : executor.step event = some next) :
    Agrees ((past ++ [event]).filterMap call) next := by
  obtain ⟨created, cancel⟩ := agrees
  rw [List.filterMap_append]
  cases event with
  | start =>
    obtain rfl := Option.some.inj stepped
    constructor
    · simp [Executor.startBgTask, call, created]
    · simpa [Executor.startBgTask, call] using cancel
  | stop =>
    obtain rfl := Option.some.inj stepped
    constructor
    · cases kept : executor.task <;> simp [Executor.stopBgTask, call, created, kept]
    · simp [Executor.stopBgTask, call]
  | cancel task =>
    obtain rfl := Option.some.inj stepped
    have nothing : [Event.cancel task].filterMap call = [] := rfl
    rw [nothing, List.append_nil]
    exact ⟨by simpa using created, cancel⟩
  | resume number awaited mains =>
    obtain ⟨task, place, -, -, rfl⟩ := step_resume stepped
    have nothing : [Event.resume number awaited mains].filterMap call = [] := rfl
    rw [nothing, List.append_nil]
    exact ⟨by simpa using created, cancel⟩

theorem RunOf.agrees {executor : BgTaskExecutor} {events : List Event} {final : Executor} (runs : RunOf executor events final) :
    Agrees executor.calls final := by
  rw [← runs.calls]
  refine @run_history _ _ _ _ _ _ (fun past executor => Agrees (past.filterMap call) executor) step_agrees ?_ runs.ran
  exact ⟨rfl, by simp [Executor.init]⟩

/-- Nobody cancels a task from outside, and no round raises a `BaseException`. -/
structure Undisturbed (events : List Event) : Prop where
  cancel : ∀ number, .cancel number ∉ events
  base : ∀ number awaited mains, .resume number awaited mains ∈ events → awaited ≠ some .baseException ∧ .baseException ∉ mains

private theorem alive_of_undisturbed {events : List Event} {number : ℕ} {place : Place} (reason : Reason events number place)
    (undisturbed : Undisturbed events) (running : .stop ∉ events) : place.over = false := by
  cases place with
  | returned => exact absurd reason running
  | cancelled =>
    rcases reason with cancelled | stopped
    · exact absurd cancelled (undisturbed.cancel number)
    · exact absurd stopped running
  | raised =>
    obtain ⟨awaited, mains, happened, base⟩ := reason
    obtain ⟨not_awaited, not_begun⟩ := undisturbed.base number awaited mains happened
    rcases base with wrong | wrong
    · exact absurd wrong not_awaited
    · exact absurd wrong not_begun
  | created | inMain | sleeping _ | retrying => rfl

private theorem mem_calls {events : List Event} : .stop ∈ events.filterMap call ↔ .stop ∈ events := by
  rw [List.mem_filterMap]
  constructor
  · intro asked
    obtain ⟨event, member, same⟩ := asked
    cases event with
    | stop => exact member
    | start | cancel _ | resume _ _ _ => cases same
  · exact fun member => ⟨.stop, member, rfl⟩

/-- After any rounds of the oracle loop, an executor of a pair in the map has one task, which
only an outsider or a `BaseException` ends; one of a removed pair begins no round after its stop. -/
theorem pair_tasks (rounds : List Round) :
    (∀ key entry, (reached rounds).cpMap.get? key = some entry → ∀ executor ∈ entry.tasks, ∀ events final,
      RunOf executor events final → ∃ task, final.tasks = [task] ∧ (Undisturbed events → task.place.over = false)) ∧
    ∀ gone ∈ (reached rounds).stopped, ∀ executor ∈ gone.2.tasks, ∀ events final, RunOf executor events final →
      ∃ task earlier later, final.tasks = [task] ∧ events = earlier ++ .stop :: later ∧ ∀ event ∈ later, begun event = [] := by
  have once := calledOnce_reached rounds
  constructor
  · intro key entry read executor member events final runs
    have calls : executor.calls = [.start] := once.started key entry read executor member
    have created := runs.agrees.created
    rw [calls] at created
    obtain ⟨task, only⟩ := List.length_eq_one_iff.mp created
    refine ⟨task, only, fun undisturbed => ?_⟩
    have reason := (run_history step_explained initial_explained runs.ran).reason 0 task (by rw [only]; rfl)
    apply alive_of_undisturbed reason undisturbed
    rw [← mem_calls, runs.calls, calls]
    decide
  · intro gone listed executor member events final runs
    have calls : executor.calls = [.start, .stop] := once.stopped gone listed executor member
    have created := runs.agrees.created
    rw [calls] at created
    obtain ⟨task, only⟩ := List.length_eq_one_iff.mp created
    have asked : .stop ∈ events := by
      rw [← mem_calls, runs.calls, calls]
      decide
    obtain ⟨earlier, later, split⟩ := List.append_of_mem asked
    have ran := runs.ran
    rw [split] at ran
    exact ⟨task, earlier, later, only, split, events_after_stop ran⟩

/-- A removed pair's task, stopped while it sleeps, wakes up once more to end. -/
example : RunOf (BgTaskExecutor.init "OracleBlockchainInfoLoop").startBgTask.stopBgTask
    [.start, .resume 0 none [.exception], .resume 0 none [.returns (some 5)], .stop, .resume 0 none []]
    ⟨true, none, [⟨.returned, false⟩]⟩ := ⟨rfl, rfl⟩

end OmocNode.Proofs.PairTasks
