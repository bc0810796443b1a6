import Mathlib.Tactic
import OmocNode.BgTasks

/-! How the tasks of an executor end. A failing round never ends one; once the
executor has been stopped, none of its tasks begins another round. -/

namespace OmocNode.Proofs.BgTaskRuns
open Runs BgTasks BgTask

variable {executor next final : Executor} {task : BgTask} {place : Place} {awaited : Option MainOutcome} {mains : List MainOutcome}
  {number : ℕ} {event : Event} {events : List Event}

/-- What the calls of `main_loop` come to that begin with this event. -/
def begun : Event → List MainOutcome
  | .resume _ _ mains => mains
  | .start | .stop | .cancel _ => []

/-- How often a task of a stopped executor can still run, not counting when `main_loop` itself awaits again. -/
def left : Place → ℕ
  | .inMain => 2
  | .created | .sleeping _ | .retrying => 1
  | .returned | .cancelled | .raised => 0

private theorem loop_stopped (looped : loop true mains = some place) : mains = [] ∧ place = .returned := by
  cases mains with
  | nil => exact ⟨rfl, (Option.some.inj looped).symm⟩
  | cons main mains => simp [loop] at looped

private theorem attempt_left {main : MainOutcome} (attempted : attempt main = some place) :
    left place + (if main = .awaits then 0 else 1) ≤ 2 := by
  cases main with
  | awaits | exception | baseException =>
    obtain rfl := Option.some.inj attempted
    decide
  | cancelled => cases attempted
  | returns delay =>
    cases delay with
    | none =>
      obtain rfl := Option.some.inj attempted
      decide
    | some delay =>
      obtain rfl := Option.some.inj attempted
      split <;> simp [left]

/-- A task of a stopped executor begins no round, and has less to do after it ran. -/
theorem resume_stopped (resumed : task.resume true awaited mains = some place) :
    mains = [] ∧ left place + (if awaited = some .awaits then 0 else 1) ≤ left task.place := by
  unfold resume at resumed
  cases at_place : task.place with
  | returned | cancelled | raised => simp [at_place] at resumed
  | created | retrying =>
    cases awaited with
    | some main => simp [at_place] at resumed
    | none =>
      simp only [at_place] at resumed
      split at resumed
      · split at resumed
        next none_begun =>
          obtain rfl := Option.some.inj resumed
          exact ⟨List.isEmpty_iff.mp none_begun, by simp [left]⟩
        next => contradiction
      · obtain ⟨none_begun, rfl⟩ := loop_stopped resumed
        exact ⟨none_begun, by simp [left]⟩
  | sleeping delay =>
    cases awaited with
    | some main => simp [at_place] at resumed
    | none =>
      simp only [at_place] at resumed
      obtain ⟨none_begun, rfl⟩ := loop_stopped resumed
      exact ⟨none_begun, by simp [left]⟩
  | inMain =>
    cases awaited with
    | none => simp [at_place] at resumed
    | some main =>
      simp only [at_place] at resumed
      cases attempted : attempt main with
      | none =>
        simp only [attempted] at resumed
        obtain ⟨none_begun, rfl⟩ := loop_stopped resumed
        refine ⟨none_begun, ?_⟩
        simp only [left]
        split <;> omega
      | some reached =>
        simp only [attempted] at resumed
        split at resumed
        next none_begun =>
          obtain rfl := Option.some.inj resumed
          refine ⟨List.isEmpty_iff.mp none_begun, ?_⟩
          simpa [left] using attempt_left attempted
        next => contradiction

/-- Everything a task can do next when it runs. -/
theorem step_resume (stepped : executor.step (.resume number awaited mains) = some next) :
    ∃ task place, executor.tasks[number]? = some task ∧ task.resume executor.cancel awaited mains = some place ∧
      next = { executor with tasks := executor.tasks.set number ⟨place, false⟩ } := by
  simp only [Executor.step, Option.bind_eq_bind, Option.bind_eq_some_iff] at stepped
  obtain ⟨task, found, place, resumed, same⟩ := stepped
  exact ⟨task, place, found, resumed, (Option.some.inj same).symm⟩

private theorem step_cancel (executor : Executor) (event : Event) (next : Executor) (stopped : executor.cancel = true)
    (stepped : executor.step event = some next) : next.cancel = true := by
  cases event with
  | start | cancel task =>
    obtain rfl := Option.some.inj stepped
    exact stopped
  | stop =>
    obtain rfl := Option.some.inj stepped
    rfl
  | resume number awaited mains =>
    obtain ⟨task, place, -, -, rfl⟩ := step_resume stepped
    exact stopped

private theorem step_begun (stopped : executor.cancel = true) (stepped : executor.step event = some next) : begun event = [] := by
  cases event with
  | start | cancel task | stop => rfl
  | resume number awaited mains =>
    obtain ⟨task, place, -, resumed, -⟩ := step_resume stepped
    rw [stopped] at resumed
    exact (resume_stopped resumed).1

/-- A task that was not created yet will be. -/
def leftOf (number : ℕ) (executor : Executor) : ℕ := ((executor.tasks[number]?).map fun task => left task.place).getD 1

/-- The task runs, other than to have `main_loop` await again. -/
def runsOn (number : ℕ) : Event → Bool
  | .resume other awaited _ => other = number ∧ awaited ≠ some .awaits
  | .start | .stop | .cancel _ => false

@[simp] theorem cancel_place (task : BgTask) : task.cancel.place = task.place := by
  unfold cancel
  split <;> rfl

private theorem leftOf_modify (other : ℕ) :
    leftOf number { executor with tasks := executor.tasks.modify other .cancel } = leftOf number executor := by
  simp only [leftOf, List.getElem?_modify]
  cases executor.tasks[number]? with
  | none => simp
  | some task =>
    simp only [Option.map_some, Option.getD_some]
    split <;> simp

private theorem leftOf_start : leftOf number executor.startBgTask = leftOf number executor := by
  simp only [leftOf, Executor.startBgTask]
  by_cases old : number < executor.tasks.length
  · rw [List.getElem?_append_left old]
  · have absent : executor.tasks[number]? = none := List.getElem?_eq_none (by omega)
    rw [absent, List.getElem?_append_right (by omega)]
    cases executor.tasks.length.decEq number with
    | isTrue same => simp [← same, created, left]
    | isFalse different =>
      have later : [created][number - executor.tasks.length]? = none := List.getElem?_eq_none (by simp; omega)
      rw [later]

private theorem leftOf_stop : leftOf number executor.stopBgTask = leftOf number executor := by
  simp only [Executor.stopBgTask]
  cases executor.task with
  | none => rfl
  | some task => exact leftOf_modify task

private theorem step_left (number : ℕ) (executor : Executor) (event : Event) (next : Executor) (stopped : executor.cancel = true)
    (stepped : executor.step event = some next) :
    leftOf number next + (if runsOn number event then 1 else 0) ≤ leftOf number executor := by
  cases event with
  | start =>
    obtain rfl := Option.some.inj stepped
    exact leftOf_start.le
  | stop =>
    obtain rfl := Option.some.inj stepped
    exact leftOf_stop.le
  | cancel task =>
    obtain rfl := Option.some.inj stepped
    exact (leftOf_modify task).le
  | resume other awaited mains =>
    obtain ⟨task, place, found, resumed, rfl⟩ := step_resume stepped
    rw [stopped] at resumed
    obtain ⟨-, less⟩ := resume_stopped resumed
    by_cases same : other = number
    · subst same
      have inside : other < executor.tasks.length := (List.getElem?_eq_some_iff.mp found).1
      simp only [leftOf, List.getElem?_set_self inside, found, Option.map_some, Option.getD_some, runsOn]
      simpa [ite_not] using less
    · simp [leftOf, runsOn, List.getElem?_set_ne same, same]

private theorem leftOf_le : leftOf number executor ≤ 2 := by
  unfold leftOf
  cases executor.tasks[number]? with
  | none => decide
  | some task => cases place : task.place <;> simp [place, left]

/-- The task runs if it is let: from where it waits, or whatever `main_loop` gives it. -/
def CanRun (executor : Executor) (number : ℕ) : Prop :=
  (executor.step (.resume number none [])).isSome = true ∨
    ∀ main, (executor.step (.resume number (some main) [])).isSome = true

private theorem canRun_of_stopped (stopped : executor.cancel = true) (found : executor.tasks[number]? = some task)
    (unfinished : task.place.over = false) : CanRun executor number := by
  have runs : ∀ awaited, (task.resume true awaited []).isSome = true →
      (executor.step (.resume number awaited [])).isSome = true := by
    intro awaited resumes
    obtain ⟨place, resumed⟩ := Option.isSome_iff_exists.mp resumes
    rw [Executor.step, found, stopped]
    simp only [Option.bind_eq_bind, Option.bind_some, resumed]
    rfl
  cases at_place : task.place with
  | returned | cancelled | raised =>
    rw [at_place] at unfinished
    contradiction
  | created | retrying =>
    refine .inl (runs none ?_)
    simp only [resume, at_place]
    split <;> rfl
  | sleeping delay =>
    refine .inl (runs none ?_)
    simp only [resume, at_place]
    rfl
  | inMain =>
    refine .inr fun main => runs (some main) ?_
    simp only [resume, at_place]
    cases attempt main <;> rfl

/-- A stop takes effect at once, and for ever. -/
theorem run_after_stop {earlier later : List Event} (ran : run Executor.step .init (earlier ++ .stop :: later) = some final) :
    ∃ stopped, stopped.cancel = true ∧ run Executor.step stopped later = some final := by
  obtain ⟨middle, -, rest⟩ := run_append_eq_some.mp ran
  obtain ⟨stopped, stopping, after⟩ := run_cons_eq_some.mp rest
  refine ⟨stopped, ?_, after⟩
  obtain rfl := Option.some.inj stopping
  rfl

theorem events_after_stop {earlier later : List Event} (ran : run Executor.step .init (earlier ++ .stop :: later) = some final) :
    ∀ event ∈ later, begun event = [] := by
  obtain ⟨stopped, cancelled, after⟩ := run_after_stop ran
  exact run_events step_cancel (fun _ _ _ => step_begun) cancelled after

/-- After a stop no task of the executor begins a round, not even one that is
started later, and each has at most two more steps apart from its last round's own. -/
theorem stopped_for_good {earlier later : List Event} (ran : run Executor.step .init (earlier ++ .stop :: later) = some final) :
    (∀ event ∈ later, begun event = []) ∧ (∀ number, later.countP (runsOn number) ≤ 2) ∧
      ∀ number task, final.tasks[number]? = some task → task.place.over = true ∨ CanRun final number := by
  obtain ⟨stopped, cancelled, after⟩ := run_after_stop ran
  refine ⟨events_after_stop ran, ?_, ?_⟩
  · intro number
    have spent := run_counts (leftOf number) (runsOn number) step_cancel (step_left number) cancelled after
    have most : leftOf number stopped ≤ 2 := leftOf_le
    omega
  · intro number task found
    cases unfinished : task.place.over with
    | true => exact .inl rfl
    | false =>
      have still : final.cancel = true := @run_keeps _ _ _ (fun executor : Executor => executor.cancel = true) _ _ _ step_cancel cancelled after
      exact .inr (canRun_of_stopped still found unfinished)

/-- A task that is started after the stop ends without a round. -/
theorem stopped_for_good_restarted :
    let later : List Event := [.resume 0 (some .awaits) [], .start, .resume 1 none [], .resume 0 (some .exception) [], .resume 0 none []]
    ∃ final, run Executor.step .init ([.start, .resume 0 none [.awaits]] ++ .stop :: later) = some final ∧
      (∀ event ∈ later, begun event = []) ∧ (∀ number, later.countP (runsOn number) ≤ 2) ∧
      ∀ number task, final.tasks[number]? = some task → task.place.over = true ∨ CanRun final number :=
  ⟨_, rfl, @stopped_for_good _ [.start, .resume 0 none [.awaits]] _ rfl⟩

/-- The `while` ends for a stop, or one of the calls it makes decides where the task goes. -/
theorem loop_cases {cancel : Bool} (looped : loop cancel mains = some place) :
    cancel = true ∧ place = .returned ∨ ∃ main ∈ mains, attempt main = some place := by
  induction mains with
  | nil =>
    simp only [loop] at looped
    split at looped
    next stopped => exact .inl ⟨stopped, (Option.some.inj looped).symm⟩
    next => contradiction
  | cons main mains ih =>
    rw [loop] at looped
    split at looped
    · contradiction
    · split at looped
      next reached attempted =>
        split at looped
        · obtain rfl := Option.some.inj looped
          exact .inr ⟨main, List.mem_cons_self, attempted⟩
        · contradiction
      next =>
        rcases ih looped with stopped | ⟨other, member, attempted⟩
        · exact .inl stopped
        · exact .inr ⟨other, List.mem_cons_of_mem _ member, attempted⟩

private theorem resume_cases {cancel : Bool} (resumed : task.resume cancel awaited mains = some place) :
    cancel = true ∧ place = .returned ∨ task.cancelling = true ∧ place = .cancelled ∨
      ∃ main, (awaited = some main ∨ main ∈ mains) ∧ attempt main = some place := by
  have of_loop : loop cancel mains = some place → cancel = true ∧ place = .returned ∨ task.cancelling = true ∧ place = .cancelled ∨
      ∃ main, (awaited = some main ∨ main ∈ mains) ∧ attempt main = some place := by
    intro looped
    rcases loop_cases looped with stopped | ⟨main, member, attempted⟩
    · exact .inl stopped
    · exact .inr (.inr ⟨main, .inr member, attempted⟩)
  unfold resume at resumed
  cases at_place : task.place with
  | returned | cancelled | raised => simp [at_place] at resumed
  | created | retrying =>
    cases awaited with
    | some main => simp [at_place] at resumed
    | none =>
      simp only [at_place] at resumed
      split at resumed
      next cancelling =>
        split at resumed
        · exact .inr (.inl ⟨cancelling, (Option.some.inj resumed).symm⟩)
        · contradiction
      next => exact of_loop resumed
  | sleeping delay =>
    cases awaited with
    | some main => simp [at_place] at resumed
    | none =>
      simp only [at_place] at resumed
      exact of_loop resumed
  | inMain =>
    cases awaited with
    | none => simp [at_place] at resumed
    | some main =>
      simp only [at_place] at resumed
      split at resumed
      next reached attempted =>
        split at resumed
        · obtain rfl := Option.some.inj resumed
          exact .inr (.inr ⟨main, .inl rfl, attempted⟩)
        · contradiction
      next => exact of_loop resumed

/-- What ended a task, from what has happened to its executor. -/
def Reason (past : List Event) (number : ℕ) : Place → Prop
  | .returned => .stop ∈ past
  | .cancelled => .cancel number ∈ past ∨ .stop ∈ past
  | .raised => ∃ awaited mains, .resume number awaited mains ∈ past ∧ (awaited = some .baseException ∨ .baseException ∈ mains)
  | .created | .inMain | .sleeping _ | .retrying => True

structure Explained (past : List Event) (executor : Executor) : Prop where
  stop : executor.cancel = true → .stop ∈ past
  cancelling : ∀ number task, executor.tasks[number]? = some task → task.cancelling = true → .cancel number ∈ past ∨ .stop ∈ past
  reason : ∀ number task, executor.tasks[number]? = some task → Reason past number task.place

theorem Reason.mono {past future : List Event} (later : past ⊆ future) (reason : Reason past number place) :
    Reason future number place := by
  cases place with
  | returned => exact later reason
  | cancelled => exact reason.imp (later ·) (later ·)
  | raised =>
    obtain ⟨awaited, mains, member, base⟩ := reason
    exact ⟨awaited, mains, later member, base⟩
  | created | inMain | sleeping _ | retrying => trivial

private theorem reason_of_attempt {past : List Event} {main : MainOutcome} (attempted : attempt main = some place)
    (happened : .resume number awaited mains ∈ past) (came : awaited = some main ∨ main ∈ mains) : Reason past number place := by
  cases main with
  | awaits | exception =>
    obtain rfl := Option.some.inj attempted
    trivial
  | baseException =>
    obtain rfl := Option.some.inj attempted
    exact ⟨awaited, mains, happened, came⟩
  | cancelled => cases attempted
  | returns delay =>
    cases delay with
    | none =>
      obtain rfl := Option.some.inj attempted
      trivial
    | some delay =>
      obtain rfl := Option.some.inj attempted
      split <;> trivial

theorem initial_explained : Explained [] .init where
  stop stopped := by cases stopped
  cancelling number task found := by simp [Executor.init] at found
  reason number task found := by simp [Executor.init] at found

private theorem cancel_explained {past : List Event} {other : ℕ} (explained : Explained past executor)
    (cancels : ∀ number, number = other → event = .cancel number ∨ event = .stop) (stop : Bool) (kept : Option ℕ)
    (stops : stop = true → executor.cancel = true ∨ event = .stop) :
    Explained (past ++ [event]) ⟨stop, kept, executor.tasks.modify other .cancel⟩ := by
  have earlier : past ⊆ past ++ [event] := List.subset_append_left ..
  have last : event ∈ past ++ [event] := by simp
  constructor
  · intro stopped
    rcases stops stopped with before | rfl
    · exact earlier (explained.stop before)
    · exact last
  · intro number task found cancelling
    obtain ⟨before, old, rfl⟩ := Option.map_eq_some_iff.mp ((List.getElem?_modify ..).symm.trans found)
    split at cancelling
    next same =>
      rcases cancels number same.symm with rfl | rfl
      · exact .inl last
      · exact .inr last
    next => exact (explained.cancelling number before old cancelling).imp (earlier ·) (earlier ·)
  · intro number task found
    obtain ⟨before, old, rfl⟩ := Option.map_eq_some_iff.mp ((List.getElem?_modify ..).symm.trans found)
    have reason := (explained.reason number before old).mono earlier
    split
    · rwa [cancel_place]
    · exact reason

theorem step_explained (past : List Event) (executor : Executor) (event : Event) (next : Executor) (explained : Explained past executor)
    (stepped : executor.step event = some next) : Explained (past ++ [event]) next := by
  have earlier : past ⊆ past ++ [event] := List.subset_append_left ..
  have last : event ∈ past ++ [event] := by simp
  cases event with
  | start =>
    obtain rfl := Option.some.inj stepped
    have old_or_new : ∀ (number : ℕ) (task : BgTask), executor.startBgTask.tasks[number]? = some task →
        executor.tasks[number]? = some task ∨ task = BgTask.created := by
      intro number task found
      simp only [Executor.startBgTask, List.getElem?_append] at found
      split at found
      · exact .inl found
      · exact .inr (List.mem_singleton.mp (List.mem_of_getElem? found))
    constructor
    · exact fun stopped => earlier (explained.stop stopped)
    · intro number task found cancelling
      rcases old_or_new number task found with old | rfl
      · exact (explained.cancelling number task old cancelling).imp (earlier ·) (earlier ·)
      · cases cancelling
    · intro number task found
      rcases old_or_new number task found with old | rfl
      · exact (explained.reason number task old).mono earlier
      · trivial
  | stop =>
    obtain rfl := Option.some.inj stepped
    unfold Executor.stopBgTask
    cases executor.task with
    | none =>
      constructor
      · exact fun _ => last
      · exact fun number task found cancelling => (explained.cancelling number task found cancelling).imp (earlier ·) (earlier ·)
      · exact fun number task found => (explained.reason number task found).mono earlier
    | some task => exact cancel_explained explained (fun _ _ => .inr rfl) true none fun _ => .inr rfl
  | cancel other =>
    obtain rfl := Option.some.inj stepped
    exact cancel_explained explained (fun _ same => .inl (congrArg _ same.symm)) executor.cancel executor.task .inl
  | resume other awaited mains =>
    obtain ⟨task, place, found, resumed, rfl⟩ := step_resume stepped
    have set_cases : ∀ (number : ℕ) (after : BgTask), (executor.tasks.set other ⟨place, false⟩)[number]? = some after →
        executor.tasks[number]? = some after ∨ number = other ∧ after = ⟨place, false⟩ := by
      intro number after read
      rw [List.getElem?_set] at read
      split at read
      next same =>
        split at read
        · exact .inr ⟨same.symm, (Option.some.inj read).symm⟩
        · contradiction
      next => exact .inl read
    constructor
    · exact fun stopped => earlier (explained.stop stopped)
    · intro number after read cancelling
      rcases set_cases number after read with old | ⟨-, rfl⟩
      · exact (explained.cancelling number after old cancelling).imp (earlier ·) (earlier ·)
      · cases cancelling
    · intro number after read
      rcases set_cases number after read with old | ⟨rfl, rfl⟩
      · exact (explained.reason number after old).mono earlier
      · rcases resume_cases resumed with ⟨stopped, rfl⟩ | ⟨cancelling, rfl⟩ | ⟨main, came, attempted⟩
        · exact earlier (explained.stop stopped)
        · exact (explained.cancelling number task found cancelling).imp (earlier ·) (earlier ·)
        · exact reason_of_attempt attempted last came

/-- A task of an executor that is neither stopped nor cancelled goes on, whatever
its rounds raise short of a `BaseException`. -/
theorem runs_unless_ended (ran : run Executor.step .init events = some final) :
    ∀ number task, final.tasks[number]? = some task → Reason events number task.place :=
  (run_history step_explained initial_explained ran).reason

/-- A round that raises, one that returns no delay and one that is cancelled, all outlived. -/
theorem runs_unless_ended_failures :
    let events : List Event := [.start, .resume 0 none [.cancelled, .exception], .resume 0 none [.returns none],
      .resume 0 none [.awaits], .cancel 0, .resume 0 (some .cancelled) [.returns (some 5)]]
    ∃ final, run Executor.step .init events = some final ∧
      ∀ number task, final.tasks[number]? = some task → Reason events number task.place :=
  ⟨_, rfl, runs_unless_ended rfl⟩

end OmocNode.Proofs.BgTaskRuns
