import Mathlib.Data.Rat.Defs
import OmocNode.Runs

/-! The tasks of a background executor as the event loop runs them: one at a
time, each up to its next `await`. No `main_loop` stops its own executor. -/

namespace OmocNode.BgTasks

/-- What a call of `main_loop` has come to when the task lets others run, or before
that. A delay that `asyncio.sleep` refuses is an exception like any other. -/
inductive MainOutcome
  | awaits
  | returns (delay : Option ℚ)
  | cancelled
  | exception
  | baseException
  deriving DecidableEq

inductive Place
  | created
  | inMain
  | sleeping (delay : ℚ)
  | retrying
  | returned
  | cancelled
  | raised
  deriving DecidableEq

def Place.over : Place → Bool
  | returned | cancelled | raised => true
  | created | inMain | sleeping _ | retrying => false

/-- With `cancelling`, the task finds a `CancelledError` when it runs again. -/
structure BgTask where
  place : Place
  cancelling : Bool
  deriving DecidableEq

namespace BgTask

def created : BgTask := ⟨.created, false⟩

/-- `Task.cancel`, which leaves a task that is over as it is. -/
def cancel (task : BgTask) : BgTask := if task.place.over then task else { task with cancelling := true }

/-- Where the `try` leads, from a call of `main_loop` that came to this; a
cancelled one leads back to the `while`. -/
def attempt : MainOutcome → Option Place
  | .awaits => some .inMain
  | .returns (some delay) => some (if delay ≠ 0 then .sleeping delay else .retrying)
  | .returns none | .exception => some .retrying
  | .cancelled => none
  | .baseException => some .raised

/-- The `while` up to the next `await`. `mains` is what the calls of `main_loop` come
to that it makes on the way, neither more nor fewer than it makes. -/
def loop (cancel : Bool) : List MainOutcome → Option Place
  | [] => if cancel then some .returned else none
  | main :: mains =>
    if cancel then none
    else match attempt main with
      | some place => if mains.isEmpty then some place else none
      | none => loop cancel mains

/-- `bg_task` from one `await` to the next. In `main_loop`, `awaited` is what the
call comes to next. -/
def resume (cancel : Bool) (task : BgTask) (awaited : Option MainOutcome) (mains : List MainOutcome) : Option Place :=
  match task.place, awaited with
  | .created, none | .retrying, none =>
    if task.cancelling then (if mains.isEmpty then some .cancelled else none) else loop cancel mains
  | .sleeping _, none => loop cancel mains
  | .inMain, some main =>
    match attempt main with
    | some place => if mains.isEmpty then some place else none
    | none => loop cancel mains
  | _, _ => none

end BgTask

/-- `tasks` are all that were created, oldest first; `task` is the one the executor keeps. -/
structure Executor where
  cancel : Bool
  task : Option ℕ
  tasks : List BgTask

inductive Event
  | start
  | stop
  | cancel (task : ℕ)
  | resume (task : ℕ) (awaited : Option MainOutcome) (mains : List MainOutcome)

namespace Executor

def init : Executor := ⟨false, none, []⟩

def startBgTask (executor : Executor) : Executor :=
  { executor with task := some executor.tasks.length, tasks := executor.tasks ++ [.created] }

def stopBgTask (executor : Executor) : Executor :=
  { cancel := true, task := none
    tasks := match executor.task with
      | none => executor.tasks
      | some task => executor.tasks.modify task .cancel }

/-- A task is cancelled by others too, through what `start_bg_task` returned or when the program ends. -/
def step (executor : Executor) : Event → Option Executor
  | .start => some executor.startBgTask
  | .stop => some executor.stopBgTask
  | .cancel task => some { executor with tasks := executor.tasks.modify task .cancel }
  | .resume number awaited mains => do
    let task ← executor.tasks[number]?
    let place ← task.resume executor.cancel awaited mains
    return { executor with tasks := executor.tasks.set number ⟨place, false⟩ }

end Executor
end OmocNode.BgTasks
