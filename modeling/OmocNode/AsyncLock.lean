import Mathlib.Data.List.Nodup

/-! The lock of `asyncio`. Tasks run one at a time, up to their next `await`; a
task that does not get the lock waits on a future of its own. -/

namespace OmocNode.AsyncLock

/-- What a waiting task finds: nothing yet, the lock to be taken, or that it was
cancelled. A task can be cancelled after its future was done too. -/
inductive Waiter
  | pending
  | woken
  | wokenThenCancelled
  | cancelled
  deriving DecidableEq

def Waiter.isWoken : Waiter → Bool
  | woken | wokenThenCancelled => true
  | pending | cancelled => false

def Waiter.cancel : Waiter → Waiter
  | pending | cancelled => cancelled
  | woken | wokenThenCancelled => wokenThenCancelled

structure Lock (τ : Type*) where
  locked : Bool
  waiters : List (τ × Waiter)

namespace Lock
variable {τ : Type*}

def free : Lock τ := ⟨false, []⟩

/-- The lock is taken at once unless it is locked or somebody waits for it. -/
def acquire (lock : Lock τ) (task : τ) : Bool × Lock τ :=
  if !lock.locked && lock.waiters.all (·.2 = .cancelled) then (true, { lock with locked := true })
  else (false, { lock with waiters := lock.waiters ++ [(task, .pending)] })

def wakeUpFirst (lock : Lock τ) : Lock τ :=
  match lock.waiters with
  | (task, .pending) :: rest => { lock with waiters := (task, .woken) :: rest }
  | _ => lock

/-- Nobody asks who has locked it. It is an error to release a lock that is not locked. -/
def release (lock : Lock τ) : Option (Lock τ) :=
  if lock.locked then some ({ lock with locked := false } : Lock τ).wakeUpFirst else none

variable [DecidableEq τ]

def cancel (lock : Lock τ) (task : τ) : Lock τ :=
  { lock with waiters := lock.waiters.map fun waiter => if waiter.1 = task then (waiter.1, waiter.2.cancel) else waiter }

def leave (lock : Lock τ) (task : τ) : Lock τ := { lock with waiters := lock.waiters.filter fun waiter => waiter.1 ≠ task }

/-- How `acquire` ends for a task that runs again: whether it has the lock. -/
def resume (lock : Lock τ) (task : τ) : Option (Bool × Lock τ) :=
  match lock.waiters.lookup task with
  | none | some .pending => none
  | some .woken => some (true, { lock.leave task with locked := true })
  | some .wokenThenCancelled | some .cancelled =>
    some (false, if lock.locked then lock.leave task else (lock.leave task).wakeUpFirst)

end Lock
end OmocNode.AsyncLock
