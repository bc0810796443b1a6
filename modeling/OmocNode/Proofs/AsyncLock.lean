import Mathlib.Tactic
import OmocNode.AsyncLock

/-! What the operations of the lock keep: only the first waiter can have been
woken, and only while nobody has the lock. -/

namespace OmocNode.AsyncLock.Lock

variable {τ : Type*} {lock next : Lock τ} {task other : τ}

def tasks (lock : Lock τ) : List τ := lock.waiters.map Prod.fst

structure Orderly (lock : Lock τ) : Prop where
  first_only : ∀ waiter ∈ lock.waiters.tail, waiter.2.isWoken = false
  unlocked : ∀ waiter ∈ lock.waiters, waiter.2.isWoken = true → lock.locked = false

theorem free_orderly : (free : Lock τ).Orderly := ⟨by simp [free], by simp [free]⟩

/-- A list of waiters none of whom was woken is in order however the lock stands. -/
theorem orderly_of_asleep (asleep : ∀ waiter ∈ lock.waiters, waiter.2.isWoken = false) : lock.Orderly := by
  refine ⟨fun waiter member => asleep waiter (List.mem_of_mem_tail member), ?_⟩
  intro waiter member woken
  rw [asleep waiter member] at woken
  contradiction

@[simp] theorem wakeUpFirst_locked : lock.wakeUpFirst.locked = lock.locked := by
  unfold wakeUpFirst
  split <;> rfl

@[simp] theorem wakeUpFirst_tasks : lock.wakeUpFirst.tasks = lock.tasks := by
  unfold wakeUpFirst
  split
  next task rest waiters => simp [tasks, waiters]
  next => rfl

theorem wakeUpFirst_tail : lock.wakeUpFirst.waiters.tail = lock.waiters.tail := by
  unfold wakeUpFirst
  split
  next task rest waiters => rw [waiters]; rfl
  next => rfl

/-- The first waiter may be woken while the lock is not locked. -/
theorem wakeUpFirst_orderly (unlocked : lock.locked = false)
    (asleep : ∀ waiter ∈ lock.waiters.tail, waiter.2.isWoken = false) : lock.wakeUpFirst.Orderly := by
  refine ⟨?_, fun _ _ _ => by rw [wakeUpFirst_locked, unlocked]⟩
  rw [wakeUpFirst_tail]
  exact asleep

theorem release_eq_some : lock.release = some next ↔
    lock.locked = true ∧ ({ lock with locked := false } : Lock τ).wakeUpFirst = next := by
  unfold release
  split
  next locked => simp [locked]
  next unlocked => simp [unlocked]

theorem release_orderly (orderly : lock.Orderly) (released : lock.release = some next) : next.Orderly := by
  obtain ⟨-, rfl⟩ := release_eq_some.mp released
  exact wakeUpFirst_orderly rfl orderly.first_only

theorem release_tasks (released : lock.release = some next) : next.tasks = lock.tasks := by
  obtain ⟨-, rfl⟩ := release_eq_some.mp released
  exact wakeUpFirst_tasks

theorem acquire_orderly {obtained : Bool} (orderly : lock.Orderly) (acquired : lock.acquire task = (obtained, next)) :
    next.Orderly := by
  unfold acquire at acquired
  split at acquired
  next free =>
    obtain ⟨rfl, rfl⟩ := Prod.mk.inj acquired
    apply orderly_of_asleep
    intro waiter member
    have cancelled := (Bool.and_eq_true_iff.mp free).2
    rw [List.all_eq_true] at cancelled
    rw [of_decide_eq_true (cancelled waiter member)]
    rfl
  next =>
    obtain ⟨rfl, rfl⟩ := Prod.mk.inj acquired
    have old_or_new : ∀ waiter ∈ lock.waiters ++ [(task, Waiter.pending)], waiter ∈ lock.waiters ∨ waiter.2.isWoken = false := by
      intro waiter member
      rcases List.mem_append.mp member with old | new
      · exact .inl old
      · exact .inr (by rw [List.mem_singleton.mp new]; rfl)
    constructor
    · intro waiter member
      cases waiters : lock.waiters with
      | nil => simp [waiters] at member
      | cons first rest =>
        simp only [waiters, List.cons_append, List.tail_cons, List.mem_append, List.mem_singleton] at member
        rcases member with old | rfl
        · exact orderly.first_only waiter (by rw [waiters]; exact old)
        · rfl
    · intro waiter member woken
      rcases old_or_new waiter member with old | asleep
      · exact orderly.unlocked waiter old woken
      · rw [asleep] at woken
        contradiction

theorem acquire_true (acquired : lock.acquire task = (true, next)) :
    lock.locked = false ∧ next.locked = true ∧ next.tasks = lock.tasks := by
  unfold acquire at acquired
  split at acquired
  next free =>
    obtain ⟨-, rfl⟩ := Prod.mk.inj acquired
    exact ⟨by simpa using (Bool.and_eq_true_iff.mp free).1, rfl, rfl⟩
  next => simp at acquired

theorem acquire_false (acquired : lock.acquire task = (false, next)) :
    next.locked = lock.locked ∧ next.tasks = lock.tasks ++ [task] := by
  unfold acquire at acquired
  split at acquired
  next => simp at acquired
  next =>
    obtain ⟨-, rfl⟩ := Prod.mk.inj acquired
    exact ⟨rfl, by simp [tasks]⟩

/-- While the lock is free its first waiter, if it has one, was told so. -/
def Awake (lock : Lock τ) : Prop := lock.locked = false → ∀ waiter ∈ lock.waiters.head?, waiter.2 ≠ .pending

theorem free_awake : (free : Lock τ).Awake := fun _ waiter member => by simp [free] at member

theorem awake_of_locked (locked : lock.locked = true) : lock.Awake := by
  intro unlocked
  rw [locked] at unlocked
  contradiction

theorem wakeUpFirst_awake : lock.wakeUpFirst.Awake := by
  intro _ waiter first
  unfold wakeUpFirst at first
  split at first
  next =>
    obtain rfl := Option.some.inj first
    exact Waiter.noConfusion
  next notPending =>
    intro pending
    cases waiters : lock.waiters with
    | nil => simp [waiters] at first
    | cons head rest =>
      rw [waiters] at first
      obtain rfl := Option.some.inj first
      obtain ⟨task, state⟩ := head
      obtain rfl : state = .pending := pending
      exact notPending task rest waiters

theorem release_awake (released : lock.release = some next) : next.Awake := by
  obtain ⟨-, rfl⟩ := release_eq_some.mp released
  exact wakeUpFirst_awake

theorem release_unlocked (released : lock.release = some next) : next.locked = false := by
  obtain ⟨-, rfl⟩ := release_eq_some.mp released
  exact wakeUpFirst_locked

/-- A free lock is refused only to a task that finds others waiting. -/
theorem acquire_awake {obtained : Bool} (awake : lock.Awake) (acquired : lock.acquire task = (obtained, next)) : next.Awake := by
  cases obtained with
  | true => exact awake_of_locked (acquire_true acquired).2.1
  | false =>
    unfold acquire at acquired
    split at acquired
    next => simp at acquired
    next refused =>
      obtain ⟨-, rfl⟩ := Prod.mk.inj acquired
      intro unlocked
      cases waiters : lock.waiters with
      | nil =>
        have unlocked : lock.locked = false := unlocked
        simp [waiters, unlocked] at refused
      | cons first rest =>
        have told := awake unlocked
        simpa [waiters] using told

variable [DecidableEq τ]

theorem cancel_not_pending (waiter : Waiter) : waiter.cancel ≠ .pending := by cases waiter <;> exact Waiter.noConfusion

theorem cancel_awake (awake : lock.Awake) : (lock.cancel task).Awake := by
  intro unlocked waiter first
  simp only [cancel, List.head?_map, Option.mem_def, Option.map_eq_some_iff] at first
  obtain ⟨before, old, rfl⟩ := first
  split
  next => exact cancel_not_pending before.2
  next => exact awake unlocked before old

@[simp] theorem cancel_isWoken (waiter : Waiter) : waiter.cancel.isWoken = waiter.isWoken := by
  cases waiter <;> rfl

theorem cancel_orderly (orderly : lock.Orderly) : (lock.cancel task).Orderly := by
  constructor
  · intro waiter member
    rw [cancel, ← List.map_tail] at member
    obtain ⟨before, old, rfl⟩ := List.mem_map.mp member
    have asleep := orderly.first_only before old
    split <;> simp [asleep]
  · intro waiter member woken
    obtain ⟨before, old, rfl⟩ := List.mem_map.mp member
    apply orderly.unlocked before old
    split at woken
    · simpa using woken
    · exact woken

@[simp] theorem cancel_tasks : (lock.cancel task).tasks = lock.tasks := by
  simp only [cancel, tasks, List.map_map]
  apply List.map_congr_left
  intro waiter _
  simp only [Function.comp]
  split <;> rfl

@[simp] theorem leave_locked : (lock.leave task).locked = lock.locked := rfl

theorem leave_asleep_tail (orderly : lock.Orderly) :
    ∀ waiter ∈ (lock.leave task).waiters.tail, waiter.2.isWoken = false := by
  intro waiter member
  have sublist : List.Sublist (lock.leave task).waiters.tail lock.waiters.tail := List.filter_sublist.tail
  exact orderly.first_only waiter (sublist.subset member)

theorem leave_orderly (orderly : lock.Orderly) : (lock.leave task).Orderly := by
  refine ⟨leave_asleep_tail orderly, ?_⟩
  intro waiter member
  exact orderly.unlocked waiter (List.mem_filter.mp member).1

theorem mem_leave_tasks : other ∈ (lock.leave task).tasks ↔ other ∈ lock.tasks ∧ other ≠ task := by
  simp only [leave, tasks, List.mem_map, List.mem_filter]
  constructor
  · rintro ⟨waiter, ⟨member, different⟩, rfl⟩
    exact ⟨⟨waiter, member, rfl⟩, by simpa using different⟩
  · rintro ⟨⟨waiter, member, rfl⟩, different⟩
    exact ⟨waiter, ⟨member, by simpa using different⟩, rfl⟩

/-- Where the task is among the waiters. -/
theorem mem_waiters_of_lookup {waiter : Waiter} (found : lock.waiters.lookup task = some waiter) :
    (task, waiter) ∈ lock.waiters := by
  obtain ⟨before, rest, waiters, -⟩ := List.lookup_eq_some_iff.mp found
  rw [waiters]
  exact List.mem_append_right before List.mem_cons_self

theorem resume_true (resumed : lock.resume task = some (true, next)) :
    (task, Waiter.woken) ∈ lock.waiters ∧ next = { lock.leave task with locked := true } := by
  unfold resume at resumed
  split at resumed
  next => contradiction
  next => contradiction
  next found =>
    obtain ⟨-, rfl⟩ := Prod.mk.inj (Option.some.inj resumed)
    exact ⟨mem_waiters_of_lookup found, rfl⟩
  next => simp at resumed
  next => simp at resumed

theorem resume_false (resumed : lock.resume task = some (false, next)) :
    next = if lock.locked then lock.leave task else (lock.leave task).wakeUpFirst := by
  unfold resume at resumed
  split at resumed
  next => contradiction
  next => contradiction
  next => simp at resumed
  next => exact (Prod.mk.inj (Option.some.inj resumed)).2.symm
  next => exact (Prod.mk.inj (Option.some.inj resumed)).2.symm

theorem cancelled_of_resume_false (resumed : lock.resume task = some (false, next)) :
    ∃ waiter, lock.waiters.lookup task = some waiter ∧ (waiter = .cancelled ∨ waiter = .wokenThenCancelled) := by
  unfold resume at resumed
  split at resumed
  next => contradiction
  next => contradiction
  next => simp at resumed
  next found => exact ⟨_, found, .inr rfl⟩
  next found => exact ⟨_, found, .inl rfl⟩

/-- The task that was woken takes the lock that nobody has, and leaves no other woken. -/
theorem resume_true_orderly (orderly : lock.Orderly) (resumed : lock.resume task = some (true, next)) :
    lock.locked = false ∧ next.locked = true ∧ next.Orderly := by
  obtain ⟨member, rfl⟩ := resume_true resumed
  refine ⟨orderly.unlocked _ member rfl, rfl, ?_⟩
  apply orderly_of_asleep
  intro waiter kept
  obtain ⟨old, different⟩ := List.mem_filter.mp kept
  apply orderly.first_only
  cases waiters : lock.waiters with
  | nil => simp [waiters] at member
  | cons first rest =>
    have woken_first : first = (task, Waiter.woken) := by
      rcases List.mem_cons.mp (waiters ▸ member) with same | later
      · exact same.symm
      · have asleep := orderly.first_only _ (by rw [waiters]; exact later)
        simp [Waiter.isWoken] at asleep
    rcases List.mem_cons.mp (waiters ▸ old) with rfl | later
    · simp [woken_first] at different
    · exact later

theorem resume_false_orderly (orderly : lock.Orderly) (resumed : lock.resume task = some (false, next)) :
    next.locked = lock.locked ∧ next.Orderly := by
  obtain rfl := resume_false resumed
  split
  next => exact ⟨rfl, leave_orderly orderly⟩
  next unlocked =>
    have open_lock : (lock.leave task).locked = false := by simpa using unlocked
    exact ⟨wakeUpFirst_locked, wakeUpFirst_orderly open_lock (leave_asleep_tail orderly)⟩

theorem mem_resume_tasks {obtained : Bool} (resumed : lock.resume task = some (obtained, next)) :
    other ∈ next.tasks ↔ other ∈ lock.tasks ∧ other ≠ task := by
  cases obtained with
  | true =>
    obtain ⟨-, rfl⟩ := resume_true resumed
    exact mem_leave_tasks
  | false =>
    obtain rfl := resume_false resumed
    split
    · exact mem_leave_tasks
    · rw [wakeUpFirst_tasks]
      exact mem_leave_tasks

theorem mem_tasks_of_resume {obtained : Bool} (resumed : lock.resume task = some (obtained, next)) : task ∈ lock.tasks := by
  cases obtained with
  | true => exact List.mem_map.mpr ⟨_, (resume_true resumed).1, rfl⟩
  | false =>
    obtain ⟨waiter, found, -⟩ := cancelled_of_resume_false resumed
    exact List.mem_map.mpr ⟨_, mem_waiters_of_lookup found, rfl⟩

theorem resume_awake {obtained : Bool} (resumed : lock.resume task = some (obtained, next)) : next.Awake := by
  cases obtained with
  | true =>
    obtain ⟨-, rfl⟩ := resume_true resumed
    exact awake_of_locked rfl
  | false =>
    obtain rfl := resume_false resumed
    split
    next locked => exact awake_of_locked locked
    next => exact wakeUpFirst_awake

/-- Somebody who waits for a free lock can go on. -/
theorem exists_resume (awake : lock.Awake) (unlocked : lock.locked = false) (member : task ∈ lock.tasks) :
    ∃ first, (lock.resume first).isSome = true := by
  cases waiters : lock.waiters with
  | nil => simp [tasks, waiters] at member
  | cons first rest =>
    have told : first.2 ≠ .pending := awake unlocked first (by rw [waiters]; rfl)
    refine ⟨first.1, ?_⟩
    have found : lock.waiters.lookup first.1 = some first.2 :=
      List.lookup_eq_some_iff.mpr ⟨[], rest, waiters, fun _ inside => by cases inside⟩
    rw [resume, found]
    cases state : first.2 with
    | pending => exact absurd state told
    | woken => rfl
    | wokenThenCancelled => rfl
    | cancelled => rfl

end OmocNode.AsyncLock.Lock
