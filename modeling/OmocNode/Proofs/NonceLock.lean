import OmocNode.BcExecute
import OmocNode.Proofs.AsyncLock
import OmocNode.Runs

/-! One transaction at a time for one address. The `finally` of a call that was
cancelled while it waited releases the lock too, of whoever has it. -/

namespace OmocNode.Proofs.NonceLock
open AsyncLock BcExecute Runs

variable {τ : Type*} {configured : Option ℕ} {manager : NonceManager τ} {state next : State τ} {lock : Lock τ}
  {call : Execution} {outcome : Outcome} {progress : Progress} {task : τ} {threads : List (τ × Place)}

@[simp] theorem getLock_some : NonceManager.getLock ⟨some lock⟩ = lock := rfl

/-- The unconditional release of an address either finds its lock free, or frees it. -/
theorem release_cases (manager : NonceManager τ) :
    manager.getLock.locked = false ∧ manager.release = manager ∨ manager.getLock.release = some manager.release.getLock := by
  unfold NonceManager.release
  split
  next missing => exact .inl ⟨by simp [NonceManager.getLock, missing, Lock.free], rfl⟩
  next lock present =>
    have same : manager.getLock = lock := by rw [NonceManager.getLock, present]; rfl
    rw [same]
    split
    next locked =>
      have freed : lock.release = some ({ lock with locked := false } : Lock τ).wakeUpFirst := Lock.release_eq_some.mpr ⟨locked, rfl⟩
      rw [freed]
      exact .inr rfl
    next unlocked => exact .inl ⟨by simpa using unlocked, rfl⟩

/-- Whatever the release finds, the waiters stay and stay in order. -/
theorem release_keeps (orderly : manager.getLock.Orderly) :
    manager.release.getLock.Orderly ∧ manager.release.getLock.tasks = manager.getLock.tasks := by
  rcases release_cases manager with ⟨-, same⟩ | freed
  · rw [same]
    exact ⟨orderly, rfl⟩
  · exact ⟨Lock.release_orderly orderly freed, Lock.release_tasks freed⟩

private theorem commit_orderly (orderly : state.manager.getLock.Orderly) : state.commit.manager.getLock.Orderly := by
  rw [State.commit, getLock_some]
  cases freed : state.manager.getLock.release with
  | none => exact orderly
  | some released => exact Lock.release_orderly orderly freed

theorem commit_tasks : state.commit.manager.getLock.tasks = state.manager.getLock.tasks := by
  rw [State.commit, getLock_some]
  cases freed : state.manager.getLock.release with
  | none => rfl
  | some released => exact Lock.release_tasks freed

/-- A call that goes on to an `await` still has the lock there. -/
def KeepsLock : Progress → Prop
  | .awaits call => call.place.hasLock
  | .commits | .fails => True

private theorem getTx_keepsLock : KeepsLock call.getTx := by
  unfold Execution.getTx
  split <;> trivial

private theorem nextAttempt_keepsLock {attempt : ℕ} : KeepsLock (call.nextAttempt attempt) := by
  unfold Execution.nextAttempt
  split <;> trivial

theorem resume_keepsLock (resumed : call.resume configured outcome = some progress) : KeepsLock progress := by
  unfold Execution.resume at resumed
  split at resumed
  all_goals try contradiction
  case h_8 =>
    -- A node without a chain id is an error, unless one is configured.
    split at resumed
    all_goals
      obtain rfl := Option.some.inj resumed
      trivial
  all_goals
    obtain rfl := Option.some.inj resumed
    try first | trivial | exact getTx_keepsLock | exact nextAttempt_keepsLock
  case h_9 =>
    split
    · trivial
    · exact nextAttempt_keepsLock
  case h_11 => split <;> trivial

/-- A call that is resumed, other than with the lock it waited for, had the lock. -/
theorem hasLock_of_resume (resumed : call.resume configured outcome = some progress) : call.place.hasLock := by
  unfold Execution.resume at resumed
  cases place : call.place with
  | idle => simp [place] at resumed
  | acquiring => simp [place] at resumed
  | finished => simp [place] at resumed
  | _ => trivial

/-- At most one call is between obtaining the lock and its own release. -/
def OneHasLock (state : State τ) : Prop :=
  ∀ task other, (state.calls task).place.hasLock → (state.calls other).place.hasLock → task = other

structure Safe (state : State τ) : Prop where
  orderly : state.manager.getLock.Orderly
  waits : ∀ task, task ∈ state.manager.getLock.tasks ↔ (state.calls task).place = .acquiring
  locked : ∀ task, (state.calls task).place.hasLock → state.manager.getLock.locked = true
  one : OneHasLock state

theorem Safe.nobody (safe : Safe state) (unlocked : state.manager.getLock.locked = false) :
    ∀ task, ¬(state.calls task).place.hasLock := by
  intro task holds
  rw [safe.locked task holds] at unlocked
  contradiction

private theorem hasLock_of_usesNonce {place : Place} (uses : place.usesNonce) : place.hasLock := by
  cases place with
  | fetchingNonce | sending | readingCommitted _ => trivial
  | _ => exact uses.elim

theorem not_acquiring {place : Place} (holds : place.hasLock) : place ≠ .acquiring := by
  rintro rfl
  exact holds

private theorem initial_safe : Safe (State.initial : State τ) where
  orderly := Lock.free_orderly
  waits _ := ⟨fun member => absurd member List.not_mem_nil, fun place => by cases place⟩
  locked _ holds := holds.elim
  one _ _ holds := holds.elim

/-- Work with the nonce is a call's own, or that of the thread it has left behind. -/
def UsesNonce (state : State τ) (task : τ) : Prop :=
  (state.calls task).place.usesNonce ∨ ∃ place, (task, place) ∈ state.threads ∧ place.usesNonce

/-- At most one call reads the pending nonce or sends a transaction. -/
def OneUsesNonce (state : State τ) : Prop := ∀ task other, UsesNonce state task → UsesNonce state other → task = other

/-- No thread that a call has left behind reads the nonce or sends. -/
def Quiet (state : State τ) : Prop := ∀ thread ∈ state.threads, ¬thread.2.usesNonce

private theorem hasLock_of_usesNonce_quiet (quiet : Quiet state) (uses : UsesNonce state task) : (state.calls task).place.hasLock := by
  rcases uses with own | ⟨place, left, uses⟩
  · exact hasLock_of_usesNonce own
  · exact absurd uses (quiet _ left)

/-- A call that ends with an error leaves the lock and the other calls as they are. -/
theorem abandon_eq (state : State τ) (task : τ) (outcome : Outcome) :
    ∃ threads, state.abandon task outcome = ⟨state.manager, state.calls, threads⟩ := by
  unfold State.abandon
  split
  · split <;> exact ⟨_, rfl⟩
  · exact ⟨_, rfl⟩

variable [DecidableEq τ]

/-- One call moves on, and the lock's waiters other than that call stay who they are. -/
theorem update_safe (safe : Safe state) (orderly : manager.getLock.Orderly)
    (others : ∀ other, other ≠ task → (other ∈ manager.getLock.tasks ↔ other ∈ state.manager.getLock.tasks))
    (own : task ∈ manager.getLock.tasks ↔ call.place = .acquiring)
    (locked : ∀ other, other ≠ task → (state.calls other).place.hasLock → manager.getLock.locked = true)
    (alone : call.place.hasLock → manager.getLock.locked = true ∧ ∀ other, other ≠ task → ¬(state.calls other).place.hasLock) :
    Safe ⟨manager, Function.update state.calls task call, threads⟩ := by
  have at_task : Function.update state.calls task call task = call := Function.update_self ..
  have at_other : ∀ other, other ≠ task → Function.update state.calls task call other = state.calls other :=
    fun other different => Function.update_of_ne different ..
  constructor
  · exact orderly
  · intro other
    by_cases same : other = task
    · subst same
      simpa only [at_task] using own
    · simp only [at_other other same]
      exact (others other same).trans (safe.waits other)
  · intro other holds
    by_cases same : other = task
    · subst same
      simp only [at_task] at holds
      exact (alone holds).1
    · simp only [at_other other same] at holds
      exact locked other same holds
  · intro first second first_holds second_holds
    by_cases first_task : first = task
    · subst first_task
      simp only [at_task] at first_holds
      by_contra different
      simp only [at_other second (Ne.symm different)] at second_holds
      exact (alone first_holds).2 second (Ne.symm different) second_holds
    · simp only [at_other first first_task] at first_holds
      by_cases second_task : second = task
      · subst second_task
        simp only [at_task] at second_holds
        exact absurd first_holds ((alone second_holds).2 first first_task)
      · simp only [at_other second second_task] at second_holds
        exact safe.one first second first_holds second_holds

private theorem start_safe (safe : Safe state) (idle : (state.calls task).place = .idle) (gas : Option ℕ) (wait : Bool) :
    Safe (state.start task gas wait) := by
  have absent : task ∉ state.manager.getLock.tasks := by
    rw [safe.waits, idle]
    exact Place.noConfusion
  unfold State.start
  cases acquired : state.manager.getLock.acquire task with
  | mk obtained lock =>
    have orderly : (NonceManager.getLock ⟨some lock⟩).Orderly := Lock.acquire_orderly safe.orderly acquired
    cases obtained with
    | true =>
      obtain ⟨unlocked, locked, sameTasks⟩ := Lock.acquire_true acquired
      have nobody := safe.nobody unlocked
      apply update_safe safe orderly
      · intro other _
        rw [getLock_some, sameTasks]
      · rw [getLock_some, sameTasks]
        exact iff_of_false absent Place.noConfusion
      · intro other _ holds
        exact absurd holds (nobody other)
      · exact fun _ => ⟨locked, fun other _ => nobody other⟩
    | false =>
      obtain ⟨sameLocked, moreTasks⟩ := Lock.acquire_false acquired
      apply update_safe safe orderly
      · intro other different
        rw [getLock_some, moreTasks, List.mem_append, List.mem_singleton]
        exact or_iff_left different
      · rw [getLock_some, moreTasks, List.mem_append, List.mem_singleton]
        exact iff_of_true (.inr rfl) rfl
      · intro other _ holds
        rw [getLock_some, sameLocked]
        exact safe.locked other holds
      · exact False.elim

private theorem cancel_safe (safe : Safe state) : Safe { state with manager := ⟨state.manager.getLock.cancel task⟩ } where
  orderly := Lock.cancel_orderly safe.orderly
  waits other := by
    rw [getLock_some, Lock.cancel_tasks]
    exact safe.waits other
  locked other holds := safe.locked other holds
  one := safe.one

/-- A call that ends while no other call has the lock. -/
theorem leave_safe (safe : Safe state) (orderly : manager.getLock.Orderly)
    (waits : ∀ other, other ∈ manager.getLock.tasks ↔ other ∈ state.manager.getLock.tasks ∧ other ≠ task)
    (alone : ∀ other, other ≠ task → ¬(state.calls other).place.hasLock) :
    Safe (State.leave ⟨manager, state.calls, threads⟩ task) := by
  obtain ⟨stillOrderly, sameTasks⟩ := release_keeps orderly
  apply update_safe safe stillOrderly
  · intro other different
    rw [sameTasks, waits]
    exact and_iff_left different
  · rw [sameTasks, waits]
    exact iff_of_false (fun member => member.2 rfl) Place.noConfusion
  · intro other different holds
    exact absurd holds (alone other different)
  · exact False.elim

/-- Nobody has the lock when a call whose wait for it was cancelled runs again, and no call is
cancelled while its thread reads the pending nonce or sends. -/
def NoEarlyRelease (state : State τ) : Event τ → Prop
  | .wake task => ∀ waiter, state.manager.getLock.waiters.lookup task = some waiter →
      waiter = .cancelled ∨ waiter = .wokenThenCancelled → state.manager.getLock.locked = false
  | .resume task (.cancelled true) => ¬(state.calls task).place.usesNonce
  | _ => True

private theorem wake_safe (safe : Safe state) (inTime : NoEarlyRelease state (.wake task))
    (stepped : state.step configured (.wake task) = some next) : Safe next := by
  rw [State.step] at stepped
  split at stepped
  next => contradiction
  next lock resumed =>
    obtain rfl := Option.some.inj stepped
    obtain ⟨unlocked, locked, orderly⟩ := Lock.resume_true_orderly safe.orderly resumed
    have nobody := safe.nobody unlocked
    have stillOrderly : (NonceManager.getLock ⟨some lock⟩).Orderly := orderly
    apply update_safe safe stillOrderly
    · intro other different
      rw [getLock_some, Lock.mem_resume_tasks resumed]
      exact and_iff_left different
    · rw [getLock_some, Lock.mem_resume_tasks resumed]
      exact iff_of_false (fun member => member.2 rfl) Place.noConfusion
    · intro other _ holds
      exact absurd holds (nobody other)
    · exact fun _ => ⟨locked, fun other _ => nobody other⟩
  next lock resumed =>
    obtain rfl := Option.some.inj stepped
    obtain ⟨waiter, found, cancelled⟩ := Lock.cancelled_of_resume_false resumed
    have nobody := safe.nobody (inTime waiter found cancelled)
    rw [State.set, Function.update_eq_self]
    refine leave_safe safe (Lock.resume_false_orderly safe.orderly resumed).2 ?_ (fun other _ => nobody other)
    intro other
    exact Lock.mem_resume_tasks resumed

private theorem resume_safe (safe : Safe state) (stepped : state.step configured (.resume task outcome) = some next) : Safe next := by
  rw [State.step] at stepped
  cases resumed : (state.calls task).resume configured outcome with
  | none => simp [resumed] at stepped
  | some progress =>
    have holds := hasLock_of_resume resumed
    have absent : task ∉ state.manager.getLock.tasks := by
      rw [safe.waits]
      exact not_acquiring holds
    have leaves : ∀ other, other ∈ state.manager.getLock.tasks ↔ other ∈ state.manager.getLock.tasks ∧ other ≠ task := by
      intro other
      refine ⟨fun member => ⟨member, ?_⟩, And.left⟩
      rintro rfl
      exact absent member
    have alone : ∀ other, other ≠ task → ¬(state.calls other).place.hasLock := by
      intro other different other_holds
      exact different (safe.one other task other_holds holds)
    simp only [resumed] at stepped
    cases progress with
    | awaits call =>
      obtain rfl := Option.some.inj stepped
      have keeps : call.place.hasLock := resume_keepsLock resumed
      apply update_safe safe safe.orderly
      · exact fun _ _ => Iff.rfl
      · exact iff_of_false absent (not_acquiring keeps)
      · exact fun other _ => safe.locked other
      · exact fun _ => ⟨safe.locked task holds, alone⟩
    | commits =>
      obtain rfl := Option.some.inj stepped
      have sameLeaves : ∀ other, other ∈ state.commit.manager.getLock.tasks ↔
          other ∈ state.manager.getLock.tasks ∧ other ≠ task := by
        rw [commit_tasks]
        exact leaves
      exact leave_safe safe (commit_orderly safe.orderly) sameLeaves alone
    | fails =>
      obtain rfl := Option.some.inj stepped
      obtain ⟨threads, abandoned⟩ := abandon_eq state task outcome
      rw [abandoned]
      exact leave_safe safe safe.orderly leaves alone

private theorem step_safe (state : State τ) (event : Event τ) (next : State τ) (safe : Safe state) (inTime : NoEarlyRelease state event)
    (stepped : state.step configured event = some next) : Safe next := by
  cases event with
  | start task gas wait =>
    rw [State.step] at stepped
    split at stepped
    next idle =>
      obtain rfl := Option.some.inj stepped
      exact start_safe safe idle gas wait
    next => contradiction
  | cancel task =>
    rw [State.step] at stepped
    split at stepped
    next =>
      obtain rfl := Option.some.inj stepped
      exact cancel_safe safe
    next => contradiction
  | wake task => exact wake_safe safe inTime stepped
  | resume task outcome => exact resume_safe safe stepped
  | threadEnds task place =>
    rw [State.step] at stepped
    split at stepped
    next =>
      obtain rfl := Option.some.inj stepped
      exact ⟨safe.orderly, safe.waits, safe.locked, safe.one⟩
    next => contradiction

private theorem abandon_quiet (quiet : Quiet state) (inTime : NoEarlyRelease state (.resume task outcome)) :
    Quiet (state.abandon task outcome) := by
  unfold State.abandon
  split
  · split
    · exact List.forall_mem_cons.mpr ⟨inTime, quiet⟩
    · exact quiet
  · exact quiet

private theorem step_quiet (state : State τ) (event : Event τ) (next : State τ) (quiet : Quiet state) (inTime : NoEarlyRelease state event)
    (stepped : state.step configured event = some next) : Quiet next := by
  unfold State.step at stepped
  cases event with
  | start task gas wait =>
    simp only [Option.ite_none_right_eq_some, Option.some.injEq] at stepped
    obtain ⟨-, rfl⟩ := stepped
    unfold State.start
    split <;> exact quiet
  | cancel task =>
    simp only [Option.ite_none_right_eq_some, Option.some.injEq] at stepped
    obtain ⟨-, rfl⟩ := stepped
    exact quiet
  | wake task =>
    simp only at stepped
    split at stepped
    · contradiction
    all_goals
      obtain rfl := Option.some.inj stepped
      exact quiet
  | resume task outcome =>
    simp only at stepped
    split at stepped
    · contradiction
    · obtain rfl := Option.some.inj stepped
      exact quiet
    · obtain rfl := Option.some.inj stepped
      exact quiet
    · obtain rfl := Option.some.inj stepped
      exact abandon_quiet quiet inTime
  | threadEnds task place =>
    simp only [Option.ite_none_right_eq_some, Option.some.injEq] at stepped
    obtain ⟨-, rfl⟩ := stepped
    exact fun thread member => quiet thread (List.mem_of_mem_erase member)

theorem one_call_has_lock {events : List (Event τ)} {final : State τ}
    (inTime : Along (State.step configured) NoEarlyRelease State.initial events)
    (ran : run (State.step configured) State.initial events = some final) : OneHasLock final ∧ OneUsesNonce final := by
  have one := (run_invariant step_safe initial_safe inTime ran).one
  have quiet : Quiet final := run_invariant step_quiet (fun _ inside => absurd inside List.not_mem_nil) inTime ran
  refine ⟨one, fun task other mine theirs => one task other ?_ ?_⟩
  · exact hasLock_of_usesNonce_quiet quiet mine
  · exact hasLock_of_usesNonce_quiet quiet theirs

/-- A call is cancelled while its thread estimates the gas, and hands the lock to
the one that waits; the thread goes on. -/
theorem one_call_has_lock_after_cancel :
    ∃ final, run (State.step (some 30)) (State.initial : State ℕ)
      [.start 0 none true, .start 1 (some 21000) false, .resume 0 (.value 7), .resume 0 (.cancelled true), .wake 1] = some final ∧
      final.threads = [(0, .estimatingGas)] ∧ OneHasLock final ∧ OneUsesNonce final := by
  have ran : run (State.step (some 30)) (State.initial : State ℕ)
      [.start 0 none true, .start 1 (some 21000) false, .resume 0 (.value 7), .resume 0 (.cancelled true), .wake 1] = some _ := rfl
  refine ⟨_, ran, rfl, one_call_has_lock ?_ ran⟩
  refine ⟨trivial, fun _ first => ⟨trivial, fun _ second => ⟨trivial, fun _ third => ⟨?_, fun _ fourth =>
    ⟨?_, fun _ _ => trivial⟩⟩⟩⟩⟩
  all_goals
    obtain rfl := Option.some.inj first
    obtain rfl := Option.some.inj second
    obtain rfl := Option.some.inj third
  · exact id
  · obtain rfl := Option.some.inj fourth
    intro waiter found cancelled
    obtain rfl := Option.some.inj found
    rcases cancelled with wrong | wrong
    all_goals contradiction

/-- A call that is cancelled while it waits frees the lock of the first, and another takes it before
the first has sent anything. A call that is cancelled while its thread sends frees its
own, and the next reads the pending nonce at the same time. -/
theorem cancellation_frees_lock :
    (∃ final, run (State.step (some 30)) (State.initial : State ℕ)
      [.start 0 none true, .start 1 none true, .cancel 1, .wake 1, .start 2 none true] = some final ∧ ¬OneHasLock final) ∧
    ∃ final, run (State.step (some 30)) (State.initial : State ℕ)
      [.start 0 (some 21000) true, .start 1 none true, .resume 0 (.value 7), .resume 0 (.value 30), .resume 0 (.cancelled true),
        .wake 1] = some final ∧ ¬OneUsesNonce final := by
  constructor
  · exact ⟨_, rfl, fun one => absurd (one 0 2 trivial trivial) (by decide)⟩
  · exact ⟨_, rfl, fun one => absurd (one 0 1 (.inr ⟨.sending, .head _, trivial⟩) (.inl trivial)) (by decide)⟩

end OmocNode.Proofs.NonceLock
