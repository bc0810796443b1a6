import OmocNode.Proofs.NonceLock

/-! The calls for one address all end, however they fail and however often they
are cancelled. A stray release costs the lock its exclusion, and no call its turn. -/

namespace OmocNode.Proofs.NonceProgress
open AsyncLock BcExecute Runs NonceLock

variable {τ : Type*} {configured : Option ℕ} {manager : NonceManager τ} {state next final : State τ} {call resumed : Execution}
  {outcome : Outcome} {progress : Progress} {task : τ} {threads : List (τ × Place)} {attempt : ℕ}

/-- How many more times a call can run before it ends. -/
def remaining : Place → ℕ
  | .idle | .acquiring => 2 * attempts + 6
  | .fetchingNonce => 2 * attempts + 5
  | .estimatingGas => 2 * attempts + 4
  | .readingChainId => 2 * attempts + 3
  | .sending => 2 * attempts + 2
  | .waitingReceipt => 2 * attempts + 1
  | .readingCommitted attempt => 2 * (attempts - attempt)
  | .sleeping attempt => 2 * (attempts - attempt) - 1
  | .finished => 0

def Counted : Place → Prop
  | .readingCommitted attempt | .sleeping attempt => attempt < attempts
  | _ => True

/-- A call that has the lock still has to run at least once. -/
theorem remaining_pos {place : Place} (holds : place.hasLock) (counted : Counted place) : 0 < remaining place := by
  cases place with
  | idle | acquiring | finished => exact holds.elim
  | readingCommitted attempt | sleeping attempt =>
    have inside : attempt < attempts := counted
    simp only [remaining]
    omega
  | _ => exact Nat.succ_pos _

/-- A call that goes on to an `await` has less before it there. -/
def Shortens (call : Execution) : Progress → Prop
  | .awaits resumed => Counted resumed.place ∧ remaining resumed.place < remaining call.place
  | .commits | .fails => True

private theorem nextAttempt_shortens (later : 2 * (attempts - attempt) < remaining call.place) :
    Shortens call (call.nextAttempt attempt) := by
  unfold Execution.nextAttempt
  split
  next inside => exact ⟨inside, later⟩
  next => trivial

private theorem getTx_shortens {nonce : ℕ} (place : call.place = .fetchingNonce) : Shortens call ({ call with nonce }.getTx) := by
  unfold Execution.getTx
  split
  all_goals
    refine ⟨trivial, ?_⟩
    simp [place, remaining]

/-- A call that is cancelled ends, wherever it is. -/
theorem cancelled_shortens {threadRuns : Bool} (went : call.resume configured (.cancelled threadRuns) = some progress) :
    Shortens call progress := by
  unfold Execution.resume at went
  cases place : call.place with
  | idle | acquiring | finished => simp [place] at went
  | _ =>
    simp only [place] at went
    obtain rfl := Option.some.inj went
    trivial

private theorem fetchingNonce_shortens (place : call.place = .fetchingNonce)
    (went : call.resume configured outcome = some progress) : Shortens call progress := by
  cases outcome with
  | value nonce =>
    unfold Execution.resume at went
    simp only [place] at went
    obtain rfl := Option.some.inj went
    exact getTx_shortens place
  | exception =>
    unfold Execution.resume at went
    simp only [place] at went
    obtain rfl := Option.some.inj went
    trivial
  | cancelled _ => exact cancelled_shortens went

private theorem estimatingGas_shortens (place : call.place = .estimatingGas)
    (went : call.resume configured outcome = some progress) : Shortens call progress := by
  cases outcome with
  | value _ | exception =>
    unfold Execution.resume at went
    simp only [place] at went
    obtain rfl := Option.some.inj went
    simp [Shortens, Execution.at, Counted, place, remaining]
  | cancelled _ => exact cancelled_shortens went

private theorem readingChainId_shortens (place : call.place = .readingChainId)
    (went : call.resume configured outcome = some progress) : Shortens call progress := by
  cases outcome with
  | value chainId =>
    unfold Execution.resume at went
    simp only [place] at went
    split at went
    all_goals
      obtain rfl := Option.some.inj went
      simp [Shortens, Execution.at, Counted, place, remaining]
  | exception =>
    unfold Execution.resume at went
    simp only [place] at went
    obtain rfl := Option.some.inj went
    trivial
  | cancelled _ => exact cancelled_shortens went

private theorem sending_shortens (place : call.place = .sending)
    (went : call.resume configured outcome = some progress) : Shortens call progress := by
  cases outcome with
  | value _ =>
    unfold Execution.resume at went
    simp only [place] at went
    obtain rfl := Option.some.inj went
    split
    next => simp [Shortens, Execution.at, Counted, place, remaining]
    next =>
      apply nextAttempt_shortens
      simp [place, remaining]
  | exception =>
    unfold Execution.resume at went
    simp only [place] at went
    obtain rfl := Option.some.inj went
    trivial
  | cancelled _ => exact cancelled_shortens went

private theorem waitingReceipt_shortens (place : call.place = .waitingReceipt)
    (went : call.resume configured outcome = some progress) : Shortens call progress := by
  cases outcome with
  | value _ =>
    unfold Execution.resume at went
    simp only [place] at went
    obtain rfl := Option.some.inj went
    apply nextAttempt_shortens
    simp [place, remaining]
  | exception =>
    unfold Execution.resume at went
    simp only [place] at went
    obtain rfl := Option.some.inj went
    trivial
  | cancelled _ => exact cancelled_shortens went

private theorem readingCommitted_shortens (place : call.place = .readingCommitted attempt) (inside : attempt < attempts)
    (went : call.resume configured outcome = some progress) : Shortens call progress := by
  have sleeps : Shortens call (call.at (.sleeping attempt)) := by
    refine ⟨inside, ?_⟩
    simp only [place, remaining]
    omega
  cases outcome with
  | value onChain =>
    unfold Execution.resume at went
    simp only [place] at went
    obtain rfl := Option.some.inj went
    split
    next => trivial
    next => exact sleeps
  | exception =>
    unfold Execution.resume at went
    simp only [place] at went
    obtain rfl := Option.some.inj went
    exact sleeps
  | cancelled _ => exact cancelled_shortens went

private theorem sleeping_shortens (place : call.place = .sleeping attempt) (inside : attempt < attempts)
    (went : call.resume configured outcome = some progress) : Shortens call progress := by
  cases outcome with
  | value _ =>
    unfold Execution.resume at went
    simp only [place] at went
    obtain rfl := Option.some.inj went
    apply nextAttempt_shortens
    simp only [place, remaining]
    omega
  | exception =>
    unfold Execution.resume at went
    simp only [place] at went
    obtain rfl := Option.some.inj went
    trivial
  | cancelled _ => exact cancelled_shortens went

private theorem resume_shortens (counted : Counted call.place) (went : call.resume configured outcome = some progress) :
    Shortens call progress := by
  cases place : call.place with
  | idle | acquiring | finished => simp [Execution.resume, place] at went
  | fetchingNonce => exact fetchingNonce_shortens place went
  | estimatingGas => exact estimatingGas_shortens place went
  | readingChainId => exact readingChainId_shortens place went
  | sending => exact sending_shortens place went
  | waitingReceipt => exact waitingReceipt_shortens place went
  | readingCommitted attempt =>
    rw [place] at counted
    exact readingCommitted_shortens place counted went
  | sleeping attempt =>
    rw [place] at counted
    exact sleeping_shortens place counted went

/-- Whatever a call that has the lock awaited, it goes on from there. -/
theorem resume_of_hasLock (holds : call.place.hasLock) (outcome : Outcome) : (call.resume configured outcome).isSome = true := by
  unfold Execution.resume
  cases place : call.place with
  | idle | acquiring | finished =>
    rw [place] at holds
    exact holds.elim
  | readingChainId =>
    cases outcome with
    | value chainId =>
      simp only
      split <;> rfl
    | exception | cancelled => rfl
  | _ => cases outcome <;> rfl

/-- What keeps the calls going: a free lock has told its first waiter, and a lock
that is not free has a call that will free it. -/
structure Live (state : State τ) : Prop where
  awake : state.manager.getLock.Awake
  waits : ∀ task, task ∈ state.manager.getLock.tasks ↔ (state.calls task).place = .acquiring
  held : state.manager.getLock.locked = true → ∃ task, (state.calls task).place.hasLock
  counted : ∀ task, Counted (state.calls task).place

private theorem initial_live : Live (State.initial : State τ) where
  awake := Lock.free_awake
  waits _ := ⟨fun member => absurd member List.not_mem_nil, fun place => by cases place⟩
  held locked := by cases locked
  counted _ := trivial

/-- The release that ends every call leaves the lock free, whoever had it. -/
theorem release_frees (awake : manager.getLock.Awake) :
    manager.release.getLock.locked = false ∧ manager.release.getLock.Awake ∧
      manager.release.getLock.tasks = manager.getLock.tasks := by
  rcases release_cases manager with ⟨unlocked, same⟩ | freed
  · rw [same]
    exact ⟨unlocked, awake, rfl⟩
  · exact ⟨Lock.release_unlocked freed, Lock.release_awake freed, Lock.release_tasks freed⟩

private theorem commit_awake (awake : state.manager.getLock.Awake) : state.commit.manager.getLock.Awake := by
  rw [State.commit, getLock_some]
  cases freed : state.manager.getLock.release with
  | none => exact awake
  | some released => exact Lock.release_awake freed

variable [DecidableEq τ]

/-- One call moves on, and the lock's waiters other than that call stay who they are. -/
theorem update_live (live : Live state) (awake : manager.getLock.Awake)
    (others : ∀ other, other ≠ task → (other ∈ manager.getLock.tasks ↔ other ∈ state.manager.getLock.tasks))
    (own : task ∈ manager.getLock.tasks ↔ call.place = .acquiring)
    (held : manager.getLock.locked = true → call.place.hasLock ∨ ∃ other, other ≠ task ∧ (state.calls other).place.hasLock)
    (counted : Counted call.place) : Live ⟨manager, Function.update state.calls task call, threads⟩ := by
  have at_task : Function.update state.calls task call task = call := Function.update_self ..
  have at_other : ∀ other, other ≠ task → Function.update state.calls task call other = state.calls other :=
    fun other different => Function.update_of_ne different ..
  constructor
  · exact awake
  · intro other
    by_cases same : other = task
    · subst same
      simpa only [at_task] using own
    · simp only [at_other other same]
      exact (others other same).trans (live.waits other)
  · intro locked
    rcases held locked with mine | ⟨other, different, theirs⟩
    · exact ⟨task, by simpa only [at_task] using mine⟩
    · exact ⟨other, by simpa only [at_other other different] using theirs⟩
  · intro other
    by_cases same : other = task
    · subst same
      simpa only [at_task] using counted
    · simpa only [at_other other same] using live.counted other

private theorem start_live (live : Live state) (idle : (state.calls task).place = .idle) (gas : Option ℕ) (wait : Bool) :
    Live (state.start task gas wait) := by
  have absent : task ∉ state.manager.getLock.tasks := by
    rw [live.waits, idle]
    exact Place.noConfusion
  unfold State.start
  cases acquired : state.manager.getLock.acquire task with
  | mk obtained lock =>
    have awake : (NonceManager.getLock ⟨some lock⟩).Awake := Lock.acquire_awake live.awake acquired
    cases obtained with
    | true =>
      obtain ⟨-, -, sameTasks⟩ := Lock.acquire_true acquired
      apply update_live live awake
      · intro other _
        rw [getLock_some, sameTasks]
      · rw [getLock_some, sameTasks]
        exact iff_of_false absent Place.noConfusion
      · exact fun _ => .inl trivial
      · trivial
    | false =>
      obtain ⟨sameLocked, moreTasks⟩ := Lock.acquire_false acquired
      apply update_live live awake
      · intro other different
        rw [getLock_some, moreTasks, List.mem_append, List.mem_singleton]
        exact or_iff_left different
      · rw [getLock_some, moreTasks, List.mem_append, List.mem_singleton]
        exact iff_of_true (.inr rfl) rfl
      · intro locked
        rw [getLock_some, sameLocked] at locked
        obtain ⟨other, holds⟩ := live.held locked
        refine .inr ⟨other, ?_, holds⟩
        rintro rfl
        rw [idle] at holds
        exact holds
      · trivial

private theorem cancel_live (live : Live state) : Live { state with manager := ⟨state.manager.getLock.cancel task⟩ } where
  awake := Lock.cancel_awake live.awake
  waits other := by
    rw [getLock_some, Lock.cancel_tasks]
    exact live.waits other
  held := live.held
  counted := live.counted

/-- A call that ends leaves the lock free. -/
theorem leave_live (live : Live state) (awake : manager.getLock.Awake)
    (waits : ∀ other, other ∈ manager.getLock.tasks ↔ other ∈ state.manager.getLock.tasks ∧ other ≠ task) :
    Live (State.leave ⟨manager, state.calls, threads⟩ task) := by
  obtain ⟨unlocked, stillAwake, sameTasks⟩ := release_frees awake
  apply update_live live stillAwake
  · intro other different
    rw [sameTasks, waits]
    exact and_iff_left different
  · rw [sameTasks, waits]
    exact iff_of_false (fun member => member.2 rfl) Place.noConfusion
  · intro locked
    rw [unlocked] at locked
    contradiction
  · trivial

private theorem wake_live (live : Live state) (stepped : state.step configured (.wake task) = some next) : Live next := by
  rw [State.step] at stepped
  split at stepped
  next => contradiction
  next lock woken =>
    obtain rfl := Option.some.inj stepped
    apply update_live live
    · exact Lock.resume_awake woken
    · intro other different
      rw [getLock_some, Lock.mem_resume_tasks woken]
      exact and_iff_left different
    · rw [getLock_some, Lock.mem_resume_tasks woken]
      exact iff_of_false (fun member => member.2 rfl) Place.noConfusion
    · exact fun _ => .inl trivial
    · trivial
  next lock woken =>
    obtain rfl := Option.some.inj stepped
    rw [State.set, Function.update_eq_self]
    apply leave_live live
    · exact Lock.resume_awake woken
    · exact fun other => Lock.mem_resume_tasks woken

private theorem resume_live (live : Live state) (stepped : state.step configured (.resume task outcome) = some next) : Live next := by
  rw [State.step] at stepped
  cases went : (state.calls task).resume configured outcome with
  | none => simp [went] at stepped
  | some progress =>
    have absent : task ∉ state.manager.getLock.tasks := by
      rw [live.waits]
      exact not_acquiring (hasLock_of_resume went)
    have leaves : ∀ other, other ∈ state.manager.getLock.tasks ↔ other ∈ state.manager.getLock.tasks ∧ other ≠ task := by
      intro other
      refine ⟨fun member => ⟨member, ?_⟩, And.left⟩
      rintro rfl
      exact absent member
    simp only [went] at stepped
    cases progress with
    | awaits call =>
      obtain rfl := Option.some.inj stepped
      have keeps : call.place.hasLock := resume_keepsLock went
      obtain ⟨counted, -⟩ := resume_shortens (live.counted task) went
      apply update_live live live.awake
      · exact fun _ _ => Iff.rfl
      · exact iff_of_false absent (not_acquiring keeps)
      · exact fun _ => .inl keeps
      · exact counted
    | commits =>
      obtain rfl := Option.some.inj stepped
      apply leave_live live (commit_awake live.awake)
      intro other
      rw [commit_tasks]
      exact leaves other
    | fails =>
      obtain rfl := Option.some.inj stepped
      obtain ⟨threads, abandoned⟩ := abandon_eq state task outcome
      rw [abandoned]
      exact leave_live live live.awake leaves

private theorem step_live (state : State τ) (event : Event τ) (next : State τ) (live : Live state)
    (stepped : state.step configured event = some next) : Live next := by
  cases event with
  | start task gas wait =>
    rw [State.step] at stepped
    split at stepped
    next idle =>
      obtain rfl := Option.some.inj stepped
      exact start_live live idle gas wait
    next => contradiction
  | cancel task =>
    rw [State.step] at stepped
    split at stepped
    next =>
      obtain rfl := Option.some.inj stepped
      exact cancel_live live
    next => contradiction
  | wake task => exact wake_live live stepped
  | resume task outcome => exact resume_live live stepped
  | threadEnds task place =>
    rw [State.step] at stepped
    split at stepped
    next =>
      obtain rfl := Option.some.inj stepped
      exact ⟨live.awake, live.waits, live.held, live.counted⟩
    next => contradiction

/-- The events at which a call runs. -/
def runsCall (task : τ) : Event τ → Bool
  | .wake other | .resume other _ => other = task
  | .start _ _ _ | .cancel _ | .threadEnds _ _ => false

private theorem start_lowers {gas : Option ℕ} {wait : Bool} {other : τ} (idle : (state.calls other).place = .idle) :
    remaining ((state.start other gas wait).calls task).place ≤ remaining (state.calls task).place := by
  unfold State.start
  split
  all_goals
    by_cases same : task = other
    · subst same
      simp [State.set, idle, remaining]
    · simp [State.set, Function.update_of_ne same]

private theorem wake_lowers {other : τ} (live : Live state) (stepped : state.step configured (.wake other) = some next) :
    remaining (next.calls task).place + (if other = task then 1 else 0) ≤ remaining (state.calls task).place := by
  rw [State.step] at stepped
  split at stepped
  next => contradiction
  next lock woken =>
    obtain rfl := Option.some.inj stepped
    by_cases same : other = task
    · subst same
      have acquiring := (live.waits other).mp (Lock.mem_tasks_of_resume woken)
      simp [State.set, acquiring, remaining]
    · simp [State.set, Function.update_of_ne (Ne.symm same), same]
  next lock woken =>
    obtain rfl := Option.some.inj stepped
    by_cases same : other = task
    · subst same
      have acquiring := (live.waits other).mp (Lock.mem_tasks_of_resume woken)
      simp [State.leave, acquiring, remaining]
    · simp [State.leave, State.set, Function.update_of_ne (Ne.symm same), same]

private theorem leave_lowers {other : τ} {before : State τ} (left : 0 < remaining (state.calls other).place)
    (same : before.calls = state.calls) :
    remaining ((before.leave other).calls task).place + (if other = task then 1 else 0) ≤ remaining (state.calls task).place := by
  by_cases own : other = task
  · subst own
    simp only [State.leave, Function.update_self, if_true]
    exact left
  · simp [State.leave, same, Function.update_of_ne (Ne.symm own), own]

private theorem resume_lowers {other : τ} (live : Live state) (stepped : state.step configured (.resume other outcome) = some next) :
    remaining (next.calls task).place + (if other = task then 1 else 0) ≤ remaining (state.calls task).place := by
  rw [State.step] at stepped
  cases went : (state.calls other).resume configured outcome with
  | none => simp [went] at stepped
  | some progress =>
    have shortens := resume_shortens (live.counted other) went
    have left := remaining_pos (hasLock_of_resume went) (live.counted other)
    simp only [went] at stepped
    cases progress with
    | awaits call =>
      obtain rfl := Option.some.inj stepped
      obtain ⟨-, less⟩ := shortens
      by_cases same : other = task
      · subst same
        simp only [Function.update_self, if_true]
        exact less
      · simp [Function.update_of_ne (Ne.symm same), same]
    | commits =>
      obtain rfl := Option.some.inj stepped
      exact leave_lowers left rfl
    | fails =>
      obtain rfl := Option.some.inj stepped
      obtain ⟨threads, abandoned⟩ := abandon_eq state other outcome
      rw [abandoned]
      exact leave_lowers left rfl

private theorem step_lowers (task : τ) (state : State τ) (event : Event τ) (next : State τ) (live : Live state)
    (stepped : state.step configured event = some next) :
    remaining (next.calls task).place + (if runsCall task event then 1 else 0) ≤ remaining (state.calls task).place := by
  cases event with
  | start other gas wait =>
    rw [State.step] at stepped
    split at stepped
    next idle =>
      obtain rfl := Option.some.inj stepped
      exact start_lowers idle
    next => contradiction
  | cancel other =>
    rw [State.step] at stepped
    split at stepped
    next =>
      obtain rfl := Option.some.inj stepped
      exact Nat.le_refl _
    next => contradiction
  | wake other => simpa [runsCall] using wake_lowers live stepped
  | resume other outcome => simpa [runsCall] using resume_lowers live stepped
  | threadEnds other place =>
    rw [State.step] at stepped
    split at stepped
    next =>
      obtain rfl := Option.some.inj stepped
      exact Nat.le_refl _
    next => contradiction

/-- Some call can go on: one that was told about the lock, or one that has it, whatever it awaits gives. -/
def CanGoOn (configured : Option ℕ) (state : State τ) : Prop :=
  ∃ task, (state.step configured (.wake task)).isSome = true ∨
    ∀ outcome, (state.step configured (.resume task outcome)).isSome = true

def Over (state : State τ) : Prop :=
  state.manager.getLock.locked = false ∧ ∀ task, (state.calls task).place = .idle ∨ (state.calls task).place = .finished

private theorem canGoOn_of_hasLock (holds : (state.calls task).place.hasLock) : CanGoOn configured state := by
  refine ⟨task, .inr fun outcome => ?_⟩
  have goes : ((state.calls task).resume configured outcome).isSome = true := resume_of_hasLock holds outcome
  obtain ⟨progress, went⟩ := Option.isSome_iff_exists.mp goes
  simp only [State.step, went]
  cases progress <;> rfl

private theorem canGoOn_of_waits (live : Live state) (unlocked : state.manager.getLock.locked = false)
    (acquiring : (state.calls task).place = .acquiring) : CanGoOn configured state := by
  obtain ⟨first, told⟩ := Lock.exists_resume live.awake unlocked ((live.waits task).mpr acquiring)
  obtain ⟨⟨obtained, lock⟩, woken⟩ := Option.isSome_iff_exists.mp told
  refine ⟨first, .inl ?_⟩
  simp only [State.step, woken]
  cases obtained <;> rfl

/-- No call waits for ever: unless all are over, one of them can go on. -/
theorem over_or_canGoOn (live : Live state) : Over state ∨ CanGoOn configured state := by
  cases locked : state.manager.getLock.locked with
  | true =>
    obtain ⟨task, holds⟩ := live.held locked
    exact .inr (canGoOn_of_hasLock holds)
  | false =>
    by_cases ended : ∀ task, (state.calls task).place = .idle ∨ (state.calls task).place = .finished
    · exact .inl ⟨locked, ended⟩
    · push Not at ended
      obtain ⟨task, started, unfinished⟩ := ended
      right
      by_cases acquiring : (state.calls task).place = .acquiring
      · exact canGoOn_of_waits live locked acquiring
      · refine canGoOn_of_hasLock (?_ : (state.calls task).place.hasLock)
        cases place : (state.calls task).place with
        | idle => exact absurd place started
        | acquiring => exact absurd place acquiring
        | finished => exact absurd place unfinished
        | _ => trivial

/-- Whatever the interleaving, the failures and the cancellations, a call runs
boundedly often, and the calls stop only when all of them are over. -/
theorem calls_end {events : List (Event τ)} (ran : run (State.step configured) State.initial events = some final) :
    (∀ task, events.countP (runsCall task) ≤ 2 * attempts + 6) ∧ (Over final ∨ CanGoOn configured final) := by
  constructor
  · intro task
    have spent := run_counts (fun state => remaining (state.calls task).place) (runsCall task) step_live (step_lowers task)
      initial_live ran
    exact (Nat.le_add_left ..).trans spent
  · exact over_or_canGoOn (run_keeps step_live initial_live ran)

/-- The second call frees the lock of the first when it is cancelled; the third still gets its turn. -/
theorem calls_end_after_cancel : ∃ final : State ℕ,
    run (State.step (some 30)) State.initial
      [.start 0 (some 21000) false, .start 1 none true, .start 2 none true, .cancel 1, .wake 1, .wake 2, .resume 0 (.value 5),
        .resume 2 (.cancelled true), .threadEnds 2 .fetchingNonce] = some final ∧
    (∀ task, [Event.start 0 (some 21000) false, .start 1 none true, .start 2 none true, .cancel 1, .wake 1, .wake 2,
      .resume 0 (.value 5), .resume 2 (.cancelled true), .threadEnds 2 .fetchingNonce].countP (runsCall task) ≤ 46) ∧
      (Over final ∨ CanGoOn (some 30) final) :=
  ⟨_, rfl, calls_end rfl⟩

end OmocNode.Proofs.NonceProgress
