import Mathlib.Data.Option.Basic
import Mathlib.Data.Nat.Notation

/-! Runs of a system that takes one event after another. An event that cannot
happen in a state has no next state. -/

namespace OmocNode.Runs

variable {σ ε : Type*} (step : σ → ε → Option σ)

/-- The state a run ends in, every state on the way being that of a shorter run. -/
def run : σ → List ε → Option σ
  | state, [] => some state
  | state, event :: events => (step state event).bind fun next => run next events

/-- What holds of every event of a run and the state it happens in. -/
def Along (holds : σ → ε → Prop) : σ → List ε → Prop
  | _, [] => True
  | state, event :: events => holds state event ∧ ∀ next, step state event = some next → Along holds next events

variable {step} {holds : σ → ε → Prop} {invariant : σ → Prop} {start final : σ} {events : List ε}

theorem run_cons_eq_some {event : ε} : run step start (event :: events) = some final ↔
    ∃ next, step start event = some next ∧ run step next events = some final := Option.bind_eq_some_iff

theorem run_append_eq_some {earlier later : List ε} : run step start (earlier ++ later) = some final ↔
    ∃ middle, run step start earlier = some middle ∧ run step middle later = some final := by
  induction earlier generalizing start with
  | nil => simp [run]
  | cons event events ih =>
    simp only [List.cons_append, run_cons_eq_some, ih]
    constructor
    · rintro ⟨next, stepped, middle, first, second⟩
      exact ⟨middle, ⟨next, stepped, first⟩, second⟩
    · rintro ⟨middle, ⟨next, stepped, first⟩, second⟩
      exact ⟨next, stepped, middle, first, second⟩

/-- What every step keeps, a run keeps. -/
theorem run_invariant (preserves : ∀ state event next, invariant state → holds state event → step state event = some next →
    invariant next) (initially : invariant start) (along : Along step holds start events)
    (ran : run step start events = some final) : invariant final := by
  induction events generalizing start with
  | nil =>
    obtain rfl := Option.some.inj ran
    exact initially
  | cons event events ih =>
    obtain ⟨next, stepped, rest⟩ := run_cons_eq_some.mp ran
    exact ih (preserves start event next initially along.1 stepped) (along.2 next stepped) rest

theorem along_true : Along step (fun _ _ => True) start events := by
  induction events generalizing start with
  | nil => trivial
  | cons event events ih => exact ⟨trivial, fun _ _ => ih⟩

theorem along_of_events {said : ε → Prop} (each : ∀ event ∈ events, said event) :
    Along step (fun _ event => said event) start events := by
  induction events generalizing start with
  | nil => trivial
  | cons event events ih =>
    obtain ⟨here, later⟩ := List.forall_mem_cons.mp each
    exact ⟨here, fun _ _ => ih later⟩

/-- What every step of any kind keeps. -/
theorem run_keeps (preserves : ∀ state event next, invariant state → step state event = some next → invariant next)
    (initially : invariant start) (ran : run step start events = some final) : invariant final := by
  apply run_invariant (fun state event next kept _ => preserves state event next kept) initially along_true ran

/-- What holds of every event that can happen where the invariant holds. -/
theorem run_events {said : ε → Prop}
    (preserves : ∀ state event next, invariant state → step state event = some next → invariant next)
    (each : ∀ state event next, invariant state → step state event = some next → said event)
    (initially : invariant start) (ran : run step start events = some final) : ∀ event ∈ events, said event := by
  induction events generalizing start with
  | nil => exact fun _ member => absurd member List.not_mem_nil
  | cons event events ih =>
    obtain ⟨next, stepped, rest⟩ := run_cons_eq_some.mp ran
    intro other member
    rcases List.mem_cons.mp member with rfl | member
    · exact each start other next initially stepped
    · exact ih (preserves start event next initially stepped) rest other member

/-- What can be said of a state and of all the events that led to it. -/
theorem run_history {said : List ε → σ → Prop}
    (preserves : ∀ past state event next, said past state → step state event = some next → said (past ++ [event]) next)
    (initially : said [] start) (ran : run step start events = some final) : said events final := by
  have later : ∀ (past remaining : List ε) (state : σ), said past state → run step state remaining = some final →
      said (past ++ remaining) final := by
    intro past remaining
    induction remaining generalizing past with
    | nil =>
      intro state known ran
      obtain rfl := Option.some.inj ran
      rwa [List.append_nil]
    | cons event events ih =>
      intro state known ran
      obtain ⟨next, stepped, rest⟩ := run_cons_eq_some.mp ran
      have known' := ih (past ++ [event]) next (preserves past state event next known stepped) rest
      rwa [List.append_assoc] at known'
  exact later [] events start initially ran

/-- A measure that each event of one kind lowers, and no event raises, bounds how often that kind happens. -/
theorem run_counts (measure : σ → ℕ) (counted : ε → Bool)
    (preserves : ∀ state event next, invariant state → step state event = some next → invariant next)
    (lowers : ∀ state event next, invariant state → step state event = some next →
      measure next + (if counted event then 1 else 0) ≤ measure state)
    (initially : invariant start) (ran : run step start events = some final) :
    measure final + events.countP counted ≤ measure start := by
  induction events generalizing start with
  | nil =>
    obtain rfl := Option.some.inj ran
    exact Nat.le_refl _
  | cons event events ih =>
    obtain ⟨next, stepped, rest⟩ := run_cons_eq_some.mp ran
    have later := ih (preserves start event next initially stepped) rest
    have first := lowers start event next initially stepped
    rw [List.countP_cons]
    omega

end OmocNode.Runs
