/-! Computations on a state that preserve an invariant, even when they raise, and
invariants that every event of a run preserves. -/

namespace OmocNode.Proofs.StateFrame

section Run
variable {ε σ α β : Type}

@[simp] theorem run_pure (value : α) (state : σ) : (pure value : EStateM ε σ α) state = .ok value state := rfl

@[simp] theorem run_throw (failure : ε) (state : σ) : (throw failure : EStateM ε σ α) state = .error failure state := rfl

@[simp] theorem run_get (state : σ) : (get : EStateM ε σ σ) state = .ok state state := rfl

@[simp] theorem run_modify (change : σ → σ) (state : σ) :
    (modify change : EStateM ε σ PUnit) state = .ok .unit (change state) := rfl

theorem run_bind (first : EStateM ε σ α) (next : α → EStateM ε σ β) (state : σ) : (first >>= next) state =
    match first state with
    | .ok value middle => next value middle
    | .error failure middle => .error failure middle := rfl

theorem run_forM_cons (body : α → EStateM ε σ PUnit) (item : α) (items : List α) (state : σ) :
    (item :: items).forM body state =
      match body item state with
      | .ok _ middle => items.forM body middle
      | .error failure middle => .error failure middle := by
  simp only [List.forM, bind, EStateM.bind]
  cases body item state <;> rfl

theorem run_forM_append (body : α → EStateM ε σ PUnit) (first rest : List α) (state : σ) :
    (first ++ rest).forM body state =
      match first.forM body state with
      | .ok _ middle => rest.forM body middle
      | .error failure middle => .error failure middle := by
  induction first generalizing state with
  | nil => rfl
  | cons item first ih =>
    rw [List.cons_append, run_forM_cons, run_forM_cons]
    cases body item state with
    | ok value middle => exact ih middle
    | error failure middle => rfl

theorem run_ite {condition : Prop} [Decidable condition] (yes no : EStateM ε σ α) (state : σ) :
    (if condition then yes else no) state = if condition then yes state else no state := by
  split <;> rfl

end Run

section Frame
variable {ε σ α β : Type} {Invariant : σ → Prop}

/-- The state a computation leaves, whether it returns or raises. -/
def finalState (computation : EStateM ε σ α) (state : σ) : σ :=
  match computation state with
  | .ok _ after => after
  | .error _ after => after

def Preserves (Invariant : σ → Prop) (computation : EStateM ε σ α) : Prop :=
  ∀ state, Invariant state → Invariant (finalState computation state)

theorem Preserves.pure (value : α) : Preserves Invariant (pure value : EStateM ε σ α) := fun _ holds => holds

theorem Preserves.throw (failure : ε) : Preserves Invariant (throw failure : EStateM ε σ α) := fun _ holds => holds

theorem Preserves.get : Preserves Invariant (get : EStateM ε σ σ) := fun _ holds => holds

theorem Preserves.modify {change : σ → σ} (keeps : ∀ state, Invariant state → Invariant (change state)) :
    Preserves Invariant (modify change : EStateM ε σ PUnit) := keeps

theorem Preserves.modifyGet {change : σ → α × σ} (keeps : ∀ state, Invariant state → Invariant (change state).2) :
    Preserves Invariant (modifyGet change : EStateM ε σ α) := keeps

theorem Preserves.bind {first : EStateM ε σ α} {next : α → EStateM ε σ β} (keeps : Preserves Invariant first)
    (rest : ∀ value, Preserves Invariant (next value)) : Preserves Invariant (first >>= next) := by
  intro state holds
  have here := keeps state holds
  simp only [finalState, run_bind] at here ⊢
  cases outcome : first state with
  | ok value middle =>
    rw [outcome] at here
    exact rest value middle here
  | error failure middle =>
    rw [outcome] at here
    exact here

theorem Preserves.forM {body : α → EStateM ε σ PUnit} (each : ∀ item, Preserves Invariant (body item)) (items : List α) :
    Preserves Invariant (items.forM body) := by
  induction items with
  | nil => exact .pure _
  | cons item items ih => exact .bind (each item) fun _ => ih

end Frame

/-- An invariant that every event preserves holds after every run. -/
theorem run_preserves {State Event : Type} {step : State → Event → State} {Invariant : State → Prop}
    (preserves : ∀ state event, Invariant state → Invariant (step state event)) (events : List Event) :
    ∀ state, Invariant state → Invariant (events.foldl step state) := by
  induction events with
  | nil => exact fun _ initial => initial
  | cons event rest ih => exact fun state initial => ih _ (preserves state event initial)

end OmocNode.Proofs.StateFrame
