import OmocNode.Dict
import OmocNode.Python
import OmocNode.Proofs.StateFrame

/-! Iteration over a dictionary that the body of the loop may change. The iterator
compares the size with the one it began with before each step, the last included. -/

namespace OmocNode.Dict
open OmocNode.Proofs.StateFrame

variable {σ κ α : Type}

def changedSize : PyError := .exception "dictionary changed size during iteration"

/-- The rest of an iteration. A body that leaves the size leaves the keys too. -/
def iterate (current : σ → Dict κ α) (size : Nat) (body : κ → EStateM PyError σ PUnit) : List κ → EStateM PyError σ PUnit
  | [] => do
    if (current (← get)).keys.length ≠ size then throw changedSize
  | key :: keys => do
    if (current (← get)).keys.length ≠ size then throw changedSize
    body key
    iterate current size body keys

/-- `for key in d`, and the same over the live view `d.keys()`. -/
def forKeys (current : σ → Dict κ α) (body : κ → EStateM PyError σ PUnit) : EStateM PyError σ PUnit := do
  let keys := (current (← get)).keys
  iterate current keys.length body keys

variable {current : σ → Dict κ α} {size : Nat} {body : κ → EStateM PyError σ PUnit} {state : σ}

theorem iterate_changed (changed : (current state).keys.length ≠ size) (keys : List κ) :
    iterate current size body keys state = .error changedSize state := by
  cases keys <;> simp only [iterate, run_bind, run_get, run_ite, if_pos changed, run_throw]

theorem iterate_nil (same : (current state).keys.length = size) : iterate current size body [] state = .ok () state := by
  simp only [iterate, run_bind, run_get, run_ite, same, ne_eq, not_true_eq_false, if_false, run_pure]

theorem iterate_cons (same : (current state).keys.length = size) (key : κ) (keys : List κ) :
    iterate current size body (key :: keys) state =
      match body key state with
      | .ok _ middle => iterate current size body keys middle
      | .error failure middle => .error failure middle := by
  simp only [iterate, run_bind, run_get, run_ite, same, ne_eq, not_true_eq_false, if_false]
  cases body key state <;> rfl

private theorem iterate_cases {keys : List κ} (same : (current state).keys.length = size)
    (each : ∀ key ∈ keys, body key state = .ok () state ∨
      ∃ after, body key state = .ok () after ∧ (current after).keys.length ≠ size) :
    (∀ key ∈ keys, body key state = .ok () state) ∧ iterate current size body keys state = .ok () state ∨
      (∃ key ∈ keys, body key state ≠ .ok () state) ∧ ∃ after, iterate current size body keys state = .error changedSize after := by
  induction keys with
  | nil => exact Or.inl ⟨by simp, iterate_nil same⟩
  | cons key keys ih =>
    rw [iterate_cons same]
    rcases each key List.mem_cons_self with idle | ⟨after, ran, changed⟩
    · rw [idle]
      rcases ih (fun other member => each other (List.mem_cons_of_mem _ member)) with ⟨all, normal⟩ | ⟨⟨other, member, acts⟩, raised⟩
      · exact Or.inl ⟨List.forall_mem_cons.mpr ⟨idle, all⟩, normal⟩
      · exact Or.inr ⟨⟨other, List.mem_cons_of_mem _ member, acts⟩, raised⟩
    · rw [ran]
      refine Or.inr ⟨⟨key, List.mem_cons_self, ?_⟩, after, iterate_changed changed keys⟩
      intro idle
      rw [ran] at idle
      injection idle with _ same'
      exact changed (same' ▸ same)

/-- Where the body at a key changes nothing or the size, the loop ends normally only if it changes nothing at any key. -/
theorem forKeys_cases
    (each : ∀ key ∈ (current state).keys, body key state = .ok () state ∨
      ∃ after, body key state = .ok () after ∧ (current after).keys.length ≠ (current state).keys.length) :
    (∀ key ∈ (current state).keys, body key state = .ok () state) ∧ forKeys current body state = .ok () state ∨
      (∃ key ∈ (current state).keys, body key state ≠ .ok () state) ∧
        ∃ after, forKeys current body state = .error changedSize after :=
  iterate_cases rfl each

private theorem iterate_find {acts : κ → Bool} {change : κ → σ} {keys : List κ} (same : (current state).keys.length = size)
    (idle : ∀ key ∈ keys, acts key = false → body key state = .ok () state)
    (changes : ∀ key ∈ keys, acts key = true → body key state = .ok () (change key) ∧ (current (change key)).keys.length ≠ size) :
    finalState (iterate current size body keys) state = (keys.find? acts).elim state change := by
  induction keys with
  | nil => rw [finalState, iterate_nil same]; rfl
  | cons key keys ih =>
    cases acting : acts key with
    | false =>
      rw [finalState, iterate_cons same, idle key List.mem_cons_self acting, List.find?_cons_of_neg (by simp [acting])]
      exact ih (fun other member => idle other (List.mem_cons_of_mem _ member))
        fun other member => changes other (List.mem_cons_of_mem _ member)
    | true =>
      obtain ⟨ran, changed⟩ := changes key List.mem_cons_self acting
      rw [finalState, iterate_cons same, ran, List.find?_cons_of_pos (by simp [acting])]
      dsimp only
      rw [iterate_changed changed]
      rfl

/-- A loop that changes the size gets no further than the first key where it does. -/
theorem forKeys_find {acts : κ → Bool} {change : κ → σ}
    (idle : ∀ key ∈ (current state).keys, acts key = false → body key state = .ok () state)
    (changes : ∀ key ∈ (current state).keys, acts key = true →
      body key state = .ok () (change key) ∧ (current (change key)).keys.length ≠ (current state).keys.length) :
    finalState (forKeys current body) state = ((current state).keys.find? acts).elim state change :=
  iterate_find rfl idle changes

theorem length_keys_erase [DecidableEq κ] {dict : Dict κ α} {key : κ} (present : key ∈ dict.keys) :
    (dict.erase key).keys.length < dict.keys.length := by
  obtain ⟨value, read⟩ := mem_keys_iff.mp present
  simp only [keys, erase, List.length_map]
  exact List.length_filter_lt_length_iff_exists.mpr ⟨_, get?_eq_some_iff.mp read, by simp⟩

end OmocNode.Dict
