import OmocNode.MainLoop
import OmocNode.Proofs.RegistryUpdates

/-! Starting without the address of the oracle manager. The loop waits for it
but does not ask for it again. -/

namespace OmocNode.Proofs.StartUp
open ConfigurationSources MainLoop RegistryUpdates

variable {multicallAddr : Option String} {startup : State → Except PyError Unit} {registries : ℕ → Registry} {loop : MainLoop}

structure Recovered (loop : MainLoop) : Prop where
  manager : loop.conf.get "ORACLE_MANAGER_ADDR" ≠ none
  initialized : loop.initialized = true

private theorem run_waiting (registry : Registry) (waiting : loop.initialized = false) (missing : loop.conf.get "ORACLE_MANAGER_ADDR" = none) :
    (run multicallAddr startup registry loop).1 = loop := by
  simp [run, waiting, missing]

/-- The loop that waits stays as it is, whatever the registry would answer. -/
theorem after_waiting (waiting : loop.initialized = false) (missing : loop.conf.get "ORACLE_MANAGER_ADDR" = none) (rounds : ℕ) :
    loop.after multicallAddr startup registries rounds = loop := by
  induction rounds with
  | zero => rfl
  | succ rounds ih =>
    rw [after, ih]
    exact run_waiting (registries rounds) waiting missing

/-- Every read of the registry succeeds. -/
structure Succeeds (registry : Registry) : Prop where
  address : ∀ path, ∃ value, registry.getAddress path = .ok value
  uint : ∀ path, ∃ value, registry.getUint path = .ok value
  decimal : ∀ path, ∃ value, registry.getDecimal path = .ok value
  bytes : ∀ path, ∃ value, registry.getBytes path = .ok value

/-- If from now on every read succeeds, the loop starts the node after some rounds. -/
def Recovers (multicallAddr : Option String) (startup : State → Except PyError Unit) (registries : ℕ → Registry)
    (loop : MainLoop) : Prop :=
  (∀ round, Succeeds (registries round)) → ∃ rounds, Recovered (loop.after multicallAddr startup registries rounds)

theorem never_recovers (waiting : loop.initialized = false) (missing : loop.conf.get "ORACLE_MANAGER_ADDR" = none)
    (succeeds : ∀ round, Succeeds (registries round)) : ¬Recovers multicallAddr startup registries loop := by
  intro recovers
  obtain ⟨rounds, recovered⟩ := recovers succeeds
  rw [after_waiting waiting missing rounds] at recovered
  exact recovered.manager missing

private theorem reachable_succeeds (amounts : Bytes) : Succeeds (reachable amounts) :=
  ⟨fun _ => ⟨_, rfl⟩, fun _ => ⟨_, rfl⟩, fun _ => ⟨_, rfl⟩, fun _ => ⟨_, rfl⟩⟩

theorem never_recovers_with_digits_set : ∃ loop, webServerStartup none (onlySet "ORACLE_PRICE_DIGITS" (number 8)) unreachable = .ok loop ∧
    ¬Recovers none (fun _ => .ok ()) (fun _ => reachable [1]) loop :=
  ⟨_, rfl, never_recovers rfl rfl fun _ => reachable_succeeds [1]⟩

/-- The registry cannot be reached at the start, and answers every read from then on. -/
theorem unreachable_at_start : ∃ loop, webServerStartup none (fun _ => none) unreachable = .ok loop ∧
    loop.conf.get "ORACLE_MANAGER_ADDR" = none ∧
    ¬Recovers none (fun _ => .ok ()) (fun _ => reachable [2, 4, 6, 8, 10]) loop := by
  refine ⟨_, rfl, rfl, ?_⟩
  intro recovers
  obtain ⟨rounds, recovered⟩ := recovers fun _ => reachable_succeeds _
  rw [after_waiting rfl rfl rounds] at recovered
  exact recovered.manager rfl

end OmocNode.Proofs.StartUp
