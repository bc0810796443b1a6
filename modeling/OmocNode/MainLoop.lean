import OmocNode.ConfigurationSources

/-! The loop that starts the node's other loops once it knows where the oracle
manager is, and from then on refreshes the configuration. -/

namespace OmocNode
open ConfigurationSources

structure MainLoop where
  conf : State
  initialized : Bool

namespace MainLoop

def webServerStartup (multicallAddr : Option String) (environment : Variables) (registry : Registry) : Except PyError MainLoop :=
  (State.initializeParameters environment registry (parameters multicallAddr)).map fun conf => { conf, initialized := false }

/-- A round, which returns the delay until the next. `startup` is what comes of
starting the other loops with a configuration. -/
def run (multicallAddr : Option String) (startup : State → Except PyError Unit) (registry : Registry) (loop : MainLoop) :
    MainLoop × Except PyError (Option Value) :=
  if !loop.initialized && (loop.conf.get "ORACLE_MANAGER_ADDR").isNone then
    (loop, .ok (loop.conf.get "ORACLE_MAIN_EXECUTOR_TASK_INTERVAL"))
  else
    match if loop.initialized then .ok () else startup loop.conf with
    | .error err => ({ loop with initialized := true }, .error err)
    | .ok () =>
      let (conf, updated) := loop.conf.update registry (parameters multicallAddr)
      ({ conf, initialized := true }, updated.map fun () => conf.get "ORACLE_CONFIGURATION_TASK_INTERVAL")

/-- The loop after some rounds, where `registries` says what the registry answers in each. -/
def after (multicallAddr : Option String) (startup : State → Except PyError Unit) (registries : ℕ → Registry) (loop : MainLoop) :
    ℕ → MainLoop
  | 0 => loop
  | rounds + 1 => (run multicallAddr startup (registries rounds) (after multicallAddr startup registries loop rounds)).1

end MainLoop
end OmocNode
