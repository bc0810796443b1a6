import OmocNode.Proofs.Precedence

/-! The node's own table of parameters over its updates. Three of its entries can
break the order of the sources; apart from their readings it holds throughout. -/

namespace OmocNode.Proofs.RegistryUpdates
open BlockchainInfo ConfigurationSources Precedence

variable {multicallAddr : Option String} {environment : Variables} {initial registry : Registry} {state : State}
  {param : Parameter} {answered updates : List Registry}

private theorem parameters_distinct : ((parameters multicallAddr).map (·.name)).Nodup := by
  simp [parameters]

private theorem parameters_regular : ∀ param ∈ parameters multicallAddr, Regular param := by
  simp only [parameters, List.forall_mem_cons]
  refine ⟨?_, ?_, ?_, ?_, ?_, ?_, ?_, ?_, ?_, ?_, ?_, ?_, ?_, ?_, ?_, ?_, ?_, ?_, ?_, ?_, ?_, ?_, ?_, ?_, ?_, ?_, ?_, List.forall_mem_nil _⟩
  all_goals constructor <;> simp [number]

/-- The one parameter that the registry could set but that reads as `None` where it is not set. -/
theorem amounts_of_unset (member : param ∈ parameters multicallAddr) (priority : param.priority = .configurationBlockchainDefault)
    (unset : param.unset = .ok none) : param =
      { name := "ORACLE_ENTERING_FALLBACKS_AMOUNTS", priority := .configurationBlockchainDefault, unset := .ok none
        blockchain := some Registry.bytesValue, default := some (.bytes [2, 4, 6, 8, 10]) } := by
  revert param
  simp only [parameters, List.forall_mem_cons]
  simp

/-- The one parameter whose default comes before the registry. -/
theorem delay_of_priority (member : param ∈ parameters multicallAddr) (priority : param.priority = .configurationDefaultBlockchain) :
    param =
      { name := "ORACLE_BLOCKCHAIN_STATE_DELAY", priority := .configurationDefaultBlockchain, blockchain := some Registry.uintValue
        default := some (number 60) } := by
  revert param
  simp only [parameters, List.forall_mem_cons]
  simp

/-- The registry may set a parameter that the environment does not set, unless a default comes before it. -/
def AllowsRegistry (param : Parameter) : Prop :=
  match param.priority with
  | .blockchainConfigurationDefault | .configurationBlockchainDefault => True
  | .configurationDefaultBlockchain => param.default = none
  | .configurationDefault => False

/-- The order of the sources, after the registry has been asked at the start and at each update. -/
structure InOrder (multicallAddr : Option String) (environment : Variables) (initial : Registry) (answered : List Registry)
    (state : State) : Prop where
  isSet : ∀ param ∈ parameters multicallAddr, ∀ value, environment param.name = some (.ok (some value)) →
    state.get param.name = some value
  isUnset : ∀ param ∈ parameters multicallAddr, environment param.name = none → AllowsRegistry param →
    state.get param.name = latest (param.default.or (param.answer initial)) (answered.map param.answer)

/-- From the start on no update raises, and after each the sources are in order. -/
def PrecedenceHolds (multicallAddr : Option String) (environment : Variables) (initial : Registry) (updates : List Registry) : Prop :=
  ∃ start, State.initializeParameters environment initial (parameters multicallAddr) = .ok start ∧
    ∀ earlier registry later, updates = earlier ++ registry :: later →
      ∃ next, ((earlier.foldl (fun state registry => (state.update registry (parameters multicallAddr)).1) start).update registry
        (parameters multicallAddr)) = (next, .ok ()) ∧ InOrder multicallAddr environment initial (earlier ++ [registry]) next

/-- What the registry answers keeps clear of the three entries that do not follow
the order: those without a value, the amounts and the delay. -/
structure Clear (multicallAddr : Option String) (environment : Variables) (initial : Registry) (updates : List Registry) : Prop where
  known : ∀ param ∈ parameters multicallAddr, environment param.name = none → param.priority = .configurationBlockchainDefault →
    param.default = none → param.answer initial ≠ none ∨ ∀ registry ∈ updates, param.answer registry = none
  amounts : environment "ORACLE_ENTERING_FALLBACKS_AMOUNTS" = none → ∀ registry ∈ updates, ∀ amounts,
    registry.getBytes (getRegistryPath "ORACLE_ENTERING_FALLBACKS_AMOUNTS") = .ok amounts → amounts = [2, 4, 6, 8, 10]
  delay : ∀ value, environment "ORACLE_BLOCKCHAIN_STATE_DELAY" = some (.ok (some value)) → ∀ registry ∈ updates, ∀ delay : Nat,
    registry.getUint (getRegistryPath "ORACLE_BLOCKCHAIN_STATE_DELAY") = .ok delay → value = number delay

private theorem latest_eq_none {start : Option Value} {answers : List (Option Value)} (none_yet : latest start answers = none) :
    start = none := by
  induction answers using List.reverseRecOn with
  | nil => exact none_yet
  | append_singleton answers answer ih =>
    rw [latest_append, Option.or_eq_none_iff] at none_yet
    exact ih none_yet.2

private theorem latest_eq_start {start : Option Value} {answers : List (Option Value)}
    (same : ∀ answer ∈ answers, answer = none ∨ answer = start) :
    latest start answers = start := by
  induction answers using List.reverseRecOn with
  | nil => rfl
  | append_singleton answers answer ih =>
    rw [latest_append, ih fun other member => same other (List.mem_append_left _ member)]
    rcases same answer (by simp) with rfl | rfl
    · rfl
    · exact Option.or_self

private theorem answers_of_clear (clear : Clear multicallAddr environment initial updates) (member : param ∈ parameters multicallAddr)
    (asked : registry ∈ updates) : Answers environment initial answered registry param where
  known absent priority _ nothing := by
    obtain ⟨noDefault, noAnswer⟩ := Option.or_eq_none_iff.mp (latest_eq_none nothing)
    rcases clear.known param member absent priority noDefault with answer | never
    · exact absurd noAnswer answer
    · exact never registry asked
  same value isSet priority answer given := by
    obtain rfl := delay_of_priority member priority
    cases read : registry.getUint (getRegistryPath "ORACLE_BLOCKCHAIN_STATE_DELAY") with
    | error err => simp [Parameter.answer, Registry.uintValue, read, Except.map, Except.toOption] at given
    | ok delay =>
      rw [clear.delay value isSet registry asked delay read]
      simp [Parameter.answer, Registry.uintValue, read, Except.map, Except.toOption] at given
      exact given.symm

private theorem inOrder_of_holds (amounts : environment "ORACLE_ENTERING_FALLBACKS_AMOUNTS" = none → ∀ registry ∈ answered, ∀ amounts,
      registry.getBytes (getRegistryPath "ORACLE_ENTERING_FALLBACKS_AMOUNTS") = .ok amounts → amounts = [2, 4, 6, 8, 10])
    (holds : ∀ param ∈ parameters multicallAddr, Holds environment initial answered param (held state param.name)) :
    InOrder multicallAddr environment initial answered state where
  isSet param member value set := by
    obtain ⟨there, -, -⟩ := Held.mk.inj ((holds param member).fromEnvironment value set)
    simp [State.get, there]
  isUnset param member absent allows := by
    have regular := parameters_regular param member
    cases priority : param.priority with
    | blockchainConfigurationDefault => exact absurd priority regular.notFirst
    | configurationDefault => simp [AllowsRegistry, priority] at allows
    | configurationDefaultBlockchain =>
      simp only [AllowsRegistry, priority] at allows
      exact absurd allows (regular.defaulted priority).2
    | configurationBlockchainDefault =>
      rcases regular.amounts priority with raises | ⟨unset, -⟩
      · obtain ⟨there, -, -⟩ := Held.mk.inj ((holds param member).fromRegistry absent priority raises)
        rw [State.get, there]
        cases latest (param.default.or (param.answer initial)) (answered.map param.answer) <;> rfl
      · obtain ⟨there, -, -⟩ := Held.mk.inj ((holds param member).notAsked absent priority unset)
        obtain rfl := amounts_of_unset member priority unset
        rw [State.get, there, latest_eq_start]
        · rfl
        · intro answer given
          obtain ⟨registry, asked, rfl⟩ := List.mem_map.mp given
          cases read : registry.getBytes (getRegistryPath "ORACLE_ENTERING_FALLBACKS_AMOUNTS") with
          | error err => exact .inl (by simp [Parameter.answer, Registry.bytesValue, read, Except.map, Except.toOption])
          | ok bytes =>
            obtain rfl := amounts absent registry asked bytes read
            exact .inr (by simp [Parameter.answer, Registry.bytesValue, read, Except.map, Except.toOption])

private theorem initialize_all (parseable : Parseable environment) : ∃ start,
    State.initializeParameters environment initial (parameters multicallAddr) = .ok start ∧
      ∀ param ∈ parameters multicallAddr, Holds environment initial [] param (held start param.name) := by
  have fresh : ∀ param ∈ parameters multicallAddr, held State.empty param.name = ⟨none, false, false⟩ := fun _ _ => rfl
  obtain ⟨start, done, holds, -⟩ := foldlM_each (fun _ held => held = ⟨none, false, false⟩) (Holds environment initial [])
    (fun param member _ => initialize_holds parseable (parameters_regular param member))
    (fun _ _ _ => initializeParameter_other) parameters_distinct fresh
  exact ⟨start, done, holds⟩

private theorem update_all (parseable : Parseable environment)
    (answers : ∀ param ∈ parameters multicallAddr, Answers environment initial answered registry param)
    (holds : ∀ param ∈ parameters multicallAddr, Holds environment initial answered param (held state param.name)) :
    ∃ next, state.update registry (parameters multicallAddr) = (next, .ok ()) ∧
      ∀ param ∈ parameters multicallAddr, Holds environment initial (answered ++ [registry]) param (held next param.name) := by
  obtain ⟨next, done, after, -⟩ := foldlM_each (Holds environment initial answered) (Holds environment initial (answered ++ [registry]))
    (fun param member _ => update_holds parseable (parameters_regular param member) (answers param member))
    (fun _ _ _ => updateParameter_other) parameters_distinct holds
  exact ⟨next, update_of_foldlM done, after⟩

/-- After any number of updates. -/
theorem updates_hold (parseable : Parseable environment) (clear : Clear multicallAddr environment initial updates)
    (holds : ∀ param ∈ parameters multicallAddr, Holds environment initial [] param (held state param.name))
    (asked : ∀ registry ∈ answered, registry ∈ updates) : ∀ param ∈ parameters multicallAddr, Holds environment initial answered param
      (held (answered.foldl (fun state registry => (state.update registry (parameters multicallAddr)).1) state) param.name) := by
  induction answered using List.reverseRecOn with
  | nil => exact holds
  | append_singleton answered registry ih =>
    have before := ih fun other member => asked other (List.mem_append_left _ member)
    obtain ⟨next, done, after⟩ := update_all parseable
      (fun param member => answers_of_clear clear member (asked registry (by simp))) before
    rw [List.foldl_concat, done]
    exact after

theorem precedence_holds (parseable : Parseable environment) (clear : Clear multicallAddr environment initial updates) :
    PrecedenceHolds multicallAddr environment initial updates := by
  obtain ⟨start, done, holds⟩ : ∃ start, State.initializeParameters environment initial (parameters multicallAddr) = .ok start ∧
      ∀ param ∈ parameters multicallAddr, Holds environment initial [] param (held start param.name) := initialize_all parseable
  refine ⟨start, done, ?_⟩
  intro earlier registry later split
  have earlier_asked : ∀ other ∈ earlier ++ [registry], other ∈ updates := by
    intro other member
    rw [split, List.append_cons]
    exact List.mem_append_left _ member
  have before := updates_hold parseable clear holds fun other member => earlier_asked other (List.mem_append_left _ member)
  have now : registry ∈ updates := earlier_asked registry (List.mem_append_right _ (List.mem_singleton_self registry))
  obtain ⟨next, updated, after⟩ := update_all parseable (fun param member => answers_of_clear clear member now) before
  refine ⟨next, updated, inOrder_of_holds ?_ after⟩
  intro absent other asked
  exact clear.amounts absent other (earlier_asked other asked)

/-! A registry that answers, with the amounts given, and one that cannot be reached. -/

def reachable (amounts : Bytes) : Registry where
  getAddress _ := .ok "0x00000000000000000000000000000000000000a1"
  getUint _ := .ok 7
  getDecimal _ := .ok (1 / 10)
  getBytes _ := .ok amounts

def unreachable : Registry where
  getAddress _ := .error ⟨"timeout"⟩
  getUint _ := .error ⟨"timeout"⟩
  getDecimal _ := .error ⟨"timeout"⟩
  getBytes _ := .error ⟨"timeout"⟩

/-- Only one variable is set. -/
def onlySet (name : String) (value : Value) : Variables := fun other => if other = name then some (.ok (some value)) else none

private theorem onlySet_parseable {name : String} {value : Value} (nonempty : value ≠ .text "") : Parseable (onlySet name value) := by
  intro other
  by_cases same : other = name
  · exact .inr ⟨value, by simp [onlySet, same], nonempty⟩
  · exact .inl (by simp [onlySet, same])

theorem precedence_holds_reachable :
    PrecedenceHolds none (onlySet "ORACLE_PRICE_DIGITS" (number 8)) (reachable []) [reachable [2, 4, 6, 8, 10], unreachable] := by
  refine precedence_holds (onlySet_parseable (by decide)) ⟨?_, ?_, ?_⟩
  · intro param member _ _ noDefault
    left
    revert param
    simp [parameters, Parameter.answer, Registry.addressValue, reachable, Except.map, Except.toOption]
  · intro _ registry asked amounts read
    simp only [List.mem_cons, List.not_mem_nil, or_false] at asked
    rcases asked with rfl | rfl
    · exact (Except.ok.inj read).symm
    · cases read
  · intro value isSet
    cases isSet

/-- What the first update returns, and what it leaves of one parameter. -/
def firstUpdate (environment : Variables) (initial registry : Registry) (name : String) : Except PyError (Except PyError Unit × Option Value) :=
  (State.initializeParameters environment initial (parameters none)).map fun start =>
    ((start.update registry (parameters none)).2, (start.update registry (parameters none)).1.get name)

private theorem firstUpdate_of_precedence (name : String) (precedence : PrecedenceHolds none environment initial [registry]) :
    ∃ next, firstUpdate environment initial registry name = .ok (.ok (), next.get name) ∧
      InOrder none environment initial [registry] next := by
  obtain ⟨start, done, run⟩ := precedence
  obtain ⟨next, updated, order⟩ := run [] registry [] rfl
  have first : start.update registry (parameters none) = (next, .ok ()) := updated
  refine ⟨next, ?_, order⟩
  rw [firstUpdate, done, Except.map, first]

/-- An address that the registry gives only after the start, amounts that it
changes, and a delay that it gives although the environment sets it. -/
theorem precedence_broken :
    ¬PrecedenceHolds none (onlySet "ORACLE_MANAGER_ADDR" (.text "0x00000000000000000000000000000000000000a1")) unreachable
      [reachable [2, 4, 6, 8, 10]] ∧
    ¬PrecedenceHolds none (fun _ => none) (reachable [2, 4, 6, 8, 10]) [reachable [1]] ∧
    ¬PrecedenceHolds none (onlySet "ORACLE_BLOCKCHAIN_STATE_DELAY" (number 90)) (reachable [2, 4, 6, 8, 10])
      [reachable [2, 4, 6, 8, 10]] := by
  refine ⟨?_, ?_, ?_⟩
  · intro precedence
    obtain ⟨next, first, -⟩ := firstUpdate_of_precedence "SUPPORTERS_ADDR" precedence
    cases (Prod.mk.inj (Except.ok.inj first)).1
  · intro precedence
    obtain ⟨next, first, order⟩ := firstUpdate_of_precedence "ORACLE_ENTERING_FALLBACKS_AMOUNTS" precedence
    have kept : firstUpdate (fun _ => none) (reachable [2, 4, 6, 8, 10]) (reachable [1]) "ORACLE_ENTERING_FALLBACKS_AMOUNTS" =
        .ok (.ok (), some (.bytes [2, 4, 6, 8, 10])) := by decide +kernel
    have latest := order.isUnset
      { name := "ORACLE_ENTERING_FALLBACKS_AMOUNTS", priority := .configurationBlockchainDefault, unset := .ok none
        blockchain := some Registry.bytesValue, default := some (.bytes [2, 4, 6, 8, 10]) } (by simp [parameters]) rfl trivial
    rw [kept, latest] at first
    cases first
  · intro precedence
    obtain ⟨next, first, order⟩ := firstUpdate_of_precedence "ORACLE_BLOCKCHAIN_STATE_DELAY" precedence
    have overwritten : firstUpdate (onlySet "ORACLE_BLOCKCHAIN_STATE_DELAY" (number 90)) (reachable [2, 4, 6, 8, 10])
        (reachable [2, 4, 6, 8, 10]) "ORACLE_BLOCKCHAIN_STATE_DELAY" = .ok (.ok (), some (number 7)) := by decide +kernel
    have kept := order.isSet
      { name := "ORACLE_BLOCKCHAIN_STATE_DELAY", priority := .configurationDefaultBlockchain, blockchain := some Registry.uintValue
        default := some (number 60) } (by simp [parameters]) (number 90) rfl
    rw [overwritten, kept] at first
    cases first

end OmocNode.Proofs.RegistryUpdates
