import Mathlib.Tactic
import OmocNode.ConfigurationSources
import OmocNode.Proofs.Outcomes

/-! Where each parameter's value comes from, at start-up and after every update.
The loops over the parameters treat each by itself, so what one of them holds
depends on its own readings only. -/

namespace OmocNode.Proofs.Precedence
open BlockchainInfo ConfigurationSources Outcomes

variable {environment : Variables} {registry initial : Registry} {state next : State} {param : Parameter} {params : List Parameter}

/-- What the node holds of one parameter. -/
@[ext] structure Held where
  value : Option (Option Value)
  fromConf : Bool
  fromDefault : Bool

def held (state : State) (name : String) : Held := ⟨state.values name, state.fromConf name, state.fromDefault name⟩

/-- A loop over the parameters whose steps each keep to one of them. -/
theorem foldlM_each {step : State → Parameter → Except PyError State} (before after : Parameter → Held → Prop)
    (own : ∀ param ∈ params, ∀ state, before param (held state param.name) →
      ∃ next, step state param = .ok next ∧ after param (held next param.name))
    (others : ∀ state param next, step state param = .ok next → ∀ name, name ≠ param.name → held next name = held state name)
    (distinct : (params.map (·.name)).Nodup) (ready : ∀ param ∈ params, before param (held state param.name)) :
    ∃ next, params.foldlM step state = .ok next ∧ (∀ param ∈ params, after param (held next param.name)) ∧
      ∀ name, name ∉ params.map (·.name) → held next name = held state name := by
  induction params generalizing state with
  | nil => exact ⟨state, rfl, by simp, fun _ _ => rfl⟩
  | cons param params ih =>
    obtain ⟨fresh, distinct⟩ := List.nodup_cons.mp distinct
    obtain ⟨middle, stepped, done⟩ := own param List.mem_cons_self state (ready param List.mem_cons_self)
    have untouched := others state param middle stepped
    have still_ready : ∀ other ∈ params, before other (held middle other.name) := by
      intro other member
      have different : other.name ≠ param.name := by
        intro same
        exact fresh (List.mem_map.mpr ⟨other, member, same⟩)
      rw [untouched other.name different]
      exact ready other (List.mem_cons_of_mem _ member)
    obtain ⟨next, rest, settled, outside⟩ :=
      ih (fun other member => own other (List.mem_cons_of_mem _ member)) distinct still_ready
    refine ⟨next, ?_, ?_, ?_⟩
    · rw [List.foldlM_cons, stepped]
      exact rest
    · intro other member
      rcases List.mem_cons.mp member with rfl | member
      · rw [outside other.name fresh]
        exact done
      · exact settled other member
    · intro name absent
      rw [List.map_cons, List.mem_cons, not_or] at absent
      obtain ⟨different, absent⟩ := absent
      rw [outside name absent, untouched name different]

/-- Without an error on the way the update is the plain loop. -/
theorem update_of_foldlM (looped : params.foldlM (State.updateParameter registry) state = .ok next) :
    state.update registry params = (next, .ok ()) := by
  induction params generalizing state with
  | nil =>
    obtain rfl := Except.ok.inj looped
    rfl
  | cons param params ih =>
    rw [List.foldlM_cons] at looped
    cases stepped : state.updateParameter registry param with
    | error err =>
      rw [stepped] at looped
      cases looped
    | ok middle =>
      rw [stepped] at looped
      rw [State.update, stepped]
      exact ih looped

private theorem held_set_other {name other : String} {value : Option Value} (different : other ≠ name) :
    held (state.set name value) other = held state other := by
  simp [held, State.set, different]

theorem updateParameter_other (stepped : state.updateParameter registry param = .ok next) (name : String) (different : name ≠ param.name) :
    held next name = held state name := by
  unfold State.updateParameter at stepped
  split at stepped
  · obtain rfl := Except.ok.inj stepped
    rfl
  · split at stepped
    · contradiction
    · obtain rfl := Except.ok.inj stepped
      split
      · rfl
      · exact held_set_other different

private theorem readConfiguration_other {value : Option Value} (read : state.readConfiguration environment param = .ok (next, value))
    (name : String) (different : name ≠ param.name) : held next name = held state name := by
  unfold State.readConfiguration at read
  split at read
  all_goals try contradiction
  case h_5 =>
    have pair := Except.ok.inj read
    split at pair
    all_goals
      obtain ⟨rfl, -⟩ := Prod.mk.inj pair
      simp [held, State.set, different]
  all_goals
    obtain ⟨rfl, -⟩ := Prod.mk.inj (Except.ok.inj read)
    rfl

private theorem readDefault_other {value : Option Value} (name : String) (different : name ≠ param.name) :
    held (State.readDefault param (state, value)).1 name = held state name := by
  cases value with
  | some value => rfl
  | none =>
    rw [State.readDefault]
    split
    · rfl
    · split <;> simp [held, State.set, different]

private theorem readRegistry_other {value : Option Value} (name : String) (different : name ≠ param.name) :
    held (State.readRegistry registry param (state, value)) name = held state name := by
  rw [State.readRegistry]
  split
  · rfl
  · exact held_set_other different

theorem initializeParameter_other (stepped : state.initializeParameter environment registry param = .ok next) (name : String)
    (different : name ≠ param.name) : held next name = held state name := by
  obtain ⟨⟨middle, value⟩, read, rfl⟩ := map_eq_ok_iff.mp stepped
  rw [readRegistry_other name different, readDefault_other name different]
  exact readConfiguration_other read name different

/-- What the table of parameters keeps to. -/
structure Regular (param : Parameter) : Prop where
  nonempty : param.default ≠ some (.text "")
  caught : param.unset = .error .keyError ∨ ∃ value, param.unset = .ok value
  notFirst : param.priority ≠ .blockchainConfigurationDefault
  amounts : param.priority = .configurationBlockchainDefault → param.unset = .error .keyError ∨
    param.unset = .ok none ∧ param.default ≠ none
  defaulted : param.priority = .configurationDefaultBlockchain → param.unset = .error .keyError ∧ param.default ≠ none

/-- Each variable is absent, or set to a text that is not empty and can be parsed. -/
def Parseable (environment : Variables) : Prop :=
  ∀ name, environment name = none ∨ ∃ value, environment name = some (.ok (some value)) ∧ value ≠ .text ""

/-- The last of the answers that are no errors, or else what there was at the start. -/
def latest (start : Option Value) (answers : List (Option Value)) : Option Value := answers.foldl (fun value answer => answer.or value) start

/-- What the node holds of a parameter after the registry has been asked at the start and at each update. -/
structure Holds (environment : Variables) (initial : Registry) (answered : List Registry) (param : Parameter) (held : Held) : Prop where
  fromEnvironment : ∀ value, environment param.name = some (.ok (some value)) → held = ⟨some (some value), true, false⟩
  fromRegistry : environment param.name = none → param.priority = .configurationBlockchainDefault → param.unset = .error .keyError →
    held = ⟨(latest (param.default.or (param.answer initial)) (answered.map param.answer)).map some, false, param.default.isSome⟩
  notAsked : environment param.name = none → param.priority = .configurationBlockchainDefault → param.unset = .ok none →
    held = ⟨param.default.map some, true, true⟩
  fromDefault : environment param.name = none → param.priority = .configurationDefaultBlockchain → held.fromDefault = true

private theorem initialize_set {value : Value} (isSet : environment param.name = some (.ok (some value))) (nonempty : value ≠ .text "") :
    state.initializeParameter environment initial param =
      .ok (({ state with fromConf := Function.update state.fromConf param.name true } : State).set param.name (some value)) := by
  have filled : ¬some value = some (Value.text "") := fun same => nonempty (Option.some.inj same)
  simp only [State.initializeParameter, State.readConfiguration, isSet, Option.getD_some, filled, if_false, Except.map,
    State.readDefault, State.readRegistry, Option.some_or]

private theorem initialize_default {value : Value} (absent : environment param.name = none) (unset : param.unset = .error .keyError)
    (isDefault : param.default = some value) (nonempty : value ≠ .text "") :
    state.initializeParameter environment initial param =
      .ok (({ state with fromDefault := Function.update state.fromDefault param.name true } : State).set param.name (some value)) := by
  simp only [State.initializeParameter, State.readConfiguration, absent, Option.getD_none, unset, Except.map, State.readDefault,
    isDefault, nonempty, if_false, State.readRegistry, Option.some_or]

private theorem initialize_none {value : Value} (absent : environment param.name = none) (unset : param.unset = .ok none)
    (isDefault : param.default = some value) (nonempty : value ≠ .text "") :
    state.initializeParameter environment initial param =
      .ok (({ state with
        fromConf := Function.update state.fromConf param.name true
        fromDefault := Function.update state.fromDefault param.name true } : State).set param.name (some value)) := by
  simp only [State.initializeParameter, State.readConfiguration, absent, Option.getD_none, unset, Except.map, State.readDefault,
    isDefault, nonempty, if_false, State.readRegistry, Option.some_or, reduceCtorEq]

private theorem initialize_missing (absent : environment param.name = none) (unset : param.unset = .error .keyError)
    (noDefault : param.default = none) : state.initializeParameter environment initial param =
      .ok (State.readRegistry initial param (state, none)) := by
  simp only [State.initializeParameter, State.readConfiguration, absent, Option.getD_none, unset, Except.map, State.readDefault,
    noDefault]

private theorem initialize_ok (parseable : Parseable environment) (regular : Regular param) :
    ∃ next, state.initializeParameter environment initial param = .ok next := by
  rcases parseable param.name with absent | ⟨value, isSet, nonempty⟩
  · rcases regular.caught with raises | ⟨value, gives⟩
    · simp only [State.initializeParameter, State.readConfiguration, absent, Option.getD_none, raises]
      exact ⟨_, rfl⟩
    · simp only [State.initializeParameter, State.readConfiguration, absent, Option.getD_none, gives]
      exact ⟨_, rfl⟩
  · exact ⟨_, initialize_set isSet nonempty⟩

private theorem held_set {value : Option Value} : held (state.set param.name value) param.name =
    { held state param.name with value := some value } := by
  simp [held, State.set]

/-- The registry is asked for a value unless a source above it has given one. -/
theorem getFromBlockchain_fresh (asked : param.priority = .configurationBlockchainDefault) (free : state.fromConf param.name = false) :
    state.getFromBlockchain registry param = param.answer registry := by
  simp [State.getFromBlockchain, asked, free]

private theorem initialize_holds_set {value : Value} (isSet : environment param.name = some (.ok (some value)))
    (filled : value ≠ .text "") (fresh : held state param.name = ⟨none, false, false⟩) : ∃ next,
    state.initializeParameter environment initial param = .ok next ∧ Holds environment initial [] param (held next param.name) := by
  obtain ⟨_, _, notDefault⟩ := Held.mk.inj fresh
  refine ⟨_, initialize_set isSet filled, ?_⟩
  have not_absent : environment param.name ≠ none := by simp [isSet]
  rw [held_set]
  refine
    { fromEnvironment := ?_
      fromRegistry := fun absent => absurd absent not_absent
      notAsked := fun absent => absurd absent not_absent
      fromDefault := fun absent => absurd absent not_absent }
  intro other sameSet
  rw [isSet] at sameSet
  obtain rfl := Option.some.inj (Except.ok.inj (Option.some.inj sameSet))
  simp [held, notDefault]

/-- Without a value in the environment the default is taken, and the registry is asked where there is none. -/
private theorem initialize_holds_absent (absent : environment param.name = none) (raises : param.unset = .error .keyError)
    (regular : Regular param) (fresh : held state param.name = ⟨none, false, false⟩) : ∃ next,
    state.initializeParameter environment initial param = .ok next ∧ Holds environment initial [] param (held next param.name) := by
  obtain ⟨_, notConf, _⟩ := Held.mk.inj fresh
  have unset_here : ∀ value, environment param.name ≠ some (.ok (some value)) := by simp [absent]
  have not_none : param.unset ≠ .ok none := by simp [raises]
  cases isDefault : param.default with
  | some value =>
    have nonempty : value ≠ .text "" := by
      rintro rfl
      exact regular.nonempty isDefault
    refine ⟨_, initialize_default absent raises isDefault nonempty, ?_⟩
    rw [held_set]
    exact
      { fromEnvironment := fun value isSet => absurd isSet (unset_here value)
        fromRegistry := fun _ _ _ => by simp [held, notConf, isDefault, latest]
        notAsked := fun _ _ none_read => absurd none_read not_none
        fromDefault := fun _ _ => by simp [held] }
  | none =>
    refine ⟨_, initialize_missing absent raises isDefault, ?_⟩
    have not_defaulted : param.priority ≠ .configurationDefaultBlockchain := fun last => (regular.defaulted last).2 isDefault
    refine
      { fromEnvironment := fun value isSet => absurd isSet (unset_here value)
        fromRegistry := ?_
        notAsked := fun _ _ none_read => absurd none_read not_none
        fromDefault := fun _ last => absurd last not_defaulted }
    intro _ asked _
    rw [State.readRegistry, Option.none_or, getFromBlockchain_fresh asked notConf]
    cases answer : param.answer initial with
    | none => simp [fresh, isDefault, latest]
    | some value =>
      change held (state.set param.name (some value)) param.name = _
      rw [held_set, fresh]
      simp [isDefault, latest]

/-- A parameter at start-up, before anything has been read of it. -/
theorem initialize_holds (parseable : Parseable environment) (regular : Regular param)
    (fresh : held state param.name = ⟨none, false, false⟩) : ∃ next,
    state.initializeParameter environment initial param = .ok next ∧ Holds environment initial [] param (held next param.name) := by
  rcases parseable param.name with absent | ⟨value, isSet, filled⟩
  · by_cases raises : param.unset = .error .keyError
    · exact initialize_holds_absent absent raises regular fresh
    · have unset_here : ∀ value, environment param.name ≠ some (.ok (some value)) := by simp [absent]
      by_cases asked : param.priority = .configurationBlockchainDefault
      · rcases regular.amounts asked with wrong | ⟨unset, hasDefault⟩
        · exact absurd wrong raises
        · obtain ⟨value, isDefault⟩ := Option.ne_none_iff_exists'.mp hasDefault
          have nonempty : value ≠ .text "" := by
            rintro rfl
            exact regular.nonempty isDefault
          refine ⟨_, initialize_none absent unset isDefault nonempty, ?_⟩
          rw [held_set]
          exact
            { fromEnvironment := fun value isSet => absurd isSet (unset_here value)
              fromRegistry := fun _ _ wrong => absurd wrong raises
              notAsked := fun _ _ _ => by simp [held, isDefault]
              fromDefault := fun _ last => by simp [asked] at last }
      · obtain ⟨next, stepped⟩ : ∃ next, state.initializeParameter environment initial param = .ok next := initialize_ok parseable regular
        exact ⟨next, stepped,
          { fromEnvironment := fun value isSet => absurd isSet (unset_here value)
            fromRegistry := fun _ wrong => absurd wrong asked
            notAsked := fun _ wrong => absurd wrong asked
            fromDefault := fun _ last => absurd (regular.defaulted last).1 raises }⟩
  · exact initialize_holds_set isSet filled fresh

theorem eq_of_eq {x y : Value} (same : x.eq y = true) : x = y := by
  cases x with
  | number x =>
    cases y with
    | number y =>
      cases x <;> simp_all [Value.eq, PyFloat.eq]
    | _ => simp [Value.eq] at same
  | _ => simpa [Value.eq] using same

/-- What an answer leaves of a value that is held already. -/
theorem updateParameter_answered {value answer : Value} (asked : state.getFromBlockchain registry param = some answer)
    (there : state.values param.name = some (some value)) : ∃ next, state.updateParameter registry param = .ok next ∧
      held next param.name = { held state param.name with value := some (some answer) } := by
  by_cases same : value.eq answer = true
  · refine ⟨state, ?_, ?_⟩
    · simp [State.updateParameter, asked, there, same]
    · simp [held, there, eq_of_eq same]
  · refine ⟨_, ?_, held_set⟩
    simp [State.updateParameter, asked, there, same]

private theorem updateParameter_silent (silent : state.getFromBlockchain registry param = none) :
    state.updateParameter registry param = .ok state := by
  rw [State.updateParameter, silent]

theorem latest_append (start : Option Value) (answers : List (Option Value)) (answer : Option Value) :
    latest start (answers ++ [answer]) = answer.or (latest start answers) := List.foldl_concat ..

/-- The answers that an update can take: none for a parameter that has had no
value so far, and none but the value of the environment for one that reads that
first but is asked all the same. -/
structure Answers (environment : Variables) (initial : Registry) (answered : List Registry) (registry : Registry)
    (param : Parameter) : Prop where
  known : environment param.name = none → param.priority = .configurationBlockchainDefault → param.unset = .error .keyError →
    latest (param.default.or (param.answer initial)) (answered.map param.answer) = none → param.answer registry = none
  same : ∀ value, environment param.name = some (.ok (some value)) → param.priority = .configurationDefaultBlockchain →
    ∀ answer, param.answer registry = some answer → answer = value

section Update
variable {answered : List Registry}

/-- Of a parameter that is not asked for, and of whose answers nothing is claimed. -/
theorem update_silent (silent : state.getFromBlockchain registry param = none)
    (irrelevant : environment param.name = none → param.priority = .configurationBlockchainDefault → param.unset ≠ .error .keyError)
    (holds : Holds environment initial answered param (held state param.name)) : ∃ next,
    state.updateParameter registry param = .ok next ∧ Holds environment initial (answered ++ [registry]) param (held next param.name) :=
  ⟨state, updateParameter_silent silent,
    { fromEnvironment := holds.fromEnvironment
      fromRegistry := fun absent asked raises => absurd raises (irrelevant absent asked)
      notAsked := holds.notAsked
      fromDefault := holds.fromDefault }⟩

/-- Of a parameter that the registry is asked for, and that has a value as soon as the registry answers. -/
theorem update_asked (absent : environment param.name = none) (priority : param.priority = .configurationBlockchainDefault)
    (raises : param.unset = .error .keyError) (answers : Answers environment initial answered registry param)
    (holds : Holds environment initial answered param (held state param.name)) : ∃ next,
    state.updateParameter registry param = .ok next ∧
      Holds environment initial (answered ++ [registry]) param (held next param.name) := by
  have before := holds.fromRegistry absent priority raises
  obtain ⟨value, notConf, -⟩ := Held.mk.inj before
  have asked : state.getFromBlockchain registry param = param.answer registry := getFromBlockchain_fresh priority notConf
  -- Of what `Holds` says, this is all that is about such a parameter.
  have suffices_value : ∀ now : Held, now = ⟨(latest (param.default.or (param.answer initial))
      ((answered ++ [registry]).map param.answer)).map some, false, param.default.isSome⟩ →
      Holds environment initial (answered ++ [registry]) param now := by
    intro now same
    exact
      { fromEnvironment := fun _ isSet => by simp [absent] at isSet
        fromRegistry := fun _ _ _ => same
        notAsked := fun _ _ unset => by simp [raises] at unset
        fromDefault := fun _ last => by simp [priority] at last }
  simp only [List.map_append, List.map_cons, List.map_nil, latest_append] at suffices_value
  cases answer : param.answer registry with
  | none =>
    refine ⟨state, updateParameter_silent (asked.trans answer), suffices_value _ ?_⟩
    rw [before, answer, Option.none_or]
  | some given =>
    cases last : latest (param.default.or (param.answer initial)) (answered.map param.answer) with
    | none =>
      rw [answers.known absent priority raises last] at answer
      cases answer
    | some value =>
      rw [last] at before
      obtain ⟨there, -, -⟩ := Held.mk.inj before
      obtain ⟨next, stepped, after⟩ := updateParameter_answered (asked.trans answer) there
      refine ⟨next, stepped, suffices_value _ ?_⟩
      rw [after, before, answer]
      rfl

/-- Of a parameter that the environment sets. -/
theorem update_set {value : Value} (isSet : environment param.name = some (.ok (some value))) (regular : Regular param)
    (answers : Answers environment initial answered registry param) (holds : Holds environment initial answered param (held state param.name)) :
    ∃ next, state.updateParameter registry param = .ok next ∧
      Holds environment initial (answered ++ [registry]) param (held next param.name) := by
  have before := holds.fromEnvironment value isSet
  obtain ⟨there, fromConf, notDefault⟩ := Held.mk.inj before
  have not_absent : environment param.name ≠ none := by simp [isSet]
  have irrelevant : environment param.name = none → param.priority = .configurationBlockchainDefault →
    param.unset ≠ .error .keyError := fun absent => absurd absent not_absent
  cases priority : param.priority with
  | blockchainConfigurationDefault => exact absurd priority regular.notFirst
  | configurationDefault => exact update_silent (by simp [State.getFromBlockchain, priority]) irrelevant holds
  | configurationBlockchainDefault => exact update_silent (by simp [State.getFromBlockchain, priority, fromConf]) irrelevant holds
  | configurationDefaultBlockchain =>
    have asked : state.getFromBlockchain registry param = param.answer registry := by
      simp [State.getFromBlockchain, priority, notDefault]
    cases answer : param.answer registry with
    | none => exact update_silent (asked.trans answer) irrelevant holds
    | some given =>
      obtain rfl := answers.same value isSet priority given answer
      obtain ⟨next, stepped, after⟩ := updateParameter_answered (asked.trans answer) there
      refine ⟨next, stepped, ?_⟩
      rw [after, before]
      rw [before] at holds
      exact
        { fromEnvironment := holds.fromEnvironment
          fromRegistry := fun absent => absurd absent not_absent
          notAsked := fun absent => absurd absent not_absent
          fromDefault := fun absent => absurd absent not_absent }

/-- A parameter at an update. -/
theorem update_holds (parseable : Parseable environment) (regular : Regular param)
    (answers : Answers environment initial answered registry param) (holds : Holds environment initial answered param (held state param.name)) :
    ∃ next, state.updateParameter registry param = .ok next ∧
      Holds environment initial (answered ++ [registry]) param (held next param.name) := by
  rcases parseable param.name with absent | ⟨value, isSet, -⟩
  · cases priority : param.priority with
    | blockchainConfigurationDefault => exact absurd priority regular.notFirst
    | configurationDefault => exact update_silent (by simp [State.getFromBlockchain, priority]) (by simp [priority]) holds
    | configurationDefaultBlockchain =>
      have defaulted : state.fromDefault param.name = true := holds.fromDefault absent priority
      exact update_silent (by simp [State.getFromBlockchain, priority, defaulted]) (by simp [priority]) holds
    | configurationBlockchainDefault =>
      rcases regular.amounts priority with raises | ⟨unset, -⟩
      · exact update_asked absent priority raises answers holds
      · obtain ⟨-, fromConf, -⟩ := Held.mk.inj (holds.notAsked absent priority unset)
        exact update_silent (by simp [State.getFromBlockchain, priority, fromConf]) (by simp [unset]) holds
  · exact update_set isSet regular answers holds

end Update

end OmocNode.Proofs.Precedence
