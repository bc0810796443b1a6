import Mathlib.Logic.Function.Basic
import OmocNode.BlockchainInfo
import OmocNode.PyFloat

/-! The node's parameters. Each comes from the environment, from the registry
contract or from a default, and the registry is read again from time to time. -/

namespace OmocNode.ConfigurationSources
open BlockchainInfo

/-- Integers, floats and `Decimal`s are all numbers: Python compares them by value. -/
inductive Value
  | text (value : String)
  | number (value : PyFloat)
  | bytes (value : Bytes)
  deriving DecidableEq

/-- `==`, by which a NaN differs from itself. -/
def Value.eq : Value → Value → Bool
  | number x, number y => x.eq y
  | x, y => x = y

/-- What the registry answers for a path. -/
structure Registry where
  getAddress : String → Reply String
  getUint : String → Reply Nat
  getDecimal : String → Reply ℚ
  getBytes : String → Reply Bytes

namespace Registry

def addressValue (registry : Registry) (path : String) : Reply Value := (registry.getAddress path).map .text
def uintValue (registry : Registry) (path : String) : Reply Value := (registry.getUint path).map fun value => .number (.finite value)
def decimalValue (registry : Registry) (path : String) : Reply Value := (registry.getDecimal path).map fun value => .number (.finite value)
def bytesValue (registry : Registry) (path : String) : Reply Value := (registry.getBytes path).map .bytes

end Registry

inductive Order
  | blockchainConfigurationDefault
  | configurationBlockchainDefault
  | configurationDefaultBlockchain
  | configurationDefault
  deriving DecidableEq

/-- What comes of reading a variable of the environment: its value after the
cast, `None`, or what is raised. -/
abbrev Reading := Except PyError (Option Value)

/-- The variables that are set. -/
abbrev Variables := String → Option Reading

/-- `unset` is what comes of reading the variable where it is not set, and
`blockchain` is missing where the source gives a function that is never called. -/
structure Parameter where
  name : String
  priority : Order
  unset : Reading := .error .keyError
  blockchain : Option (Registry → String → Reply Value) := none
  default : Option Value := none

def number (value : ℚ) : Value := .number (.finite value)

open OmocNode.ConfigurationSources.Order OmocNode.ConfigurationSources.Registry in
/-- `multicallAddr` is the address in the settings, which depends on the chain. -/
def parameters (multicallAddr : Option String) : List Parameter :=
  [ { name := "ORACLE_MANAGER_ADDR", priority := configurationBlockchainDefault, blockchain := addressValue },
    { name := "SUPPORTERS_ADDR", priority := configurationBlockchainDefault, blockchain := addressValue },
    { name := "STAKING_MACHINE_ADDR", priority := configurationBlockchainDefault
      blockchain := some fun registry _ => registry.addressValue "moc.staking-machine" },
    { name := "INFO_ADDR", priority := configurationBlockchainDefault, blockchain := addressValue },
    { name := "ORACLE_PRICE_FETCH_RATE", priority := configurationBlockchainDefault, blockchain := uintValue, default := number 5 },
    { name := "ORACLE_BLOCKCHAIN_INFO_INTERVAL", priority := configurationBlockchainDefault, blockchain := uintValue
      default := number 3 },
    { name := "ORACLE_COIN_PAIR_LOOP_TASK_INTERVAL", priority := configurationBlockchainDefault, blockchain := uintValue
      default := number 5 },
    { name := "ORACLE_MAIN_LOOP_TASK_INTERVAL", priority := configurationBlockchainDefault, blockchain := uintValue
      default := number 120 },
    { name := "ORACLE_PRICE_REJECT_DELTA_PCT", priority := configurationBlockchainDefault, blockchain := decimalValue
      default := number 50 },
    { name := "ORACLE_CONFIGURATION_TASK_INTERVAL", priority := configurationBlockchainDefault, blockchain := uintValue
      default := number 240 },
    { name := "ORACLE_MAIN_EXECUTOR_TASK_INTERVAL", priority := configurationDefault, blockchain := uintValue, default := number 20 },
    { name := "ORACLE_GATHER_SIGNATURE_TIMEOUT", priority := configurationBlockchainDefault, blockchain := uintValue
      default := number 60 },
    { name := "ORACLE_PRICE_DIGITS", priority := configurationBlockchainDefault, blockchain := uintValue, default := number 18 },
    { name := "ORACLE_QUEUE_LEN", priority := configurationBlockchainDefault, blockchain := uintValue, default := number 30 },
    { name := "TASK_MESSAGE_VERSION", priority := configurationDefault, default := number 3 },
    { name := "PRICE_SIGNATURE_EXPIRATION_SECONDS", priority := configurationDefault, default := number 300 },
    { name := "PRICE_SIGNATURE_MIN_VALIDITY_SECONDS", priority := configurationDefault, default := number 30 },
    { name := "PRICE_SIGNATURE_MAX_VALIDITY_SECONDS", priority := configurationDefault, default := number 600 },
    { name := "ORACLE_PRICE_DELTA_PCT", priority := configurationBlockchainDefault, blockchain := decimalValue
      default := number (5 / 100) },
    { name := "ORACLE_PRICE_PUBLISH_BLOCKS", priority := configurationBlockchainDefault, blockchain := uintValue
      default := number 1 },
    -- Where it is not set it reads as an empty text, and that as `None`.
    { name := "ORACLE_ENTERING_FALLBACKS_AMOUNTS", priority := configurationBlockchainDefault, unset := .ok none
      blockchain := bytesValue, default := some (.bytes [2, 4, 6, 8, 10]) },
    { name := "ORACLE_TRIGGER_VALID_PUBLICATION_BLOCKS", priority := configurationBlockchainDefault, blockchain := uintValue
      default := number 30 },
    { name := "ORACLE_PRICE_RECEIVE_MAX_AGE", priority := configurationDefault, default := number 30 },
    { name := "ORACLE_PRICE_PUBLISH_MAX_DIFF", priority := configurationDefault, default := number 30 },
    { name := "ORACLE_PRICE_VALIDATE_MAX_DIFF", priority := configurationDefault, default := number 30 },
    { name := "ORACLE_BLOCKCHAIN_STATE_DELAY", priority := configurationDefaultBlockchain, blockchain := uintValue
      default := number 60 },
    { name := "MULTICALL_ADDR", priority := configurationDefault, unset := .ok (multicallAddr.map .text), blockchain := addressValue } ]

/-- The dictionary, in which a value may be `None`, and the two sets of names. -/
structure State where
  values : String → Option (Option Value)
  fromConf : String → Bool
  fromDefault : String → Bool

def getRegistryPath (paramName : String) : String := "MOC_ORACLE\\1\\" ++ paramName

/-- The registry's answer, where it is not an error. -/
def Parameter.answer (param : Parameter) (registry : Registry) : Option Value :=
  param.blockchain.bind fun blockchain => (blockchain registry (getRegistryPath param.name)).toOption

namespace State

def empty : State := { values := fun _ => none, fromConf := fun _ => false, fromDefault := fun _ => false }

/-- `__getattr__`, which gives `None` for a name without a value too. -/
def get (state : State) (name : String) : Option Value := (state.values name).join

def set (state : State) (name : String) (value : Option Value) : State :=
  { state with values := Function.update state.values name (some value) }

def getFromBlockchain (state : State) (registry : Registry) (param : Parameter) : Option Value :=
  if param.priority = .configurationDefault then none
  else if state.fromConf param.name && param.priority = .configurationBlockchainDefault then none
  else if state.fromDefault param.name && param.priority = .configurationDefaultBlockchain then none
  else param.answer registry

/-- The first of the three sources of `initialize`. Errors of other kinds are not caught. -/
def readConfiguration (environment : Variables) (state : State) (param : Parameter) : Except PyError (State × Option Value) :=
  match (environment param.name).getD param.unset with
  | .error .keyError | .error .typeError | .error .valueError => .ok (state, none)
  | .error err => .error err
  | .ok val =>
    let state := { state with fromConf := Function.update state.fromConf param.name true }
    .ok (if val = some (.text "") then (state.set param.name none, none) else (state, val))

/-- The second source, for a parameter without a value. -/
def readDefault (param : Parameter) : State × Option Value → State × Option Value
  | (state, some val) => (state, some val)
  | (state, none) =>
    match param.default with
    | none => (state, none)
    | some val =>
      let state := { state with fromDefault := Function.update state.fromDefault param.name true }
      if val = .text "" then (state.set param.name none, none) else (state, some val)

/-- The third source, for a parameter still without a value. -/
def readRegistry (registry : Registry) (param : Parameter) : State × Option Value → State
  | (state, val) =>
    match val.or (state.getFromBlockchain registry param) with
    | none => state
    | some val => state.set param.name (some val)

def initializeParameter (environment : Variables) (registry : Registry) (state : State) (param : Parameter) : Except PyError State :=
  (state.readConfiguration environment param).map fun read => readRegistry registry param (readDefault param read)

def initializeParameters (environment : Variables) (registry : Registry) (params : List Parameter) : Except PyError State :=
  params.foldlM (initializeParameter environment registry) empty

def updateParameter (registry : Registry) (state : State) (param : Parameter) : Except PyError State :=
  match state.getFromBlockchain registry param with
  | none => .ok state
  | some val =>
    match state.values param.name with
    | none => .error .keyError
    | some held => .ok (if held.any (·.eq val) then state else state.set param.name (some val))

/-- The first error ends the loop, and what was set before stays. -/
def update (registry : Registry) : State → List Parameter → State × Except PyError Unit
  | state, [] => (state, .ok ())
  | state, param :: params =>
    match state.updateParameter registry param with
    | .error err => (state, .error err)
    | .ok next => next.update registry params

end State
end OmocNode.ConfigurationSources
