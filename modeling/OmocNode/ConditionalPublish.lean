import OmocNode.OracleDao

/-! The signal that says whether anything on the chain needs a price. It caches
the conditions of one fetch and remembers the blocks at which it changed. -/

namespace OmocNode

/-- One decoded result of the multicall; a boolean is a number to Python too. -/
inductive Output
  | bool (value : Bool)
  | uint (value : Nat)
  deriving DecidableEq

namespace Output

def number : Output → Nat
  | bool value => value.toNat
  | uint value => value

/-- Truth value of a decoded result; one that did not decode is `None`. -/
def truthy : Option Output → Bool
  | some output => output.number != 0
  | none => false

end Output

/-- What the environment sets for a coin pair, each value after its cast.
Unset parameters are `none`. -/
structure Environment where
  oracleOfflineCfg : Option String
  mocV3QueueIsEmpty : String
  mocV3ShouldCalculateEma : String
  mocV3TcInterestPayment : String
  mocV3SettlementTime : String
  mocQueue : String
  mocBaseBucket : String
  mocEma : String
  multicallAddr : Option String
  priceDeltaPctNeed : Option ℚ
  oraclePricePublishBlocksNeed : Option Int
  priceDeltaPctUnneed : Option ℚ
  oraclePricePublishBlocksUnneed : Option Int

structure ConditionalConfig where
  oracleOfflineCfg : Bool
  oracleOfflineCfgEndpoint : Option String
  oracleOfflineCfgForcePublishLast : Bool
  mocV3QueueIsEmpty : List String
  mocV3ShouldCalculateEma : List String
  mocV3TcInterestPayment : List String
  mocV3SettlementTime : List String
  mocQueue : List String
  mocBaseBucket : List String
  mocEma : List String
  multicallAddr : Option String
  priceDeltaPctNeed : ℚ
  oraclePricePublishBlocksNeed : Int
  priceDeltaPctUnneed : ℚ
  oraclePricePublishBlocksUnneed : Int
  valid : Bool
  deriving DecidableEq

/-- An answer of the endpoint: none that could be read, or a text and what `json.loads` makes of it. -/
inductive EndpointAnswer
  | failed
  | payload (text : String) (loaded : Option Json)

namespace ConditionalConfig

def nullOpts : List String := ["", "0x0", "false", "disabled"]

/-- `DefaultDecimal`: a parameter with this value leaves the caller's default in force. -/
def defaultDecimal : Int := -2

def boolFromText (text : String) : Option Bool :=
  let text := (Python.strip text.toList).map Char.toLower
  if text ∈ ["1", "true", "yes", "on"].map String.toList then some true
  else if text ∈ ["0", "false", "no", "off", ""].map String.toList then some false
  else none

def boolFromRaw : Json → Option Bool
  | .bool value => some value
  | .number value => some (value != .finite 0)
  | .string text => boolFromText text
  | .null | .array _ | .object _ => none

def parseOfflineCfgResponse (text : String) (loaded : Option Json) : Option Bool :=
  match boolFromText text with
  | some parsed => some parsed
  | none =>
    match loaded with
    | none => none
    | some (.object fields) =>
      ["enabled", "active", "value", "oracle_offline_cfg"].findSome? fun key => boolFromRaw (Json.get fields key)
    | some data => boolFromRaw data

def resolveOracleOfflineCfg (rawValue : String) : Bool × Option String :=
  match boolFromText rawValue with
  | some parsed => (parsed, none)
  | none =>
    let text := Python.strip rawValue.toList
    if "http://".toList.isPrefixOf text ∨ "https://".toList.isPrefixOf text then (true, some (String.ofList text))
    else (false, none)

/-- A list of addresses: brackets and quotes are dropped, blanks and some signs separate. -/
def addressList (value : String) : List String :=
  if value ∈ nullOpts then []
  else
    let kept := value.toList.filter fun c => !"'\"[]()\x7b\x7d".toList.contains c
    let separated := kept.map fun c => if " ;&".toList.contains c then ',' else c
    ((separated.splitOn ',').filter (· ≠ [])).map String.ofList

def init (env : Environment) : ConditionalConfig :=
  let offline := resolveOracleOfflineCfg (env.oracleOfflineCfg.getD "false")
  { oracleOfflineCfg := offline.1
    oracleOfflineCfgEndpoint := offline.2
    oracleOfflineCfgForcePublishLast := false
    mocV3QueueIsEmpty := addressList env.mocV3QueueIsEmpty
    mocV3ShouldCalculateEma := addressList env.mocV3ShouldCalculateEma
    mocV3TcInterestPayment := addressList env.mocV3TcInterestPayment
    mocV3SettlementTime := addressList env.mocV3SettlementTime
    mocQueue := addressList env.mocQueue
    mocBaseBucket := addressList env.mocBaseBucket
    mocEma := addressList env.mocEma
    multicallAddr := env.multicallAddr
    priceDeltaPctNeed := env.priceDeltaPctNeed.getD defaultDecimal
    oraclePricePublishBlocksNeed := env.oraclePricePublishBlocksNeed.getD defaultDecimal
    priceDeltaPctUnneed := env.priceDeltaPctUnneed.getD (-1)
    oraclePricePublishBlocksUnneed := env.oraclePricePublishBlocksUnneed.getD (-1)
    -- The other validated parameters are a boolean or numbers, which are no null option.
    valid := match env.multicallAddr with
      | none => false
      | some address => !nullOpts.contains address }

/-- The value of the endpoint, or the last one it gave. Without an endpoint nothing changes that last value. -/
def fetchForcePublishFromEndpoint (cfg : ConditionalConfig) (answer : EndpointAnswer) : Bool × ConditionalConfig :=
  match cfg.oracleOfflineCfgEndpoint with
  | none => (cfg.oracleOfflineCfg && cfg.oracleOfflineCfgForcePublishLast, cfg)
  | some _ =>
    match answer with
    | .failed => (cfg.oracleOfflineCfgForcePublishLast, cfg)
    | .payload text loaded =>
      match parseOfflineCfgResponse text loaded with
      | none => (cfg.oracleOfflineCfgForcePublishLast, cfg)
      | some parsed => (parsed, { cfg with oracleOfflineCfgForcePublishLast := parsed })

end ConditionalConfig

/-- Results of the multicall, one list for each condition in the order they are asked. -/
abbrev ConditionValues := List (List (Option Output))

structure ConditionalPublishService where
  cfg : ConditionalConfig
  lastValue : Option ConditionValues
  lastBlock : Option Nat
  baseConditionActive : Bool
  forcePublish : Bool
  lastOnlineBlock : Nat
  lastOfflineBlock : Nat
  lastOfflineCfg : Bool
  deriving DecidableEq

/-- One question of the multicall. -/
structure Call where
  address : String
  signature : String
  deriving DecidableEq

/-- What the chain and the endpoint answer to one fetch. The multicall answers
with one result for each call, at one block. -/
structure FetchAnswers where
  toChecksumAddress : String → Option String
  multicall : List Call → Except PyError (List (Option Output) × Nat)
  blockTimestamp : Nat → Except PyError Nat
  endpoint : EndpointAnswer

namespace ConditionalPublishService

/-- The constructor up to its first fetch. -/
def init (ccfg : ConditionalConfig) : Except PyError ConditionalPublishService :=
  if (ccfg.priceDeltaPctNeed < 0 ∨ ccfg.priceDeltaPctNeed > 100) ∧ ccfg.priceDeltaPctNeed ≠ ConditionalConfig.defaultDecimal then
    .error (.exception "Invalid price delta pct need setup")
  else if (ccfg.priceDeltaPctUnneed < 0 ∨ ccfg.priceDeltaPctUnneed > 100) ∧
      ccfg.priceDeltaPctUnneed ≠ ConditionalConfig.defaultDecimal then
    .error (.exception "Invalid price delta pct unneed setup")
  else .ok
    { cfg := ccfg, lastValue := none, lastBlock := none, baseConditionActive := true, forcePublish := false,
      lastOnlineBlock := 0, lastOfflineBlock := 0, lastOfflineCfg := false }

def isRunning (service : ConditionalPublishService) : Bool := service.lastBlock.isSome

/-- Reads the state of the last fetch, and records its block if it differs from the state read before. -/
def offlineCfg (service : ConditionalPublishService) : Bool × ConditionalPublishService :=
  match service.lastBlock with
  | none => (false, { service with lastOfflineCfg := false })
  | some block =>
    let out := !(service.baseConditionActive || service.forcePublish)
    let recorded :=
      if service.lastOfflineCfg != out then
        if out then { service with lastOfflineBlock := block } else { service with lastOnlineBlock := block }
      else service
    (out, { recorded with lastOfflineCfg := out })

def getPriceDelta (service : ConditionalPublishService) (defaultDelta : ℚ) : ℚ × ConditionalPublishService :=
  let (offline, service) := service.offlineCfg
  let x := if offline then service.cfg.priceDeltaPctUnneed else service.cfg.priceDeltaPctNeed
  (if x = ConditionalConfig.defaultDecimal then defaultDelta else x, service)

def getValidPricePeriod (service : ConditionalPublishService) (defaultValue : Int) : Int × ConditionalPublishService :=
  let (offline, service) := service.offlineCfg
  let x := if offline then service.cfg.oraclePricePublishBlocksUnneed else service.cfg.oraclePricePublishBlocksNeed
  (if x = ConditionalConfig.defaultDecimal then defaultValue else x, service)

/-- Whether some result is below a bound; reaching one that did not decode, the comparison raises. -/
def anyBelow (bound : Nat) : List (Option Output) → Except PyError Bool
  | [] => .ok false
  | none :: _ => .error .typeError
  | some output :: rest => if output.number < bound then .ok true else anyBelow bound rest

def getConditionActive (blockTimestamp : Nat → Except PyError Nat) (value : Option ConditionValues)
    (currentBlockNr : Option Nat) : Except PyError Bool :=
  match value, currentBlockNr with
  | some [v3IsEmptyLst, v3CalcEmaLst, v3NextTcLst, v3NextStLst, isEmptyLst, calcEmaLst, nextTcLst], some block =>
    if v3IsEmptyLst.any (!Output.truthy ·) then .ok true
    else if v3CalcEmaLst.any Output.truthy then .ok true
    else if isEmptyLst.any (!Output.truthy ·) then .ok true
    else if calcEmaLst.any Output.truthy then .ok true
    else do
      if ← anyBelow block nextTcLst then return true
      if v3NextTcLst.isEmpty && v3NextStLst.isEmpty then return false
      let timestamp ← blockTimestamp block
      if ← anyBelow timestamp v3NextTcLst then return true
      anyBelow timestamp v3NextStLst
  | some _, some _ => .error .valueError
  | _, _ => .ok true

/-- `results_base.pop(0)` once for each call. -/
def popGroup : Nat → List (Option Output) → Except PyError (List (Option Output) × List (Option Output))
  | 0, results => .ok ([], results)
  | _ + 1, [] => .error .indexError
  | count + 1, result :: results => do
    let (group, rest) ← popGroup count results
    return (result :: group, rest)

def popGroups : List Nat → List (Option Output) → Except PyError ConditionValues
  | [], _ => .ok []
  | count :: counts, results => do
    let (group, rest) ← popGroup count results
    return group :: (← popGroups counts rest)

def queueIsEmpty : String := "isEmpty()(bool)"
def shouldCalculateEma : String := "shouldCalculateEma()(bool)"
def nextTCInterestPayment : String := "nextTCInterestPayment()(uint256)"
def nextSettlementTime : String := "nextSettlementTime()(uint256)"

/-- One call for each valid address; the others are discarded. -/
def callConditionBase (fix : String → Option String) (addresses : List String) (signature : String) : List Call :=
  addresses.filterMap fun address => (fix address).map (⟨·, signature⟩)

def conditionCalls (cfg : ConditionalConfig) (fix : String → Option String) : List (List Call) :=
  [callConditionBase fix cfg.mocV3QueueIsEmpty queueIsEmpty,
    callConditionBase fix cfg.mocV3ShouldCalculateEma shouldCalculateEma,
    callConditionBase fix cfg.mocV3TcInterestPayment nextTCInterestPayment,
    callConditionBase fix cfg.mocV3SettlementTime nextSettlementTime,
    callConditionBase fix cfg.mocQueue queueIsEmpty,
    callConditionBase fix cfg.mocEma shouldCalculateEma,
    callConditionBase fix cfg.mocBaseBucket nextTCInterestPayment]

def syncFetch (answers : FetchAnswers) : EStateM PyError ConditionalPublishService Unit := do
  let calls := conditionCalls (← get).cfg answers.toChecksumAddress
  match answers.multicall calls.flatten with
  | .error _ => modify fun service => { service with lastBlock := none, lastValue := none }
  | .ok (resultsBase, block) =>
    modify fun service => { service with lastBlock := some block }
    let results ← lift (popGroups (calls.map List.length) resultsBase)
    modify fun service => { service with lastValue := some results }
    let active ← lift (getConditionActive answers.blockTimestamp (some results) (some block))
    let forced ← modifyGet (fetchForcePublish active answers.endpoint)
    modify fun service => { service with baseConditionActive := active, forcePublish := forced }
where
  lift {α : Type} : Except PyError α → EStateM PyError ConditionalPublishService α
    | .ok value => pure value
    | .error failure => throw failure
  -- The endpoint is asked only when no condition is active.
  fetchForcePublish (active : Bool) (answer : EndpointAnswer) (service : ConditionalPublishService) :
      Bool × ConditionalPublishService :=
    if active then (false, service)
    else
      let (forced, cfg) := service.cfg.fetchForcePublishFromEndpoint answer
      (forced, { service with cfg })

end ConditionalPublishService

/-- The signal a runner is created with. -/
inductive Signal
  | disabled
  | enabled (service : ConditionalPublishService)
  deriving DecidableEq

namespace Signal

/-- `SyncCreate`. An invalid configuration disables the service; a failed first fetch raises. -/
def syncCreate (env : Environment) (answers : FetchAnswers) : Except PyError Signal :=
  let ccfg := ConditionalConfig.init env
  if !ccfg.oracleOfflineCfg then .ok .disabled
  else if !ccfg.valid then .ok .disabled
  else match ConditionalPublishService.init ccfg with
    | .error _ => .ok .disabled
    | .ok service =>
      match ConditionalPublishService.syncFetch answers service with
      | .ok _ fetched => .ok (.enabled fetched)
      | .error failure _ => .error failure

def getPriceDelta (defaultDelta : ℚ) : Signal → ℚ × Signal
  | disabled => (defaultDelta, disabled)
  | enabled service => (service.getPriceDelta defaultDelta).map id enabled

def getValidPricePeriod (defaultValue : Int) : Signal → Int × Signal
  | disabled => (defaultValue, disabled)
  | enabled service => (service.getValidPricePeriod defaultValue).map id enabled

def lastOnlineBlock : Signal → Nat
  | disabled => 0
  | enabled service => service.lastOnlineBlock

def lastOfflineBlock : Signal → Nat
  | disabled => 0
  | enabled service => service.lastOfflineBlock

end Signal
end OmocNode
