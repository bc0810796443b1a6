import OmocNode.Blockchain
import OmocNode.PriceFeeder

/-! The gas price of the node's transactions. A price may be above the last one by
some percent only, and has hard limits; each price is the reference for the next. -/

namespace OmocNode
open BlockchainInfo Blockchain

/-- The settings of the gas price. A hard limit of 0 is no limit. -/
structure GasSettings where
  defaultGasPrice : Int
  gasPercentageAdmitted : Int
  gasPriceHardLimitMin : Int
  gasPriceHardLimitMax : Int
  gasPriceHardLimitMultiplier : Int

/-- `gasLimitService` tells whether there is a contract that limits the gas price. -/
structure GasCalculator where
  settings : GasSettings
  gasLimitService : Bool
  lastPrice : Option Int

/-- What the node and the contract answer to one `get_current`, should they be asked. -/
structure GasAnswers where
  gasPrice : Awaited (Option Int)
  maxGasPrice : Awaited (Reply Int)

namespace GasCalculator

def init (settings : GasSettings) (gasLimitService : Bool) : GasCalculator :=
  { settings, gasLimitService, lastPrice := none }

def setLastPrice (gas : GasCalculator) (gasPrice : Int) : GasCalculator := { gas with lastPrice := some gasPrice }

/-- The arithmetic is exact here, where the source's is that of floats. -/
def getGasPricePlusXPerc (gas : GasCalculator) (gasPrice : Int) : ℚ :=
  gasPrice + gasPrice * ((gas.settings.gasPercentageAdmitted : ℚ) / 100)

def getLastPrice (gas : GasCalculator) : Int :=
  match gas.lastPrice with
  | none => gas.settings.defaultGasPrice
  | some lastPrice => Python.truncate (gas.getGasPricePlusXPerc lastPrice)

/-- The node's price, or the admitted one where that is lower or the node has none. -/
def admitted (gas : GasCalculator) (reported : Option Int) : Int :=
  let gasPrice := reported.getD gas.getLastPrice
  if gasPrice > gas.getLastPrice then gas.getLastPrice else gasPrice

/-- The price before the hard maximum. -/
def beforeMaximum (gas : GasCalculator) (reported gasLimitServiceValue : Option Int) : Int :=
  let gasPrice := gas.admitted reported * gas.settings.gasPriceHardLimitMultiplier
  let gasPrice := if gas.settings.gasPriceHardLimitMin > gasPrice then gas.settings.gasPriceHardLimitMin else gasPrice
  match gasLimitServiceValue with
  | some value => if value + 1 > gasPrice then value + 1 else gasPrice
  | none => gasPrice

def cutByMaximum (gas : GasCalculator) (gasPrice : Int) : Int :=
  if gas.settings.gasPriceHardLimitMax ≠ 0 ∧ gas.settings.gasPriceHardLimitMax < gasPrice then
    gas.settings.gasPriceHardLimitMax
  else gasPrice

/-- The node's price and the contract's value, which is dropped if it is an error value. -/
def ask (gas : GasCalculator) (answers : GasAnswers) : Awaited (Option Int × Option Int) := do
  let gasPrice ← answers.gasPrice
  if gas.gasLimitService then return (gasPrice, (← answers.maxGasPrice).toOption)
  else return (gasPrice, none)

/-- `get_current`. An exception becomes an error value and leaves the last price as it is. -/
def getCurrent (str : PyError → String) (gas : GasCalculator) (answers : GasAnswers) : GasCalculator × Awaited (Reply Int) :=
  match gas.ask answers with
  | .error raised => (gas, execWithCatch str (.error raised))
  | .ok (reported, value) =>
    let gasPrice := gas.cutByMaximum (gas.beforeMaximum reported value)
    (gas.setLastPrice gasPrice, .ok (.ok gasPrice))

/-- The calculator after some calls. -/
def after (str : PyError → String) (gas : GasCalculator) (calls : List GasAnswers) : GasCalculator :=
  calls.foldl (fun gas answers => (gas.getCurrent str answers).1) gas

end GasCalculator
end OmocNode
