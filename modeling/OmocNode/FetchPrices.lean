import OmocNode.Blockchain
import OmocNode.PriceFeeder

/-! How the node asks the exchanges for their prices. All of them are asked at
once, and what they answered is put together in one loop. -/

namespace OmocNode

/-- What an engine gives as its volume. Where the exchange tells none it is the float `0.0`. -/
inductive Volume
  | decimal (value : PyDecimal)
  | float (value : PyFloat)
  deriving DecidableEq

namespace Volume

def invalidOperation : PyError := .exception "[<class 'decimal.InvalidOperation'>]"

/-- `volume > bound`. A `Decimal` cannot be put in order with a NaN, a float is just not greater. -/
def greater : Volume → PyFloat → Except PyError Bool
  | .float volume, bound => .ok (bound.lt volume)
  | .decimal .nan, _ | .decimal _, .nan => .error invalidOperation
  | .decimal (.finite volume), .finite bound => .ok (bound < volume)
  | .decimal (.finite _), bound => .ok (bound = .negInfinity)
  | .decimal .infinity, bound => .ok (bound ≠ .infinity)
  | .decimal .negInfinity, _ => .ok false

end Volume

/-- The `d_price_info` of an engine, with its time in microseconds. -/
structure PriceInfo where
  price : PyDecimal
  volume : Volume
  timestamp : Int
  deriving DecidableEq

/-- One of the configured engines, without the object that asks the exchange. -/
structure DEngine where
  name : String
  ponderation : PyDecimal
  minVolume : PyFloat
  maxDelay : PyFloat
  deriving DecidableEq

structure IPrice where
  name : String
  ponderation : PyDecimal
  price : PyDecimal
  volume : Volume
  timestamp : Int
  minVolume : PyFloat
  maxDelay : PyFloat
  deriving DecidableEq

namespace Python

/-- `timedelta(seconds=seconds)` in microseconds, at most 999999999 days. The
whole seconds are exact, and what the fraction adds is a product of doubles. -/
def timedelta : PyFloat → Except PyError Int
  | .nan => .error .valueError
  | .infinity | .negInfinity => .error .overflowError
  | .finite seconds =>
    let fraction := Decimal.rounded 2 53 ((seconds - truncate seconds) * 1000000)
    let micros := Decimal.nearestEven (truncate seconds * 1000000 + fraction)
    if |micros / 86400000000| ≤ 999999999 then .ok micros else .error .overflowError

end Python

namespace PriceEngines
open Blockchain

/-- `get_price`, from what `fetch` returned. A price that is too old becomes NaN
as of now, the clock being read once more. The error text is `none` for a price. -/
def getPrice {Response : Type} (str : PyError → String) (name : String) (oraclePriceReceiveMaxAge : PyFloat) (now later : Int)
    (truthy : Response → Bool) (map : Response → Awaited PriceInfo) (fetched : Awaited (Option Response × String)) :
    Awaited (Except String PriceInfo) := do
  let (responseJson, errMsg) ← fetched
  match responseJson.filter truthy with
  | none => return .error errMsg
  | some responseJson =>
    match map responseJson with
    | .error .cancelled => throw .cancelled
    | .error (.exception err) =>
      return .error ("Error. Error response from server on get price. Engine: " ++ name ++ ". " ++ str err)
    | .ok info =>
      let maxAge ← (Python.timedelta oraclePriceReceiveMaxAge).mapError .exception
      if now - info.timestamp > maxAge then
        return .ok { info with price := .nan, timestamp := later }
      else return .ok info

def iPrice (engine : DEngine) (dPrice : PriceInfo) : IPrice :=
  { name := engine.name, ponderation := engine.ponderation, price := dPrice.price, volume := dPrice.volume
    timestamp := dPrice.timestamp, minVolume := engine.minVolume, maxDelay := engine.maxDelay }

/-- The body of the loop over the gathered results. An exception among them cannot be unpacked. -/
def addPrice (engine : DEngine) : Awaited (Except String PriceInfo) → Except PyError (Option IPrice)
  | .error _ => .error .typeError
  | .ok (.error _) => .ok none
  | .ok (.ok dPrice) => do
    if (PyFloat.finite 0).lt engine.minVolume then
      -- The evaluation of volume is on.
      if !(← dPrice.volume.greater engine.minVolume) then return none
    return some (iPrice engine dPrice)

/-- `fetch_prices`, once every engine has answered or raised. -/
def fetchPrices : List (DEngine × Awaited (Except String PriceInfo)) → Except PyError (List IPrice)
  | [] => .ok []
  | (engine, result) :: pData => do
    let price ← addPrice engine result
    return price.toList ++ (← fetchPrices pData)

end PriceEngines
end OmocNode
