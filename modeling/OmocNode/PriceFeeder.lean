import Mathlib.Data.List.Sort
import OmocNode.OracleDao
import OmocNode.PyFloat

/-! How the node puts the prices of several exchanges together: the sample of
each exchange nearest in time, and the weighted median of those in use. -/

namespace OmocNode

/-- A `Decimal`. An engine puts NaN where it has no price. -/
inductive PyDecimal
  | finite (value : ℚ)
  | infinity
  | negInfinity
  | nan
  deriving DecidableEq

/-- `x / y` for numbers; a zero divided by zero raises `InvalidOperation`. -/
def PyDecimal.divide (x y : ℚ) : Except PyError ℚ :=
  if y ≠ 0 then .ok (x / y)
  else if x = 0 then .error (.exception "[<class 'decimal.DivisionUndefined'>]")
  else .error .zeroDivisionError

namespace Python

/-- `min(items, key=key)`: of equal keys, the first. -/
def minBy {α κ : Type} (less : κ → κ → Bool) (key : α → κ) : List α → Option α
  | [] => none
  | first :: rest => some (rest.foldl (fun best item => if less (key item) (key best) then item else best) first)

/-- `int(value)`, which drops the fraction. -/
def truncate (value : ℚ) : Int := if value < 0 then ⌈value⌉ else ⌊value⌋

end Python

/-- What the node keeps of one answer of an exchange. -/
structure ExchangePrice where
  name : String
  price : PyDecimal
  ponderation : ℚ
  tsUtc : PyFloat
  deriving DecidableEq

/-- The answers of one exchange, the oldest one first. -/
abbrev TimeWithTimestampQueue := List ExchangePrice

namespace TimeWithTimestampQueue

def distance (targetTimeUtc : PyFloat) (x : ExchangePrice) : PyFloat := (targetTimeUtc.sub x.tsUtc).abs

def minWithout (queue : TimeWithTimestampQueue) (targetTimeUtc : PyFloat) (x : ExchangePrice) : Option ExchangePrice :=
  Python.minBy PyFloat.lt (distance targetTimeUtc) (queue.filter fun y => !y.tsUtc.eq x.tsUtc)

/-- Of two samples at one distance, before and after the time, the later one. -/
def getNearestData (queue : TimeWithTimestampQueue) (targetTimeUtc : PyFloat) : Option ExchangePrice :=
  match Python.minBy PyFloat.lt (distance targetTimeUtc) queue with
  | none => none
  | some ret1 =>
    match minWithout queue targetTimeUtc ret1 with
    | none => some ret1
    | some ret2 =>
      let dRet1 := ret1.tsUtc.sub targetTimeUtc
      let dRet2 := ret2.tsUtc.sub targetTimeUtc
      if !dRet1.abs.eq dRet2.abs then some ret1
      else some (if (PyFloat.finite 0).lt dRet1 then ret1 else ret2)

end TimeWithTimestampQueue

namespace PriceEngines

/-- The tuples that `sorted` compares: value, weight and position. -/
abbrev Weighted := ℚ × ℚ × Nat

def Weighted.le (x y : Weighted) : Prop :=
  x.1 < y.1 ∨ x.1 = y.1 ∧ (x.2.1 < y.2.1 ∨ x.2.1 = y.2.1 ∧ x.2.2 ≤ y.2.2)

instance (x y : Weighted) : Decidable (Weighted.le x y) := inferInstanceAs (Decidable (_ ∨ _))

/-- The loop over the sorted tuples, which ends where half of the weight is reached. -/
def medianPoint : ℚ → List Weighted → Option Nat
  | _, [] => none
  | cumulativeProbability, tuple :: rest =>
    let cumulativeProbability := cumulativeProbability + tuple.2.1
    if cumulativeProbability > 1 / 2 then some tuple.2.2
    else if cumulativeProbability = 1 / 2 then some tuple.2.2
    else medianPoint cumulativeProbability rest

/-- The arithmetic is exact here; the source's rounds to 28 digits. -/
def weightedMedianIdx (values weights : List ℚ) : Except PyError Nat := do
  let weights ← weights.mapM (PyDecimal.divide · weights.sum)
  let sortedTuples := (values.zip (weights.zip (List.range values.length))).insertionSort Weighted.le
  match medianPoint 0 sortedTuples with
  | some idx => return idx
  | none => (Python.getItem sortedTuples (-1)).map (·.2.2)

/-- A finite price with its weight, and its position among the samples. -/
def finitePrice (entry : ExchangePrice × Nat) : Option Weighted :=
  match entry.1.price with
  | .finite price => some (price, entry.1.ponderation, entry.2)
  | _ => none

/-- Without a finite price there is nothing to unpack. -/
def getWeightedFrom (fPrices : List ExchangePrice) : Except PyError ExchangePrice :=
  let finitePrices := fPrices.zipIdx.filterMap finitePrice
  if finitePrices.isEmpty then .error .valueError
  else do
    let idx ← weightedMedianIdx (finitePrices.map (·.1)) (finitePrices.map (·.2.1))
    let idxback : List Nat := finitePrices.map (·.2.2)
    let back ← Python.getItem idxback idx
    Python.getItem fPrices back

end PriceEngines

/-- The price feeder of a coin pair, with its queues by exchange. -/
structure PriceFeederLoop where
  priceQueues : List (String × TimeWithTimestampQueue)
  oraclePricePublishMaxDiff : PyFloat
  oraclePriceValidateMaxDiff : PyFloat
  oraclePriceDigits : Nat

namespace PriceFeederLoop

def maxdiffs (feeder : PriceFeederLoop) (toPublish : Bool) : PyFloat :=
  if toPublish then feeder.oraclePricePublishMaxDiff else feeder.oraclePriceValidateMaxDiff

def usable (feeder : PriceFeederLoop) (targetTimeUtc : PyFloat) (toPublish : Bool) (x : ExchangePrice) : Bool :=
  (match x.price with | .finite _ => true | _ => false) &&
    (TimeWithTimestampQueue.distance targetTimeUtc x).le (feeder.maxdiffs toPublish)

def getLastPrice (feeder : PriceFeederLoop) (targetTimeUtc : PyFloat) (toPublish : Bool) :
    Except PyError (Option PriceWithTimestamp) :=
  let wData := feeder.priceQueues.filterMap fun queue => TimeWithTimestampQueue.getNearestData queue.2 targetTimeUtc
  let wData := wData.filter (feeder.usable targetTimeUtc toPublish)
  if wData.isEmpty then .ok none
  else do
    let val ← PriceEngines.getWeightedFrom wData
    match val.price with
    | .finite price => return some ⟨Python.truncate (price * 10 ^ feeder.oraclePriceDigits), val.tsUtc⟩
    -- `int` raises on the others, which no usable sample has.
    | .infinity | .negInfinity => .error (.exception "cannot convert Infinity to integer")
    | .nan => .error .valueError

end PriceFeederLoop
end OmocNode
