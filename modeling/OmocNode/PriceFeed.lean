import OmocNode.BoundedQueue
import OmocNode.FetchPrices

/-! The loop that asks the exchanges and keeps what each of them answers in a
queue of its own, from which the price of the pair is taken. -/

namespace OmocNode

/-- The exact number; an engine's weight is one, as is everything but infinities and NaN. -/
def PyDecimal.number : PyDecimal → ℚ
  | finite value => value
  | infinity | negInfinity | nan => 0

/-- The sample of a price, stamped with its time in seconds. -/
def IPrice.sample (val : IPrice) : ExchangePrice :=
  { name := val.name, price := val.price, ponderation := val.ponderation.number, tsUtc := .ofRat (val.timestamp / 1000000) }

namespace PriceFeed
open Blockchain PriceEngines

/-- One engine in one round: what `fetch` returned, how the engine reads it, and
the clock, which is read once more where the price is too old. -/
structure Answer (Response : Type) where
  engine : DEngine
  fetched : Awaited (Option Response × String)
  truthy : Response → Bool
  map : Response → Awaited PriceInfo
  now : Int
  later : Int

/-- A round, with the configuration it reads. `answers` is what all the engines have answered together. -/
structure Round (Response : Type) where
  oracleQueueLen : Nat
  oraclePriceReceiveMaxAge : PyFloat
  oraclePriceFetchRate : Int
  answers : Awaited (List (Answer Response))

variable {Response : Type} (str : PyError → String)

namespace Round

def outcome (round : Round Response) (answer : Answer Response) : DEngine × Awaited (Except String PriceInfo) :=
  (answer.engine, getPrice str answer.engine.name round.oraclePriceReceiveMaxAge answer.now answer.later answer.truthy answer.map
    answer.fetched)

def getWeighted (round : Round Response) : Awaited (List IPrice) :=
  match round.answers with
  | .error raised => .error raised
  | .ok answers => (fetchPrices (answers.map (round.outcome str))).mapError .exception

def arrival (round : Round Response) (val : IPrice) : BoundedQueue.Arrival String ExchangePrice :=
  { maxlen := round.oracleQueueLen, key := val.name, item := val.sample }

end Round

/-- The queues, and what the loop has read of the configuration. -/
structure Feed where
  priceQueues : Dict String (BoundedQueue ExchangePrice)
  oraclePricePublishMaxDiff : PyFloat
  oraclePriceValidateMaxDiff : PyFloat
  oraclePriceDigits : Nat

/-- The feeder as it is asked for a price. -/
def Feed.feeder (feed : Feed) : PriceFeederLoop :=
  { priceQueues := feed.priceQueues.entries.map fun entry => (entry.1, entry.2.items)
    oraclePricePublishMaxDiff := feed.oraclePricePublishMaxDiff
    oraclePriceValidateMaxDiff := feed.oraclePriceValidateMaxDiff
    oraclePriceDigits := feed.oraclePriceDigits }

/-- `run`, which returns its delay also where the exchanges could not be asked. -/
def run (round : Round Response) (feed : Feed) : Awaited Int × Feed :=
  match round.getWeighted str with
  | .error .cancelled => (.error .cancelled, feed)
  | .error (.exception _) => (.ok round.oraclePriceFetchRate, feed)
  | .ok wData => (.ok round.oraclePriceFetchRate,
      { feed with priceQueues := (wData.map round.arrival).foldl BoundedQueue.push feed.priceQueues })

/-- The feeder after the rounds of a loop. -/
def afterRounds (rounds : List (Round Response)) (feed : Feed) : Feed :=
  rounds.foldl (fun feed round => (run str round feed).2) feed

end PriceFeed
end OmocNode
