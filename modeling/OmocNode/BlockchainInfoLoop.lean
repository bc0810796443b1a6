import Mathlib.Logic.Function.Basic
import OmocNode.BlockchainInfo
import OmocNode.PyFloat

/-! What the node keeps of a coin pair's contracts. Its own loop asks for it from
time to time and a publication asks for it at once, each one request at a time. -/

namespace OmocNode.BlockchainInfoLoop
open BlockchainInfo

inductive Issuer
  | run
  | publish
  deriving DecidableEq

structure Setting where
  history : ℕ → Chain
  coinPair : CoinPair
  isInfoServiceAvailable : Bool
  oracleBlockchainInfoInterval : Int

/-- An update in flight is known by the moment at which it started. -/
structure State where
  now : ℕ
  lastUpdate : Option PyFloat
  blockchainInfo : Option ReadInfo
  inFlight : Issuer → Option ℕ

def State.initial : State := { now := 0, lastUpdate := none, blockchainInfo := none, inFlight := fun _ => none }

def Setting.data (setting : Setting) (moment : ℕ) : Option ReadInfo :=
  if setting.isInfoServiceAvailable then getBlockingOneBigRequest (setting.history moment) setting.coinPair
  else getBlockingParallelRequests (setting.history moment) setting.coinPair

/-- The start of `force_update`. Its lock is never held over an `await`, so nobody waits for it. -/
def State.forceUpdate (state : State) (issuer : Issuer) (time : PyFloat) : State :=
  { state with lastUpdate := some time, inFlight := Function.update state.inFlight issuer (some state.now) }

def State.answered (state : State) (issuer : Issuer) (data : Option ReadInfo) : State :=
  { state with blockchainInfo := data.or state.blockchainInfo, inFlight := Function.update state.inFlight issuer none }

/-- A round of `run`: it updates unless somebody did so less than an interval ago.
A time of 0 counts as none. -/
def State.run (setting : Setting) (state : State) (time : PyFloat) : State :=
  match state.lastUpdate.filter (· ≠ .finite 0) with
  | none => state.forceUpdate .run time
  | some lastUpdate =>
    if (time.sub lastUpdate).lt (.finite setting.oracleBlockchainInfoInterval) then state
    else state.forceUpdate .run time

/-- `tick` lets the contracts move on. An answer tells of one moment between the
start of its request and now; a request may also fail, or be cancelled. -/
inductive Event
  | tick
  | run (time : PyFloat)
  | publish (time : PyFloat)
  | answer (issuer : Issuer) (moment : ℕ)
  | fail (issuer : Issuer)

def step (setting : Setting) (state : State) : Event → Option State
  | .tick => some { state with now := state.now + 1 }
  | .run time => if state.inFlight .run = none then some (state.run setting time) else none
  | .publish time => if state.inFlight .publish = none then some (state.forceUpdate .publish time) else none
  | .answer issuer moment =>
    match state.inFlight issuer with
    | none => none
    | some started =>
      if started ≤ moment ∧ moment ≤ state.now then some (state.answered issuer (setting.data moment)) else none
  | .fail issuer =>
    match state.inFlight issuer with
    | none => none
    | some _ => some (state.answered issuer none)

end OmocNode.BlockchainInfoLoop
