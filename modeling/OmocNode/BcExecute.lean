import Mathlib.Logic.Function.Basic
import OmocNode.AsyncLock

/-! The calls of `bc_execute` for one address, and the lock that keeps them
apart. A call runs alone up to its next `await`. -/

namespace OmocNode.BcExecute
open AsyncLock

/-- The address has no lock before its first call. -/
structure NonceManager (τ : Type*) where
  lock : Option (Lock τ)

namespace NonceManager
variable {τ : Type*}

def getLock (manager : NonceManager τ) : Lock τ := manager.lock.getD .free

def release (manager : NonceManager τ) : NonceManager τ :=
  match manager.lock with
  | none => manager
  | some lock => if lock.locked then ⟨lock.release⟩ else manager

end NonceManager

/-- Where a call waits. An attempt at seeing the nonce committed is counted from 0. -/
inductive Place
  | idle
  | acquiring
  | fetchingNonce
  | estimatingGas
  | readingChainId
  | sending
  | waitingReceipt
  | readingCommitted (attempt : ℕ)
  | sleeping (attempt : ℕ)
  | finished
  deriving DecidableEq

/-- From obtaining the lock in `acquire` to the call's own release. -/
def Place.hasLock : Place → Prop
  | idle | acquiring | finished => False
  | _ => True

/-- Where a thread of the executor works while the call waits. -/
def Place.inThread : Place → Bool
  | idle | acquiring | sleeping _ | finished => false
  | _ => true

/-- Where the pending nonce is read or the transaction sent. -/
def Place.usesNonce : Place → Prop
  | fetchingNonce | sending | readingCommitted _ => True
  | _ => False

/-- The nonce is the one `acquire` returned, 0 before that. -/
structure Execution where
  gas : Option ℕ
  wait : Bool
  nonce : ℕ
  place : Place

/-- What the awaited work gives. An exception is one of the work, or of the code
that runs from there to the next `await`, such as building the transaction. A
cancelled call ends, and a thread that has begun with its work goes on. -/
inductive Outcome
  | value (value : ℕ)
  | exception
  | cancelled (threadRuns : Bool)

/-- How a call goes on: to its next `await`, to the release that ends
`wait_for_commit_and_release`, or out with an error. -/
inductive Progress
  | awaits (call : Execution)
  | commits
  | fails

def attempts : ℕ := 20

def Execution.at (call : Execution) (place : Place) : Progress := .awaits { call with place }

/-- `get_tx`, with the nonce that `acquire` returned. -/
def Execution.getTx (call : Execution) : Progress :=
  match call.gas with
  | none => call.at .estimatingGas
  | some _ => call.at .readingChainId

/-- The next round of the loop of `wait_for_commit_and_release`. -/
def Execution.nextAttempt (call : Execution) (attempt : ℕ) : Progress :=
  if attempt < attempts then call.at (.readingCommitted attempt) else .commits

/-- `configured` is the chain id of the `BlockChain`, for a node that gives none. -/
def Execution.resume (configured : Option ℕ) (call : Execution) (outcome : Outcome) : Option Progress :=
  match call.place, outcome with
  | .idle, _ | .acquiring, _ | .finished, _ => none
  | _, .cancelled _ => some .fails
  | .fetchingNonce, .value nonce => some ({ call with nonce }).getTx
  | .estimatingGas, .value gas => some ({ call with gas := some gas }.at .readingChainId)
  | .estimatingGas, .exception => some ({ call with gas := some 4200000 }.at .readingChainId)
  | .readingChainId, .value chainId =>
    if chainId ≠ 0 ∨ configured.getD 0 ≠ 0 then some (call.at .sending) else some .fails
  | .sending, .value _ => some (if call.wait then call.at .waitingReceipt else call.nextAttempt 0)
  | .waitingReceipt, .value _ => some (call.nextAttempt 0)
  | .readingCommitted attempt, .value onChainNonce =>
    some (if call.nonce < onChainNonce then .commits else call.at (.sleeping attempt))
  | .readingCommitted attempt, .exception => some (call.at (.sleeping attempt))
  | .sleeping attempt, .value _ => some (call.nextAttempt (attempt + 1))
  | _, .exception => some .fails

/-- The threads are those of cancelled calls, with what they still do. -/
structure State (τ : Type*) where
  manager : NonceManager τ
  calls : τ → Execution
  threads : List (τ × Place)

inductive Event (τ : Type*)
  | start (task : τ) (gas : Option ℕ) (wait : Bool)
  | cancel (task : τ)
  | wake (task : τ)
  | resume (task : τ) (outcome : Outcome)
  | threadEnds (task : τ) (place : Place)

namespace State
variable {τ : Type*} [DecidableEq τ]

def initial : State τ := ⟨⟨none⟩, fun _ => ⟨none, false, 0, .idle⟩, []⟩

def set (state : State τ) (task : τ) (call : Execution) (lock : Lock τ) : State τ :=
  ⟨⟨some lock⟩, Function.update state.calls task call, state.threads⟩

/-- The `finally` of `bc_execute`, which does not ask whether this call has the lock. -/
def leave (state : State τ) (task : τ) : State τ :=
  ⟨state.manager.release, Function.update state.calls task { state.calls task with place := .finished }, state.threads⟩

/-- The release of `wait_for_commit_and_release`; it raises when the lock is not locked. -/
def commit (state : State τ) : State τ :=
  { state with manager := ⟨state.manager.getLock.release.getD state.manager.getLock⟩ }

/-- What a call that ends with an error leaves to the executor. -/
def abandon (state : State τ) (task : τ) (outcome : Outcome) : State τ :=
  match outcome with
  | .cancelled true =>
    if (state.calls task).place.inThread then { state with threads := (task, (state.calls task).place) :: state.threads } else state
  | _ => state

def start (state : State τ) (task : τ) (gas : Option ℕ) (wait : Bool) : State τ :=
  let call (place : Place) : Execution := ⟨gas, wait, 0, place⟩
  match state.manager.getLock.acquire task with
  | (true, lock) => state.set task (call .fetchingNonce) lock
  | (false, lock) => state.set task (call .acquiring) lock

def step (configured : Option ℕ) (state : State τ) : Event τ → Option (State τ)
  | .start task gas wait =>
    if (state.calls task).place = .idle then some (state.start task gas wait) else none
  | .cancel task =>
    if (state.calls task).place = .acquiring then
      some { state with manager := ⟨state.manager.getLock.cancel task⟩ }
    else none
  | .wake task =>
    match state.manager.getLock.resume task with
    | none => none
    | some (true, lock) => some (state.set task { state.calls task with place := .fetchingNonce } lock)
    | some (false, lock) => some ((state.set task (state.calls task) lock).leave task)
  | .resume task outcome =>
    match (state.calls task).resume configured outcome with
    | none => none
    | some (.awaits call) => some { state with calls := Function.update state.calls task call }
    | some .commits => some (state.commit.leave task)
    | some .fails => some ((state.abandon task outcome).leave task)
  | .threadEnds task place =>
    if (task, place) ∈ state.threads then some { state with threads := state.threads.erase (task, place) } else none

end State
end OmocNode.BcExecute
