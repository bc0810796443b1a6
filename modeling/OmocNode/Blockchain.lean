import Mathlib.Data.List.Infix
import OmocNode.BlockchainInfo
import OmocNode.CoinPairService
import OmocNode.Crypto

/-! How the node sends a transaction and learns what became of it. Whatever it
waits for may raise, and may be cancelled. -/

namespace OmocNode.Blockchain
open BlockchainInfo

/-- How an awaited computation ends that does not return. -/
inductive Raised
  | exception (err : PyError)
  | cancelled
  deriving DecidableEq

abbrev Awaited := Except Raised

inductive TxState
  | pending
  | success
  | failed
  | error
  deriving DecidableEq

def TxState.text : TxState → String
  | pending => "pending"
  | success => "success"
  | failed => "failed"
  | error => "error"

/-- The state of a transaction that could be sent, whatever it is. -/
structure BCSuccess where
  state : TxState
  hash : Bytes
  deriving DecidableEq

def bcError (err : String) : BCError :=
  if "Could not decode".toList.isPrefixOf err.toList ∧ "return data b'\\x00'".toList <:+: err.toList then
    ⟨"Check your NODE_URL configuration, most probably we are using the wrong block chain node : " ++ err⟩
  else ⟨err⟩

/-- `exec_with_catch_async`, with `str` of an exception. A cancellation passes. -/
def execWithCatch {α : Type} (str : PyError → String) : Awaited (Reply α) → Awaited (Reply α)
  | .ok reply => .ok reply
  | .error .cancelled => .error .cancelled
  | .error (.exception err) => .ok (.error (bcError (str err)))

structure Receipt where
  transactionHash : Bytes
  blockHash : Option Bytes
  gasUsed : Nat
  status : Nat

inductive Poll
  | answer (receipt : Option Receipt)
  | transactionNotFound
  | raised (raised : Raised)

/-- What `sendRawTransaction` gives: a hash, or a `dict` with an error. -/
inductive Sent
  | hash (tx : Bytes)
  | errorDict
  deriving DecidableEq

structure TxData where
  sender : Address
  chainId : Nat
  gasPrice : Reply ℚ
  gas : Nat
  nonce : Nat

/-- How each thing ends that is called or awaited outside the node's own code
while it sends one transaction. `receipts` are the polls until the wait for the
receipt times out, and `committed` the nonces read after it. `locked` says
whether the lock of the address is still locked when `wait_for_commit_and_release`
releases it. -/
structure Web3 where
  str : PyError → String
  functions : CoinPairService.ContractCall → Awaited Unit
  acquire : Awaited Nat
  estimateGas : (sender : Address) → (gasPrice : ℚ) → (nonce : Nat) → Awaited Nat
  chainId : Awaited (Option Nat)
  buildTransaction : CoinPairService.ContractCall → TxData → Awaited Bytes
  signTransaction : Bytes → Awaited Bytes
  sendRawTransaction : Bytes → Awaited Sent
  receipts : List Poll
  committed : List (Awaited Nat)
  locked : Bool

structure BlockChain where
  chainId : Option Nat
  web3 : Web3

namespace BlockChain

/-- The gas limit, which is a constant where the estimate raises. A gas price
that is an error value raises before that, where it is written to the log. -/
def gasLimit (chain : BlockChain) (sender : Address) (gasPrice : Reply ℚ) (nonce : Nat) : Option Nat → Awaited Nat
  | some gas => .ok gas
  | none =>
    match gasPrice with
    | .error _ => .ok 4200000
    | .ok gasPrice =>
      match chain.web3.estimateGas sender gasPrice nonce with
      | .ok gas => .ok gas
      | .error .cancelled => .error .cancelled
      | .error (.exception _) => .ok 4200000

/-- `get_tx`, with the nonce that is given. -/
def getTx (chain : BlockChain) (call : CoinPairService.ContractCall) (sender : Address) (gasPrice : Reply ℚ) (gas : Option Nat)
    (nonce : Nat) : Awaited Bytes := do
  let gas ← chain.gasLimit sender gasPrice nonce gas
  let read ← chain.web3.chainId
  let chainId := if read.getD 0 = 0 then chain.chainId.getD 0 else read.getD 0
  if chainId = 0 then throw (.exception (.exception "Can't get chain id from block chain, must be configured"))
  chain.web3.buildTransaction call { sender, chainId, gasPrice, gas, nonce }

end BlockChain

/-- The loop of `get_receipt`, until it is told of a block or the wait times out. -/
def runWithTimeout : List Poll → Awaited Receipt
  | [] => .error (.exception .timeoutError)
  | .answer none :: polls | .transactionNotFound :: polls => runWithTimeout polls
  | .answer (some receipt) :: polls => if receipt.blockHash.isSome then .ok receipt else runWithTimeout polls
  | .raised raised :: _ => .error raised

/-- `get_receipt`, where it waits. Of what it returns only the state is read. -/
def getReceipt (polls : List Poll) : Awaited TxState := do
  let receipt ← runWithTimeout polls
  return if receipt.status ≠ 0 then .success else .failed

def processTx (polls : List Poll) (wait : Bool) : Sent → Awaited (Reply BCSuccess)
  | .errorDict => .ok (.error (bcError TxState.error.text))
  | .hash tx => if wait then do return .ok ⟨← getReceipt polls, tx⟩ else .ok (.ok ⟨.success, tx⟩)

/-- The attempts at seeing the nonce committed, an exception being one in vain. -/
def waitForCommit (lastUsedNonce : Nat) : (attempts : Nat) → List (Awaited Nat) → Awaited Unit
  | 0, _ | _, [] => .ok ()
  | attempts + 1, read :: reads =>
    match read with
    | .ok onChainNonce => if onChainNonce > lastUsedNonce then .ok () else waitForCommit lastUsedNonce attempts reads
    | .error (.exception _) => waitForCommit lastUsedNonce attempts reads
    | .error .cancelled => .error .cancelled

/-- It releases the lock whether the nonce was seen or not. -/
def Web3.waitForCommitAndRelease (web3 : Web3) (lastUsedNonce : Nat) : Awaited Unit := do
  waitForCommit lastUsedNonce 20 web3.committed
  if !web3.locked then throw (.exception (.exception "Lock is not acquired."))

/-- `bc_execute`. The `release` in its `finally` neither waits nor raises. -/
def BlockChain.bcExecute (chain : BlockChain) (call : CoinPairService.ContractCall) (account : Option BlockchainAccount)
    (wait : Bool) (lastGasPrice : Reply ℚ) (gas : Option Nat) : Awaited (Reply BCSuccess) :=
  execWithCatch chain.web3.str do
    let some account := account | throw (.exception (.exception "Missing key, cant execute"))
    chain.web3.functions call
    let nonce ← chain.web3.acquire
    let txn ← chain.getTx call account.addr lastGasPrice gas nonce
    let signedTxn ← chain.web3.signTransaction txn
    let tx ← chain.web3.sendRawTransaction signedTxn
    let result ← processTx chain.web3.receipts wait tx
    chain.web3.waitForCommitAndRelease nonce
    return result

end OmocNode.Blockchain
