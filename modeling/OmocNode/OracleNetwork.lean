import Mathlib.Logic.Function.Basic
import OmocNode.App
import OmocNode.LoopRounds
import OmocNode.Runs

/-! The nodes of one network that run this program, and every message that their
keys sign: for the requests of other oracles, and for publications of their own. -/

namespace OmocNode.OracleNetwork
open App CoinPairLoop

structure Signed where
  addr : String
  message : String
  deriving DecidableEq

/-- The nodes by the address of their account. The messages come in no order but that of time, newest first. -/
structure World where
  nodes : String → Option Node
  signed : List Signed

/-- `refresh` is whatever the other loops of a node write: prices, what they
read from the chain, signals, and time. -/
inductive Event
  | refresh (addr : String) (cpMap : List (String × Runner)) (now : Int)
  | request (addr : String) (request : SignRequest)
  | round (addr : String) (coinPair : String) (setting : LoopRounds.Setting)

def setRunner (node : Node) (name : String) (runner : Runner) : Node :=
  { node with cpMap := node.cpMap.map fun entry => if entry.1 = name then (entry.1, runner) else entry }

def answered : Response → List String
  | .signed message _ => [message]
  | .failedDependency _ | .unprocessableEntity _ => []

def published (eth : EthAccount) (account : BlockchainAccount) (params : PublishParams) : List String :=
  match params.prepareMsg with
  | .error _ => []
  | .ok message =>
    match Crypto.signMessage eth ("0x" ++ message) account, signLegacy eth account params with
    | .ok _, .ok (some legacy) => [legacy.message, message]
    | .ok _, _ => [message]
    | .error _, _ => []

def World.update (world : World) (addr : String) (node : Node) (messages : List String) : World :=
  { nodes := Function.update world.nodes addr (some node), signed := messages.map (⟨addr, ·⟩) ++ world.signed }

/-- A request is handled at once, and so is the part of a round from the answer
about the contract's round to the signatures. -/
def step (libraries : Libraries) (world : World) : Event → Option World
  | .refresh addr cpMap now => do
    let node ← world.nodes addr
    return world.update addr { node with cpMap, now } []
  | .request addr request => do
    let node ← world.nodes addr
    let answer := handle libraries node request
    return world.update addr answer.2 (answered answer.1)
  | .round addr coinPair setting => do
    let node ← world.nodes addr
    let runner ← node.cpMap.lookup coinPair
    let decided := LoopRounds.decision setting node.account.addr.text runner
    return world.update addr (setRunner node coinPair decided.2) (match decided.1 with
      | .ok (.publish _ params _) => published libraries.eth node.account params
      | .ok .wait | .error _ => [])

/-- What a node answers on the web to a form that is posted to it, and the node
after that. `detail` is what an error answer says, the framework's own where it
finds no endpoint, or a field missing. -/
def reply (libraries : Libraries) (detail : Option Response → Json) (node : Node) (path : String) (form : Form) : Reply × Node :=
  match SignRequest.ofForm path form with
  | none =>
    let status := if path ∈ ["/sign/", "/sign-price-v4/", "/sign-task/"] then 422 else 404
    (.response status (some (.object [("detail", detail none)])), node)
  | some request =>
    let (answer, node) := handle libraries node request
    let body := match answer with
      | .signed message signature => [("message", .string message), ("signature", .string signature)]
      | .failedDependency _ | .unprocessableEntity _ => [("detail", detail (some answer))]
    (.response answer.statusCode (some (.object body)), node)

end OmocNode.OracleNetwork
