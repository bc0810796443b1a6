import OmocNode.Runners

/-! The three endpoints at which a node signs for other oracles. -/

namespace OmocNode.App
open RequestM

/-- The form fields of a request to `/sign/`, `/sign-price-v4/` or `/sign-task/`. -/
inductive SignRequest
  | sign (version coinPair price priceTimestamp oracleAddr lastPubBlock signature : String)
  | signPriceV4 (version coinPair price priceTimestamp oracleAddr lastPubBlock expiration signature : String)
  | signTask (version coinPair tasksFlags oracleAddr lastPubBlock signature : String)

/-- What the node depends on outside its own code: the signature library, and
the conversion of a text to a double. -/
structure Libraries where
  eth : EthAccount
  float : String → Except PyError PyFloat

structure Node where
  cpMap : List (String × Runner)
  account : BlockchainAccount
  now : Int

inductive Response
  | signed (message signature : String)
  | failedDependency (reason : ValidationFailure)
  | unprocessableEntity (err : PyError)
  deriving DecidableEq

def Response.statusCode : Response → Nat
  | signed .. => 200
  | failedDependency _ => 424
  | unprocessableEntity _ => 422

namespace SignRequest

/-- What a form posted to a path is to the endpoint there. A form without one of
the endpoint's fields is refused before the endpoint runs; other fields are ignored. -/
def ofForm (path : String) (form : Form) : Option SignRequest :=
  if path = "/sign/" then do
    return .sign (← form.lookup "version") (← form.lookup "coin_pair") (← form.lookup "price") (← form.lookup "price_timestamp")
      (← form.lookup "oracle_addr") (← form.lookup "last_pub_block") (← form.lookup "signature")
  else if path = "/sign-price-v4/" then do
    return .signPriceV4 (← form.lookup "version") (← form.lookup "coin_pair") (← form.lookup "price")
      (← form.lookup "price_timestamp") (← form.lookup "oracle_addr") (← form.lookup "last_pub_block")
      (← form.lookup "expiration") (← form.lookup "signature")
  else if path = "/sign-task/" then do
    return .signTask (← form.lookup "version") (← form.lookup "coin_pair") (← form.lookup "tasks_flags")
      (← form.lookup "oracle_addr") (← form.lookup "last_pub_block") (← form.lookup "signature")
  else none

def signature : SignRequest → String
  | sign _ _ _ _ _ _ signature => signature
  | signPriceV4 _ _ _ _ _ _ _ signature => signature
  | signTask _ _ _ _ _ signature => signature

/-- The parameters the fields stand for. -/
def params (libraries : Libraries) : SignRequest → Except PyError PublishParams
  | sign version coinPair price priceTimestamp oracleAddr lastPubBlock _ => do
    let version ← Python.parseInt 10 version
    let coinPair ← CoinPair.make coinPair
    let price ← Python.parseInt 10 price
    let tsUtc ← libraries.float priceTimestamp
    let lastPubBlock ← Python.parseInt 10 lastPubBlock
    return .price (PublishPriceParams.make version coinPair ⟨price, tsUtc⟩ oracleAddr lastPubBlock none)
  | signPriceV4 version coinPair price priceTimestamp oracleAddr lastPubBlock expiration _ => do
    let version ← Python.parseInt 10 version
    let coinPair ← CoinPair.make coinPair
    let price ← Python.parseInt 10 price
    let tsUtc ← libraries.float priceTimestamp
    let lastPubBlock ← Python.parseInt 10 lastPubBlock
    let expiration ← Python.parseInt 10 expiration
    return .price (PublishPriceParams.make version coinPair ⟨price, tsUtc⟩ oracleAddr lastPubBlock (some expiration))
  | signTask version coinPair tasksFlags oracleAddr lastPubBlock _ => do
    let version ← Python.parseInt 10 version
    let coinPair ← CoinPair.make coinPair
    let tasksFlags ← Python.parseInt 10 tasksFlags
    let lastPubBlock ← Python.parseInt 10 lastPubBlock
    return .task { version, coinPair, tasksFlags, oracleAddr, lastPubBlock }

/-- The version gate of the two price endpoints. -/
def checkVersion : SignRequest → RequestM Unit
  | sign version .. => do
    refuseIf ((← ofPython (Python.parseInt 10 version)) ≠ legacyPriceMessageVersion) .legacyEndpointVersion
  | signPriceV4 version .. => do
    refuseIf ((← ofPython (Python.parseInt 10 version)) ≠ expiringPriceMessageVersion) .expiringEndpointVersion
  | signTask .. => return ()

end SignRequest

namespace Node

def getRunner (node : Node) (coinPair : CoinPair) : Option Runner := node.cpMap.lookup coinPair.cp

/-- The turn object of a price pair, after a request has used it. -/
def setTurn (node : Node) (coinPair : CoinPair) (turn : PriceOracleTurn) : Node :=
  { node with cpMap := node.cpMap.map fun (key, runner) =>
      match runner with
      | .coinPair runner => (key, .coinPair (if key = coinPair.cp then { runner with oracleTurn := turn } else runner))
      | .tasks runner => (key, .tasks runner) }

/-- `get_validation_data`, and `validate_and_sign` on what it returns. -/
def validateAndSign (node : Node) (libraries : Libraries) (params : PublishParams) (signature : String) :
    RequestM (String × Bytes) × Node :=
  match node.getRunner params.coinPair with
  | none => (refuse .missingCoinPair, node)
  | some (.tasks runner) => ((runner.createValidator params).validateAndSign libraries.eth node.account signature, node)
  | some (.coinPair runner) =>
    match runner.createValidator params with
    | .error err => (.error (.python err), node)
    | .ok validator =>
      let (result, turn) := validator.validateAndSign libraries.eth node.account node.now signature runner.oracleTurn
      (result, node.setTurn params.coinPair turn)

end Node

def respond (hexBytes : HexBytes) : RequestM (String × Bytes) → Response
  | .ok (message, signature) => .signed message (hexBytes.hex signature)
  | .error (.validation failure) => .failedDependency failure
  | .error (.python err) => .unprocessableEntity err

/-- One request to one of the endpoints, and the node after it. -/
def handle (libraries : Libraries) (node : Node) (request : SignRequest) : Response × Node :=
  match request.checkVersion >>= fun () => ofPython (request.params libraries) with
  | .error err => (respond libraries.eth.hexBytes (.error err), node)
  | .ok params =>
    let (result, node) := node.validateAndSign libraries params request.signature
    (respond libraries.eth.hexBytes result, node)

end OmocNode.App
