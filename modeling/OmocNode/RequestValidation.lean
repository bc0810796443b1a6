import OmocNode.Crypto
import OmocNode.OracleTurn
import OmocNode.PublishMessage

/-! The checks a node makes before it signs what another oracle asks it to sign. -/

namespace OmocNode

/-- Reasons not to sign, with the data their messages show. -/
inductive ValidationFailure
  | legacyEndpointVersion
  | expiringEndpointVersion
  | missingCoinPair
  | noBlockchainInfo
  | differentLastPubBlock (requested own : Int)
  | expirationVersion
  | expirationTooClose
  | expirationTooFar
  | noValidPrice (exchangePrice : Option PriceWithTimestamp)
  | invalidPrice (price : Int)
  | priceOutOfRange (delta : PyFloat) (rejectDeltaPct : ℚ) (price exchangePrice : Int)
  | noTasksAvailable
  | tasksFlagsMismatch (requested own : Int)
  | invalidTurn (oracleAddr : String) (verdict : TurnVerdict)
  | invalidSignature (oracleAddr : String)
  deriving DecidableEq

/-- The message, or the format the data is put into. -/
def ValidationFailure.message : ValidationFailure → String
  | legacyEndpointVersion => "Legacy price endpoint accepts only V3"
  | expiringEndpointVersion => "Expiring price endpoint accepts only V4"
  | missingCoinPair => "Missing coin pair"
  | noBlockchainInfo => "Still don't have a valid block chain info params %r block chain info %r"
  | differentLastPubBlock _ _ => "Different last publication blocks %r != %r"
  | expirationVersion => "Expiration is only valid for V4 price messages"
  | expirationTooClose => "Price signature expiration is too close or expired"
  | expirationTooFar => "Price signature expiration is too far in the future"
  | noValidPrice _ => "Still don't have a valid price %r"
  | invalidPrice _ => "Invalid publish price %r"
  | priceOutOfRange _ _ _ _ => "price out of range delta %r > %r and price %r exchange price %r"
  | noTasksAvailable => "No tasks available for signing"
  | tasksFlagsMismatch _ _ => "Tasks flags mismatch %r != %r"
  | invalidTurn _ _ => "is not oracle %s turn : %s"
  | invalidSignature _ => "oracle %s invalid signature"

/-- An exception of a request handler: a refusal, or any other. -/
inductive RequestError
  | validation (failure : ValidationFailure)
  | python (err : PyError)
  deriving DecidableEq

abbrev RequestM := Except RequestError

def RequestM.ofPython {α : Type} (result : Except PyError α) : RequestM α := result.mapError .python

def RequestM.refuse {α : Type} (failure : ValidationFailure) : RequestM α := .error (.validation failure)

def RequestM.refuseIf (condition : Prop) [Decidable condition] (failure : ValidationFailure) : RequestM Unit :=
  if condition then refuse failure else .ok ()

open RequestM

/-- `validate_signature`, the same in both validators. -/
def validateSignature (eth : EthAccount) (oracleAddr message signature : String) : RequestM Unit :=
  match eth.hexBytes.ofText signature with
  | .error _ => refuse (.invalidSignature oracleAddr)
  | .ok signatureBytes => do
    let verified ← ofPython (Crypto.verifySignature eth oracleAddr message signatureBytes)
    refuseIf (verified = false) (.invalidSignature oracleAddr)

/-- The end of `validate_and_sign`, the same in both validators. -/
def signValidated (eth : EthAccount) (account : BlockchainAccount) (oracleAddr signature : String)
    (prepared : Except PyError String) : RequestM (String × Bytes) := do
  let message ← ofPython prepared
  validateSignature eth oracleAddr message signature
  let own ← ofPython (Crypto.signMessage eth ("0x" ++ message) account)
  return (message, own)

structure PriceRequestValidation where
  oraclePriceRejectDeltaPct : ℚ
  params : PublishPriceParams
  turnConfiguration : OracleTurnConfiguration
  exchangePrice : Option PriceWithTimestamp
  blockchainInfo : Option OracleBlockchainInfo
  minExpirationValidity : Int
  maxExpirationValidity : Option Int

namespace PriceRequestValidation

def validateExpiration (v : PriceRequestValidation) (now : Int) : RequestM Unit :=
  match v.params.expiration with
  | none => .ok ()
  | some expiration => do
    refuseIf (v.params.version ≠ expiringPriceMessageVersion) .expirationVersion
    let remainingValidity := expiration - now
    refuseIf (remainingValidity < v.minExpirationValidity) .expirationTooClose
    refuseIf (∃ most ∈ v.maxExpirationValidity, remainingValidity > most) .expirationTooFar

def validatePrice (v : PriceRequestValidation) : RequestM Unit :=
  match v.exchangePrice with
  | none => refuse (.noValidPrice none)
  | some exchangePrice => do
    refuseIf (exchangePrice.price = 0 ∨ exchangePrice.tsUtc.nonpositive) (.noValidPrice (some exchangePrice))
    refuseIf (v.params.price = 0 ∨ v.params.priceTsUtc.nonpositive) (.invalidPrice v.params.price)
    let priceDelta ← ofPython (Helpers.priceDelta v.params.price exchangePrice.price)
    refuseIf (PyFloat.lt (.finite v.oraclePriceRejectDeltaPct) priceDelta)
      (.priceOutOfRange priceDelta v.oraclePriceRejectDeltaPct v.params.price exchangePrice.price)

def validateParams (v : PriceRequestValidation) (now : Int) : RequestM Unit :=
  match v.blockchainInfo with
  | none => refuse .noBlockchainInfo
  | some blockchainInfo => do
    refuseIf (v.params.lastPubBlock ≠ blockchainInfo.lastPubBlock)
      (.differentLastPubBlock v.params.lastPubBlock blockchainInfo.lastPubBlock)
    v.validateExpiration now
    v.validatePrice

/-- The turn keeps what the check records in it, whatever becomes of the request. -/
def validateTurn (v : PriceRequestValidation) (turn : PriceOracleTurn) : RequestM Unit × PriceOracleTurn :=
  match v.blockchainInfo with
  | none => (.error (.python (.attributeError "last_pub_block_hash")), turn)
  | some blockchainInfo =>
    match PriceOracleTurn.validateTurn v.turnConfiguration blockchainInfo v.params.oracleAddr v.exchangePrice turn with
    | .ok verdict turn => (refuseIf (verdict.isTurn = false) (.invalidTurn v.params.oracleAddr verdict), turn)
    | .error err turn => (.error (.python err), turn)

def validateAndSign (v : PriceRequestValidation) (eth : EthAccount) (account : BlockchainAccount) (now : Int)
    (signature : String) (turn : PriceOracleTurn) : RequestM (String × Bytes) × PriceOracleTurn :=
  match v.validateParams now with
  | .error err => (.error err, turn)
  | .ok () =>
    let (accepted, turn) := v.validateTurn turn
    (accepted >>= fun () => signValidated eth account v.params.oracleAddr signature v.params.prepareMsg, turn)

end PriceRequestValidation

structure TaskRequestValidation where
  params : PublishParams
  turnConfiguration : OracleTurnConfiguration
  areTasksAvailable : Bool
  lastBlockWhenAvailable : Option Int
  tasksFlags : Int
  blockchainInfo : Option OracleBlockchainInfo

namespace TaskRequestValidation

def validateParams (v : TaskRequestValidation) : RequestM Unit :=
  match v.blockchainInfo with
  | none => refuse .noBlockchainInfo
  | some blockchainInfo => do
    refuseIf (v.areTasksAvailable = false) .noTasksAvailable
    refuseIf (v.params.lastPubBlock ≠ blockchainInfo.lastPubBlock)
      (.differentLastPubBlock v.params.lastPubBlock blockchainInfo.lastPubBlock)
    let requested ← ofPython v.params.tasksFlags
    refuseIf (requested ≠ v.tasksFlags) (.tasksFlagsMismatch requested v.tasksFlags)

def validateTurn (v : TaskRequestValidation) : RequestM Unit :=
  match v.blockchainInfo with
  | none => .error (.python (.attributeError "last_pub_block_hash"))
  | some blockchainInfo => do
    let verdict ← ofPython (TasksOracleTurn.validateTurn v.turnConfiguration blockchainInfo v.params.oracleAddr
      v.areTasksAvailable v.lastBlockWhenAvailable)
    refuseIf (verdict.isTurn = false) (.invalidTurn v.params.oracleAddr verdict)

def validateAndSign (v : TaskRequestValidation) (eth : EthAccount) (account : BlockchainAccount) (signature : String) :
    RequestM (String × Bytes) := do
  v.validateParams
  v.validateTurn
  signValidated eth account v.params.oracleAddr signature v.params.prepareMsg

end TaskRequestValidation
end OmocNode
