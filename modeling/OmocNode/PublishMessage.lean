import OmocNode.Crypto
import OmocNode.Helpers

/-! The parameters of a publication, and the messages that oracles sign for it. -/

namespace OmocNode

def legacyPriceMessageVersion : Int := 3
def expiringPriceMessageVersion : Int := 4

/-- The five parameters that every message starts with, `value` being a price or task flags. -/
def encodeParameters (version : Int) (coinPair : CoinPair) (value : Int) (oracleAddr : String) (lastPubBlock : Int) :
    Except PyError (List Char) := do
  let coinPair ← coinPair.longer
  let oracle ← Helpers.addrToNumber oracleAddr
  return Helpers.encUint256 version ++ Helpers.encByte32 coinPair ++ Helpers.encUint256 value ++
    Helpers.encPackedAddress oracle ++ Helpers.encUint256 lastPubBlock

/-- The fields of a form that is posted, with their names. -/
abbrev Form := List (String × String)

structure PublishPriceParams where
  version : Int
  coinPair : CoinPair
  price : Int
  priceTsUtc : PyFloat
  oracleAddr : String
  lastPubBlock : Int
  expiration : Option Int
  deriving DecidableEq

namespace PublishPriceParams

def make (version : Int) (coinPair : CoinPair) (price : PriceWithTimestamp) (oracleAddr : String) (lastPubBlock : Int)
    (expiration : Option Int) : PublishPriceParams :=
  { version, coinPair, price := price.price, priceTsUtc := price.tsUtc, oracleAddr, lastPubBlock, expiration }

def prepareMsg (params : PublishPriceParams) : Except PyError String := do
  let message ← encodeParameters params.version params.coinPair params.price params.oracleAddr params.lastPubBlock
  match params.expiration with
  | some expiration => return String.ofList (message ++ Helpers.encUint256 expiration)
  | none => return String.ofList message

def getPost (params : PublishPriceParams) : String :=
  if params.expiration.isSome then "/sign-price-v4/" else "/sign/"

/-- `strFloat` is `str` on a double. -/
def toPostData (hexBytes : HexBytes) (strFloat : PyFloat → String) (params : PublishPriceParams) (mySignature : Bytes) :
    Except PyError Form := do
  let version ← Python.str params.version
  let price ← Python.str params.price
  let lastPubBlock ← Python.str params.lastPubBlock
  let postData := [("version", version), ("coin_pair", params.coinPair.cp), ("price", price),
    ("price_timestamp", strFloat params.priceTsUtc), ("oracle_addr", params.oracleAddr), ("last_pub_block", lastPubBlock),
    ("signature", hexBytes.hex mySignature)]
  match params.expiration with
  | some expiration => return postData ++ [("expiration", ← Python.str expiration)]
  | none => return postData

def asLegacy (params : PublishPriceParams) : PublishPriceParams :=
  make legacyPriceMessageVersion params.coinPair ⟨params.price, params.priceTsUtc⟩ params.oracleAddr params.lastPubBlock none

end PublishPriceParams

structure PublishTaskParams where
  version : Int
  coinPair : CoinPair
  tasksFlags : Int
  oracleAddr : String
  lastPubBlock : Int
  deriving DecidableEq

namespace PublishTaskParams

def prepareMsg (params : PublishTaskParams) : Except PyError String :=
  (encodeParameters params.version params.coinPair params.tasksFlags params.oracleAddr params.lastPubBlock).map String.ofList

def getPost (_ : PublishTaskParams) : String := "/sign-task/"

def toPostData (hexBytes : HexBytes) (params : PublishTaskParams) (mySignature : Bytes) : Except PyError Form := do
  let version ← Python.str params.version
  let tasksFlags ← Python.str params.tasksFlags
  let lastPubBlock ← Python.str params.lastPubBlock
  return [("version", version), ("coin_pair", params.coinPair.cp), ("tasks_flags", tasksFlags),
    ("oracle_addr", params.oracleAddr), ("last_pub_block", lastPubBlock), ("signature", hexBytes.hex mySignature)]

end PublishTaskParams

/-- Where the source takes parameters of either kind, it reads attributes that
only one of them has. -/
inductive PublishParams
  | price (params : PublishPriceParams)
  | task (params : PublishTaskParams)

namespace PublishParams

def coinPair : PublishParams → CoinPair
  | price params => params.coinPair
  | task params => params.coinPair

def oracleAddr : PublishParams → String
  | price params => params.oracleAddr
  | task params => params.oracleAddr

def lastPubBlock : PublishParams → Int
  | price params => params.lastPubBlock
  | task params => params.lastPubBlock

def tasksFlags : PublishParams → Except PyError Int
  | price _ => .error (.attributeError "tasks_flags")
  | task params => .ok params.tasksFlags

def prepareMsg : PublishParams → Except PyError String
  | price params => params.prepareMsg
  | task params => params.prepareMsg

def getPost : PublishParams → String
  | price params => params.getPost
  | task params => params.getPost

def toPostData (hexBytes : HexBytes) (strFloat : PyFloat → String) : PublishParams → (mySignature : Bytes) → Except PyError Form
  | price params => params.toPostData hexBytes strFloat
  | task params => params.toPostData hexBytes

end PublishParams
end OmocNode
