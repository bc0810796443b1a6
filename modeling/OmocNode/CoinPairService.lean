import OmocNode.PublishMessage

/-! The call that publishes on a coin pair's contract. The contract takes the
signatures in three arrays. -/

namespace OmocNode.CoinPairService

structure ContractCall where
  method : String
  version : Int
  coinPair : Bytes
  value : Int
  oracleAddr : String
  lastPubBlock : Int
  expiration : Option Int
  v : List Nat
  r : List Bytes
  s : List Bytes
  deriving DecidableEq

/-- `int.from_bytes(bytes, "little")`. -/
def fromBytesLittle (bytes : Bytes) : Nat := bytes.foldr (fun byte value => byte.toNat + 256 * value) 0

def publishCall (params : PublishParams) (v : List Nat) (r s : List Bytes) : Except PyError ContractCall := do
  let coinPair ← params.coinPair.longer
  match params with
  | .price price =>
    return { method := if price.expiration.isSome then "publishPriceWithExpiration" else "publishPrice"
             version := price.version, coinPair, value := price.price, oracleAddr := price.oracleAddr
             lastPubBlock := price.lastPubBlock, expiration := price.expiration, v, r, s }
  | .task task =>
    return { method := "runTasks", version := task.version, coinPair, value := task.tasksFlags, oracleAddr := task.oracleAddr
             lastPubBlock := task.lastPubBlock, expiration := none, v, r, s }

def publish (params : PublishParams) (signatures : List Bytes) : Except PyError ContractCall :=
  publishCall params (signatures.map fun signature => fromBytesLittle (signature.drop 64))
    (signatures.map fun signature => signature.take 32) (signatures.map fun signature => (signature.take 64).drop 32)

end OmocNode.CoinPairService
