import OmocNode.OracleDao

/-! Signatures over messages. The elliptic curve itself belongs to a library. -/

namespace OmocNode

/-- The conversions of the hexbytes package. -/
structure HexBytes where
  ofText : String → Except PyError Bytes
  hex : Bytes → String

/-- The text of bytes stands for the bytes. -/
def HexBytes.RoundTrips (hexBytes : HexBytes) : Prop := ∀ bytes, hexBytes.ofText (hexBytes.hex bytes) = .ok bytes

structure BlockchainAccount where
  addr : Address
  key : String

/-- The calls into eth_account, which depend on their arguments only, and what it takes bytes for. -/
structure EthAccount where
  hexBytes : HexBytes
  signMessage : (hexstr : String) → (key : String) → Except PyError Bytes
  recoverMessage : (hexstr : String) → (signature : Bytes) → Except PyError String

namespace Crypto

def contractSignatureVValues : List UInt8 := [0, 1, 27, 28]

def signMessage (eth : EthAccount) (hexstr : String) (account : BlockchainAccount) : Except PyError Bytes :=
  eth.signMessage hexstr account.key

def recover (eth : EthAccount) (message : String) (signature : Bytes) : Except PyError String :=
  if signature.length ≠ 65 then .error .valueError
  else if signature.getD 64 0 ∉ contractSignatureVValues then .error .valueError
  else eth.recoverMessage message signature

def verifySignature (eth : EthAccount) (address message : String) (signature : Bytes) : Except PyError Bool :=
  match recover eth message signature with
  | .ok recovered => .ok (address == recovered)
  | .error .typeError | .error .valueError => .ok false
  | .error err => .error err

end Crypto
end OmocNode
