import Mathlib.Data.List.Sort
import OmocNode.CoinPairService
import OmocNode.Runners

/-! How an oracle publishes: it signs, asks the other oracles to sign the same
message, and sends the signatures to the contract once it has a majority. -/

namespace OmocNode.CoinPairLoop

structure OracleSignature where
  addr : String
  signature : Bytes
  deriving DecidableEq

/-- How a request to a peer ends. `body` is what the text of the answer is as JSON, if it is. -/
inductive Reply
  | invalidUrl
  | connectionError
  | timeout
  | exception
  | response (status : Nat) (body : Option Json)

/-- The results of a peer other than `None`. -/
inductive PeerResult
  | unsupportedEndpoint
  | signature (signature : OracleSignature)

/-- The peers' answers, by the path that is posted to. -/
abbrev Network := FullOracleRoundInfo → String → Reply

/-- The form of a message for peers that only know the old one. -/
structure LegacyForm where
  params : PublishPriceParams
  message : String
  signature : Bytes

def getSignatureOnce (eth : EthAccount) (oracle : FullOracleRoundInfo) (message : String) : Reply → Option PeerResult
  | .invalidUrl | .connectionError | .timeout | .exception => none
  | .response status body =>
    if status = 404 ∨ status = 405 then some .unsupportedEndpoint
    else if status ≠ 200 then none
    else match body with
      | some (.object fields) =>
        match Json.get fields "signature" with
        | .string value =>
          match eth.hexBytes.ofText value with
          | .ok signature =>
            match Crypto.verifySignature eth oracle.addr.text message signature with
            | .ok true => some (.signature ⟨oracle.addr.text, signature⟩)
            | _ => none
          | .error _ => none
        | _ => none
      | _ => none

/-- An endpoint that a peer lacks is answered by a second request, in the old form. -/
def getSignature (eth : EthAccount) (network : Network) (params : PublishParams) (message : String)
    (legacy : Option LegacyForm) (oracle : FullOracleRoundInfo) : Option PeerResult :=
  match getSignatureOnce eth oracle message (network oracle params.getPost) with
  | some .unsupportedEndpoint =>
    match legacy with
    | none => none
    | some legacy => getSignatureOnce eth oracle legacy.message (network oracle legacy.params.getPost)
  | result => result

def peers (oracles : List FullOracleRoundInfo) (oracleAddr : String) : List FullOracleRoundInfo :=
  oracles.filter fun oracle => oracle.addr.text != oracleAddr

/-- The loop over the results in the order they complete. When none is left and
a peer is still missing, the wait for it times out. -/
def collect {α : Type} (needed missing : Nat) : List (Option α) → List α → Except PyError (List α)
  | [], sigs => if missing = 0 then .ok sigs else .error .timeoutError
  | sig :: rest, sigs =>
    let sigs := sigs ++ sig.toList
    if sigs.length ≥ needed then .ok sigs else collect needed missing rest sigs

/-- `int(y.addr, 16)`, the key the signatures are sorted by. -/
def sortKey : PeerResult → Except PyError (Int × OracleSignature)
  | .unsupportedEndpoint => .error (.attributeError "addr")
  | .signature signature => (Python.parseInt 16 signature.addr).map fun key => (key, signature)

/-- `sorted` computes every key first, and keeps the order of equal ones. -/
def sortedSignatures (sigs : List PeerResult) : Except PyError (List OracleSignature) :=
  (sigs.mapM sortKey).map fun keyed => (keyed.insertionSort fun x y => x.1 ≤ y.1).map (·.2)

/-- `completed` lists the peers whose result came within the timeout, in that order. -/
def gatherSigned (eth : EthAccount) (network : Network) (completed oracles : List FullOracleRoundInfo) (params : PublishParams)
    (message : String) (mySignature : Bytes) (legacy : Option LegacyForm) : Except PyError (List OracleSignature) := do
  let missing := (peers oracles params.oracleAddr).length - completed.length
  let sigs ← collect (oracles.length / 2) missing (completed.map (getSignature eth network params message legacy)) []
  sortedSignatures (sigs ++ [.signature ⟨params.oracleAddr, mySignature⟩])

def gatherSignatures (eth : EthAccount) (network : Network) (completed oracles : List FullOracleRoundInfo)
    (params : PublishParams) (message : String) (mySignature : Bytes) (legacy : Option LegacyForm) : Except PyError (List Bytes) :=
  (gatherSigned eth network completed oracles params message mySignature legacy).map (List.map (·.signature))

inductive Publication
  | notEnoughSignatures (got oracles : Nat)
  | tooCloseToExpiration
  | failed (err : PyError)
  | transaction (call : CoinPairService.ContractCall)
  deriving DecidableEq

/-- The parameters of a price that expires. -/
def expiringPrice : PublishParams → Option (PublishPriceParams × Int)
  | .price params => params.expiration.map fun expiration => (params, expiration)
  | .task _ => none

def signLegacy (eth : EthAccount) (account : BlockchainAccount) (params : PublishParams) : Except PyError (Option LegacyForm) :=
  match expiringPrice params with
  | none => .ok none
  | some (price, _) => do
    let message ← price.asLegacy.prepareMsg
    let signature ← Crypto.signMessage eth ("0x" ++ message) account
    return some { params := price.asLegacy, message, signature }

/-- `publish` up to the contract call. `debug` makes it recover the signers once more, for the log. -/
def publish (eth : EthAccount) (account : BlockchainAccount) (conf : OracleConfiguration) (debug : Bool) (network : Network)
    (completed : List FullOracleRoundInfo) (now : Int) (oracles : List FullOracleRoundInfo) (params : PublishParams) :
    Except PyError Publication := do
  let message ← params.prepareMsg
  let signature ← Crypto.signMessage eth ("0x" ++ message) account
  let legacy ← signLegacy eth account params
  let sigs ← gatherSignatures eth network completed oracles params message signature legacy
  if sigs.length < oracles.length / 2 + 1 then return .notEnoughSignatures sigs.length oracles.length
  if ∃ price ∈ expiringPrice params, price.2 - now < conf.priceSignatureMinValiditySeconds then return .tooCloseToExpiration
  let _ ← if debug && legacy.isNone then sigs.mapM (Crypto.recover eth message) else .ok []
  match CoinPairService.publish params sigs with
  | .ok call => return .transaction call
  | .error err => return .failed err

end OmocNode.CoinPairLoop
