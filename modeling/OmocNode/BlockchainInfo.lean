import OmocNode.OracleDao

/-! How the node reads the state of a coin pair: one call to the InfoGetter
contract where there is one, otherwise several calls whose answers it puts
together. The contracts do not change while it reads. -/

namespace OmocNode.BlockchainInfo

/-- `exec_with_catch_async` returns this value where the call it wraps raises. -/
structure BCError where
  error : String
  deriving DecidableEq

abbrev Reply (α : Type) := Except BCError α

structure SelectedOracle where
  stake : Nat
  points : Nat
  addr : Address
  owner : Address
  name : String
  deriving DecidableEq

/-- What `getOracleServerInfo` returns. -/
structure OracleServerInfo where
  round : Nat
  startBlock : Nat
  lockPeriodTimestamp : Nat
  totalPoints : Nat
  info : List SelectedOracle
  price : Nat
  currentBlock : Nat
  lastPubBlock : Nat
  lastPubBlockHash : Bytes
  validPricePeriodInBlocks : Nat
  deriving DecidableEq

/-- The answer of each call the node makes about one coin pair. -/
structure Chain where
  getRoundInfo : Reply RoundInfo
  getPrice : Reply Nat
  getLastPublicationBlock : Reply Nat
  getValidPricePeriodInBlocks : Reply Nat
  getOracleRoundInfo : Address → Reply (Nat × Bool)
  getOracleRegistrationInfo : Address → Reply (String × Nat × Address)
  getBlock : Nat → Reply Bytes
  getOracleServerInfo : Reply OracleServerInfo

/-- The hash stays `none` where the block could not be read: the error value has
a field `hash` too, and it is `None`. -/
abbrev ReadInfo := BlockchainInfoOf (Option Bytes)

namespace Chain

def oracleRegistrationInfo (chain : Chain) (address : Address) : Reply OracleRegistrationInfo :=
  (chain.getOracleRegistrationInfo address).map fun (internetName, stake, owner) =>
    { addr := address, internetName, stake, owner }

/-- A round that cannot be read is an error without a field `round`. It is looked
up only if the first call answered. -/
def roundInfoOf (chain : Chain) (address : Address) : Except PyError (Reply OracleRoundInfo) :=
  match chain.getOracleRoundInfo address, chain.getRoundInfo with
  | .error err, _ => .ok (.error err)
  | .ok _, .error _ => .error (.attributeError "round")
  | .ok (points, selectedInCurrentRound), .ok roundInfo =>
    .ok (.ok { points, selectedInCurrentRound, selectedInRound := roundInfo.round })

def oracleRoundInfo (chain : Chain) (address : Address) : Except PyError (Reply FullOracleRoundInfo) :=
  match chain.oracleRegistrationInfo address with
  | .error err => .ok (.error err)
  | .ok registration =>
    (chain.roundInfoOf address).map fun reply => reply.map fun round =>
      { addr := registration.addr, internetName := registration.internetName, stake := registration.stake
        owner := registration.owner, points := round.points
        selectedInCurrentRound := round.selectedInCurrentRound, selectedInRound := round.selectedInRound }

/-- The loop over `selectedOracles`, which the first error value ends. -/
def oraclesInfo (chain : Chain) : List Address → Except PyError (Reply (List FullOracleRoundInfo))
  | [] => .ok (.ok [])
  | addr :: addresses => do
    match ← chain.oracleRoundInfo addr with
    | .error err => return .error err
    | .ok info => return (← chain.oraclesInfo addresses).map (info :: ·)

def selectedOraclesInfo (chain : Chain) : Except PyError (Reply (List FullOracleRoundInfo)) :=
  match chain.getRoundInfo with
  | .error err => .ok (.error err)
  | .ok roundInfo => chain.oraclesInfo roundInfo.selectedOracles

def lastPubBlockHash (chain : Chain) (lastPubBlock : Nat) : Option Bytes := (chain.getBlock lastPubBlock).toOption

/-- `get_oracle_server_info`. A hash of zeros is the contract's way to say that
it does not know the block's hash. -/
def oracleServerInfo (chain : Chain) (coinPair : CoinPair) : Reply ReadInfo := do
  let data ← chain.getOracleServerInfo
  return { coinPair
           selectedOracles := data.info.map fun so =>
             { addr := so.addr, internetName := so.name, stake := so.stake, owner := so.owner, points := so.points
               selectedInCurrentRound := true, selectedInRound := data.round }
           blockchainPrice := data.price
           blockNum := data.currentBlock
           lastPubBlock := data.lastPubBlock
           lastPubBlockHash :=
             if data.lastPubBlockHash.all (· == 0) then chain.lastPubBlockHash data.lastPubBlock
             else some data.lastPubBlockHash
           validPricePeriodInBlocks := data.validPricePeriodInBlocks }

end Chain

def getBlockingOneBigRequest (chain : Chain) (coinPair : CoinPair) : Option ReadInfo :=
  (chain.oracleServerInfo coinPair).toOption

/-- The answers are gathered; one error value or exception among them drops them
all. The publication block is asked for twice, for `block_num` and for the pair
of block and hash. -/
def getBlockingParallelRequests (chain : Chain) (coinPair : CoinPair) : Option ReadInfo :=
  match chain.selectedOraclesInfo, chain.getPrice, chain.getLastPublicationBlock, chain.getValidPricePeriodInBlocks with
  | .ok (.ok selectedOracles), .ok blockchainPrice, .ok lastPubBlock, .ok validPricePeriodInBlocks =>
    let blockNum := lastPubBlock
    some { coinPair, selectedOracles, blockchainPrice, blockNum, lastPubBlock
           lastPubBlockHash := chain.lastPubBlockHash lastPubBlock, validPricePeriodInBlocks }
  | _, _, _, _ => none

end OmocNode.BlockchainInfo
