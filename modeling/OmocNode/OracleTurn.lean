import OmocNode.ConditionalPublish
import OmocNode.Helpers
import OmocNode.SelectNext

/-! Who may publish at a given block. The first oracle of the selection order may
at once, the others as blocks pass since the publication became allowed. -/

namespace OmocNode

structure OracleTurnConfiguration where
  priceDeltaPct : ℚ
  pricePublishBlocks : Int
  enteringFallbacksAmounts : Bytes
  triggerValidPublicationBlocks : Int

/-- The outcome of a turn check, with the numbers its message shows. -/
inductive TurnVerdict
  | selectedChosen
  | selectedBeforeExpiry
  | selectedAfterPriceChange (blocksSincePriceChange pricePublishBlocks : Int)
  | selectedForTask (blocksSinceLastPub pricePublishBlocks : Int)
  | noExchangePrice
  | noTasksAvailable
  | notInCurrentRound
  | periodBelowTrigger (validPricePeriodInBlocks triggerValidPublicationBlocks : Int)
  | priceUnchanged
  | waiting (pricePublishBlocks blocks : Int)
  | notChosenFallback (blocks pricePublishBlocks : Int)
  deriving DecidableEq

def TurnVerdict.isTurn : TurnVerdict → Bool
  | selectedChosen | selectedBeforeExpiry | selectedAfterPriceChange .. | selectedForTask .. => true
  | noExchangePrice | noTasksAvailable | notInCurrentRound | periodBelowTrigger .. | priceUnchanged | waiting ..
  | notChosenFallback .. => false

namespace OracleTurn

def isSelectedOracle (oracleAddresses : List String) (oracleAddr : String) : Except PyError Bool :=
  match oracleAddresses with
  | [] => .error .indexError
  | first :: _ => .ok (first == oracleAddr)

/-- How many oracles of the order may publish, by blocks since the publication became allowed. -/
def getFallbackSequence (enteringFallbacksAmounts : Bytes) (selectedOraclesLen : Nat) : List Nat :=
  let sequence := 1 :: enteringFallbacksAmounts.map (·.toNat + 1)
  let last : Nat := sequence.getLast (List.cons_ne_nil _ _)
  if (last : Int) < (selectedOraclesLen : Int) - 1 then sequence ++ [selectedOraclesLen]
  else sequence

def canOraclePublish (blocksSincePubIsAllowed : Option Int) (oracleAddr : String) (oracleAddresses : List String)
    (enteringFallbackSequence : List Nat) (onlyChosen : Bool) : Except PyError Bool := do
  if ← isSelectedOracle oracleAddresses oracleAddr then return true
  let last : Int := enteringFallbackSequence.length - 1
  let index := match blocksSincePubIsAllowed with
    | none => last
    | some blocks => if blocks < enteringFallbackSequence.length then blocks else last
  let stop ← Python.getItem enteringFallbackSequence index
  let selectedFallbacks := (oracleAddresses.take stop).drop 1
  if !selectedFallbacks.contains oracleAddr then return false
  return !onlyChosen

def isOracleSelectedInRound (selectedOracles : List FullOracleRoundInfo) (oracleAddr : String) : Bool :=
  selectedOracles.length != 0 && selectedOracles.any (·.addr.text == oracleAddr) &&
    !selectedOracles.any fun x => x.addr.text == oracleAddr && !x.selectedInCurrentRound

end OracleTurn

structure PriceOracleTurn where
  coinPair : CoinPair
  signal : Signal
  priceChangeBlock : Int
  priceChangePubBlock : Int

namespace PriceOracleTurn
open OracleTurn SelectNext

/-- Computations on the turn object: an exception leaves the changes made before it. -/
abbrev TurnM := EStateM PyError PriceOracleTurn

def init (coinPair : CoinPair) (signal : Signal) : PriceOracleTurn := ⟨coinPair, signal, -1, -1⟩

def lift {α : Type} : Except PyError α → TurnM α
  | .ok value => pure value
  | .error failure => throw failure

def askSignal {α : Type} (question : Signal → α × Signal) : TurnM α :=
  modifyGet fun turn => ((question turn.signal).1, { turn with signal := (question turn.signal).2 })

/-- Blocks since the first price change of the current publication, recording one that is seen now. -/
def priceChangedBlocks (conf : OracleTurnConfiguration) (blockChainInfo : OracleBlockchainInfo)
    (exchangePrice : PriceWithTimestamp) : TurnM (Option Int) := do
  let turn ← get
  if blockChainInfo.lastPubBlock < 0 ∨ blockChainInfo.blockNum < 0 then
    throw (.exception (turn.coinPair.cp ++ " : Invalid block number"))
  if turn.priceChangePubBlock = blockChainInfo.lastPubBlock ∧ turn.priceChangeBlock ≥ 0 then
    return some (blockChainInfo.blockNum - turn.priceChangeBlock)
  let delta ← lift (Helpers.priceDelta blockChainInfo.blockchainPrice exchangePrice.price)
  let thresholdDelta ← askSignal (Signal.getPriceDelta conf.priceDeltaPct)
  if delta.lt (.finite thresholdDelta) then return none
  modify fun turn =>
    { turn with priceChangePubBlock := blockChainInfo.lastPubBlock, priceChangeBlock := blockChainInfo.blockNum }
  return some 0

/-- The end of the check, for an oracle that may not publish before the price expires. -/
def turnAfterPriceChange (conf : OracleTurnConfiguration) (oracleAddr : String) (oracleAddresses : List String)
    (enteringFallbackSequence : List Nat) (blocksSincePriceChange : Option Int) (onlyChosen : Bool) :
    Except PyError TurnVerdict :=
  match blocksSincePriceChange with
  | none => .ok .priceUnchanged
  | some blocks => do
    if blocks < conf.pricePublishBlocks then return .waiting conf.pricePublishBlocks blocks
    let canIPublish ← canOraclePublish (some (blocks - conf.pricePublishBlocks)) oracleAddr oracleAddresses
      enteringFallbackSequence onlyChosen
    if canIPublish then return .selectedAfterPriceChange blocks conf.pricePublishBlocks
    return .notChosenFallback blocks conf.pricePublishBlocks

def isOracleTurnWithMsg (conf : OracleTurnConfiguration) (vi : OracleBlockchainInfo) (oracleAddr : String)
    (oracleAddresses : List String) (exchangePrice : Option PriceWithTimestamp) (onlyChosen : Bool) : TurnM TurnVerdict := do
  match exchangePrice with
  | none => return .noExchangePrice
  | some exchangePrice =>
    if !isOracleSelectedInRound vi.selectedOracles oracleAddr then return .notInCurrentRound
    let enteringFallbackSequence := getFallbackSequence conf.enteringFallbacksAmounts vi.selectedOracles.length
    if vi.validPricePeriodInBlocks < conf.triggerValidPublicationBlocks then
      return .periodBelowTrigger vi.validPricePeriodInBlocks conf.triggerValidPublicationBlocks
    let blocksSincePriceChange ← priceChangedBlocks conf vi exchangePrice
    let period ← askSignal (Signal.getValidPricePeriod vi.validPricePeriodInBlocks)
    let signal := (← get).signal
    -- A switch of the signal inside the window moves its start forward.
    let start := max (max (vi.lastPubBlock - conf.triggerValidPublicationBlocks + period) signal.lastOnlineBlock)
      signal.lastOfflineBlock
    -- The log line before the window check asks the signal once more.
    let _ ← askSignal (Signal.getValidPricePeriod vi.validPricePeriodInBlocks)
    if vi.blockNum ≥ start then
      let canIPublish ← lift
        (canOraclePublish (some (vi.blockNum - start)) oracleAddr oracleAddresses enteringFallbackSequence onlyChosen)
      if canIPublish then return .selectedBeforeExpiry
    lift (turnAfterPriceChange conf oracleAddr oracleAddresses enteringFallbackSequence blocksSincePriceChange onlyChosen)

/-- Asked by a signer about the oracle that requests a signature. -/
def validateTurn (conf : OracleTurnConfiguration) (vi : OracleBlockchainInfo) (oracleAddr : String)
    (exchangePrice : Option PriceWithTimestamp) : TurnM TurnVerdict := do
  let oracleAddresses ← lift (selectNextAddresses vi.lastPubBlockHash vi.selectedOracles)
  if ← lift (isSelectedOracle oracleAddresses oracleAddr) then return .selectedChosen
  isOracleTurnWithMsg conf vi oracleAddr oracleAddresses exchangePrice false

/-- Asked by a publisher about itself. -/
def isOracleTurn (disableFallbacks : Bool) (conf : OracleTurnConfiguration) (vi : OracleBlockchainInfo)
    (oracleAddr : String) (exchangePrice : Option PriceWithTimestamp) : TurnM (Bool × List String) := do
  let oracleAddresses ← lift (selectNextAddresses vi.lastPubBlockHash vi.selectedOracles)
  let verdict ← isOracleTurnWithMsg conf vi oracleAddr oracleAddresses exchangePrice disableFallbacks
  return (verdict.isTurn, oracleAddresses)

end PriceOracleTurn

namespace TasksOracleTurn
open OracleTurn SelectNext

def isOracleTurnWithMsg (conf : OracleTurnConfiguration) (vi : OracleBlockchainInfo) (oracleAddr : String)
    (oracleAddresses : List String) (areTasksAvailable : Bool) (lastBlockWhenAvailable : Option Int) (onlyChosen : Bool) :
    Except PyError TurnVerdict :=
  if !areTasksAvailable then .ok .noTasksAvailable
  else if !isOracleSelectedInRound vi.selectedOracles oracleAddr then .ok .notInCurrentRound
  else
    let enteringFallbackSequence := getFallbackSequence conf.enteringFallbacksAmounts vi.selectedOracles.length
    match lastBlockWhenAvailable with
    | none => .error .typeError
    | some since => do
      let blocksSinceLastPub := vi.blockNum - since
      if blocksSinceLastPub < conf.pricePublishBlocks then return .waiting conf.pricePublishBlocks blocksSinceLastPub
      let canIPublish ← canOraclePublish (some (blocksSinceLastPub - conf.pricePublishBlocks)) oracleAddr oracleAddresses
        enteringFallbackSequence onlyChosen
      if canIPublish then return .selectedForTask blocksSinceLastPub conf.pricePublishBlocks
      return .notChosenFallback blocksSinceLastPub conf.pricePublishBlocks

def validateTurn (conf : OracleTurnConfiguration) (vi : OracleBlockchainInfo) (oracleAddr : String)
    (areTasksAvailable : Bool) (lastBlockWhenAvailable : Option Int) : Except PyError TurnVerdict := do
  let oracleAddresses ← selectNextAddresses vi.lastPubBlockHash vi.selectedOracles
  if ← isSelectedOracle oracleAddresses oracleAddr then return .selectedChosen
  isOracleTurnWithMsg conf vi oracleAddr oracleAddresses areTasksAvailable lastBlockWhenAvailable false

def isOracleTurn (disableFallbacks : Bool) (conf : OracleTurnConfiguration) (vi : OracleBlockchainInfo)
    (oracleAddr : String) (areTasksAvailable : Bool) (lastBlockWhenAvailable : Option Int) :
    Except PyError (Bool × List String) := do
  let oracleAddresses ← selectNextAddresses vi.lastPubBlockHash vi.selectedOracles
  let verdict ← isOracleTurnWithMsg conf vi oracleAddr oracleAddresses areTasksAvailable lastBlockWhenAvailable
    disableFallbacks
  return (verdict.isTurn, oracleAddresses)

end TasksOracleTurn
end OmocNode
