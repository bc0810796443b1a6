import OmocNode.Proofs.FallbackSequence
import OmocNode.Proofs.PriceDistance
import OmocNode.Proofs.Selection
import OmocNode.Proofs.StateSwitches

/-! What one evaluation of the price turn answers and records. A turn is granted
in one of two windows: before the price expires, or after it changed. -/

namespace OmocNode.Proofs.TurnWindows
open OracleTurn PriceOracleTurn SelectNext FallbackSequence StateSwitches StateFrame PriceDistance

section Signal

def settledSignal : Signal → Signal
  | .disabled => .disabled
  | .enabled service => .enabled (settled service)

/-- The price delta that counts as a change. -/
def deltaInForce (default : ℚ) : Signal → ℚ
  | .disabled => default
  | .enabled service =>
    let x := if unneeded service then service.cfg.priceDeltaPctUnneed else service.cfg.priceDeltaPctNeed
    if x = ConditionalConfig.defaultDecimal then default else x

/-- The validity period that counts, which may be other than the contract's. -/
def periodInForce (default : Int) : Signal → Int
  | .disabled => default
  | .enabled service =>
    let x := if unneeded service then service.cfg.oraclePricePublishBlocksUnneed else service.cfg.oraclePricePublishBlocksNeed
    if x = ConditionalConfig.defaultDecimal then default else x

theorem getPriceDelta_eq (default : ℚ) (signal : Signal) :
    signal.getPriceDelta default = (deltaInForce default signal, settledSignal signal) := by
  cases signal with
  | disabled => rfl
  | enabled service =>
    simp only [Signal.getPriceDelta, ConditionalPublishService.getPriceDelta, offlineCfg_eq, deltaInForce, settledSignal]
    rfl

theorem getValidPricePeriod_eq (default : Int) (signal : Signal) :
    signal.getValidPricePeriod default = (periodInForce default signal, settledSignal signal) := by
  cases signal with
  | disabled => rfl
  | enabled service =>
    simp only [Signal.getValidPricePeriod, ConditionalPublishService.getValidPricePeriod, offlineCfg_eq, periodInForce,
      settledSignal]
    rfl

@[simp] theorem settledSignal_settledSignal (signal : Signal) : settledSignal (settledSignal signal) = settledSignal signal := by
  cases signal <;> simp [settledSignal]

@[simp] theorem periodInForce_settledSignal (default : Int) (signal : Signal) :
    periodInForce default (settledSignal signal) = periodInForce default signal := by
  cases signal <;> rfl

end Signal

@[simp] theorem run_askSignal {α : Type} (question : Signal → α × Signal) (turn : PriceOracleTurn) :
    askSignal question turn = .ok (question turn.signal).1 { turn with signal := (question turn.signal).2 } := rfl

@[simp] theorem run_lift_ok {α : Type} (value : α) (turn : PriceOracleTurn) : lift (.ok value) turn = .ok value turn := rfl

@[simp] theorem run_lift_error {α : Type} (failure : PyError) (turn : PriceOracleTurn) :
    (lift (.error failure) : TurnM α) turn = .error failure turn := rfl

def settledTurn (turn : PriceOracleTurn) : PriceOracleTurn := { turn with signal := settledSignal turn.signal }

/-- The answer and the records of the price check, once the price delta is known. -/
def observed (conf : OracleTurnConfiguration) (vi : OracleBlockchainInfo) (delta : PyFloat) (turn : PriceOracleTurn) :
    Option Int × PriceOracleTurn :=
  if turn.priceChangePubBlock = vi.lastPubBlock ∧ turn.priceChangeBlock ≥ 0 then
    (some (vi.blockNum - turn.priceChangeBlock), turn)
  else if delta.lt (.finite (deltaInForce conf.priceDeltaPct turn.signal)) then (none, settledTurn turn)
  else (some 0, { settledTurn turn with priceChangePubBlock := vi.lastPubBlock, priceChangeBlock := vi.blockNum })

theorem priceChangedBlocks_eq (conf : OracleTurnConfiguration) {vi : OracleBlockchainInfo} {price : PriceWithTimestamp}
    {delta : PyFloat} (publication : 0 ≤ vi.lastPubBlock) (block : 0 ≤ vi.blockNum)
    (priced : Helpers.priceDelta vi.blockchainPrice price.price = .ok delta) (turn : PriceOracleTurn) :
    priceChangedBlocks conf vi price turn = .ok (observed conf vi delta turn).1 (observed conf vi delta turn).2 := by
  have valid : ¬(vi.lastPubBlock < 0 ∨ vi.blockNum < 0) := by omega
  simp only [priceChangedBlocks, run_bind, run_get, valid, if_false, run_pure, run_ite, priced, run_lift_ok, run_askSignal,
    getPriceDelta_eq, run_modify, observed, settledTurn]
  split
  · rfl
  · split <;> rfl

/-- What a price check that returns has established: blocks are counted from the recorded change. -/
structure Checked (vi : OracleBlockchainInfo) (price : PriceWithTimestamp) (turn : PriceOracleTurn) (blocks : Option Int)
    (after : PriceOracleTurn) : Prop where
  publication : 0 ≤ vi.lastPubBlock
  block : 0 ≤ vi.blockNum
  signal : after.signal = turn.signal ∨ after.signal = settledSignal turn.signal
  source : turn.priceChangePubBlock = vi.lastPubBlock ∧ 0 ≤ turn.priceChangeBlock ∧ after = turn ∨
    ∃ delta, Helpers.priceDelta vi.blockchainPrice price.price = .ok delta
  recorded : ∀ count, blocks = some count →
    after.priceChangePubBlock = vi.lastPubBlock ∧ 0 ≤ after.priceChangeBlock ∧ count = vi.blockNum - after.priceChangeBlock

theorem checked_of_ok {conf : OracleTurnConfiguration} {vi : OracleBlockchainInfo} {price : PriceWithTimestamp}
    {turn after : PriceOracleTurn} {blocks : Option Int} (ok : priceChangedBlocks conf vi price turn = .ok blocks after) :
    Checked vi price turn blocks after := by
  by_cases invalid : vi.lastPubBlock < 0 ∨ vi.blockNum < 0
  · simp only [priceChangedBlocks, run_bind, run_get, invalid, if_true, run_throw] at ok
    cases ok
  obtain ⟨publication, block⟩ : 0 ≤ vi.lastPubBlock ∧ 0 ≤ vi.blockNum := by omega
  by_cases latched : turn.priceChangePubBlock = vi.lastPubBlock ∧ turn.priceChangeBlock ≥ 0
  · simp only [priceChangedBlocks, run_bind, run_get, invalid, if_false, run_pure, run_ite, latched] at ok
    obtain ⟨rfl, rfl⟩ := EStateM.Result.ok.inj ok
    exact ⟨publication, block, .inl rfl, .inl ⟨latched.1, latched.2, rfl⟩,
      fun count same => ⟨latched.1, latched.2, (Option.some.inj same).symm⟩⟩
  cases priced : Helpers.priceDelta vi.blockchainPrice price.price with
  | error failure =>
    simp only [priceChangedBlocks, run_bind, run_get, invalid, if_false, run_pure, run_ite, latched, priced,
      run_lift_error] at ok
    cases ok
  | ok delta =>
    rw [priceChangedBlocks_eq conf publication block priced, observed, if_neg latched] at ok
    split at ok
    · obtain ⟨rfl, rfl⟩ := EStateM.Result.ok.inj ok
      exact ⟨publication, block, .inr rfl, .inr ⟨delta, priced⟩, fun count none => by cases none⟩
    · obtain ⟨rfl, rfl⟩ := EStateM.Result.ok.inj ok
      refine ⟨publication, block, .inr rfl, .inr ⟨delta, priced⟩, fun count same => ⟨rfl, block, ?_⟩⟩
      rw [← Option.some.inj same]
      simp

theorem priceChangedBlocks_latched (conf : OracleTurnConfiguration) {vi : OracleBlockchainInfo} (price : PriceWithTimestamp)
    (publication : 0 ≤ vi.lastPubBlock) (block : 0 ≤ vi.blockNum) {turn : PriceOracleTurn}
    (same : turn.priceChangePubBlock = vi.lastPubBlock) (recorded : 0 ≤ turn.priceChangeBlock) :
    priceChangedBlocks conf vi price turn = .ok (some (vi.blockNum - turn.priceChangeBlock)) turn := by
  have valid : ¬(vi.lastPubBlock < 0 ∨ vi.blockNum < 0) := by omega
  simp only [priceChangedBlocks, run_bind, run_get, valid, if_false, run_pure, run_ite, same, ge_iff_le, recorded, and_self,
    if_true]

theorem priceChangedBlocks_raises (conf : OracleTurnConfiguration) {vi : OracleBlockchainInfo} {price : PriceWithTimestamp}
    {turn : PriceOracleTurn} {failure : PyError} (publication : 0 ≤ vi.lastPubBlock) (block : 0 ≤ vi.blockNum)
    (unrecorded : ¬(turn.priceChangePubBlock = vi.lastPubBlock ∧ turn.priceChangeBlock ≥ 0))
    (raises : Helpers.priceDelta vi.blockchainPrice price.price = .error failure) :
    priceChangedBlocks conf vi price turn = .error failure turn := by
  have valid : ¬(vi.lastPubBlock < 0 ∨ vi.blockNum < 0) := by omega
  simp only [priceChangedBlocks, run_bind, run_get, valid, if_false, run_pure, run_ite, unrecorded, raises, run_lift_error]

/-- A change of this publication's price is recorded, or the prices can be compared. -/
def CanCheck (vi : OracleBlockchainInfo) (price : PriceWithTimestamp) (turn : PriceOracleTurn) : Prop :=
  turn.priceChangePubBlock = vi.lastPubBlock ∧ 0 ≤ turn.priceChangeBlock ∨ Comparable vi.blockchainPrice price.price

theorem priceChangedBlocks_ok_iff {conf : OracleTurnConfiguration} {vi : OracleBlockchainInfo} {price : PriceWithTimestamp}
    {turn : PriceOracleTurn} (publication : 0 ≤ vi.lastPubBlock) (block : 0 ≤ vi.blockNum) :
    (∃ blocks after, priceChangedBlocks conf vi price turn = .ok blocks after) ↔ CanCheck vi price turn := by
  constructor
  · intro answers
    obtain ⟨blocks, after, answered⟩ := answers
    rcases (checked_of_ok answered).source with ⟨same, recorded, _⟩ | measured
    · exact Or.inl ⟨same, recorded⟩
    · exact Or.inr (priceDelta_ok_iff.mp measured)
  · intro can
    rcases can with ⟨same, recorded⟩ | comparable
    · exact ⟨_, _, priceChangedBlocks_latched conf price publication block same recorded⟩
    · exact ⟨_, _, priceChangedBlocks_eq conf publication block (priceDelta_eq comparable) turn⟩

/-- First block of the window before the price expires. -/
def windowStart (conf : OracleTurnConfiguration) (vi : OracleBlockchainInfo) (signal : Signal) : Int :=
  max (max (vi.lastPubBlock - conf.triggerValidPublicationBlocks + periodInForce vi.validPricePeriodInBlocks signal)
    (settledSignal signal).lastOnlineBlock) (settledSignal signal).lastOfflineBlock

def Admits (conf : OracleTurnConfiguration) (vi : OracleBlockchainInfo) (addresses : List String) (onlyChosen : Bool)
    (oracleAddr : String) (blocks : Int) : Prop :=
  oracleAddr ∈ addresses.take (admitted conf.enteringFallbacksAmounts vi.selectedOracles.length onlyChosen blocks)

instance (conf : OracleTurnConfiguration) (vi : OracleBlockchainInfo) (addresses : List String) (onlyChosen : Bool)
    (oracleAddr : String) (blocks : Int) : Decidable (Admits conf vi addresses onlyChosen oracleAddr blocks) :=
  inferInstanceAs (Decidable (_ ∈ _))

/-- The verdict of the window after a price change. -/
def changeVerdict (conf : OracleTurnConfiguration) (vi : OracleBlockchainInfo) (addresses : List String) (onlyChosen : Bool)
    (oracleAddr : String) : Option Int → TurnVerdict
  | none => .priceUnchanged
  | some blocks =>
    if blocks < conf.pricePublishBlocks then .waiting conf.pricePublishBlocks blocks
    else if Admits conf vi addresses onlyChosen oracleAddr (blocks - conf.pricePublishBlocks) then
      .selectedAfterPriceChange blocks conf.pricePublishBlocks
    else .notChosenFallback blocks conf.pricePublishBlocks

/-- The verdict on an oracle of the current round, given the blocks since the price changed. -/
def verdict (conf : OracleTurnConfiguration) (vi : OracleBlockchainInfo) (signal : Signal) (addresses : List String)
    (onlyChosen : Bool) (oracleAddr : String) (blocksSincePriceChange : Option Int) : TurnVerdict :=
  if windowStart conf vi signal ≤ vi.blockNum ∧
      Admits conf vi addresses onlyChosen oracleAddr (vi.blockNum - windowStart conf vi signal) then .selectedBeforeExpiry
  else changeVerdict conf vi addresses onlyChosen oracleAddr blocksSincePriceChange

theorem changeVerdict_isTurn {conf : OracleTurnConfiguration} {vi : OracleBlockchainInfo} {addresses : List String}
    {onlyChosen : Bool} {oracleAddr : String} {blocks : Option Int} :
    (changeVerdict conf vi addresses onlyChosen oracleAddr blocks).isTurn = true ↔
      ∃ count, blocks = some count ∧ conf.pricePublishBlocks ≤ count ∧
        Admits conf vi addresses onlyChosen oracleAddr (count - conf.pricePublishBlocks) ∧
        changeVerdict conf vi addresses onlyChosen oracleAddr blocks = .selectedAfterPriceChange count conf.pricePublishBlocks := by
  cases blocks with
  | none => simp [changeVerdict, TurnVerdict.isTurn]
  | some count =>
    simp only [changeVerdict, Option.some.injEq, exists_eq_left']
    split
    next => simp [TurnVerdict.isTurn]
    next late =>
      split
      next admits => simp [TurnVerdict.isTurn, admits, not_lt.mp late]
      next => simp [TurnVerdict.isTurn]

/-- The oracles granted a turn: those either window admits. -/
theorem verdict_isTurn {conf : OracleTurnConfiguration} {vi : OracleBlockchainInfo} {signal : Signal}
    {addresses : List String} {onlyChosen : Bool} {oracleAddr : String} {blocks : Option Int} :
    (verdict conf vi signal addresses onlyChosen oracleAddr blocks).isTurn = true ↔
      windowStart conf vi signal ≤ vi.blockNum ∧
        Admits conf vi addresses onlyChosen oracleAddr (vi.blockNum - windowStart conf vi signal) ∨
      ∃ count, blocks = some count ∧ conf.pricePublishBlocks ≤ count ∧
        Admits conf vi addresses onlyChosen oracleAddr (count - conf.pricePublishBlocks) := by
  rw [verdict]
  split
  next opened => simp [TurnVerdict.isTurn, opened]
  next closed =>
    rw [changeVerdict_isTurn, or_iff_right closed]
    apply exists_congr
    intro count
    constructor
    · exact fun ⟨same, waited, admits, _⟩ => ⟨same, waited, admits⟩
    · intro changed
      obtain ⟨rfl, waited, admits⟩ := changed
      exact ⟨rfl, waited, admits, by rw [changeVerdict, if_neg (by omega), if_pos admits]⟩

theorem windowStart_disabled (conf : OracleTurnConfiguration) (vi : OracleBlockchainInfo) :
    windowStart conf vi .disabled =
      max (vi.lastPubBlock - conf.triggerValidPublicationBlocks + vi.validPricePeriodInBlocks) 0 := by
  simp [windowStart, settledSignal, periodInForce, Signal.lastOnlineBlock, Signal.lastOfflineBlock]

theorem canOraclePublish_admits {addresses : List String} (nonempty : addresses ≠ []) (conf : OracleTurnConfiguration)
    (vi : OracleBlockchainInfo) (oracleAddr : String) (onlyChosen : Bool) {blocks : Int} (nonneg : 0 ≤ blocks) :
    canOraclePublish (some blocks) oracleAddr addresses
      (getFallbackSequence conf.enteringFallbacksAmounts vi.selectedOracles.length) onlyChosen =
      .ok (decide (Admits conf vi addresses onlyChosen oracleAddr blocks)) :=
  canOraclePublish_eq nonempty oracleAddr _ _ onlyChosen nonneg

theorem turnAfterPriceChange_eq {addresses : List String} (nonempty : addresses ≠ []) (conf : OracleTurnConfiguration)
    (vi : OracleBlockchainInfo) (oracleAddr : String) (onlyChosen : Bool) (blocks : Option Int) :
    turnAfterPriceChange conf oracleAddr addresses
      (getFallbackSequence conf.enteringFallbacksAmounts vi.selectedOracles.length) blocks onlyChosen =
      .ok (changeVerdict conf vi addresses onlyChosen oracleAddr blocks) := by
  cases blocks with
  | none => rfl
  | some count =>
    simp only [turnAfterPriceChange, changeVerdict]
    split
    · rfl
    next waited =>
      rw [canOraclePublish_admits nonempty conf vi oracleAddr onlyChosen (by omega)]
      by_cases admits : Admits conf vi addresses onlyChosen oracleAddr (count - conf.pricePublishBlocks)
      · simp [admits, bind, Except.bind, pure, Except.pure]
      · simp [admits, bind, Except.bind, pure, Except.pure]

theorem isOracleTurnWithMsg_eq {conf : OracleTurnConfiguration} {vi : OracleBlockchainInfo} {addresses : List String}
    {oracleAddr : String} {price : PriceWithTimestamp} {turn middle : PriceOracleTurn} {blocks : Option Int}
    (nonempty : addresses ≠ []) (listed : isOracleSelectedInRound vi.selectedOracles oracleAddr = true)
    (enough : conf.triggerValidPublicationBlocks ≤ vi.validPricePeriodInBlocks)
    (checked : priceChangedBlocks conf vi price turn = .ok blocks middle) (onlyChosen : Bool) :
    isOracleTurnWithMsg conf vi oracleAddr addresses (some price) onlyChosen turn =
      .ok (verdict conf vi middle.signal addresses onlyChosen oracleAddr blocks) (settledTurn middle) := by
  have guard : ¬vi.validPricePeriodInBlocks < conf.triggerValidPublicationBlocks := by omega
  simp only [isOracleTurnWithMsg, listed, guard, Bool.not_true, Bool.false_eq_true, if_false, run_bind, run_pure, checked,
    run_askSignal, getValidPricePeriod_eq, run_get, settledSignal_settledSignal, run_ite, turnAfterPriceChange_eq nonempty,
    run_lift_ok, verdict]
  rw [← windowStart]
  by_cases opened : windowStart conf vi middle.signal ≤ vi.blockNum
  · rw [canOraclePublish_admits nonempty conf vi oracleAddr onlyChosen (by omega)]
    by_cases admits : Admits conf vi addresses onlyChosen oracleAddr (vi.blockNum - windowStart conf vi middle.signal)
    · simp [opened, admits, settledTurn]
    · simp [admits, settledTurn]
  · simp [opened, settledTurn]

theorem isOracleTurnWithMsg_raises {conf : OracleTurnConfiguration} {vi : OracleBlockchainInfo} {addresses : List String}
    {oracleAddr : String} {price : PriceWithTimestamp} {turn middle : PriceOracleTurn} {failure : PyError}
    (listed : isOracleSelectedInRound vi.selectedOracles oracleAddr = true)
    (enough : conf.triggerValidPublicationBlocks ≤ vi.validPricePeriodInBlocks)
    (checked : priceChangedBlocks conf vi price turn = .error failure middle) (onlyChosen : Bool) :
    isOracleTurnWithMsg conf vi oracleAddr addresses (some price) onlyChosen turn = .error failure middle := by
  have guard : ¬vi.validPricePeriodInBlocks < conf.triggerValidPublicationBlocks := by omega
  simp only [isOracleTurnWithMsg, listed, guard, Bool.not_true, Bool.false_eq_true, if_false, run_bind, checked]

theorem isOracleTurn_cases {disableFallbacks : Bool} {conf : OracleTurnConfiguration} {vi : OracleBlockchainInfo}
    {oracleAddr : String} {exchangePrice : Option PriceWithTimestamp} {turn after : PriceOracleTurn} {isTurn : Bool}
    {addresses : List String}
    (evaluated : isOracleTurn disableFallbacks conf vi oracleAddr exchangePrice turn = .ok (isTurn, addresses) after) :
    selectNextAddresses vi.lastPubBlockHash vi.selectedOracles = .ok addresses ∧
      ∃ answer, isOracleTurnWithMsg conf vi oracleAddr addresses exchangePrice disableFallbacks turn = .ok answer after ∧
        answer.isTurn = isTurn := by
  cases selected : selectNextAddresses vi.lastPubBlockHash vi.selectedOracles with
  | error failure =>
    simp only [isOracleTurn, run_bind, selected, run_lift_error] at evaluated
    cases evaluated
  | ok ordered =>
    simp only [isOracleTurn, run_bind, selected, run_lift_ok] at evaluated
    split at evaluated
    next answer middle message =>
      obtain ⟨same, rfl⟩ := EStateM.Result.ok.inj evaluated
      obtain ⟨rfl, rfl⟩ := Prod.mk.inj same
      exact ⟨rfl, answer, message, rfl⟩
    · cases evaluated

theorem validateTurn_eq {vi : OracleBlockchainInfo} {first : String} {rest : List String}
    (selected : selectNextAddresses vi.lastPubBlockHash vi.selectedOracles = .ok (first :: rest))
    (conf : OracleTurnConfiguration) (oracleAddr : String) (exchangePrice : Option PriceWithTimestamp) (turn : PriceOracleTurn) :
    validateTurn conf vi oracleAddr exchangePrice turn =
      if first == oracleAddr then .ok .selectedChosen turn
      else isOracleTurnWithMsg conf vi oracleAddr (first :: rest) exchangePrice false turn := by
  simp only [validateTurn, run_bind, selected, run_lift_ok, isSelectedOracle, run_ite, run_pure]

private theorem canOraclePublish_nil (blocks : Option Int) (oracleAddr : String) (sequence : List Nat) (onlyChosen : Bool) :
    canOraclePublish blocks oracleAddr [] sequence onlyChosen = .error .indexError := rfl

/-- A grant comes from a complete evaluation. -/
theorem granted_cases {conf : OracleTurnConfiguration} {vi : OracleBlockchainInfo} {addresses : List String}
    {oracleAddr : String} {exchangePrice : Option PriceWithTimestamp} {onlyChosen : Bool} {turn after : PriceOracleTurn}
    {answer : TurnVerdict}
    (evaluated : isOracleTurnWithMsg conf vi oracleAddr addresses exchangePrice onlyChosen turn = .ok answer after)
    (granted : answer.isTurn = true) :
    ∃ price blocks middle, exchangePrice = some price ∧ isOracleSelectedInRound vi.selectedOracles oracleAddr = true ∧
      conf.triggerValidPublicationBlocks ≤ vi.validPricePeriodInBlocks ∧ addresses ≠ [] ∧
      priceChangedBlocks conf vi price turn = .ok blocks middle ∧
      answer = verdict conf vi middle.signal addresses onlyChosen oracleAddr blocks ∧ after = settledTurn middle := by
  cases exchangePrice with
  | none =>
    cases evaluated
    cases granted
  | some price =>
    by_cases listed : isOracleSelectedInRound vi.selectedOracles oracleAddr = true
    swap
    · simp only [isOracleTurnWithMsg, listed] at evaluated
      cases evaluated
      cases granted
    by_cases enough : vi.validPricePeriodInBlocks < conf.triggerValidPublicationBlocks
    · simp only [isOracleTurnWithMsg, listed, enough] at evaluated
      cases evaluated
      cases granted
    cases checked : priceChangedBlocks conf vi price turn with
    | error failure middle =>
      rw [isOracleTurnWithMsg_raises listed (not_lt.mp enough) checked] at evaluated
      cases evaluated
    | ok blocks middle =>
      by_cases nonempty : addresses = []
      · subst nonempty
        simp only [isOracleTurnWithMsg, listed, enough, Bool.not_true, Bool.false_eq_true, if_false, run_bind, checked,
          run_askSignal, getValidPricePeriod_eq, run_get, run_ite, canOraclePublish_nil, run_lift_error] at evaluated
        split at evaluated
        · cases evaluated
        · cases blocks with
          | none =>
            cases evaluated
            cases granted
          | some count =>
            simp only [turnAfterPriceChange, canOraclePublish_nil] at evaluated
            split at evaluated
            · cases evaluated
              cases granted
            · cases evaluated
      · rw [isOracleTurnWithMsg_eq nonempty listed (by omega) checked] at evaluated
        obtain ⟨rfl, rfl⟩ := EStateM.Result.ok.inj evaluated
        exact ⟨price, blocks, middle, rfl, listed, by omega, nonempty, checked, rfl, rfl⟩

end OmocNode.Proofs.TurnWindows
