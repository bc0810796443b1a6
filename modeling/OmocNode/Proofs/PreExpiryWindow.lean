import OmocNode.Proofs.PriceDistance
import OmocNode.Proofs.TurnWindows

/-! Grants without a price change. The guard compares the contract's validity
period with the trigger, while the window is that of the period in force. -/

namespace OmocNode.Proofs.PreExpiryWindow
open OracleTurn PriceOracleTurn TurnWindows StateSwitches FallbackSequence Countdown PriceDistance

/-- A turn granted without a price change lies in the last blocks of a period that is long enough. -/
def NoEarlyGrant (conf : OracleTurnConfiguration) (signal : Signal) : Prop :=
  ∀ (turn after middle : PriceOracleTurn) (vi : OracleBlockchainInfo) (oracleAddr : String) (addresses : List String)
    (price : PriceWithTimestamp) (onlyChosen : Bool) (answer : TurnVerdict), turn.signal = signal →
    isOracleTurnWithMsg conf vi oracleAddr addresses (some price) onlyChosen turn = .ok answer after → answer.isTurn = true →
    priceChangedBlocks conf vi price turn = .ok none middle →
    let period := (signal.getValidPricePeriod vi.validPricePeriodInBlocks).1
    conf.triggerValidPublicationBlocks ≤ period ∧
      vi.lastPubBlock + period - conf.triggerValidPublicationBlocks ≤ vi.blockNum

/-- The period that the signal's state puts in the place of the contract's. -/
def overrideInForce (service : ConditionalPublishService) : Int :=
  if unneeded service then service.cfg.oraclePricePublishBlocksUnneed else service.cfg.oraclePricePublishBlocksNeed

/-- There is no override, or it is at least the trigger, or any price counts as changed. -/
def OverrideHarmless (conf : OracleTurnConfiguration) : Signal → Prop
  | .disabled => True
  | .enabled service =>
    overrideInForce service = ConditionalConfig.defaultDecimal ∨
    conf.triggerValidPublicationBlocks ≤ overrideInForce service ∨
    deltaInForce conf.priceDeltaPct (.enabled service) ≤ 0

theorem periodInForce_eq (default : Int) (service : ConditionalPublishService) :
    periodInForce default (.enabled service) =
      if overrideInForce service = ConditionalConfig.defaultDecimal then default else overrideInForce service := rfl

/-- Prices that differ at all count as changed, so no check answers that nothing changed. -/
theorem changed_of_nonpositive_delta {conf : OracleTurnConfiguration} {vi : OracleBlockchainInfo} {price : PriceWithTimestamp}
    {turn middle : PriceOracleTurn} {blocks : Option Int} (all : deltaInForce conf.priceDeltaPct turn.signal ≤ 0)
    (checked : priceChangedBlocks conf vi price turn = .ok blocks middle) : blocks ≠ none := by
  intro unchanged
  subst unchanged
  have facts := checked_of_ok checked
  rcases facts.source with ⟨same, recorded, _⟩ | ⟨delta, priced⟩
  · rw [priceChangedBlocks_latched conf price facts.publication facts.block same recorded] at checked
    cases checked
  · rw [priceChangedBlocks_eq conf facts.publication facts.block priced] at checked
    have none : (observed conf vi delta turn).1 = Option.none := (EStateM.Result.ok.inj checked).1
    simp only [observed] at none
    split at none
    · cases none
    · split at none
      next less =>
        rw [not_less_of_priceDelta priced all] at less
        cases less
      · cases none

private theorem no_early_grant_of_harmless {conf : OracleTurnConfiguration} {signal : Signal} (harmless : OverrideHarmless conf signal) :
    NoEarlyGrant conf signal := by
  intro turn after middle vi oracleAddr addresses price onlyChosen answer sameSignal evaluated granted checked
  subst sameSignal
  obtain ⟨_, blocks, middle', same, _, enough, _, checked', rfl, _⟩ := granted_cases evaluated granted
  obtain rfl := Option.some.inj same
  obtain ⟨rfl, rfl⟩ := EStateM.Result.ok.inj (checked.symm.trans checked')
  have period : periodInForce vi.validPricePeriodInBlocks middle.signal =
      periodInForce vi.validPricePeriodInBlocks turn.signal := by
    rcases (checked_of_ok checked).signal with same | same <;> simp [same]
  obtain ⟨opened, _⟩ : windowStart conf vi middle.signal ≤ vi.blockNum ∧ _ := by simpa using verdict_isTurn.mp granted
  simp only [getValidPricePeriod_eq]
  rw [windowStart, period] at opened
  refine ⟨?_, by omega⟩
  cases signal : turn.signal with
  | disabled => exact enough
  | enabled service =>
    rw [signal] at harmless
    rw [periodInForce_eq]
    split
    · exact enough
    next overridden =>
      rcases harmless with none | large | all
      · exact absurd none overridden
      · exact large
      · rw [← signal] at all
        exact absurd rfl (changed_of_nonpositive_delta all checked)

/-- A pair with one oracle, at the first block of the window, and with the price of the chain. -/
def atWindowStart (conf : OracleTurnConfiguration) (signal : Signal) : OracleBlockchainInfo :=
  let address : Address := ⟨"0x00000000000000000000000000000000000000ac", by decide⟩
  let vi : OracleBlockchainInfo :=
    ⟨⟨"BTCUSD"⟩, [⟨address, "http://oracle:5556", 1, address, 0, true, 1⟩], 1, 0, 0, [], conf.triggerValidPublicationBlocks⟩
  { vi with blockNum := max (windowStart conf vi signal) 0 }

/-- Where a price can count as unchanged, the oracle is granted its turn at the window's start. -/
theorem granted_at_window_start (conf : OracleTurnConfiguration) (signal : Signal)
    (large : 0 < deltaInForce conf.priceDeltaPct signal) :
    ∃ after middle answer, answer.isTurn = true ∧
      isOracleTurnWithMsg conf (atWindowStart conf signal) "0x00000000000000000000000000000000000000ac"
        ["0x00000000000000000000000000000000000000ac"] (some ⟨1, .finite 1⟩) false (.init ⟨"BTCUSD"⟩ signal) =
        .ok answer after ∧
      priceChangedBlocks conf (atWindowStart conf signal) ⟨1, .finite 1⟩ (.init ⟨"BTCUSD"⟩ signal) = .ok none middle := by
  have priced : Helpers.priceDelta (atWindowStart conf signal).blockchainPrice 1 = .ok (.finite 0) := priceDelta_self one_ne_zero
  have checked := @priceChangedBlocks_eq conf (atWindowStart conf signal) ⟨1, .finite 1⟩ _ (le_refl 0)
    (le_max_right _ _) priced (.init ⟨"BTCUSD"⟩ signal)
  rw [observed, if_neg (by simp [PriceOracleTurn.init, atWindowStart]),
    if_pos (show (PyFloat.finite 0).lt (.finite (deltaInForce conf.priceDeltaPct (PriceOracleTurn.init ⟨"BTCUSD"⟩ signal).signal)) = true
      from decide_eq_true large)] at checked
  have opened : windowStart conf (atWindowStart conf signal) (settledSignal signal) ≤ (atWindowStart conf signal).blockNum := by
    simp [windowStart, atWindowStart]
  have some := one_le_of_mem (width_mem (getFallbackSequence_ne_nil conf.enteringFallbacksAmounts 1)
    ((atWindowStart conf signal).blockNum - windowStart conf (atWindowStart conf signal) (settledSignal signal)))
  have evaluated := @isOracleTurnWithMsg_eq _ _ _ "0x00000000000000000000000000000000000000ac" _ _ _ _
    (List.cons_ne_nil "0x00000000000000000000000000000000000000ac" [])
    (by simp [isOracleSelectedInRound, atWindowStart]) (le_refl conf.triggerValidPublicationBlocks) checked false
  exact ⟨_, _, _, verdict_isTurn.mpr (Or.inl ⟨opened, mem_take_of_le some (by simp)⟩), evaluated, checked⟩

private theorem early_grant_of_harmful {conf : OracleTurnConfiguration} {signal : Signal} (harmful : ¬OverrideHarmless conf signal) :
    ¬NoEarlyGrant conf signal := by
  intro safe
  cases signal with
  | disabled => exact harmful trivial
  | enabled service =>
    simp only [OverrideHarmless, not_or, not_le] at harmful
    obtain ⟨overridden, short, large⟩ := harmful
    obtain ⟨after, middle, answer, granted, evaluated, checked⟩ := granted_at_window_start conf (.enabled service) large
    have bound := (safe _ after middle _ _ _ _ false answer rfl evaluated granted checked).1
    rw [getValidPricePeriod_eq, periodInForce_eq, if_neg overridden] at bound
    exact absurd bound (not_le.mpr short)

/-- Grants without a price change stay in the last blocks of a long enough period
exactly when the override in force is harmless. -/
theorem no_early_grant_iff (conf : OracleTurnConfiguration) (signal : Signal) :
    NoEarlyGrant conf signal ↔ OverrideHarmless conf signal :=
  ⟨not_imp_not.mp early_grant_of_harmful, no_early_grant_of_harmless⟩

/-- The price delta while unneeded is set and the period is left at its default,
and the first fetch finds nothing pending. -/
theorem default_period_grants_early :
    let service := { queueService with
      lastValue := some [[some (.bool true)], [], [], [], [], [], []], lastBlock := some 10, baseConditionActive := false }
    Signal.syncCreate queueEnvironment (queueAnswers true 10) = .ok (.enabled service) ∧
      ¬NoEarlyGrant ⟨1 / 20, 1, [2, 4, 6, 8, 10], 30⟩ (.enabled service) := by
  refine ⟨by decide +kernel, early_grant_of_harmful ?_⟩
  intro harmless
  rcases harmless with none | large | all
  · exact absurd none (by decide +kernel)
  · exact absurd large (by decide +kernel)
  · exact absurd all (by decide +kernel)

end OmocNode.Proofs.PreExpiryWindow
