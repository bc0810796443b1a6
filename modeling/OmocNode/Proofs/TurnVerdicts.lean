import OmocNode.Proofs.Selection
import OmocNode.Proofs.TurnWindows

/-! When an evaluation of the price turn ends with a verdict. It needs a first
oracle to compare with, and prices that can be compared once it compares them. -/

namespace OmocNode.Proofs.TurnVerdicts
open OracleTurn PriceOracleTurn SelectNext TurnWindows StateFrame Selection PriceDistance

variable {conf : OracleTurnConfiguration} {vi : OracleBlockchainInfo} {exchangePrice : Option PriceWithTimestamp}
  {turn : PriceOracleTurn} {oracleAddr : String} {addresses : List String} {onlyChosen : Bool}

/-- The evaluation for this oracle compares two prices that cannot be compared. -/
structure FailsToCompare (conf : OracleTurnConfiguration) (vi : OracleBlockchainInfo) (exchangePrice : Option PriceWithTimestamp)
    (turn : PriceOracleTurn) (oracleAddr : String) : Prop where
  incomparable : ∃ price, exchangePrice = some price ∧ ¬Comparable vi.blockchainPrice price.price
  listed : isOracleSelectedInRound vi.selectedOracles oracleAddr = true
  enough : conf.triggerValidPublicationBlocks ≤ vi.validPricePeriodInBlocks
  unrecorded : turn.priceChangePubBlock = vi.lastPubBlock → turn.priceChangeBlock < 0

theorem isOracleTurnWithMsg_ok_iff (nonempty : addresses ≠ []) (publication : 0 ≤ vi.lastPubBlock) (block : 0 ≤ vi.blockNum) :
    (∃ answer after, isOracleTurnWithMsg conf vi oracleAddr addresses exchangePrice onlyChosen turn = .ok answer after) ↔
      ¬FailsToCompare conf vi exchangePrice turn oracleAddr := by
  cases exchangePrice with
  | none => exact iff_of_true ⟨_, _, rfl⟩ fun fails => by obtain ⟨_, same, _⟩ := fails.incomparable; cases same
  | some price =>
    by_cases listed : isOracleSelectedInRound vi.selectedOracles oracleAddr = true
    swap
    · have answered : isOracleTurnWithMsg conf vi oracleAddr addresses (some price) onlyChosen turn =
          .ok .notInCurrentRound turn := by simp [isOracleTurnWithMsg, listed]
      exact iff_of_true ⟨_, _, answered⟩ fun fails => listed fails.listed
    by_cases enough : vi.validPricePeriodInBlocks < conf.triggerValidPublicationBlocks
    · have answered : isOracleTurnWithMsg conf vi oracleAddr addresses (some price) onlyChosen turn = .ok
          (.periodBelowTrigger vi.validPricePeriodInBlocks conf.triggerValidPublicationBlocks) turn := by
        simp [isOracleTurnWithMsg, listed, enough]
      exact iff_of_true ⟨_, _, answered⟩ fun fails => absurd enough (not_lt.mpr fails.enough)
    have compared : (∃ answer after, isOracleTurnWithMsg conf vi oracleAddr addresses (some price) onlyChosen turn =
        .ok answer after) ↔ ∃ blocks after, priceChangedBlocks conf vi price turn = .ok blocks after := by
      cases checked : priceChangedBlocks conf vi price turn with
      | ok blocks middle =>
        exact iff_of_true ⟨_, _, isOracleTurnWithMsg_eq nonempty listed (not_lt.mp enough) checked onlyChosen⟩ ⟨_, _, rfl⟩
      | error failure middle =>
        simp only [isOracleTurnWithMsg_raises listed (not_lt.mp enough) checked, reduceCtorEq, exists_false]
    rw [compared, priceChangedBlocks_ok_iff publication block]
    constructor
    · intro can fails
      obtain ⟨_, same, incomparable⟩ := fails.incomparable
      cases same
      rcases can with ⟨same, recorded⟩ | comparable
      · exact absurd (fails.unrecorded same) (not_lt.mpr recorded)
      · exact incomparable comparable
    · intro safe
      by_contra cannot
      obtain ⟨unlatched, incomparable⟩ := not_or.mp cannot
      exact safe ⟨⟨price, rfl, incomparable⟩, listed, not_lt.mp enough, fun same => by omega⟩

/-- Both entry points answer, whichever oracle they are asked about. -/
def AlwaysVerdict (disableFallbacks : Bool) (conf : OracleTurnConfiguration) (vi : OracleBlockchainInfo)
    (exchangePrice : Option PriceWithTimestamp) (turn : PriceOracleTurn) : Prop :=
  ∀ oracleAddr,
    (∃ answer after, isOracleTurn disableFallbacks conf vi oracleAddr exchangePrice turn = .ok answer after) ∧
    ∃ verdict after, validateTurn conf vi oracleAddr exchangePrice turn = .ok verdict after

theorem isOracleTurn_ok_iff {disableFallbacks : Bool}
    (order : selectNextAddresses vi.lastPubBlockHash vi.selectedOracles = .ok addresses) :
    (∃ answer after, isOracleTurn disableFallbacks conf vi oracleAddr exchangePrice turn = .ok answer after) ↔
      ∃ answer after, isOracleTurnWithMsg conf vi oracleAddr addresses exchangePrice disableFallbacks turn = .ok answer after := by
  simp only [isOracleTurn, run_bind, order, run_lift_ok, run_pure]
  cases isOracleTurnWithMsg conf vi oracleAddr addresses exchangePrice disableFallbacks turn <;> simp

/-- The evaluation always ends with a verdict exactly when there is an oracle
and none for which it would compare prices that cannot be compared. -/
theorem always_verdict_iff (disableFallbacks : Bool) (conf : OracleTurnConfiguration) (vi : OracleBlockchainInfo)
    (few : vi.selectedOracles.length ≤ 32) (publication : 0 ≤ vi.lastPubBlock) (block : 0 ≤ vi.blockNum)
    (exchangePrice : Option PriceWithTimestamp) (turn : PriceOracleTurn) :
    AlwaysVerdict disableFallbacks conf vi exchangePrice turn ↔
      vi.selectedOracles ≠ [] ∧ ∀ oracleAddr, ¬FailsToCompare conf vi exchangePrice turn oracleAddr := by
  obtain ⟨addresses, order⟩ := selectNextAddresses_ok vi.lastPubBlockHash few
  have empty : addresses = [] ↔ vi.selectedOracles = [] := by
    rw [← List.length_eq_zero_iff, (selectNextAddresses_perm order).length_eq, List.length_map, List.length_eq_zero_iff]
  cases addresses with
  | nil =>
    -- The signer compares with the first oracle, and there is none.
    refine iff_of_false ?_ fun safe => safe.1 (empty.mp rfl)
    intro always
    obtain ⟨_, _, answered⟩ := (always "").2
    simp only [validateTurn, run_bind, order, run_lift_ok, isSelectedOracle, run_lift_error] at answered
    cases answered
  | cons first fallbacks =>
    have nonempty : first :: fallbacks ≠ [] := List.cons_ne_nil _ _
    rw [and_iff_right (mt empty.mpr nonempty)]
    apply forall_congr'
    intro oracleAddr
    rw [isOracleTurn_ok_iff order, isOracleTurnWithMsg_ok_iff nonempty publication block, and_iff_left_iff_imp]
    intro safe
    rw [validateTurn_eq order]
    split
    · exact ⟨_, _, rfl⟩
    · exact (isOracleTurnWithMsg_ok_iff nonempty publication block).mpr safe

/-- A pair at block 100, last published at block 90. -/
def pairPriced (blockchainPrice : Int) (oracles : List FullOracleRoundInfo) : OracleBlockchainInfo :=
  ⟨⟨"BTCUSD"⟩, oracles, blockchainPrice, 100, 90, [], 300⟩

theorem always_verdict_iff_unpriced :
    AlwaysVerdict false ⟨5, 1, [2, 4, 6, 8, 10], 30⟩ (pairPriced 0 []) (some ⟨100, .finite 1⟩) (.init ⟨"BTCUSD"⟩ .disabled) ↔
      (pairPriced 0 []).selectedOracles ≠ [] ∧ ∀ oracleAddr, ¬FailsToCompare ⟨5, 1, [2, 4, 6, 8, 10], 30⟩ (pairPriced 0 [])
        (some ⟨100, .finite 1⟩) (.init ⟨"BTCUSD"⟩ .disabled) oracleAddr :=
  always_verdict_iff false _ (pairPriced 0 []) (by decide) (by decide) (by decide) _ _

/-- With no oracle selected a signer raises. With one, the publisher does where
there is no price on the chain, and where the exchanges' is too far from it. -/
theorem no_verdict_unpriced :
    let oracle : Address := ⟨"0x00000000000000000000000000000000000000ac", by decide⟩
    let conf : OracleTurnConfiguration := ⟨5, 1, [2, 4, 6, 8, 10], 30⟩
    let turn : PriceOracleTurn := .init ⟨"BTCUSD"⟩ .disabled
    let selected : List FullOracleRoundInfo := [⟨oracle, "http://oracle:5556", 1, oracle, 0, true, 1⟩]
    (validateTurn conf (pairPriced 0 []) oracle.text (some ⟨100, .finite 1⟩) turn = .error .indexError turn ∧
      ¬AlwaysVerdict false conf (pairPriced 0 []) (some ⟨100, .finite 1⟩) turn) ∧
    (isOracleTurn false conf (pairPriced 0 selected) oracle.text (some ⟨100, .finite 1⟩) turn = .error .zeroDivisionError turn ∧
      ¬AlwaysVerdict false conf (pairPriced 0 selected) (some ⟨100, .finite 1⟩) turn) ∧
    isOracleTurn false conf (pairPriced (10 ^ 18) selected) oracle.text (some ⟨10 ^ 400, .finite 1⟩) turn =
      .error .overflowError turn ∧
    ¬AlwaysVerdict false conf (pairPriced (10 ^ 18) selected) (some ⟨10 ^ 400, .finite 1⟩) turn := by
  intro oracle conf turn selected
  have signer : validateTurn conf (pairPriced 0 []) oracle.text (some ⟨100, .finite 1⟩) turn = .error .indexError turn := rfl
  have order : selectNextAddresses [] selected = .ok [oracle.text] := by decide +kernel
  have listed : isOracleSelectedInRound selected oracle.text = true := by decide
  have publisher : ∀ {blockchainPrice exchangePrice : Int} {failure : PyError},
      Helpers.priceDelta blockchainPrice exchangePrice = .error failure →
      isOracleTurn false conf (pairPriced blockchainPrice selected) oracle.text (some ⟨exchangePrice, .finite 1⟩) turn =
        .error failure turn := by
    intro blockchainPrice exchangePrice failure raises
    have checked := @priceChangedBlocks_raises conf (pairPriced blockchainPrice selected) ⟨exchangePrice, .finite 1⟩ turn failure
      (show (0 : Int) ≤ 90 by decide) (show (0 : Int) ≤ 100 by decide) (show ¬((-1 : Int) = 90 ∧ (-1 : Int) ≥ 0) by decide) raises
    simp only [isOracleTurn, run_bind, show selectNextAddresses (pairPriced blockchainPrice selected).lastPubBlockHash
      (pairPriced blockchainPrice selected).selectedOracles = _ from order, run_lift_ok]
    rw [isOracleTurnWithMsg_raises listed (show (30 : Int) ≤ 300 by decide) checked]
  have zero := publisher (show Helpers.priceDelta 0 100 = .error .zeroDivisionError by decide +kernel)
  have far := publisher (show Helpers.priceDelta (10 ^ 18) (10 ^ 400) = .error .overflowError by decide +kernel)
  refine ⟨⟨signer, ?_⟩, ⟨zero, ?_⟩, far, ?_⟩
  · intro always
    obtain ⟨_, _, answered⟩ := (always oracle.text).2
    rw [signer] at answered
    cases answered
  · intro always
    obtain ⟨_, _, answered⟩ := (always oracle.text).1
    rw [zero] at answered
    cases answered
  · intro always
    obtain ⟨_, _, answered⟩ := (always oracle.text).1
    rw [far] at answered
    cases answered

end OmocNode.Proofs.TurnVerdicts
