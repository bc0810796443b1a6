import OmocNode.Proofs.TurnWindows

/-! Publishers and signers evaluate turns on their own. A grant stays valid at a
later block, so a signer that is not behind grants what the publisher claims. -/

namespace OmocNode.Proofs.TurnAgreement
open OracleTurn PriceOracleTurn SelectNext FallbackSequence TurnWindows StateFrame Countdown Selection PriceDistance

/-- Later blocks admit more, and a node with fallbacks no less than one without. -/
theorem admits_later {conf : OracleTurnConfiguration} {vi vi' : OracleBlockchainInfo} {addresses : List String}
    {onlyChosen : Bool} {oracleAddr : String} {blocks blocks' : Int}
    (sorted : conf.enteringFallbacksAmounts.Pairwise (· ≤ ·)) (oracles : vi'.selectedOracles = vi.selectedOracles)
    (le : blocks ≤ blocks') (admits : Admits conf vi addresses onlyChosen oracleAddr blocks) :
    Admits conf vi' addresses false oracleAddr blocks' := by
  apply mem_take_of_le _ admits
  have grows := width_mono (getFallbackSequence_sorted sorted vi.selectedOracles.length) le
  have some := one_le_of_mem (width_mem (getFallbackSequence_ne_nil conf.enteringFallbacksAmounts vi.selectedOracles.length) blocks')
  simp only [admitted, oracles, Bool.false_eq_true, if_false]
  split <;> omega

/-- The signer sees the publication the publisher sees, under the same contract
parameters, and is not behind it. -/
structure NotBehind (publisher signer : OracleBlockchainInfo) : Prop where
  selectedOracles : signer.selectedOracles = publisher.selectedOracles
  lastPubBlock : signer.lastPubBlock = publisher.lastPubBlock
  lastPubBlockHash : signer.lastPubBlockHash = publisher.lastPubBlockHash
  validPricePeriodInBlocks : signer.validPricePeriodInBlocks = publisher.validPricePeriodInBlocks
  blockNum : publisher.blockNum ≤ signer.blockNum

/-- A recorded change of this publication's price, at a block no later than the other node's. -/
structure NotLater (vi : OracleBlockchainInfo) (publisher signer : PriceOracleTurn) : Prop where
  publication : signer.priceChangePubBlock = vi.lastPubBlock
  recorded : 0 ≤ signer.priceChangeBlock
  le : signer.priceChangeBlock ≤ publisher.priceChangeBlock

/-- A signer that is not behind grants what the publisher claims exactly when it
compares nothing, for the first oracle of the order, or its own price check ends. -/
theorem signer_grants_iff (conf : OracleTurnConfiguration) (sorted : conf.enteringFallbacksAmounts.Pairwise (· ≤ ·))
    (disableFallbacks : Bool) (oracleAddr : String) (addresses : List String)
    (publisherInfo signerInfo : OracleBlockchainInfo) (notBehind : NotBehind publisherInfo signerInfo)
    (publisherPrice signerPrice : PriceWithTimestamp)
    (publisher publisher' signer : PriceOracleTurn) (disabled : publisher.signal = .disabled ∧ signer.signal = .disabled)
    (granted : isOracleTurn disableFallbacks conf publisherInfo oracleAddr (some publisherPrice) publisher =
      .ok (true, addresses) publisher')
    (latched : ∀ blocks wait, isOracleTurnWithMsg conf publisherInfo oracleAddr addresses (some publisherPrice)
      disableFallbacks publisher = .ok (.selectedAfterPriceChange blocks wait) publisher' →
      NotLater signerInfo publisher' signer) :
    (∃ answer signer', validateTurn conf signerInfo oracleAddr (some signerPrice) signer = .ok answer signer' ∧
      answer.isTurn = true) ↔ addresses.head? = some oracleAddr ∨ CanCheck signerInfo signerPrice signer := by
  obtain ⟨selected, answer, evaluated, isTurn⟩ := isOracleTurn_cases granted
  obtain ⟨price, blocks, middle, _, listed, enough, nonempty, checked, rfl, rfl⟩ := granted_cases evaluated isTurn
  obtain ⟨first, rest, rfl⟩ := List.exists_cons_of_ne_nil nonempty
  have facts := checked_of_ok checked
  have quiet : middle.signal = .disabled := by
    rcases facts.signal with same | same <;> rw [same, disabled.1]
    rfl
  rw [← notBehind.lastPubBlockHash, ← notBehind.selectedOracles] at selected
  rw [validateTurn_eq selected, List.head?_cons, Option.some_inj]
  by_cases chosen : first = oracleAddr
  · rw [if_pos (beq_iff_eq.mpr chosen)]
    exact iff_of_true ⟨_, _, rfl, rfl⟩ (Or.inl chosen)
  rw [if_neg (mt beq_iff_eq.mp chosen), or_iff_right chosen]
  have block := notBehind.blockNum
  have publication : 0 ≤ signerInfo.lastPubBlock := notBehind.lastPubBlock.symm ▸ facts.publication
  have signerBlock : 0 ≤ signerInfo.blockNum := facts.block.trans block
  rw [← @priceChangedBlocks_ok_iff conf _ _ _ publication signerBlock]
  constructor
  · intro grants
    obtain ⟨verdict, signer', validated, isTurn⟩ := grants
    obtain ⟨_, count, reached, same, _, _, _, answered, _⟩ := granted_cases validated isTurn
    obtain rfl := Option.some.inj same
    exact ⟨count, reached, answered⟩
  · intro answers
    obtain ⟨count, reached, signerChecked⟩ := answers
    rw [isOracleTurnWithMsg_eq nonempty (by rw [notBehind.selectedOracles]; exact listed)
      (by rw [notBehind.validPricePeriodInBlocks]; exact enough) signerChecked]
    have signerQuiet : reached.signal = .disabled := by
      rcases (checked_of_ok signerChecked).signal with same | same <;> rw [same, disabled.2]
      rfl
    refine ⟨_, _, rfl, verdict_isTurn.mpr ?_⟩
    rw [signerQuiet, windowStart_disabled, notBehind.lastPubBlock, notBehind.validPricePeriodInBlocks,
      ← windowStart_disabled]
    by_cases opened : windowStart conf publisherInfo .disabled ≤ publisherInfo.blockNum ∧
        Admits conf publisherInfo (first :: rest) disableFallbacks oracleAddr
          (publisherInfo.blockNum - windowStart conf publisherInfo .disabled)
    · exact Or.inl ⟨opened.1.trans block, admits_later sorted notBehind.selectedOracles (by omega) opened.2⟩
    · -- The grant is of the second window, where the signer counts from a change recorded no later.
      rw [verdict, quiet, if_neg opened, changeVerdict_isTurn] at isTurn
      obtain ⟨blocks, rfl, waited, admits, message⟩ := isTurn
      obtain ⟨_, _, counted⟩ := facts.recorded blocks rfl
      have notLater := latched blocks conf.pricePublishBlocks (by
        rw [evaluated, verdict, quiet, if_neg opened, message])
      have again := priceChangedBlocks_latched conf signerPrice publication signerBlock notLater.publication notLater.recorded
      obtain ⟨rfl, _⟩ := EStateM.Result.ok.inj (signerChecked.symm.trans again)
      have earlier : signer.priceChangeBlock ≤ middle.priceChangeBlock := notLater.le
      exact Or.inr ⟨_, rfl, by omega, admits_later sorted notBehind.selectedOracles (by omega) admits⟩

/-! Two oracles, of which the fallback asks the other one to sign. -/

def publishingAddr : Address := ⟨"0x00000000000000000000000000000000000000d1", by decide⟩

def chosenAddr : Address := ⟨"0x00000000000000000000000000000000000000d2", by decide⟩

def twoOracles (blockNum validPricePeriodInBlocks : Int) : OracleBlockchainInfo :=
  ⟨⟨"BTCUSD"⟩, [⟨chosenAddr, "http://first:5556", 10, chosenAddr, 0, true, 1⟩,
    ⟨publishingAddr, "http://second:5556", 10, publishingAddr, 0, true, 1⟩], 10 ^ 18, blockNum, 90, List.replicate 32 1,
    validPricePeriodInBlocks⟩

def turnConf : OracleTurnConfiguration := ⟨1 / 20, 1, [2, 4, 6, 8, 10], 30⟩

theorem twoOracles_order : selectNextAddresses (List.replicate 32 1) (twoOracles 0 0).selectedOracles =
    .ok [chosenAddr.text, publishingAddr.text] := by decide +kernel

/-- The price changed three blocks ago for the publisher, and the signer saw the
change one block earlier. -/
theorem signer_grants_iff_second_of_two :
    let publisher : PriceOracleTurn := ⟨⟨"BTCUSD"⟩, .disabled, 100, 90⟩
    let signer : PriceOracleTurn := ⟨⟨"BTCUSD"⟩, .disabled, 99, 90⟩
    let price : PriceWithTimestamp := ⟨2 * 10 ^ 18, .finite 1⟩
    isOracleTurn false turnConf (twoOracles 103 1000) publishingAddr.text (some price) publisher =
      .ok (true, [chosenAddr.text, publishingAddr.text]) publisher ∧
    ((∃ answer signer', validateTurn turnConf (twoOracles 104 1000) publishingAddr.text (some price) signer = .ok answer signer' ∧
      answer.isTurn = true) ↔ [chosenAddr.text, publishingAddr.text].head? = some publishingAddr.text ∨
        CanCheck (twoOracles 104 1000) price signer) := by
  intro publisher signer price
  have granted : isOracleTurn false turnConf (twoOracles 103 1000) publishingAddr.text (some price) publisher =
      .ok (true, [chosenAddr.text, publishingAddr.text]) publisher := by
    simp only [isOracleTurn, run_bind, show selectNextAddresses (twoOracles 103 1000).lastPubBlockHash
      (twoOracles 103 1000).selectedOracles = _ from twoOracles_order, run_lift_ok]
    rfl
  exact ⟨granted, signer_grants_iff turnConf (by decide) false publishingAddr.text _ (twoOracles 103 1000) (twoOracles 104 1000)
    ⟨rfl, rfl, rfl, rfl, by decide⟩ price price publisher publisher signer ⟨rfl, rfl⟩ granted
    (fun _ _ _ => ⟨rfl, by decide, by decide⟩)⟩

def unmovedPrice : PriceWithTimestamp := ⟨10 ^ 18, .finite 1⟩

/-- A price that no double can compare with the one on the chain. -/
def farPrice : PriceWithTimestamp := ⟨10 ^ 400, .finite 1⟩

def freshTurn : PriceOracleTurn := .init ⟨"BTCUSD"⟩ .disabled

/-- The price is about to expire, so the fallback may publish although nothing changed. -/
theorem expiring_granted : isOracleTurnWithMsg turnConf (twoOracles 103 30) publishingAddr.text
    [chosenAddr.text, publishingAddr.text] (some unmovedPrice) false freshTurn = .ok .selectedBeforeExpiry freshTurn := by
  have unchanged : observed turnConf (twoOracles 103 30) (.finite 0) freshTurn = (none, freshTurn) := by
    rw [observed, if_neg (by decide), if_pos (by decide +kernel)]
    rfl
  have checked := @priceChangedBlocks_eq turnConf (twoOracles 103 30) unmovedPrice _ (by decide) (by decide)
    (priceDelta_self (by decide)) freshTurn
  rw [unchanged] at checked
  have opened : verdict turnConf (twoOracles 103 30) .disabled [chosenAddr.text, publishingAddr.text] false publishingAddr.text none =
      .selectedBeforeExpiry := by decide +kernel
  rw [@isOracleTurnWithMsg_eq turnConf (twoOracles 103 30) _ _ _ _ _ _ (List.cons_ne_nil _ _) (by decide) (by decide) checked]
  exact congrArg (EStateM.Result.ok · freshTurn) opened

theorem far_raises {blockNum : Int} (block : 0 ≤ blockNum) : isOracleTurnWithMsg turnConf (twoOracles blockNum 30)
    publishingAddr.text [chosenAddr.text, publishingAddr.text] (some farPrice) false freshTurn =
      .error .overflowError freshTurn := by
  have listed : isOracleSelectedInRound (twoOracles blockNum 30).selectedOracles publishingAddr.text = true :=
    (by decide : isOracleSelectedInRound (twoOracles 0 30).selectedOracles publishingAddr.text = true)
  have unrecorded : ¬((-1 : Int) = 90 ∧ (-1 : Int) ≥ 0) := by decide
  have raises : Helpers.priceDelta (10 ^ 18) (10 ^ 400) = .error .overflowError := by decide +kernel
  have checked := @priceChangedBlocks_raises turnConf (twoOracles blockNum 30) farPrice freshTurn .overflowError
    (show (0 : Int) ≤ 90 by decide) block unrecorded raises
  exact isOracleTurnWithMsg_raises listed (le_refl _) checked false

/-- The publisher may publish before the price expires, and the signer raises
instead of granting, as its exchange price is too far off to be compared. -/
theorem signer_raises_overflow :
    isOracleTurn false turnConf (twoOracles 103 30) publishingAddr.text (some unmovedPrice) freshTurn =
      .ok (true, [chosenAddr.text, publishingAddr.text]) freshTurn ∧
    isOracleTurnWithMsg turnConf (twoOracles 103 30) publishingAddr.text [chosenAddr.text, publishingAddr.text] (some unmovedPrice)
      false freshTurn = .ok .selectedBeforeExpiry freshTurn ∧
    validateTurn turnConf (twoOracles 103 30) publishingAddr.text (some farPrice) freshTurn = .error .overflowError freshTurn ∧
    ¬∃ answer after, validateTurn turnConf (twoOracles 103 30) publishingAddr.text (some farPrice) freshTurn = .ok answer after ∧
      answer.isTurn = true := by
  have order : selectNextAddresses (twoOracles 103 30).lastPubBlockHash (twoOracles 103 30).selectedOracles =
      .ok [chosenAddr.text, publishingAddr.text] := twoOracles_order
  have granted : isOracleTurn false turnConf (twoOracles 103 30) publishingAddr.text (some unmovedPrice) freshTurn =
      .ok (true, [chosenAddr.text, publishingAddr.text]) freshTurn := by
    simp only [isOracleTurn, run_bind, order, run_lift_ok, expiring_granted]
    rfl
  have raised : validateTurn turnConf (twoOracles 103 30) publishingAddr.text (some farPrice) freshTurn =
      .error .overflowError freshTurn := by
    rw [validateTurn_eq order, if_neg (by decide)]
    exact far_raises (by decide)
  refine ⟨granted, expiring_granted, raised, ?_⟩
  intro grants
  obtain ⟨_, _, validated, _⟩ := grants
  rw [raised] at validated
  cases validated

end OmocNode.Proofs.TurnAgreement
