import OmocNode.Proofs.TurnAgreement

/-! Evaluations of one price turn during one publication, by whomever and in any
number. The oracles granted a turn form a growing initial part of the order. -/

namespace OmocNode.Proofs.TurnRuns
open OracleTurn PriceOracleTurn SelectNext FallbackSequence TurnWindows TurnAgreement StateFrame Selection Countdown

structure Evaluation where
  blockNum : Int
  exchangePrice : PriceWithTimestamp
  oracleAddr : String
  onlyChosen : Bool

section Preservation
variable {Invariant : PriceOracleTurn → Prop}

private theorem lift_preserves {α : Type} (outcome : Except PyError α) : Preserves Invariant (PriceOracleTurn.lift outcome) := by
  cases outcome with
  | ok value => exact .pure value
  | error failure => exact .throw failure

/-- Besides the price check, an evaluation only reads the signal. -/
theorem isOracleTurnWithMsg_preserves (conf : OracleTurnConfiguration) (vi : OracleBlockchainInfo) (oracleAddr : String)
    (addresses : List String) (price : PriceWithTimestamp) (onlyChosen : Bool)
    (check : Preserves Invariant (priceChangedBlocks conf vi price))
    (read : ∀ turn, Invariant turn → Invariant (settledTurn turn)) :
    Preserves Invariant (isOracleTurnWithMsg conf vi oracleAddr addresses (some price) onlyChosen) := by
  have asked : Preserves Invariant (askSignal (Signal.getValidPricePeriod vi.validPricePeriodInBlocks)) := by
    apply Preserves.modifyGet
    intro turn holds
    rw [getValidPricePeriod_eq]
    exact read turn holds
  simp only [isOracleTurnWithMsg]
  split
  · exact .pure _
  split
  · exact .pure _
  refine .bind check ?_
  intro blocks
  refine .bind asked ?_
  intro period
  refine .bind .get ?_
  intro turn
  refine .bind asked ?_
  intro _
  split
  · refine .bind (lift_preserves _) ?_
    intro canIPublish
    split
    · exact .pure _
    · exact lift_preserves _
  · exact lift_preserves _

end Preservation

section Run
variable (conf : OracleTurnConfiguration) (base : OracleBlockchainInfo) (addresses : List String)

def infoAt (evaluation : Evaluation) : OracleBlockchainInfo := { base with blockNum := evaluation.blockNum }

def evaluate (turn : PriceOracleTurn) (evaluation : Evaluation) : PriceOracleTurn :=
  finalState (isOracleTurnWithMsg conf (infoAt base evaluation) evaluation.oracleAddr addresses
    (some evaluation.exchangePrice) evaluation.onlyChosen) turn

/-- An evaluation of this oracle, with fallbacks, would grant it a turn. -/
def Granted (turn : PriceOracleTurn) (evaluation : Evaluation) (oracleAddr : String) : Prop :=
  ∃ answer after, isOracleTurnWithMsg conf (infoAt base evaluation) oracleAddr addresses
    (some evaluation.exchangePrice) false turn = .ok answer after ∧ answer.isTurn = true

/-- A change of this publication's price is recorded at a block. -/
structure Latched (block : Int) (turn : PriceOracleTurn) : Prop where
  publication : turn.priceChangePubBlock = base.lastPubBlock
  since : turn.priceChangeBlock = block
  recorded : 0 ≤ block

variable {conf base addresses}

private theorem evaluate_disabled (evaluation : Evaluation) (turn : PriceOracleTurn) (disabled : turn.signal = .disabled) :
    (evaluate conf base addresses turn evaluation).signal = .disabled := by
  apply @isOracleTurnWithMsg_preserves (fun turn => turn.signal = .disabled) _ _ _ _ _ _ ?_ ?_ turn disabled
  · simp only [priceChangedBlocks]
    refine .bind .get ?_
    intro _
    split
    · exact .throw _
    split
    · exact .pure _
    refine .bind (lift_preserves _) ?_
    intro delta
    refine .bind ?_ ?_
    · apply Preserves.modifyGet
      intro turn disabled
      rw [disabled]
      rfl
    · intro threshold
      split
      · exact .pure _
      · exact .bind (.modify fun _ disabled => disabled) fun _ => .pure _
  · intro turn disabled
    simp [settledTurn, settledSignal, disabled]

theorem evaluate_latched {block : Int} (evaluation : Evaluation) (turn : PriceOracleTurn) (latched : Latched base block turn) :
    Latched base block (evaluate conf base addresses turn evaluation) := by
  apply @isOracleTurnWithMsg_preserves (Latched base block) _ _ _ _ _ _ ?_ ?_ turn latched
  · intro turn latched
    have same : finalState (priceChangedBlocks conf (infoAt base evaluation) evaluation.exchangePrice) turn = turn := by
      have again : turn.priceChangePubBlock = (infoAt base evaluation).lastPubBlock ∧ turn.priceChangeBlock ≥ 0 :=
        ⟨latched.publication, latched.since ▸ latched.recorded⟩
      simp only [finalState, priceChangedBlocks, run_bind, run_get, run_ite, again, and_self, if_true, run_throw, run_pure]
      by_cases invalid : (infoAt base evaluation).lastPubBlock < 0 ∨ (infoAt base evaluation).blockNum < 0 <;> simp [invalid]
    rw [same]
    exact latched
  · exact fun turn latched => ⟨latched.publication, latched.since, latched.recorded⟩

private theorem run_disabled (run : List Evaluation) (turn : PriceOracleTurn) (disabled : turn.signal = .disabled) :
    (run.foldl (evaluate conf base addresses) turn).signal = .disabled :=
  @run_preserves _ _ _ (fun turn => turn.signal = .disabled)
    (fun turn evaluation => evaluate_disabled evaluation turn) run turn disabled

theorem run_latched {block : Int} (run : List Evaluation) (turn : PriceOracleTurn) (latched : Latched base block turn) :
    Latched base block (run.foldl (evaluate conf base addresses) turn) :=
  run_preserves (fun turn evaluation => evaluate_latched evaluation turn) run turn latched

private theorem checked_disabled {vi : OracleBlockchainInfo} {price : PriceWithTimestamp} {turn middle : PriceOracleTurn}
    {blocks : Option Int} (disabled : turn.signal = .disabled) (checked : Checked vi price turn blocks middle) : middle.signal = .disabled := by
  rcases checked.signal with same | same <;> rw [same, disabled]
  rfl

/-- How many oracles of the order the two windows admit together. -/
def level (conf : OracleTurnConfiguration) (vi : OracleBlockchainInfo) (blocks : Option Int) : Nat :=
  max
    (if windowStart conf vi .disabled ≤ vi.blockNum then
      admitted conf.enteringFallbacksAmounts vi.selectedOracles.length false (vi.blockNum - windowStart conf vi .disabled)
    else 0)
    (match blocks with
    | some count =>
      if conf.pricePublishBlocks ≤ count then
        admitted conf.enteringFallbacksAmounts vi.selectedOracles.length false (count - conf.pricePublishBlocks)
      else 0
    | none => 0)

private theorem mem_take_level {vi : OracleBlockchainInfo} {oracleAddr : String} {blocks : Option Int} :
    (verdict conf vi .disabled addresses false oracleAddr blocks).isTurn = true ↔
      oracleAddr ∈ addresses.take (level conf vi blocks) := by
  have either : ∀ few many : Nat, oracleAddr ∈ addresses.take (max few many) ↔
      oracleAddr ∈ addresses.take few ∨ oracleAddr ∈ addresses.take many := by
    intro few many
    constructor
    · intro member
      rcases max_choice few many with same | same <;> rw [same] at member
      · exact Or.inl member
      · exact Or.inr member
    · intro either
      rcases either with member | member
      · exact mem_take_of_le (le_max_left _ _) member
      · exact mem_take_of_le (le_max_right _ _) member
  unfold level
  rw [verdict_isTurn, either]
  apply or_congr
  · split
    next opened => simp [opened, Admits]
    next closed => simp [closed]
  · cases blocks with
    | none => simp
    | some count =>
      simp only [Option.some.injEq, exists_eq_left', Admits]
      split
      next waited => simp [waited]
      next early => simp [early]

/-- The oracles an evaluation would grant are an initial part of the order. -/
theorem granted_is_prefix (listed : ∀ address ∈ addresses, isOracleSelectedInRound base.selectedOracles address = true)
    (turn : PriceOracleTurn) (disabled : turn.signal = .disabled) (evaluation : Evaluation) :
    ∃ count, ∀ oracleAddr, Granted conf base addresses turn evaluation oracleAddr ↔ oracleAddr ∈ addresses.take count := by
  by_cases possible : conf.triggerValidPublicationBlocks ≤ base.validPricePeriodInBlocks ∧ addresses ≠ [] ∧
      ∃ blocks middle, priceChangedBlocks conf (infoAt base evaluation) evaluation.exchangePrice turn = .ok blocks middle
  · obtain ⟨enough, nonempty, blocks, middle, checked⟩ := possible
    have quiet := checked_disabled disabled (checked_of_ok checked)
    refine ⟨level conf (infoAt base evaluation) blocks, ?_⟩
    intro oracleAddr
    rw [← mem_take_level]
    constructor
    · intro granted
      obtain ⟨answer, after, evaluated, isTurn⟩ := granted
      obtain ⟨_, _, _, same, _, _, _, again, rfl, _⟩ := granted_cases evaluated isTurn
      obtain rfl := Option.some.inj same
      obtain ⟨rfl, rfl⟩ := EStateM.Result.ok.inj (checked.symm.trans again)
      rwa [quiet] at isTurn
    · intro isTurn
      have member := List.mem_of_mem_take (mem_take_level.mp isTurn)
      rw [← quiet] at isTurn
      exact ⟨_, _, @isOracleTurnWithMsg_eq _ (infoAt base evaluation) _ _ _ _ _ _ nonempty (listed oracleAddr member) enough checked
        false, isTurn⟩
  · refine ⟨0, ?_⟩
    intro oracleAddr
    simp only [List.take_zero, List.not_mem_nil, iff_false]
    intro granted
    obtain ⟨answer, after, evaluated, isTurn⟩ := granted
    obtain ⟨_, blocks, middle, same, _, enough, nonempty, checked, _, _⟩ := granted_cases evaluated isTurn
    obtain rfl := Option.some.inj same
    exact possible ⟨enough, nonempty, blocks, middle, checked⟩

/-- A later check of the price that ends counts on from the block where a change is recorded. -/
private theorem checked_later {turn middle reached : PriceOracleTurn} {blocks : Option Int} {early late : Evaluation}
    (later : early.blockNum ≤ late.blockNum) (can : CanCheck (infoAt base late) late.exchangePrice reached)
    (facts : Checked (infoAt base early) early.exchangePrice turn blocks middle)
    (latched : ∀ block, Latched base block middle → Latched base block reached) :
    ∃ blocks' middle', priceChangedBlocks conf (infoAt base late) late.exchangePrice reached = .ok blocks' middle' ∧
      ∀ count, blocks = some count → ∃ count', blocks' = some count' ∧ count ≤ count' := by
  have publication : 0 ≤ (infoAt base late).lastPubBlock := facts.publication
  have block : 0 ≤ (infoAt base late).blockNum := facts.block.trans later
  by_cases recorded : ∃ block, Latched base block middle
  · obtain ⟨since, recorded⟩ := recorded
    obtain ⟨same, start, positive⟩ := latched since recorded
    refine ⟨_, _, priceChangedBlocks_latched conf _ publication block same (start ▸ positive), fun count some => ?_⟩
    obtain ⟨_, _, rfl⟩ := facts.recorded count some
    refine ⟨_, rfl, ?_⟩
    rw [start, recorded.since]
    exact Int.sub_le_sub_right later since
  · obtain ⟨blocks', middle', answered⟩ := (@priceChangedBlocks_ok_iff conf _ _ _ publication block).mpr can
    refine ⟨blocks', middle', answered, fun count some => ?_⟩
    obtain ⟨same, positive, _⟩ := facts.recorded count some
    exact absurd ⟨_, same, rfl, positive⟩ recorded

private theorem granted_grows (sorted : conf.enteringFallbacksAmounts.Pairwise (· ≤ ·)) {turn : PriceOracleTurn}
    (disabled : turn.signal = .disabled) {early late : Evaluation} (between : List Evaluation)
    (later : early.blockNum ≤ late.blockNum)
    (listed : isOracleSelectedInRound base.selectedOracles early.oracleAddr = true)
    (can : CanCheck (infoAt base late) late.exchangePrice ((early :: between).foldl (evaluate conf base addresses) turn))
    {oracleAddr : String} (granted : Granted conf base addresses turn early oracleAddr) :
    Granted conf base addresses ((early :: between).foldl (evaluate conf base addresses) turn) late oracleAddr := by
  obtain ⟨answer, after, evaluated, isTurn⟩ := granted
  obtain ⟨_, blocks, middle, same, member, enough, nonempty, checked, rfl, _⟩ := granted_cases evaluated isTurn
  obtain rfl := Option.some.inj same
  have facts := checked_of_ok checked
  have quiet := checked_disabled disabled facts
  have first : evaluate conf base addresses turn early = settledTurn middle := by
    simp only [evaluate, finalState, @isOracleTurnWithMsg_eq _ (infoAt base early) _ _ _ _ _ _ nonempty listed enough checked]
  have run := @run_disabled conf base addresses (early :: between) turn disabled
  -- What the first evaluation counted from is still recorded when the later one starts.
  have latched : ∀ block, Latched base block middle →
      Latched base block ((early :: between).foldl (evaluate conf base addresses) turn) := by
    intro block recorded
    rw [List.foldl_cons, first]
    exact run_latched between _ ⟨recorded.publication, recorded.since, recorded.recorded⟩
  generalize (early :: between).foldl (evaluate conf base addresses) turn = reached at *
  obtain ⟨blocks', middle', checked', counted⟩ := @checked_later conf base _ _ _ _ _ _ later can facts latched
  have quiet' := checked_disabled run (checked_of_ok checked')
  refine ⟨_, _, @isOracleTurnWithMsg_eq _ (infoAt base late) _ _ _ _ _ _ nonempty member enough checked' false, ?_⟩
  rw [quiet, verdict_isTurn, windowStart_disabled] at isTurn
  rw [quiet', verdict_isTurn, windowStart_disabled]
  have le : (infoAt base early).blockNum ≤ (infoAt base late).blockNum := later
  rcases isTurn with ⟨opened, admits⟩ | ⟨count, some, waited, admits⟩
  · exact Or.inl ⟨opened.trans le, admits_later sorted rfl (Int.sub_le_sub_right le _) admits⟩
  · obtain ⟨count', some', grown⟩ := counted count some
    exact Or.inr ⟨count', some', waited.trans grown, admits_later sorted rfl (Int.sub_le_sub_right grown _) admits⟩

end Run

private theorem selected_in_round {selectedOracles : List FullOracleRoundInfo}
    (inRound : ∀ oracle ∈ selectedOracles, oracle.selectedInCurrentRound = true) {address : String}
    (member : address ∈ selectedOracles.map (·.addr.text)) : isOracleSelectedInRound selectedOracles address = true := by
  obtain ⟨oracle, listed, rfl⟩ := List.mem_map.mp member
  have nonempty : selectedOracles ≠ [] := List.ne_nil_of_mem listed
  have found : ∃ x ∈ selectedOracles, x.addr.text = oracle.addr.text := ⟨oracle, listed, rfl⟩
  simpa [isOracleSelectedInRound, nonempty, found] using fun x member _ => inRound x member

/-- Along every run of evaluations of one publication, the oracles granted a
turn are an initial part of the selection order, and a step whose price check
ends grants no fewer than any before. An outsider's evaluation ends before the
price is looked at, so it counts only as a later step. -/
theorem granted_prefixes_grow (conf : OracleTurnConfiguration) (sorted : conf.enteringFallbacksAmounts.Pairwise (· ≤ ·))
    (base : OracleBlockchainInfo) (few : base.selectedOracles.length ≤ 32)
    (inRound : ∀ oracle ∈ base.selectedOracles, oracle.selectedInCurrentRound = true)
    (turn : PriceOracleTurn) (disabled : turn.signal = .disabled) (run : List Evaluation)
    (ordered : (run.map (·.blockNum)).Pairwise (· ≤ ·)) :
    ∃ addresses, selectNextAddresses base.lastPubBlockHash base.selectedOracles = .ok addresses ∧
      (∀ before step after, run = before ++ step :: after →
        ∃ count, ∀ oracleAddr, Granted conf base addresses (before.foldl (evaluate conf base addresses) turn) step oracleAddr ↔
          oracleAddr ∈ addresses.take count) ∧
      ∀ before early between late after, run = before ++ early :: between ++ late :: after →
        early.oracleAddr ∈ base.selectedOracles.map (·.addr.text) →
        CanCheck (infoAt base late) late.exchangePrice ((before ++ early :: between).foldl (evaluate conf base addresses) turn) →
        ∀ oracleAddr, Granted conf base addresses (before.foldl (evaluate conf base addresses) turn) early oracleAddr →
        Granted conf base addresses ((before ++ early :: between).foldl (evaluate conf base addresses) turn) late oracleAddr := by
  obtain ⟨addresses, selected⟩ := selectNextAddresses_ok base.lastPubBlockHash few
  refine ⟨addresses, selected, ?_, ?_⟩
  · intro before step after _
    apply granted_is_prefix _ _ (run_disabled before turn disabled) step
    intro address member
    exact selected_in_round inRound ((selectNextAddresses_perm selected).subset member)
  · intro before early between late after split member can oracleAddr granted
    subst split
    rw [List.foldl_append] at can ⊢
    have later : early.blockNum ≤ late.blockNum := by
      rw [List.map_append, List.pairwise_append] at ordered
      exact ordered.2.2 _ (by simp) _ (by simp)
    exact granted_grows sorted (run_disabled before turn disabled) between later (selected_in_round inRound member) can granted

/-- A change recorded at block 100 lets the fallback in at block 103, and still
does at block 105, where the exchange price is beyond comparison. -/
theorem granted_prefixes_grow_two :
    let base := twoOracles 103 1000
    let turn : PriceOracleTurn := ⟨⟨"BTCUSD"⟩, .disabled, 100, 90⟩
    let early : Evaluation := ⟨103, ⟨2 * 10 ^ 18, .finite 1⟩, publishingAddr.text, false⟩
    let late : Evaluation := ⟨105, ⟨10 ^ 400, .finite 1⟩, chosenAddr.text, false⟩
    ∃ addresses, selectNextAddresses base.lastPubBlockHash base.selectedOracles = .ok addresses ∧
      Granted turnConf base addresses turn early publishingAddr.text ∧
      ∀ oracleAddr, Granted turnConf base addresses turn early oracleAddr →
        Granted turnConf base addresses (evaluate turnConf base addresses turn early) late oracleAddr := by
  intro base turn early late
  obtain ⟨addresses, selected, _, grows⟩ := granted_prefixes_grow turnConf (by decide) base (by decide)
    (by simp [base, twoOracles]) turn rfl [early, late] (by decide)
  obtain rfl := Except.ok.inj (twoOracles_order.symm.trans selected)
  have latched : Latched base 100 turn := ⟨rfl, rfl, by decide⟩
  have kept : Latched base 100 (evaluate turnConf base [chosenAddr.text, publishingAddr.text] turn early) :=
    evaluate_latched early turn latched
  have can : CanCheck (infoAt base late) late.exchangePrice (evaluate turnConf base [chosenAddr.text, publishingAddr.text] turn early) :=
    Or.inl ⟨kept.publication, kept.since ▸ kept.recorded⟩
  exact ⟨_, selected, ⟨_, _, rfl, rfl⟩, grows [] early [] late [] rfl (by decide) can⟩

/-- The fallback is let in before the price expires, and no more one block later,
where the exchange price is beyond comparison. -/
theorem far_price_shrinks_granted :
    let early : Evaluation := ⟨103, unmovedPrice, publishingAddr.text, false⟩
    let late : Evaluation := ⟨104, farPrice, publishingAddr.text, false⟩
    let addresses := [chosenAddr.text, publishingAddr.text]
    selectNextAddresses (twoOracles 103 30).lastPubBlockHash (twoOracles 103 30).selectedOracles = .ok addresses ∧
      Granted turnConf (twoOracles 103 30) addresses freshTurn early publishingAddr.text ∧
      ¬Granted turnConf (twoOracles 103 30) addresses
        (evaluate turnConf (twoOracles 103 30) addresses freshTurn early) late publishingAddr.text := by
  intro early late addresses
  refine ⟨twoOracles_order, ⟨_, _, expiring_granted, rfl⟩, ?_⟩
  have unmoved : evaluate turnConf (twoOracles 103 30) addresses freshTurn early = freshTurn := by
    have granted : isOracleTurnWithMsg turnConf (infoAt (twoOracles 103 30) early) early.oracleAddr addresses
        (some early.exchangePrice) early.onlyChosen freshTurn = .ok .selectedBeforeExpiry freshTurn := expiring_granted
    rw [evaluate, finalState, granted]
  rw [unmoved]
  intro granted
  obtain ⟨_, _, evaluated, _⟩ := granted
  have raised := far_raises (show (0 : Int) ≤ 104 by decide)
  cases raised.symm.trans evaluated

end OmocNode.Proofs.TurnRuns
