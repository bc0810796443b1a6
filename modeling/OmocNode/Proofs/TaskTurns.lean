import OmocNode.Proofs.Outcomes
import OmocNode.Proofs.TurnWindows

/-! Whose turn it is to run tasks. An oracle other than the chosen one waits,
from the block at which the node that is asked says the tasks were there. -/

namespace OmocNode.Proofs.TaskTurns
open OracleTurn SelectNext TasksOracleTurn FallbackSequence TurnWindows Selection Outcomes Countdown

variable {conf : OracleTurnConfiguration} {vi : OracleBlockchainInfo} {oracleAddr first : String} {addresses rest : List String}
  {areTasksAvailable onlyChosen : Bool} {lastBlockWhenAvailable : Option Int} {verdict : TurnVerdict}

/-- The verdict on an oracle of the round while there are tasks. -/
def waitVerdict (conf : OracleTurnConfiguration) (vi : OracleBlockchainInfo) (oracleAddr : String) (addresses : List String)
    (onlyChosen : Bool) (since : Int) : TurnVerdict :=
  if vi.blockNum - since < conf.pricePublishBlocks then .waiting conf.pricePublishBlocks (vi.blockNum - since)
  else if Admits conf vi addresses onlyChosen oracleAddr (vi.blockNum - since - conf.pricePublishBlocks) then
    .selectedForTask (vi.blockNum - since) conf.pricePublishBlocks
  else .notChosenFallback (vi.blockNum - since) conf.pricePublishBlocks

theorem isOracleTurnWithMsg_since (nonempty : addresses ≠ [])
    (listed : isOracleSelectedInRound vi.selectedOracles oracleAddr = true) (since : Int) :
    isOracleTurnWithMsg conf vi oracleAddr addresses true (some since) onlyChosen =
      .ok (waitVerdict conf vi oracleAddr addresses onlyChosen since) := by
  simp only [isOracleTurnWithMsg, listed, Bool.not_true, Bool.false_eq_true, if_false, waitVerdict]
  by_cases waiting : vi.blockNum - since < conf.pricePublishBlocks
  · simp only [waiting, if_true]
    rfl
  · have late : 0 ≤ vi.blockNum - since - conf.pricePublishBlocks := by omega
    simp only [waiting, if_false, canOraclePublish_admits nonempty conf vi oracleAddr onlyChosen late, bind, Except.bind, pure,
      Except.pure]
    by_cases admits : Admits conf vi addresses onlyChosen oracleAddr (vi.blockNum - since - conf.pricePublishBlocks)
    · simp only [admits, decide_true, if_true]
    · simp only [admits, decide_false, Bool.false_eq_true, if_false]

theorem isOracleTurnWithMsg_unlisted (unlisted : isOracleSelectedInRound vi.selectedOracles oracleAddr = false) :
    isOracleTurnWithMsg conf vi oracleAddr addresses true lastBlockWhenAvailable onlyChosen = .ok .notInCurrentRound := by
  simp only [isOracleTurnWithMsg, unlisted, Bool.not_true, Bool.not_false, Bool.false_eq_true, if_false, if_true]

/-- A turn is granted while there are tasks, to an oracle of the round. -/
theorem listed_of_granted (granted : isOracleTurnWithMsg conf vi oracleAddr addresses areTasksAvailable lastBlockWhenAvailable
    onlyChosen = .ok verdict) (isTurn : verdict.isTurn = true) :
    areTasksAvailable = true ∧ isOracleSelectedInRound vi.selectedOracles oracleAddr = true := by
  cases areTasksAvailable with
  | false =>
    obtain rfl := Except.ok.inj granted
    cases isTurn
  | true =>
    cases listed : isOracleSelectedInRound vi.selectedOracles oracleAddr with
    | true => exact ⟨rfl, rfl⟩
    | false =>
      rw [isOracleTurnWithMsg_unlisted listed] at granted
      obtain rfl := Except.ok.inj granted
      cases isTurn

/-- Only the first oracle of the order is let in without a block of waiting. -/
theorem first_of_admits_zero (admits : Admits conf vi (first :: rest) onlyChosen oracleAddr 0) : oracleAddr = first := by
  have one : admitted conf.enteringFallbacksAmounts vi.selectedOracles.length onlyChosen 0 = 1 := by
    rw [admitted]
    split
    · rfl
    · rw [width, Int.toNat_zero, Nat.zero_min, getFallbackSequence_eq]
      split <;> rfl
  rw [Admits, one] at admits
  simpa using admits

/-- A turn granted to a fallback is counted from a block, and comes after more than the waiting time. -/
theorem fallback_waited (granted : isOracleTurnWithMsg conf vi oracleAddr (first :: rest) areTasksAvailable lastBlockWhenAvailable
    onlyChosen = .ok verdict) (isTurn : verdict.isTurn = true) (fallback : first ≠ oracleAddr) :
    areTasksAvailable = true ∧ ∃ since, lastBlockWhenAvailable = some since ∧ conf.pricePublishBlocks + 1 ≤ vi.blockNum - since := by
  obtain ⟨rfl, listed⟩ := listed_of_granted granted isTurn
  cases lastBlockWhenAvailable with
  | none => simp [isOracleTurnWithMsg, listed] at granted
  | some since =>
    rw [isOracleTurnWithMsg_since (List.cons_ne_nil _ _) listed] at granted
    obtain rfl := Except.ok.inj granted
    refine ⟨rfl, since, rfl, ?_⟩
    rw [waitVerdict] at isTurn
    split at isTurn
    · cases isTurn
    next waited =>
      split at isTurn
      next admits =>
        by_contra early
        have now : vi.blockNum - since - conf.pricePublishBlocks = 0 := by omega
        rw [now] at admits
        exact fallback (first_of_admits_zero admits).symm
      next => cases isTurn

/-- Without a block to count from, the check fails; in every other case it has a verdict. -/
theorem isOracleTurnWithMsg_ok (counted : areTasksAvailable = true → lastBlockWhenAvailable ≠ none) :
    ∃ verdict, isOracleTurnWithMsg conf vi oracleAddr (first :: rest) areTasksAvailable lastBlockWhenAvailable onlyChosen =
      .ok verdict := by
  cases areTasksAvailable with
  | false => exact ⟨_, rfl⟩
  | true =>
    obtain ⟨since, rfl⟩ := Option.ne_none_iff_exists'.mp (counted rfl)
    cases listed : isOracleSelectedInRound vi.selectedOracles oracleAddr with
    | true => exact ⟨_, isOracleTurnWithMsg_since (List.cons_ne_nil _ _) listed since⟩
    | false => exact ⟨_, isOracleTurnWithMsg_unlisted listed⟩

theorem validateTurn_fallback (order : selectNextAddresses vi.lastPubBlockHash vi.selectedOracles = .ok (first :: rest))
    (fallback : first ≠ oracleAddr) : validateTurn conf vi oracleAddr areTasksAvailable lastBlockWhenAvailable =
      isOracleTurnWithMsg conf vi oracleAddr (first :: rest) areTasksAvailable lastBlockWhenAvailable false := by
  simp [validateTurn, order, isSelectedOracle, bind, Except.bind, fallback]

/-- An oracle that is granted a turn is one of the selected ones. -/
theorem selected_of_granted (granted : validateTurn conf vi oracleAddr areTasksAvailable lastBlockWhenAvailable = .ok verdict)
    (isTurn : verdict.isTurn = true) : ∃ oracle ∈ vi.selectedOracles, oracle.addr.text = oracleAddr := by
  obtain ⟨addresses, order, rest⟩ := bind_eq_ok_iff.mp granted
  obtain ⟨chosen, asked, answered⟩ := bind_eq_ok_iff.mp rest
  cases addresses with
  | nil => cases asked
  | cons first others =>
    obtain rfl := Except.ok.inj asked
    by_cases same : first = oracleAddr
    · apply List.mem_map.mp
      rw [← (selectNextAddresses_perm order).mem_iff, ← same]
      exact List.mem_cons_self
    · simp only [beq_eq_false_iff_ne.mpr same, Bool.false_eq_true, if_false] at answered
      have listed := (listed_of_granted answered isTurn).2
      simp only [isOracleSelectedInRound, Bool.and_eq_true, List.any_eq_true, beq_iff_eq] at listed
      exact listed.1.2

end OmocNode.Proofs.TaskTurns
