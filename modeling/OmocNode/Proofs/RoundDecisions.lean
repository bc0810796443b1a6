import OmocNode.LoopRounds
import OmocNode.Proofs.GatherSignatures
import OmocNode.Proofs.TaskTurns

/-! When a round of the loop publishes, what it publishes, and as which oracle of
the order. -/

namespace OmocNode.Proofs.RoundDecisions
open LoopRounds BlockchainInfo OracleTurn SelectNext Outcomes TurnWindows TaskTurns FallbackSequence RequestChecks GatherSignatures

variable {setting : Setting} {oracleAddr : String} {oracles : List FullOracleRoundInfo} {params : PublishParams}
  {fallbackIndex : Option Nat}

theorem logged_eq (signal : Signal) : signal.logged = settledSignal signal := by
  cases signal with
  | disabled => rfl
  | enabled service => simp only [Signal.logged, settledSignal, StateSwitches.offlineCfg_eq]

/-- The log line leaves a price runner's turn as a question about its signal does. -/
theorem coinPair_logged (runner : CoinPairRunner) : runner.logged = { runner with oracleTurn := settledTurn runner.oracleTurn } := by
  rw [CoinPairRunner.logged, logged_eq, settledTurn]

private theorem proceed_publish {vi : OracleBlockchainInfo} {turn : Bool × List String} {made : PublishParams}
    (published : proceed oracleAddr vi turn made = .publish oracles params fallbackIndex) :
    turn.1 = true ∧ oracles = vi.selectedOracles ∧ params = made ∧ fallbackIndex = turn.2.idxOf? oracleAddr := by
  unfold proceed at published
  split at published
  next granted =>
    obtain ⟨rfl, rfl, rfl⟩ := Decision.publish.inj published
    exact ⟨granted, rfl, rfl, rfl⟩
  next => cases published

/-- What a round has found when it publishes a price, and the turn object it leaves. -/
structure PricePublished (setting : Setting) (oracleAddr : String) (runner : CoinPairRunner) (oracles : List FullOracleRoundInfo)
    (params : PublishParams) (fallbackIndex : Option Nat) (vi : OracleBlockchainInfo) (own : PriceWithTimestamp)
    (order : List String) (after : PriceOracleTurn) : Prop where
  info : runner.blockchainInfo = some vi
  price : runner.lastPrice setting.time true = .ok (some own)
  dated : own.tsUtc.nonpositive = false
  turn : PriceOracleTurn.isOracleTurn setting.disableFallbacks runner.conf.turn vi oracleAddr (some own) runner.oracleTurn =
    .ok (true, order) after
  oracles : oracles = vi.selectedOracles
  params : params = .price (runner.preparePublishParams setting.now own vi oracleAddr)
  fallbackIndex : fallbackIndex = order.idxOf? oracleAddr

private theorem decisionPrice_publish {runner : CoinPairRunner} {vi : OracleBlockchainInfo} (info : runner.blockchainInfo = some vi)
    (published : (decisionPrice setting oracleAddr runner vi).1 = .ok (.publish oracles params fallbackIndex)) :
    ∃ own order after, PricePublished setting oracleAddr runner oracles params fallbackIndex vi own order after ∧
      (decisionPrice setting oracleAddr runner vi).2 = { runner with oracleTurn := settledTurn after } := by
  unfold decisionPrice CoinPairRunner.isOracleTurn at published ⊢
  rcases price : runner.lastPrice setting.time true with err | _ | own
  · simp only [price] at published
    cases published
  · simp only [price] at published
    cases published
  cases dated : own.tsUtc.nonpositive with
  | true =>
    simp only [price, dated, if_true] at published
    cases published
  | false =>
    cases asked : PriceOracleTurn.isOracleTurn setting.disableFallbacks runner.conf.turn vi oracleAddr (some own)
      runner.oracleTurn with
    | error err after =>
      simp only [price, dated, Bool.false_eq_true, if_false, asked] at published
      cases published
    | ok turn after =>
      simp only [price, dated, Bool.false_eq_true, if_false, asked] at published ⊢
      obtain ⟨_, _, proceeded⟩ := map_eq_ok_iff.mp published
      obtain ⟨granted, listed, made, index⟩ := proceed_publish proceeded
      obtain ⟨isTurn, order⟩ := turn
      obtain rfl : isTurn = true := granted
      exact ⟨own, order, after, ⟨info, price, dated, asked, listed, made, index⟩, coinPair_logged _⟩

/-- What a round has found when it publishes task flags, and the block it counts from. -/
structure TaskPublished (setting : Setting) (oracleAddr : String) (runner : TasksRunner) (oracles : List FullOracleRoundInfo)
    (params : PublishParams) (fallbackIndex : Option Nat) (vi : OracleBlockchainInfo) (order : List String) (since : Int) : Prop where
  info : runner.blockchainInfo = some vi
  available : runner.getAvailableTasksState.1 = true
  turn : TasksOracleTurn.isOracleTurn setting.disableFallbacks runner.conf.turn vi oracleAddr true (some since) = .ok (true, order)
  oracles : oracles = vi.selectedOracles
  params : params = .task (runner.preparePublishParams runner.getAvailableTasksState.2 vi oracleAddr)
  fallbackIndex : fallbackIndex = order.idxOf? oracleAddr

private theorem decisionTask_publish {runner : TasksRunner} {vi : OracleBlockchainInfo} (info : runner.blockchainInfo = some vi)
    (published : (decisionTask setting oracleAddr runner vi).1 = .ok (.publish oracles params fallbackIndex)) :
    ∃ order since, TaskPublished setting oracleAddr runner oracles params fallbackIndex vi order since ∧
      (decisionTask setting oracleAddr runner vi).2 = TasksRunner.logged { runner with lastBlockWhenAvailable := some since } := by
  unfold decisionTask TasksRunner.isOracleTurn at published ⊢
  rcases state : runner.getAvailableTasksState with ⟨available, flags⟩
  cases available with
  | false =>
    simp only [state, Bool.not_false, if_true] at published
    cases published
  | true =>
    cases asked : TasksOracleTurn.isOracleTurn setting.disableFallbacks runner.conf.turn vi oracleAddr true
      (some ((runner.lastBlockWhenAvailable.filter (· ≠ 0)).getD vi.blockNum)) with
    | error err =>
      simp only [state, Bool.not_true, Bool.false_eq_true, if_false, asked, Except.map] at published
      cases published
    | ok turn =>
      simp only [state, Bool.not_true, Bool.false_eq_true, if_false, asked, Except.map] at published ⊢
      obtain ⟨granted, listed, made, index⟩ := proceed_publish (Except.ok.inj published)
      obtain ⟨isTurn, order⟩ := turn
      obtain rfl : isTurn = true := granted
      exact ⟨order, _, ⟨info, by rw [state], asked, listed, by rw [state]; exact made, index⟩, rfl⟩

theorem decision_publish {runner : Runner}
    (published : (decision setting oracleAddr runner).1 = .ok (.publish oracles params fallbackIndex)) :
    (∃ roundInfo, setting.roundInfo = .ok roundInfo ∧ roundInfo.round ≠ 0) ∧
      ((∃ price vi own order after, runner = .coinPair price ∧
          PricePublished setting oracleAddr price oracles params fallbackIndex vi own order after ∧
          (decision setting oracleAddr runner).2 = .coinPair { price with oracleTurn := settledTurn after }) ∨
        ∃ tasks vi order since, runner = .tasks tasks ∧
          TaskPublished setting oracleAddr tasks oracles params fallbackIndex vi order since ∧
          (decision setting oracleAddr runner).2 = .tasks (TasksRunner.logged { tasks with lastBlockWhenAvailable := some since })) := by
  unfold decision at published ⊢
  split at published
  · cases published
  · cases published
  next roundInfo vi known info =>
    split at published
    · cases published
    next begun =>
      refine ⟨⟨roundInfo, known, begun⟩, ?_⟩
      cases runner with
      | coinPair price =>
        obtain ⟨own, order, after, found, left⟩ := decisionPrice_publish info published
        refine .inl ⟨price, vi, own, order, after, rfl, found, ?_⟩
        simp only [if_neg begun, Prod.map_snd, left]
      | tasks tasks =>
        obtain ⟨order, since, found, left⟩ := decisionTask_publish info published
        refine .inr ⟨tasks, vi, order, since, rfl, found, ?_⟩
        simp only [if_neg begun, Prod.map_snd, left]

section Places
variable {disableFallbacks : Bool} {conf : OracleTurnConfiguration} {vi : OracleBlockchainInfo} {order : List String}

/-- The oracle's place in the order, which is among those admitted since a block. -/
structure InTurn (disableFallbacks : Bool) (conf : OracleTurnConfiguration) (oracleAddr : String) (vi : OracleBlockchainInfo)
    (opened : Int) (order : List String) (place : Nat) : Prop where
  selected : selectNextAddresses vi.lastPubBlockHash vi.selectedOracles = .ok order
  here : order[place]? = some oracleAddr
  inRound : isOracleSelectedInRound vi.selectedOracles oracleAddr = true
  past : opened ≤ vi.blockNum
  admitted : place < admitted conf.enteringFallbacksAmounts vi.selectedOracles.length disableFallbacks (vi.blockNum - opened)

private theorem place_of_admits {opened : Int} (selected : selectNextAddresses vi.lastPubBlockHash vi.selectedOracles = .ok order)
    (inRound : isOracleSelectedInRound vi.selectedOracles oracleAddr = true) (past : opened ≤ vi.blockNum)
    (admits : Admits conf vi order disableFallbacks oracleAddr (vi.blockNum - opened)) :
    ∃ place, order.idxOf? oracleAddr = some place ∧ InTurn disableFallbacks conf oracleAddr vi opened order place := by
  obtain ⟨position, early, same⟩ := List.mem_take_iff_getElem.mp admits
  have inside : position < order.length := by omega
  obtain ⟨place, found⟩ := Option.isSome_iff_exists.mp (List.isSome_idxOf?.mpr (same ▸ List.getElem_mem inside))
  obtain ⟨within, here, first⟩ := List.idxOf?_eq_some_iff.mp found
  have before : place ≤ position := by
    by_contra later
    exact first position (by omega) same
  exact ⟨place, found, selected, List.getElem?_eq_some_iff.mpr ⟨within, here⟩, inRound, past, by omega⟩

/-- The blocks from which a price runner lets the oracles in, one after another. -/
def OpensPrice (conf : OracleTurnConfiguration) (vi : OracleBlockchainInfo) (turn : PriceOracleTurn) (opened : Int) : Prop :=
  opened = windowStart conf vi turn.signal ∨
    turn.priceChangePubBlock = vi.lastPubBlock ∧ opened = turn.priceChangeBlock + conf.pricePublishBlocks

private theorem windowStart_settledTurn (turn : PriceOracleTurn) :
    windowStart conf vi (settledTurn turn).signal = windowStart conf vi turn.signal := by
  simp [windowStart, settledTurn]

private theorem place_of_price_turn {own : PriceWithTimestamp} {turn after : PriceOracleTurn}
    (granted : PriceOracleTurn.isOracleTurn disableFallbacks conf vi oracleAddr (some own) turn = .ok (true, order) after) :
    ∃ opened place, OpensPrice conf vi (settledTurn after) opened ∧ order.idxOf? oracleAddr = some place ∧
      InTurn disableFallbacks conf oracleAddr vi opened order place := by
  obtain ⟨selected, answer, asked, isTurn⟩ := isOracleTurn_cases granted
  obtain ⟨_, blocks, middle, _, inRound, _, _, checked, rfl, rfl⟩ := granted_cases asked isTurn
  have settled : windowStart conf vi (settledTurn (settledTurn middle)).signal = windowStart conf vi middle.signal := by
    rw [windowStart_settledTurn, windowStart_settledTurn]
  rcases verdict_isTurn.mp isTurn with ⟨past, admits⟩ | ⟨count, counted, waited, admits⟩
  · obtain ⟨place, index, inTurn⟩ := place_of_admits selected inRound past admits
    exact ⟨_, place, .inl settled.symm, index, inTurn⟩
  · obtain ⟨recorded, _, rfl⟩ := (checked_of_ok checked).recorded count counted
    rw [Int.sub_sub] at admits
    obtain ⟨place, index, inTurn⟩ := place_of_admits selected inRound (by omega) admits
    exact ⟨_, place, .inr ⟨recorded, rfl⟩, index, inTurn⟩

private theorem place_of_task_turn {since : Int}
    (granted : TasksOracleTurn.isOracleTurn disableFallbacks conf vi oracleAddr true (some since) = .ok (true, order)) :
    ∃ place, order.idxOf? oracleAddr = some place ∧
      InTurn disableFallbacks conf oracleAddr vi (since + conf.pricePublishBlocks) order place := by
  obtain ⟨addresses, selected, rest⟩ := bind_eq_ok_iff.mp granted
  obtain ⟨verdict, asked, same⟩ := bind_eq_ok_iff.mp rest
  obtain ⟨isTurn, rfl⟩ := Prod.mk.inj (pure_eq_ok_iff.mp same)
  have inRound := (listed_of_granted asked isTurn).2
  have nonempty : addresses ≠ [] := by
    intro empty
    simp only [isOracleSelectedInRound, Bool.and_eq_true, List.any_eq_true] at inRound
    obtain ⟨⟨_, oracle, listed, _⟩, _⟩ := inRound
    have present := (Selection.selectNextAddresses_perm selected).mem_iff.mpr (List.mem_map_of_mem listed)
    rw [empty] at present
    cases present
  rw [isOracleTurnWithMsg_since nonempty inRound] at asked
  obtain rfl := Except.ok.inj asked
  rw [waitVerdict] at isTurn
  split at isTurn
  · cases isTurn
  next waited =>
    split at isTurn
    next admits =>
      rw [Int.sub_sub] at admits
      exact place_of_admits selected inRound (by omega) admits
    next => cases isTurn

end Places

def turnConfiguration : Runner → OracleTurnConfiguration
  | .coinPair runner => runner.conf.turn
  | .tasks runner => runner.conf.turn

/-- The block from which the runner lets the oracles in, after a round. -/
def Opens (vi : OracleBlockchainInfo) (opened : Int) : Runner → Prop
  | .coinPair runner => OpensPrice runner.conf.turn vi runner.oracleTurn opened
  | .tasks runner => ∃ since, runner.lastBlockWhenAvailable = some since ∧ opened = since + runner.conf.turn.pricePublishBlocks

/-- A node that publishes is in its turn, as it sees the chain. -/
theorem inTurn_of_publish {runner : Runner}
    (published : (decision setting oracleAddr runner).1 = .ok (.publish oracles params fallbackIndex)) :
    ∃ vi opened order place, blockchainInfo runner = some vi ∧ oracles = vi.selectedOracles ∧ params.oracleAddr = oracleAddr ∧
      params.lastPubBlock = vi.lastPubBlock ∧ fallbackIndex = some place ∧ Opens vi opened (decision setting oracleAddr runner).2 ∧
      InTurn setting.disableFallbacks (turnConfiguration runner) oracleAddr vi opened order place := by
  obtain ⟨-, ⟨price, vi, own, order, after, rfl, here, left⟩ | ⟨tasks, vi, order, since, rfl, here, left⟩⟩ :=
    decision_publish published
  · obtain ⟨opened, place, opens, index, inTurn⟩ := place_of_price_turn here.turn
    obtain rfl := here.params
    exact ⟨vi, opened, order, place, here.info, here.oracles, rfl, rfl, here.fallbackIndex.trans index, left ▸ opens, inTurn⟩
  · obtain ⟨place, index, inTurn⟩ := place_of_task_turn here.turn
    obtain rfl := here.params
    exact ⟨vi, _, order, place, here.info, here.oracles, rfl, rfl, here.fallbackIndex.trans index, left ▸ ⟨since, rfl, rfl⟩, inTurn⟩

/-- A node publishes with the oracles that it knows of, in a round that has begun
and in which it takes part, for the publication block that it knows of, and as
the oracle whose place in the order has been admitted since the runner's window
opened. With fallbacks disabled that is the first place. -/
theorem publishes_in_turn {runner : Runner}
    (published : (decision setting oracleAddr runner).1 = .ok (.publish oracles params fallbackIndex)) :
    ∃ roundInfo vi opened order place, setting.roundInfo = .ok roundInfo ∧ roundInfo.round ≠ 0 ∧ blockchainInfo runner = some vi ∧
      oracles = vi.selectedOracles ∧ params.oracleAddr = oracleAddr ∧ params.lastPubBlock = vi.lastPubBlock ∧
      fallbackIndex = some place ∧ Opens vi opened (decision setting oracleAddr runner).2 ∧
      InTurn setting.disableFallbacks (turnConfiguration runner) oracleAddr vi opened order place ∧
      (setting.disableFallbacks = true → place = 0) := by
  obtain ⟨⟨roundInfo, known, begun⟩, -⟩ := decision_publish published
  obtain ⟨vi, opened, order, place, info, listed, own, block, index, opens, inTurn⟩ := inTurn_of_publish published
  refine ⟨roundInfo, vi, opened, order, place, known, begun, info, listed, own, block, index, opens, inTurn, ?_⟩
  intro disabled
  have admitted := inTurn.admitted
  rw [disabled, FallbackSequence.admitted, if_pos rfl] at admitted
  omega

/-- Two nodes that see the same chain, where the first is chosen. -/
def sharedView : OracleBlockchainInfo :=
  { coinPair := ⟨"BTCUSD"⟩, selectedOracles := [publishingOracle, signingOracle], blockchainPrice := 990000000000000000
    blockNum := 500, lastPubBlock := 123, lastPubBlockHash := List.replicate 32 1, validPricePeriodInBlocks := 300 }

def sharedConfiguration : OracleConfiguration :=
  { turn := ⟨1 / 20, 1, [2, 4, 6, 8, 10], 30⟩, oraclePriceRejectDeltaPct := 50, priceSignatureExpirationSeconds := 300
    priceSignatureMinValiditySeconds := 30, priceSignatureMaxValiditySeconds := 600, taskMessageVersion := 1 }

def sharedPriceRunner (own : PriceWithTimestamp) : CoinPairRunner :=
  { conf := sharedConfiguration, coinPair := ⟨"BTCUSD"⟩, lastPrice := fun _ _ => .ok (some own), blockchainInfo := some sharedView
    oracleTurn := PriceOracleTurn.init ⟨"BTCUSD"⟩ .disabled }

def sharedRunner (own : PriceWithTimestamp) : Runner := .coinPair (sharedPriceRunner own)

def publishedPrice : PriceWithTimestamp := ⟨1000000000000000000, .finite 1700000000⟩

def publishingRound : LoopRounds.Setting :=
  { disableFallbacks := false, oracleCoinPairLoopTaskInterval := 5, roundInfo := .ok ⟨1, 1, 0, 0, [], []⟩
    time := .finite 1700000000, now := 1700000000 }

/-- What a round publishes, if it is a price. -/
def priceOf : Except PyError LoopRounds.Decision → Option (List FullOracleRoundInfo × PublishPriceParams × Option Nat)
  | .ok (.publish oracles (.price params) fallbackIndex) => some (oracles, params, fallbackIndex)
  | .ok (.publish _ (.task _) _) | .ok .wait | .error _ => none

theorem priceOf_eq_some {decided : Except PyError LoopRounds.Decision} {oracles : List FullOracleRoundInfo}
    {params : PublishPriceParams} {fallbackIndex : Option Nat} (priced : priceOf decided = some (oracles, params, fallbackIndex)) :
    decided = .ok (.publish oracles (.price params) fallbackIndex) := by
  unfold priceOf at priced
  split at priced
  · obtain ⟨rfl, rfl, rfl⟩ := priced
    rfl
  all_goals cases priced

theorem shared_publishes : (decision publishingRound requesterAddr.text (sharedRunner publishedPrice)).1 =
    .ok (.publish [publishingOracle, signingOracle] (.price exchangeParams) (some 0)) := by
  apply priceOf_eq_some
  decide +kernel

theorem publishes_in_turn_shared :
    ∃ roundInfo vi opened order place, publishingRound.roundInfo = .ok roundInfo ∧ roundInfo.round ≠ 0 ∧
      blockchainInfo (sharedRunner publishedPrice) = some vi ∧ [publishingOracle, signingOracle] = vi.selectedOracles ∧
      (PublishParams.price exchangeParams).oracleAddr = requesterAddr.text ∧
      (PublishParams.price exchangeParams).lastPubBlock = vi.lastPubBlock ∧ some 0 = some place ∧
      Opens vi opened (decision publishingRound requesterAddr.text (sharedRunner publishedPrice)).2 ∧
      InTurn publishingRound.disableFallbacks (turnConfiguration (sharedRunner publishedPrice)) requesterAddr.text vi opened order
        place ∧
      (publishingRound.disableFallbacks = true → place = 0) :=
  publishes_in_turn shared_publishes

end OmocNode.Proofs.RoundDecisions
