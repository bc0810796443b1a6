import OmocNode.BlockchainInfoLoop
import OmocNode.Runs

/-! What the node knows of the chain follows the answers in the order in which
they come, not in the order of the chain: a late answer takes the node back. -/

namespace OmocNode.Proofs.ChainView
open BlockchainInfo BlockchainInfoLoop Runs

variable {setting : Setting} {state final : State} {events earlier later : List Event}

/-- The moments that the answers with data tell of, in the order they come. -/
def answers (setting : Setting) (events : List Event) : List ℕ :=
  events.filterMap fun event => match event with
    | .answer _ moment => if (setting.data moment).isSome then some moment else none
    | _ => none

/-- As the contracts move on, neither the block nor that of the last publication goes back. -/
structure Growing (history : ℕ → Chain) : Prop where
  serverInfo : ∀ s t, s ≤ t → ∀ first second, (history s).getOracleServerInfo = .ok first →
    (history t).getOracleServerInfo = .ok second →
      first.currentBlock ≤ second.currentBlock ∧ first.lastPubBlock ≤ second.lastPubBlock
  lastPublicationBlock : ∀ s t, s ≤ t → ∀ first second, (history s).getLastPublicationBlock = .ok first →
    (history t).getLastPublicationBlock = .ok second → first ≤ second

private theorem oneBigRequest_blocks {chain : Chain} {coinPair : CoinPair} {vi : ReadInfo}
    (read : getBlockingOneBigRequest chain coinPair = some vi) :
    ∃ data, chain.getOracleServerInfo = .ok data ∧ vi.blockNum = data.currentBlock ∧ vi.lastPubBlock = data.lastPubBlock := by
  unfold getBlockingOneBigRequest Chain.oracleServerInfo at read
  cases answered : chain.getOracleServerInfo with
  | error err =>
    rw [answered] at read
    cases read
  | ok data =>
    rw [answered] at read
    cases read
    exact ⟨data, rfl, rfl, rfl⟩

private theorem parallelRequests_blocks {chain : Chain} {coinPair : CoinPair} {vi : ReadInfo}
    (read : getBlockingParallelRequests chain coinPair = some vi) :
    ∃ block, chain.getLastPublicationBlock = .ok block ∧ vi.blockNum = block ∧ vi.lastPubBlock = block := by
  unfold getBlockingParallelRequests at read
  split at read
  next block _ _ _ answered _ =>
    cases read
    exact ⟨block, answered, rfl, rfl⟩
  next => contradiction

/-- What is read of a later moment is not behind what is read of an earlier one. -/
theorem data_grows (growing : Growing setting.history) {s t : ℕ} (ordered : s ≤ t) {old new : ReadInfo}
    (first : setting.data s = some old) (second : setting.data t = some new) :
    old.blockNum ≤ new.blockNum ∧ old.lastPubBlock ≤ new.lastPubBlock := by
  unfold Setting.data at first second
  split at first
  next available =>
    rw [if_pos available] at second
    obtain ⟨before, readBefore, oldBlock, oldPub⟩ := oneBigRequest_blocks first
    obtain ⟨after, readAfter, newBlock, newPub⟩ := oneBigRequest_blocks second
    have grown := growing.serverInfo s t ordered before after readBefore readAfter
    rw [oldBlock, oldPub, newBlock, newPub]
    exact_mod_cast grown
  next unavailable =>
    rw [if_neg unavailable] at second
    obtain ⟨before, readBefore, oldBlock, oldPub⟩ := parallelRequests_blocks first
    obtain ⟨after, readAfter, newBlock, newPub⟩ := parallelRequests_blocks second
    have grown := growing.lastPublicationBlock s t ordered before after readBefore readAfter
    rw [oldBlock, oldPub, newBlock, newPub]
    exact_mod_cast And.intro grown grown

/-- Only an answer changes what the node knows. -/
theorem step_info {event : Event} {next : State} (stepped : step setting state event = some next) :
    next.blockchainInfo = ((answers setting [event]).getLast?.bind setting.data).or state.blockchainInfo := by
  cases event with
  | tick =>
    obtain rfl := Option.some.inj stepped
    rfl
  | run time =>
    rw [step] at stepped
    split at stepped
    · obtain rfl := Option.some.inj stepped
      unfold State.run
      split
      · rfl
      · split <;> rfl
    · contradiction
  | publish time =>
    rw [step] at stepped
    split at stepped
    · obtain rfl := Option.some.inj stepped
      rfl
    · contradiction
  | answer issuer moment =>
    rw [step] at stepped
    split at stepped
    · contradiction
    · split at stepped
      · obtain rfl := Option.some.inj stepped
        cases data : setting.data moment with
        | none => simp [answers, data, State.answered]
        | some vi => simp [answers, data, State.answered]
      · contradiction
  | fail issuer =>
    rw [step] at stepped
    split at stepped
    · contradiction
    · obtain rfl := Option.some.inj stepped
      rfl

private theorem answers_append (setting : Setting) (earlier later : List Event) :
    answers setting (earlier ++ later) = answers setting earlier ++ answers setting later := List.filterMap_append

private theorem answers_data {moment : ℕ} (member : moment ∈ answers setting events) : ∃ vi, setting.data moment = some vi := by
  obtain ⟨event, -, told⟩ := List.mem_filterMap.mp member
  split at told
  · split at told
    · obtain rfl := Option.some.inj told
      exact Option.isSome_iff_exists.mp ‹_›
    · contradiction
  · contradiction

/-- After a run the node knows what the last answer told, or what it knew before. -/
theorem run_info (ran : run (step setting) state events = some final) :
    final.blockchainInfo = ((answers setting events).getLast?.bind setting.data).or state.blockchainInfo := by
  induction events generalizing state with
  | nil =>
    obtain rfl := Option.some.inj ran
    rfl
  | cons event events ih =>
    obtain ⟨next, stepped, rest⟩ := run_cons_eq_some.mp ran
    have parts : answers setting (event :: events) = answers setting [event] ++ answers setting events :=
      answers_append setting [event] events
    rw [ih rest, step_info stepped, parts, List.getLast?_append]
    cases last : (answers setting events).getLast? with
    | none => rfl
    | some moment =>
      obtain ⟨vi, told⟩ := answers_data (List.mem_of_getLast? last)
      simp only [Option.bind_some, told, Option.some_or]

/-- What the node knows is what the last answer told. -/
theorem initial_run_info (ran : run (step setting) State.initial events = some final) {vi : ReadInfo}
    (known : final.blockchainInfo = some vi) :
    ∃ moment, (answers setting events).getLast? = some moment ∧ setting.data moment = some vi := by
  rw [run_info ran] at known
  cases last : (answers setting events).getLast? with
  | none =>
    rw [last] at known
    cases known
  | some moment =>
    obtain ⟨told, data⟩ := answers_data (List.mem_of_getLast? last)
    rw [last, Option.bind_some, data, Option.some_or] at known
    exact ⟨moment, rfl, data.trans known⟩

/-- In a list in order no earlier part ends above the end of the whole. -/
theorem getLast?_le {first second : List ℕ} {s t : ℕ} (inOrder : (first ++ second).Pairwise (· ≤ ·))
    (earlier : first.getLast? = some s) (whole : (first ++ second).getLast? = some t) : s ≤ t := by
  rw [List.getLast?_append] at whole
  cases last : second.getLast? with
  | none =>
    rw [last, Option.none_or, earlier] at whole
    exact (Option.some.inj whole).le
  | some moment =>
    rw [last, Option.some_or] at whole
    obtain rfl := Option.some.inj whole
    exact (List.pairwise_append.mp inOrder).2.2 s (List.mem_of_getLast? earlier) moment (List.mem_of_getLast? last)

/-- As long as the answers come in the order of the moments they tell of, the node's view only moves on. -/
theorem view_moves_on {before after : State} {old new : ReadInfo} (growing : Growing setting.history)
    (inOrder : (answers setting (earlier ++ later)).Pairwise (· ≤ ·))
    (reached : run (step setting) State.initial earlier = some before) (continued : run (step setting) before later = some after)
    (knew : before.blockchainInfo = some old) (knows : after.blockchainInfo = some new) :
    old.blockNum ≤ new.blockNum ∧ old.lastPubBlock ≤ new.lastPubBlock := by
  have ran : run (step setting) State.initial (earlier ++ later) = some after := run_append_eq_some.mpr ⟨before, reached, continued⟩
  obtain ⟨s, lastBefore, readBefore⟩ := initial_run_info reached knew
  obtain ⟨t, lastAfter, readAfter⟩ := initial_run_info ran knows
  rw [answers_append] at inOrder lastAfter
  exact data_grows growing (getLast?_le inOrder lastBefore lastAfter) readBefore readAfter

/-- The InfoGetter's answer on a pair without oracles, in one block and after another. -/
def published (currentBlock lastPubBlock : ℕ) : Chain :=
  { getRoundInfo := .error ⟨"no round"⟩, getPrice := .ok 64000, getLastPublicationBlock := .ok lastPubBlock
    getValidPricePeriodInBlocks := .ok 60, getOracleRoundInfo := fun _ => .ok (0, false)
    getOracleRegistrationInfo := fun _ => .error ⟨"not registered"⟩, getBlock := fun _ => .ok (List.replicate 32 1)
    getOracleServerInfo := .ok
      { round := 3, startBlock := 1, lockPeriodTimestamp := 0, totalPoints := 9, info := [], price := 64000, currentBlock, lastPubBlock
        lastPubBlockHash := List.replicate 32 1, validPricePeriodInBlocks := 60 } }

def republished : Setting :=
  { history := fun moment => published (10 * moment + 12) (10 * moment + 5)
    coinPair := ⟨"BTCUSD"⟩, isInfoServiceAvailable := true, oracleBlockchainInfoInterval := 2 }

private theorem republished_growing : Growing republished.history := by
  constructor
  all_goals
    intro s t ordered first second read readLater
    obtain rfl := Except.ok.inj read
    obtain rfl := Except.ok.inj readLater
    grind

/-- The loop's answer comes after the publication's, and tells of the same moment. -/
theorem view_moves_on_republished :
    ∃ before after old new,
      run (step republished) State.initial [.run (.finite 100), .tick, .publish (.finite 101), .answer .publish 1] = some before ∧
      run (step republished) before [.answer .run 1] = some after ∧
      before.blockchainInfo = some old ∧ after.blockchainInfo = some new ∧
      old.blockNum ≤ new.blockNum ∧ old.lastPubBlock ≤ new.lastPubBlock := by
  have inOrder : (answers republished
      ([.run (.finite 100), .tick, .publish (.finite 101), .answer .publish 1] ++ [.answer .run 1])).Pairwise (· ≤ ·) := by decide
  exact ⟨_, _, _, _, rfl, rfl, rfl, rfl, view_moves_on republished_growing inOrder rfl rfl rfl rfl⟩

/-- The answer to the publication's request comes first, then the one to the
request that the loop made before it. -/
theorem late_answer_goes_back : Growing republished.history ∧
    ∃ before after old new,
      run (step republished) State.initial [.run (.finite 100), .tick, .publish (.finite 101), .answer .publish 1] = some before ∧
      run (step republished) before [.answer .run 0] = some after ∧
      before.blockchainInfo = some old ∧ after.blockchainInfo = some new ∧
      new.blockNum < old.blockNum ∧ new.lastPubBlock < old.lastPubBlock :=
  ⟨republished_growing, _, _, _, _, rfl, rfl, rfl, rfl, by decide, by decide⟩

end OmocNode.Proofs.ChainView
