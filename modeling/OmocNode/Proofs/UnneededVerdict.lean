import Mathlib.Data.List.Induction
import OmocNode.Proofs.FetchOutcomes

/-! What it means that the price is not needed: no contract that was asked has
anything pending, and the endpoint's last answer does not force a publication. -/

namespace OmocNode.Proofs.UnneededVerdict
open ConditionalPublishService StateFrame StateSwitches FetchOutcomes

/-- What the contracts are asked, in the order in which they are asked. -/
inductive Condition
  | v3QueueIsEmpty
  | v3ShouldCalculateEma
  | v3NextTCInterestPayment
  | v3NextSettlementTime
  | queueIsEmpty
  | shouldCalculateEma
  | nextTCInterestPayment
  deriving DecidableEq

namespace Condition

def all : List Condition :=
  [v3QueueIsEmpty, v3ShouldCalculateEma, v3NextTCInterestPayment, v3NextSettlementTime, queueIsEmpty, shouldCalculateEma,
    nextTCInterestPayment]

def addresses (cfg : ConditionalConfig) : Condition → List String
  | v3QueueIsEmpty => cfg.mocV3QueueIsEmpty
  | v3ShouldCalculateEma => cfg.mocV3ShouldCalculateEma
  | v3NextTCInterestPayment => cfg.mocV3TcInterestPayment
  | v3NextSettlementTime => cfg.mocV3SettlementTime
  | queueIsEmpty => cfg.mocQueue
  | shouldCalculateEma => cfg.mocEma
  | nextTCInterestPayment => cfg.mocBaseBucket

def signature : Condition → String
  | v3QueueIsEmpty | queueIsEmpty => ConditionalPublishService.queueIsEmpty
  | v3ShouldCalculateEma | shouldCalculateEma => ConditionalPublishService.shouldCalculateEma
  | v3NextTCInterestPayment | nextTCInterestPayment => ConditionalPublishService.nextTCInterestPayment
  | v3NextSettlementTime => nextSettlementTime

/-- An answer that makes a price needed. V2 pays interest by blocks, V3 by time. -/
def Active (block timestamp : Nat) (output : Output) : Condition → Prop
  | v3QueueIsEmpty | queueIsEmpty => output.number = 0
  | v3ShouldCalculateEma | shouldCalculateEma => output.number ≠ 0
  | v3NextTCInterestPayment | v3NextSettlementTime => output.number < timestamp
  | nextTCInterestPayment => output.number < block

instance (block timestamp : Nat) (output : Output) : (condition : Condition) → Decidable (condition.Active block timestamp output)
  | v3QueueIsEmpty | queueIsEmpty => inferInstanceAs (Decidable (output.number = 0))
  | v3ShouldCalculateEma | shouldCalculateEma => inferInstanceAs (Decidable (output.number ≠ 0))
  | v3NextTCInterestPayment | v3NextSettlementTime => inferInstanceAs (Decidable (output.number < timestamp))
  | nextTCInterestPayment => inferInstanceAs (Decidable (output.number < block))

end Condition

/-- The questions of one fetch: each condition with the contracts it is asked
of, but for the addresses that are not valid. -/
def questions (cfg : ConditionalConfig) (fix : String → Option String) : List (Condition × Call) :=
  Condition.all.flatMap fun condition =>
    (callConditionBase fix (condition.addresses cfg) condition.signature).map (condition, ·)

private theorem questions_calls (cfg : ConditionalConfig) (fix : String → Option String) :
    (questions cfg fix).map Prod.snd = (conditionCalls cfg fix).flatten := by
  simp only [questions, List.map_flatMap, List.map_map, Function.comp_def, List.map_id']
  rfl

section Partition
variable {κ β γ : Type} {holds : κ → γ → Prop}

theorem exists_zip_const_iff (label : κ) {items : List β} {outputs : List γ} (counted : outputs.length = items.length) :
    (∃ pair ∈ (items.map (label, ·)).zip outputs, holds pair.1.1 pair.2) ↔ ∃ output ∈ outputs, holds label output := by
  have second : ((items.map (label, ·)).zip outputs).map Prod.snd = outputs := by
    rw [List.map_snd_zip]
    simp [counted]
  constructor
  · intro zipped
    obtain ⟨⟨⟨_, item⟩, output⟩, member, here⟩ := zipped
    obtain ⟨asked, answer⟩ := List.of_mem_zip member
    obtain ⟨_, _, same⟩ := List.mem_map.mp asked
    cases same
    exact ⟨output, answer, here⟩
  · intro labelled
    obtain ⟨output, member, here⟩ := labelled
    rw [← second] at member
    obtain ⟨⟨⟨_, item⟩, _⟩, paired, rfl⟩ := List.mem_map.mp member
    obtain ⟨_, _, same⟩ := List.mem_map.mp (List.of_mem_zip paired).1
    cases same
    exact ⟨_, paired, here⟩

/-- Outputs in the order of the questions, and the same outputs in groups of the
questions' lengths, answer the same. -/
theorem exists_zip_flatMap_iff (label : κ → List β) (labels : List κ) {outputs : List γ}
    (counted : outputs.length = (labels.flatMap label).length) :
    (∃ pair ∈ (labels.flatMap fun key => (label key).map (key, ·)).zip outputs, holds pair.1.1 pair.2) ↔
      ∃ group ∈ labels.zip ((labels.map fun key => (label key).length).splitLengths outputs),
        ∃ output ∈ group.2, holds group.1 output := by
  induction labels generalizing outputs with
  | nil => simp
  | cons key labels ih =>
    rw [List.flatMap_cons, List.length_append] at counted
    have first : (outputs.take (label key).length).length = (label key).length := List.length_take_of_le (by omega)
    have rest : (outputs.drop (label key).length).length = (labels.flatMap label).length := by
      rw [List.length_drop]
      omega
    rw [List.flatMap_cons, List.map_cons, List.splitLengths_cons, List.zip_cons_cons, List.exists_mem_cons_iff, ← ih rest,
      ← exists_zip_const_iff key first]
    conv_lhs => rw [← List.take_append_drop (label key).length outputs]
    rw [List.zip_append (by rw [List.length_map, first])]
    simp only [List.mem_append, or_and_right, exists_or]

end Partition

section Decoded
variable {blockTimestamp : Nat → Except PyError Nat} {block timestamp : Nat}

private theorem anyBelow_decoded (bound : Nat) (outputs : List Output) :
    anyBelow bound (outputs.map some) = .ok (decide (∃ output ∈ outputs, output.number < bound)) := by
  induction outputs with
  | nil => rfl
  | cons output outputs ih =>
    rw [List.map_cons, anyBelow, ih]
    by_cases below : output.number < bound <;> simp [below]

private theorem orBelow_decoded (bound : Nat) (outputs : List Output) (next : Except PyError Bool) :
    orBelow bound (outputs.map some) next = if ∃ output ∈ outputs, output.number < bound then .ok true else next := by
  rw [orBelow, anyBelow_decoded]
  by_cases found : ∃ output ∈ outputs, output.number < bound <;> simp [found, bind, Except.bind, pure, Except.pure]

private theorem compareAll_decoded (timed : blockTimestamp block = .ok timestamp) (v3NextTc v3NextSt nextTc : List Output) :
    compareAll blockTimestamp block (v3NextTc.map some) (v3NextSt.map some) (nextTc.map some) =
      .ok (decide ((∃ output ∈ nextTc, output.number < block) ∨ (∃ output ∈ v3NextTc, output.number < timestamp) ∨
        ∃ output ∈ v3NextSt, output.number < timestamp)) := by
  rw [compareAll, orBelow_decoded]
  by_cases blocks : ∃ output ∈ nextTc, output.number < block
  · simp [blocks]
  by_cases asked : v3NextTc = [] ∧ v3NextSt = []
  · obtain ⟨rfl, rfl⟩ := asked
    simp [blocks]
  · have some : ¬((v3NextTc.map some).isEmpty && (v3NextSt.map some).isEmpty) = true := by simpa using asked
    rw [if_neg blocks, if_neg some, timed]
    simp only [bind, Except.bind, orBelow_decoded, anyBelow_decoded]
    by_cases times : ∃ output ∈ v3NextTc, output.number < timestamp <;> simp [blocks, times]

private theorem pending_decoded (v3IsEmpty v3CalcEma isEmpty calcEma : List Output) :
    Pending (v3IsEmpty.map some) (v3CalcEma.map some) (isEmpty.map some) (calcEma.map some) ↔
      (∃ output ∈ v3IsEmpty, output.number = 0) ∨ (∃ output ∈ v3CalcEma, output.number ≠ 0) ∨
        (∃ output ∈ isEmpty, output.number = 0) ∨ ∃ output ∈ calcEma, output.number ≠ 0 := by
  simp [pending_iff, Output.truthy]

/-- The conditions of a fetch whose outputs are all decoded. -/
theorem getConditionActive_decoded (timed : blockTimestamp block = .ok timestamp) {groups : List (List Output)}
    (seven : groups.length = Condition.all.length) :
    ∃ active, getConditionActive blockTimestamp (some (groups.map (List.map some))) (some block) = .ok active ∧
      (active = true ↔ ∃ group ∈ Condition.all.zip groups, ∃ output ∈ group.2, group.1.Active block timestamp output) := by
  match groups, seven with
  | [v3IsEmpty, v3CalcEma, v3NextTc, v3NextSt, isEmpty, calcEma, nextTc], _ =>
    simp only [List.map_cons, List.map_nil, getConditionActive_eq, compareAll_decoded timed, Condition.all, List.zip_cons_cons,
      List.zip_nil_right, List.exists_mem_cons_iff, List.not_mem_nil, false_and, exists_false, or_false, Condition.Active]
    by_cases pending : Pending (v3IsEmpty.map some) (v3CalcEma.map some) (isEmpty.map some) (calcEma.map some)
    · refine ⟨true, if_pos pending, iff_of_true rfl ?_⟩
      rw [pending_decoded] at pending
      grind
    · refine ⟨_, if_neg pending, ?_⟩
      rw [pending_decoded] at pending
      grind

end Decoded

section Endpoint

/-- The boolean that an answer of the endpoint stands for, if it stands for one. -/
def endpointBoolean : EndpointAnswer → Option Bool
  | .failed => none
  | .payload text loaded => ConditionalConfig.parseOfflineCfgResponse text loaded

/-- What a fetch obtains from the endpoint, which it asks if no condition is active. -/
def obtained (cfg : ConditionalConfig) : Event → Option Bool
  | .offlineCfg => none
  | .fetch answers =>
    match fetchOutcome cfg answers, cfg.oracleOfflineCfgEndpoint with
    | .evaluated _ _ false, some _ => endpointBoolean answers.endpoint
    | _, _ => none

/-- The most recent boolean obtained from the endpoint. -/
def lastObtained (cfg : ConditionalConfig) (history : List Event) : Option Bool := (history.filterMap (obtained cfg)).getLast?

private theorem lastObtained_append (cfg : ConditionalConfig) (history : List Event) (event : Event) :
    lastObtained cfg (history ++ [event]) = (obtained cfg event).or (lastObtained cfg history) := by
  rw [lastObtained, List.filterMap_append, List.getLast?_append]
  cases answer : obtained cfg event <;> simp [answer, lastObtained]

/-- The configuration with the last value of the endpoint, which is all that changes in it. -/
def withLast (cfg : ConditionalConfig) (last : Bool) : ConditionalConfig :=
  { cfg with oracleOfflineCfgForcePublishLast := last }

theorem fetchForcePublishFromEndpoint_eq (cfg : ConditionalConfig) (last : Bool) (answer : EndpointAnswer) :
    (withLast cfg last).fetchForcePublishFromEndpoint answer =
      match cfg.oracleOfflineCfgEndpoint with
      | none => (cfg.oracleOfflineCfg && last, withLast cfg last)
      | some _ => ((endpointBoolean answer).getD last, withLast cfg ((endpointBoolean answer).getD last)) := by
  cases endpoint : cfg.oracleOfflineCfgEndpoint with
  | none => simp [ConditionalConfig.fetchForcePublishFromEndpoint, withLast, endpoint]
  | some url =>
    cases answer with
    | failed => simp [ConditionalConfig.fetchForcePublishFromEndpoint, withLast, endpoint, endpointBoolean]
    | payload text loaded =>
      cases parsed : ConditionalConfig.parseOfflineCfgResponse text loaded <;>
        simp [ConditionalConfig.fetchForcePublishFromEndpoint, withLast, endpoint, endpointBoolean, parsed]

private theorem fetched_cfg {cfg : ConditionalConfig} {last : Bool} {service : ConditionalPublishService} (answers : FetchAnswers)
    (configured : service.cfg = withLast cfg last) :
    (finalState (syncFetch answers) service).cfg = withLast cfg ((obtained cfg (.fetch answers)).getD last) := by
  have outcome : fetchOutcome service.cfg answers = fetchOutcome cfg answers := by rw [configured]; rfl
  rw [finalState, syncFetch_eq, outcome]
  simp only [obtained]
  cases fetchOutcome cfg answers with
  | unanswered => exact configured
  | ungrouped block failure => exact configured
  | unevaluated block values failure => exact configured
  | evaluated block values active =>
    cases active with
    | true => exact configured
    | false =>
      simp only [FetchOutcome.apply, syncFetch.fetchForcePublish, Bool.false_eq_true, if_false, configured,
        fetchForcePublishFromEndpoint_eq]
      cases cfg.oracleOfflineCfgEndpoint <;> rfl

private theorem reached_cfg {cfg : ConditionalConfig} {service : ConditionalPublishService} (configured : service.cfg = withLast cfg false)
    (history : List Event) :
    (reached service history).service.cfg = withLast cfg ((lastObtained cfg history).getD false) := by
  induction history using List.reverseRecOn with
  | nil => exact configured
  | append_singleton history event ih =>
    rw [reached, List.foldl_concat, ← reached, lastObtained_append]
    cases event with
    | fetch answers =>
      apply (fetched_cfg answers ih).trans
      cases obtained cfg (.fetch answers) <;> rfl
    | offlineCfg =>
      simp only [step, offlineCfg_eq]
      split <;> exact ih

private theorem lastObtained_eq_none {cfg : ConditionalConfig} (endpoint : cfg.oracleOfflineCfgEndpoint = none) (history : List Event) :
    lastObtained cfg history = none := by
  have never : ∀ event, obtained cfg event = none := by
    intro event
    cases event with
    | offlineCfg => rfl
    | fetch answers =>
      rw [obtained, endpoint]
      split
      next none => cases none
      · rfl
  rw [lastObtained, List.filterMap_eq_nil_iff.mpr fun event _ => never event, List.getLast?_nil]

/-- Where no condition is active, the endpoint's last boolean is what forces a publication. -/
theorem forced_eq {cfg : ConditionalConfig} {service : ConditionalPublishService} (configured : service.cfg = withLast cfg false)
    (history : List Event) {answers : FetchAnswers} {block : Nat} {values : ConditionValues}
    (outcome : fetchOutcome cfg answers = .evaluated block values false) :
    (syncFetch.fetchForcePublish false answers.endpoint (reached service history).service).1 =
      (lastObtained cfg (history ++ [.fetch answers])).getD false := by
  simp only [syncFetch.fetchForcePublish, Bool.false_eq_true, if_false, reached_cfg configured history,
    fetchForcePublishFromEndpoint_eq, lastObtained_append, obtained, outcome]
  cases endpoint : cfg.oracleOfflineCfgEndpoint with
  | none => simp [lastObtained_eq_none endpoint]
  | some url => cases endpointBoolean answers.endpoint <;> rfl

end Endpoint

private theorem splitLengths_map {α β : Type} (f : α → β) (lengths : List Nat) (items : List α) :
    lengths.splitLengths (items.map f) = (lengths.splitLengths items).map (List.map f) := by
  induction lengths generalizing items with
  | nil => rfl
  | cons length lengths ih => simp only [List.splitLengths_cons, ← List.map_take, ← List.map_drop, ih, List.map_cons]

section Fetch
variable {cfg : ConditionalConfig} {answers : FetchAnswers} {outputs : List Output} {block timestamp : Nat}

/-- A fetch with one decoded output for each question evaluates them, each as an answer to its own question. -/
theorem fetchOutcome_decoded
    (answered : answers.multicall ((questions cfg answers.toChecksumAddress).map Prod.snd) = .ok (outputs.map some, block))
    (each : outputs.length = (questions cfg answers.toChecksumAddress).length)
    (timed : answers.blockTimestamp block = .ok timestamp) :
    ∃ values active, fetchOutcome cfg answers = .evaluated block values active ∧
      (active = true ↔ ∃ pair ∈ (questions cfg answers.toChecksumAddress).zip outputs,
        pair.1.1.Active block timestamp pair.2) := by
  have counted : (conditionCalls cfg answers.toChecksumAddress).flatten.length = (questions cfg answers.toChecksumAddress).length := by
    rw [← questions_calls, List.length_map]
  let label (condition : Condition) := callConditionBase answers.toChecksumAddress (condition.addresses cfg) condition.signature
  have labelled : outputs.length = (Condition.all.flatMap label).length := each.trans counted.symm
  let groups := (Condition.all.map fun condition => (label condition).length).splitLengths outputs
  have seven : groups.length = Condition.all.length := (List.length_splitLengths _ _).trans (List.length_map ..)
  obtain ⟨active, evaluated, active_iff⟩ := getConditionActive_decoded timed seven
  have values : grouped cfg answers (outputs.map some) = groups.map (List.map some) := splitLengths_map some _ outputs
  rw [questions_calls] at answered
  have partition := @exists_zip_flatMap_iff _ _ _ (fun condition output => condition.Active block timestamp output) label
    Condition.all _ labelled
  refine ⟨groups.map (List.map some), active, ?_, active_iff.trans partition.symm⟩
  rw [fetchOutcome_answered answered, if_pos (by rw [List.length_map, each, counted]), values, evaluate, evaluated]

end Fetch

/-- A pair with an endpoint, one queue, one V2 bucket and an address that is none. -/
def discardingConfig : ConditionalConfig := .init
  { queueEnvironment with
    oracleOfflineCfg := some "https://switch/offline"
    mocV3QueueIsEmpty := "none 0x00000000000000000000000000000000000000cc"
    mocBaseBucket := "0x00000000000000000000000000000000000000ce" }

def discardingService : ConditionalPublishService := ⟨discardingConfig, none, none, true, false, 0, 0, false⟩

/-- The queue is empty, and the next interest is paid at block 500. -/
def discardingAnswers (endpoint : EndpointAnswer) : FetchAnswers :=
  { toChecksumAddress := fun address => if address = "none" then none else some address
    multicall := fun calls => .ok (if calls.length = 2 then [some (.bool true), some (.uint 500)] else [], 20)
    blockTimestamp := fun _ => .ok 1000
    endpoint }

/-- The endpoint has forced publications, and has been switched off since. -/
def switchedOff : List Event :=
  [.fetch (discardingAnswers (.payload "true" none)), .offlineCfg, .fetch (discardingAnswers (.payload "off" none))]

end OmocNode.Proofs.UnneededVerdict
