import Mathlib.Data.List.Induction
import OmocNode.Proofs.FetchOutcomes

/-! Which fetch each cached field comes from. A fetch stores its block and its
values before it evaluates them, and the evaluation can fail. -/

namespace OmocNode.Proofs.WholeFetch
open ConditionalPublishService StateFrame StateSwitches FetchOutcomes

/-- The number of the fetch that wrote each field last. -/
structure Written where
  lastBlock : Option Nat
  lastValue : Option Nat
  baseConditionActive : Option Nat
  forcePublish : Option Nat
  deriving DecidableEq

/-- The service, with what is not stored in it: how many fetches have begun,
which of them have completed, and which wrote each field. -/
structure Traced where
  service : ConditionalPublishService
  fetches : Nat
  completed : List Nat
  written : Written

def Traced.start (service : ConditionalPublishService) : Traced := ⟨service, 0, [], ⟨none, none, none, none⟩⟩

/-- `_sync_fetch`, noting its own number beside each field that it stores. -/
def tracedFetch (answers : FetchAnswers) : EStateM PyError Traced Unit := do
  let n := (← get).fetches
  modify fun t => { t with fetches := n + 1 }
  let calls := conditionCalls (← get).service.cfg answers.toChecksumAddress
  match answers.multicall calls.flatten with
  | .error _ =>
    modify fun t => { t with
      service := { t.service with lastBlock := none, lastValue := none }
      written := { t.written with lastBlock := some n, lastValue := some n } }
  | .ok (resultsBase, block) =>
    modify fun t => { t with
      service := { t.service with lastBlock := some block }
      written := { t.written with lastBlock := some n } }
    let results ← lift (popGroups (calls.map List.length) resultsBase)
    modify fun t => { t with
      service := { t.service with lastValue := some results }
      written := { t.written with lastValue := some n } }
    let active ← lift (getConditionActive answers.blockTimestamp (some results) (some block))
    let forced ← modifyGet fun t =>
      let (forced, service) := syncFetch.fetchForcePublish active answers.endpoint t.service
      (forced, { t with service })
    modify fun t => { t with
      service := { t.service with baseConditionActive := active, forcePublish := forced }
      written := { t.written with baseConditionActive := some n, forcePublish := some n }
      completed := n :: t.completed }
where
  lift {α : Type} : Except PyError α → EStateM PyError Traced α
    | .ok value => pure value
    | .error failure => throw failure

def after (answers : FetchAnswers) (t : Traced) : FetchOutcome → Traced
  | .unanswered => { t with
      service := { t.service with lastBlock := none, lastValue := none }, fetches := t.fetches + 1
      written := { t.written with lastBlock := some t.fetches, lastValue := some t.fetches } }
  | .ungrouped block _ => { t with
      service := { t.service with lastBlock := some block }, fetches := t.fetches + 1
      written := { t.written with lastBlock := some t.fetches } }
  | .unevaluated block values _ => { t with
      service := { t.service with lastBlock := some block, lastValue := some values }, fetches := t.fetches + 1
      written := { t.written with lastBlock := some t.fetches, lastValue := some t.fetches } }
  | .evaluated block values active =>
    let (forced, fetched) := syncFetch.fetchForcePublish active answers.endpoint t.service
    { service := { fetched with
        lastBlock := some block, lastValue := some values, baseConditionActive := active, forcePublish := forced }
      fetches := t.fetches + 1
      completed := t.fetches :: t.completed
      written := ⟨some t.fetches, some t.fetches, some t.fetches, some t.fetches⟩ }

private theorem finalState_tracedFetch (answers : FetchAnswers) (t : Traced) :
    finalState (tracedFetch answers) t = after answers t (fetchOutcome t.service.cfg answers) := by
  have reaches := reaches_fetchOutcome t.service.cfg answers
  revert reaches
  generalize fetchOutcome t.service.cfg answers = outcome
  intro reaches
  cases reaches with
  | unanswered asked =>
    simp only [finalState, tracedFetch, run_bind, run_get, run_modify, asked]
    rfl
  | ungrouped asked popped =>
    simp only [finalState, tracedFetch, run_bind, run_get, run_modify, asked, popped]
    rfl
  | unevaluated asked popped evaluated =>
    simp only [finalState, tracedFetch, run_bind, run_get, run_modify, asked, popped, tracedFetch.lift, run_pure, evaluated]
    rfl
  | @evaluated outputs block values active asked popped evaluated =>
    simp only [finalState, tracedFetch, run_bind, run_get, run_modify, asked, popped, tracedFetch.lift, run_pure, evaluated]
    cases active <;> rfl

/-- Without its notes a traced fetch is the fetch. -/
theorem tracedFetch_service (answers : FetchAnswers) (t : Traced) :
    (finalState (tracedFetch answers) t).service = finalState (syncFetch answers) t.service := by
  rw [finalState_tracedFetch, finalState, syncFetch_eq]
  cases fetchOutcome t.service.cfg answers <;> rfl

def step (t : Traced) : Event → Traced
  | .fetch answers => finalState (tracedFetch answers) t
  | .offlineCfg => { t with service := t.service.offlineCfg.2 }

def traced (service : ConditionalPublishService) (events : List Event) : Traced := events.foldl step (.start service)

theorem traced_service (service : ConditionalPublishService) (events : List Event) :
    (traced service events).service = (reached service events).service := by
  induction events using List.reverseRecOn with
  | nil => rfl
  | append_singleton events event ih =>
    rw [traced, reached, List.foldl_concat, List.foldl_concat, ← traced, ← reached]
    cases event with
    | fetch answers => exact (tracedFetch_service answers _).trans (congrArg _ ih)
    | offlineCfg =>
      simp only [step, StateSwitches.step, ← ih]
      split <;> rfl

/-- The signal does not run, or its four fields come from one completed fetch. -/
def Whole (t : Traced) : Prop :=
  t.service.isRunning = false ∨ ∃ n ∈ t.completed, t.written = ⟨some n, some n, some n, some n⟩

/-- The flags come from earlier fetches than the next one. -/
def Numbered (t : Traced) : Prop := ∀ n, t.written.baseConditionActive = some n → n < t.fetches

private theorem numbered_step (t : Traced) (event : Event) (valid : Numbered t) : Numbered (step t event) := by
  cases event with
  | offlineCfg => exact valid
  | fetch answers =>
    have later : ∀ n, t.written.baseConditionActive = some n → n < t.fetches + 1 := fun n same => (valid n same).trans (Nat.lt_succ_self _)
    rw [step, finalState_tracedFetch]
    cases fetchOutcome t.service.cfg answers with
    | unanswered => exact later
    | ungrouped block failure => exact later
    | unevaluated block values failure => exact later
    | evaluated block values active =>
      intro n same
      obtain rfl := Option.some.inj same
      exact Nat.lt_succ_self _

private theorem numbered_traced (service : ConditionalPublishService) (events : List Event) : Numbered (traced service events) :=
  run_preserves numbered_step events _ fun _ none => by cases none

private theorem not_whole_of_mixed {t : Traced} (running : t.service.isRunning = true)
    (mixed : t.written.lastBlock ≠ t.written.baseConditionActive) : ¬Whole t := by
  intro whole
  rcases whole with stopped | ⟨n, _, same⟩
  · rw [running] at stopped
    cases stopped
  · exact mixed (by rw [same])

/-- A fetch takes effect whole exactly when it gets no answer or evaluates the one it gets. -/
theorem whole_after_iff {t : Traced} (valid : Numbered t) (answers : FetchAnswers) (outcome : FetchOutcome) :
    Whole (after answers t outcome) ↔
      outcome = .unanswered ∨ ∃ block values active, outcome = .evaluated block values active := by
  have earlier : some t.fetches ≠ t.written.baseConditionActive := fun same => absurd (valid _ same.symm) (lt_irrefl _)
  cases outcome with
  | unanswered => exact iff_of_true (Or.inl rfl) (Or.inl rfl)
  | ungrouped block failure => exact iff_of_false (not_whole_of_mixed rfl earlier) (by simp)
  | unevaluated block values failure => exact iff_of_false (not_whole_of_mixed rfl earlier) (by simp)
  | evaluated block values active =>
    exact iff_of_true (Or.inr ⟨t.fetches, List.mem_cons_self, rfl⟩) (Or.inr ⟨block, values, active, rfl⟩)

/-- The groups of outputs can be evaluated: something is pending, or the comparisons go through. -/
def Evaluable (answers : FetchAnswers) (block : Nat) : ConditionValues → Prop
  | [v3IsEmpty, v3CalcEma, v3NextTc, v3NextSt, isEmpty, calcEma, nextTc] =>
    Pending v3IsEmpty v3CalcEma isEmpty calcEma ∨ Comparable answers.blockTimestamp block v3NextTc v3NextSt nextTc
  | _ => False

/-- The multicall fails, or it gives an output for every call and these can be evaluated. -/
def EndsWhole (cfg : ConditionalConfig) (answers : FetchAnswers) : Prop :=
  let calls := conditionCalls cfg answers.toChecksumAddress
  (∃ failure, answers.multicall calls.flatten = .error failure) ∨
    ∃ outputs block, answers.multicall calls.flatten = .ok (outputs, block) ∧ calls.flatten.length ≤ outputs.length ∧
      Evaluable answers block ((calls.map List.length).splitLengths outputs)

theorem evaluate_eq_evaluated_iff {answers : FetchAnswers} {block : Nat} {values : ConditionValues} :
    (∃ block' values' active, evaluate answers block values = .evaluated block' values' active) ↔
      ∃ active, getConditionActive answers.blockTimestamp (some values) (some block) = .ok active := by
  rw [evaluate]
  cases getConditionActive answers.blockTimestamp (some values) (some block) <;> simp

theorem getConditionActive_ok_iff {answers : FetchAnswers} {block : Nat} {values : ConditionValues} (seven : values.length = 7) :
    (∃ active, getConditionActive answers.blockTimestamp (some values) (some block) = .ok active) ↔
      Evaluable answers block values := by
  match values, seven with
  | [v3IsEmpty, v3CalcEma, v3NextTc, v3NextSt, isEmpty, calcEma, nextTc], _ =>
    rw [getConditionActive_eq, Evaluable, ← compareAll_ok_iff]
    by_cases pending : Pending v3IsEmpty v3CalcEma isEmpty calcEma <;> simp [pending]

theorem endsWhole_iff (cfg : ConditionalConfig) (answers : FetchAnswers) :
    EndsWhole cfg answers ↔ fetchOutcome cfg answers = .unanswered ∨
      ∃ block values active, fetchOutcome cfg answers = .evaluated block values active := by
  cases answer : answers.multicall (conditionCalls cfg answers.toChecksumAddress).flatten with
  | error failure => exact iff_of_true (Or.inl ⟨failure, answer⟩) (Or.inl (fetchOutcome_unanswered answer))
  | ok result =>
    obtain ⟨outputs, block⟩ := result
    have ends : EndsWhole cfg answers ↔ (conditionCalls cfg answers.toChecksumAddress).flatten.length ≤ outputs.length ∧
        Evaluable answers block (grouped cfg answers outputs) := by
      simp only [EndsWhole, answer, reduceCtorEq, exists_false, false_or, Except.ok.injEq, Prod.mk.injEq]
      constructor
      · intro found
        obtain ⟨_, _, ⟨rfl, rfl⟩, whole⟩ := found
        exact whole
      · exact fun whole => ⟨outputs, block, ⟨rfl, rfl⟩, whole⟩
    rw [ends, fetchOutcome_answered answer]
    split
    next enough =>
      have seven : (grouped cfg answers outputs).length = 7 := (List.length_splitLengths _ _).trans rfl
      have answered : evaluate answers block (grouped cfg answers outputs) ≠ .unanswered := by
        rw [evaluate]
        split <;> simp
      rw [evaluate_eq_evaluated_iff, getConditionActive_ok_iff seven, and_iff_right enough, or_iff_right answered]
    next short => exact iff_of_false (fun whole => short whole.1) (by simp)

/-- After any history, a fetch takes effect whole or leaves the signal not
running exactly when its answers let it end whole. -/
theorem whole_after_fetch_iff (service : ConditionalPublishService) (history : List Event) (answers : FetchAnswers) :
    Whole (traced service (history ++ [.fetch answers])) ↔ EndsWhole (traced service history).service.cfg answers := by
  rw [traced, List.foldl_concat, ← traced, step, finalState_tracedFetch, whole_after_iff (numbered_traced service history),
    endsWhole_iff]

/-- A pair whose price is needed while an interest payment is due. -/
def interestConfig : ConditionalConfig := .init
  { queueEnvironment with
    mocV3QueueIsEmpty := "", mocV3TcInterestPayment := "0x00000000000000000000000000000000000000cc" }

def interestAnswers (nextPayment block : Nat) (blockTimestamp : Nat → Except PyError Nat) : FetchAnswers :=
  { toChecksumAddress := some, multicall := fun calls => .ok (calls.map fun _ => some (.uint nextPayment), block)
    blockTimestamp, endpoint := .failed }

/-- The payment was due at block 10. At block 20 it is made, but the block's time
cannot be read, and the price stays needed because of the older block. -/
theorem unread_timestamp_mixes_fetches :
    ∃ service, ConditionalPublishService.init interestConfig = .ok service ∧
      ¬Whole (traced service
        ([.fetch (interestAnswers 50 10 fun _ => .ok 100)] ++ [.fetch (interestAnswers 500 20 fun _ => .error .timeoutError)])) := by
  exact ⟨⟨interestConfig, none, none, true, false, 0, 0, false⟩, by decide +kernel,
    not_whole_of_mixed (by decide +kernel) (by decide +kernel)⟩

end OmocNode.Proofs.WholeFetch
