import Mathlib.Algebra.Ring.Nat
import Mathlib.Data.List.SplitLengths
import OmocNode.Proofs.Outcomes
import OmocNode.Proofs.StateSwitches

/-! What one fetch comes to, by the answers it gets. The answers alone decide how
far it gets, and with that which fields of the service it writes. -/

namespace OmocNode.Proofs.FetchOutcomes
open ConditionalPublishService StateFrame StateSwitches

/-- How far a fetch gets: no answer of the multicall, an answer that cannot be
put into groups or whose conditions cannot be evaluated, or all of it. -/
inductive FetchOutcome
  | unanswered
  | ungrouped (block : Nat) (failure : PyError)
  | unevaluated (block : Nat) (values : ConditionValues) (failure : PyError)
  | evaluated (block : Nat) (values : ConditionValues) (active : Bool)

def evaluate (answers : FetchAnswers) (block : Nat) (values : ConditionValues) : FetchOutcome :=
  match getConditionActive answers.blockTimestamp (some values) (some block) with
  | .error failure => .unevaluated block values failure
  | .ok active => .evaluated block values active

def fetchOutcome (cfg : ConditionalConfig) (answers : FetchAnswers) : FetchOutcome :=
  let calls := conditionCalls cfg answers.toChecksumAddress
  match answers.multicall calls.flatten with
  | .error _ => .unanswered
  | .ok (outputs, block) =>
    match popGroups (calls.map List.length) outputs with
    | .error failure => .ungrouped block failure
    | .ok values => evaluate answers block values

/-- The fields that each outcome writes. -/
def FetchOutcome.apply (answers : FetchAnswers) (service : ConditionalPublishService) :
    FetchOutcome → EStateM.Result PyError ConditionalPublishService Unit
  | unanswered => .ok () { service with lastBlock := none, lastValue := none }
  | ungrouped block failure => .error failure { service with lastBlock := some block }
  | unevaluated block values failure => .error failure { service with lastBlock := some block, lastValue := some values }
  | evaluated block values active =>
    let (forced, fetched) := syncFetch.fetchForcePublish active answers.endpoint service
    .ok () { fetched with
      lastBlock := some block, lastValue := some values, baseConditionActive := active, forcePublish := forced }

/-- The answers on the way to an outcome, as far as the fetch gets with them. -/
inductive Reaches (cfg : ConditionalConfig) (answers : FetchAnswers) : FetchOutcome → Prop
  | unanswered {failure : PyError} (asked : answers.multicall (conditionCalls cfg answers.toChecksumAddress).flatten = .error failure) :
      Reaches cfg answers .unanswered
  | ungrouped {outputs : List (Option Output)} {block : Nat} {failure : PyError}
      (asked : answers.multicall (conditionCalls cfg answers.toChecksumAddress).flatten = .ok (outputs, block))
      (popped : popGroups ((conditionCalls cfg answers.toChecksumAddress).map List.length) outputs = .error failure) :
      Reaches cfg answers (.ungrouped block failure)
  | unevaluated {outputs : List (Option Output)} {block : Nat} {values : ConditionValues} {failure : PyError}
      (asked : answers.multicall (conditionCalls cfg answers.toChecksumAddress).flatten = .ok (outputs, block))
      (popped : popGroups ((conditionCalls cfg answers.toChecksumAddress).map List.length) outputs = .ok values)
      (evaluated : getConditionActive answers.blockTimestamp (some values) (some block) = .error failure) :
      Reaches cfg answers (.unevaluated block values failure)
  | evaluated {outputs : List (Option Output)} {block : Nat} {values : ConditionValues} {active : Bool}
      (asked : answers.multicall (conditionCalls cfg answers.toChecksumAddress).flatten = .ok (outputs, block))
      (popped : popGroups ((conditionCalls cfg answers.toChecksumAddress).map List.length) outputs = .ok values)
      (evaluated : getConditionActive answers.blockTimestamp (some values) (some block) = .ok active) :
      Reaches cfg answers (.evaluated block values active)

theorem reaches_fetchOutcome (cfg : ConditionalConfig) (answers : FetchAnswers) : Reaches cfg answers (fetchOutcome cfg answers) := by
  rw [fetchOutcome]
  split
  next failure asked => exact .unanswered asked
  next outputs block asked =>
    split
    next failure popped => exact .ungrouped asked popped
    next values popped =>
      rw [evaluate]
      split
      next failure evaluated => exact .unevaluated asked popped evaluated
      next active evaluated => exact .evaluated asked popped evaluated

theorem syncFetch_eq (answers : FetchAnswers) (service : ConditionalPublishService) :
    syncFetch answers service = (fetchOutcome service.cfg answers).apply answers service := by
  have reaches := reaches_fetchOutcome service.cfg answers
  revert reaches
  generalize fetchOutcome service.cfg answers = outcome
  intro reaches
  cases reaches with
  | unanswered asked =>
    simp only [syncFetch, run_bind, run_get, asked]
    rfl
  | ungrouped asked popped =>
    simp only [syncFetch, run_bind, run_get, asked, run_modify, popped]
    rfl
  | unevaluated asked popped evaluated =>
    simp only [syncFetch, run_bind, run_get, asked, run_modify, popped, syncFetch.lift, run_pure, evaluated]
    rfl
  | @evaluated outputs block values active asked popped evaluated =>
    simp only [syncFetch, run_bind, run_get, asked, run_modify, popped, syncFetch.lift, run_pure, evaluated]
    cases active <;> rfl

section Groups

/-- Popping takes the outputs apart from left to right, or stops where none is left. -/
theorem popGroup_eq (count : Nat) (outputs : List (Option Output)) :
    popGroup count outputs =
      if count ≤ outputs.length then .ok (outputs.take count, outputs.drop count) else .error .indexError := by
  induction count generalizing outputs with
  | zero => rfl
  | succ count ih =>
    cases outputs with
    | nil => rfl
    | cons output outputs =>
      simp only [popGroup, ih, List.length_cons, Nat.add_le_add_iff_right]
      split <;> rfl

theorem popGroups_eq (counts : List Nat) (outputs : List (Option Output)) :
    popGroups counts outputs =
      if counts.sum ≤ outputs.length then .ok (counts.splitLengths outputs) else .error .indexError := by
  induction counts generalizing outputs with
  | nil => rfl
  | cons count counts ih =>
    simp only [popGroups, popGroup_eq, List.sum_cons, List.splitLengths_cons]
    by_cases first : count ≤ outputs.length
    · have rest : counts.sum ≤ (outputs.drop count).length ↔ count + counts.sum ≤ outputs.length := by
        rw [List.length_drop]
        omega
      by_cases all : count + counts.sum ≤ outputs.length
      · simp only [first, all, rest, if_true, bind, Except.bind, ih, pure, Except.pure]
      · simp only [first, all, rest, if_true, if_false, bind, Except.bind, ih]
    · have all : ¬count + counts.sum ≤ outputs.length := by omega
      simp only [first, all, if_false, bind, Except.bind]

theorem fetchOutcome_unanswered {cfg : ConditionalConfig} {answers : FetchAnswers} {failure : PyError}
    (failed : answers.multicall (conditionCalls cfg answers.toChecksumAddress).flatten = .error failure) :
    fetchOutcome cfg answers = .unanswered := by
  simp only [fetchOutcome, failed]

/-- The answer's outputs in the groups of the calls. -/
def grouped (cfg : ConditionalConfig) (answers : FetchAnswers) (outputs : List (Option Output)) : ConditionValues :=
  ((conditionCalls cfg answers.toChecksumAddress).map List.length).splitLengths outputs

theorem fetchOutcome_answered {cfg : ConditionalConfig} {answers : FetchAnswers} {outputs : List (Option Output)} {block : Nat}
    (answered : answers.multicall (conditionCalls cfg answers.toChecksumAddress).flatten = .ok (outputs, block)) :
    fetchOutcome cfg answers =
      if (conditionCalls cfg answers.toChecksumAddress).flatten.length ≤ outputs.length then
        evaluate answers block (grouped cfg answers outputs)
      else .ungrouped block .indexError := by
  simp only [fetchOutcome, answered, popGroups_eq, List.length_flatten]
  split
  next same =>
    split at same
    · cases same
    next short =>
      rw [if_neg short]
      cases same
      rfl
  next same =>
    split at same
    next enough =>
      rw [if_pos enough]
      cases same
      rfl
    · cases same

end Groups

section Comparisons
variable {bound : Nat} {outputs : List (Option Output)}

/-- All were decoded and none is below the bound. -/
def NoneBelow (bound : Nat) (outputs : List (Option Output)) : Prop :=
  ∀ output ∈ outputs, ∃ value, output = some value ∧ bound ≤ value.number

/-- One is below the bound, and all before it were decoded. -/
def FindsBelow (bound : Nat) (outputs : List (Option Output)) : Prop :=
  ∃ before value after, outputs = before ++ some value :: after ∧ value.number < bound ∧ none ∉ before

theorem anyBelow_eq_false_iff : anyBelow bound outputs = .ok false ↔ NoneBelow bound outputs := by
  induction outputs with
  | nil => simp [anyBelow, NoneBelow]
  | cons output outputs ih =>
    cases output with
    | none => simp [anyBelow, NoneBelow]
    | some value =>
      rw [anyBelow, NoneBelow, List.forall_mem_cons, ← NoneBelow, ← ih]
      by_cases below : value.number < bound
      · simp [below]
      · simp [below, not_lt.mp below]

theorem anyBelow_eq_true_iff : anyBelow bound outputs = .ok true ↔ FindsBelow bound outputs := by
  induction outputs with
  | nil => simp [anyBelow, FindsBelow]
  | cons output outputs ih =>
    cases output with
    | none =>
      simp only [anyBelow, reduceCtorEq, false_iff]
      intro finds
      obtain ⟨before, value, after, same, _, decoded⟩ := finds
      cases before with
      | nil => cases same
      | cons first before => exact decoded (by rw [← (List.cons.inj same).1]; exact List.mem_cons_self)
    | some value =>
      rw [anyBelow]
      by_cases below : value.number < bound
      · simp only [below, if_true, true_iff]
        exact ⟨[], value, outputs, rfl, below, List.not_mem_nil⟩
      · simp only [below, if_false, ih]
        constructor
        · intro finds
          obtain ⟨before, other, after, rfl, small, decoded⟩ := finds
          exact ⟨some value :: before, other, after, rfl, small, by simpa using decoded⟩
        · intro finds
          obtain ⟨before, other, after, same, small, decoded⟩ := finds
          cases before with
          | nil =>
            obtain ⟨rfl, _⟩ : value = other ∧ outputs = after := by simpa using same
            exact absurd small below
          | cons first before =>
            exact ⟨before, other, after, (List.cons.inj same).2, small, fun member => decoded (List.mem_cons_of_mem _ member)⟩

end Comparisons

section Conditions
variable {blockTimestamp : Nat → Except PyError Nat} {block : Nat}
  {v3IsEmpty v3CalcEma v3NextTc v3NextSt isEmpty calcEma nextTc : List (Option Output)}

/-- Some queue is not empty or some average is due, which is known before anything is compared. -/
def Pending (v3IsEmpty v3CalcEma isEmpty calcEma : List (Option Output)) : Prop :=
  (∃ output ∈ v3IsEmpty ++ isEmpty, Output.truthy output = false) ∨
    ∃ output ∈ v3CalcEma ++ calcEma, Output.truthy output = true

instance : Decidable (Pending v3IsEmpty v3CalcEma isEmpty calcEma) := inferInstanceAs (Decidable (_ ∨ _))

/-- One loop of comparisons, and what comes after it if it finds nothing. -/
def orBelow (bound : Nat) (outputs : List (Option Output)) (next : Except PyError Bool) : Except PyError Bool := do
  if ← anyBelow bound outputs then return true
  next

/-- The comparisons, of blocks first and of times after them. -/
def compareAll (blockTimestamp : Nat → Except PyError Nat) (block : Nat) (v3NextTc v3NextSt nextTc : List (Option Output)) :
    Except PyError Bool :=
  orBelow block nextTc <|
    if v3NextTc.isEmpty && v3NextSt.isEmpty then .ok false
    else blockTimestamp block >>= fun timestamp => orBelow timestamp v3NextTc (anyBelow timestamp v3NextSt)

theorem pending_iff : Pending v3IsEmpty v3CalcEma isEmpty calcEma ↔
    v3IsEmpty.any (!Output.truthy ·) = true ∨ v3CalcEma.any Output.truthy = true ∨
      isEmpty.any (!Output.truthy ·) = true ∨ calcEma.any Output.truthy = true := by
  simp only [Pending, List.mem_append, or_and_right, exists_or, List.any_eq_true, Bool.not_eq_true']
  rw [or_or_or_comm, or_assoc]

theorem getConditionActive_eq :
    getConditionActive blockTimestamp (some [v3IsEmpty, v3CalcEma, v3NextTc, v3NextSt, isEmpty, calcEma, nextTc]) (some block) =
      if Pending v3IsEmpty v3CalcEma isEmpty calcEma then .ok true
      else compareAll blockTimestamp block v3NextTc v3NextSt nextTc := by
  simp only [getConditionActive, pending_iff]
  cases v3IsEmpty.any (!Output.truthy ·)
  · cases v3CalcEma.any Output.truthy
    · cases isEmpty.any (!Output.truthy ·)
      · cases calcEma.any Output.truthy
        · simp only [Bool.false_eq_true, if_false, or_self]
          rfl
        · simp
      · simp
    · simp
  · simp

/-- What the comparisons need of the outputs: none is reached undecoded, and the
block's time can be read if it is asked for. -/
def Comparable (blockTimestamp : Nat → Except PyError Nat) (block : Nat) (v3NextTc v3NextSt nextTc : List (Option Output)) : Prop :=
  FindsBelow block nextTc ∨ NoneBelow block nextTc ∧
    (v3NextTc = [] ∧ v3NextSt = [] ∨ ∃ timestamp, blockTimestamp block = .ok timestamp ∧
      (FindsBelow timestamp v3NextTc ∨ NoneBelow timestamp v3NextTc ∧
        (FindsBelow timestamp v3NextSt ∨ NoneBelow timestamp v3NextSt)))

theorem anyBelow_ok_iff {bound : Nat} {outputs : List (Option Output)} :
    (∃ found, anyBelow bound outputs = .ok found) ↔ FindsBelow bound outputs ∨ NoneBelow bound outputs := by
  rw [← anyBelow_eq_true_iff, ← anyBelow_eq_false_iff, Bool.exists_bool, or_comm]

theorem orBelow_ok_iff {bound : Nat} {outputs : List (Option Output)} {next : Except PyError Bool} {active : Bool} :
    orBelow bound outputs next = .ok active ↔
      FindsBelow bound outputs ∧ active = true ∨ NoneBelow bound outputs ∧ next = .ok active := by
  rw [← anyBelow_eq_true_iff, ← anyBelow_eq_false_iff, orBelow]
  cases anyBelow bound outputs with
  | error failure => simp [bind, Except.bind]
  | ok found => cases found <;> simp [bind, Except.bind, pure, Except.pure, eq_comm]

theorem compareAll_ok_iff :
    (∃ active, compareAll blockTimestamp block v3NextTc v3NextSt nextTc = .ok active) ↔
      Comparable blockTimestamp block v3NextTc v3NextSt nextTc := by
  have timed : ∀ timestamp, (∃ active, orBelow timestamp v3NextTc (anyBelow timestamp v3NextSt) = .ok active) ↔
      FindsBelow timestamp v3NextTc ∨ NoneBelow timestamp v3NextTc ∧
        (FindsBelow timestamp v3NextSt ∨ NoneBelow timestamp v3NextSt) := by
    intro timestamp
    simp only [orBelow_ok_iff, exists_or, exists_and_left, exists_eq, and_true, anyBelow_ok_iff]
  have asked : (∃ active, (if v3NextTc.isEmpty && v3NextSt.isEmpty then .ok false
      else blockTimestamp block >>= fun timestamp => orBelow timestamp v3NextTc (anyBelow timestamp v3NextSt)) =
        Except.ok active) ↔ v3NextTc = [] ∧ v3NextSt = [] ∨ ∃ timestamp, blockTimestamp block = .ok timestamp ∧
          ∃ active, orBelow timestamp v3NextTc (anyBelow timestamp v3NextSt) = .ok active := by
    cases v3NextTc with
    | cons output outputs => simp [Outcomes.bind_eq_ok_iff, exists_comm]
    | nil =>
      cases v3NextSt with
      | cons output outputs => simp [Outcomes.bind_eq_ok_iff, exists_comm]
      | nil => simp
  simp only [compareAll, @orBelow_ok_iff block, exists_or, exists_and_left, exists_eq, and_true, asked, timed, Comparable]

end Conditions

end OmocNode.Proofs.FetchOutcomes
