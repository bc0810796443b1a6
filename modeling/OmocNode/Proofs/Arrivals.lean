import Mathlib.Data.List.ReduceOption
import OmocNode.CoinPairLoop

/-! The loop that takes results as they arrive and stops at a given number of
them. What it keeps is a prefix of the arrivals without the empty ones. -/

namespace OmocNode.Proofs.Arrivals
open CoinPairLoop

variable {α β : Type}

theorem reduceOption_map_eq (answer : β → Option α) (asked : List β) :
    (asked.map answer).reduceOption = asked.filterMap answer := List.filterMap_map

/-- The loop stops with enough results, or has seen every arrival. -/
theorem collect_cases {needed missing : Nat} {results : List (Option α)} {sigs taken : List α}
    (ok : collect needed missing results sigs = .ok taken) :
    ∃ seen rest, results = seen ++ rest ∧ taken = sigs ++ seen.reduceOption ∧ (needed ≤ taken.length ∨ rest = []) := by
  induction results generalizing sigs with
  | nil =>
    rw [collect] at ok
    split at ok
    · cases ok
      exact ⟨[], [], rfl, by simp, .inr rfl⟩
    · cases ok
  | cons result results ih =>
    rw [collect] at ok
    split at ok
    next enough =>
      cases ok
      exact ⟨[result], results, rfl, by cases result <;> simp, .inl enough⟩
    next =>
      obtain ⟨seen, rest, rfl, rfl, stopped⟩ := ih ok
      refine ⟨result :: seen, rest, rfl, ?_, stopped⟩
      cases result <;> simp

/-- Without a missing result the loop does not time out. -/
theorem collect_ok (needed : Nat) (results : List (Option α)) (sigs : List α) :
    ∃ taken, collect needed 0 results sigs = .ok taken := by
  induction results generalizing sigs with
  | nil => exact ⟨sigs, rfl⟩
  | cons result results ih =>
    rw [collect]
    split
    · exact ⟨_, rfl⟩
    · exact ih _

/-- The result arrives when fewer than the needed number are there, `count` of them from before. -/
def ArrivesInTime (needed count : Nat) (results : List (Option α)) (sig : α) : Prop :=
  ∃ before after, results = before ++ some sig :: after ∧ count + before.reduceOption.length < needed

theorem arrivesInTime_cons {needed count : Nat} {result : Option α} {results : List (Option α)} {sig : α} :
    ArrivesInTime needed count (result :: results) sig ↔
      (result = some sig ∧ count < needed) ∨ ArrivesInTime needed (count + result.toList.length) results sig := by
  have counted : ∀ before : List (Option α), (result :: before).reduceOption.length =
      result.toList.length + before.reduceOption.length := by
    intro before
    cases result <;> simp [Nat.add_comm]
  constructor
  · intro arrives
    obtain ⟨_ | ⟨first, before⟩, after, split, early⟩ := arrives
    · obtain ⟨rfl, rfl⟩ := List.cons.inj split
      exact .inl ⟨rfl, by simpa using early⟩
    · obtain ⟨rfl, rfl⟩ := List.cons.inj split
      exact .inr ⟨before, after, rfl, by rw [counted] at early; omega⟩
  · intro cases
    rcases cases with ⟨rfl, early⟩ | ⟨before, after, rfl, early⟩
    · exact ⟨[], results, rfl, by simpa using early⟩
    · exact ⟨result :: before, after, rfl, by rw [counted]; omega⟩

theorem not_arrivesInTime {needed count : Nat} (enough : needed ≤ count) (results : List (Option α)) (sig : α) :
    ¬ArrivesInTime needed count results sig := by
  intro arrives
  obtain ⟨before, after, _, early⟩ := arrives
  omega

/-- The results taken are those that arrive in time. -/
theorem mem_collect_iff {needed missing : Nat} {results : List (Option α)} {sigs taken : List α} (below : sigs.length < needed)
    (ok : collect needed missing results sigs = .ok taken) (sig : α) :
    sig ∈ taken ↔ sig ∈ sigs ∨ ArrivesInTime needed sigs.length results sig := by
  induction results generalizing sigs with
  | nil =>
    rw [collect] at ok
    split at ok
    · cases ok
      simp [ArrivesInTime]
    · cases ok
  | cons result results ih =>
    rw [collect] at ok
    rw [arrivesInTime_cons, ← List.length_append]
    split at ok
    next enough =>
      cases ok
      simp only [not_arrivesInTime enough results sig, below, List.mem_append, Option.mem_toList, and_true, or_false]
    next few =>
      rw [ih (not_le.mp few) ok]
      simp [below, or_assoc]

end OmocNode.Proofs.Arrivals
