import Mathlib.Data.List.Forall2

/-! When a computation that may raise returns. The rules take it apart step by
step, from the first computation to the last. -/

namespace OmocNode.Proofs.Outcomes

variable {ε ε' α β : Type}

theorem bind_eq_ok_iff {first : Except ε α} {next : α → Except ε β} {result : β} :
    (first >>= next) = .ok result ↔ ∃ value, first = .ok value ∧ next value = .ok result := by
  cases first with
  | error failure => simp only [bind, Except.bind, reduceCtorEq, false_and, exists_false]
  | ok value => simp only [bind, Except.bind, Except.ok.injEq, exists_eq_left']

theorem pure_eq_ok_iff {value result : α} : (pure value : Except ε α) = .ok result ↔ value = result := by
  simp only [pure, Except.pure, Except.ok.injEq]

theorem map_eq_ok_iff {change : α → β} {first : Except ε α} {result : β} :
    first.map change = .ok result ↔ ∃ value, first = .ok value ∧ change value = result := by
  cases first <;> simp [Except.map]

theorem mapError_eq_ok_iff {change : ε → ε'} {first : Except ε α} {result : α} :
    first.mapError change = .ok result ↔ first = .ok result := by
  cases first <;> simp [Except.mapError]

theorem mapM_eq_ok_iff {step : α → Except ε β} {items : List α} {results : List β} :
    items.mapM step = .ok results ↔ List.Forall₂ (fun item result => step item = .ok result) items results := by
  induction items generalizing results with
  | nil =>
    rw [List.mapM_nil, pure_eq_ok_iff, List.forall₂_nil_left_iff, eq_comm]
  | cons item items ih =>
    simp only [List.mapM_cons, bind_eq_ok_iff, pure_eq_ok_iff, List.forall₂_cons_left_iff, ih]
    constructor
    · intro steps
      obtain ⟨result, here, rest, later, rfl⟩ := steps
      exact ⟨result, rest, here, later, rfl⟩
    · intro matched
      obtain ⟨result, rest, here, later, rfl⟩ := matched
      exact ⟨result, here, rest, later, rfl⟩

theorem exists_mapM_eq_ok {step : α → Except ε β} {items : List α} (each : ∀ item ∈ items, ∃ result, step item = .ok result) :
    ∃ results, items.mapM step = .ok results := by
  induction items with
  | nil => exact ⟨[], rfl⟩
  | cons item items ih =>
    obtain ⟨result, here⟩ := each item List.mem_cons_self
    obtain ⟨results, later⟩ := ih fun other member => each other (List.mem_cons_of_mem _ member)
    exact ⟨result :: results, mapM_eq_ok_iff.mpr (.cons here (mapM_eq_ok_iff.mp later))⟩

end OmocNode.Proofs.Outcomes
