import OmocNode.OracleSettings
import Mathlib.Data.List.Forall2

/-! The normal form of the exchange table is the same for two tables exactly if
they differ in the order of their keys only, however values are compared. -/

namespace OmocNode.Proofs.ExchangeSignature
open OracleSettings

section Entries
variable {κ α β : Type} [LinearOrder κ] {R : α → β → Prop}

/-- What entries hold under a key, as a dictionary reads it. -/
def read (entries : List (κ × α)) (key : κ) : Option α := (entries.find? fun entry => entry.1 = key).map Prod.snd

private theorem read_cons_self (entry : κ × α) (entries : List (κ × α)) : read (entry :: entries) entry.1 = some entry.2 := by
  simp [read]

private theorem read_cons_of_ne {entry : κ × α} {key : κ} (other : entry.1 ≠ key) (entries : List (κ × α)) :
    read (entry :: entries) key = read entries key := by
  simp [read, other]

private theorem read_eq_none {entries : List (κ × α)} {key : κ} (absent : ∀ entry ∈ entries, key < entry.1) : read entries key = none := by
  rw [read, Option.map_eq_none_iff, List.find?_eq_none]
  intro entry member
  simpa using (absent entry member).ne'

private theorem rel_read_of_forall₂ {first : List (κ × α)} {second : List (κ × β)}
    (related : List.Forall₂ (fun x y => x.1 = y.1 ∧ R x.2 y.2) first second) (key : κ) :
    Option.Rel R (read first key) (read second key) := by
  induction related with
  | nil => exact .none
  | @cons x y first second here _ ih =>
    by_cases same : x.1 = key
    · subst same
      rw [read_cons_self, here.1, read_cons_self]
      exact .some here.2
    · rw [read_cons_of_ne same, read_cons_of_ne (here.1 ▸ same)]
      exact ih

/-- The least key is the same on both sides: the side without it would have nothing there. -/
theorem key_eq_of_rel_read {x : κ × α} {first : List (κ × α)} {y : κ × β} {second : List (κ × β)}
    (least : ∀ entry ∈ first, x.1 < entry.1) (least' : ∀ entry ∈ second, y.1 < entry.1)
    (agree : ∀ key, Option.Rel R (read (x :: first) key) (read (y :: second) key)) : x.1 = y.1 := by
  rcases lt_trichotomy x.1 y.1 with below | same | above
  · have here := agree x.1
    rw [read_cons_self, read_eq_none] at here
    · cases here
    · exact List.forall_mem_cons.mpr ⟨below, fun entry member => below.trans (least' entry member)⟩
  · exact same
  · have here := agree y.1
    rw [read_cons_self, read_eq_none] at here
    · cases here
    · exact List.forall_mem_cons.mpr ⟨above, fun entry member => above.trans (least entry member)⟩

/-- Entries in the order of their keys are related one by one exactly if they are at every key. -/
theorem forall₂_iff_read {first : List (κ × α)} {second : List (κ × β)} (sorted : first.Pairwise fun x y => x.1 < y.1)
    (sorted' : second.Pairwise fun x y => x.1 < y.1) :
    List.Forall₂ (fun x y => x.1 = y.1 ∧ R x.2 y.2) first second ↔ ∀ key, Option.Rel R (read first key) (read second key) := by
  refine ⟨rel_read_of_forall₂, ?_⟩
  intro agree
  induction first generalizing second with
  | nil =>
    cases second with
    | nil => exact .nil
    | cons y second =>
      have here := agree y.1
      rw [read_cons_self] at here
      cases here
  | cons x first ih =>
    cases second with
    | nil =>
      have here := agree x.1
      rw [read_cons_self] at here
      cases here
    | cons y second =>
      obtain ⟨least, rest⟩ := List.pairwise_cons.mp sorted
      obtain ⟨least', rest'⟩ := List.pairwise_cons.mp sorted'
      have same := key_eq_of_rel_read least least' agree
      refine .cons ⟨same, ?_⟩ (ih rest rest' ?_)
      · have here := agree x.1
        rw [read_cons_self, same, read_cons_self] at here
        cases here with
        | some related => exact related
      · intro key
        by_cases head : x.1 = key
        · subst head
          rw [read_eq_none least, read_eq_none (same ▸ least')]
          exact .none
        · have here := agree key
          rwa [read_cons_of_ne head, read_cons_of_ne (same ▸ head)] at here

theorem rel_map_iff {γ δ : Type} {S : γ → δ → Prop} {f : α → γ} {g : β → δ} {x : Option α} {y : Option β} :
    Option.Rel S (x.map f) (y.map g) ↔ Option.Rel (fun a b => S (f a) (g b)) x y := by
  constructor
  · intro related
    cases x <;> cases y <;> cases related
    · exact .none
    next here => exact .some here
  · intro related
    cases related with
    | none => exact .none
    | some here => exact .some here

end Entries

section Sorted
variable {α β γ δ : Type}

private theorem sortPairs_perm (items : List (String × α)) : (sortPairs items).Perm items := List.mergeSort_perm _ _

private theorem sortPairs_sorted {items : List (String × α)} (distinct : (items.map Prod.fst).Nodup) :
    (sortPairs items).Pairwise fun x y => x.1 < y.1 := by
  have ordered : (sortPairs items).Pairwise fun x y => x.1 ≤ y.1 := by
    have sorted := @List.pairwise_mergeSort _ (fun x y : String × α => decide (x.1 ≤ y.1))
      (fun x y z first second => by simpa using le_trans (by simpa using first) (by simpa using second))
      (fun x y => by simpa using le_total x.1 y.1) items
    exact sorted.imp fun below => by simpa using below
  have different : (sortPairs items).Pairwise fun x y => x.1 ≠ y.1 :=
    List.pairwise_map.mp (((sortPairs_perm items).map Prod.fst).nodup_iff.mpr distinct)
  exact ordered.imp₂ (fun _ _ le ne => lt_of_le_of_ne le ne) different

private theorem map_fst_map (entries : List (String × α)) (f : α → γ) :
    (entries.map fun entry => (entry.1, f entry.2)).map Prod.fst = entries.map Prod.fst := by
  rw [List.map_map]
  rfl

/-- Sorting the pairs, and changing their values, does not change which key has which value. -/
theorem read_sortPairs (dict : Dict String α) (f : α → γ) (key : String) :
    read (sortPairs (dict.entries.map fun entry => (entry.1, f entry.2))) key = (dict.get? key).map f := by
  have perm := sortPairs_perm (dict.entries.map fun entry => (entry.1, f entry.2))
  have distinct : ((sortPairs (dict.entries.map fun entry => (entry.1, f entry.2))).map Prod.fst).Nodup := by
    rw [(perm.map Prod.fst).nodup_iff, map_fst_map]
    exact dict.distinct
  apply Option.ext
  intro value
  have here := @Dict.get?_eq_some_iff _ _ _ ⟨_, distinct⟩ key value
  refine here.trans ?_
  simp only [perm.mem_iff, List.mem_map, Prod.mk.injEq, Option.map_eq_some_iff, Dict.get?_eq_some_iff, Prod.exists]
  constructor
  · intro listed
    obtain ⟨other, source, member, rfl, same⟩ := listed
    exact ⟨source, member, same⟩
  · intro listed
    obtain ⟨source, member, same⟩ := listed
    exact ⟨key, source, member, rfl, same⟩

/-- Two dictionaries with sorted pairs, related one by one. -/
theorem sortPairs_related_iff {S : γ → δ → Prop} (a : Dict String α) (b : Dict String β) (f : α → γ) (g : β → δ) :
    List.Forall₂ (fun x y => x.1 = y.1 ∧ S x.2 y.2) (sortPairs (a.entries.map fun entry => (entry.1, f entry.2)))
        (sortPairs (b.entries.map fun entry => (entry.1, g entry.2))) ↔
      ∀ key, Option.Rel (fun x y => S (f x) (g y)) (a.get? key) (b.get? key) := by
  rw [forall₂_iff_read (sortPairs_sorted (by rw [map_fst_map]; exact a.distinct))
    (sortPairs_sorted (by rw [map_fst_map]; exact b.distinct))]
  apply forall_congr'
  intro key
  rw [read_sortPairs, read_sortPairs, rel_map_iff]

end Sorted

section Signature
variable (same : Json → Json → Prop)

/-- Two records with the same keys and the same value under each, a decimal being compared as its text. -/
def SameRecord (a b : ExchangeRecord) : Prop :=
  ∀ key, Option.Rel (fun x y => same (dToStr x) (dToStr y)) (a.get? key) (b.get? key)

/-- Two tables with the same coin pairs and the same list of records for each. -/
def SameTable (a b : ExchangeTable) : Prop := ∀ pair, Option.Rel (List.Forall₂ (SameRecord same)) (a.get? pair) (b.get? pair)

/-- Two files that differ in the order of the coin pairs and of the keys of each record only. -/
def Reordered (a b : ExchangeTable) : Prop :=
  ∃ pairs : ExchangeTable, pairs.entries.Perm b.entries ∧
    List.Forall₂ (fun x y => x.1 = y.1 ∧ List.Forall₂ (fun r s => r.entries.Perm s.entries) x.2 y.2) a.entries pairs.entries

/-- Two normal forms that are equal where their values are compared by `same`. -/
def SameNormal (a b : List (String × List (List (String × Json)))) : Prop :=
  List.Forall₂ (fun x y => x.1 = y.1 ∧
    List.Forall₂ (List.Forall₂ fun v w => v.1 = w.1 ∧ same v.2 w.2) x.2 y.2) a b

theorem d2l_related_iff (a b : ExchangeRecord) :
    List.Forall₂ (fun v w => v.1 = w.1 ∧ same v.2 w.2) (d2l a) (d2l b) ↔ SameRecord same a b :=
  sortPairs_related_iff a b dToStr dToStr

theorem normalize_related_iff (a b : ExchangeTable) :
    SameNormal same (normalizeExchangeInfo a) (normalizeExchangeInfo b) ↔ SameTable same a b := by
  have records : ∀ x y : List ExchangeRecord,
      List.Forall₂ (List.Forall₂ fun v w => v.1 = w.1 ∧ same v.2 w.2) (x.map d2l) (y.map d2l) ↔
        List.Forall₂ (SameRecord same) x y := by
    intro x y
    rw [List.forall₂_map_left_iff, List.forall₂_map_right_iff]
    simp only [d2l_related_iff]
  refine (sortPairs_related_iff a b (List.map d2l) (List.map d2l)).trans ?_
  simp only [records, SameTable]

theorem sameNormal_eq_iff (a b : List (String × List (List (String × Json)))) : SameNormal (· = ·) a b ↔ a = b := by
  simp only [SameNormal, ← Prod.ext_iff, List.forall₂_eq_eq_eq]

private theorem get?_of_perm {α : Type} {a b : Dict String α} (perm : a.entries.Perm b.entries) (key : String) : a.get? key = b.get? key := by
  apply Option.ext
  intro value
  rw [Dict.get?_eq_some_iff, Dict.get?_eq_some_iff, perm.mem_iff]

variable {same} (refl : ∀ value, same value value)
include refl

/-- Records whose keys come in another order are the same. -/
theorem sameRecord_of_perm {a b : ExchangeRecord} (perm : a.entries.Perm b.entries) : SameRecord same a b := by
  intro key
  rw [get?_of_perm perm]
  cases b.get? key with
  | none => exact .none
  | some value => exact .some (refl _)

private theorem sameTable_of_reordered {a b : ExchangeTable} (reordered : Reordered a b) : SameTable same a b := by
  obtain ⟨pairs, perm, records⟩ := reordered
  intro pair
  rw [← get?_of_perm perm]
  have here : Option.Rel (List.Forall₂ fun x y => x.entries.Perm y.entries) (a.get? pair) (pairs.get? pair) :=
    rel_read_of_forall₂ records pair
  generalize a.get? pair = left at here ⊢
  generalize pairs.get? pair = right at here ⊢
  cases here with
  | none => exact .none
  | some listed => exact .some (listed.imp fun _ _ => sameRecord_of_perm refl)

end Signature

/-- The normal form is canonical. The first part compares values as they are, the second by any relation, such as the
`==` of the values in the lists. The order in which a file lists its keys never matters. -/
theorem normalizeExchangeInfo_canonical (a b : ExchangeTable) :
    (normalizeExchangeInfo a = normalizeExchangeInfo b ↔ SameTable (· = ·) a b) ∧
      (∀ same : Json → Json → Prop,
        SameNormal same (normalizeExchangeInfo a) (normalizeExchangeInfo b) ↔ SameTable same a b) ∧
      (Reordered a b → normalizeExchangeInfo a = normalizeExchangeInfo b) := by
  have equal : normalizeExchangeInfo a = normalizeExchangeInfo b ↔ SameTable (· = ·) a b := by
    rw [← sameNormal_eq_iff]
    exact normalize_related_iff _ a b
  refine ⟨equal, fun same => normalize_related_iff same a b, ?_⟩
  intro reordered
  exact equal.mpr (sameTable_of_reordered (fun _ => rfl) reordered)

end OmocNode.Proofs.ExchangeSignature
