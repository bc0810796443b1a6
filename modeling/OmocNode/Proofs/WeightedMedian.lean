import Mathlib.Algebra.BigOperators.Group.List.Basic
import Mathlib.Algebra.Order.BigOperators.Group.List
import Mathlib.Algebra.Order.Field.Basic
import Mathlib.Data.Finset.Max
import Mathlib.Tactic.Linarith

/-! The least value at which half of the weight is reached. It does not depend
on the order of the items, stays where most of the weight is, and is found by
going through the items in the order of their values. -/

namespace OmocNode.Proofs.WeightedMedian

variable {α β 𝕜 : Type*}

section Sums
variable [AddCommMonoid 𝕜] {p : α → Prop} [DecidablePred p] {items items' : List (α × 𝕜)}

/-- The weight of the items whose value is inside. -/
def weightOf (inside : α → Prop) [DecidablePred inside] (items : List (α × 𝕜)) : 𝕜 :=
  ((items.filter fun item => inside item.1).map (·.2)).sum

def total (items : List (α × 𝕜)) : 𝕜 := (items.map (·.2)).sum

theorem weightOf_perm (same : items.Perm items') : weightOf p items = weightOf p items' :=
  ((same.filter _).map _).sum_eq

theorem total_perm (same : items.Perm items') : total items = total items' := (same.map _).sum_eq

theorem weightOf_append : weightOf p (items ++ items') = weightOf p items + weightOf p items' := by
  rw [weightOf, List.filter_append, List.map_append, List.sum_append]
  rfl

theorem weightOf_cons (item : α × 𝕜) :
    weightOf p (item :: items) = (if p item.1 then item.2 else 0) + weightOf p items := by
  by_cases here : p item.1 <;> simp [weightOf, here]

theorem total_cons (item : α × 𝕜) : total (item :: items) = item.2 + total items := List.sum_cons

theorem weightOf_eq_total (all : ∀ item ∈ items, p item.1) : weightOf p items = total items := by
  rw [weightOf, List.filter_eq_self.mpr]
  · rfl
  · intro item member
    exact decide_eq_true (all item member)

theorem weightOf_eq_zero (none : ∀ item ∈ items, ¬p item.1) : weightOf p items = 0 := by
  rw [weightOf, List.filter_eq_nil_iff.mpr]
  · rfl
  · intro item member
    simpa using none item member

end Sums

section Bounds
variable [Field 𝕜] [LinearOrder 𝕜] [IsStrictOrderedRing 𝕜] {p q : α → Prop} [DecidablePred p] [DecidablePred q]
  {items : List (α × 𝕜)}

theorem total_nonneg (nonneg : ∀ item ∈ items, 0 ≤ item.2) : 0 ≤ total items := by
  apply List.sum_nonneg
  intro weight member
  obtain ⟨item, found, rfl⟩ := List.mem_map.mp member
  exact nonneg item found

theorem weightOf_mono (nonneg : ∀ item ∈ items, 0 ≤ item.2) (wider : ∀ item ∈ items, p item.1 → q item.1) :
    weightOf p items ≤ weightOf q items := by
  induction items with
  | nil => exact le_rfl
  | cons item items ih =>
    obtain ⟨here, rest⟩ := List.forall_mem_cons.mp nonneg
    obtain ⟨grows, later⟩ := List.forall_mem_cons.mp wider
    have tail := ih rest later
    rw [weightOf_cons, weightOf_cons]
    by_cases both : p item.1
    · rw [if_pos both, if_pos (grows both)]
      linarith
    · rw [if_neg both]
      split <;> linarith

theorem weightOf_le_total (nonneg : ∀ item ∈ items, 0 ≤ item.2) : weightOf p items ≤ total items := by
  rw [← weightOf_eq_total (p := fun _ => True) fun _ _ => trivial]
  exact weightOf_mono nonneg fun _ _ _ => trivial

theorem weightOf_nonneg (nonneg : ∀ item ∈ items, 0 ≤ item.2) : 0 ≤ weightOf p items :=
  total_nonneg fun item member => nonneg item (List.mem_filter.mp member).1

/-- Two kinds of values that exclude each other share the weight. -/
theorem weightOf_add_le (nonneg : ∀ item ∈ items, 0 ≤ item.2) (apart : ∀ item ∈ items, p item.1 → ¬q item.1) :
    weightOf p items + weightOf q items ≤ total items := by
  induction items with
  | nil => simp [weightOf, total]
  | cons item items ih =>
    obtain ⟨here, rest⟩ := List.forall_mem_cons.mp nonneg
    obtain ⟨excludes, later⟩ := List.forall_mem_cons.mp apart
    have tail := ih rest later
    rw [weightOf_cons, weightOf_cons, total_cons]
    by_cases first : p item.1
    · rw [if_pos first, if_neg (excludes first)]
      linarith
    · rw [if_neg first]
      split <;> linarith

end Bounds

section Scaling
variable [Field 𝕜]

theorem total_scaled (items : List (α × 𝕜)) (scale : 𝕜) :
    total (items.map fun item => (item.1, item.2 / scale)) = total items / scale := by
  induction items with
  | nil => simp [total]
  | cons item items ih => rw [List.map_cons, total_cons, total_cons, ih, add_div]

theorem weightOf_scaled {p : α → Prop} [DecidablePred p] (items : List (α × 𝕜)) (scale : 𝕜) :
    weightOf p (items.map fun item => (item.1, item.2 / scale)) = weightOf p items / scale := by
  induction items with
  | nil => simp [weightOf]
  | cons item items ih =>
    rw [List.map_cons, weightOf_cons, weightOf_cons, ih, add_div]
    split <;> simp

end Scaling

variable [LinearOrder α] [Field 𝕜] [LinearOrder 𝕜]

/-- `v` is the least of the values such that items with values up to `v` hold half of the weight. -/
structure IsMedian (items : List (α × 𝕜)) (v : α) : Prop where
  value : v ∈ items.map (·.1)
  half : total items ≤ 2 * weightOf (· ≤ v) items
  least : ∀ u ∈ items.map (·.1), total items ≤ 2 * weightOf (· ≤ u) items → v ≤ u

namespace IsMedian
variable {items items' : List (α × 𝕜)} {v w : α}

theorem unique (first : IsMedian items v) (second : IsMedian items w) : v = w :=
  le_antisymm (first.least w second.value second.half) (second.least v first.value first.half)

theorem perm (median : IsMedian items v) (same : items.Perm items') : IsMedian items' v where
  value := (same.map _).mem_iff.mp median.value
  half := by
    rw [← total_perm same, ← weightOf_perm same]
    exact median.half
  least := by
    intro u member enough
    rw [← total_perm same, ← weightOf_perm same] at enough
    exact median.least u ((same.map _).mem_iff.mpr member) enough

/-- Where more than half of the weight is, there is the median. -/
theorem mem_Icc [IsStrictOrderedRing 𝕜] (median : IsMedian items v) (nonneg : ∀ item ∈ items, 0 ≤ item.2) {a b : α}
    (most : total items < 2 * weightOf (fun value => a ≤ value ∧ value ≤ b) items) : a ≤ v ∧ v ≤ b := by
  constructor
  · by_contra below
    have apart := weightOf_add_le (p := (· ≤ v)) (q := fun value => a ≤ value ∧ value ≤ b) nonneg
      fun item _ low high => below (high.1.trans low)
    have := median.half
    linarith
  · -- the greatest value in the interval has all of that weight up to it
    have some : ((items.filter fun item => a ≤ item.1 ∧ item.1 ≤ b).map (·.1)).toFinset.Nonempty := by
      rw [List.toFinset_nonempty_iff]
      intro empty
      have outside : ∀ item ∈ items, ¬(a ≤ item.1 ∧ item.1 ≤ b) := fun item member held =>
        List.filter_eq_nil_iff.mp (List.map_eq_nil_iff.mp empty) item member (decide_eq_true held)
      have none := weightOf_eq_zero (p := fun value => a ≤ value ∧ value ≤ b) outside
      have all := total_nonneg nonneg
      rw [none] at most
      linarith
    obtain ⟨u, member, greatest⟩ := Finset.exists_max_image _ id some
    obtain ⟨item, inside, rfl⟩ := List.mem_map.mp (List.mem_toFinset.mp member)
    obtain ⟨present, held⟩ := List.mem_filter.mp inside
    have wider := weightOf_mono (p := fun value => a ≤ value ∧ value ≤ b) (q := (· ≤ item.1)) nonneg fun other there within =>
      greatest other.1 (List.mem_toFinset.mpr (List.mem_map.mpr ⟨other, List.mem_filter.mpr ⟨there, decide_eq_true within⟩, rfl⟩))
    apply (median.least item.1 (List.mem_map.mpr ⟨item, present, rfl⟩) (by linarith)).trans
    exact (of_decide_eq_true held).2

end IsMedian

/-- Weights in proportion have the same median. -/
theorem isMedian_scaled [IsStrictOrderedRing 𝕜] {items : List (α × 𝕜)} {scale : 𝕜} (positive : 0 < scale) {v : α} :
    IsMedian (items.map fun item => (item.1, item.2 / scale)) v ↔ IsMedian items v := by
  have values : (items.map fun item => (item.1, item.2 / scale)).map (·.1) = items.map (·.1) := by
    rw [List.map_map]
    rfl
  have halves : ∀ u, total (items.map fun item => (item.1, item.2 / scale)) ≤
      2 * weightOf (· ≤ u) (items.map fun item => (item.1, item.2 / scale)) ↔ total items ≤ 2 * weightOf (· ≤ u) items := by
    intro u
    rw [total_scaled, weightOf_scaled, ← mul_div_assoc, div_le_div_iff_of_pos_right positive]
  constructor
  · intro median
    exact ⟨values ▸ median.value, (halves v).mp median.half,
      fun u member enough => median.least u (values ▸ member) ((halves u).mpr enough)⟩
  · intro median
    exact ⟨values ▸ median.value, (halves v).mpr median.half,
      fun u member enough => median.least u (values ▸ member) ((halves u).mp enough)⟩

/-! The search in order of value. -/

/-- The first item with which the weight, with what there was before, reaches the limit. -/
def firstReaching (weight : β → 𝕜) (limit : 𝕜) : 𝕜 → List β → Option β
  | _, [] => none
  | before, item :: rest =>
    if limit ≤ before + weight item then some item else firstReaching weight limit (before + weight item) rest

theorem firstReaching_eq_some {weight : β → 𝕜} {limit before : 𝕜} (short : before < limit) {items : List β} {item : β}
    (found : firstReaching weight limit before items = some item) : ∃ front back, items = front ++ item :: back ∧
      before + (front.map weight).sum < limit ∧ limit ≤ before + (front.map weight).sum + weight item := by
  induction items generalizing before with
  | nil => cases found
  | cons first rest ih =>
    rw [firstReaching] at found
    split at found
    next reached =>
      obtain rfl := Option.some.inj found
      exact ⟨[], rest, rfl, by simpa using short, by simpa using reached⟩
    next missed =>
      obtain ⟨front, back, rfl, under, reached⟩ := ih (not_le.mp missed) found
      refine ⟨first :: front, back, rfl, ?_, ?_⟩
      · rwa [List.map_cons, List.sum_cons, ← add_assoc]
      · rwa [List.map_cons, List.sum_cons, ← add_assoc]

theorem exists_firstReaching {weight : β → 𝕜} {limit before : 𝕜} (short : before < limit) {items : List β}
    (enough : limit ≤ before + (items.map weight).sum) : ∃ item, firstReaching weight limit before items = some item := by
  induction items generalizing before with
  | nil =>
    rw [List.map_nil, List.sum_nil, add_zero] at enough
    exact absurd enough (not_le.mpr short)
  | cons first rest ih =>
    rw [firstReaching]
    split
    next => exact ⟨first, rfl⟩
    next missed =>
      apply ih (not_le.mp missed)
      rwa [List.map_cons, List.sum_cons, ← add_assoc] at enough

/-- In the order of values, the item that reaches half of the weight has the median. -/
theorem isMedian_of_firstReaching [IsStrictOrderedRing 𝕜] {value : β → α} {weight : β → 𝕜} {items : List β}
    (sorted : items.Pairwise fun x y => value x ≤ value y) (nonneg : ∀ item ∈ items, 0 ≤ weight item) {limit : 𝕜} (some : 0 < limit)
    (half : 2 * limit = (items.map weight).sum) {item : β} (found : firstReaching weight limit 0 items = Option.some item) :
    IsMedian (items.map fun item => (value item, weight item)) (value item) := by
  obtain ⟨front, back, rfl, under, reached⟩ := firstReaching_eq_some some found
  obtain ⟨_, later, earlier⟩ := List.pairwise_append.mp sorted
  obtain ⟨following, _⟩ := List.pairwise_cons.mp later
  have weights : ∀ others : List β, total (others.map fun item => (value item, weight item)) = (others.map weight).sum := by
    intro others
    rw [total, List.map_map]
    rfl
  have sum := half.symm
  rw [← weights] at sum
  simp only [zero_add, ← weights] at under reached
  have front_nonneg : ∀ pair ∈ front.map fun item => (value item, weight item), 0 ≤ pair.2 := by
    intro pair member
    obtain ⟨before, inside, rfl⟩ := List.mem_map.mp member
    exact nonneg before (List.mem_append_left _ inside)
  have back_nonneg : ∀ pair ∈ back.map fun item => (value item, weight item), 0 ≤ pair.2 := by
    intro pair member
    obtain ⟨after, inside, rfl⟩ := List.mem_map.mp member
    exact nonneg after (List.mem_append_right _ (List.mem_cons_of_mem _ inside))
  refine ⟨List.mem_map.mpr ⟨(value item, weight item), by simp, rfl⟩, ?_, ?_⟩
  · have before : weightOf (· ≤ value item) (front.map fun item => (value item, weight item)) =
        total (front.map fun item => (value item, weight item)) := by
      apply weightOf_eq_total
      intro pair member
      obtain ⟨other, inside, rfl⟩ := List.mem_map.mp member
      exact earlier other inside item List.mem_cons_self
    have after := weightOf_nonneg (p := (· ≤ value item)) back_nonneg
    rw [sum, List.map_append, List.map_cons, weightOf_append, weightOf_cons, before, if_pos le_rfl]
    linarith
  · intro u _ enough
    by_contra below
    have none : ∀ pair ∈ back.map fun item => (value item, weight item), ¬pair.1 ≤ u := by
      intro pair member
      obtain ⟨other, inside, rfl⟩ := List.mem_map.mp member
      exact fun le => below ((following other inside).trans le)
    have after := weightOf_eq_zero (p := (· ≤ u)) none
    have before := weightOf_le_total (p := (· ≤ u)) front_nonneg
    rw [sum, List.map_append, List.map_cons, weightOf_append, weightOf_cons, if_neg below, after] at enough
    linarith

end OmocNode.Proofs.WeightedMedian
