import OmocNode.Lottery
import Mathlib.Data.Int.CardIntervalMod
import Mathlib.Algebra.BigOperators.Ring.Finset
import Mathlib.Algebra.Order.BigOperators.Group.Finset
import Mathlib.Data.List.Perm.Basic
import Mathlib.Data.List.Rotate
import Mathlib.Order.Interval.Finset.Nat
import Mathlib.Tactic.Linarith
import Mathlib.Tactic.Ring

/-! How often a weighted draw gives an item, over all numbers. For the numbers with
one remainder the order dealt is the same, and those of them that draw the item
lie in an interval. -/

namespace OmocNode.Proofs.Lottery
open OmocNode.Lottery Finset

section Deal
variable {α : Type*}

theorem deal_succ (key : Nat → Nat) (idx : Nat) {rounds : Nat} {pool : List α} (length : pool.length = rounds + 1) :
    ∃ inside : key idx % pool.length < pool.length, deal key (rounds + 1) idx pool =
      pool[key idx % pool.length] :: deal key rounds (idx + 1) (pool.eraseIdx (key idx % pool.length)) ∧
      (pool.eraseIdx (key idx % pool.length)).length = rounds := by
  have inside : key idx % pool.length < pool.length := Nat.mod_lt _ (by omega)
  refine ⟨inside, ?_, ?_⟩
  · rw [deal, List.getElem?_eq_getElem inside]
  · rw [List.length_eraseIdx_of_lt inside]
    omega

theorem deal_perm (key : Nat → Nat) : ∀ (rounds idx : Nat) (pool : List α), pool.length = rounds →
    (deal key rounds idx pool).Perm pool := by
  intro rounds
  induction rounds with
  | zero =>
    intro idx pool none
    rw [List.length_eq_zero_iff.mp none]
    exact List.Perm.refl _
  | succ rounds ih =>
    intro idx pool length
    obtain ⟨inside, first, left⟩ := deal_succ key idx length
    rw [first]
    exact ((ih (idx + 1) _ left).cons _).trans (List.getElem_cons_eraseIdx_perm inside)

@[simp] theorem buckets_length (weight : α → Nat) (items : List α) (limit : Nat) :
    (buckets weight limit items).length = items.length := by
  induction items generalizing limit with
  | nil => rfl
  | cons item rest ih => simp [buckets, ih]

theorem place_le (weight : α → Nat) (passed : Nat → Bool) (limit : Nat) (items : List α) :
    place weight passed limit items ≤ items.length :=
  ((List.takeWhile_sublist _).length_le).trans (buckets_length weight items limit).le

theorem place_cons (weight : α → Nat) (passed : Nat → Bool) (limit : Nat) (item : α) (rest : List α) :
    place weight passed limit (item :: rest) =
      if passed (limit + weight item) then place weight passed (limit + weight item) rest + 1 else 0 := by
  simp only [place, buckets, List.takeWhile_cons]
  split <;> simp

/-- Buckets end at growing limits, so passing the last one is passing all. -/
theorem place_eq_length_iff (weight : α → Nat) (passed : Nat → Bool)
    (down : ∀ low high, low ≤ high → passed high = true → passed low = true) (items : List α) (limit : Nat) :
    place weight passed limit items = items.length ↔ items = [] ∨ passed (limit + (items.map weight).sum) = true := by
  induction items generalizing limit with
  | nil => simp [place, buckets]
  | cons item rest ih =>
    rw [place_cons]
    split
    next first =>
      simp only [List.length_cons, Nat.add_right_cancel_iff, ih, List.map_cons, List.sum_cons, ← Nat.add_assoc,
        reduceCtorEq, false_or]
      constructor
      · intro held
        rcases held with rfl | last
        · simpa using first
        · exact last
      · exact Or.inr
    next first =>
      simp only [List.length_cons, List.map_cons, List.sum_cons, ← Nat.add_assoc, reduceCtorEq, false_or]
      constructor
      · intro impossible
        cases impossible
      · exact fun last => absurd (down _ _ (Nat.le_add_right _ _) last) first

/-- Where the first limit is passed and the last one is not, the place is the bucket between two neighbours. -/
theorem place_bucket (weight : α → Nat) (passed : Nat → Bool) (items : List α) (limit : Nat) (first : passed limit = true)
    (last : passed (limit + (items.map weight).sum) = false) :
    place weight passed limit items < items.length ∧
      passed (limit + ((items.take (place weight passed limit items)).map weight).sum) = true ∧
      passed (limit + ((items.take (place weight passed limit items + 1)).map weight).sum) = false := by
  induction items generalizing limit with
  | nil => simp [first] at last
  | cons item rest ih =>
    rw [place_cons]
    split
    next next =>
      obtain ⟨inside, below, above⟩ := ih (limit + weight item) next (by simpa [Nat.add_assoc] using last)
      refine ⟨by simpa using inside, ?_, ?_⟩
      · simpa [Nat.add_assoc] using below
      · simpa [Nat.add_assoc] using above
    next here => exact ⟨by simp, by simpa using first, by simpa using here⟩

/-- The first item once the list is turned to the place drawn. -/
theorem head?_rotate_place {weight : α → Nat} {reach : Nat → Nat} {item : α} (mono : Monotone reach) (items : List α)
    (n : Nat) :
    (items[place weight (fun bound => reach bound ≤ n) 0 items]? = some item →
      (items.rotate (place weight (fun bound => reach bound ≤ n) 0 items)).head? = some item) ∧
    ((items.rotate (place weight (fun bound => reach bound ≤ n) 0 items)).head? = some item →
      items[place weight (fun bound => reach bound ≤ n) 0 items]? = some item ∨ reach (items.map weight).sum ≤ n) := by
  rcases (place_le weight (fun bound => decide (reach bound ≤ n)) 0 items).lt_or_eq with inside | all
  · rw [List.head?_rotate inside]
    exact ⟨id, Or.inl⟩
  · rw [all, List.getElem?_eq_none le_rfl]
    refine ⟨fun none => (by cases none), fun first => Or.inr ?_⟩
    have down : ∀ low high, low ≤ high → decide (reach high ≤ n) = true → decide (reach low ≤ n) = true := by
      intro low high le passed
      simpa using (mono le).trans (by simpa using passed)
    rcases (place_eq_length_iff weight _ down items 0).mp all with rfl | passed
    · cases first
    · simpa using passed

end Deal

section Digits
variable {α : Type*} {base width : Nat}

theorem deal_congr {key key' : Nat → Nat} : ∀ (rounds idx : Nat) (pool : List α), pool.length = rounds →
    (∀ i, idx ≤ i → i < idx + rounds → key i % (idx + rounds - i) = key' i % (idx + rounds - i)) →
    deal key rounds idx pool = deal key' rounds idx pool := by
  intro rounds
  induction rounds with
  | zero => exact fun _ _ _ _ => rfl
  | succ rounds ih =>
    intro idx pool length same
    obtain ⟨_, first, left⟩ := deal_succ key idx length
    obtain ⟨_, first', _⟩ := deal_succ key' idx length
    have here : key idx % pool.length = key' idx % pool.length := by
      have chosen := same idx le_rfl (by omega)
      rwa [Nat.add_sub_cancel_left, ← length] at chosen
    rw [first, first']
    simp only [← here]
    congr 1
    apply ih (idx + 1) _ left
    intro i later inside
    have chosen := same i (by omega) (by omega)
    have rest : idx + (rounds + 1) = idx + 1 + rounds := by omega
    rwa [rest] at chosen

/-- All digits but the leading one are those of the remainder. -/
theorem digit_congr {x y idx : Nat} (later : 0 < idx) (inside : idx < width) (same : x ≡ y [MOD base ^ (width - 1)]) :
    digit base width x idx = digit base width y idx := by
  have power : base ^ (width - 1 - idx) * base ∣ base ^ (width - 1) := by
    rw [← pow_succ]
    exact pow_dvd_pow base (by omega)
  rw [digit, digit, ← Nat.mod_mul_right_div_self, ← Nat.mod_mul_right_div_self]
  exact congrArg (· / base ^ (width - 1 - idx)) (same.of_dvd power)

theorem leading_congr {count x y : Nat} (x_digits : x < base ^ width) (y_digits : y < base ^ width) (some : 0 < width)
    (same : x ≡ y [MOD base ^ (width - 1) * count]) : digit base width x 0 % count = digit base width y 0 % count := by
  have lead : ∀ n < base ^ width, digit base width n 0 = n / base ^ (width - 1) := by
    intro n digits
    rw [digit, Nat.sub_zero, Nat.mod_eq_of_lt]
    apply Nat.div_lt_of_lt_mul
    rwa [← pow_succ, Nat.sub_add_cancel some]
  rw [lead x x_digits, lead y y_digits, ← Nat.mod_mul_right_div_self, ← Nat.mod_mul_right_div_self]
  exact congrArg (· / base ^ (width - 1)) same

/-- The order dealt depends on the leading digit only up to multiples of the number of items. -/
theorem deal_digit_congr {x y : Nat} {pool : List α} (x_digits : x < base ^ width) (y_digits : y < base ^ width)
    (nonempty : pool ≠ []) (few : pool.length ≤ width) (same : x ≡ y [MOD base ^ (width - 1) * pool.length]) :
    deal (digit base width x) pool.length 0 pool = deal (digit base width y) pool.length 0 pool := by
  have filled := List.length_pos_of_ne_nil nonempty
  apply deal_congr _ _ _ rfl
  intro i _ inside
  rw [Nat.zero_add] at inside ⊢
  rcases Nat.eq_zero_or_pos i with rfl | later
  · exact leading_congr x_digits y_digits (by omega) same
  · rw [digit_congr later (by omega) (same.of_mul_right _)]

end Digits

section Bucket
variable {α : Type*} [DecidableEq α] {weight : α → Nat} {reach : Nat → Nat} {item : α} {n : Nat}

theorem start_le_bucket (mono : Monotone reach) {items : List α} {start limit : Nat} (early : start ≤ reach limit) :
    start ≤ (bucket weight reach item start limit items).1 ∧
      (bucket weight reach item start limit items).1 ≤ (bucket weight reach item start limit items).2 := by
  induction items generalizing start limit with
  | nil => exact ⟨le_rfl, le_rfl⟩
  | cons other rest ih =>
    have later : start ≤ reach (limit + weight other) := early.trans (mono (Nat.le_add_right _ _))
    rw [bucket]
    split
    · exact ⟨le_rfl, later⟩
    · obtain ⟨first, ordered⟩ := ih (le_refl (reach (limit + weight other)))
      exact ⟨later.trans first, ordered⟩

theorem bucket_le {bound : Nat} (bounded : ∀ limit, reach limit ≤ bound) {items : List α} {start limit : Nat} (early : start ≤ bound) :
    (bucket weight reach item start limit items).2 ≤ bound := by
  induction items generalizing start limit with
  | nil => exact early
  | cons other rest ih =>
    rw [bucket]
    split
    · exact bounded _
    · exact ih (bounded _)

/-- The place drawn is the item's for the numbers of its bucket. -/
theorem getElem?_place_iff (mono : Monotone reach) {items : List α} (distinct : items.Nodup) (member : item ∈ items)
    {start limit : Nat} (passed : start ≤ n) :
    items[place weight (fun bound => reach bound ≤ n) limit items]? = some item ↔
      (bucket weight reach item start limit items).1 ≤ n ∧ n < (bucket weight reach item start limit items).2 := by
  induction items generalizing start limit with
  | nil => cases member
  | cons other rest ih =>
    obtain ⟨fresh, distinct⟩ := List.nodup_cons.mp distinct
    rw [place_cons, bucket]
    by_cases same : other = item
    · subst same
      simp only [decide_eq_true_eq, if_true, passed, true_and]
      split
      next beyond =>
        rw [List.getElem?_cons_succ]
        exact iff_of_false (fun found => fresh (List.mem_of_getElem? found)) (by omega)
      next within => exact iff_of_true rfl (by omega)
    · have later : item ∈ rest := List.mem_of_ne_of_mem (Ne.symm same) member
      simp only [decide_eq_true_eq, if_neg same]
      split
      next beyond =>
        rw [List.getElem?_cons_succ]
        exact ih distinct later beyond
      next within =>
        have opens := (@start_le_bucket _ _ weight _ item mono rest _ _ (le_refl (reach (limit + weight other)))).1
        exact iff_of_false (fun found => same (Option.some.inj found)) (by omega)

/-- Where the limits are reached about in proportion, a bucket is about as long as its item weighs. -/
theorem bucket_close {rate slack : ℚ} {total : Nat} (close : ∀ limit ≤ total, |(reach limit : ℚ) - rate * limit| ≤ slack)
    {items : List α} (member : item ∈ items) {start limit : Nat} (within : limit + (items.map weight).sum ≤ total)
    (opens : |(start : ℚ) - rate * limit| ≤ slack) :
    |((bucket weight reach item start limit items).2 : ℚ) - (bucket weight reach item start limit items).1 - rate * weight item| ≤
      2 * slack := by
  induction items generalizing start limit with
  | nil => cases member
  | cons other rest ih =>
    rw [List.map_cons, List.sum_cons] at within
    have closes := close (limit + weight other) (by omega)
    rw [bucket]
    by_cases same : other = item
    · subst same
      rw [if_pos rfl]
      rw [Nat.cast_add, mul_add] at closes
      rw [abs_le] at opens closes ⊢
      constructor <;> linarith
    · rw [if_neg same]
      exact ih (List.mem_of_ne_of_mem (Ne.symm same) member) (by omega) closes

end Bucket

section Progressions
variable {d : Nat}

/-- Of an interval's numbers, one in `d` has a given remainder, up to one more or one less. -/
theorem card_progression_close (positive : 0 < d) (v : Nat) {lo hi : Nat} (le : lo ≤ hi) :
    |(((Ico lo hi).filter fun x => x ≡ v [MOD d]).card : ℚ) - (hi - lo) / d| < 1 := by
  have unit : (0 : ℚ) < d := by exact_mod_cast positive
  have below : ((lo : ℚ) - v) / d ≤ (hi - v) / d := by
    apply div_le_div_of_nonneg_right _ unit.le
    have : (lo : ℚ) ≤ hi := by exact_mod_cast le
    linarith
  have count := Nat.Ico_filter_modEq_card lo hi positive v
  rw [max_eq_left (sub_nonneg.mpr (Int.ceil_mono below))] at count
  have cast : (((Ico lo hi).filter fun x => x ≡ v [MOD d]).card : ℚ) = ⌈((hi : ℚ) - v) / d⌉ - ⌈((lo : ℚ) - v) / d⌉ := by
    exact_mod_cast congrArg (Int.cast : ℤ → ℚ) count
  have width : ((hi : ℚ) - lo) / d = (hi - v) / d - (lo - v) / d := by ring
  rw [cast, width, abs_lt]
  have := Int.ceil_lt_add_one (((hi : ℚ) - v) / d)
  have := Int.le_ceil (((hi : ℚ) - v) / d)
  have := Int.ceil_lt_add_one (((lo : ℚ) - v) / d)
  have := Int.le_ceil (((lo : ℚ) - v) / d)
  constructor <;> linarith

theorem card_late (bound first : Nat) : ((range bound).filter fun x => first ≤ x).card = bound - first := by
  have same : ((range bound).filter fun x => first ≤ x) = Ico first bound := by
    ext x
    simp only [mem_filter, mem_range, mem_Ico]
    exact and_comm
  rw [same, Nat.card_Ico]

/-- Intervals that depend on the remainder hold about as many of the numbers below
`bound`, whatever the remainder, as they are long. -/
theorem card_remainders_close (positive : 0 < d) {bound : Nat} {lo hi : Nat → Nat} {share slack : ℚ}
    (ordered : ∀ v < d, lo v ≤ hi v) (bounded : ∀ v < d, hi v ≤ bound)
    (close : ∀ v < d, |(hi v : ℚ) - lo v - share| ≤ slack) :
    |(((range bound).filter fun x => lo (x % d) ≤ x ∧ x < hi (x % d)).card : ℚ) - share| < d + slack := by
  have unit : (0 : ℚ) < d := by exact_mod_cast positive
  have fibers : ((range bound).filter fun x => lo (x % d) ≤ x ∧ x < hi (x % d)).card =
      ∑ v ∈ range d, ((Ico (lo v) (hi v)).filter fun x => x ≡ v [MOD d]).card := by
    rw [card_eq_sum_card_fiberwise (f := (· % d)) (t := range d)
      fun x _ => by simpa using Nat.mod_lt x positive]
    apply sum_congr rfl
    intro v small
    rw [mem_range] at small
    congr 1
    ext x
    simp only [mem_filter, mem_range, mem_Ico, Nat.ModEq, Nat.mod_eq_of_lt small]
    constructor
    · rintro ⟨⟨_, inside⟩, rfl⟩
      exact ⟨inside, rfl⟩
    · rintro ⟨inside, rfl⟩
      exact ⟨⟨inside.2.trans_le (bounded _ small), inside⟩, rfl⟩
  have each : ∀ v ∈ range d, |(((Ico (lo v) (hi v)).filter fun x => x ≡ v [MOD d]).card : ℚ) - share / d| < 1 + slack / d := by
    intro v small
    rw [mem_range] at small
    have progression := card_progression_close positive v (ordered v small)
    have part : |((hi v : ℚ) - lo v) / d - share / d| ≤ slack / d := by
      rw [← sub_div, abs_div, abs_of_pos unit]
      exact div_le_div_of_nonneg_right (close v small) unit.le
    calc |(((Ico (lo v) (hi v)).filter fun x => x ≡ v [MOD d]).card : ℚ) - share / d|
        ≤ |(((Ico (lo v) (hi v)).filter fun x => x ≡ v [MOD d]).card : ℚ) - ((hi v : ℚ) - lo v) / d| +
          |((hi v : ℚ) - lo v) / d - share / d| := abs_sub_le _ _ _
      _ < 1 + slack / d := add_lt_add_of_lt_of_le progression part
  have whole : ((((range bound).filter fun x => lo (x % d) ≤ x ∧ x < hi (x % d)).card : ℚ) - share) =
      ∑ v ∈ range d, ((((Ico (lo v) (hi v)).filter fun x => x ≡ v [MOD d]).card : ℚ) - share / d) := by
    rw [sum_sub_distrib, fibers, Nat.cast_sum, sum_const, card_range, nsmul_eq_mul, mul_div_cancel₀ _ unit.ne']
  rw [whole]
  calc |∑ v ∈ range d, ((((Ico (lo v) (hi v)).filter fun x => x ≡ v [MOD d]).card : ℚ) - share / d)|
      ≤ ∑ v ∈ range d, |(((Ico (lo v) (hi v)).filter fun x => x ≡ v [MOD d]).card : ℚ) - share / d| := abs_sum_le_sum_abs _ _
    _ < ∑ _v ∈ range d, (1 + slack / d) := sum_lt_sum_of_nonempty (nonempty_range_iff.mpr positive.ne') each
    _ = d + slack := by rw [sum_const, card_range, nsmul_eq_mul, mul_add, mul_one, mul_div_cancel₀ _ unit.ne']

end Progressions

theorem bisect_spec (holds : Nat → Bool) (bits : Nat) : ∀ lo : Nat,
    (∀ low high, lo ≤ low → low ≤ high → high < lo + 2 ^ bits → holds high = true → holds low = true) →
    bisect holds bits lo ≤ 2 ^ bits ∧
      ∀ n, lo ≤ n → n < lo + 2 ^ bits → (holds n = true ↔ n < lo + bisect holds bits lo) := by
  induction bits with
  | zero =>
    intro lo _
    rw [bisect]
    split
    next yes =>
      refine ⟨le_rfl, ?_⟩
      intro n least below
      obtain rfl : n = lo := by omega
      exact iff_of_true yes (by omega)
    next no =>
      refine ⟨by omega, ?_⟩
      intro n least below
      obtain rfl : n = lo := by omega
      exact iff_of_false no (by omega)
  | succ bits ih =>
    intro lo down
    rw [bisect]
    rw [pow_succ] at *
    split
    next upper =>
      obtain ⟨bound, spec⟩ := ih (lo + 2 ^ bits) (fun low high a b c => down low high (by omega) b (by omega))
      refine ⟨by omega, ?_⟩
      intro n least below
      by_cases half : lo + 2 ^ bits ≤ n
      · rw [spec n half (by omega)]
        omega
      · have := down n (lo + 2 ^ bits) least (by omega) (by have := Nat.pow_pos (n := bits) (show 0 < 2 by omega); omega) upper
        simp only [this, true_iff]
        omega
    next lower =>
      obtain ⟨bound, spec⟩ := ih lo (fun low high a b c => down low high a b (by omega))
      refine ⟨by omega, ?_⟩
      intro n least below
      by_cases half : lo + 2 ^ bits ≤ n
      · have no : holds n ≠ true := fun yes => lower (down (lo + 2 ^ bits) n (by omega) half below yes)
        exact iff_of_false no (by omega)
      · exact spec n least (by omega)

end OmocNode.Proofs.Lottery
