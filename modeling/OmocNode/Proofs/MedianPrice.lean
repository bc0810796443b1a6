import OmocNode.PriceFeeder
import OmocNode.Proofs.Outcomes
import OmocNode.Proofs.WeightedMedian

/-! The price a node works with is the weighted median of the prices it can use.
Positions go back and forth between the samples, the finite ones of them and
their sorted tuples, and come out at the sample with the median. -/

namespace OmocNode.Proofs.MedianPrice
open PriceEngines TimeWithTimestampQueue PriceFeederLoop Outcomes WeightedMedian

theorem getItem_eq {α : Type} {items : List α} {position : Nat} {item : α} (found : items[position]? = some item) :
    Python.getItem items position = .ok item := by
  have nonneg : ¬((position : Int) < 0) := by omega
  simp only [Python.getItem, nonneg, if_false, Int.toNat_natCast, found]

instance : Std.Total Weighted.le where
  total x y := by
    rcases lt_trichotomy x.1 y.1 with less | same | more
    · exact Or.inl (Or.inl less)
    · rcases lt_trichotomy x.2.1 y.2.1 with less | same' | more
      · exact Or.inl (Or.inr ⟨same, Or.inl less⟩)
      · rcases Nat.le_total x.2.2 y.2.2 with le | le
        · exact Or.inl (Or.inr ⟨same, Or.inr ⟨same', le⟩⟩)
        · exact Or.inr (Or.inr ⟨same.symm, Or.inr ⟨same'.symm, le⟩⟩)
      · exact Or.inr (Or.inr ⟨same.symm, Or.inl more⟩)
    · exact Or.inr (Or.inl more)

instance : IsTrans Weighted Weighted.le where
  trans x y z := by
    intro first second
    rcases first with less | ⟨same, first⟩
    · rcases second with less' | ⟨same', _⟩
      · exact Or.inl (less.trans less')
      · exact Or.inl (same' ▸ less)
    · rcases second with less' | ⟨same', second⟩
      · exact Or.inl (same ▸ less')
      · refine Or.inr ⟨same.trans same', ?_⟩
        rcases first with less | ⟨same, le⟩
        · rcases second with less' | ⟨same', _⟩
          · exact Or.inl (less.trans less')
          · exact Or.inl (same' ▸ less)
        · rcases second with less' | ⟨same', le'⟩
          · exact Or.inl (same ▸ less')
          · exact Or.inr ⟨same.trans same', le.trans le'⟩

/-- The two ways to end the loop are one. -/
theorem medianPoint_eq (cumulativeProbability : ℚ) (tuples : List Weighted) : medianPoint cumulativeProbability tuples =
    (firstReaching (fun tuple : Weighted => tuple.2.1) (1 / 2) cumulativeProbability tuples).map (·.2.2) := by
  induction tuples generalizing cumulativeProbability with
  | nil => rfl
  | cons tuple rest ih =>
    rw [medianPoint, firstReaching]
    rcases lt_trichotomy (1 / 2) (cumulativeProbability + tuple.2.1) with more | same | less
    · rw [if_pos more, if_pos more.le, Option.map_some]
    · rw [if_neg same.not_lt, if_pos same.symm, if_pos same.le, Option.map_some]
    · rw [if_neg less.not_gt, if_neg less.ne, if_neg less.not_ge, ih]

/-- A tuple knows the position of its value. -/
theorem getElem_of_mem_zip {values weights : List ℚ} {tuple : Weighted}
    (member : tuple ∈ values.zip (weights.zip (List.range values.length))) : values[tuple.2.2]? = some tuple.1 := by
  obtain ⟨position, found⟩ := List.mem_iff_getElem?.mp member
  rw [List.getElem?_zip_eq_some] at found
  obtain ⟨value, rest⟩ := found
  rw [List.getElem?_zip_eq_some] at rest
  obtain ⟨inside, same⟩ := List.getElem?_eq_some_iff.mp rest.2
  rw [List.getElem_range] at same
  rw [← same, value]

/-- The tuples are the values with their normalized weights. -/
theorem tuples_eq {values weights : List ℚ} (paired : weights.length = values.length) (scale : ℚ) :
    (values.zip ((weights.map (· / scale)).zip (List.range values.length))).map (fun tuple => (tuple.1, tuple.2.1)) =
      (values.zip weights).map fun item => (item.1, item.2 / scale) := by
  have firsts : ((weights.map (· / scale)).zip (List.range values.length)).map (·.1) = weights.map (· / scale) := by
    rw [List.map_fst_zip]
    simp [paired]
  have scaled : values.zip (weights.map (· / scale)) = (values.zip weights).map (Prod.map id (· / scale)) := List.zip_map_right
  rw [← firsts, List.zip_map_right] at scaled
  exact scaled

private theorem divide_weights {weights : List ℚ} (sum : weights.sum ≠ 0) :
    weights.mapM (PyDecimal.divide · weights.sum) = .ok (weights.map (· / weights.sum)) := by
  rw [mapM_eq_ok_iff, List.forall₂_map_right_iff, List.forall₂_same]
  intro weight _
  exact if_pos sum

private theorem weightedMedianIdx_isMedian {values weights : List ℚ} (paired : weights.length = values.length) (nonempty : weights ≠ [])
    (positive : ∀ weight ∈ weights, 0 < weight) :
    ∃ idx v, weightedMedianIdx values weights = .ok idx ∧ values[idx]? = some v ∧ IsMedian (values.zip weights) v := by
  have sum : 0 < weights.sum := List.sum_pos weights positive nonempty
  have pairs := tuples_eq paired weights.sum
  generalize zip : values.zip ((weights.map (· / weights.sum)).zip (List.range values.length)) = tuples at pairs
  have sorted := List.perm_insertionSort Weighted.le tuples
  have ordered : (tuples.insertionSort Weighted.le).Pairwise fun x y => x.1 ≤ y.1 := by
    apply (List.pairwise_insertionSort Weighted.le tuples).imp
    intro x y le
    rcases le with less | ⟨same, _⟩
    · exact less.le
    · exact same.le
  have one : ((tuples.insertionSort Weighted.le).map fun tuple => tuple.2.1).sum = 1 := by
    have weighed : total (values.zip weights) = weights.sum := by
      rw [total, List.map_snd_zip paired.le]
    have normalized := total_scaled (values.zip weights) weights.sum
    rw [← pairs, weighed, div_self sum.ne', total, List.map_map] at normalized
    rw [(sorted.map _).sum_eq]
    exact normalized
  have nonneg : ∀ tuple ∈ tuples.insertionSort Weighted.le, 0 ≤ tuple.2.1 := by
    intro tuple member
    have listed : (tuple.1, tuple.2.1) ∈ tuples.map fun tuple => (tuple.1, tuple.2.1) :=
      List.mem_map.mpr ⟨tuple, sorted.mem_iff.mp member, rfl⟩
    rw [pairs] at listed
    obtain ⟨item, inside, same⟩ := List.mem_map.mp listed
    have weight := positive item.2 (List.of_mem_zip inside).2
    rw [← (Prod.mk.inj same).2]
    exact (div_pos weight sum).le
  obtain ⟨tuple, found⟩ : ∃ tuple, firstReaching (fun tuple : Weighted => tuple.2.1) (1 / 2) 0 (tuples.insertionSort Weighted.le) =
      some tuple := by
    apply exists_firstReaching
    · norm_num
    · rw [one]
      norm_num
  have median := isMedian_of_firstReaching ordered nonneg (by norm_num) (by rw [one]; norm_num) found
  have original := (isMedian_scaled sum).mp (pairs ▸ median.perm (sorted.map _))
  refine ⟨tuple.2.2, tuple.1, ?_, ?_, original⟩
  · simp only [weightedMedianIdx, divide_weights sum.ne', bind, Except.bind, zip, medianPoint_eq, found, Option.map_some]
    rfl
  · obtain ⟨front, back, split, _⟩ := firstReaching_eq_some (by norm_num) found
    apply getElem_of_mem_zip
    rw [zip, ← sorted.mem_iff, split]
    exact List.mem_append_right _ List.mem_cons_self

/-- A finite price and its weight. -/
def finitePair (x : ExchangePrice) : Option (ℚ × ℚ) :=
  match x.price with
  | .finite price => some (price, x.ponderation)
  | _ => none

private theorem finitePair_eq_some {x : ExchangePrice} {pair : ℚ × ℚ} :
    finitePair x = some pair ↔ x.price = .finite pair.1 ∧ x.ponderation = pair.2 := by
  unfold finitePair
  split
  next price finite => simp [finite, Prod.ext_iff]
  next infinite =>
    constructor
    · nofun
    · intro same
      exact absurd same.1 (infinite _)

theorem finitePrice_eq (entry : ExchangePrice × Nat) :
    finitePrice entry = (finitePair entry.1).map fun pair => (pair.1, pair.2, entry.2) := by
  unfold finitePrice finitePair
  cases entry.1.price <;> rfl

/-- The finite prices in their order, whatever their positions are. -/
theorem finitePrices_pairs (fPrices : List ExchangePrice) :
    (fPrices.zipIdx.filterMap finitePrice).map (fun tuple => (tuple.1, tuple.2.1)) = fPrices.filterMap finitePair := by
  conv_rhs => rw [← List.zipIdx_map_fst 0 fPrices, List.filterMap_map]
  rw [List.map_filterMap]
  apply List.filterMap_congr
  intro entry _
  rw [finitePrice_eq, Option.map_map, Function.comp_apply]
  exact Option.map_id'

/-- The sample that the positions lead back to has the median of the finite prices. -/
theorem getWeightedFrom_isMedian {fPrices : List ExchangePrice} (positive : ∀ x ∈ fPrices, 0 < x.ponderation)
    (some : fPrices.filterMap finitePair ≠ []) : ∃ x ∈ fPrices, ∃ v, getWeightedFrom fPrices = .ok x ∧ x.price = .finite v ∧
      IsMedian (fPrices.filterMap finitePair) v := by
  have pairs := finitePrices_pairs fPrices
  have back : ∀ tuple ∈ fPrices.zipIdx.filterMap finitePrice, ∃ x, fPrices[tuple.2.2]? = Option.some x ∧
      finitePair x = Option.some (tuple.1, tuple.2.1) := by
    intro tuple member
    obtain ⟨entry, inside, same⟩ := List.mem_filterMap.mp member
    rw [finitePrice_eq] at same
    obtain ⟨pair, finite, rfl⟩ := Option.map_eq_some_iff.mp same
    exact ⟨entry.1, List.mem_zipIdx_iff_getElem?.mp inside, finite⟩
  generalize listed : fPrices.zipIdx.filterMap finitePrice = finitePrices at pairs back
  have nonempty : finitePrices ≠ [] := by
    intro empty
    rw [empty] at pairs
    exact some pairs.symm
  have zipped : (finitePrices.map (·.1)).zip (finitePrices.map (·.2.1)) = fPrices.filterMap finitePair := by
    rw [List.zip_map', pairs]
  have weights : ∀ weight ∈ finitePrices.map (·.2.1), 0 < weight := by
    intro weight member
    obtain ⟨tuple, inside, rfl⟩ := List.mem_map.mp member
    obtain ⟨x, source, finite⟩ := back tuple inside
    have weight : x.ponderation = tuple.2.1 := (finitePair_eq_some.mp finite).2
    rw [← weight]
    exact positive x (List.mem_of_getElem? source)
  have lengths : (finitePrices.map (·.2.1)).length = (finitePrices.map (·.1)).length := by
    rw [List.length_map, List.length_map]
  obtain ⟨idx, v, selected, found, median⟩ := weightedMedianIdx_isMedian lengths (by simpa using nonempty) weights
  rw [zipped] at median
  rw [List.getElem?_map, Option.map_eq_some_iff] at found
  obtain ⟨tuple, there, rfl⟩ := found
  obtain ⟨x, source, finite⟩ := back tuple (List.mem_of_getElem? there)
  refine ⟨x, List.mem_of_getElem? source, tuple.1, ?_, (finitePair_eq_some.mp finite).1, median⟩
  have position : Python.getItem (finitePrices.map (·.2.2)) idx = .ok tuple.2.2 := by
    apply getItem_eq
    rw [List.getElem?_map, there, Option.map_some]
  simp only [getWeightedFrom, listed, List.isEmpty_eq_false_iff.mpr nonempty, Bool.false_eq_true, if_false, selected, bind,
    Except.bind, position, getItem_eq source]

section Feeder
variable {feeder : PriceFeederLoop} {targetTimeUtc : PyFloat} {toPublish : Bool}

/-- Price and weight of an exchange whose nearest sample is finite and close enough to the time. -/
def eligiblePair (feeder : PriceFeederLoop) (targetTimeUtc : PyFloat) (toPublish : Bool) (queue : String × TimeWithTimestampQueue) :
    Option (ℚ × ℚ) := do
  let x ← getNearestData queue.2 targetTimeUtc
  let pair ← finitePair x
  if (distance targetTimeUtc x).le (feeder.maxdiffs toPublish) then some pair else none

def eligible (feeder : PriceFeederLoop) (targetTimeUtc : PyFloat) (toPublish : Bool) : List (ℚ × ℚ) :=
  feeder.priceQueues.filterMap (eligiblePair feeder targetTimeUtc toPublish)

/-- What the node answers when it is asked for a price. -/
structure PricedByMedian (feeder : PriceFeederLoop) (targetTimeUtc : PyFloat) (toPublish : Bool) : Prop where
  none : feeder.getLastPrice targetTimeUtc toPublish = .ok none ↔ eligible feeder targetTimeUtc toPublish = []
  median : eligible feeder targetTimeUtc toPublish ≠ [] → ∃ v price tsUtc,
    feeder.getLastPrice targetTimeUtc toPublish = .ok (some ⟨price, tsUtc⟩) ∧
      IsMedian (eligible feeder targetTimeUtc toPublish) v ∧ (0 ≤ v → price = ⌊v * 10 ^ feeder.oraclePriceDigits⌋) ∧
      ∀ a b, total (eligible feeder targetTimeUtc toPublish) <
        2 * weightOf (fun price => a ≤ price ∧ price ≤ b) (eligible feeder targetTimeUtc toPublish) → a ≤ v ∧ v ≤ b
  order : ∀ queues, feeder.priceQueues.Perm queues →
    (PriceFeederLoop.getLastPrice { feeder with priceQueues := queues } targetTimeUtc toPublish).map (Option.map (·.price)) =
      (feeder.getLastPrice targetTimeUtc toPublish).map (Option.map (·.price))
  ignored : ∀ front queue back, feeder.priceQueues = front ++ queue :: back →
    eligiblePair feeder targetTimeUtc toPublish queue = Option.none →
    PriceFeederLoop.getLastPrice { feeder with priceQueues := front ++ back } targetTimeUtc toPublish =
      feeder.getLastPrice targetTimeUtc toPublish

private theorem mem_of_minBy {α κ : Type} {less : κ → κ → Bool} {key : α → κ} {items : List α} {least : α}
    (found : Python.minBy less key items = some least) : least ∈ items := by
  cases items with
  | nil => cases found
  | cons first rest =>
    obtain rfl := Option.some.inj found
    clear found
    induction rest generalizing first with
    | nil => exact List.mem_cons_self
    | cons next rest ih =>
      rw [List.foldl_cons]
      split
      · exact List.mem_cons_of_mem _ (ih next)
      · rcases List.mem_cons.mp (ih first) with here | later
        · rw [here]
          exact List.mem_cons_self
        · exact List.mem_cons_of_mem _ (List.mem_cons_of_mem _ later)

theorem mem_of_getNearestData {queue : TimeWithTimestampQueue} {x : ExchangePrice}
    (nearest : getNearestData queue targetTimeUtc = some x) : x ∈ queue := by
  unfold getNearestData at nearest
  split at nearest
  · cases nearest
  next ret1 first =>
    have here := mem_of_minBy first
    split at nearest
    · exact Option.some.inj nearest ▸ here
    next ret2 second =>
      have there := (List.mem_filter.mp (mem_of_minBy second)).1
      dsimp only at nearest
      split_ifs at nearest
      · exact Option.some.inj nearest ▸ here
      · exact Option.some.inj nearest ▸ here
      · exact Option.some.inj nearest ▸ there

/-- The samples that pass the filters. -/
def inUse (feeder : PriceFeederLoop) (targetTimeUtc : PyFloat) (toPublish : Bool) : List ExchangePrice :=
  (feeder.priceQueues.filterMap fun queue => getNearestData queue.2 targetTimeUtc).filter (feeder.usable targetTimeUtc toPublish)

theorem eligible_eq (feeder : PriceFeederLoop) (targetTimeUtc : PyFloat) (toPublish : Bool) :
    eligible feeder targetTimeUtc toPublish = (inUse feeder targetTimeUtc toPublish).filterMap finitePair := by
  rw [eligible, inUse, List.filterMap_filter, List.filterMap_filterMap]
  apply List.filterMap_congr
  intro queue _
  rw [eligiblePair, Option.bind_eq_bind]
  congr 1
  funext x
  cases finite : x.price <;> simp [finitePair, usable, finite]

/-- A sample in use has its pair, so that there is one for each. -/
theorem inUse_eq_nil_iff : inUse feeder targetTimeUtc toPublish = [] ↔ eligible feeder targetTimeUtc toPublish = [] := by
  rw [eligible_eq, List.filterMap_eq_nil_iff]
  constructor
  · intro empty x member
    rw [empty] at member
    cases member
  · intro none
    rw [List.eq_nil_iff_forall_not_mem]
    intro x member
    have accepted := (List.mem_filter.mp member).2
    have absent := none x member
    unfold usable at accepted
    unfold finitePair at absent
    cases finite : x.price <;> simp [finite] at accepted absent

/-- An exchange that is not eligible leaves nothing in use. -/
theorem inUse_without {front back : List (String × TimeWithTimestampQueue)} {queue : String × TimeWithTimestampQueue}
    (split : feeder.priceQueues = front ++ queue :: back) (ineligible : eligiblePair feeder targetTimeUtc toPublish queue = none) :
    inUse { feeder with priceQueues := front ++ back } targetTimeUtc toPublish = inUse feeder targetTimeUtc toPublish := by
  have same : PriceFeederLoop.usable { feeder with priceQueues := front ++ back } = feeder.usable := rfl
  rw [inUse, inUse, split, same, List.filterMap_append, List.filterMap_append, List.filter_append, List.filter_append]
  congr 1
  cases nearest : getNearestData queue.2 targetTimeUtc with
  | none => simp only [List.filterMap_cons, nearest]
  | some x =>
    have unused : ¬feeder.usable targetTimeUtc toPublish x = true := by
      unfold usable
      unfold eligiblePair finitePair at ineligible
      rw [nearest] at ineligible
      cases finite : x.price <;> simp_all
    simp only [List.filterMap_cons, nearest, List.filter_cons_of_neg unused]

theorem getLastPrice_none (none : eligible feeder targetTimeUtc toPublish = []) :
    feeder.getLastPrice targetTimeUtc toPublish = .ok .none := by
  have empty := inUse_eq_nil_iff.mpr none
  unfold inUse at empty
  simp only [getLastPrice, empty, List.isEmpty_nil, if_true]

/-- The price has its sign's rounding; on prices that are not negative it rounds down. -/
theorem truncate_eq_floor {value : ℚ} (nonneg : 0 ≤ value) : Python.truncate value = ⌊value⌋ := if_neg (not_lt.mpr nonneg)

variable (positive : ∀ queue ∈ feeder.priceQueues, ∀ x ∈ queue.2, 0 < x.ponderation)
include positive

theorem inUse_positive : ∀ x ∈ inUse feeder targetTimeUtc toPublish, 0 < x.ponderation := by
  intro x member
  obtain ⟨queue, listed, nearest⟩ := List.mem_filterMap.mp (List.mem_filter.mp member).1
  exact positive queue listed x (mem_of_getNearestData nearest)

private theorem eligible_nonneg : ∀ pair ∈ eligible feeder targetTimeUtc toPublish, 0 ≤ pair.2 := by
  rw [eligible_eq]
  intro pair member
  obtain ⟨x, used, finite⟩ := List.mem_filterMap.mp member
  have weight := (finitePair_eq_some.mp finite).2
  rw [← weight]
  exact (inUse_positive positive x used).le

theorem getLastPrice_isMedian (some : eligible feeder targetTimeUtc toPublish ≠ []) : ∃ v tsUtc,
    feeder.getLastPrice targetTimeUtc toPublish = .ok (.some ⟨Python.truncate (v * 10 ^ feeder.oraclePriceDigits), tsUtc⟩) ∧
      IsMedian (eligible feeder targetTimeUtc toPublish) v := by
  have nonempty := mt inUse_eq_nil_iff.mp some
  rw [eligible_eq] at some ⊢
  obtain ⟨x, _, v, selected, finite, median⟩ := getWeightedFrom_isMedian (inUse_positive positive) some
  refine ⟨v, x.tsUtc, ?_, median⟩
  unfold inUse at nonempty selected
  simp only [getLastPrice, List.isEmpty_eq_false_iff.mpr nonempty, Bool.false_eq_true, if_false, selected, bind, Except.bind, finite,
    pure, Except.pure]

end Feeder

/-- In every state of the queues, at every time and in both modes. -/
theorem last_price_is_median (feeder : PriceFeederLoop) (targetTimeUtc : PyFloat) (toPublish : Bool)
    (positive : ∀ queue ∈ feeder.priceQueues, ∀ x ∈ queue.2, 0 < x.ponderation) :
    PricedByMedian feeder targetTimeUtc toPublish where
  none := by
    refine ⟨?_, getLastPrice_none⟩
    intro unpriced
    by_contra some
    obtain ⟨v, tsUtc, priced, _⟩ := getLastPrice_isMedian positive some
    rw [priced] at unpriced
    cases unpriced
  median := by
    intro some
    obtain ⟨v, tsUtc, priced, median⟩ := getLastPrice_isMedian positive some
    refine ⟨v, _, tsUtc, priced, median, ?_, ?_⟩
    · intro nonneg
      exact truncate_eq_floor (by positivity)
    · intro a b most
      exact median.mem_Icc (eligible_nonneg positive) most
  order := by
    intro queues reordered
    have moved : (eligible feeder targetTimeUtc toPublish).Perm
        (eligible { feeder with priceQueues := queues } targetTimeUtc toPublish) := reordered.filterMap _
    by_cases some : eligible feeder targetTimeUtc toPublish = []
    · have empty := moved
      rw [some] at empty
      rw [getLastPrice_none some, getLastPrice_none empty.nil_eq.symm]
    · have others : ∀ queue ∈ PriceFeederLoop.priceQueues { feeder with priceQueues := queues }, ∀ x ∈ queue.2, 0 < x.ponderation :=
        fun queue member => positive queue (reordered.mem_iff.mpr member)
      have nonempty : eligible { feeder with priceQueues := queues } targetTimeUtc toPublish ≠ [] := by
        intro empty
        rw [empty] at moved
        exact some moved.eq_nil
      obtain ⟨v, tsUtc, priced, median⟩ := getLastPrice_isMedian positive some
      obtain ⟨w, tsUtc', priced', median'⟩ := getLastPrice_isMedian others nonempty
      obtain rfl := (median.perm moved).unique median'
      rw [priced, priced']
      rfl
  ignored := by
    intro front queue back split ineligible
    have same := inUse_without split ineligible
    unfold inUse at same
    simp only [getLastPrice, same]

/-- Six exchanges, of which one has no price and one an old one. Half of the
others' weight is on the lower prices, and two agree on the highest. -/
def someFeeder : PriceFeederLoop where
  priceQueues :=
    [("bitstamp", [⟨"bitstamp", .finite 101, 18 / 100, .finite 1700000000⟩]),
      ("bitgo", [⟨"bitgo", .nan, 15 / 100, .finite 1700000001⟩]),
      ("kraken", [⟨"kraken", .finite 99, 21 / 100, .finite 1600000000⟩]),
      ("coinbase", [⟨"coinbase", .finite 100, 25 / 100, .finite 1700000001⟩]),
      ("gemini", [⟨"gemini", .finite 98, 5 / 100, .finite 1700000000⟩]),
      ("okcoin", [⟨"okcoin", .finite 101, 12 / 100, .finite 1700000001⟩])]
  oraclePricePublishMaxDiff := .finite 30
  oraclePriceValidateMaxDiff := .finite 60
  oraclePriceDigits := 18

theorem last_price_is_median_here : PricedByMedian someFeeder (.finite 1700000002) true := by
  apply last_price_is_median
  intro queue listed x member
  simp only [someFeeder, List.mem_cons, List.not_mem_nil, or_false] at listed
  rcases listed with rfl | rfl | rfl | rfl | rfl | rfl <;> obtain rfl := List.mem_singleton.mp member <;> norm_num

end OmocNode.Proofs.MedianPrice
