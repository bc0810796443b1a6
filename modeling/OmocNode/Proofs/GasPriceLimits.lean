import OmocNode.GasCalculator
import Mathlib.Tactic.Linarith
import Mathlib.Tactic.Positivity
import Mathlib.Tactic.GCongr

/-! The limits on the gas price over a run. Each price is bounded by the last one,
the hard minimum and the contract's value, and so is every later one by an earlier. -/

namespace OmocNode.Proofs.GasPriceLimits
open GasCalculator Blockchain BlockchainInfo

/-- A price that was returned, what it was before the hard maximum, and the contract's value if there was one. -/
structure Quote where
  price : Int
  uncut : Int
  limit : Option Int

/-- The prices that the calls of a run return, without those that fail. -/
def quotes (str : PyError → String) (gas : GasCalculator) : List GasAnswers → List Quote
  | [] => []
  | answers :: calls =>
    match gas.ask answers, gas.getCurrent str answers with
    | .ok (reported, limit), (next, .ok (.ok price)) =>
      { price, uncut := gas.beforeMaximum reported limit, limit } :: quotes str next calls
    | _, (next, _) => quotes str next calls

/-- The most that one call may multiply a price by. -/
def growth (settings : GasSettings) : ℚ :=
  settings.gasPriceHardLimitMultiplier * (1 + (settings.gasPercentageAdmitted : ℚ) / 100)

/-- The largest of a price, the hard minimum and what the contract has asked for since. -/
def peak (settings : GasSettings) (start : Quote) (later : List Quote) : Int :=
  (later.filterMap Quote.limit).foldl (fun top value => max top (value + 1)) (max start.price settings.gasPriceHardLimitMin)

structure WithinLimits (settings : GasSettings) (quotes : List Quote) : Prop where
  maximum : settings.gasPriceHardLimitMax ≠ 0 → ∀ quote ∈ quotes, quote.price ≤ settings.gasPriceHardLimitMax
  minimum : ∀ quote ∈ quotes, (settings.gasPriceHardLimitMax = 0 ∨ quote.uncut ≤ settings.gasPriceHardLimitMax) →
    settings.gasPriceHardLimitMin ≤ quote.price ∧ ∀ value, quote.limit = some value → value < quote.price
  growth : ∀ (i j : Nat) (first last : Quote), i < j → quotes[i]? = some first → quotes[j]? = some last →
    (last.price : ℚ) ≤ growth settings ^ (j - i) * peak settings first ((quotes.drop (i + 1)).take (j - i))

structure Admissible (settings : GasSettings) : Prop where
  defaultGasPrice : 0 ≤ settings.defaultGasPrice
  percentage : 0 ≤ settings.gasPercentageAdmitted
  maximum : 0 ≤ settings.gasPriceHardLimitMax
  multiplier : 1 ≤ settings.gasPriceHardLimitMultiplier

section Price
variable {gas : GasCalculator}

private theorem cutByMaximum_le (set : gas.settings.gasPriceHardLimitMax ≠ 0) (price : Int) :
    gas.cutByMaximum price ≤ gas.settings.gasPriceHardLimitMax := by
  rw [cutByMaximum]
  split
  · exact le_rfl
  next within => exact not_lt.mp fun above => within ⟨set, above⟩

private theorem cutByMaximum_le_self (price : Int) : gas.cutByMaximum price ≤ price := by
  rw [cutByMaximum]
  split
  next above => exact above.2.le
  next => exact le_rfl

theorem cutByMaximum_eq {price : Int} (within : gas.settings.gasPriceHardLimitMax = 0 ∨ price ≤ gas.settings.gasPriceHardLimitMax) :
    gas.cutByMaximum price = price := by
  rw [cutByMaximum, if_neg]
  intro above
  rcases within with unset | below
  · exact above.1 unset
  · exact absurd above.2 (not_lt.mpr below)

private theorem admitted_le (reported : Option Int) : gas.admitted reported ≤ gas.getLastPrice := by
  rw [admitted]
  split
  · exact le_rfl
  next within => exact not_lt.mp within

/-- What the adjustments after the cap can do: `beforeMaximum` is the largest of three numbers. -/
theorem beforeMaximum_eq (reported limit : Option Int) :
    gas.beforeMaximum reported limit =
      limit.elim (max (gas.admitted reported * gas.settings.gasPriceHardLimitMultiplier) gas.settings.gasPriceHardLimitMin)
        fun value => max (max (gas.admitted reported * gas.settings.gasPriceHardLimitMultiplier)
          gas.settings.gasPriceHardLimitMin) (value + 1) := by
  have raised : ∀ x y : Int, (if y > x then y else x) = max x y := by
    intro x y
    split <;> omega
  cases limit <;> simp only [beforeMaximum, raised, Option.elim]

private theorem le_beforeMaximum (reported limit : Option Int) :
    gas.settings.gasPriceHardLimitMin ≤ gas.beforeMaximum reported limit ∧
      ∀ value, limit = some value → value < gas.beforeMaximum reported limit := by
  rw [beforeMaximum_eq]
  cases limit with
  | none => exact ⟨le_max_right _ _, by simp⟩
  | some value =>
    refine ⟨(le_max_right _ _).trans (le_max_left _ _), ?_⟩
    intro same found
    obtain rfl := Option.some.inj found
    exact Int.lt_of_add_one_le (le_max_right _ _)

private theorem getLastPrice_le {last : Int} (known : gas.lastPrice = some last) (positive : 0 ≤ last)
    (percentage : 0 ≤ gas.settings.gasPercentageAdmitted) :
    0 ≤ gas.getLastPrice ∧ (gas.getLastPrice : ℚ) ≤ last * (1 + (gas.settings.gasPercentageAdmitted : ℚ) / 100) := by
  have nonneg : (0 : ℚ) ≤ last := by exact_mod_cast positive
  have part : (0 : ℚ) ≤ (gas.settings.gasPercentageAdmitted : ℚ) / 100 := div_nonneg (by exact_mod_cast percentage) (by norm_num)
  have total : gas.getGasPricePlusXPerc last = last * (1 + (gas.settings.gasPercentageAdmitted : ℚ) / 100) := by
    rw [getGasPricePlusXPerc, mul_add, mul_one]
  have above : (0 : ℚ) ≤ last * (1 + (gas.settings.gasPercentageAdmitted : ℚ) / 100) := mul_nonneg nonneg (by linarith)
  simp only [getLastPrice, known, Python.truncate, total]
  rw [if_neg (not_lt.mpr above)]
  exact ⟨Int.floor_nonneg.mpr above, Int.floor_le _⟩

private theorem one_le_growth (admissible : Admissible gas.settings) : 1 ≤ growth gas.settings := by
  have part : (0 : ℚ) ≤ (gas.settings.gasPercentageAdmitted : ℚ) / 100 :=
    div_nonneg (by exact_mod_cast admissible.percentage) (by norm_num)
  exact one_le_mul_of_one_le_of_one_le (by exact_mod_cast admissible.multiplier) (by linarith)

private theorem price_nonneg (admissible : Admissible gas.settings) (start : ∀ last, gas.lastPrice = some last → 0 ≤ last)
    (reported limit : Option Int) (positive : ∀ price, reported = some price → 0 ≤ price) :
    0 ≤ gas.cutByMaximum (gas.beforeMaximum reported limit) := by
  have cap : 0 ≤ gas.getLastPrice := by
    cases known : gas.lastPrice with
    | none =>
      rw [getLastPrice, known]
      exact admissible.defaultGasPrice
    | some last => exact (getLastPrice_le known (start last known) admissible.percentage).1
  have base : 0 ≤ gas.admitted reported := by
    rw [admitted]
    split
    · exact cap
    · cases reported with
      | none => exact cap
      | some price => exact positive price rfl
  have multiplied := mul_nonneg base (by have := admissible.multiplier; omega : 0 ≤ gas.settings.gasPriceHardLimitMultiplier)
  have uncut : 0 ≤ gas.beforeMaximum reported limit := by
    rw [beforeMaximum_eq]
    cases limit <;> simp only [Option.elim] <;> omega
  rw [cutByMaximum]
  split
  · exact admissible.maximum
  · exact uncut

/-- One call: the price grows by the admitted part at most, above what bounds the last price and the other limits. -/
theorem price_le (admissible : Admissible gas.settings) {last : Int} (known : gas.lastPrice = some last) (start : 0 ≤ last)
    {bound : ℚ} (from_last : (last : ℚ) ≤ bound) (minimum : (gas.settings.gasPriceHardLimitMin : ℚ) ≤ bound)
    (reported limit : Option Int) (contract : ∀ value, limit = some value → (value : ℚ) + 1 ≤ bound) :
    (gas.cutByMaximum (gas.beforeMaximum reported limit) : ℚ) ≤ growth gas.settings * bound := by
  have nonneg : (0 : ℚ) ≤ bound := le_trans (by exact_mod_cast start) from_last
  have least := one_le_growth admissible
  have grows : bound ≤ growth gas.settings * bound := le_mul_of_one_le_left nonneg least
  have factor : (0 : ℚ) ≤ gas.settings.gasPriceHardLimitMultiplier := by
    exact_mod_cast le_trans (by decide) admissible.multiplier
  have capped : ((gas.admitted reported * gas.settings.gasPriceHardLimitMultiplier : Int) : ℚ) ≤ growth gas.settings * bound := by
    obtain ⟨_, below⟩ := getLastPrice_le known start admissible.percentage
    have admits : ((gas.admitted reported : Int) : ℚ) ≤ gas.getLastPrice := by exact_mod_cast admitted_le reported
    calc ((gas.admitted reported * gas.settings.gasPriceHardLimitMultiplier : Int) : ℚ)
        = gas.settings.gasPriceHardLimitMultiplier * gas.admitted reported := by push_cast; ring
      _ ≤ gas.settings.gasPriceHardLimitMultiplier * (last * (1 + (gas.settings.gasPercentageAdmitted : ℚ) / 100)) :=
        mul_le_mul_of_nonneg_left (admits.trans below) factor
      _ = growth gas.settings * last := by rw [growth]; ring
      _ ≤ growth gas.settings * bound := mul_le_mul_of_nonneg_left from_last (le_trans (by norm_num) least)
  have uncut : (gas.beforeMaximum reported limit : ℚ) ≤ growth gas.settings * bound := by
    rw [beforeMaximum_eq]
    cases limit with
    | none =>
      rw [Option.elim, Int.cast_max]
      exact max_le capped (minimum.trans grows)
    | some value =>
      rw [Option.elim, Int.cast_max, Int.cast_max, Int.cast_add, Int.cast_one]
      exact max_le (max_le capped (minimum.trans grows)) ((contract value rfl).trans grows)
  exact le_trans (by exact_mod_cast cutByMaximum_le_self _) uncut

end Price

section Run
variable {str : PyError → String} {gas : GasCalculator}

private theorem quotes_failed {answers : GasAnswers} {raised : Raised} (failed : gas.ask answers = .error raised) (calls : List GasAnswers) :
    quotes str gas (answers :: calls) = quotes str gas calls := by
  simp only [quotes, failed, getCurrent]

private theorem quotes_answered {answers : GasAnswers} {reported limit : Option Int} (answered : gas.ask answers = .ok (reported, limit))
    (calls : List GasAnswers) :
    quotes str gas (answers :: calls) =
      { price := gas.cutByMaximum (gas.beforeMaximum reported limit), uncut := gas.beforeMaximum reported limit, limit } ::
        quotes str (gas.setLastPrice (gas.cutByMaximum (gas.beforeMaximum reported limit))) calls := by
  simp only [quotes, answered, getCurrent]

/-- The node reports no negative price. -/
def NonNegative (calls : List GasAnswers) : Prop :=
  ∀ answers ∈ calls, ∀ price, answers.gasPrice = .ok (some price) → 0 ≤ price

private theorem ask_reported {answers : GasAnswers} {reported limit : Option Int} (answered : gas.ask answers = .ok (reported, limit)) :
    answers.gasPrice = .ok reported := by
  rw [ask] at answered
  cases asked : answers.gasPrice with
  | error raised =>
    rw [asked] at answered
    cases answered
  | ok gasPrice =>
    rw [asked] at answered
    simp only [bind, Except.bind] at answered
    split at answered
    · cases value : answers.maxGasPrice with
      | error raised =>
        rw [value] at answered
        cases answered
      | ok reply =>
        rw [value] at answered
        exact congrArg _ (Prod.mk.inj (Except.ok.inj answered)).1
    · exact congrArg _ (Prod.mk.inj (Except.ok.inj answered)).1

theorem NonNegative.reported {answers : GasAnswers} {calls : List GasAnswers} (positive : NonNegative (answers :: calls))
    {reported limit : Option Int} (answered : gas.ask answers = .ok (reported, limit)) :
    ∀ price, reported = some price → 0 ≤ price := by
  intro price same
  apply positive answers List.mem_cons_self
  rw [ask_reported answered, same]

theorem NonNegative.tail {answers : GasAnswers} {calls : List GasAnswers} (positive : NonNegative (answers :: calls)) :
    NonNegative calls := fun other member => positive other (List.mem_cons_of_mem _ member)

/-- Each quote comes of one step: the price the maximum leaves of the uncut one, which is above the other limits. -/
theorem quotes_each (calls : List GasAnswers) : ∀ quote ∈ quotes str gas calls,
    (gas.settings.gasPriceHardLimitMax ≠ 0 → quote.price ≤ gas.settings.gasPriceHardLimitMax) ∧
      ((gas.settings.gasPriceHardLimitMax = 0 ∨ quote.uncut ≤ gas.settings.gasPriceHardLimitMax) →
        gas.settings.gasPriceHardLimitMin ≤ quote.price ∧ ∀ value, quote.limit = some value → value < quote.price) := by
  induction calls generalizing gas with
  | nil => simp [quotes]
  | cons answers calls ih =>
    cases answered : gas.ask answers with
    | error raised =>
      rw [quotes_failed answered]
      exact ih
    | ok both =>
      obtain ⟨reported, limit⟩ := both
      rw [quotes_answered answered, List.forall_mem_cons]
      refine ⟨⟨fun set => cutByMaximum_le set _, ?_⟩, ih⟩
      intro within
      rw [cutByMaximum_eq within]
      exact le_beforeMaximum reported limit

/-- Prices after a known one, by a number that bounds that price and what the calls since have been asked for. -/
theorem later_le (admissible : Admissible gas.settings) (calls : List GasAnswers) (positive : NonNegative calls) :
    ∀ {last : Int}, gas.lastPrice = some last → 0 ≤ last → ∀ {bound : ℚ}, (last : ℚ) ≤ bound →
      (gas.settings.gasPriceHardLimitMin : ℚ) ≤ bound → ∀ (n : Nat) (quote : Quote), (quotes str gas calls)[n]? = some quote →
      (∀ other ∈ (quotes str gas calls).take (n + 1), ∀ value, other.limit = some value → (value : ℚ) + 1 ≤ bound) →
      (quote.price : ℚ) ≤ growth gas.settings ^ (n + 1) * bound := by
  induction calls generalizing gas with
  | nil => simp [quotes]
  | cons answers calls ih =>
    intro last known start bound from_last minimum n quote at_n contract
    cases answered : gas.ask answers with
    | error raised =>
      rw [quotes_failed answered] at at_n contract
      exact ih admissible positive.tail known start from_last minimum n quote at_n contract
    | ok both =>
      obtain ⟨reported, limit⟩ := both
      rw [quotes_answered answered] at at_n contract
      have here := contract _ List.mem_cons_self
      have step := price_le admissible known start from_last minimum reported limit here
      cases n with
      | zero =>
        obtain rfl := Option.some.inj at_n
        simpa using step
      | succ n =>
        have nonneg : (0 : ℚ) ≤ bound := le_trans (by exact_mod_cast start) from_last
        have grows := le_mul_of_one_le_left nonneg (one_le_growth admissible)
        have last_nonneg : ∀ other, gas.lastPrice = some other → 0 ≤ other := by
          intro other same
          rw [known] at same
          exact Option.some.inj same ▸ start
        have next := price_nonneg admissible last_nonneg reported limit (positive.reported answered)
        have later := @ih (gas.setLastPrice (gas.cutByMaximum (gas.beforeMaximum reported limit))) admissible positive.tail _ rfl next
          (growth gas.settings * bound) step (minimum.trans grows) n quote at_n (by
            intro other member value asked
            exact (contract other (List.mem_cons_of_mem _ member) value asked).trans grows)
        rw [pow_succ, mul_assoc]
        exact later

/-- After a quote the run goes on from a calculator that has its price. -/
theorem quotes_drop (admissible : Admissible gas.settings) (calls : List GasAnswers) (positive : NonNegative calls)
    (start : ∀ last, gas.lastPrice = some last → 0 ≤ last) {i : Nat} {quote : Quote} (at_i : (quotes str gas calls)[i]? = some quote) :
    0 ≤ quote.price ∧ ∃ next calls', next.settings = gas.settings ∧ next.lastPrice = some quote.price ∧ NonNegative calls' ∧
      (quotes str gas calls).drop (i + 1) = quotes str next calls' := by
  induction calls generalizing gas i with
  | nil => simp [quotes] at at_i
  | cons answers calls ih =>
    cases answered : gas.ask answers with
    | error raised =>
      rw [quotes_failed answered] at at_i ⊢
      exact ih admissible positive.tail start at_i
    | ok both =>
      obtain ⟨reported, limit⟩ := both
      rw [quotes_answered answered] at at_i ⊢
      have here := price_nonneg admissible start reported limit (positive.reported answered)
      cases i with
      | zero =>
        obtain rfl := Option.some.inj at_i
        exact ⟨here, gas.setLastPrice (gas.cutByMaximum (gas.beforeMaximum reported limit)), calls, rfl, rfl, positive.tail, rfl⟩
      | succ i =>
        have known : ∀ last, (gas.setLastPrice (gas.cutByMaximum (gas.beforeMaximum reported limit))).lastPrice = some last →
            0 ≤ last := fun last same => Option.some.inj same ▸ here
        exact @ih (gas.setLastPrice (gas.cutByMaximum (gas.beforeMaximum reported limit))) admissible positive.tail known i at_i

private theorem le_foldl_max (limits : List Int) (top : Int) :
    top ≤ limits.foldl (fun top value => max top (value + 1)) top ∧
      ∀ value ∈ limits, value + 1 ≤ limits.foldl (fun top value => max top (value + 1)) top := by
  induction limits generalizing top with
  | nil => simp
  | cons limit limits ih =>
    obtain ⟨least, each⟩ := ih (max top (limit + 1))
    refine ⟨(le_max_left _ _).trans least, ?_⟩
    intro value member
    rcases List.mem_cons.mp member with rfl | later
    · exact (le_max_right _ _).trans least
    · exact each value later

private theorem le_peak (settings : GasSettings) (start : Quote) (later : List Quote) :
    start.price ≤ peak settings start later ∧ settings.gasPriceHardLimitMin ≤ peak settings start later ∧
      ∀ other ∈ later, ∀ value, other.limit = some value → value + 1 ≤ peak settings start later := by
  obtain ⟨least, each⟩ := le_foldl_max (later.filterMap Quote.limit) (max start.price settings.gasPriceHardLimitMin)
  refine ⟨(le_max_left _ _).trans least, (le_max_right _ _).trans least, ?_⟩
  exact fun other member value asked => each value (List.mem_filterMap.mpr ⟨other, member, asked⟩)

end Run

/-- In every run the limits hold of every price, and no price can leave those before it behind faster than admitted. -/
theorem quotes_withinLimits (str : PyError → String) (settings : GasSettings) (gasLimitService : Bool) (calls : List GasAnswers)
    (admissible : Admissible settings) (positive : NonNegative calls) :
    WithinLimits settings (quotes str (init settings gasLimitService) calls) := by
  refine ⟨?_, ?_, ?_⟩
  · exact fun set quote member => (quotes_each calls quote member).1 set
  · exact fun quote member within => (quotes_each calls quote member).2 within
  · intro i j first last before at_i at_j
    obtain ⟨start, next, calls', same, known, later, shape⟩ :=
      @quotes_drop str (init settings gasLimitService) admissible calls positive (by simp [init]) _ _ at_i
    obtain ⟨n, rfl⟩ : ∃ n, j = i + 1 + n := ⟨j - (i + 1), by omega⟩
    rw [show i + 1 + n - i = n + 1 by omega]
    obtain ⟨from_first, minimum, contract⟩ :=
      le_peak settings first (((quotes str (init settings gasLimitService) calls).drop (i + 1)).take (n + 1))
    rw [shape] at from_first minimum contract ⊢
    have at_n : (quotes str next calls')[n]? = some last := by rw [← shape, List.getElem?_drop, at_j]
    have from_first' : (first.price : ℚ) ≤ peak settings first ((quotes str next calls').take (n + 1)) := by
      exact_mod_cast from_first
    have minimum' : (next.settings.gasPriceHardLimitMin : ℚ) ≤ peak settings first ((quotes str next calls').take (n + 1)) := by
      rw [same]
      exact_mod_cast minimum
    have bound := later_le (same ▸ admissible) calls' later known start from_first' minimum' n last at_n (by
      intro other member value asked
      exact_mod_cast contract other member value asked)
    rw [same] at bound
    exact bound

/-- A spike, a failing call, and a contract that asks for more. -/
theorem quotes_withinLimits_spike :
    let settings : GasSettings := ⟨65800000, 10, 0, 100000000, 1⟩
    let calls : List GasAnswers := [⟨.ok (some 60000000), .ok (.ok 50000000)⟩, ⟨.ok (some 20000000000), .ok (.error ⟨"reverted"⟩)⟩,
      ⟨.error (.exception .timeoutError), .ok (.ok 0)⟩, ⟨.ok (some 20000000000), .ok (.ok 90000000)⟩]
    Admissible settings ∧ NonNegative calls ∧ (quotes (fun _ => "") (init settings true) calls).map Quote.price =
      [60000000, 66000000, 90000001] ∧ WithinLimits settings (quotes (fun _ => "") (init settings true) calls) := by
  intro settings calls
  have admissible : Admissible settings := ⟨by decide, by decide, by decide, by decide⟩
  have positive : NonNegative calls := by
    intro answers member price reported
    simp only [calls, List.mem_cons, List.not_mem_nil, or_false] at member
    rcases member with rfl | rfl | rfl | rfl <;> simp at reported <;> omega
  exact ⟨admissible, positive, by decide +kernel, quotes_withinLimits _ settings true calls admissible positive⟩

end OmocNode.Proofs.GasPriceLimits
