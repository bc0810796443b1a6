import OmocNode.GasCalculator
import Mathlib.Data.Rat.Floor
import Mathlib.Tactic.Linarith

/-! Whether the capped gas price gets back to the price the node reports. The cap
drops the fraction of its growth, so below a hundred units of percent it stands still. -/

namespace OmocNode.Proofs.GasPriceRecovery
open GasCalculator Blockchain BlockchainInfo

/-- No hard limits, and growth by a percent at least. -/
structure Unlimited (settings : GasSettings) : Prop where
  multiplier : settings.gasPriceHardLimitMultiplier = 1
  minimum : settings.gasPriceHardLimitMin = 0
  maximum : settings.gasPriceHardLimitMax = 0
  percentage : 1 ≤ settings.gasPercentageAdmitted

/-- A call for which the node reports a price. There is no contract to ask. -/
def reporting (gasPrice : Int) : GasAnswers := ⟨.ok (some gasPrice), .ok (.error ⟨""⟩)⟩

/-- Some call returns the price the node reports from now on. -/
def Recovers (str : PyError → String) (gas : GasCalculator) (gasPrice : Int) : Prop :=
  ∃ calls, ((gas.after str (List.replicate calls (reporting gasPrice))).getCurrent str (reporting gasPrice)).2 = .ok (.ok gasPrice)

/-- The price that the cap is computed from. -/
def reference (gas : GasCalculator) : Int := gas.lastPrice.getD gas.settings.defaultGasPrice

/-- The admitted part of a price is a unit at least, so the cap is above it. -/
def Grows (settings : GasSettings) (gasPrice : Int) : Prop := 100 ≤ gasPrice * settings.gasPercentageAdmitted

instance (settings : GasSettings) (gasPrice : Int) : Decidable (Grows settings gasPrice) := inferInstanceAs (Decidable (_ ≤ _))

/-- A calculator without contract whose last price, if any, is not negative. -/
structure Plain (gas : GasCalculator) : Prop where
  unlimited : Unlimited gas.settings
  service : gas.gasLimitService = false
  last : ∀ last, gas.lastPrice = some last → 0 ≤ last

section Step
variable {gas : GasCalculator}

private theorem getLastPrice_some (plain : Plain gas) {last : Int} (known : gas.lastPrice = some last) :
    gas.getLastPrice = last + last * gas.settings.gasPercentageAdmitted / 100 := by
  have positive : (0 : ℚ) ≤ last := by exact_mod_cast plain.last last known
  have part : (0 : ℚ) ≤ gas.settings.gasPercentageAdmitted := by
    exact_mod_cast le_trans (by decide) plain.unlimited.percentage
  have total : gas.getGasPricePlusXPerc last = last + (((last * gas.settings.gasPercentageAdmitted : ℤ) : ℚ) / ((100 : ℕ) : ℚ)) := by
    rw [getGasPricePlusXPerc]
    push_cast
    ring
  have nonneg : ¬gas.getGasPricePlusXPerc last < 0 := by
    rw [getGasPricePlusXPerc, not_lt]
    positivity
  simp only [getLastPrice, known, Python.truncate, if_neg nonneg]
  rw [total, Int.floor_intCast_add, Rat.floor_intCast_div_natCast]
  rfl

private theorem getCurrent_error (str : PyError → String) {answers : GasAnswers} {raised : Raised} (failed : answers.gasPrice = .error raised) :
    (gas.getCurrent str answers).1 = gas := by
  simp only [getCurrent, ask, failed, bind, Except.bind]

private theorem getCurrent_ok (plain : Plain gas) (str : PyError → String) {answers : GasAnswers} {reported : Option Int}
    (answered : answers.gasPrice = .ok reported) :
    gas.getCurrent str answers = (gas.setLastPrice (max (gas.admitted reported) 0), .ok (.ok (max (gas.admitted reported) 0))) := by
  have price : gas.cutByMaximum (gas.beforeMaximum reported none) = max (gas.admitted reported) 0 := by
    simp only [cutByMaximum, beforeMaximum, plain.unlimited.multiplier, plain.unlimited.minimum, plain.unlimited.maximum]
    split <;> omega
  simp only [getCurrent, ask, answered, plain.service, bind, Except.bind, pure, Except.pure, Bool.false_eq_true, if_false, price]

private theorem admitted_some (gasPrice : Int) : gas.admitted (some gasPrice) = min gasPrice gas.getLastPrice := by
  simp only [admitted, Option.getD_some]
  split <;> omega

private theorem admitted_none : gas.admitted none = gas.getLastPrice := by
  simp only [admitted, Option.getD_none, ite_self]

theorem Plain.setLastPrice (plain : Plain gas) {price : Int} (nonneg : 0 ≤ price) : Plain (gas.setLastPrice price) :=
  ⟨plain.unlimited, plain.service, fun _ same => Option.some.inj same ▸ nonneg⟩

private theorem reference_some {last : Int} (known : gas.lastPrice = some last) : reference gas = last := by
  rw [reference, known, Option.getD_some]

/-- The cap is above its reference where that grows, and is the reference itself where it does not. -/
theorem reference_lt_getLastPrice (plain : Plain gas) {last : Int} (known : gas.lastPrice = some last)
    (grows : Grows gas.settings last) : last < gas.getLastPrice := by
  rw [getLastPrice_some plain known]
  unfold Grows at grows
  omega

private theorem getLastPrice_eq_reference (plain : Plain gas) (still : ¬Grows gas.settings (reference gas)) :
    gas.getLastPrice = reference gas := by
  cases known : gas.lastPrice with
  | none => rw [getLastPrice, reference, known, Option.getD_none]
  | some last =>
    rw [reference_some known, Grows] at still
    rw [reference_some known]
    have nonneg := mul_nonneg (plain.last last known) (le_trans (by decide) plain.unlimited.percentage)
    rw [getLastPrice_some plain known]
    omega

private theorem getLastPrice_of_still (plain : Plain gas) {last : Int} (known : gas.lastPrice = some last)
    (still : ¬Grows gas.settings last) : gas.getLastPrice = last := by
  rw [← reference_some known] at still ⊢
  exact getLastPrice_eq_reference plain still

private theorem reference_le_getLastPrice (plain : Plain gas) : reference gas ≤ gas.getLastPrice := by
  by_cases grows : Grows gas.settings (reference gas)
  · cases known : gas.lastPrice with
    | none => rw [getLastPrice, reference, known, Option.getD_none]
    | some last =>
      rw [reference_some known] at grows ⊢
      exact (reference_lt_getLastPrice plain known grows).le
  · exact (getLastPrice_eq_reference plain grows).ge

theorem Grows.mono {settings : GasSettings} (unlimited : Unlimited settings) {low high : Int} (le : low ≤ high)
    (grows : Grows settings low) : Grows settings high :=
  le_trans grows (mul_le_mul_of_nonneg_right le (le_trans (by decide) unlimited.percentage))

theorem Grows.pos {settings : GasSettings} (unlimited : Unlimited settings) {price : Int} (grows : Grows settings price) :
    0 < price := by
  by_contra negative
  have product := mul_nonpos_of_nonpos_of_nonneg (not_lt.mp negative) (le_trans (by decide) unlimited.percentage)
  unfold Grows at grows
  omega

end Step

section Recovery
variable {str : PyError → String} {gas : GasCalculator} {gasPrice : Int}

private theorem recovers_of_next (next : Recovers str (gas.getCurrent str (reporting gasPrice)).1 gasPrice) : Recovers str gas gasPrice := by
  obtain ⟨calls, returned⟩ := next
  exact ⟨calls + 1, returned⟩

private theorem getCurrent_reporting (plain : Plain gas) (gasPrice : Int) :
    gas.getCurrent str (reporting gasPrice) =
      (gas.setLastPrice (max (min gasPrice gas.getLastPrice) 0), .ok (.ok (max (min gasPrice gas.getLastPrice) 0))) := by
  rw [getCurrent_ok plain str rfl, admitted_some]

private theorem recovers_at_once (plain : Plain gas) (positive : 0 < gasPrice) (below : gasPrice ≤ gas.getLastPrice) :
    Recovers str gas gasPrice := by
  refine ⟨0, ?_⟩
  change (gas.getCurrent str (reporting gasPrice)).2 = _
  rw [getCurrent_reporting plain, min_eq_left below, max_eq_left positive.le]

/-- A cap that grows rises by a unit with each call, until it is above the reported price. -/
theorem recovers_of_grows (plain : Plain gas) (positive : 0 < gasPrice) {last : Int} (known : gas.lastPrice = some last)
    (grows : Grows gas.settings last) : Recovers str gas gasPrice := by
  induction distance : (gasPrice - last).toNat using Nat.strongRecOn generalizing gas last with
  | ind distance ih =>
    by_cases below : gasPrice ≤ gas.getLastPrice
    · exact recovers_at_once plain positive below
    · have rises := reference_lt_getLastPrice plain known grows
      have nonneg := plain.last last known
      apply recovers_of_next
      rw [getCurrent_reporting plain, min_eq_right (not_le.mp below).le, max_eq_left (by omega)]
      exact ih _ (by omega) (plain.setLastPrice (by omega)) rfl (grows.mono plain.unlimited rises.le) rfl

/-- A cap that does not grow is what every call returns. -/
theorem after_reporting_still (plain : Plain gas) {last : Int} (known : gas.lastPrice = some last) (still : ¬Grows gas.settings last)
    (above : last < gasPrice) (calls : Nat) : gas.after str (List.replicate calls (reporting gasPrice)) = gas := by
  induction calls with
  | zero => rfl
  | succ calls ih =>
    have stays : (gas.getCurrent str (reporting gasPrice)).1 = gas := by
      rw [getCurrent_reporting plain, getLastPrice_of_still plain known still, min_eq_right above.le,
        max_eq_left (plain.last last known), setLastPrice, ← known]
    rw [List.replicate_succ, after, List.foldl_cons, stays]
    exact ih

private theorem not_recovers_of_still (plain : Plain gas) {last : Int} (known : gas.lastPrice = some last) (still : ¬Grows gas.settings last)
    (above : last < gasPrice) : ¬Recovers str gas gasPrice := by
  intro recovers
  obtain ⟨calls, returned⟩ := recovers
  rw [after_reporting_still plain known still above, getCurrent_reporting plain, getLastPrice_of_still plain known still,
    min_eq_right above.le, max_eq_left (plain.last last known)] at returned
  exact above.ne (Except.ok.inj (Except.ok.inj returned))

/-- From one state on, by the reference of the cap alone. -/
theorem recovers_iff_reference (plain : Plain gas) (positive : 0 < gasPrice) :
    Recovers str gas gasPrice ↔ gasPrice ≤ reference gas ∨ Grows gas.settings (reference gas) := by
  by_cases low : gasPrice ≤ reference gas
  · exact iff_of_true (recovers_at_once plain positive (low.trans (reference_le_getLastPrice plain))) (Or.inl low)
  · rw [or_iff_right low]
    cases known : gas.lastPrice with
    | some last =>
      rw [reference_some known] at low ⊢
      exact ⟨fun recovers => by_contra fun still => not_recovers_of_still plain known still (not_le.mp low) recovers,
        recovers_of_grows plain positive known⟩
    | none =>
      -- The first price is the default one, and the reference from then on.
      have cap : gas.getLastPrice = reference gas := by rw [getLastPrice, reference, known, Option.getD_none]
      have first : gas.getCurrent str (reporting gasPrice) =
          (gas.setLastPrice (max (reference gas) 0), .ok (.ok (max (reference gas) 0))) := by
        rw [getCurrent_reporting plain, cap, min_eq_right (not_le.mp low).le]
      have plain' := plain.setLastPrice (le_max_right (reference gas) 0)
      constructor
      · intro recovers
        by_contra still
        have still' : ¬Grows gas.settings (max (reference gas) 0) := by
          intro grows
          rcases max_choice (reference gas) 0 with same | same
          · exact still (same ▸ grows)
          · exact absurd (grows.pos plain.unlimited) (by rw [same]; decide)
        obtain ⟨calls, returned⟩ := recovers
        cases calls with
        | zero =>
          have same : (Except.ok (.ok (max (reference gas) 0)) : Awaited (Reply Int)) = .ok (.ok gasPrice) := by
            rw [← returned]
            exact (congrArg Prod.snd first).symm
          have := Except.ok.inj (Except.ok.inj same)
          omega
        | succ calls =>
          apply @not_recovers_of_still str _ gasPrice plain' _ rfl still' (by omega)
          refine ⟨calls, ?_⟩
          rw [← returned, List.replicate_succ, after, after, List.foldl_cons, first]
      · intro grows
        apply recovers_of_next
        rw [first]
        exact recovers_of_grows plain' positive rfl (grows.mono plain.unlimited (le_max_left _ _))

end Recovery

section Run
variable {str : PyError → String} {gas : GasCalculator}

private theorem grows_max_zero {settings : GasSettings} (unlimited : Unlimited settings) (price : Int) :
    Grows settings (max price 0) ↔ Grows settings price := by
  constructor
  · intro grows
    rwa [max_eq_left] at grows
    have positive := grows.pos unlimited
    omega
  · exact fun grows => grows.mono unlimited (le_max_left _ _)

private theorem grows_min {settings : GasSettings} (unlimited : Unlimited settings) (low high : Int) :
    Grows settings (min low high) ↔ Grows settings low ∧ Grows settings high := by
  constructor
  · exact fun grows => ⟨grows.mono unlimited (min_le_left _ _), grows.mono unlimited (min_le_right _ _)⟩
  · intro both
    rcases min_choice low high with same | same
    · rw [same]
      exact both.1
    · rw [same]
      exact both.2

private theorem grows_getLastPrice (plain : Plain gas) : Grows gas.settings gas.getLastPrice ↔ Grows gas.settings (reference gas) := by
  constructor
  · intro grows
    by_contra still
    exact still (getLastPrice_eq_reference plain still ▸ grows)
  · exact fun grows => grows.mono plain.unlimited (reference_le_getLastPrice plain)

/-- What the node reported of its price in one call grows under the cap. -/
def ReportGrows (settings : GasSettings) (answers : GasAnswers) : Prop :=
  ∀ price, answers.gasPrice = .ok (some price) → Grows settings price

/-- A call keeps the cap growing only if its own price grows, and nothing gets a cap that stands still to grow again. -/
theorem getCurrent_grows (plain : Plain gas) (answers : GasAnswers) :
    Plain (gas.getCurrent str answers).1 ∧ (gas.getCurrent str answers).1.settings = gas.settings ∧
      (Grows gas.settings (reference (gas.getCurrent str answers).1) ↔
        Grows gas.settings (reference gas) ∧ ReportGrows gas.settings answers) := by
  cases asked : answers.gasPrice with
  | error raised =>
    rw [getCurrent_error str asked]
    refine ⟨plain, rfl, (and_iff_left ?_).symm⟩
    intro price reported
    rw [asked] at reported
    cases reported
  | ok reported =>
    rw [getCurrent_ok plain str asked]
    refine ⟨plain.setLastPrice (le_max_right _ _), rfl, ?_⟩
    rw [reference_some rfl, grows_max_zero plain.unlimited]
    cases reported with
    | none =>
      rw [admitted_none, grows_getLastPrice plain]
      refine (and_iff_left ?_).symm
      intro price reported
      rw [asked] at reported
      cases reported
    | some price =>
      rw [admitted_some, grows_min plain.unlimited, grows_getLastPrice plain, and_comm]
      refine and_congr_right fun _ => ⟨?_, fun report => report price asked⟩
      intro grows other reported
      rw [asked] at reported
      exact Option.some.inj (Except.ok.inj reported) ▸ grows

private theorem after_grows (calls : List GasAnswers) : ∀ {gas : GasCalculator}, Plain gas →
    Plain (gas.after str calls) ∧ (gas.after str calls).settings = gas.settings ∧
      (Grows gas.settings (reference (gas.after str calls)) ↔
        Grows gas.settings (reference gas) ∧ ∀ answers ∈ calls, ReportGrows gas.settings answers) := by
  induction calls with
  | nil => exact fun plain => ⟨plain, rfl, by simp [after]⟩
  | cons answers calls ih =>
    intro gas plain
    obtain ⟨plain', settings, step⟩ := @getCurrent_grows str gas plain answers
    obtain ⟨last, same, rest⟩ := ih plain'
    rw [settings] at rest same
    refine ⟨last, same, ?_⟩
    rw [List.forall_mem_cons, ← and_assoc, ← step]
    exact rest

end Run

/-- After any run the cap recovers to a price exactly if that is not above the last one, or the default price and
every price reported so far grow by a unit at least. -/
theorem recovers_iff_reports_grow (str : PyError → String) (settings : GasSettings) (unlimited : Unlimited settings)
    (calls : List GasAnswers) (gasPrice : Int) (positive : 0 < gasPrice) :
    Recovers str ((init settings false).after str calls) gasPrice ↔
      gasPrice ≤ reference ((init settings false).after str calls) ∨
        Grows settings settings.defaultGasPrice ∧ ∀ answers ∈ calls, ReportGrows settings answers := by
  have fresh : Plain (init settings false) := ⟨unlimited, rfl, by simp [init]⟩
  obtain ⟨plain, same, grows⟩ := @after_grows str calls _ fresh
  rw [recovers_iff_reference plain positive, same]
  exact or_congr_right grows

theorem recovers_iff_reports_grow_spike :
    let settings : GasSettings := ⟨65800000, 10, 0, 0, 1⟩
    Unlimited settings ∧ (0 : Int) < 20000000000 ∧
      Recovers (fun _ => "") ((init settings false).after (fun _ => "") [reporting 60000000]) 20000000000 := by
  intro settings
  have unlimited : Unlimited settings := ⟨rfl, rfl, rfl, by decide⟩
  refine ⟨unlimited, by decide, ?_⟩
  rw [recovers_iff_reports_grow (fun _ => "") settings unlimited [reporting 60000000] 20000000000 (by decide)]
  refine Or.inr ⟨by decide, ?_⟩
  intro answers member price reported
  rw [List.mem_singleton.mp member] at reported
  have same : (60000000 : Int) = price := Option.some.inj (Except.ok.inj reported)
  rw [← same]
  decide

/-- The node reports a price of 5 once. Ten percent of that are half a unit, and every price from then on is 5. -/
theorem price_of_five_stays :
    let settings : GasSettings := ⟨65800000, 10, 0, 0, 1⟩
    Unlimited settings ∧ ¬Recovers (fun _ => "") ((init settings false).after (fun _ => "") [reporting 5]) 65800000 := by
  intro settings
  have unlimited : Unlimited settings := ⟨rfl, rfl, rfl, by decide⟩
  refine ⟨unlimited, ?_⟩
  have fresh : Plain (init settings false) := ⟨unlimited, rfl, by simp [init]⟩
  have plain := (@after_grows (fun _ => "") [reporting 5] _ fresh).1
  have five : ((init settings false).after (fun _ => "") [reporting 5]).lastPrice = some 5 := by decide +kernel
  exact not_recovers_of_still plain five (by decide) (by decide)

end OmocNode.Proofs.GasPriceRecovery
