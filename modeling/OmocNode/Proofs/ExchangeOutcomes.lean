import OmocNode.FetchPrices

/-! What one exchange's answer does to the prices of the others. Every answer is
handled on its own but two, and these end the round for all. -/

namespace OmocNode.Proofs.ExchangeOutcomes
open PriceEngines Blockchain

abbrev Outcome := Awaited (Except String PriceInfo)

/-- The volume is above the bound; a NaN is above nothing. -/
def Above (volume : Volume) (bound : PyFloat) : Prop := volume.greater bound = .ok true

instance (volume : Volume) (bound : PyFloat) : Decidable (Above volume bound) :=
  inferInstanceAs (Decidable (_ = _))

/-- The engine's own volume check, which only a positive minimum turns on. -/
def Passes (engine : DEngine) (dPrice : PriceInfo) : Prop :=
  (PyFloat.finite 0).lt engine.minVolume = true → Above dPrice.volume engine.minVolume

instance (engine : DEngine) (dPrice : PriceInfo) : Decidable (Passes engine dPrice) := inferInstanceAs (Decidable (_ → _))

/-- The entry of an engine that answered with a price and passes its own volume check. -/
def ownEntry : DEngine × Outcome → Option IPrice
  | (engine, .ok (.ok dPrice)) => if Passes engine dPrice then some (iPrice engine dPrice) else none
  | _ => none

/-- No exception, and no NaN volume where the volume is evaluated. -/
def Harmless : DEngine × Outcome → Prop
  | (_, .error _) => False
  | (_, .ok (.error _)) => True
  | (engine, .ok (.ok dPrice)) => ¬((PyFloat.finite 0).lt engine.minVolume = true ∧ dPrice.volume = .decimal .nan)

private theorem greater_decimal {value : PyDecimal} {bound : PyFloat} (number : value ≠ .nan) (ordered : bound ≠ .nan) :
    ∃ verdict, (Volume.decimal value).greater bound = .ok verdict := by
  cases value with
  | nan => exact absurd rfl number
  | finite value =>
    cases bound with
    | nan => exact absurd rfl ordered
    | finite least => exact ⟨_, rfl⟩
    | infinity => exact ⟨_, rfl⟩
    | negInfinity => exact ⟨_, rfl⟩
  | infinity => cases bound <;> first | exact absurd rfl ordered | exact ⟨_, rfl⟩
  | negInfinity => cases bound <;> first | exact absurd rfl ordered | exact ⟨_, rfl⟩

/-- Against a positive bound the comparison raises for a NaN alone. -/
theorem greater_cases {bound : PyFloat} (positive : (PyFloat.finite 0).lt bound = true) (volume : Volume) :
    volume = .decimal .nan ∧ (∃ err, volume.greater bound = .error err) ∨
      volume ≠ .decimal .nan ∧ volume.greater bound = .ok (decide (Above volume bound)) := by
  have decided : ∀ {verdict : Bool}, volume.greater bound = .ok verdict →
      volume.greater bound = .ok (decide (Above volume bound)) := by
    intro verdict compared
    cases verdict <;> simp [Above, compared]
  cases volume with
  | float value => exact Or.inr ⟨by simp, decided rfl⟩
  | decimal value =>
    by_cases nan : value = .nan
    · rw [nan]
      exact Or.inl ⟨rfl, _, rfl⟩
    · have ordered : bound ≠ .nan := by
        intro unordered
        rw [unordered] at positive
        cases positive
      obtain ⟨verdict, compared⟩ := greater_decimal nan ordered
      exact Or.inr ⟨fun same => nan (Volume.decimal.inj same), decided compared⟩

/-- One result is added to the list on its own terms, or it ends the round. -/
theorem addPrice_cases (engine : DEngine) (result : Outcome) :
    Harmless (engine, result) ∧ addPrice engine result = .ok (ownEntry (engine, result)) ∨
      ¬Harmless (engine, result) ∧ ∃ err, addPrice engine result = .error err := by
  cases result with
  | error raised => exact Or.inr ⟨id, _, rfl⟩
  | ok answer =>
    cases answer with
    | error errMsg => exact Or.inl ⟨trivial, rfl⟩
    | ok dPrice =>
      simp only [Harmless, addPrice, ownEntry]
      by_cases evaluated : (PyFloat.finite 0).lt engine.minVolume = true
      · rw [if_pos evaluated]
        rcases greater_cases evaluated dPrice.volume with ⟨nan, err, raises⟩ | ⟨number, compared⟩
        · exact Or.inr ⟨not_not.mpr ⟨evaluated, nan⟩, err, by rw [raises]; rfl⟩
        · refine Or.inl ⟨fun both => number both.2, ?_⟩
          rw [compared]
          by_cases above : Above dPrice.volume engine.minVolume
          · rw [decide_eq_true above, if_pos (show Passes engine dPrice from fun _ => above)]
            rfl
          · rw [decide_eq_false above, if_neg (fun passes : Passes engine dPrice => above (passes evaluated))]
            rfl
      · refine Or.inl ⟨fun both => evaluated both.1, ?_⟩
        rw [if_neg evaluated, if_pos (show Passes engine dPrice from fun positive => absurd positive evaluated)]
        rfl

theorem fetchPrices_ok {pData : List (DEngine × Outcome)} (harmless : ∀ entry ∈ pData, Harmless entry) :
    fetchPrices pData = .ok (pData.filterMap ownEntry) := by
  induction pData with
  | nil => rfl
  | cons entry pData ih =>
    obtain ⟨engine, result⟩ := entry
    rcases addPrice_cases engine result with ⟨_, added⟩ | ⟨harmful, _⟩
    · rw [fetchPrices, added, ih fun other member => harmless other (List.mem_cons_of_mem _ member), List.filterMap_cons]
      cases ownEntry (engine, result) <;> rfl
    · exact absurd (harmless _ List.mem_cons_self) harmful

theorem harmless_of_fetchPrices_ok {pData : List (DEngine × Outcome)} {prices : List IPrice}
    (fetched : fetchPrices pData = .ok prices) : ∀ entry ∈ pData, Harmless entry := by
  induction pData generalizing prices with
  | nil => simp
  | cons entry pData ih =>
    obtain ⟨engine, result⟩ := entry
    rcases addPrice_cases engine result with ⟨harmless, added⟩ | ⟨_, err, raised⟩
    · rw [fetchPrices, added] at fetched
      cases rest : fetchPrices pData with
      | ok others => exact List.forall_mem_cons.mpr ⟨harmless, ih rest⟩
      | error err =>
        rw [rest] at fetched
        cases fetched
    · rw [fetchPrices, raised] at fetched
      cases fetched

/-- Each engine's entry depends on its own answer exactly where no answer is an
exception or, with the volume evaluated, a NaN volume. -/
theorem fetchPrices_own_entries_iff (pData : List (DEngine × Outcome)) :
    fetchPrices pData = .ok (pData.filterMap ownEntry) ↔ ∀ entry ∈ pData, Harmless entry :=
  ⟨harmless_of_fetchPrices_ok, fetchPrices_ok⟩

/-- What can go wrong while an engine reads its answer comes back as a text. -/
theorem getPrice_returns {Response : Type} (str : PyError → String) (name : String) {oraclePriceReceiveMaxAge : PyFloat}
    {maxAge : Int} (measured : Python.timedelta oraclePriceReceiveMaxAge = .ok maxAge) (now later : Int)
    (truthy : Response → Bool) (map : Response → Awaited PriceInfo) (fetched : Option Response × String)
    (running : ∀ response, map response ≠ .error .cancelled) :
    ∃ outcome, getPrice str name oraclePriceReceiveMaxAge now later truthy map (.ok fetched) = .ok outcome := by
  simp only [getPrice, bind, Except.bind]
  cases fetched.1.filter truthy with
  | none => exact ⟨_, rfl⟩
  | some response =>
    cases mapped : map response with
    | ok info =>
      simp only [mapped, measured, Except.mapError]
      split <;> exact ⟨_, rfl⟩
    | error raised =>
      cases raised with
      | cancelled => exact absurd mapped (running response)
      | exception err =>
        simp only [mapped]
        exact ⟨_, rfl⟩

/-- One exchange reports the volume `NaN` and has a minimum; the other one answers as it should. -/
theorem nan_volume_costs_all :
    let engine (name : String) : DEngine := ⟨name, .finite 1, .finite 1, .finite 0⟩
    let answer (volume : PyDecimal) : Outcome := .ok (.ok ⟨.finite 60000, .decimal volume, 0⟩)
    let pData := [(engine "btc_usd_kraken", answer .nan), (engine "btc_usd_bitstamp", answer (.finite 900))]
    pData.filterMap ownEntry = [iPrice (engine "btc_usd_bitstamp") ⟨.finite 60000, .decimal (.finite 900), 0⟩] ∧
      fetchPrices pData = .error Volume.invalidOperation ∧ fetchPrices pData ≠ .ok (pData.filterMap ownEntry) := by
  intro engine answer pData
  have raised : fetchPrices pData = .error Volume.invalidOperation := by decide +kernel
  exact ⟨by decide +kernel, raised, fun fetched => by rw [raised] at fetched; cases fetched⟩

end OmocNode.Proofs.ExchangeOutcomes
