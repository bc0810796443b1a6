import OmocNode.PriceFeeder
import OmocNode.Proofs.DecimalRounding
import Mathlib.Data.List.TakeWhile
import Mathlib.Order.WithBot

/-! Which sample of a queue stands for a time. Of the nearest samples the search
sees the one appended first and the first one with another time, so it misses the
latest where an exchange reports a time twice. -/

namespace OmocNode.Proofs.NearestSample
open TimeWithTimestampQueue DecimalRounding

section Minimum
variable {α κ ρ : Type} [LinearOrder ρ] {less : κ → κ → Bool} {key : α → κ} (value : α → ρ)

omit [LinearOrder ρ] in
theorem minBy_eq_none_iff {items : List α} : Python.minBy less key items = none ↔ items = [] := by
  cases items <;> simp [Python.minBy]

/-- `min` finds the least value, and the first item that has it, where the keys of the items compare as their values do. -/
theorem minBy_spec {items : List α} {least : α} {comparable : α → Prop}
    (agree : ∀ {x y}, comparable x → comparable y → (less (key x) (key y) = true ↔ value x < value y))
    (all : ∀ x ∈ items, comparable x) (found : Python.minBy less key items = some least) :
    (∀ y ∈ items, value least ≤ value y) ∧ items.find? (fun y => value y ≤ value least) = some least := by
  cases items with
  | nil => cases found
  | cons first rest =>
    obtain rfl := Option.some.inj found
    clear found
    induction rest generalizing first with
    | nil => simp
    | cons next rest ih =>
      obtain ⟨here, there, others⟩ : comparable first ∧ comparable next ∧ ∀ x ∈ rest, comparable x := by
        simpa only [List.forall_mem_cons] using all
      rw [List.foldl_cons]
      split
      next better =>
        have smaller := (agree there here).mp better
        obtain ⟨lowest, found⟩ := ih next (List.forall_mem_cons.mpr ⟨there, others⟩)
        have past := (lowest next (by simp)).trans_lt smaller
        refine ⟨?_, ?_⟩
        · intro y member
          rcases List.mem_cons.mp member with rfl | later
          · exact past.le
          · exact lowest y later
        · rw [List.find?_cons_of_neg (by simpa using past)]
          exact found
      next worse =>
        have larger : value first ≤ value next :=
          not_lt.mp fun smaller => worse ((agree there here).mpr smaller)
        obtain ⟨lowest, found⟩ := ih first (List.forall_mem_cons.mpr ⟨here, others⟩)
        have bound := lowest first (by simp)
        refine ⟨?_, ?_⟩
        · intro y member
          rcases List.mem_cons.mp member with rfl | later
          · exact bound
          · rcases List.mem_cons.mp later with rfl | last
            · exact bound.trans larger
            · exact lowest y (List.mem_cons_of_mem _ last)
        · by_cases stays : value first ≤ value (rest.foldl (fun best item => if less (key item) (key best) then item else best) first)
          · rw [List.find?_cons_of_pos (by simpa using stays)] at found ⊢
            exact found
          · have above := (not_le.mp stays).trans_le larger
            rw [List.find?_cons_of_neg (by simpa using stays)] at found ⊢
            rw [List.find?_cons_of_neg (by simpa using above)]
            exact found

end Minimum

section Times
variable {target : PyFloat}

private theorem ofRat_abs_neg (q : ℚ) : (PyFloat.ofRat (-q)).abs = (PyFloat.ofRat q).abs := by
  simp only [PyFloat.ofRat, rounded_neg, abs_neg]
  split
  · simp [PyFloat.abs]
  · split <;> split <;> rfl

/-- A difference is rounded, yet it has the sign of the exact one. -/
theorem lt_ofRat (q : ℚ) : (PyFloat.finite 0).lt (PyFloat.ofRat q) = decide (0 < q) := by
  have sign : 0 < Decimal.rounded 2 53 q ↔ 0 < q := by
    constructor
    · intro positive
      by_contra other
      have mirrored := rounded_nonneg (by decide : 1 < 2) 53 (neg_nonneg.mpr (not_lt.mp other)) (by decide)
      rw [rounded_neg] at mirrored
      linarith
    · exact fun positive => rounded_pos (by decide) 53 positive (by decide)
  simp only [PyFloat.ofRat]
  split
  · simp [PyFloat.lt, sign]
  · split
    next positive => simp [PyFloat.lt, sign.mp positive]
    next negative => simp [PyFloat.lt, mt sign.mpr negative]

/-- A distance is a number or infinite. -/
def away (target : PyFloat) (x : ExchangePrice) : WithTop ℚ :=
  match distance target x with
  | .finite value => value
  | _ => ⊤

private theorem distance_cases (time : target ≠ .nan) {x : ExchangePrice} {t : ℚ} (stamped : x.tsUtc = .finite t) :
    (∃ d, distance target x = .finite d) ∨ distance target x = .infinity := by
  have rounded : ∀ q, (∃ d, (PyFloat.ofRat q).abs = .finite d) ∨ (PyFloat.ofRat q).abs = .infinity := by
    intro q
    simp only [PyFloat.ofRat]
    split
    · exact Or.inl ⟨_, rfl⟩
    · split <;> exact Or.inr rfl
  rw [distance, stamped]
  cases target with
  | finite g => exact rounded _
  | infinity => exact Or.inr rfl
  | negInfinity => exact Or.inr rfl
  | nan => exact absurd rfl time

private theorem distance_symm (x : ExchangePrice) : (x.tsUtc.sub target).abs = distance target x := by
  rw [distance]
  cases stamped : x.tsUtc <;> cases target <;> try rfl
  next t g =>
    rw [PyFloat.sub, PyFloat.sub, ← neg_sub, ofRat_abs_neg]

theorem after_iff (time : target ≠ .nan) {x : ExchangePrice} {t : ℚ} (stamped : x.tsUtc = .finite t) :
    (PyFloat.finite 0).lt (x.tsUtc.sub target) = target.lt x.tsUtc := by
  rw [stamped]
  cases target with
  | finite g =>
    rw [PyFloat.sub, lt_ofRat]
    simp [PyFloat.lt]
  | infinity => rfl
  | negInfinity => rfl
  | nan => exact absurd rfl time

theorem away_lt_iff (time : target ≠ .nan) {x y : ExchangePrice} (left : ∃ t, x.tsUtc = .finite t)
    (right : ∃ t, y.tsUtc = .finite t) :
    (distance target x).lt (distance target y) = true ↔ away target x < away target y := by
  obtain ⟨_, left⟩ := left
  obtain ⟨_, right⟩ := right
  rcases distance_cases time left with ⟨d, first⟩ | first <;> rcases distance_cases time right with ⟨e, second⟩ | second <;>
    simp [away, first, second, PyFloat.lt]

theorem away_eq_iff (time : target ≠ .nan) {x y : ExchangePrice} (left : ∃ t, x.tsUtc = .finite t)
    (right : ∃ t, y.tsUtc = .finite t) :
    (distance target x).eq (distance target y) = true ↔ away target x = away target y := by
  obtain ⟨_, left⟩ := left
  obtain ⟨_, right⟩ := right
  rcases distance_cases time left with ⟨d, first⟩ | first <;> rcases distance_cases time right with ⟨e, second⟩ | second <;>
    simp [away, first, second, PyFloat.eq]

end Times

/-- The samples no other one is nearer to the time than, in the order of the queue. -/
def nearest (queue : TimeWithTimestampQueue) (target : PyFloat) : List ExchangePrice :=
  queue.filter fun x => queue.all fun y => !(distance target y).lt (distance target x)

/-- The sample with the largest timestamp, and of those with that timestamp the one appended last. -/
def MostRecent (samples : List ExchangePrice) (x : ExchangePrice) : Prop :=
  ∃ before after, samples = before ++ x :: after ∧
    (∀ y ∈ before, x.tsUtc.lt y.tsUtc = false) ∧ ∀ y ∈ after, y.tsUtc.lt x.tsUtc = true

section Search
variable {queue : TimeWithTimestampQueue} {target : PyFloat}

private theorem nearest_eq_filter (times : ∀ x ∈ queue, ∃ t, x.tsUtc = .finite t) (time : target ≠ .nan) {least : ExchangePrice}
    (member : least ∈ queue) (lowest : ∀ y ∈ queue, away target least ≤ away target y) :
    nearest queue target = queue.filter fun x => away target x ≤ away target least := by
  apply List.filter_congr
  intro x inQueue
  rw [Bool.eq_iff_iff, List.all_eq_true, decide_eq_true_eq]
  constructor
  · intro unbeaten
    have here := unbeaten least member
    rw [Bool.not_eq_true', Bool.eq_false_iff, ne_eq, away_lt_iff time (times _ member) (times _ inQueue)] at here
    exact not_lt.mp here
  · intro low y other
    rw [Bool.not_eq_true', Bool.eq_false_iff, ne_eq, away_lt_iff time (times _ other) (times _ inQueue)]
    exact not_lt.mpr (low.trans (lowest y other))

/-- What the two searches find. -/
theorem getNearestData_eq (times : ∀ x ∈ queue, ∃ t, x.tsUtc = .finite t) (time : target ≠ .nan) (nonempty : queue ≠ []) :
    ∃ first, (nearest queue target).head? = some first ∧
      getNearestData queue target = match (nearest queue target).find? (fun y => y.tsUtc ≠ first.tsUtc) with
        | none => some first
        | some other => some (if target.lt first.tsUtc then first else other) := by
  obtain ⟨first, found⟩ : ∃ first, Python.minBy PyFloat.lt (distance target) queue = some first := by
    cases queue with
    | nil => exact absurd rfl nonempty
    | cons => exact ⟨_, rfl⟩
  obtain ⟨lowest, leftmost⟩ := minBy_spec (away target) (away_lt_iff time) times found
  have member := List.mem_of_find?_eq_some leftmost
  have candidates := nearest_eq_filter times time member lowest
  refine ⟨first, by rw [candidates, List.head?_filter, leftmost], ?_⟩
  have kept : (queue.filter fun y => !y.tsUtc.eq first.tsUtc) = queue.filter fun y => y.tsUtc ≠ first.tsUtc := by
    apply List.filter_congr
    intro y other
    obtain ⟨t, stamped⟩ := times y other
    simp [stamped, PyFloat.eq]
  have elsewhere : (nearest queue target).find? (fun y => y.tsUtc ≠ first.tsUtc) =
      (queue.filter fun y => y.tsUtc ≠ first.tsUtc).find? fun y => away target y ≤ away target first := by
    rw [candidates, ← List.head?_filter, ← List.head?_filter, List.filter_filter, List.filter_filter]
    simp only [Bool.and_comm]
  rw [elsewhere]
  simp only [getNearestData, found, minWithout, kept]
  cases rest : Python.minBy PyFloat.lt (distance target) (queue.filter fun y => y.tsUtc ≠ first.tsUtc) with
  | none =>
    rw [minBy_eq_none_iff.mp rest]
    rfl
  | some second =>
    have inQueue : ∀ y ∈ queue.filter (fun y => decide (y.tsUtc ≠ first.tsUtc)), y ∈ queue := fun y h => (List.mem_filter.mp h).1
    obtain ⟨lowest', leftmost'⟩ := minBy_spec (away target) (away_lt_iff time) (fun x here => times x (inQueue x here)) rest
    have member' := inQueue second (List.mem_of_find?_eq_some leftmost')
    obtain ⟨t, stamped⟩ := times first member
    simp only [distance_symm, after_iff time stamped]
    by_cases level : away target first = away target second
    · rw [if_neg (by simpa using (away_eq_iff time (times _ member) (times _ member')).mpr level), level, leftmost']
    · have farther := lt_of_le_of_ne (lowest second member') level
      have none : (queue.filter fun y => decide (y.tsUtc ≠ first.tsUtc)).find? (fun y => away target y ≤ away target first) = none := by
        rw [List.find?_eq_none]
        intro y there near
        exact absurd ((lowest' y there).trans (of_decide_eq_true near)) (not_le.mpr farther)
      rw [none, if_pos]
      rw [Bool.not_eq_true', Bool.eq_false_iff, ne_eq, away_eq_iff time (times _ member) (times _ member')]
      exact level

end Search

section Recent
variable {samples : List ExchangePrice}

theorem lt_irrefl_time (x : PyFloat) : x.lt x = false := by cases x <;> simp [PyFloat.lt]

theorem lt_asymm_time {x y : PyFloat} (less : x.lt y = true) : y.lt x = false := by
  cases x <;> cases y <;> simp_all [PyFloat.lt, le_of_lt]

theorem MostRecent.mem {x : ExchangePrice} (recent : MostRecent samples x) : x ∈ samples := by
  obtain ⟨before, after, rfl, _⟩ := recent
  simp

theorem MostRecent.not_lt {x y : ExchangePrice} (recent : MostRecent samples x) (member : y ∈ samples) :
    x.tsUtc.lt y.tsUtc = false := by
  obtain ⟨before, after, rfl, earlier, later⟩ := recent
  rcases List.mem_append.mp member with first | rest
  · exact earlier y first
  · rcases List.mem_cons.mp rest with rfl | last
    · exact lt_irrefl_time _
    · exact lt_asymm_time (later y last)

theorem MostRecent.getLast {x : ExchangePrice} (recent : MostRecent samples x) :
    (samples.filter fun y => y.tsUtc = x.tsUtc).getLast? = some x := by
  obtain ⟨before, after, rfl, _, later⟩ := recent
  have none : (after.filter fun y => y.tsUtc = x.tsUtc) = [] := by
    rw [List.filter_eq_nil_iff]
    intro y member same
    have less := later y member
    rw [of_decide_eq_true same, lt_irrefl_time] at less
    cases less
  rw [List.filter_append, List.filter_cons_of_pos (by simp), none]
  simp

theorem mostRecent_unique (times : ∀ x ∈ samples, ∃ t, x.tsUtc = .finite t) {x y : ExchangePrice}
    (left : MostRecent samples x) (right : MostRecent samples y) : x = y := by
  have same : x.tsUtc = y.tsUtc := by
    obtain ⟨t, first⟩ := times x left.mem
    obtain ⟨u, second⟩ := times y right.mem
    have above := left.not_lt right.mem
    have below := right.not_lt left.mem
    rw [first, second] at above below ⊢
    simp only [PyFloat.lt, decide_eq_false_iff_not, not_lt] at above below
    rw [le_antisymm below above]
  have last := left.getLast
  rw [same, right.getLast] at last
  exact (Option.some.inj last).symm

theorem exists_mostRecent (times : ∀ x ∈ samples, ∃ t, x.tsUtc = .finite t) (nonempty : samples ≠ []) :
    ∃ x, MostRecent samples x := by
  induction samples with
  | nil => exact absurd rfl nonempty
  | cons x rest ih =>
    by_cases single : rest = []
    · exact ⟨x, [], [], by simp [single], by simp, by simp⟩
    · obtain ⟨r, recent⟩ := ih (fun y member => times y (List.mem_cons_of_mem _ member)) single
      obtain ⟨u, stamped⟩ := times r (List.mem_cons_of_mem _ recent.mem)
      obtain ⟨t, here⟩ := times x List.mem_cons_self
      cases later : r.tsUtc.lt x.tsUtc with
      | true =>
        refine ⟨x, [], rest, rfl, by simp, ?_⟩
        intro y member
        obtain ⟨v, other⟩ := times y (List.mem_cons_of_mem _ member)
        have bound := recent.not_lt member
        rw [stamped, other] at bound
        rw [stamped, here] at later
        rw [other, here]
        simp only [PyFloat.lt, decide_eq_false_iff_not, not_lt, decide_eq_true_eq] at bound later ⊢
        exact bound.trans_lt later
      | false =>
        obtain ⟨before, after, rfl, earlier, last⟩ := recent
        refine ⟨r, x :: before, after, rfl, ?_, last⟩
        intro y member
        rcases List.mem_cons.mp member with rfl | there
        · exact later
        · exact earlier y there

end Recent

/-- When the searches see the right one of the nearest samples: the latest
timestamp has one sample, or the same at both ends, and the first of the nearest
samples leads to it. The last condition can only fail where rounding gives two
timestamps on one side of the time the same distance. -/
def Unambiguous (target : PyFloat) (samples : List ExchangePrice) : Prop :=
  ∃ first latest, samples.head? = some first ∧ MostRecent samples latest ∧
    samples.find? (fun y => y.tsUtc = latest.tsUtc) = some latest ∧
    if first.tsUtc = latest.tsUtc then target.lt latest.tsUtc = true ∨ ∀ y ∈ samples, y.tsUtc = latest.tsUtc
    else target.lt first.tsUtc = false ∧ ∀ y ∈ samples.takeWhile (fun y => y.tsUtc ≠ latest.tsUtc), y.tsUtc = first.tsUtc

section Choice
variable {target : PyFloat} {first : ExchangePrice} {samples : List ExchangePrice}

/-- The sample the searches settle on, given the nearest ones and the first of them. -/
def chosen (target : PyFloat) (first : ExchangePrice) (samples : List ExchangePrice) : ExchangePrice :=
  match samples.find? (fun y => y.tsUtc ≠ first.tsUtc) with
  | none => first
  | some other => if target.lt first.tsUtc then first else other

private theorem find_first {rest : List ExchangePrice} :
    (first :: rest).find? (fun y => y.tsUtc = first.tsUtc) = some first :=
  List.find?_cons_of_pos (by simp)

private theorem unambiguous_of_mostRecent (head : samples.head? = some first) (recent : MostRecent samples (chosen target first samples)) :
    Unambiguous target samples := by
  obtain ⟨rest, rfl⟩ := List.head?_eq_some_iff.mp head
  unfold chosen at recent
  split at recent
  next alone =>
    refine ⟨first, first, head, recent, find_first, ?_⟩
    rw [if_pos rfl]
    right
    intro y member
    simpa using List.find?_eq_none.mp alone y member
  next other found =>
    obtain ⟨differs, before, after, shape, prior⟩ := List.find?_eq_some_iff_append.mp found
    simp only [decide_not, Bool.not_eq_true', decide_eq_false_iff_not, Bool.not_not, decide_eq_true_eq] at differs prior
    split at recent
    next after =>
      refine ⟨first, first, head, recent, find_first, ?_⟩
      rw [if_pos rfl]
      exact Or.inl after
    next notAfter =>
      have apart : ∀ y ∈ before, y.tsUtc ≠ other.tsUtc := fun y member same => differs (same ▸ prior y member)
      refine ⟨first, other, head, recent, ?_, ?_⟩
      · rw [shape, List.find?_append, List.find?_eq_none.mpr (by simpa using apart)]
        simp
      · rw [if_neg (Ne.symm differs), shape, List.takeWhile_append_of_pos (by simpa using apart)]
        refine ⟨by simpa using notAfter, ?_⟩
        simpa using prior

private theorem mostRecent_of_unambiguous (head : samples.head? = some first) (clear : Unambiguous target samples) :
    MostRecent samples (chosen target first samples) := by
  obtain ⟨first', latest, head', recent, once, sides⟩ := clear
  obtain rfl := Option.some.inj (head.symm.trans head')
  obtain ⟨rest, rfl⟩ := List.head?_eq_some_iff.mp head
  split at sides
  next same =>
    rw [← same, find_first] at once
    obtain rfl := Option.some.inj once
    have here : chosen target first (first :: rest) = first := by
      unfold chosen
      rcases sides with after | level
      · split
        · rfl
        · rw [if_pos after]
      · rw [List.find?_eq_none.mpr (by simpa using level)]
    rw [here]
    exact recent
  next differs =>
    obtain ⟨notAfter, level⟩ := sides
    obtain ⟨_, before, after, shape, prior⟩ := List.find?_eq_some_iff_append.mp once
    have leading : (first :: rest).takeWhile (fun y => y.tsUtc ≠ latest.tsUtc) = before := by
      rw [shape, List.takeWhile_append_of_pos (by simpa using prior)]
      simp
    rw [leading] at level
    have here : chosen target first (first :: rest) = latest := by
      unfold chosen
      rw [shape, List.find?_append, List.find?_eq_none.mpr (by simpa using level), notAfter]
      simp [Ne.symm differs]
    rw [here]
    exact recent

end Choice

section Exact
variable {queue : TimeWithTimestampQueue} {g : ℚ}

/-- The differences are floats themselves, as they are for a time close to the timestamps. -/
def Exact (queue : TimeWithTimestampQueue) (g : ℚ) : Prop :=
  ∀ x ∈ queue, ∃ t, x.tsUtc = .finite t ∧ (PyFloat.finite g).sub x.tsUtc = .finite (g - t)

private theorem nearest_level (exact : Exact queue g) {x y : ExchangePrice} (left : x ∈ nearest queue (.finite g))
    (right : y ∈ nearest queue (.finite g)) {t u : ℚ} (first : x.tsUtc = .finite t) (second : y.tsUtc = .finite u) :
    |g - t| = |g - u| := by
  have bound : ∀ {x y : ExchangePrice} {t u : ℚ}, x ∈ nearest queue (.finite g) → y ∈ nearest queue (.finite g) →
      x.tsUtc = .finite t → y.tsUtc = .finite u → |g - t| ≤ |g - u| := by
    intro x y t u left right first second
    obtain ⟨inQueue, unbeaten⟩ := List.mem_filter.mp left
    obtain ⟨other, _⟩ := List.mem_filter.mp right
    obtain ⟨t', stamp, difference⟩ := exact x inQueue
    obtain ⟨u', stamp', difference'⟩ := exact y other
    obtain rfl : t' = t := PyFloat.finite.inj (stamp.symm.trans first)
    obtain rfl : u' = u := PyFloat.finite.inj (stamp'.symm.trans second)
    have here := List.all_eq_true.mp unbeaten y other
    simpa [distance, difference, difference', PyFloat.abs, PyFloat.lt] using here
  exact le_antisymm (bound left right first second) (bound right left second first)

/-- Two times at one distance from a third are one on each side of it. -/
private theorem opposite_of_level {u T : ℚ} (less : u < T) (level : |g - u| = |g - T|) : u = 2 * g - T ∧ g < T := by
  rcases abs_eq_abs.mp level with equal | opposite
  · exact absurd less (by linarith)
  · exact ⟨by linarith, by linarith⟩

/-- The latest of the nearest samples bounds the others, which are as far away. -/
theorem nearest_le_latest (exact : Exact queue g) {latest y : ExchangePrice} (recent : MostRecent (nearest queue (.finite g)) latest)
    (member : y ∈ nearest queue (.finite g)) {T u : ℚ} (stamp : latest.tsUtc = .finite T) (other : y.tsUtc = .finite u) :
    u ≤ T ∧ |g - u| = |g - T| := by
  have below := recent.not_lt member
  rw [stamp, other] at below
  exact ⟨by simpa [PyFloat.lt] using below, nearest_level exact member recent.mem other stamp⟩

/-- With exact differences only a repeated timestamp can mislead the searches. -/
theorem unambiguous_iff_of_exact (nonempty : queue ≠ []) (exact : Exact queue g) :
    Unambiguous (.finite g) (nearest queue (.finite g)) ↔
      ∃ latest, MostRecent (nearest queue (.finite g)) latest ∧
        (nearest queue (.finite g)).find? (fun y => y.tsUtc = latest.tsUtc) = some latest := by
  constructor
  · intro clear
    obtain ⟨_, latest, _, recent, once, _⟩ := clear
    exact ⟨latest, recent, once⟩
  · intro single
    obtain ⟨latest, recent, once⟩ := single
    have times : ∀ x ∈ queue, ∃ t, x.tsUtc = .finite t := fun x member => (exact x member).imp fun _ both => both.1
    have within : ∀ x ∈ nearest queue (.finite g), x ∈ queue := fun x member => (List.mem_filter.mp member).1
    obtain ⟨first, head, _⟩ := getNearestData_eq times (by simp : PyFloat.finite g ≠ .nan) nonempty
    have leads := List.mem_of_head? head
    obtain ⟨t, stamp⟩ := times first (within _ leads)
    obtain ⟨T, stamp'⟩ := times latest (within _ recent.mem)
    obtain ⟨bound, level⟩ := nearest_le_latest exact recent leads stamp' stamp
    refine ⟨first, latest, head, recent, once, ?_⟩
    split
    next same =>
      by_cases after : g < T
      · left
        simpa [stamp', PyFloat.lt] using after
      · right
        intro y member
        obtain ⟨u, other⟩ := times y (within _ member)
        obtain ⟨below, level'⟩ := nearest_le_latest exact recent member stamp' other
        rw [abs_of_nonneg (by linarith), abs_of_nonneg (by linarith)] at level'
        rw [other, stamp']
        congr 1
        linarith
    next differs =>
      have earlier : t < T := lt_of_le_of_ne bound (fun equal => differs (by rw [stamp, stamp', equal]))
      obtain ⟨left, before⟩ := opposite_of_level earlier level
      refine ⟨?_, ?_⟩
      · simp only [stamp, PyFloat.lt, decide_eq_false_iff_not, not_lt]
        linarith
      · intro y member
        have apart : y.tsUtc ≠ latest.tsUtc := by simpa using List.mem_takeWhile_imp member
        have inNearest := (List.takeWhile_sublist _).subset member
        obtain ⟨u, other⟩ := times y (within _ inNearest)
        obtain ⟨below, level'⟩ := nearest_le_latest exact recent inNearest stamp' other
        have less : u < T := lt_of_le_of_ne below (fun equal => apart (by rw [other, stamp', equal]))
        rw [other, stamp, left, (opposite_of_level less level').1]

end Exact

/-- The search returns the most recent of the nearest samples exactly when they are unambiguous. -/
theorem getNearestData_mostRecent_iff {queue : TimeWithTimestampQueue} {target : PyFloat} (nonempty : queue ≠ [])
    (times : ∀ x ∈ queue, ∃ t, x.tsUtc = .finite t) (time : target ≠ .nan) :
    (∃ x, getNearestData queue target = some x ∧ MostRecent (nearest queue target) x) ↔
      Unambiguous target (nearest queue target) := by
  obtain ⟨first, head, result⟩ := getNearestData_eq times time nonempty
  have found : getNearestData queue target = some (chosen target first (nearest queue target)) := by
    rw [result, chosen]
    split <;> rfl
  rw [found]
  constructor
  · intro answered
    obtain ⟨x, same, recent⟩ := answered
    obtain rfl := Option.some.inj same
    exact unambiguous_of_mostRecent head recent
  · exact fun clear => ⟨_, rfl, mostRecent_of_unambiguous head clear⟩

theorem getNearestData_mostRecent_iff_ties :
    let sample (price ts : ℚ) : ExchangePrice := ⟨"test", .finite price, 1, .finite ts⟩
    let queue := [sample 0 8, sample 1 9, sample 2 11, sample 3 12]
    Unambiguous (.finite 10) (nearest queue (.finite 10)) ∧
      ∃ x, getNearestData queue (.finite 10) = some x ∧ MostRecent (nearest queue (.finite 10)) x := by
  intro sample queue
  have near : nearest queue (.finite 10) = [sample 1 9, sample 2 11] := by decide +kernel
  have result := @getNearestData_mostRecent_iff queue (.finite 10) (by simp [queue])
    (by simp [queue, sample]) (by simp)
  rw [near] at result ⊢
  have clear : Unambiguous (.finite 10) [sample 1 9, sample 2 11] := by
    refine ⟨sample 1 9, sample 2 11, rfl, ⟨[sample 1 9], [], rfl, ?_, by simp⟩, by decide, ?_⟩
    · norm_num [sample, PyFloat.lt]
    · norm_num [sample, PyFloat.lt]
  exact ⟨clear, result.mpr clear⟩

/-- An exchange reports one time twice, with the price changed in between. The node keeps using the price it replaced. -/
theorem getNearestData_superseded :
    ¬∀ (queue : TimeWithTimestampQueue) (target : PyFloat), queue ≠ [] → (∀ x ∈ queue, ∃ t, x.tsUtc = .finite t) →
      target ≠ .nan → ∃ x, getNearestData queue target = some x ∧ MostRecent (nearest queue target) x := by
  intro always
  let sample (price : ℚ) : ExchangePrice := ⟨"test", .finite price, 1, .finite 10⟩
  obtain ⟨x, found, recent⟩ := always [sample 1, sample 2] (.finite 10) (by simp) (by simp [sample]) (by simp)
  have near : nearest [sample 1, sample 2] (.finite 10) = [sample 1, sample 2] := by decide +kernel
  have result : getNearestData [sample 1, sample 2] (.finite 10) = some (sample 1) := by decide +kernel
  rw [near] at recent
  obtain rfl := Option.some.inj (result.symm.trans found)
  have last := recent.getLast
  simp [sample] at last

end OmocNode.Proofs.NearestSample
