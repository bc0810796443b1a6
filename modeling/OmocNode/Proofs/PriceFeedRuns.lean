import OmocNode.PriceFeed
import OmocNode.Proofs.ExchangeOutcomes
import OmocNode.Proofs.MedianPrice
import OmocNode.Proofs.NearestSample

/-! What the queues hold after any rounds, and where a price comes from that is
taken from them. -/

namespace OmocNode.Proofs.PriceFeedRuns
open Blockchain PriceEngines PriceFeed TimeWithTimestampQueue Outcomes ExchangeOutcomes MedianPrice WeightedMedian

variable {Response : Type} {str : PyError → String} {rounds : List (Round Response)} {round : Round Response}

section Arrivals

instance (entry : DEngine × Outcome) : Decidable (Harmless entry) :=
  match entry with
  | (_, .error _) => .isFalse id
  | (_, .ok (.error _)) => .isTrue trivial
  | (_, .ok (.ok _)) => inferInstanceAs (Decidable (¬(_ ∧ _)))

/-- What a round adds: every engine's own entry, unless one of the answers ends the round. -/
def added (str : PyError → String) (round : Round Response) : List IPrice :=
  match round.answers with
  | .error _ => []
  | .ok answers =>
    if ∀ answer ∈ answers, Harmless (round.outcome str answer) then
      answers.filterMap fun answer => ownEntry (round.outcome str answer)
    else []

def arrivals (str : PyError → String) (rounds : List (Round Response)) : List (BoundedQueue.Arrival String ExchangePrice) :=
  rounds.flatMap fun round => (added str round).map round.arrival

private theorem run_priceQueues (round : Round Response) (feed : Feed) :
    (run str round feed).2 = { feed with priceQueues := ((added str round).map round.arrival).foldl BoundedQueue.push feed.priceQueues } := by
  unfold run Round.getWeighted added
  cases answered : round.answers with
  | error raised => cases raised <;> rfl
  | ok answers =>
    by_cases harmless : ∀ answer ∈ answers, Harmless (round.outcome str answer)
    · have each : ∀ entry ∈ answers.map (round.outcome str), Harmless entry := by
        intro entry member
        obtain ⟨answer, listed, rfl⟩ := List.mem_map.mp member
        exact harmless answer listed
      simp only [fetchPrices_ok each, List.filterMap_map, if_pos harmless]
      rfl
    · cases fetched : fetchPrices (answers.map (round.outcome str)) with
      | error err =>
        simp only [fetched, if_neg harmless]
        rfl
      | ok prices =>
        have each := harmless_of_fetchPrices_ok fetched
        exact absurd (fun answer member => each _ (List.mem_map_of_mem member)) harmless

theorem afterRounds_eq (rounds : List (Round Response)) (feed : Feed) :
    afterRounds str rounds feed = { feed with priceQueues := (arrivals str rounds).foldl BoundedQueue.push feed.priceQueues } := by
  induction rounds generalizing feed with
  | nil => rfl
  | cons round rounds ih =>
    rw [afterRounds, List.foldl_cons, ← afterRounds, ih, run_priceQueues]
    simp only [arrivals, List.flatMap_cons, List.foldl_append]

/-- In every state the loop reaches, the queue of an exchange holds the last of
the prices it has answered in rounds that no answer ended, as they came. -/
theorem get?_afterRounds (str : PyError → String) (rounds : List (Round Response)) (feed : Feed)
    (fresh : feed.priceQueues = Dict.empty) (name : String) :
    (afterRounds str rounds feed).priceQueues.get? name = BoundedQueue.queueOf ((arrivals str rounds).filter (·.key = name)) := by
  rw [afterRounds_eq, fresh]
  exact BoundedQueue.get?_pushes _ name

end Arrivals
section Prices
variable {feeder : PriceFeederLoop} {targetTimeUtc : PyFloat} {toPublish : Bool}

/-- The price is that of one of the samples in use, the one of the median. -/
theorem getLastPrice_sample (positive : ∀ queue ∈ feeder.priceQueues, ∀ x ∈ queue.2, 0 < x.ponderation)
    {own : PriceWithTimestamp} (priced : feeder.getLastPrice targetTimeUtc toPublish = .ok (some own)) :
    ∃ x ∈ inUse feeder targetTimeUtc toPublish, ∃ v, x.price = .finite v ∧
      own = ⟨Python.truncate (v * 10 ^ feeder.oraclePriceDigits), x.tsUtc⟩ ∧ IsMedian (eligible feeder targetTimeUtc toPublish) v := by
  by_cases none : eligible feeder targetTimeUtc toPublish = []
  · rw [getLastPrice_none none] at priced
    cases priced
  · have nonempty := mt inUse_eq_nil_iff.mp none
    rw [eligible_eq] at none ⊢
    obtain ⟨x, used, v, selected, finite, median⟩ := getWeightedFrom_isMedian (inUse_positive positive) none
    refine ⟨x, used, v, finite, ?_, median⟩
    unfold inUse at nonempty selected
    simp only [PriceFeederLoop.getLastPrice, List.isEmpty_eq_false_iff.mpr nonempty, Bool.false_eq_true, if_false, selected, bind,
      Except.bind, finite, pure, Except.pure] at priced
    exact (Option.some.inj (Except.ok.inj priced)).symm

/-- An answer with a price that an engine has received in time and not for too small a volume. -/
structure Quote (round : Round Response) (answer : Answer Response) (response : Response) (info : PriceInfo) : Prop where
  fetched : ∃ text, answer.fetched = .ok (some response, text)
  truthy : answer.truthy response = true
  mapped : answer.map response = .ok info
  young : ∃ maxAge, Python.timedelta round.oraclePriceReceiveMaxAge = .ok maxAge ∧ answer.now - info.timestamp ≤ maxAge
  traded : Passes answer.engine info

/-- A finite price in an engine's entry is the one it has been told, while it was young. -/
theorem quote_of_ownEntry {answer : Answer Response} {val : IPrice} {v : ℚ}
    (own : ownEntry (round.outcome str answer) = some val) (finite : val.price = .finite v) :
    ∃ response info, Quote round answer response info ∧ val = iPrice answer.engine info := by
  unfold Round.outcome ownEntry at own
  split at own
  next engine info outcome =>
    obtain ⟨rfl, answered⟩ := Prod.mk.inj outcome
    split at own
    next traded =>
      obtain rfl := Option.some.inj own
      unfold getPrice at answered
      cases fetched : answer.fetched with
      | error raised =>
        rw [fetched] at answered
        cases answered
      | ok pair =>
        obtain ⟨responseJson, text⟩ := pair
        simp only [fetched, bind, Except.bind] at answered
        split at answered
        · cases answered
        next response present =>
          obtain ⟨rfl, truthy⟩ := Option.filter_eq_some_iff.mp present
          split at answered
          · cases answered
          · cases answered
          next read mapped =>
            cases limited : Python.timedelta round.oraclePriceReceiveMaxAge with
            | error err =>
              rw [limited] at answered
              cases answered
            | ok maxAge =>
              rw [limited] at answered
              simp only [Except.mapError] at answered
              split at answered
              · obtain rfl := Except.ok.inj (Except.ok.inj answered)
                cases finite
              next young =>
                obtain rfl := Except.ok.inj (Except.ok.inj answered)
                exact ⟨response, read, ⟨⟨text, fetched⟩, truthy, mapped, ⟨maxAge, limited, not_lt.mp young⟩, traded⟩, rfl⟩
    next => cases own
  next => cases own

/-- The sample is of a price that an exchange has been asked for in one of the rounds. -/
def Told (rounds : List (Round Response)) (x : ExchangePrice) : Prop :=
  ∃ round ∈ rounds, ∃ answers, round.answers = .ok answers ∧ ∃ answer ∈ answers, ∃ response info,
    Quote round answer response info ∧ x = (iPrice answer.engine info).sample

private theorem mem_arrivals {arrival : BoundedQueue.Arrival String ExchangePrice} (member : arrival ∈ arrivals str rounds) :
    ∃ round ∈ rounds, ∃ answers, round.answers = .ok answers ∧ ∃ answer ∈ answers, ∃ val,
      ownEntry (round.outcome str answer) = some val ∧ arrival = round.arrival val := by
  obtain ⟨round, listed, inRound⟩ := List.mem_flatMap.mp member
  obtain ⟨val, inAdded, rfl⟩ := List.mem_map.mp inRound
  unfold added at inAdded
  split at inAdded
  · cases inAdded
  next answers answered =>
    split at inAdded
    · obtain ⟨answer, asked, own⟩ := List.mem_filterMap.mp inAdded
      exact ⟨round, listed, answers, answered, answer, asked, val, own, rfl⟩
    · cases inAdded

/-- What is in a queue has arrived. -/
theorem arrived_of_mem {feed : Feed} (fresh : feed.priceQueues = Dict.empty) {queue : String × TimeWithTimestampQueue}
    {x : ExchangePrice} (listed : queue ∈ (afterRounds str rounds feed).feeder.priceQueues) (member : x ∈ queue.2) :
    ∃ arrival ∈ arrivals str rounds, arrival.item = x := by
  obtain ⟨⟨name, kept⟩, inQueues, rfl⟩ := List.mem_map.mp listed
  have held := get?_afterRounds str rounds feed fresh name
  rw [Dict.get?_eq_some_iff.mpr inQueues] at held
  cases came : (arrivals str rounds).filter (·.key = name) with
  | nil =>
    rw [came] at held
    cases held
  | cons first rest =>
    rw [came, BoundedQueue.queueOf] at held
    obtain rfl := Option.some.inj held
    obtain ⟨arrival, there, rfl⟩ := List.mem_map.mp (List.mem_of_mem_drop member)
    exact ⟨arrival, List.mem_of_mem_filter (came ▸ there), rfl⟩

/-- Every engine that has been asked has a weight. -/
def Weighted (rounds : List (Round Response)) : Prop :=
  ∀ round ∈ rounds, ∀ answers, round.answers = .ok answers → ∀ answer ∈ answers, 0 < answer.engine.ponderation.number

theorem positive_of_weighted (str : PyError → String) {feed : Feed} (fresh : feed.priceQueues = Dict.empty) (weighted : Weighted rounds) :
    ∀ queue ∈ (afterRounds str rounds feed).feeder.priceQueues, ∀ x ∈ queue.2, 0 < x.ponderation := by
  intro queue listed x member
  obtain ⟨arrival, arrived, rfl⟩ := arrived_of_mem fresh listed member
  obtain ⟨round, inRounds, answers, answered, answer, asked, val, own, rfl⟩ := mem_arrivals arrived
  have weight := weighted round inRounds answers answered answer asked
  unfold Round.outcome ownEntry at own
  split at own
  next engine info outcome =>
    obtain ⟨rfl, _⟩ := Prod.mk.inj outcome
    split at own
    · obtain rfl := Option.some.inj own
      exact weight
    · cases own
  next => cases own

/-- What is in use for a time has been told, and is close enough to the time. -/
theorem told_of_inUse {feed : Feed} (fresh : feed.priceQueues = Dict.empty) {x : ExchangePrice}
    (used : x ∈ inUse (afterRounds str rounds feed).feeder targetTimeUtc toPublish) :
    Told rounds x ∧ (distance targetTimeUtc x).le ((afterRounds str rounds feed).feeder.maxdiffs toPublish) = true := by
  obtain ⟨nearest, accepted⟩ := List.mem_filter.mp used
  obtain ⟨queue, listed, found⟩ := List.mem_filterMap.mp nearest
  obtain ⟨finite, close⟩ := Bool.and_eq_true_iff.mp accepted
  refine ⟨?_, close⟩
  obtain ⟨arrival, arrived, rfl⟩ := arrived_of_mem fresh listed (mem_of_getNearestData found)
  obtain ⟨round, inRounds, answers, answered, answer, asked, val, own, rfl⟩ := mem_arrivals arrived
  obtain ⟨v, priced⟩ : ∃ v, val.price = .finite v := by
    cases priced : (round.arrival val).item.price with
    | finite v => exact ⟨v, priced⟩
    | _ =>
      rw [priced] at finite
      cases finite
  obtain ⟨response, info, quote, rfl⟩ := quote_of_ownEntry own priced
  exact ⟨round, inRounds, answers, answered, answer, asked, response, info, quote, rfl⟩

/-- How the price of a feeder comes from the rounds before. -/
structure FromAnswers (rounds : List (Round Response)) (feeder : PriceFeederLoop) (targetTimeUtc : PyFloat)
    (toPublish : Bool) : Prop where
  told : ∀ x ∈ inUse feeder targetTimeUtc toPublish, Told rounds x ∧
    (distance targetTimeUtc x).le (feeder.maxdiffs toPublish) = true
  none : eligible feeder targetTimeUtc toPublish = [] → feeder.getLastPrice targetTimeUtc toPublish = .ok none
  some : eligible feeder targetTimeUtc toPublish ≠ [] → ∃ x ∈ inUse feeder targetTimeUtc toPublish, ∃ v, x.price = .finite v ∧
    feeder.getLastPrice targetTimeUtc toPublish = .ok (some ⟨Python.truncate (v * 10 ^ feeder.oraclePriceDigits), x.tsUtc⟩) ∧
    IsMedian (eligible feeder targetTimeUtc toPublish) v

/-- In every state the loop reaches, the queues hold the last answers of their
exchanges, and a price is the weighted median of such answers, one for each
exchange. Each was young enough when it came, its volume large enough, and it is
close enough to the time the price is for. -/
theorem price_from_answers (rounds : List (Round Response)) (feed : Feed) (fresh : feed.priceQueues = Dict.empty)
    (weighted : Weighted rounds) (targetTimeUtc : PyFloat) (toPublish : Bool) :
    (∀ name, (afterRounds str rounds feed).priceQueues.get? name =
        BoundedQueue.queueOf ((arrivals str rounds).filter (·.key = name))) ∧
      FromAnswers rounds (afterRounds str rounds feed).feeder targetTimeUtc toPublish := by
  refine ⟨get?_afterRounds str rounds feed fresh, fun x used => told_of_inUse fresh used, getLastPrice_none, ?_⟩
  intro some
  have positive := positive_of_weighted str fresh weighted
  obtain ⟨v, tsUtc, priced, _⟩ := getLastPrice_isMedian positive some
  obtain ⟨x, used, u, finite, same, median⟩ := getLastPrice_sample positive priced
  exact ⟨x, used, u, finite, same ▸ priced, median⟩

/-- An exchange that answers with a price as of a time. -/
def quoting (name : String) (weight price : ℚ) (timestamp now : Int) : Answer ℚ :=
  { engine := ⟨name, .finite weight, .finite 0, .finite 0⟩, fetched := .ok (some price, ""), truthy := (· ≠ 0)
    map := fun price => .ok ⟨.finite price, .float (.finite 0), timestamp⟩, now, later := now }

/-- Two rounds, in the second of which one of the exchanges answers with an old price. -/
def quotedRounds : List (Round ℚ) :=
  [⟨30, .finite 30, 5, .ok [quoting "bitstamp_btc_usd" (18 / 100) 60000 1700000000000000 1700000001000000,
      quoting "kraken_btc_usd" (21 / 100) 60010 1700000001000000 1700000001000000]⟩,
    ⟨30, .finite 30, 5, .ok [quoting "bitstamp_btc_usd" (18 / 100) 61000 1699999000000000 1700000006000000,
      quoting "kraken_btc_usd" (21 / 100) 60020 1700000006000000 1700000006000000]⟩]

def emptyFeed : Feed := ⟨.empty, .finite 30, .finite 60, 18⟩

theorem price_from_answers_quoted :
    (∀ name, (afterRounds (fun _ => "") quotedRounds emptyFeed).priceQueues.get? name =
        BoundedQueue.queueOf ((arrivals (fun _ => "") quotedRounds).filter (·.key = name))) ∧
      FromAnswers quotedRounds (afterRounds (fun _ => "") quotedRounds emptyFeed).feeder (.finite 1700000007) true := by
  refine price_from_answers quotedRounds emptyFeed rfl ?_ (.finite 1700000007) true
  intro round member answers answered answer asked
  simp only [quotedRounds, List.mem_cons, List.not_mem_nil, or_false] at member
  rcases member with rfl | rfl
  all_goals
    obtain rfl := Except.ok.inj answered
    simp only [List.mem_cons, List.not_mem_nil, or_false] at asked
    rcases asked with rfl | rfl <;> norm_num [quoting, PyDecimal.number]

end Prices

section Latest
variable {front : TimeWithTimestampQueue} {last : ExchangePrice} {g : ℚ}

/-- The last of the samples is the latest, and the time is not before it. -/
structure Latest (front : TimeWithTimestampQueue) (last : ExchangePrice) (g : ℚ) : Prop where
  exact : NearestSample.Exact (front ++ [last]) g
  later : ∀ x ∈ front, x.tsUtc.lt last.tsUtc = true
  reached : (PyFloat.finite g).lt last.tsUtc = false

theorem Latest.suffix {before : TimeWithTimestampQueue} (latest : Latest (before ++ front) last g) : Latest front last g where
  exact x member := latest.exact x (by rw [List.append_assoc]; exact List.mem_append_right _ member)
  later x member := latest.later x (List.mem_append_right _ member)
  reached := latest.reached

private theorem nearest_of_latest (latest : Latest front last g) : NearestSample.nearest (front ++ [last]) (.finite g) = [last] := by
  obtain ⟨T, stamp, difference⟩ := latest.exact last (List.mem_append_right _ (List.mem_singleton_self _))
  have reached : T ≤ g := by simpa [stamp, PyFloat.lt] using latest.reached
  have closer : ∀ x ∈ front, (distance (.finite g) last).lt (distance (.finite g) x) = true := by
    intro x member
    obtain ⟨t, earlier, apart⟩ := latest.exact x (List.mem_append_left _ member)
    have before : t < T := by simpa [stamp, earlier, PyFloat.lt] using latest.later x member
    simp only [distance, difference, apart, PyFloat.abs, PyFloat.lt, decide_eq_true_eq]
    rw [abs_of_nonneg (by linarith), abs_of_nonneg (by linarith)]
    linarith
  rw [NearestSample.nearest, List.filter_append]
  have beaten : front.filter (fun x => (front ++ [last]).all fun y => !(distance (.finite g) y).lt (distance (.finite g) x)) = [] := by
    rw [List.filter_eq_nil_iff]
    intro x member unbeaten
    have here := List.all_eq_true.mp unbeaten last (List.mem_append_right _ (List.mem_singleton_self _))
    rw [closer x member] at here
    cases here
  rw [beaten, List.nil_append, List.filter_singleton]
  have kept : ((front ++ [last]).all fun y => !(distance (.finite g) y).lt (distance (.finite g) last)) = true := by
    rw [List.all_eq_true]
    intro y member
    rcases List.mem_append.mp member with before | own
    · rw [NearestSample.lt_asymm_time (closer y before)]
      rfl
    · rw [List.mem_singleton.mp own, NearestSample.lt_irrefl_time]
      rfl
  rw [kept]
  rfl

private theorem getNearestData_of_latest (latest : Latest front last g) : getNearestData (front ++ [last]) (.finite g) = some last := by
  have times : ∀ x ∈ front ++ [last], ∃ t, x.tsUtc = .finite t := fun x member => (latest.exact x member).imp fun _ both => both.1
  obtain ⟨first, head, result⟩ := NearestSample.getNearestData_eq times (by simp : PyFloat.finite g ≠ .nan) (by simp)
  rw [nearest_of_latest latest] at head result
  obtain rfl : last = first := Option.some.inj head
  rw [result]
  simp

def oldArrival (price : PyDecimal) (tsUtc : ℚ) : BoundedQueue.Arrival String ExchangePrice :=
  ⟨30, "bitstamp_btc_usd", ⟨"bitstamp_btc_usd", price, 18 / 100, .finite tsUtc⟩⟩

/-- The queue still holds a price that is young enough. -/
def oldQueue : String × TimeWithTimestampQueue :=
  ("bitstamp_btc_usd", [(oldArrival (.finite 60000) 1700000000).item, (oldArrival .nan 1700000006).item])

end Latest
end OmocNode.Proofs.PriceFeedRuns
