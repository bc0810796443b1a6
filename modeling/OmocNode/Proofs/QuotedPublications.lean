import OmocNode.Proofs.HonestQuorum
import OmocNode.Proofs.PriceFeedRuns

/-! What is behind a price that a majority has signed: of every honest signer, the
answers that exchanges have given to its own feeder. -/

namespace OmocNode.Proofs.QuotedPublications
open App CoinPairLoop OracleNetwork Runs PriceFeed TimeWithTimestampQueue MedianPrice WeightedMedian PriceFeedRuns
open PublishedQuorum GatherSignatures RequestChecks HonestNodes HonestQuorum

variable {Response : Type} {str : PyError → String} {libraries : Libraries} {start final : World} {events : List Event}

section Feeding

/-- The prices of a runner are those of a feeder that has started with no queues and asked its exchanges in some rounds. -/
structure Asked (str : PyError → String) (rounds : List (Round Response)) (feed : Feed) (runner : CoinPairRunner) : Prop where
  fresh : feed.priceQueues = Dict.empty
  weighted : Weighted rounds
  prices : runner.lastPrice = (afterRounds str rounds feed).feeder.getLastPrice

def Fed (str : PyError → String) (Response : Type) : Runner → Prop
  | .coinPair runner => ∃ (rounds : List (Round Response)) (feed : Feed), Asked str rounds feed runner
  | .tasks _ => True

def WellFed (str : PyError → String) (Response : Type) (world : World) : Prop :=
  ∀ addr node, world.nodes addr = some node → ∀ entry ∈ node.cpMap, Fed str Response entry.2

/-- Whatever the other loops write, the prices are those of feeders. -/
def Feeds (str : PyError → String) (Response : Type) : Event → Prop
  | .refresh _ cpMap _ => ∀ entry ∈ cpMap, Fed str Response entry.2
  | .request _ _ | .round _ _ _ => True

theorem Steady.fed {before after : Runner} (steady : Steady before after) (fed : Fed str Response before) : Fed str Response after := by
  cases before <;> cases after
  case coinPair.coinPair =>
    obtain ⟨turn, rfl⟩ := steady
    obtain ⟨rounds, feed, asked⟩ := fed
    exact ⟨rounds, feed, asked.fresh, asked.weighted, asked.prices⟩
  case tasks.tasks => trivial
  all_goals exact steady.elim

private theorem step_wellFed (world : World) (event : Event) (next : World) (wellFed : WellFed str Response world)
    (feeds : Feeds str Response event) (stepped : step libraries world event = some next) : WellFed str Response next := by
  intro addr after found
  obtain ⟨before, here, steady | ⟨cpMap, now, rfl, rfl⟩⟩ := step_steady stepped found
  · intro entry member
    obtain ⟨runner, listed, same⟩ := steady.runners entry member
    exact Steady.fed same (wellFed addr before here _ listed)
  · exact feeds

end Feeding

section Quotes

/-- A sample from which a price comes: an exchange has told it, it is close enough to
the time the price is for, and it is the weighted median of those in use. -/
structure Backs (rounds : List (Round Response)) (feeder : PriceFeederLoop) (time : PyFloat) (toPublish : Bool)
    (x : ExchangePrice) (price : Int) : Prop where
  told : Told rounds x
  close : (distance time x).le (feeder.maxdiffs toPublish) = true
  median : ∃ v, x.price = .finite v ∧ IsMedian (eligible feeder time toPublish) v ∧
    price = Python.truncate (v * 10 ^ feeder.oraclePriceDigits)

private theorem backs_of_price {rounds : List (Round Response)} {feed : Feed} {runner : CoinPairRunner} {time : PyFloat} {toPublish : Bool}
    {own : PriceWithTimestamp} (asked : Asked str rounds feed runner) (priced : runner.lastPrice time toPublish = .ok (some own)) :
    ∃ x, Backs rounds (afterRounds str rounds feed).feeder time toPublish x own.price := by
  rw [asked.prices] at priced
  have positive := positive_of_weighted str asked.fresh asked.weighted
  obtain ⟨x, used, v, finite, rfl, median⟩ := getLastPrice_sample positive priced
  obtain ⟨told, close⟩ := told_of_inUse asked.fresh used
  exact ⟨x, told, close, v, finite, median, rfl⟩

/-- The price of another node is one's own, or close enough to it. -/
def Near (pct : ℚ) (price own : Int) : Prop :=
  own = price ∨ ∃ delta, Helpers.priceDelta price own = .ok (.finite delta) ∧ delta ≤ pct

/-- At one moment of the run, exchanges had told the node of an address a price that is near. -/
def Quoted (str : PyError → String) (Response : Type) (libraries : Libraries) (start : World) (events : List Event) (addr : String)
    (params : PublishPriceParams) : Prop :=
  ∃ earlier later world node runner, events = earlier ++ later ∧ run (step libraries) start earlier = some world ∧
    world.nodes addr = some node ∧ node.getRunner params.coinPair = some (.coinPair runner) ∧
    ∃ (rounds : List (Round Response)) (feed : Feed), Asked str rounds feed runner ∧
      ∃ time toPublish x own, Backs rounds (afterRounds str rounds feed).feeder time toPublish x own ∧
        Near runner.conf.oraclePriceRejectDeltaPct params.price own

variable {params : PublishPriceParams} {oracles : List FullOracleRoundInfo} {signers : List OracleSignature}

private theorem quoted_of_vouched {addr : String} (fed : WellFed str Response start) (feeds : ∀ event ∈ events, Feeds str Response event)
    (vouched : Vouched libraries start events addr params) : Quoted str Response libraries start events addr params := by
  obtain ⟨earlier, event, later, world, rfl, before, vouches⟩ := vouched
  have wellFed : WellFed str Response world := by
    apply run_invariant step_wellFed fed (along_of_events fun event member => ?_) before
    exact feeds event (List.mem_append_left _ member)
  have asked : ∀ {node runner vi}, OwnView world addr params node runner vi →
      ∃ (rounds : List (Round Response)) (feed : Feed), Asked str rounds feed runner := by
    intro node runner vi view
    exact wellFed addr node view.found _ (lookup_mem view.serves)
  cases event with
  | refresh target cpMap now => exact vouches.elim
  | request target request =>
    obtain ⟨rfl, node, runner, vi, own, requester, view, compared⟩ := vouches
    obtain ⟨rounds, feed, asked⟩ := asked view
    obtain ⟨time, priced⟩ := compared.price
    obtain ⟨x, backs⟩ := backs_of_price asked priced
    exact ⟨earlier, _, world, node, runner, rfl, before, view.found, view.serves, rounds, feed, asked, time, false, x, own.price,
      backs, .inr compared.close⟩
  | round target name setting =>
    obtain ⟨rfl, node, runner, vi, view, published⟩ := vouches
    obtain ⟨rounds, feed, asked⟩ := asked view
    obtain ⟨tsUtc, priced, _⟩ := published.price
    obtain ⟨x, backs⟩ := backs_of_price asked priced
    exact ⟨earlier, _, world, node, runner, rfl, before, view.found, view.serves, rounds, feed, asked, setting.time, true, x,
      params.price, backs, .inl rfl⟩

/-- Behind a price that a majority has signed there is, for all of the majority but
the faulty oracles, an answer of an exchange: the weighted median of the answers the
oracle had in use, each of them young enough when it came, and the price is near to it. -/
theorem certificate_quoted {faulty : FullOracleRoundInfo → Bool} (fresh : start.signed = []) (kept : WellKept start)
    (fed : WellFed str Response start) (refreshes : ∀ event ∈ events, Refreshes event)
    (feeds : ∀ event ∈ events, Feeds str Response event) (ran : run (step libraries) start events = some final)
    (expiring : ExpiringPrice params) (certificate : Certificate libraries.eth oracles params signers)
    (authentic : ∀ signer ∈ signers, Authentic libraries.eth oracles faulty final signer.signature) :
    ∃ vouchers : List FullOracleRoundInfo, vouchers.Sublist oracles ∧ (vouchers.map (·.addr.number)).Nodup ∧
      oracles.length / 2 + 1 ≤ vouchers.length + oracles.countP faulty ∧
      ∀ oracle ∈ vouchers, faulty oracle = false ∧ Quoted str Response libraries start events oracle.addr.text params := by
  obtain ⟨vouchers, among, distinct, majority, each⟩ := vouchers_of_signed fresh kept refreshes ran expiring certificate.distinct
    certificate.majority certificate.selected certificate.increasing (signed_of_certificate certificate authentic)
  refine ⟨vouchers, among, distinct, majority, ?_⟩
  intro oracle member
  obtain ⟨honest, vouched⟩ := each oracle member
  exact ⟨honest, quoted_of_vouched fed feeds vouched⟩

end Quotes

section Exchange

/-- One exchange has told both nodes the price. -/
def quotedRound : Round ℚ :=
  ⟨30, .finite 30, 5, .ok [quoting "bitstamp_btc_usd" (18 / 100) 1 1700000000000000 1700000000000000]⟩

def quotedRunner : CoinPairRunner :=
  { RoundDecisions.sharedPriceRunner RoundDecisions.publishedPrice with
    lastPrice := (afterRounds (fun _ => "") [quotedRound] emptyFeed).feeder.getLastPrice }

/-- Nodes that serve no pair yet. -/
def quotedStart : World where
  nodes addr :=
    if addr = requesterAddr.text then some ⟨[], ⟨requesterAddr, "publisher key"⟩, 0⟩
    else if addr = signerAddr.text then some ⟨[], ⟨signerAddr, "signer key"⟩, 0⟩
    else none
  signed := []

def quotedEvents : List Event :=
  [.refresh requesterAddr.text [("BTCUSD", .coinPair quotedRunner)] 1700000000,
    .refresh signerAddr.text [("BTCUSD", .coinPair quotedRunner)] 1700000000] ++ exchangeEvents

/-- The world once the pairs are served. -/
def quotedWorld : World :=
  let served : List (String × Runner) := [("BTCUSD", .coinPair quotedRunner)]
  (quotedStart.update requesterAddr.text ⟨served, ⟨requesterAddr, "publisher key"⟩, 1700000000⟩ []).update signerAddr.text
    ⟨served, ⟨signerAddr, "signer key"⟩, 1700000000⟩ []

private theorem quoted_publishes : (LoopRounds.decision RoundDecisions.publishingRound requesterAddr.text (.coinPair quotedRunner)).1 =
    .ok (.publish [publishingOracle, signingOracle] (.price exchangeParams) (some 0)) := by
  apply RoundDecisions.priceOf_eq_some
  decide +kernel

private theorem quoted_run : ∃ final, run (step exchangeLibraries) quotedStart quotedEvents = some final ∧
    final.signed = [⟨signerAddr.text, requestedMessage⟩, ⟨requesterAddr.text, legacyMessage⟩,
      ⟨requesterAddr.text, requestedMessage⟩] := by
  have publisher : Publishes exchangeLibraries quotedWorld requesterAddr.text "BTCUSD" RoundDecisions.publishingRound
      ⟨[("BTCUSD", .coinPair quotedRunner)], ⟨requesterAddr, "publisher key"⟩, 1700000000⟩ [publishingOracle, signingOracle]
      exchangeParams := ⟨rfl, .coinPair quotedRunner, some 0, rfl, quoted_publishes⟩
  obtain ⟨final, ran, signed⟩ := exchange_signs rfl publisher rfl rfl (by decide +kernel)
  exact ⟨final, run_append_eq_some.mpr ⟨quotedWorld, rfl, ran⟩, signed⟩

private theorem quoted_nodes {addr : String} {node : Node} (found : quotedStart.nodes addr = some node) :
    node.account.addr.text = addr ∧ node.cpMap = [] := by
  simp only [quotedStart] at found
  split at found
  next here =>
    obtain rfl := Option.some.inj found
    exact ⟨here.symm, rfl⟩
  next =>
    split at found
    next here =>
      obtain rfl := Option.some.inj found
      exact ⟨here.symm, rfl⟩
    next => cases found

private theorem quoted_served : Served "BTCUSD" (.coinPair quotedRunner) where
  fits := (exchange_served RoundDecisions.publishedPrice requesterAddr "publisher key").runners _ List.mem_cons_self |>.fits
  pair := rfl
  kind := by decide

private theorem quoted_asked : Asked (fun _ => "") [quotedRound] emptyFeed quotedRunner where
  fresh := rfl
  weighted := by
    intro round member answers answered answer asked
    obtain rfl := List.mem_singleton.mp member
    obtain rfl := Except.ok.inj answered
    obtain rfl := List.mem_singleton.mp asked
    norm_num [quoting, PyDecimal.number]
  prices := rfl

theorem certificate_quoted_exchange :
    ∃ vouchers : List FullOracleRoundInfo, vouchers.Sublist [publishingOracle, signingOracle] ∧
      (vouchers.map (·.addr.number)).Nodup ∧
      2 ≤ vouchers.length + [publishingOracle, signingOracle].countP (· == publishingOracle) ∧
      ∀ oracle ∈ vouchers, (oracle == publishingOracle) = false ∧
        Quoted (fun _ => "") ℚ exchangeLibraries quotedStart quotedEvents oracle.addr.text exchangeParams := by
  obtain ⟨final, ran, signed⟩ := quoted_run
  have kept : WellKept quotedStart := by
    intro addr node found
    obtain ⟨own, none⟩ := quoted_nodes found
    exact ⟨own, by simp [none]⟩
  have fed : WellFed (fun _ => "") ℚ quotedStart := by
    intro addr node found
    simp [(quoted_nodes found).2]
  have refreshes : ∀ event ∈ quotedEvents, Refreshes event := by
    simp [quotedEvents, exchangeEvents, Refreshes, quoted_served]
  have feeds : ∀ event ∈ quotedEvents, Feeds (fun _ => "") ℚ event := by
    have fedRunner : Fed (fun _ => "") ℚ (.coinPair quotedRunner) := ⟨[quotedRound], emptyFeed, quoted_asked⟩
    simp [quotedEvents, exchangeEvents, Feeds, fedRunner]
  exact certificate_quoted rfl kept fed refreshes feeds ran exchange_expiring exchange_certificate
    fun signer _ => exchange_authentic signed signer.signature

end Exchange

end OmocNode.Proofs.QuotedPublications
