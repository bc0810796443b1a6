import OmocNode.Proofs.SyncedQuorum
import OmocNode.Proofs.TurnRuns

/-! What becomes of a publication that nobody makes. A node keeps the block at which
it saw the price change, and from a block that depends on it every oracle of the
round may publish. -/

namespace OmocNode.Proofs.FallbackTurns
open App CoinPairLoop OracleNetwork Runs Outcomes OracleTurn SelectNext FallbackSequence TurnWindows Countdown StateFrame
open PriceOracleTurn TurnRuns RoundDecisions LoopRounds
open HonestNodes (lookup_mem decisionPrice_runner isOracleTurn_runner)

section Late
variable {conf : OracleTurnConfiguration} {vi : OracleBlockchainInfo} {turn after : PriceOracleTurn} {oracleAddr : String}
  {order : List String} {price : PriceWithTimestamp}

/-- How many blocks it takes from a price change until the last oracle is let in. -/
def wholeWait (conf : OracleTurnConfiguration) (selected : Nat) : Int :=
  conf.pricePublishBlocks + ((getFallbackSequence conf.enteringFallbacksAmounts selected).length - 1)

/-- The price of this publication changed so long ago that all oracles have been let in. -/
structure AllIn (conf : OracleTurnConfiguration) (vi : OracleBlockchainInfo) (turn : PriceOracleTurn) : Prop where
  publication : 0 ≤ vi.lastPubBlock
  block : 0 ≤ vi.blockNum
  period : conf.triggerValidPublicationBlocks ≤ vi.validPricePeriodInBlocks
  covers : configuredEnd conf.enteringFallbacksAmounts ≠ vi.selectedOracles.length - 1
  latched : Latched vi turn.priceChangeBlock turn
  late : turn.priceChangeBlock + wholeWait conf vi.selectedOracles.length ≤ vi.blockNum

private theorem mem_order_of_inRound (selected : selectNextAddresses vi.lastPubBlockHash vi.selectedOracles = .ok order)
    (inRound : isOracleSelectedInRound vi.selectedOracles oracleAddr = true) :
    oracleAddr ∈ order ∧ order.length = vi.selectedOracles.length := by
  have same := Selection.selectNextAddresses_perm selected
  refine ⟨?_, by rw [same.length_eq, List.length_map]⟩
  simp only [isOracleSelectedInRound, Bool.and_eq_true, List.any_eq_true] at inRound
  obtain ⟨⟨_, oracle, listed, own⟩, _⟩ := inRound
  exact same.mem_iff.mpr (List.mem_map.mpr ⟨oracle, listed, beq_iff_eq.mp own⟩)

private theorem admits_of_late (selected : selectNextAddresses vi.lastPubBlockHash vi.selectedOracles = .ok order)
    (inRound : isOracleSelectedInRound vi.selectedOracles oracleAddr = true)
    (covers : configuredEnd conf.enteringFallbacksAmounts ≠ vi.selectedOracles.length - 1) {blocks : Int}
    (late : ((getFallbackSequence conf.enteringFallbacksAmounts vi.selectedOracles.length).length : Int) - 1 ≤ blocks) :
    Admits conf vi order false oracleAddr blocks := by
  obtain ⟨member, length⟩ := mem_order_of_inRound selected inRound
  have some : 1 ≤ vi.selectedOracles.length := by
    rw [← length]
    exact List.length_pos_of_mem member
  have filled := getFallbackSequence_ne_nil conf.enteringFallbacksAmounts vi.selectedOracles.length
  have whole := (last_width_iff conf.enteringFallbacksAmounts vi.selectedOracles.length some).mpr covers
  simp only [Admits, admitted, Bool.false_eq_true, if_false, width_of_last_le filled late]
  rwa [List.take_of_length_le (by rw [length]; exact whole)]

/-- Once all are in, the check grants every oracle of the round a turn. -/
theorem grants_of_allIn (allIn : AllIn conf vi turn) (selected : selectNextAddresses vi.lastPubBlockHash vi.selectedOracles = .ok order)
    (inRound : isOracleSelectedInRound vi.selectedOracles oracleAddr = true) (price : PriceWithTimestamp) :
    ∃ verdict, isOracleTurnWithMsg conf vi oracleAddr order (some price) false turn = .ok verdict (settledTurn turn) ∧
      verdict.isTurn = true := by
  obtain ⟨member, _⟩ := mem_order_of_inRound selected inRound
  have checked := priceChangedBlocks_latched conf price allIn.publication allIn.block allIn.latched.publication allIn.latched.recorded
  have late := allIn.late
  refine ⟨_, isOracleTurnWithMsg_eq (List.ne_nil_of_mem member) inRound allIn.period checked false, ?_⟩
  unfold wholeWait at late
  have some := List.length_pos_iff.mpr (getFallbackSequence_ne_nil conf.enteringFallbacksAmounts vi.selectedOracles.length)
  apply verdict_isTurn.mpr
  refine .inr ⟨_, rfl, by omega, ?_⟩
  apply admits_of_late selected inRound allIn.covers
  omega

private theorem isOracleTurn_of_allIn (allIn : AllIn conf vi turn)
    (selected : selectNextAddresses vi.lastPubBlockHash vi.selectedOracles = .ok order)
    (inRound : isOracleSelectedInRound vi.selectedOracles oracleAddr = true) (price : PriceWithTimestamp) :
    PriceOracleTurn.isOracleTurn false conf vi oracleAddr (some price) turn = .ok (true, order) (settledTurn turn) := by
  obtain ⟨verdict, answered, isTurn⟩ := grants_of_allIn allIn selected inRound price
  simp only [PriceOracleTurn.isOracleTurn, run_bind, selected, run_lift_ok, answered, run_pure, isTurn]

private theorem validateTurn_of_allIn (allIn : AllIn conf vi turn)
    (selected : selectNextAddresses vi.lastPubBlockHash vi.selectedOracles = .ok order)
    (inRound : isOracleSelectedInRound vi.selectedOracles oracleAddr = true) (price : PriceWithTimestamp) :
    ∃ verdict after, PriceOracleTurn.validateTurn conf vi oracleAddr (some price) turn = .ok verdict after ∧ verdict.isTurn = true := by
  obtain ⟨first, rest, rfl⟩ := List.exists_cons_of_ne_nil (List.ne_nil_of_mem (mem_order_of_inRound selected inRound).1)
  rw [validateTurn_eq selected]
  split
  · exact ⟨_, _, rfl, rfl⟩
  · obtain ⟨verdict, answered, isTurn⟩ := grants_of_allIn allIn selected inRound price
    exact ⟨verdict, _, answered, isTurn⟩

end Late

section Keeping
variable {conf : OracleTurnConfiguration} {vi : OracleBlockchainInfo} {oracleAddr : String} {block : Int}

private theorem latched_lift {α : Type} (outcome : Except PyError α) : Preserves (Latched vi block) (PriceOracleTurn.lift outcome) := by
  cases outcome with
  | ok value => exact .pure value
  | error failure => exact .throw failure

private theorem latched_isOracleTurnWithMsg (addresses : List String) (exchangePrice : Option PriceWithTimestamp) (onlyChosen : Bool) :
    Preserves (Latched vi block) (isOracleTurnWithMsg conf vi oracleAddr addresses exchangePrice onlyChosen) := by
  cases exchangePrice with
  | none => exact .pure _
  | some price =>
    intro turn latched
    exact @evaluate_latched conf vi addresses block ⟨vi.blockNum, price, oracleAddr, onlyChosen⟩ turn latched

private theorem latched_isOracleTurn (disableFallbacks : Bool) (exchangePrice : Option PriceWithTimestamp) :
    Preserves (Latched vi block) (PriceOracleTurn.isOracleTurn disableFallbacks conf vi oracleAddr exchangePrice) := by
  unfold PriceOracleTurn.isOracleTurn
  refine .bind (latched_lift _) ?_
  intro addresses
  exact .bind (latched_isOracleTurnWithMsg _ _ _) fun _ => .pure _

private theorem latched_validateTurn (exchangePrice : Option PriceWithTimestamp) :
    Preserves (Latched vi block) (PriceOracleTurn.validateTurn conf vi oracleAddr exchangePrice) := by
  unfold PriceOracleTurn.validateTurn
  refine .bind (latched_lift _) ?_
  intro addresses
  refine .bind (latched_lift _) ?_
  intro chosen
  split
  · exact .pure _
  · exact latched_isOracleTurnWithMsg _ _ _

/-- A price runner that has recorded the change of a publication that is still the last. -/
structure Recorded (publication block : Int) (runner : CoinPairRunner) : Prop where
  view : ∀ vi, runner.blockchainInfo = some vi → vi.lastPubBlock = publication
  latched : runner.oracleTurn.priceChangePubBlock = publication
  since : runner.oracleTurn.priceChangeBlock = block
  recorded : 0 ≤ block

variable {publication : Int} {runner : CoinPairRunner}

theorem Recorded.latchedAt (recorded : Recorded publication block runner) (info : runner.blockchainInfo = some vi) :
    Latched vi block runner.oracleTurn :=
  ⟨recorded.latched.trans (recorded.view vi info).symm, recorded.since, recorded.recorded⟩

theorem Recorded.setTurn (recorded : Recorded publication block runner) (info : runner.blockchainInfo = some vi) {turn : PriceOracleTurn}
    (latched : Latched vi block turn) : Recorded publication block { runner with oracleTurn := turn } :=
  ⟨recorded.view, latched.publication.trans (recorded.view vi info), latched.since, latched.recorded⟩

private theorem finalState_ok {α : Type} {computation : TurnM α} {turn after : PriceOracleTurn} {value : α}
    (ran : computation turn = .ok value after) : finalState computation turn = after := by rw [finalState, ran]

private theorem finalState_error {α : Type} {computation : TurnM α} {turn after : PriceOracleTurn} {failure : PyError}
    (ran : computation turn = .error failure after) : finalState computation turn = after := by rw [finalState, ran]

private theorem isOracleTurn_recorded (disableFallbacks : Bool) (time : PyFloat) (recorded : Recorded publication block runner)
    (info : runner.blockchainInfo = some vi) :
    Recorded publication block (runner.isOracleTurn disableFallbacks time vi oracleAddr).1 := by
  have kept : ∀ exchangePrice, Latched vi block (finalState
      (PriceOracleTurn.isOracleTurn disableFallbacks runner.conf.turn vi oracleAddr exchangePrice) runner.oracleTurn) :=
    fun exchangePrice => latched_isOracleTurn disableFallbacks exchangePrice _ (recorded.latchedAt info)
  unfold CoinPairRunner.isOracleTurn
  split
  · exact recorded
  · exact recorded
  next exchangePrice _ =>
    split
    · exact recorded
    · split
      next ran => exact recorded.setTurn info (finalState_ok ran ▸ kept (some exchangePrice))
      next ran => exact recorded.setTurn info (finalState_error ran ▸ kept (some exchangePrice))

theorem Recorded.logged (recorded : Recorded publication block runner) : Recorded publication block runner.logged :=
  ⟨recorded.view, recorded.latched, recorded.since, recorded.recorded⟩

/-- A round that has begun leaves the runner as the question or the log line after it has left it. -/
theorem decision_runner {setting : Setting} {oracleAddr : String}
    (begun : ∃ roundInfo, setting.roundInfo = .ok roundInfo ∧ roundInfo.round ≠ 0) (info : runner.blockchainInfo = some vi) :
    let asked := (runner.isOracleTurn setting.disableFallbacks setting.time vi oracleAddr).1
    (decision setting oracleAddr (.coinPair runner)).2 = .coinPair asked ∨
      (decision setting oracleAddr (.coinPair runner)).2 = .coinPair asked.logged := by
  obtain ⟨roundInfo, known, counted⟩ := begun
  have info : blockchainInfo (.coinPair runner) = some vi := info
  have decided : (decision setting oracleAddr (.coinPair runner)).2 = .coinPair (decisionPrice setting oracleAddr runner vi).2 := by
    simp only [decision, known, info, if_neg counted]
    rfl
  rw [decided]
  exact (decisionPrice_runner setting oracleAddr runner vi).imp (congrArg _) (congrArg _)

/-- A round leaves the record as it is. -/
theorem decision_recorded (setting : Setting) (oracleAddr : String) (recorded : Recorded publication block runner) :
    ∃ after, (decision setting oracleAddr (.coinPair runner)).2 = .coinPair after ∧ Recorded publication block after := by
  unfold decision
  cases setting.roundInfo with
  | error err => exact ⟨runner, rfl, recorded⟩
  | ok roundInfo =>
    cases info : runner.blockchainInfo with
    | none => exact ⟨runner, by simp only [blockchainInfo, info], recorded⟩
    | some vi =>
      simp only [blockchainInfo, info]
      split
      · exact ⟨runner, rfl, recorded⟩
      · refine ⟨(decisionPrice setting oracleAddr runner vi).2, rfl, ?_⟩
        have asked := @isOracleTurn_recorded _ oracleAddr _ _ _ setting.disableFallbacks setting.time recorded info
        rcases decisionPrice_runner setting oracleAddr runner vi with same | logged
        · exact same ▸ asked
        · exact logged ▸ asked.logged

/-- So does a request, whether it is signed or not. -/
theorem validateAndSign_recorded {v : PriceRequestValidation} (eth : EthAccount) (account : BlockchainAccount) (now : Int)
    (signature : String) (same : v.blockchainInfo = runner.blockchainInfo) (recorded : Recorded publication block runner) :
    Recorded publication block
      { runner with oracleTurn := (v.validateAndSign eth account now signature runner.oracleTurn).2 } := by
  unfold PriceRequestValidation.validateAndSign
  split
  · exact recorded
  dsimp only
  unfold PriceRequestValidation.validateTurn
  cases info : v.blockchainInfo with
  | none => exact recorded
  | some vi =>
    rw [same] at info
    have kept : Latched vi block (finalState
        (PriceOracleTurn.validateTurn v.turnConfiguration vi v.params.oracleAddr v.exchangePrice) runner.oracleTurn) :=
      latched_validateTurn _ _ (recorded.latchedAt info)
    dsimp only
    split
    next ran => exact recorded.setTurn info (finalState_ok ran ▸ kept)
    next ran => exact recorded.setTurn info (finalState_error ran ▸ kept)

end Keeping

section Network
variable {libraries : Libraries} {addr name : String} {publication block : Int} {node : Node} {world start next : World}
  {event : Event} {events : List Event}

private theorem lookup_map {change : String × Runner → String × Runner} (keys : ∀ entry, (change entry).1 = entry.1)
    (cpMap : List (String × Runner)) :
    (cpMap.map change).lookup name = (cpMap.lookup name).map fun runner => (change (name, runner)).2 := by
  induction cpMap with
  | nil => rfl
  | cons entry cpMap ih =>
    obtain ⟨key, runner⟩ := entry
    have shape : change (key, runner) = (key, (change (key, runner)).2) := Prod.ext (keys (key, runner)) rfl
    rw [List.map_cons, shape, List.lookup_cons, List.lookup_cons]
    cases same : name == key with
    | true => simp [beq_iff_eq.mp same]
    | false => exact ih

/-- The node serves the pair and has recorded the change of the last publication. -/
def Keeps (name : String) (publication block : Int) (node : Node) : Prop :=
  ∃ runner, node.cpMap.lookup name = some (.coinPair runner) ∧ Recorded publication block runner

private theorem keeps_setRunner {runner : CoinPairRunner} {other : String} {changed : Runner} (keeps : Keeps name publication block node)
    (own : other = name → changed = .coinPair runner ∧ Recorded publication block runner) :
    Keeps name publication block (setRunner node other changed) := by
  obtain ⟨before, found, recorded⟩ := keeps
  have looked : (setRunner node other changed).cpMap.lookup name =
      some (if name = other then (name, changed) else (name, .coinPair before)).2 := by
    rw [setRunner, lookup_map (fun entry => by split <;> rfl), found]
    rfl
  by_cases same : name = other
  · obtain ⟨rfl, recorded'⟩ := own same.symm
    rw [if_pos same] at looked
    exact ⟨runner, looked, recorded'⟩
  · rw [if_neg same] at looked
    exact ⟨before, looked, recorded⟩

private theorem keeps_setTurn {runner : CoinPairRunner} {coinPair : CoinPair} {turn : PriceOracleTurn}
    (found : node.cpMap.lookup name = some (.coinPair runner)) (recorded : Recorded publication block runner)
    (own : name = coinPair.cp → Recorded publication block { runner with oracleTurn := turn }) :
    Keeps name publication block (node.setTurn coinPair turn) := by
  have looked : (node.setTurn coinPair turn).cpMap.lookup name =
      some (.coinPair (if name = coinPair.cp then { runner with oracleTurn := turn } else runner)) := by
    rw [Node.setTurn, lookup_map (fun ⟨_, served⟩ => by cases served <;> rfl), found]
    rfl
  refine ⟨_, looked, ?_⟩
  split
  next same => exact own same
  next => exact recorded

private theorem keeps_handle (keeps : Keeps name publication block node) (request : SignRequest) :
    Keeps name publication block (handle libraries node request).2 := by
  have before := keeps
  obtain ⟨runner, found, recorded⟩ := keeps
  unfold handle
  split
  · exact before
  next params _ =>
    simp only [Node.validateAndSign]
    split
    · exact before
    · exact before
    next asked served =>
      cases created : asked.createValidator params with
      | error err => exact before
      | ok v =>
        refine keeps_setTurn found recorded ?_
        intro same
        rw [Node.getRunner, ← same, found] at served
        obtain rfl := Runner.coinPair.inj (Option.some.inj served)
        have info : v.blockchainInfo = runner.blockchainInfo := by
          cases params with
          | task _ => cases created
          | price _ =>
            obtain ⟨own, _, made⟩ := bind_eq_ok_iff.mp created
            cases made
            rfl
        exact validateAndSign_recorded libraries.eth node.account node.now request.signature info recorded

/-- The pair's publication stays the last, and the node's other loops leave the turn's record alone. -/
def Continues (addr name : String) (publication : Int) (world : World) : Event → Prop
  | .refresh other cpMap _ => other = addr → ∀ node runner, world.nodes addr = some node →
      node.cpMap.lookup name = some (.coinPair runner) → ∃ after, cpMap.lookup name = some (.coinPair after) ∧
        (∀ vi, after.blockchainInfo = some vi → vi.lastPubBlock = publication) ∧
        after.oracleTurn.priceChangePubBlock = runner.oracleTurn.priceChangePubBlock ∧
        after.oracleTurn.priceChangeBlock = runner.oracleTurn.priceChangeBlock
  | .request _ _ | .round _ _ _ => True

def KeepsAt (addr name : String) (publication block : Int) (world : World) : Prop :=
  ∃ node, world.nodes addr = some node ∧ Keeps name publication block node

@[simp] theorem update_nodes_self (messages : List String) : (world.update addr node messages).nodes addr = some node :=
  Function.update_self ..

private theorem step_refresh {cpMap : List (String × Runner)} {now : Int} (found : world.nodes addr = some node) :
    step libraries world (.refresh addr cpMap now) = some (world.update addr { node with cpMap, now } []) := by
  simp [step, found]

private theorem step_round {setting : Setting} {runner : Runner} (found : world.nodes addr = some node)
    (served : node.cpMap.lookup name = some runner) : ∃ messages, step libraries world (.round addr name setting) =
      some (world.update addr (setRunner node name (decision setting node.account.addr.text runner).2) messages) := by
  simp only [step, found, Option.bind_eq_bind, Option.bind_some, served]
  exact ⟨_, rfl⟩

private theorem keepsAt_update {other : String} {after : Node} (keeps : KeepsAt addr name publication block world)
    (own : other = addr → Keeps name publication block after) (messages : List String) :
    KeepsAt addr name publication block (world.update other after messages) := by
  obtain ⟨node, found, before⟩ := keeps
  by_cases same : addr = other
  · exact ⟨after, by rw [same, update_nodes_self], own same.symm⟩
  · refine ⟨node, ?_, before⟩
    simp only [World.update, Function.update_of_ne same, found]

/-- Whatever reaches the nodes, the record of a change stays while its publication is the last. -/
theorem step_keepsAt (world : World) (event : Event) (next : World) (keeps : KeepsAt addr name publication block world)
    (continues : Continues addr name publication world event) (stepped : step libraries world event = some next) :
    KeepsAt addr name publication block next := by
  obtain ⟨node, here, before⟩ := id keeps
  cases event with
  | refresh other cpMap now =>
    obtain ⟨found, there, same⟩ := Option.bind_eq_some_iff.mp stepped
    obtain rfl := Option.some.inj same
    apply keepsAt_update keeps
    intro own
    obtain ⟨runner, looked, recorded⟩ := before
    obtain ⟨after, served, view, publication, since⟩ := continues own node runner here looked
    exact ⟨after, served, view, publication.trans recorded.latched, since.trans recorded.since, recorded.recorded⟩
  | request other request =>
    obtain ⟨found, there, same⟩ := Option.bind_eq_some_iff.mp stepped
    obtain rfl := Option.some.inj same
    apply keepsAt_update keeps
    rintro rfl
    obtain rfl := Option.some.inj (here.symm.trans there)
    exact keeps_handle before request
  | round other coinPair setting =>
    obtain ⟨found, there, rest⟩ := Option.bind_eq_some_iff.mp stepped
    obtain ⟨runner, served, same⟩ := Option.bind_eq_some_iff.mp rest
    obtain rfl := Option.some.inj same
    apply keepsAt_update keeps
    rintro rfl
    obtain rfl := Option.some.inj (here.symm.trans there)
    obtain ⟨own, looked, recorded⟩ := id before
    obtain ⟨after, decided, recorded'⟩ := decision_recorded setting node.account.addr.text recorded
    apply keeps_setRunner before
    rintro rfl
    obtain rfl := Option.some.inj (looked.symm.trans served)
    exact ⟨decided, recorded'⟩

/-- What a round needs besides a turn: the contract's round has begun, the oracle takes
part in it, fallbacks are allowed, and there is a price that can be published. -/
structure MayPublish (setting : Setting) (runner : CoinPairRunner) (vi : OracleBlockchainInfo) (own : PriceWithTimestamp)
    (oracleAddr : String) : Prop where
  begun : ∃ roundInfo, setting.roundInfo = .ok roundInfo ∧ roundInfo.round ≠ 0
  fallbacks : setting.disableFallbacks = false
  info : runner.blockchainInfo = some vi
  few : vi.selectedOracles.length ≤ 32
  inRound : isOracleSelectedInRound vi.selectedOracles oracleAddr = true
  price : runner.lastPrice setting.time true = .ok (some own)
  dated : own.tsUtc.nonpositive = false
  logged : CoinPairRunner.getPrePublishLog own = .ok ()

private theorem decision_of_allIn {setting : Setting} {runner : CoinPairRunner} {vi : OracleBlockchainInfo} {own : PriceWithTimestamp}
    {oracleAddr : String} (may : MayPublish setting runner vi own oracleAddr) (allIn : AllIn runner.conf.turn vi runner.oracleTurn) :
    ∃ place, (decision setting oracleAddr (.coinPair runner)).1 = .ok (.publish vi.selectedOracles
      (.price (runner.preparePublishParams setting.now own vi oracleAddr)) place) := by
  obtain ⟨roundInfo, known, begun⟩ := may.begun
  obtain ⟨order, selected⟩ := Selection.selectNextAddresses_ok vi.lastPubBlockHash may.few
  refine ⟨order.idxOf? oracleAddr, ?_⟩
  have turned := isOracleTurn_of_allIn allIn selected may.inRound own
  have asked : runner.isOracleTurn setting.disableFallbacks setting.time vi oracleAddr =
      ({ runner with oracleTurn := settledTurn runner.oracleTurn }, some own, .ok (true, some (true, order))) := by
    simp only [CoinPairRunner.isOracleTurn, may.price, may.dated, Bool.false_eq_true, if_false, may.fallbacks, turned]
  have info : blockchainInfo (.coinPair runner) = some vi := may.info
  simp only [decision, known, info, if_neg begun, Prod.map_fst, decisionPrice, asked, may.logged]
  rfl

/-- A round that finds the price changed, and has no record from a later block. -/
structure SeesChange (runner : CoinPairRunner) (vi : OracleBlockchainInfo) (own : PriceWithTimestamp) : Prop where
  publication : 0 ≤ vi.lastPubBlock
  block : 0 ≤ vi.blockNum
  period : runner.conf.turn.triggerValidPublicationBlocks ≤ vi.validPricePeriodInBlocks
  changed : ∃ delta, Helpers.priceDelta vi.blockchainPrice own.price = .ok delta ∧
    delta.lt (.finite (deltaInForce runner.conf.turn.priceDeltaPct runner.oracleTurn.signal)) = false
  earlier : runner.oracleTurn.priceChangePubBlock = vi.lastPubBlock → runner.oracleTurn.priceChangeBlock ≤ vi.blockNum

private theorem observed_latched {runner : CoinPairRunner} {vi : OracleBlockchainInfo} {own : PriceWithTimestamp} {delta : PyFloat}
    (sees : SeesChange runner vi own)
    (changed : delta.lt (.finite (deltaInForce runner.conf.turn.priceDeltaPct runner.oracleTurn.signal)) = false) :
    ∃ block ≤ vi.blockNum, Latched vi block (observed runner.conf.turn vi delta runner.oracleTurn).2 := by
  unfold observed
  split
  next recorded => exact ⟨_, sees.earlier recorded.1, ⟨recorded.1, rfl, recorded.2⟩⟩
  next =>
    rw [if_neg (Bool.eq_false_iff.mp changed)]
    exact ⟨vi.blockNum, le_refl _, ⟨rfl, rfl, sees.block⟩⟩

private theorem isOracleTurn_of_change {setting : Setting} {runner : CoinPairRunner} {vi : OracleBlockchainInfo} {own : PriceWithTimestamp}
    {oracleAddr : String} (may : MayPublish setting runner vi own oracleAddr) (sees : SeesChange runner vi own) :
    ∃ block ≤ vi.blockNum, Recorded vi.lastPubBlock block
      (runner.isOracleTurn setting.disableFallbacks setting.time vi oracleAddr).1 := by
  obtain ⟨order, selected⟩ := Selection.selectNextAddresses_ok vi.lastPubBlockHash may.few
  obtain ⟨delta, measured, changed⟩ := sees.changed
  obtain ⟨block, before, latched⟩ := observed_latched sees changed
  have nonempty := List.ne_nil_of_mem (mem_order_of_inRound selected may.inRound).1
  have checked := priceChangedBlocks_eq runner.conf.turn sees.publication sees.block measured runner.oracleTurn
  have answered := isOracleTurnWithMsg_eq nonempty may.inRound sees.period checked setting.disableFallbacks
  have kept : Latched vi block (settledTurn (observed runner.conf.turn vi delta runner.oracleTurn).2) :=
    ⟨latched.publication, latched.since, latched.recorded⟩
  refine ⟨block, before, ?_⟩
  simp only [CoinPairRunner.isOracleTurn, may.price, may.dated, Bool.false_eq_true, if_false, PriceOracleTurn.isOracleTurn,
    run_bind, selected, run_lift_ok, answered, run_pure]
  refine ⟨?_, kept.publication, kept.since, kept.recorded⟩
  intro other same
  obtain rfl := Option.some.inj (may.info.symm.trans same)
  rfl

/-- From the round on that has seen it, the change is on record. -/
theorem keepsAt_of_change {setting : Setting} {runner : CoinPairRunner} {vi : OracleBlockchainInfo} {own : PriceWithTimestamp}
    (found : start.nodes addr = some node) (served : node.cpMap.lookup name = some (.coinPair runner))
    (may : MayPublish setting runner vi own node.account.addr.text) (sees : SeesChange runner vi own)
    (stepped : step libraries start (.round addr name setting) = some next) :
    ∃ block ≤ vi.blockNum, KeepsAt addr name vi.lastPubBlock block next := by
  obtain ⟨block, before, recorded⟩ := isOracleTurn_of_change may sees
  obtain ⟨messages, stepped'⟩ := @step_round libraries addr name node start setting _ found served
  obtain rfl := Option.some.inj (stepped'.symm.trans stepped)
  have kept : Keeps name vi.lastPubBlock block
      (setRunner node name (decision setting node.account.addr.text (.coinPair runner)).2) := by
    have looked : ∀ after, (setRunner node name after).cpMap.lookup name = some after := by
      intro after
      rw [setRunner, lookup_map (fun entry => by split <;> rfl), served]
      simp
    rw [Keeps, looked]
    rcases decision_runner may.begun may.info with same | logged
    · exact ⟨_, congrArg some same, recorded⟩
    · exact ⟨_, congrArg some logged, recorded.logged⟩
  exact ⟨block, before, _, update_nodes_self messages, kept⟩

/-- A node that finds the price changed publishes in any round after the whole wait
while nothing is published, whatever the prices do meanwhile and whatever it is asked. -/
theorem fallback_takes_over {first setting : Setting} {before : Node} {seen runner : CoinPairRunner} {noticed vi : OracleBlockchainInfo}
    {price own : PriceWithTimestamp} (here : start.nodes addr = some before)
    (serves : before.cpMap.lookup name = some (.coinPair seen)) (might : MayPublish first seen noticed price before.account.addr.text)
    (sees : SeesChange seen noticed price)
    (ran : run (step libraries) start (.round addr name first :: events) = some world)
    (continues : Along (step libraries) (Continues addr name noticed.lastPubBlock) start (.round addr name first :: events))
    (found : world.nodes addr = some node) (served : node.cpMap.lookup name = some (.coinPair runner))
    (may : MayPublish setting runner vi own node.account.addr.text) (positive : 0 ≤ vi.blockNum)
    (period : runner.conf.turn.triggerValidPublicationBlocks ≤ vi.validPricePeriodInBlocks)
    (covers : configuredEnd runner.conf.turn.enteringFallbacksAmounts ≠ vi.selectedOracles.length - 1)
    (late : noticed.blockNum + wholeWait runner.conf.turn vi.selectedOracles.length ≤ vi.blockNum) :
    ∃ place, (decision setting node.account.addr.text (.coinPair runner)).1 = .ok (.publish vi.selectedOracles
      (.price (runner.preparePublishParams setting.now own vi node.account.addr.text)) place) := by
  obtain ⟨next, stepped, rest⟩ := run_cons_eq_some.mp ran
  obtain ⟨block, noLater, keeps⟩ := keepsAt_of_change here serves might sees stepped
  obtain ⟨node', found', runner', served', recorded⟩ := run_invariant step_keepsAt keeps (continues.2 next stepped) rest
  obtain rfl := Option.some.inj (found.symm.trans found')
  obtain rfl := Runner.coinPair.inj (Option.some.inj (served.symm.trans served'))
  have latched := recorded.latchedAt may.info
  apply decision_of_allIn may
  refine ⟨(recorded.view vi may.info).symm ▸ sees.publication, positive, period, covers, ?_, ?_⟩
  · rw [latched.since]
    exact latched
  · rw [latched.since]
    omega

end Network

section Publication
open GatherSignatures FaultyPeers SignedMessages HonestNodes SyncedQuorum
variable {libraries : Libraries} {params : PublishPriceParams} {message : String} {strFloat : PyFloat → String}
  {detail : Option Response → Json} {network : Network} {mySignature : Bytes} {oracles completed synced : List FullOracleRoundInfo}

/-- The peer lets the requester in, as all of its round. -/
def LetsAllIn (requester : String) (runner : CoinPairRunner) (vi : OracleBlockchainInfo) (_ : PriceWithTimestamp) : Prop :=
  AllIn runner.conf.turn vi runner.oracleTurn ∧ vi.selectedOracles.length ≤ 32 ∧
    isOracleSelectedInRound vi.selectedOracles requester = true

private theorem grants_of_letsAllIn {requester : String} {runner : CoinPairRunner} {vi : OracleBlockchainInfo} {own : PriceWithTimestamp}
    (lets : LetsAllIn requester runner vi own) : Grants requester runner vi own := by
  obtain ⟨allIn, few, inRound⟩ := lets
  obtain ⟨order, selected⟩ := Selection.selectNextAddresses_ok vi.lastPubBlockHash few
  exact validateTurn_of_allIn allIn selected inRound own

/-- Whichever oracle publishes after the whole wait gets its transaction if for half of its peers
the wait is over too, whatever the others answer, unless one of them has neither endpoint. -/
theorem late_round_publishes {name : String} {setting : Setting} {runner : Runner} {account : BlockchainAccount}
    {conf : OracleConfiguration} {debug : Bool} {now : Int} {legacy : LegacyForm} {place : Option Nat}
    (served : Served name runner)
    (decided : (decision setting account.addr.text runner).1 = .ok (.publish oracles (.price params) place))
    (admitted : Admitted (priceFields params)) (priced : params.price ≠ 0)
    (roundTrip : libraries.float (strFloat params.priceTsUtc) = .ok params.priceTsUtc) (hexRoundTrip : libraries.eth.hexBytes.RoundTrips)
    (prepared : Prepared libraries.eth account params message mySignature legacy)
    (arrived : completed.Subperm (peers oracles params.oracleAddr))
    (endpoints : ∀ peer ∈ peers oracles params.oracleAddr, lacksEndpoint (network peer params.getPost) = true →
      lacksEndpoint (network peer params.asLegacy.getPost) = false)
    (among : synced.Subperm completed) (half : oracles.length / 2 ≤ synced.length)
    (answers : ∀ peer ∈ synced, Answers libraries strFloat detail network params message mySignature (LetsAllIn params.oracleAddr) peer)
    (inTime : ∀ expiration ∈ params.expiration, conf.priceSignatureMinValiditySeconds ≤ expiration - now) :
    ∃ call, publish libraries.eth account conf debug network completed now oracles (.price params) = .ok (.transaction call) ∧
      call.value = params.price ∧ call.lastPubBlock = params.lastPubBlock ∧ call.expiration = params.expiration ∧
      oracles.length / 2 + 1 ≤ call.v.length := by
  obtain ⟨expiring, _, publisher⟩ := expiring_of_decision served decided admitted
  have dated : params.priceTsUtc.nonpositive = false := by
    obtain ⟨_, ⟨price, vi, own, order, after, rfl, here, _⟩ | ⟨tasks, vi, order, since, rfl, here, _⟩⟩ := decision_publish decided
    · rw [PublishParams.price.inj here.params]
      exact here.dated
    · cases here.params
  apply transaction_of_answers expiring ⟨priced, dated⟩ roundTrip hexRoundTrip prepared publisher arrived endpoints among half answers
    ?_ inTime
  exact fun _ _ _ lets => grants_of_letsAllIn lets

end Publication

section Exchange
open HonestQuorum SyncedQuorum GatherSignatures FaultyPeers RequestChecks SignatureRequests

/-- The oracle that is second in the order, when it sees the price change and after the whole wait. -/
def fallbackStart : World where
  nodes addr := if addr = signerAddr.text then some syncedNode else none
  signed := []

def laterView : OracleBlockchainInfo := { sharedView with blockNum := 506 }

def laterRunner (turn : PriceOracleTurn) : CoinPairRunner :=
  { sharedPriceRunner syncedPrice with blockchainInfo := some laterView, oracleTurn := turn }

private theorem shared_may (view : OracleBlockchainInfo) (turn : PriceOracleTurn)
    (same : view.selectedOracles = sharedView.selectedOracles) :
    MayPublish publishingRound { sharedPriceRunner syncedPrice with blockchainInfo := some view, oracleTurn := turn } view syncedPrice
      signerAddr.text where
  begun := ⟨_, rfl, by decide⟩
  fallbacks := rfl
  info := rfl
  few := by rw [same]; decide
  inRound := by rw [same]; decide
  price := rfl
  dated := by decide
  logged := by decide +kernel

private theorem shared_sees : SeesChange (sharedPriceRunner syncedPrice) sharedView syncedPrice where
  publication := by decide
  block := by decide
  period := by decide
  changed := ⟨.finite (2501999792983609 / 2251799813685248), by decide +kernel, by decide +kernel⟩
  earlier := by decide

theorem fallback_takes_over_second : ∃ turn place,
    (decision publishingRound signerAddr.text (.coinPair (laterRunner turn))).1 = .ok (.publish [publishingOracle, signingOracle]
      (.price ((laterRunner turn).preparePublishParams publishingRound.now syncedPrice laterView signerAddr.text)) place) := by
  have served : syncedNode.cpMap.lookup "BTCUSD" = some (.coinPair (sharedPriceRunner syncedPrice)) := rfl
  have here : fallbackStart.nodes signerAddr.text = some syncedNode := by simp only [fallbackStart, if_true]
  have may : ∀ turn, MayPublish publishingRound { sharedPriceRunner syncedPrice with oracleTurn := turn } sharedView syncedPrice
      signerAddr.text := fun turn => shared_may sharedView turn rfl
  obtain ⟨turn, left⟩ : ∃ turn, (decision publishingRound signerAddr.text (.coinPair (sharedPriceRunner syncedPrice))).2 =
      .coinPair { sharedPriceRunner syncedPrice with oracleTurn := turn } := by
    obtain ⟨turn, asked⟩ := isOracleTurn_runner publishingRound.disableFallbacks publishingRound.time sharedView signerAddr.text
      (sharedPriceRunner syncedPrice)
    rcases @decision_runner sharedView (sharedPriceRunner syncedPrice) publishingRound signerAddr.text ⟨_, rfl, by decide⟩ rfl
      with same | logged
    · exact ⟨turn, same.trans (by rw [asked])⟩
    · exact ⟨settledTurn turn, logged.trans (by rw [asked, RoundDecisions.coinPair_logged])⟩
  let noticed : Node := setRunner syncedNode "BTCUSD" (.coinPair { sharedPriceRunner syncedPrice with oracleTurn := turn })
  obtain ⟨messages, stepped⟩ := @step_round syncedLibraries signerAddr.text "BTCUSD" syncedNode fallbackStart publishingRound _ here served
  rw [show syncedNode.account.addr.text = signerAddr.text from rfl, left] at stepped
  have there := @update_nodes_self signerAddr.text noticed fallbackStart messages
  let later : List (String × Runner) := [("BTCUSD", .coinPair (laterRunner turn))]
  have ran : run (step syncedLibraries) fallbackStart [.round signerAddr.text "BTCUSD" publishingRound,
      .refresh signerAddr.text later 1700000100] = some ((fallbackStart.update signerAddr.text noticed messages).update
        signerAddr.text { noticed with cpMap := later, now := 1700000100 } []) := by
    exact run_cons_eq_some.mpr ⟨_, stepped, run_cons_eq_some.mpr ⟨_, step_refresh there, rfl⟩⟩
  have continues : Along (step syncedLibraries) (Continues signerAddr.text "BTCUSD" sharedView.lastPubBlock) fallbackStart
      [.round signerAddr.text "BTCUSD" publishingRound, .refresh signerAddr.text later 1700000100] := by
    refine ⟨trivial, fun next same => ⟨?_, fun _ _ => trivial⟩⟩
    obtain rfl := Option.some.inj (stepped.symm.trans same)
    intro _ node runner found looked
    obtain rfl := Option.some.inj (there.symm.trans found)
    obtain rfl : { sharedPriceRunner syncedPrice with oracleTurn := turn } = runner := Runner.coinPair.inj (Option.some.inj looked)
    refine ⟨laterRunner turn, rfl, ?_, rfl, rfl⟩
    intro vi known
    obtain rfl := Option.some.inj known
    rfl
  have found := @update_nodes_self signerAddr.text { noticed with cpMap := later, now := 1700000100 }
    (fallbackStart.update signerAddr.text noticed messages) []
  have period : sharedConfiguration.turn.triggerValidPublicationBlocks ≤ laterView.validPricePeriodInBlocks := by decide
  have covers : configuredEnd sharedConfiguration.turn.enteringFallbacksAmounts ≠ laterView.selectedOracles.length - 1 := by decide
  have late : sharedView.blockNum + wholeWait sharedConfiguration.turn laterView.selectedOracles.length ≤ laterView.blockNum := by
    decide
  obtain ⟨place, decided⟩ := @fallback_takes_over syncedLibraries signerAddr.text "BTCUSD" _ _ fallbackStart _ publishingRound
    publishingRound syncedNode (sharedPriceRunner syncedPrice) (laterRunner turn) sharedView laterView syncedPrice syncedPrice here served
    (may (PriceOracleTurn.init ⟨"BTCUSD"⟩ .disabled)) shared_sees ran continues found rfl (shared_may laterView turn rfl) (by decide)
    period covers late
  exact ⟨turn, place, decided⟩

def recordedTurn : PriceOracleTurn := ⟨⟨"BTCUSD"⟩, .disabled, 500, 123⟩

def lateNode : Node := { syncedNode with cpMap := [("BTCUSD", .coinPair (laterRunner recordedTurn))] }

private theorem synced_lateNode : Synced lateNode (laterRunner recordedTurn) laterView := ⟨rfl, rfl, rfl, rfl, rfl, rfl, rfl⟩

theorem late_round_publishes_exchange : PublishesOver (networkOf lateNode) := by
  have endpoints : ∀ peer ∈ peers [publishingOracle, signingOracle] exchangeParams.oracleAddr,
      lacksEndpoint (networkOf lateNode peer exchangeParams.getPost) = true →
        lacksEndpoint (networkOf lateNode peer exchangeParams.asLegacy.getPost) = false := by
    decide +kernel
  have allowed : LetsAllIn exchangeParams.oracleAddr (laterRunner recordedTurn) laterView syncedPrice := by
    refine ⟨?_, by decide, by decide⟩
    exact
      { publication := by decide
        block := by decide
        period := by decide
        covers := by decide
        latched := ⟨rfl, rfl, by decide⟩
        late := by decide }
  have answers : ∀ peer ∈ [signingOracle], Answers syncedLibraries timestampText refused (networkOf lateNode) exchangeParams
      requestedMessage requesterSignature (LetsAllIn exchangeParams.oracleAddr) peer := by
    intro peer member
    obtain rfl := List.mem_singleton.mp member
    exact answers_of_synced synced_lateNode allowed
  exact late_round_publishes publisher_served shared_publishes exchange_expiring.admitted (by decide) synced_roundTrip
    synced_hexRoundTrip synced_prepared (List.Perm.subperm (by decide)) endpoints (List.Subperm.refl _) (by decide) answers (by decide)

end Exchange

end OmocNode.Proofs.FallbackTurns
