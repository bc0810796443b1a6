import OmocNode.OracleNetwork
import OmocNode.Proofs.MessageFields
import OmocNode.Proofs.PublishedQuorum
import OmocNode.Proofs.RoundDecisions
import OmocNode.Proofs.SignEndpoints

/-! What a node that runs this program knows when its key signs. It answers a
request only after its checks, and publishes only a price of its own. -/

namespace OmocNode.Proofs.HonestNodes
open App CoinPairLoop OracleNetwork Runs Outcomes RequestChecks SignEndpoints PublishedQuorum SignedMessages MessageFields
open LoopRounds (decision decisionPrice decisionTask)
open RoundDecisions GatherSignatures

section Keeping

def pairOf : Runner → CoinPair
  | .coinPair runner => runner.coinPair
  | .tasks runner => runner.coinPair

def runsTasks : Runner → Bool
  | .coinPair _ => false
  | .tasks _ => true

/-- A runner is kept under the name of its pair, which the contracts keep in 32
bytes and from which its kind is known. -/
structure Served (name : String) (runner : Runner) : Prop where
  fits : PairFits ⟨name⟩
  pair : pairOf runner = ⟨name⟩
  kind : runsTasks runner = (CoinPair.mk name).isTasksRunner

structure Kept (addr : String) (node : Node) : Prop where
  account : node.account.addr.text = addr
  runners : ∀ entry ∈ node.cpMap, Served entry.1 entry.2

def WellKept (world : World) : Prop := ∀ addr node, world.nodes addr = some node → Kept addr node

/-- Whatever the other loops write, they keep the runners as they should be. -/
def Refreshes : Event → Prop
  | .refresh _ cpMap _ => ∀ entry ∈ cpMap, Served entry.1 entry.2
  | .request _ _ | .round _ _ _ => True

theorem Served.congr {name : String} {runner after : Runner} (served : Served name runner) (pair : pairOf after = pairOf runner)
    (kind : runsTasks after = runsTasks runner) : Served name after :=
  ⟨served.fits, pair.trans served.pair, kind.trans served.kind⟩

theorem lookup_mem {cpMap : List (String × Runner)} {name : String} {runner : Runner} (found : cpMap.lookup name = some runner) :
    (name, runner) ∈ cpMap := by
  obtain ⟨front, back, rfl, _⟩ := List.lookup_eq_some_iff.mp found
  exact List.mem_append_right _ List.mem_cons_self

/-- What neither a request nor a round changes of a runner: all but its signal and what it remembers of its turns. -/
def Steady : Runner → Runner → Prop
  | .coinPair before, .coinPair after => ∃ turn, after = { before with oracleTurn := turn }
  | .tasks before, .tasks after => ∃ signal since, after = { before with signal, lastBlockWhenAvailable := since }
  | .coinPair _, .tasks _ | .tasks _, .coinPair _ => False

theorem Steady.refl (runner : Runner) : Steady runner runner := by
  cases runner with
  | coinPair runner => exact ⟨runner.oracleTurn, rfl⟩
  | tasks runner => exact ⟨runner.signal, runner.lastBlockWhenAvailable, rfl⟩

theorem Steady.served {name : String} {before after : Runner} (steady : Steady before after) (served : Served name before) :
    Served name after := by
  cases before <;> cases after
  case coinPair.coinPair =>
    obtain ⟨turn, rfl⟩ := steady
    exact served.congr rfl rfl
  case tasks.tasks =>
    obtain ⟨signal, since, rfl⟩ := steady
    exact served.congr rfl rfl
  all_goals exact steady.elim

/-- The question whose turn it is changes nothing of the runner but its turn. -/
theorem isOracleTurn_runner (disableFallbacks : Bool) (time : PyFloat) (vi : OracleBlockchainInfo) (oracleAddr : String)
    (runner : CoinPairRunner) :
    ∃ turn, (runner.isOracleTurn disableFallbacks time vi oracleAddr).1 = { runner with oracleTurn := turn } := by
  unfold CoinPairRunner.isOracleTurn
  repeat' split
  all_goals exact ⟨_, rfl⟩

/-- A round of a price pair asks whose turn it is, and logs the answer if there is one. -/
theorem decisionPrice_runner (setting : LoopRounds.Setting) (oracleAddr : String) (runner : CoinPairRunner)
    (vi : OracleBlockchainInfo) :
    let asked := (runner.isOracleTurn setting.disableFallbacks setting.time vi oracleAddr).1
    (decisionPrice setting oracleAddr runner vi).2 = asked ∨ (decisionPrice setting oracleAddr runner vi).2 = asked.logged := by
  unfold decisionPrice
  rcases runner.isOracleTurn setting.disableFallbacks setting.time vi oracleAddr with ⟨after, own, answer⟩
  dsimp only
  split
  · exact .inl rfl
  · exact .inr rfl
  · exact .inl rfl

private theorem tasksTurn_runner (disableFallbacks : Bool) (vi : OracleBlockchainInfo) (oracleAddr : String) (runner : TasksRunner) :
    ∃ since, (runner.isOracleTurn disableFallbacks vi oracleAddr).1 = { runner with lastBlockWhenAvailable := since } := by
  unfold TasksRunner.isOracleTurn
  rcases runner.getAvailableTasksState with ⟨available, flags⟩
  cases available <;> exact ⟨_, rfl⟩

private theorem decisionTask_runner (setting : LoopRounds.Setting) (oracleAddr : String) (runner : TasksRunner) (vi : OracleBlockchainInfo) :
    let asked := (runner.isOracleTurn setting.disableFallbacks vi oracleAddr).1
    (decisionTask setting oracleAddr runner vi).2 = asked ∨ (decisionTask setting oracleAddr runner vi).2 = asked.logged := by
  unfold decisionTask
  rcases runner.isOracleTurn setting.disableFallbacks vi oracleAddr with ⟨after, flags, answer⟩
  dsimp only
  split
  · exact .inl rfl
  · exact .inr rfl
  · exact .inl rfl

private theorem decision_steady (setting : LoopRounds.Setting) (oracleAddr : String) (runner : Runner) :
    Steady runner (decision setting oracleAddr runner).2 := by
  unfold decision
  split
  · exact .refl runner
  · exact .refl runner
  split
  · exact .refl runner
  next roundInfo vi _ _ _ =>
    cases runner with
    | coinPair runner =>
      obtain ⟨turn, asked⟩ := isOracleTurn_runner setting.disableFallbacks setting.time vi oracleAddr runner
      rcases decisionPrice_runner setting oracleAddr runner vi with same | logged
      · exact ⟨turn, same.trans asked⟩
      · exact ⟨_, logged.trans (by rw [asked]; rfl)⟩
    | tasks runner =>
      obtain ⟨since, asked⟩ := tasksTurn_runner setting.disableFallbacks vi oracleAddr runner
      rcases decisionTask_runner setting oracleAddr runner vi with same | logged
      · exact ⟨runner.signal, since, same.trans asked⟩
      · exact ⟨_, since, logged.trans (by rw [asked]; rfl)⟩

/-- A node that has the account of another, and under each name a runner that is steady from one it had. -/
structure SteadyNode (before after : Node) : Prop where
  account : after.account = before.account
  runners : ∀ entry ∈ after.cpMap, ∃ runner, (entry.1, runner) ∈ before.cpMap ∧ Steady runner entry.2

theorem SteadyNode.refl (node : Node) : SteadyNode node node := ⟨rfl, fun entry member => ⟨entry.2, member, .refl _⟩⟩

theorem SteadyNode.setRunner {name : String} {node : Node} {runner after : Runner} (served : node.cpMap.lookup name = some runner)
    (steady : Steady runner after) : SteadyNode node (OracleNetwork.setRunner node name after) := by
  refine ⟨rfl, ?_⟩
  intro entry member
  obtain ⟨before, listed, rfl⟩ := List.mem_map.mp member
  split
  next same => exact ⟨runner, same ▸ lookup_mem served, steady⟩
  next => exact ⟨before.2, listed, .refl _⟩

private theorem handle_steady (libraries : Libraries) (node : Node) (request : SignRequest) :
    SteadyNode node (handle libraries node request).2 := by
  have setTurn : ∀ coinPair turn, SteadyNode node (node.setTurn coinPair turn) := by
    intro coinPair turn
    refine ⟨rfl, ?_⟩
    intro entry member
    obtain ⟨⟨name, before⟩, listed, rfl⟩ := List.mem_map.mp member
    refine ⟨before, ?_⟩
    cases before with
    | coinPair before =>
      refine ⟨listed, ?_⟩
      dsimp only
      split
      · exact ⟨turn, rfl⟩
      · exact ⟨before.oracleTurn, rfl⟩
    | tasks before => exact ⟨listed, .refl _⟩
  unfold handle
  split
  · exact .refl node
  next params _ =>
    simp only [Node.validateAndSign]
    split
    · exact .refl node
    · exact .refl node
    next runner _ =>
      cases runner.createValidator params with
      | error err => exact .refl node
      | ok validator => exact setTurn _ _

private theorem update_cases {world : World} {addr other : String} {node after : Node} {messages : List String}
    (found : (world.update addr node messages).nodes other = some after) :
    other = addr ∧ after = node ∨ world.nodes other = some after := by
  simp only [World.update, Function.update_apply] at found
  split at found
  next here => exact .inl ⟨here, (Option.some.inj found).symm⟩
  next => exact .inr found

/-- After an event a node has the runners that other loops have written, or steady ones. -/
theorem step_steady {libraries : Libraries} {world next : World} {event : Event} {addr : String} {after : Node}
    (stepped : step libraries world event = some next) (found : next.nodes addr = some after) :
    ∃ before, world.nodes addr = some before ∧
      (SteadyNode before after ∨ ∃ cpMap now, event = .refresh addr cpMap now ∧ after = { before with cpMap, now }) := by
  cases event with
  | refresh target cpMap now =>
    obtain ⟨node, here, same⟩ := Option.bind_eq_some_iff.mp stepped
    obtain rfl := Option.some.inj same
    rcases update_cases found with ⟨rfl, rfl⟩ | other
    · exact ⟨node, here, .inr ⟨cpMap, now, rfl, rfl⟩⟩
    · exact ⟨after, other, .inl (.refl after)⟩
  | request target request =>
    obtain ⟨node, here, same⟩ := Option.bind_eq_some_iff.mp stepped
    obtain rfl := Option.some.inj same
    rcases update_cases found with ⟨rfl, rfl⟩ | other
    · exact ⟨node, here, .inl (handle_steady libraries node request)⟩
    · exact ⟨after, other, .inl (.refl after)⟩
  | round target coinPair setting =>
    obtain ⟨node, here, rest⟩ := Option.bind_eq_some_iff.mp stepped
    obtain ⟨runner, served, same⟩ := Option.bind_eq_some_iff.mp rest
    obtain rfl := Option.some.inj same
    rcases update_cases found with ⟨rfl, rfl⟩ | other
    · exact ⟨node, here, .inl (.setRunner served (decision_steady setting node.account.addr.text runner))⟩
    · exact ⟨after, other, .inl (.refl after)⟩

/-- Every event leaves every node with runners as they should be. -/
theorem step_wellKept {libraries : Libraries} (world : World) (event : Event) (next : World) (wellKept : WellKept world)
    (refreshes : Refreshes event) (stepped : step libraries world event = some next) : WellKept next := by
  intro addr after found
  obtain ⟨before, here, steady | ⟨cpMap, now, rfl, rfl⟩⟩ := step_steady stepped found
  · have kept := wellKept addr before here
    refine ⟨steady.account ▸ kept.account, ?_⟩
    intro entry member
    obtain ⟨runner, listed, same⟩ := steady.runners entry member
    exact same.served (kept.runners _ listed)
  · exact ⟨(wellKept addr before here).account, refreshes⟩

end Keeping

section History

/-- The event makes the node of an address sign the message. -/
def Signs (libraries : Libraries) (world : World) (entry : Signed) : Event → Prop
  | .refresh _ _ _ => False
  | .request addr request => entry.addr = addr ∧ ∃ node signature, world.nodes addr = some node ∧
      (handle libraries node request).1 = .signed entry.message signature
  | .round addr coinPair setting => entry.addr = addr ∧ ∃ node runner oracles params fallbackIndex, world.nodes addr = some node ∧
      node.cpMap.lookup coinPair = some runner ∧
      (decision setting node.account.addr.text runner).1 = .ok (.publish oracles params fallbackIndex) ∧
      entry.message ∈ published libraries.eth node.account params

private theorem mem_update {world : World} {addr : String} {node : Node} {messages : List String} {entry : Signed}
    (member : entry ∈ (world.update addr node messages).signed) :
    entry ∈ world.signed ∨ entry.addr = addr ∧ entry.message ∈ messages := by
  rcases List.mem_append.mp member with fresh | old
  · obtain ⟨message, listed, rfl⟩ := List.mem_map.mp fresh
    exact .inr ⟨rfl, listed⟩
  · exact .inl old

private theorem mem_step {libraries : Libraries} {world next : World} {event : Event} {entry : Signed}
    (stepped : step libraries world event = some next) (member : entry ∈ next.signed) :
    entry ∈ world.signed ∨ Signs libraries world entry event := by
  cases event with
  | refresh addr cpMap now =>
    obtain ⟨node, _, same⟩ := Option.bind_eq_some_iff.mp stepped
    obtain rfl := Option.some.inj same
    exact .inl member
  | request addr request =>
    obtain ⟨node, found, same⟩ := Option.bind_eq_some_iff.mp stepped
    obtain rfl := Option.some.inj same
    apply (mem_update member).imp id
    intro fresh
    obtain ⟨own, listed⟩ := fresh
    cases response : (handle libraries node request).1 with
    | signed message signature =>
      rw [response] at listed
      obtain rfl := List.mem_singleton.mp listed
      exact ⟨own, node, signature, found, response⟩
    | failedDependency _ | unprocessableEntity _ =>
      rw [response] at listed
      cases listed
  | round addr coinPair setting =>
    obtain ⟨node, found, rest⟩ := Option.bind_eq_some_iff.mp stepped
    obtain ⟨runner, served, same⟩ := Option.bind_eq_some_iff.mp rest
    obtain rfl := Option.some.inj same
    apply (mem_update member).imp id
    intro fresh
    obtain ⟨own, listed⟩ := fresh
    split at listed
    next oracles params fallbackIndex decided => exact ⟨own, node, runner, oracles, params, fallbackIndex, found, served, decided, listed⟩
    all_goals cases listed

/-- What has been signed at the end of a run was signed at the start, or by one of its events. -/
theorem mem_run {libraries : Libraries} {start final : World} {events : List Event} {entry : Signed}
    (ran : run (step libraries) start events = some final) (member : entry ∈ final.signed) : entry ∈ start.signed ∨
      ∃ earlier event later world, events = earlier ++ event :: later ∧ run (step libraries) start earlier = some world ∧
        Signs libraries world entry event := by
  induction events generalizing start with
  | nil =>
    obtain rfl := Option.some.inj ran
    exact .inl member
  | cons event events ih =>
    obtain ⟨next, stepped, rest⟩ := run_cons_eq_some.mp ran
    rcases ih rest with old | ⟨earlier, last, later, world, rfl, before, signs⟩
    · apply (mem_step stepped old).imp id
      intro signs
      exact ⟨[], event, events, start, rfl, rfl, signs⟩
    · exact .inr ⟨event :: earlier, last, later, world, rfl, run_cons_eq_some.mpr ⟨next, stepped, before⟩, signs⟩

end History

section Vouching

/-- The parameters of a price that expires, in range and not of a pair that runs tasks. -/
structure ExpiringPrice (params : PublishPriceParams) : Prop where
  version : params.version = expiringPriceMessageVersion
  expires : params.expiration.isSome = true
  admitted : Admitted (priceFields params)
  priced : params.coinPair.isTasksRunner = false

/-- Who publishes a price expects it to expire, and is one of the oracles it asks. -/
theorem expiring_of_decision {name oracleAddr : String} {setting : LoopRounds.Setting} {runner : Runner}
    {oracles : List FullOracleRoundInfo} {params : PublishPriceParams} {fallbackIndex : Option Nat} (served : Served name runner)
    (decided : (decision setting oracleAddr runner).1 = .ok (.publish oracles (.price params) fallbackIndex))
    (admitted : Admitted (priceFields params)) :
    ExpiringPrice params ∧ params.oracleAddr = oracleAddr ∧ ∃ oracle ∈ oracles, oracle.addr.text = params.oracleAddr := by
  obtain ⟨_, ⟨price, vi, own, order, after, rfl, here, _⟩ | ⟨tasks, vi, order, since, rfl, here, _⟩⟩ := decision_publish decided
  · obtain ⟨_, answer, asked, isTurn⟩ := TurnWindows.isOracleTurn_cases here.turn
    obtain ⟨_, _, _, _, listed, _⟩ := TurnWindows.granted_cases asked isTurn
    have same := PublishParams.price.inj here.params
    have kind := served.kind
    rw [← served.pair] at kind
    subst same
    refine ⟨⟨rfl, rfl, admitted, kind.symm⟩, rfl, ?_⟩
    simp only [OracleTurn.isOracleSelectedInRound, Bool.and_eq_true, List.any_eq_true, beq_iff_eq] at listed
    rw [here.oracles]
    exact listed.1.2
  · cases here.params

/-- The message in its new form or in its old one. -/
def IsForm (params : PublishPriceParams) (message : String) : Prop :=
  params.prepareMsg = .ok message ∨ params.asLegacy.prepareMsg = .ok message

/-- What the signer of one of the forms is known to have signed for. -/
structure SameTerms (params other : PublishPriceParams) : Prop where
  coinPair : other.coinPair = params.coinPair
  price : other.price = params.price
  lastPubBlock : other.lastPubBlock = params.lastPubBlock
  oracle : Helpers.addrToNumber other.oracleAddr = Helpers.addrToNumber params.oracleAddr

variable {params : PublishPriceParams} {message : String}

/-- Both forms are in range, each with its version. -/
theorem form_fields (expiring : ExpiringPrice params) (form : IsForm params message) : ∃ fields, InRange fields ∧
    Versioned fields.version fields.expiration ∧ message = String.ofList (Python.hex (messageBytes fields)) ∧
    fields.coinPair = params.coinPair ∧ fields.value = params.price ∧ fields.lastPubBlock = params.lastPubBlock ∧
    Helpers.addrToNumber params.oracleAddr = .ok fields.oracle := by
  obtain ⟨fields, same, inRange⟩ := expiring.admitted
  obtain ⟨oracle, parsed, rfl⟩ := map_eq_ok_iff.mp same
  rcases form with new | old
  · refine ⟨_, inRange, ?_, ?_, rfl, rfl, rfl, parsed⟩
    · rw [Versioned, expiring.expires, if_pos rfl]
      exact expiring.version
    · rw [prepareMsg_price same inRange] at new
      exact (Except.ok.inj new).symm
  · have legacy : InRange ⟨legacyPriceMessageVersion, params.coinPair, params.price, oracle, params.lastPubBlock, none⟩ :=
      ⟨(⟨by decide, by decide⟩ : FitsWord legacyPriceMessageVersion), inRange.coinPair, inRange.value, inRange.oracle,
        inRange.lastPubBlock, by simp⟩
    have fields : priceFields params.asLegacy =
        .ok ⟨legacyPriceMessageVersion, params.coinPair, params.price, oracle, params.lastPubBlock, none⟩ :=
      map_eq_ok_iff.mpr ⟨oracle, parsed, rfl⟩
    refine ⟨_, legacy, rfl, ?_, rfl, rfl, rfl, parsed⟩
    rw [prepareMsg_price fields legacy] at old
    exact (Except.ok.inj old).symm

private theorem sameTerms_of_message {other : PublishPriceParams} (expiring : ExpiringPrice params) (form : IsForm params message)
    (gate : Versioned other.version other.expiration) (fits : PairFits other.coinPair) (prepared : other.prepareMsg = .ok message) :
    SameTerms params other := by
  obtain ⟨fields, inRange, versioned, rfl, pair, price, lastPubBlock, oracle⟩ := form_fields expiring form
  have same := priceFields_of_message inRange versioned gate fits prepared
  obtain ⟨number, parsed, rfl⟩ := map_eq_ok_iff.mp same
  exact ⟨pair, price, lastPubBlock, parsed.trans oracle.symm⟩

/-- No tasks pair has a message of a price. -/
theorem not_task_message {name : String} {runner : TasksRunner} {task : PublishTaskParams} (expiring : ExpiringPrice params)
    (form : IsForm params message) (served : Served name (.tasks runner)) (pair : task.coinPair = ⟨name⟩)
    (prepared : task.prepareMsg = .ok message) : False := by
  obtain ⟨fields, inRange, versioned, rfl, same, _⟩ := form_fields expiring form
  have fits : PairFits task.coinPair := pair ▸ served.fits
  have tasks := coinPair_of_task_message inRange versioned fits prepared
  have kind := served.kind
  rw [← pair, tasks, same, expiring.priced] at kind
  cases kind

/-- The view that the node of an address has of the pair, when it signs for the parameters. -/
structure OwnView (world : World) (addr : String) (params : PublishPriceParams) (node : Node) (runner : CoinPairRunner)
    (vi : OracleBlockchainInfo) : Prop where
  found : world.nodes addr = some node
  serves : node.getRunner params.coinPair = some (.coinPair runner)
  info : runner.blockchainInfo = some vi
  sameBlock : params.lastPubBlock = vi.lastPubBlock

/-- The node has compared the price with its own, and found that it was the turn of the oracle that publishes. -/
structure Compared (libraries : Libraries) (runner : CoinPairRunner) (vi : OracleBlockchainInfo) (params : PublishPriceParams)
    (request : SignRequest) (own : PriceWithTimestamp) (requester : String) : Prop where
  price : ∃ time, runner.lastPrice time false = .ok (some own)
  close : ∃ delta, Helpers.priceDelta params.price own.price = .ok (.finite delta) ∧ delta ≤ runner.conf.oraclePriceRejectDeltaPct
  oracle : Helpers.addrToNumber requester = Helpers.addrToNumber params.oracleAddr
  turn : ∃ verdict after, PriceOracleTurn.validateTurn runner.conf.turn vi requester (some own) runner.oracleTurn =
    .ok verdict after ∧ verdict.isTurn = true
  signed : ∃ message, IsForm params message ∧ SignedBy libraries.eth requester message request.signature

/-- The node publishes a price of its own because it is its turn. -/
structure Published (setting : LoopRounds.Setting) (addr : String) (runner : CoinPairRunner) (vi : OracleBlockchainInfo)
    (params : PublishPriceParams) : Prop where
  price : ∃ tsUtc, runner.lastPrice setting.time true = .ok (some ⟨params.price, tsUtc⟩) ∧ ∃ order after,
    PriceOracleTurn.isOracleTurn setting.disableFallbacks runner.conf.turn vi addr (some ⟨params.price, tsUtc⟩) runner.oracleTurn =
      .ok (true, order) after
  oracle : Helpers.addrToNumber addr = Helpers.addrToNumber params.oracleAddr

/-- What it means that the node of an address signs for the parameters. -/
def Vouches (libraries : Libraries) (world : World) (addr : String) (params : PublishPriceParams) : Event → Prop
  | .refresh _ _ _ => False
  | .request target request => addr = target ∧ ∃ node runner vi own requester, OwnView world addr params node runner vi ∧
      Compared libraries runner vi params request own requester
  | .round target _ setting => addr = target ∧ ∃ node runner vi, OwnView world addr params node runner vi ∧
      Published setting addr runner vi params

variable {libraries : Libraries} {world : World} {entry : Signed}

private theorem validateAndSign_task {node : Node} {params : PublishParams} {runner : TasksRunner} {signature message : String} {own : Bytes}
    (served : node.getRunner params.coinPair = some (.tasks runner))
    (signed : (node.validateAndSign libraries params signature).1 = .ok (message, own)) : params.prepareMsg = .ok message := by
  simp only [Node.validateAndSign, served, TaskRequestValidation.validateAndSign, bind_eq_ok_iff] at signed
  obtain ⟨_, _, _, _, rest⟩ := signed
  exact (signValidated_ok_iff.mp rest).1

private theorem versioned_of_endpoint {conf : OracleConfiguration} {now : Int} {other : PublishPriceParams} {request : SignRequest}
    (through : ThroughItsEndpoint conf now other request) : Versioned other.version other.expiration := by
  cases request with
  | sign _ _ _ _ _ _ _ =>
    rw [Versioned, through.2]
    exact through.1
  | signPriceV4 _ _ _ _ _ _ _ _ =>
    obtain ⟨expiration, present, _⟩ := through.2
    rw [Versioned, present]
    exact through.1
  | signTask _ _ _ _ _ _ => exact through.elim

/-- A node that answers a request with a signature on one of the forms vouches for the price. -/
theorem vouches_of_request {request : SignRequest} {addr signature : String} {node : Node} (kept : Kept addr node)
    (expiring : ExpiringPrice params) (form : IsForm params message) (found : world.nodes addr = some node)
    (signed : (handle libraries node request).1 = .signed message signature) :
    Vouches libraries world addr params (.request addr request) := by
  obtain ⟨parsed, own, gate, fields, ok⟩ := handle_signed signed
  cases runs : node.getRunner parsed.coinPair with
  | none =>
    simp only [Node.validateAndSign, runs] at ok
    exact absurd ok refuse_ne_ok
  | some runner =>
    have served := kept.runners _ (lookup_mem runs)
    cases runner with
    | tasks runner =>
      obtain ⟨task, rfl⟩ := task_of_tasksRunner runs ok
      exact (not_task_message expiring form served rfl (validateAndSign_task runs ok)).elim
    | coinPair runner =>
      obtain ⟨price, vi, own, rfl, checked⟩ := price_of_coinPairRunner gate fields runs ok
      have same := sameTerms_of_message expiring form (versioned_of_endpoint checked.endpoint) served.fits checked.prepared
      refine ⟨rfl, node, runner, vi, own, price.oracleAddr, ⟨found, same.coinPair ▸ runs, checked.blockchainInfo, ?_⟩,
        ⟨_, checked.ownPrice⟩, same.price ▸ checked.close, same.oracle, checked.turn, message, form, checked.requester⟩
      exact same.lastPubBlock.symm.trans checked.sameBlock

private theorem mem_published {eth : EthAccount} {account : BlockchainAccount} {params : PublishParams}
    (listed : message ∈ published eth account params) :
    params.prepareMsg = .ok message ∨ ∃ price, params = .price price ∧ price.asLegacy.prepareMsg = .ok message := by
  unfold published at listed
  split at listed
  · cases listed
  next text prepared =>
    split at listed
    next legacy _ form =>
      rcases List.mem_cons.mp listed with rfl | new
      · exact .inr (signLegacy_ok form (Option.mem_some_iff.mpr rfl))
      · obtain rfl := List.mem_singleton.mp new
        exact .inl prepared
    next =>
      obtain rfl := List.mem_singleton.mp listed
      exact .inl prepared
    next => cases listed

/-- A node that publishes signs for its own price. -/
theorem vouches_of_round {addr name : String} {setting : LoopRounds.Setting} {node : Node} {runner : Runner}
    {oracles : List FullOracleRoundInfo} {made : PublishParams} {fallbackIndex : Option Nat} (kept : Kept addr node)
    (expiring : ExpiringPrice params) (form : IsForm params message) (found : world.nodes addr = some node)
    (runs : node.cpMap.lookup name = some runner)
    (decided : (decision setting node.account.addr.text runner).1 = .ok (.publish oracles made fallbackIndex))
    (listed : message ∈ published libraries.eth node.account made) : Vouches libraries world addr params (.round addr name setting) := by
  have served := kept.runners _ (lookup_mem runs)
  have signed := mem_published listed
  obtain ⟨_, ⟨price, vi, own, order, after, rfl, here, _⟩ | ⟨tasks, vi, order, since, rfl, here, _⟩⟩ := decision_publish decided
  · obtain rfl := here.params
    have pair : price.coinPair = ⟨name⟩ := served.pair
    have fits : PairFits price.coinPair := pair ▸ served.fits
    have same : SameTerms params (price.preparePublishParams setting.now own vi node.account.addr.text) := by
      rcases signed with new | ⟨other, isPrice, old⟩
      · exact sameTerms_of_message expiring form rfl fits new
      · obtain rfl := PublishParams.price.inj isPrice
        have legacy := sameTerms_of_message expiring form (by rfl) fits old
        exact ⟨legacy.coinPair, legacy.price, legacy.lastPubBlock, legacy.oracle⟩
    have turn := here.turn
    have answer := here.price
    rw [kept.account] at turn
    obtain ⟨cost, tsUtc⟩ := own
    obtain rfl : cost = params.price := same.price
    refine ⟨rfl, node, price, vi, ⟨found, ?_, here.info, same.lastPubBlock.symm⟩, ⟨tsUtc, answer, order, after, turn⟩, ?_⟩
    · rw [Node.getRunner, ← same.coinPair]
      change node.cpMap.lookup price.coinPair.cp = _
      rw [pair]
      exact runs
    · rw [← same.oracle, ← kept.account]
      rfl
  · obtain rfl := here.params
    rcases signed with new | ⟨_, isPrice, _⟩
    · exact (not_task_message expiring form served served.pair new).elim
    · cases isPrice

theorem vouches_of_signs {event : Event} (wellKept : WellKept world) (expiring : ExpiringPrice params)
    (form : IsForm params entry.message) (signs : Signs libraries world entry event) :
    Vouches libraries world entry.addr params event := by
  cases event with
  | refresh addr cpMap now => exact signs.elim
  | request addr request =>
    obtain ⟨rfl, node, signature, found, signed⟩ := signs
    exact vouches_of_request (wellKept _ node found) expiring form found signed
  | round addr name setting =>
    obtain ⟨rfl, node, runner, oracles, made, fallbackIndex, found, runs, decided, listed⟩ := signs
    exact vouches_of_round (wellKept _ node found) expiring form found runs decided listed

end Vouching

end OmocNode.Proofs.HonestNodes
