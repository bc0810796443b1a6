import OmocNode.Proofs.SignEndpoints
import OmocNode.Proofs.SignedMessages
import OmocNode.Proofs.TaskTurns

/-! What a node signs for tasks. Every field of the message is compared with the
node's own view but one, its version. -/

namespace OmocNode.Proofs.TaskSignatures
open App RequestM Outcomes RequestChecks SignEndpoints SignedMessages FixedWidth Addresses TaskTurns
open Sha256 (bigEndian)

/-- The types of the contracts: names of pairs are text of up to 32 bytes, flags and blocks are words. -/
structure FromChain (pair : CoinPair) (runner : TasksRunner) : Prop where
  pair : PairFits pair
  flags : FitsWord runner.tasksAvailableAsFlags
  lastPubBlock : ∀ vi ∈ runner.blockchainInfo, FitsWord vi.lastPubBlock

/-- What a signature of the node says about a task, `vi` being the node's view of the chain. -/
structure TaskSigned (libraries : Libraries) (runner : TasksRunner) (vi : OracleBlockchainInfo) (task : PublishTaskParams)
    (message signature : String) : Prop where
  blockchainInfo : runner.blockchainInfo = some vi
  bytes : ∃ bytes : Bytes, message = String.ofList (Python.hex bytes) ∧ bytes.length = 148
  fields : ∃ signed, decode message = some signed ∧ signed.version = runner.conf.taskMessageVersion ∧
    signed.coinPair = task.coinPair ∧ signed.value = runner.getAvailableTasksState.2 ∧ signed.lastPubBlock = vi.lastPubBlock
  turn : ∃ verdict, TasksOracleTurn.validateTurn runner.conf.turn vi task.oracleAddr runner.getAvailableTasksState.1
    runner.lastBlockWhenAvailable = .ok verdict ∧ verdict.isTurn = true
  requester : SignedBy libraries.eth task.oracleAddr message signature

/-- The message is of a pair that runs tasks, and its task is the node's own. -/
def WellFormed (libraries : Libraries) (node : Node) (request : SignRequest) (message : String) : Prop :=
  ∃ task runner vi, request.params libraries = .ok (.task task) ∧ node.getRunner task.coinPair = some (.tasks runner) ∧
    TaskSigned libraries runner vi task message request.signature

/-- The request carries the version of the node's configuration, and a message has room for it. -/
def CarriesOwnVersion (libraries : Libraries) (node : Node) (request : SignRequest) : Prop :=
  ∃ task runner, request.params libraries = .ok (.task task) ∧ node.getRunner task.coinPair = some (.tasks runner) ∧
    task.version = runner.conf.taskMessageVersion ∧ FitsWord task.version

section Checks
variable {v : TaskRequestValidation} {task : PublishTaskParams} {eth : EthAccount} {account : BlockchainAccount}
  {signature message : String} {own : Bytes}

/-- What a tasks validator has compared when it signs. -/
theorem taskValidator_ok (kind : v.params = .task task) (signed : v.validateAndSign eth account signature = .ok (message, own)) :
    ∃ vi verdict, v.blockchainInfo = some vi ∧ task.lastPubBlock = vi.lastPubBlock ∧ v.areTasksAvailable = true ∧
      task.tasksFlags = v.tasksFlags ∧ verdict.isTurn = true ∧
      TasksOracleTurn.validateTurn v.turnConfiguration vi task.oracleAddr v.areTasksAvailable v.lastBlockWhenAvailable =
        .ok verdict ∧ task.prepareMsg = .ok message ∧ SignedBy eth task.oracleAddr message signature := by
  simp only [TaskRequestValidation.validateAndSign, kind, bind_eq_ok_iff, signValidated_ok_iff] at signed
  obtain ⟨_, checked, _, granted, prepared, requester, _⟩ := signed
  unfold TaskRequestValidation.validateParams at checked
  unfold TaskRequestValidation.validateTurn at granted
  cases present : v.blockchainInfo with
  | none =>
    simp only [present, refuse_ne_ok] at checked
  | some vi =>
    simp only [present, kind, PublishParams.lastPubBlock, PublishParams.tasksFlags, PublishParams.oracleAddr, bind_eq_ok_iff,
      ofPython_eq_ok_iff, refuseIf_eq_ok_iff, ne_eq, not_not, Bool.not_eq_false, Except.ok.injEq, exists_eq_left'] at checked granted
    obtain ⟨_, available, _, sameBlock, sameFlags⟩ := checked
    obtain ⟨verdict, answered, isTurn⟩ := granted
    exact ⟨vi, verdict, rfl, sameBlock, available, sameFlags, isTurn, answered, prepared, requester⟩

end Checks

section Signed
variable {libraries : Libraries} {node : Node} {request : SignRequest} {task : PublishTaskParams} {runner : TasksRunner}
  {vi : OracleBlockchainInfo} {message own : String}

/-- A task request that was signed, with what it was compared with. -/
structure Accepted (libraries : Libraries) (node : Node) (request : SignRequest) (task : PublishTaskParams) (runner : TasksRunner)
    (vi : OracleBlockchainInfo) (message : String) : Prop where
  params : request.params libraries = .ok (.task task)
  served : node.getRunner task.coinPair = some (.tasks runner)
  blockchainInfo : runner.blockchainInfo = some vi
  lastPubBlock : task.lastPubBlock = vi.lastPubBlock
  tasksFlags : task.tasksFlags = runner.getAvailableTasksState.2
  turn : ∃ verdict, TasksOracleTurn.validateTurn runner.conf.turn vi task.oracleAddr runner.getAvailableTasksState.1
    runner.lastBlockWhenAvailable = .ok verdict ∧ verdict.isTurn = true
  prepared : task.prepareMsg = .ok message
  requester : SignedBy libraries.eth task.oracleAddr message request.signature

private theorem accepted_of_signed {version coinPair tasksFlags oracleAddr lastPubBlock signature : String}
    (answered : (handle libraries node (.signTask version coinPair tasksFlags oracleAddr lastPubBlock signature)).1 =
      .signed message own) : ∃ task runner vi,
    Accepted libraries node (.signTask version coinPair tasksFlags oracleAddr lastPubBlock signature) task runner vi message := by
  obtain ⟨params, bytes, _, fields, signed⟩ := handle_signed answered
  obtain ⟨task, rfl⟩ := signTask_params fields
  unfold Node.validateAndSign at signed
  split at signed
  · cases signed
  next runner served =>
    obtain ⟨vi, verdict, info, sameBlock, _, sameFlags, isTurn, granted, prepared, requester⟩ := taskValidator_ok rfl signed
    exact ⟨task, runner, vi, fields, served, info, sameBlock, sameFlags, ⟨verdict, granted, isTurn⟩, prepared, requester⟩
  · cases signed

/-- The other fields of an accepted request are in range, whatever its version is. -/
theorem Accepted.inRange (accepted : Accepted libraries node request task runner vi message)
    (chain : FromChain task.coinPair runner) {version : Int} (fits : FitsWord version) : ∃ oracle,
    Helpers.addrToNumber task.oracleAddr = .ok oracle ∧
      InRange ⟨version, task.coinPair, task.tasksFlags, oracle, task.lastPubBlock, none⟩ := by
  obtain ⟨verdict, granted, isTurn⟩ := accepted.turn
  obtain ⟨requester, _, text⟩ := selected_of_granted granted isTurn
  have flags : FitsWord runner.getAvailableTasksState.2 := by
    have none : FitsWord 0 := by norm_num [FitsWord]
    unfold TasksRunner.getAvailableTasksState
    dsimp only
    split_ifs
    · exact none
    · exact chain.flags
    · exact chain.flags
  refine ⟨requester.addr.number, ?_, fits, chain.pair, ?_, number_bounds requester.addr, ?_, ?_⟩
  · rw [← text, addrToNumber_address]
  · simpa only [accepted.tasksFlags] using flags
  · simpa only [accepted.lastPubBlock] using chain.lastPubBlock vi accepted.blockchainInfo
  · intro expiration present
    cases present

/-- Where the version fits, the message can be read back. -/
theorem Accepted.readable (accepted : Accepted libraries node request task runner vi message)
    (chain : FromChain task.coinPair runner) (fits : FitsWord task.version) :
    ∃ oracle, ∃ bytes : Bytes, message = String.ofList (Python.hex bytes) ∧ bytes.length = 148 ∧
      decode message = some ⟨task.version, task.coinPair, task.tasksFlags, oracle, task.lastPubBlock, none⟩ := by
  obtain ⟨oracle, parsed, inRange⟩ := accepted.inRange chain fits
  have fields : taskFields task = .ok ⟨task.version, task.coinPair, task.tasksFlags, oracle, task.lastPubBlock, none⟩ := by
    rw [taskFields, parsed]
    rfl
  obtain ⟨text, bytes, signed, prepared, read, rfl, long, decoded⟩ := readable_of_eq inRange (prepareMsg_task fields inRange)
  obtain rfl := Except.ok.inj read
  rw [accepted.prepared] at prepared
  obtain rfl := Except.ok.inj prepared
  exact ⟨oracle, bytes, rfl, long, decoded⟩

theorem Accepted.wellFormed (accepted : Accepted libraries node request task runner vi message)
    (chain : FromChain task.coinPair runner) (same : task.version = runner.conf.taskMessageVersion) (fits : FitsWord task.version) :
    WellFormed libraries node request message := by
  obtain ⟨oracle, bytes, text, long, decoded⟩ := accepted.readable chain fits
  exact ⟨task, runner, vi, accepted.params, accepted.served,
    { blockchainInfo := accepted.blockchainInfo
      bytes := ⟨bytes, text, long⟩
      fields := ⟨_, decoded, same, rfl, accepted.tasksFlags, accepted.lastPubBlock⟩
      turn := accepted.turn
      requester := accepted.requester }⟩

/-- A message of 148 bytes has room for its version only if that is a word. -/
theorem Accepted.version_fits (accepted : Accepted libraries node request task runner vi message)
    (chain : FromChain task.coinPair runner) {bytes : Bytes} (text : message = String.ofList (Python.hex bytes))
    (long : bytes.length = 148) : FitsWord task.version := by
  have none : FitsWord 0 := by norm_num [FitsWord]
  obtain ⟨oracle, parsed, inRange⟩ := accepted.inRange chain none
  have prepared := accepted.prepared
  rw [PublishTaskParams.prepareMsg, encodeParameters_version task.version parsed inRange, text] at prepared
  have written := String.ofList_injective (Except.ok.inj prepared)
  have others := length_messageBytes inRange
  rw [messageBytes, List.length_append, length_bigEndian, Option.isSome_none, if_neg Bool.false_ne_true] at others
  rw [← List.take_append_drop 32 bytes, hex_append] at written
  have tails : (Python.hex (afterVersion ⟨0, task.coinPair, task.tasksFlags, oracle, task.lastPubBlock, Option.none⟩)).length =
      (Python.hex (bytes.drop 32)).length := by
    rw [length_hex, length_hex, List.length_drop, long]
    omega
  have front := (List.append_inj' written tails).1
  have width : (bytes.take 32).length = 32 := by
    rw [List.length_take, long]
    rfl
  have fits := fits_of_hexPadded width front
  refine ⟨fits.1, ?_⟩
  have same : (256 : Int) ^ 32 = 2 ^ 256 := by norm_num
  rw [← same]
  exact fits.2

theorem Accepted.carriesOwnVersion (accepted : Accepted libraries node request task runner vi message)
    (chain : FromChain task.coinPair runner) (wellFormed : WellFormed libraries node request message) :
    CarriesOwnVersion libraries node request := by
  obtain ⟨other, server, view, params, served, signed⟩ := wellFormed
  rw [accepted.params] at params
  cases params
  rw [accepted.served] at served
  cases served
  obtain ⟨bytes, text, long⟩ := signed.bytes
  obtain ⟨fields, decoded, sameVersion, _⟩ := signed.fields
  have fits := accepted.version_fits chain text long
  obtain ⟨oracle, _, _, _, reread⟩ := accepted.readable chain fits
  rw [decoded] at reread
  obtain rfl := Option.some.inj reread
  exact ⟨task, runner, accepted.params, accepted.served, sameVersion, fits⟩

end Signed

/-- The signatures a node gives at `/sign-task/` are over well-formed messages
just when the request carries the node's own version: it is the one field that
nothing compares. -/
theorem task_signature_wellFormed_iff {libraries : Libraries} {node : Node}
    {version coinPair tasksFlags oracleAddr lastPubBlock signature message own : String}
    (chain : ∀ pair runner, node.getRunner pair = some (.tasks runner) → FromChain pair runner)
    (answered : (handle libraries node (.signTask version coinPair tasksFlags oracleAddr lastPubBlock signature)).1 =
      .signed message own) :
    WellFormed libraries node (.signTask version coinPair tasksFlags oracleAddr lastPubBlock signature) message ↔
      CarriesOwnVersion libraries node (.signTask version coinPair tasksFlags oracleAddr lastPubBlock signature) := by
  obtain ⟨task, runner, vi, accepted⟩ := accepted_of_signed answered
  have typed := chain task.coinPair runner accepted.served
  constructor
  · exact accepted.carriesOwnVersion typed
  · intro carried
    obtain ⟨other, server, params, served, same, fits⟩ := carried
    rw [accepted.params] at params
    cases params
    rw [accepted.served] at served
    cases served
    exact accepted.wellFormed typed same fits

/-! Requests of one task with genuine signatures: one with the node's own version, 3, and one with another. -/

def taskMessage (version : String) : String :=
  "000000000000000000000000000000000000000000000000000000000000000" ++ version ++
  "5441534b53000000000000000000000000000000000000000000000000000000" ++
  "0000000000000000000000000000000000000000000000000000000000000007" ++
  "610bb1573d1046fcb8a70bbbd395754cd57c2b60" ++
  "000000000000000000000000000000000000000000000000000000000000007b"

def taskRequesterSignature (version : String) : Bytes :=
  if version = "3" then
    signatureBytes 0x70817f473a976241f85a55b986c52de1034d31d45e42ebf9de176d3e60c76634
      0x45fff600d78f2a926a2f1c1b51f58b3d66e158f8ebe81c83d85c64411b828a78 28
  else
    signatureBytes 0x58f1f26db460e94ddecde1f1cab9d4ba12e8aa741d7819d1f5502c41f7cb8fd2
      0x378159f2a8acb6f04469b5f154e129499cb498098993db4c017d0c47d5d2d3b6 27

def taskSignerSignature (version : String) : Bytes :=
  if version = "3" then
    signatureBytes 0x1474afa5437eda1dcf167648670ae81c72c56b76d398f4919c2cc886ccaa546e
      0x7c90a0a29b4066064d9f6891550763a04574ec206092968487ea9c8e26be48df 27
  else
    signatureBytes 0x39146fae89bbc767e2d9e739bc7dd6b440897ac0e72edf3d85a70334e92717a5
      0xa83f5ab7cc73a8cd6988de8be8795da74920b1f23df4316ed6db3e60422b5dd 28

/-- The signature library on the two messages. -/
def taskLibraries : Libraries where
  eth :=
    { hexBytes := plainHexBytes
      recoverMessage := fun message signature =>
        if ∃ version ∈ ["3", "4"], message = taskMessage version ∧ signature = taskRequesterSignature version then
          .ok requesterAddr.text
        else .error .valueError
      signMessage := fun hexstr _ =>
        if hexstr = "0x" ++ taskMessage "3" then .ok (taskSignerSignature "3")
        else if hexstr = "0x" ++ taskMessage "4" then .ok (taskSignerSignature "4")
        else .error .valueError }
  float _ := .error .valueError

def taskRunner : TasksRunner where
  conf :=
    { turn := ⟨1 / 20, 1, [2, 4, 6, 8, 10], 30⟩, oraclePriceRejectDeltaPct := 50, priceSignatureExpirationSeconds := 300
      priceSignatureMinValiditySeconds := 30, priceSignatureMaxValiditySeconds := 600, taskMessageVersion := 3 }
  coinPair := ⟨"TASKS"⟩
  signal := .disabled
  lastBlockWhenAvailable := some 120
  ignorePossiblyStuckTasks := []
  areTasksAvailable := true
  tasksAvailableAsFlags := 7
  tasksAvailable := []
  blockchainInfo := some
    { coinPair := ⟨"TASKS"⟩, selectedOracles := [⟨requesterAddr, "http://requester:5556", 1000, requesterAddr, 0, true, 1⟩]
      blockchainPrice := 0, blockNum := 124, lastPubBlock := 123, lastPubBlockHash := List.replicate 32 7
      validPricePeriodInBlocks := 300 }

def taskNode : Node :=
  { cpMap := [("TASKS", .tasks taskRunner)], account := ⟨signerAddr, "signer key"⟩, now := 1700000000 }

def taskRequest (version : String) : SignRequest :=
  .signTask version "TASKS" "7" requesterAddr.text "123" (plainHexBytes.hex (taskRequesterSignature version))

private theorem taskNode_fromChain (pair : CoinPair) (runner : TasksRunner) (served : taskNode.getRunner pair = some (.tasks runner)) :
    FromChain pair runner := by
  obtain ⟨cp⟩ := pair
  by_cases tasks : cp = "TASKS"
  · subst tasks
    obtain rfl : taskRunner = runner := Runner.tasks.inj (Option.some.inj served)
    refine ⟨tasks_fits, by norm_num [FitsWord, taskRunner], ?_⟩
    intro vi present
    obtain rfl := Option.some.inj present
    norm_num [FitsWord]
  · have other : (cp == "TASKS") = false := beq_eq_false_iff_ne.mpr tasks
    simp [Node.getRunner, taskNode, List.lookup_cons, other] at served

theorem task_signature_wellFormed_own :
    WellFormed taskLibraries taskNode (taskRequest "3") (taskMessage "3") ↔
      CarriesOwnVersion taskLibraries taskNode (taskRequest "3") := by
  have answered : (handle taskLibraries taskNode (taskRequest "3")).1 =
      .signed (taskMessage "3") (plainHexBytes.hex (taskSignerSignature "3")) := by
    decide +kernel
  exact task_signature_wellFormed_iff taskNode_fromChain answered

/-- The node signs a message of version 4, though its own version is 3. -/
theorem foreign_version_signed :
    (handle taskLibraries taskNode (taskRequest "4")).1 = .signed (taskMessage "4") (plainHexBytes.hex (taskSignerSignature "4")) ∧
      ¬WellFormed taskLibraries taskNode (taskRequest "4") (taskMessage "4") := by
  have answered : (handle taskLibraries taskNode (taskRequest "4")).1 =
      .signed (taskMessage "4") (plainHexBytes.hex (taskSignerSignature "4")) := by
    decide +kernel
  refine ⟨answered, ?_⟩
  intro wellFormed
  obtain ⟨task, runner, vi, accepted⟩ := accepted_of_signed answered
  have chain : FromChain task.coinPair runner := taskNode_fromChain task.coinPair runner accepted.served
  obtain ⟨carried, server, params, served, same, _⟩ := accepted.carriesOwnVersion chain wellFormed
  obtain rfl : PublishTaskParams.mk 4 ⟨"TASKS"⟩ 7 requesterAddr.text 123 = carried := by
    have parsed : (taskRequest "4").params taskLibraries = .ok (.task ⟨4, ⟨"TASKS"⟩, 7, requesterAddr.text, 123⟩) := rfl
    exact PublishParams.task.inj (Except.ok.inj (parsed.symm.trans params))
  obtain rfl : taskRunner = server := Runner.tasks.inj (Option.some.inj served)
  cases same

end OmocNode.Proofs.TaskSignatures
