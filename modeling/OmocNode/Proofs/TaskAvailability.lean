import OmocNode.Proofs.RequestChecks
import OmocNode.Proofs.TaskTurns
import OmocNode.TaskEvents

/-! How long a node has seen tasks, and how long it counts when another oracle
asks it to sign a task. Requests look at the tasks too but leave the count as it is. -/

namespace OmocNode.Proofs.TaskAvailability
open TaskEvents TaskTurns SelectNext OracleTurn RequestM Outcomes RequestChecks Selection

variable {runner : TasksRunner} {disableFallbacks : Bool} {events : List Event} {tasks : TasksState}
  {vi : OracleBlockchainInfo} {params : PublishTaskParams} {since : Option Int}

/-- Whether the node sees tasks, those apart that it is told to ignore. -/
def sees (runner : TasksRunner) : Event → Bool
  | .poll tasks blockchainInfo _ => (facing runner none tasks blockchainInfo).getAvailableTasksState.1
  | .request tasks blockchainInfo _ => (facing runner none tasks blockchainInfo).getAvailableTasksState.1

def block : Event → Option Int
  | .poll _ blockchainInfo _ => some blockchainInfo.blockNum
  | .request _ blockchainInfo _ => blockchainInfo.map (·.blockNum)

/-- The blocks at which the node has seen tasks since it last saw none. -/
def sightings (runner : TasksRunner) (events : List Event) : List Int :=
  events.foldl (fun seen event => if sees runner event then (block event).toList ++ seen else []) []

/-- Whether the node's loop sees tasks, and if so, whether a request has found none meanwhile. -/
inductive Watch
  | away
  | unbroken
  | interrupted
  deriving DecidableEq

def Watch.next (runner : TasksRunner) (watch : Watch) (event : Event) : Watch :=
  match event, sees runner event, watch with
  | .poll .., false, _ => away
  | .poll .., true, away => unbroken
  | .request .., false, unbroken => interrupted
  | _, _, watch => watch

def watched (runner : TasksRunner) (events : List Event) : Watch := events.foldl (Watch.next runner) .away

theorem facing_state : (facing runner since tasks (some vi)).getAvailableTasksState =
    (facing runner none tasks (some vi)).getAvailableTasksState := rfl

theorem observe_poll_away {oracleAddr : String} (none_seen : sees runner (.poll tasks vi oracleAddr) = false) :
    observe runner disableFallbacks since (.poll tasks vi oracleAddr) = none := by
  rw [sees] at none_seen
  simp only [observe, TasksRunner.isOracleTurn, facing_state, none_seen, Bool.not_false, if_true]

theorem observe_poll_seen {oracleAddr : String} (seen : sees runner (.poll tasks vi oracleAddr) = true) :
    observe runner disableFallbacks since (.poll tasks vi oracleAddr) = some ((since.filter (· ≠ 0)).getD vi.blockNum) := by
  rw [sees] at seen
  simp only [observe, TasksRunner.isOracleTurn, facing_state, seen, Bool.not_true, Bool.false_eq_true, if_false]
  rfl

@[simp] theorem watched_append (events : List Event) (event : Event) :
    watched runner (events ++ [event]) = (watched runner events).next runner event := List.foldl_concat ..

@[simp] theorem sightings_append (events : List Event) (event : Event) : sightings runner (events ++ [event]) =
    if sees runner event then (block event).toList ++ sightings runner events else [] := List.foldl_concat ..

@[simp] theorem lastBlock_append (events : List Event) (event : Event) : lastBlockAfter runner disableFallbacks (events ++ [event]) =
    observe runner disableFallbacks (lastBlockAfter runner disableFallbacks events) event := List.foldl_concat ..

/-- Where the count starts, given what the node has seen. -/
def Counted (watch : Watch) (seen : List Int) (since : Option Int) : Prop :=
  match watch with
  | .away => since = none ∨ since = some 0
  | .unbroken => ∃ block ∈ seen, since = some block
  | .interrupted => True

private theorem counted_poll {watch : Watch} {seen : List Int} {oracleAddr : String} (counted : Counted watch seen since) :
    Counted (watch.next runner (.poll tasks vi oracleAddr))
      (if sees runner (.poll tasks vi oracleAddr) then vi.blockNum :: seen else [])
      (observe runner disableFallbacks since (.poll tasks vi oracleAddr)) := by
  cases sighted : sees runner (.poll tasks vi oracleAddr) with
  | false =>
    simp only [observe_poll_away sighted, Watch.next, sighted]
    exact .inl rfl
  | true =>
    simp only [observe_poll_seen sighted, Watch.next, sighted, if_true]
    cases watch with
    | away =>
      refine ⟨vi.blockNum, List.mem_cons_self, ?_⟩
      rcases counted with rfl | rfl <;> rfl
    | unbroken =>
      obtain ⟨block, member, rfl⟩ := counted
      by_cases zero : block = 0
      · subst zero
        exact ⟨vi.blockNum, List.mem_cons_self, rfl⟩
      · refine ⟨block, List.mem_cons_of_mem _ member, ?_⟩
        simp [Option.filter, zero]
    | interrupted => trivial

private theorem counted_request {watch : Watch} {seen : List Int} {blockchainInfo : Option OracleBlockchainInfo}
    (counted : Counted watch seen since) :
    Counted (watch.next runner (.request tasks blockchainInfo params))
      (if sees runner (.request tasks blockchainInfo params) then (blockchainInfo.map (·.blockNum)).toList ++ seen else []) since := by
  cases sighted : sees runner (.request tasks blockchainInfo params) with
  | false =>
    simp only [Watch.next, sighted]
    cases watch with
    | away => exact counted
    | unbroken => trivial
    | interrupted => trivial
  | true =>
    simp only [Watch.next, sighted, if_true]
    cases watch with
    | away => exact counted
    | unbroken =>
      obtain ⟨block, member, started⟩ := counted
      exact ⟨block, List.mem_append_right _ member, started⟩
    | interrupted => trivial

/-- While the count stands it starts at a block at which the node saw tasks, and
after a round of the loop that saw none it starts anew. -/
theorem counted_after (events : List Event) :
    Counted (watched runner events) (sightings runner events) (lastBlockAfter runner disableFallbacks events) := by
  induction events using List.reverseRecOn with
  | nil => exact .inr rfl
  | append_singleton events event ih =>
    rw [watched_append, sightings_append, lastBlock_append]
    cases event with
    | poll tasks vi oracleAddr => exact counted_poll ih
    | request tasks blockchainInfo params => exact counted_request ih

/-- The checks end with a refusal or go through; no other exception is raised. -/
def OnlyRefuses {α : Type} (result : RequestM α) : Prop := ∀ err, result ≠ .error (.python err)

theorem OnlyRefuses.bind {α β : Type} {first : RequestM α} {next : α → RequestM β} (refuses : OnlyRefuses first)
    (then_refuses : ∀ value, first = .ok value → OnlyRefuses (next value)) : OnlyRefuses (first >>= next) := by
  intro err raised
  cases answered : first with
  | ok value =>
    rw [answered] at raised
    exact then_refuses value answered err raised
  | error other =>
    rw [answered] at raised
    obtain rfl := Except.error.inj raised
    exact refuses err answered

private theorem refuseIf_onlyRefuses {condition : Prop} [Decidable condition] {failure : ValidationFailure} :
    OnlyRefuses (refuseIf condition failure) := by
  intro err
  unfold refuseIf refuse
  split <;> simp

private theorem ok_onlyRefuses {α : Type} {value : α} : OnlyRefuses (.ok value) := nofun

private theorem validateParams_onlyRefuses {v : TaskRequestValidation} (task : v.params = .task params) : OnlyRefuses v.validateParams := by
  unfold TaskRequestValidation.validateParams
  cases v.blockchainInfo with
  | none => exact fun _ => by simp [refuse]
  | some vi =>
    apply OnlyRefuses.bind refuseIf_onlyRefuses
    intro _ _
    apply OnlyRefuses.bind refuseIf_onlyRefuses
    intro _ _
    rw [task]
    apply OnlyRefuses.bind ok_onlyRefuses
    intro _ _
    exact refuseIf_onlyRefuses

/-- How the node answers a fallback, the signature apart: it raises nothing but
refusals, and it goes on only if it has seen the tasks for more than the waiting time. -/
structure Handled (vi : OracleBlockchainInfo) (seen : List Int) (v : TaskRequestValidation) : Prop where
  onlyRefuses : OnlyRefuses (do v.validateParams; v.validateTurn)
  waited : v.validateParams = .ok () → v.validateTurn = .ok () →
    ∃ block ∈ seen, v.turnConfiguration.pricePublishBlocks + 1 ≤ vi.blockNum - block

section Requests
variable {v : TaskRequestValidation} {first : String} {rest : List String}

theorem validateTurn_eq (known : v.blockchainInfo = some vi)
    (order : selectNextAddresses vi.lastPubBlockHash vi.selectedOracles = .ok (first :: rest)) (fallback : first ≠ v.params.oracleAddr) :
    v.validateTurn = (do
      let verdict ← ofPython (TasksOracleTurn.isOracleTurnWithMsg v.turnConfiguration vi v.params.oracleAddr (first :: rest)
        v.areTasksAvailable v.lastBlockWhenAvailable false)
      refuseIf (verdict.isTurn = false) (.invalidTurn v.params.oracleAddr verdict)) := by
  rw [TaskRequestValidation.validateTurn, known]
  simp only [validateTurn_fallback order fallback]

/-- The turn check has a block to count from wherever it needs one. -/
theorem validateTurn_onlyRefuses (known : v.blockchainInfo = some vi)
    (order : selectNextAddresses vi.lastPubBlockHash vi.selectedOracles = .ok (first :: rest)) (fallback : first ≠ v.params.oracleAddr)
    (counts : isOracleSelectedInRound vi.selectedOracles v.params.oracleAddr = true → v.lastBlockWhenAvailable ≠ none) :
    OnlyRefuses v.validateTurn := by
  rw [validateTurn_eq known order fallback]
  obtain ⟨verdict, answered⟩ : ∃ verdict, TasksOracleTurn.isOracleTurnWithMsg v.turnConfiguration vi v.params.oracleAddr (first :: rest)
      v.areTasksAvailable v.lastBlockWhenAvailable false = .ok verdict := by
    cases listed : isOracleSelectedInRound vi.selectedOracles v.params.oracleAddr with
    | true => exact isOracleTurnWithMsg_ok fun _ => counts listed
    | false =>
      cases v.areTasksAvailable with
      | true => exact ⟨_, isOracleTurnWithMsg_unlisted listed⟩
      | false => exact ⟨_, rfl⟩
  rw [answered]
  exact OnlyRefuses.bind ok_onlyRefuses fun _ _ => refuseIf_onlyRefuses

private theorem waited_of_validateTurn (known : v.blockchainInfo = some vi)
    (order : selectNextAddresses vi.lastPubBlockHash vi.selectedOracles = .ok (first :: rest)) (fallback : first ≠ v.params.oracleAddr)
    (accepted : v.validateTurn = .ok ()) : ∃ since, isOracleSelectedInRound vi.selectedOracles v.params.oracleAddr = true ∧
      v.lastBlockWhenAvailable = some since ∧ v.turnConfiguration.pricePublishBlocks + 1 ≤ vi.blockNum - since := by
  rw [validateTurn_eq known order fallback, bind_eq_ok_iff] at accepted
  obtain ⟨verdict, answered, passed⟩ := accepted
  rw [ofPython_eq_ok_iff] at answered
  rw [refuseIf_eq_ok_iff, Bool.not_eq_false] at passed
  obtain ⟨-, since, started, waited⟩ := fallback_waited answered passed fallback
  exact ⟨since, (listed_of_granted answered passed).2, started, waited⟩

end Requests

/-- The requester is not the first of the order, whether there is one or not. -/
def IsFallback (vi : OracleBlockchainInfo) (oracleAddr : String) : Prop :=
  ∀ first rest, selectNextAddresses vi.lastPubBlockHash vi.selectedOracles = .ok (first :: rest) → first ≠ oracleAddr

/-- What the turn check of a request relies on. For an oracle of the round, the last round of the node's
loop saw tasks, and no request has found none since the loop began to see them. -/
structure Ready (runner : TasksRunner) (events : List Event) (vi : OracleBlockchainInfo) (oracleAddr : String) : Prop where
  selection : vi.selectedOracles ≠ []
  few : vi.selectedOracles.length ≤ 32
  unbroken : isOracleSelectedInRound vi.selectedOracles oracleAddr = true → watched runner events = .unbroken

private theorem order_of_selection (selection : vi.selectedOracles ≠ []) (few : vi.selectedOracles.length ≤ 32) :
    ∃ first rest, selectNextAddresses vi.lastPubBlockHash vi.selectedOracles = .ok (first :: rest) := by
  obtain ⟨addresses, selected⟩ := selectNextAddresses_ok vi.lastPubBlockHash few
  have same : addresses.length = vi.selectedOracles.length := by
    rw [(selectNextAddresses_perm selected).length_eq, List.length_map]
  cases addresses with
  | nil => exact absurd (List.length_eq_zero_iff.mp same.symm) selection
  | cons first rest => exact ⟨first, rest, selected⟩

private theorem available_of_validateParams {v : TaskRequestValidation} (accepted : v.validateParams = .ok ()) :
    v.areTasksAvailable = true := by
  unfold TaskRequestValidation.validateParams at accepted
  split at accepted
  · exact absurd accepted refuse_ne_ok
  · simp only [bind_eq_ok_iff, refuseIf_eq_ok_iff] at accepted
    obtain ⟨_, available, _⟩ := accepted
    simpa using available

theorem fallback_request_handled (events : List Event) (fallback : IsFallback vi params.oracleAddr)
    (ready : (requestValidator runner disableFallbacks events tasks vi params).validateParams = .ok () →
      Ready runner events vi params.oracleAddr) :
    Handled vi (sightings runner (events ++ [.request tasks vi params])) (requestValidator runner disableFallbacks events tasks vi params) := by
  have counted : Counted (watched runner events) (sightings runner events) (lastBlockAfter runner disableFallbacks events) :=
    counted_after events
  constructor
  · apply OnlyRefuses.bind (validateParams_onlyRefuses rfl)
    intro _ accepted
    obtain ⟨selection, few, unbroken⟩ := ready accepted
    obtain ⟨first, rest, order⟩ := order_of_selection selection few
    apply validateTurn_onlyRefuses (v := requestValidator runner disableFallbacks events tasks vi params) rfl order
      (fallback first rest order)
    intro listed
    rw [unbroken listed] at counted
    obtain ⟨block, -, started⟩ := counted
    exact fun missing => by simp [requestValidator, TasksRunner.createValidator, facing, started] at missing
  · intro accepted turn
    obtain ⟨selection, few, unbroken⟩ := ready accepted
    obtain ⟨first, rest, order⟩ := order_of_selection selection few
    obtain ⟨since, listed, started, waited⟩ := waited_of_validateTurn (v := requestValidator runner disableFallbacks events tasks vi params)
      rfl order (fallback first rest order) turn
    rw [unbroken listed] at counted
    obtain ⟨block, member, same⟩ := counted
    obtain rfl := Option.some.inj (started.symm.trans same)
    have seen : sees runner (.request tasks vi params) = true := available_of_validateParams accepted
    refine ⟨since, ?_, waited⟩
    rw [sightings_append, seen, if_pos rfl]
    exact List.mem_append_right _ member

/-! A pair of tasks with two oracles, of which the last publication's hash chooses the first. -/

def chosenAddr : Address := ⟨"0x00000000000000000000000000000000000000a1", by decide⟩

def fallbackAddr : Address := ⟨"0x00000000000000000000000000000000000000b2", by decide⟩

def tasksThere : TasksState := ⟨true, 7, []⟩

def noTasks : TasksState := ⟨false, 0, []⟩

def tasksOracles : List FullOracleRoundInfo :=
  [⟨chosenAddr, "http://a1:5556", 10, chosenAddr, 0, true, 1⟩, ⟨fallbackAddr, "http://b2:5556", 10, fallbackAddr, 0, true, 1⟩]

def tasksInfo (blockNum lastPubBlock : Int) : OracleBlockchainInfo :=
  { coinPair := ⟨"TASKS"⟩, blockchainPrice := 0, blockNum, lastPubBlock, lastPubBlockHash := List.replicate 32 1
    selectedOracles := tasksOracles, validPricePeriodInBlocks := 300 }

def nobodySelected : OracleBlockchainInfo := { tasksInfo 202 190 with selectedOracles := [] }

theorem tasksOracles_order : selectNextAddresses (List.replicate 32 1) tasksOracles = .ok [chosenAddr.text, fallbackAddr.text] := by
  decide +kernel

def tasksRunner : TasksRunner where
  conf :=
    { turn := ⟨1 / 20, 1, [2, 4, 6, 8, 10], 30⟩, oraclePriceRejectDeltaPct := 50, priceSignatureExpirationSeconds := 300
      priceSignatureMinValiditySeconds := 30, priceSignatureMaxValiditySeconds := 600, taskMessageVersion := 3 }
  coinPair := ⟨"TASKS"⟩
  signal := .disabled
  lastBlockWhenAvailable := initialBlock
  ignorePossiblyStuckTasks := []
  areTasksAvailable := false
  tasksAvailableAsFlags := 0
  tasksAvailable := []
  blockchainInfo := none

def fallbackParams (lastPubBlock : Int) : PublishTaskParams :=
  { version := 3, coinPair := ⟨"TASKS"⟩, tasksFlags := 7, oracleAddr := fallbackAddr.text, lastPubBlock }

private theorem isFallback_tasksInfo (blockNum lastPubBlock : Int) : IsFallback (tasksInfo blockNum lastPubBlock) fallbackAddr.text := by
  intro first rest order
  obtain ⟨rfl, -⟩ := List.cons.inj (Except.ok.inj (tasksOracles_order.symm.trans order))
  decide

theorem fallback_request_handled_in_time :
    Handled (tasksInfo 202 190)
      (sightings tasksRunner [.poll tasksThere (tasksInfo 200 190) signerAddr.text,
        .request tasksThere (tasksInfo 202 190) (fallbackParams 190)])
      (requestValidator tasksRunner false [.poll tasksThere (tasksInfo 200 190) signerAddr.text] tasksThere (tasksInfo 202 190)
        (fallbackParams 190)) := by
  apply fallback_request_handled [.poll tasksThere (tasksInfo 200 190) signerAddr.text] (isFallback_tasksInfo 202 190)
  exact fun _ => ⟨by decide, by decide, fun _ => rfl⟩

/-- Before the node's first round the count starts at block 0, and the request is
accepted; after a round without tasks there is no count, and the check fails. It
fails too where no oracle is selected, whatever the node has seen. -/
theorem request_before_poll :
    (IsFallback (tasksInfo 200 190) fallbackAddr.text ∧ IsFallback (tasksInfo 202 190) fallbackAddr.text ∧
      IsFallback nobodySelected fallbackAddr.text) ∧
    ¬Handled (tasksInfo 200 190) (sightings tasksRunner [.request tasksThere (tasksInfo 200 190) (fallbackParams 190)])
      (requestValidator tasksRunner false [] tasksThere (tasksInfo 200 190) (fallbackParams 190)) ∧
    ¬Handled (tasksInfo 202 190)
      (sightings tasksRunner [.poll noTasks (tasksInfo 200 190) signerAddr.text, .request tasksThere (tasksInfo 202 190) (fallbackParams 190)])
      (requestValidator tasksRunner false [.poll noTasks (tasksInfo 200 190) signerAddr.text] tasksThere (tasksInfo 202 190)
        (fallbackParams 190)) ∧
    ¬Handled nobodySelected
      (sightings tasksRunner [.poll tasksThere (tasksInfo 200 190) signerAddr.text, .request tasksThere nobodySelected (fallbackParams 190)])
      (requestValidator tasksRunner false [.poll tasksThere (tasksInfo 200 190) signerAddr.text] tasksThere nobodySelected
        (fallbackParams 190)) := by
  refine ⟨⟨isFallback_tasksInfo 200 190, isFallback_tasksInfo 202 190, ?_⟩, ?_, ?_, ?_⟩
  · intro first rest order
    cases order
  · intro handled
    obtain ⟨block, member, waited⟩ := handled.waited (by decide +kernel) (by decide +kernel)
    obtain rfl : block = 200 := List.mem_singleton.mp member
    exact absurd waited (by decide)
  · intro handled
    exact handled.onlyRefuses .typeError (by decide +kernel)
  · intro handled
    exact handled.onlyRefuses .indexError (by decide +kernel)

end OmocNode.Proofs.TaskAvailability
