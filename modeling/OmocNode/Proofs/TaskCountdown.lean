import OmocNode.Proofs.TaskAvailability

/-! From where a node counts the blocks before a fallback may run a task. The
count starts with the tasks and not with their last publication, which may come
later while there are still tasks. -/

namespace OmocNode.Proofs.TaskCountdown
open TaskEvents TaskTurns TaskAvailability SelectNext OracleTurn Outcomes

variable {runner : TasksRunner} {disableFallbacks : Bool} {events : List Event} {tasks : TasksState} {vi : OracleBlockchainInfo}
  {oracleAddr : String}

def pollBlocks (events : List Event) : List Int :=
  events.filterMap fun event => match event with
    | .poll _ blockchainInfo _ => some blockchainInfo.blockNum
    | .request .. => none

/-- The block of the first round of the loop since which every round has seen tasks. -/
def availableSince (runner : TasksRunner) (events : List Event) : Option Int :=
  events.foldl (fun since event => match event with
    | .poll _ blockchainInfo _ => if sees runner event then some (since.getD blockchainInfo.blockNum) else none
    | .request .. => since) none

@[simp] theorem availableSince_poll : availableSince runner (events ++ [.poll tasks vi oracleAddr]) =
    if sees runner (.poll tasks vi oracleAddr) then some ((availableSince runner events).getD vi.blockNum) else none :=
  List.foldl_concat ..

@[simp] theorem availableSince_request {blockchainInfo : Option OracleBlockchainInfo} {params : PublishTaskParams} :
    availableSince runner (events ++ [.request tasks blockchainInfo params]) = availableSince runner events := List.foldl_concat ..

/-- The count starts no earlier than that round, and after a round without tasks it starts anew. -/
def StartsLater (blocks : List Int) (first since : Option Int) : Prop :=
  match first with
  | none => since = none ∨ since = some 0
  | some block => block ∈ blocks ∧ ∃ start, since = some start ∧ block ≤ start

private theorem startsLater_poll {blocks : List Int} {first since : Option Int} (rising : ∀ block ∈ blocks, block ≤ vi.blockNum)
    (starts : StartsLater blocks first since) : StartsLater (blocks ++ [vi.blockNum])
      (if sees runner (.poll tasks vi oracleAddr) then some (first.getD vi.blockNum) else none)
      (observe runner disableFallbacks since (.poll tasks vi oracleAddr)) := by
  cases sighted : sees runner (.poll tasks vi oracleAddr) with
  | false =>
    rw [observe_poll_away sighted]
    exact .inl rfl
  | true =>
    rw [observe_poll_seen sighted, if_pos rfl]
    cases first with
    | none =>
      refine ⟨by simp, vi.blockNum, ?_, le_refl _⟩
      rcases starts with rfl | rfl <;> rfl
    | some block =>
      obtain ⟨member, start, rfl, later⟩ := starts
      refine ⟨List.mem_append_left _ member, ?_⟩
      by_cases zero : start = 0
      · subst zero
        exact ⟨vi.blockNum, rfl, rising block member⟩
      · refine ⟨start, ?_, later⟩
        simp [Option.filter, zero]

private theorem startsLater_after (events : List Event) (rising : (pollBlocks events).Pairwise (· ≤ ·)) :
    StartsLater (pollBlocks events) (availableSince runner events) (lastBlockAfter runner disableFallbacks events) := by
  induction events using List.reverseRecOn with
  | nil => exact .inr rfl
  | append_singleton events event ih =>
    rw [lastBlock_append]
    cases event with
    | poll tasks vi oracleAddr =>
      have blocks : pollBlocks (events ++ [.poll tasks vi oracleAddr]) = pollBlocks events ++ [vi.blockNum] := List.filterMap_append
      rw [blocks, List.pairwise_append] at rising
      rw [blocks, availableSince_poll]
      apply startsLater_poll _ (ih rising.1)
      intro block member
      exact rising.2.2 block member vi.blockNum (List.mem_singleton_self _)
    | request tasks blockchainInfo params =>
      have blocks : pollBlocks (events ++ [.request tasks blockchainInfo params]) = pollBlocks events := by
        rw [pollBlocks, List.filterMap_append]
        exact List.append_nil _
      rw [blocks] at rising ⊢
      rw [availableSince_request]
      exact ih rising

/-- A turn comes from the check on an order of oracles, while there are tasks. -/
theorem pollAnswer_granted {addresses : List String}
    (granted : pollAnswer runner disableFallbacks events tasks vi oracleAddr = .ok (true, some (true, addresses))) :
    sees runner (.poll tasks vi oracleAddr) = true ∧ ∃ verdict,
      selectNextAddresses vi.lastPubBlockHash vi.selectedOracles = .ok addresses ∧ verdict.isTurn = true ∧
      TasksOracleTurn.isOracleTurnWithMsg runner.conf.turn vi oracleAddr addresses true
        (lastBlockAfter runner disableFallbacks (events ++ [.poll tasks vi oracleAddr])) disableFallbacks = .ok verdict := by
  rw [lastBlock_append]
  cases sighted : sees runner (.poll tasks vi oracleAddr) with
  | false =>
    rw [sees] at sighted
    simp [pollAnswer, TasksRunner.isOracleTurn, facing_state, sighted] at granted
  | true =>
    rw [observe_poll_seen sighted]
    rw [sees] at sighted
    simp only [pollAnswer, TasksRunner.isOracleTurn, facing_state, sighted, Bool.not_true, Bool.false_eq_true, if_false,
      map_eq_ok_iff] at granted
    obtain ⟨turn, answered, same⟩ := granted
    obtain rfl : turn = (true, addresses) := Option.some.inj (Prod.mk.inj same).2
    obtain ⟨order, selected, rest⟩ := bind_eq_ok_iff.mp answered
    obtain ⟨verdict, checked, result⟩ := bind_eq_ok_iff.mp rest
    obtain ⟨isTurn, rfl⟩ := Prod.mk.inj (Except.ok.inj result)
    exact ⟨rfl, verdict, selected, isTurn, checked⟩

/-- As long as no publication has come since the tasks were seen, a fallback waits for the last one too. -/
theorem fallback_waits_since_publication {first : String} {rest addresses : List String}
    (rising : (pollBlocks (events ++ [.poll tasks vi oracleAddr])).Pairwise (· ≤ ·))
    (order : selectNextAddresses vi.lastPubBlockHash vi.selectedOracles = .ok (first :: rest)) (fallback : first ≠ oracleAddr)
    (notSince : ∀ block, availableSince runner (events ++ [.poll tasks vi oracleAddr]) = some block → vi.lastPubBlock ≤ block)
    (granted : pollAnswer runner disableFallbacks events tasks vi oracleAddr = .ok (true, some (true, addresses))) :
    runner.conf.turn.pricePublishBlocks + 1 ≤ vi.blockNum - vi.lastPubBlock := by
  obtain ⟨sighted, verdict, selected, isTurn, checked⟩ := pollAnswer_granted granted
  rw [order] at selected
  obtain rfl := Except.ok.inj selected
  obtain ⟨-, since, started, waited⟩ := fallback_waited checked isTurn fallback
  have starts : StartsLater _ _ (lastBlockAfter runner disableFallbacks (events ++ [.poll tasks vi oracleAddr])) :=
    startsLater_after (events ++ [.poll tasks vi oracleAddr]) rising
  cases seen : availableSince runner (events ++ [.poll tasks vi oracleAddr]) with
  | none => simp [sighted] at seen
  | some block =>
    rw [seen, started] at starts
    obtain ⟨-, start, same, later⟩ := starts
    obtain rfl := Option.some.inj same
    have published := notSince block seen
    omega

/-- The chain at block 10, when the publication before was the last one. -/
def earlierInfo : OracleBlockchainInfo := { tasksInfo 10 5 with lastPubBlockHash := List.replicate 32 2 }

theorem fallback_waits_since_publication_twice :
    pollAnswer tasksRunner false [.poll tasksThere earlierInfo fallbackAddr.text] tasksThere (tasksInfo 13 8) fallbackAddr.text =
      .ok (true, some (true, [chosenAddr.text, fallbackAddr.text])) ∧
    tasksRunner.conf.turn.pricePublishBlocks + 1 ≤ (tasksInfo 13 8).blockNum - (tasksInfo 13 8).lastPubBlock := by
  have granted : pollAnswer tasksRunner false [.poll tasksThere earlierInfo fallbackAddr.text] tasksThere (tasksInfo 13 8)
      fallbackAddr.text = .ok (true, some (true, [chosenAddr.text, fallbackAddr.text])) := by decide +kernel
  refine ⟨granted, fallback_waits_since_publication (by decide) tasksOracles_order (by decide) ?_ granted⟩
  intro block since
  obtain rfl := Option.some.inj since
  decide

/-- The tasks are published in block 12, are still there in block 13, and a
fallback has its turn at once. -/
theorem fallback_granted_after_publication :
    pollAnswer tasksRunner false [.poll tasksThere earlierInfo fallbackAddr.text] tasksThere (tasksInfo 13 12) fallbackAddr.text =
      .ok (true, some (true, [chosenAddr.text, fallbackAddr.text])) ∧
    selectNextAddresses (tasksInfo 13 12).lastPubBlockHash (tasksInfo 13 12).selectedOracles = .ok [chosenAddr.text, fallbackAddr.text] ∧
    ¬tasksRunner.conf.turn.pricePublishBlocks + 1 ≤ (tasksInfo 13 12).blockNum - (tasksInfo 13 12).lastPubBlock :=
  ⟨by decide +kernel, tasksOracles_order, by decide⟩

end OmocNode.Proofs.TaskCountdown
