import OmocNode.ConditionalPublish
import OmocNode.Proofs.StateFrame
import Mathlib.Logic.Basic

/-! What a read of the signal's state records. A switch is seen by comparing with
the state read before, and a read made without data counts there as an answer. -/

namespace OmocNode.Proofs.StateSwitches
open StateFrame ConditionalPublishService

/-- The state a read finds: nothing is pending, nobody forces, and there is data. -/
def unneeded (service : ConditionalPublishService) : Bool :=
  service.isRunning && !(service.baseConditionActive || service.forcePublish)

/-- The service after a read. -/
def settled (service : ConditionalPublishService) : ConditionalPublishService :=
  { service with
    lastOnlineBlock :=
      if service.lastOfflineCfg && !unneeded service then service.lastBlock.getD service.lastOnlineBlock
      else service.lastOnlineBlock
    lastOfflineBlock :=
      if !service.lastOfflineCfg && unneeded service then service.lastBlock.getD service.lastOfflineBlock
      else service.lastOfflineBlock
    lastOfflineCfg := unneeded service }

theorem offlineCfg_eq (service : ConditionalPublishService) : service.offlineCfg = (unneeded service, settled service) := by
  cases running : service.lastBlock with
  | none => simp [offlineCfg, unneeded, settled, isRunning, running]
  | some block =>
    cases previous : service.lastOfflineCfg <;> cases condition : service.baseConditionActive || service.forcePublish <;>
      simp [offlineCfg, unneeded, settled, isRunning, running, previous, condition]

@[simp] theorem unneeded_recorded (service : ConditionalPublishService) (online offline : Nat) (cfg : Bool) :
    unneeded { service with lastOnlineBlock := online, lastOfflineBlock := offline, lastOfflineCfg := cfg } =
      unneeded service := rfl

/-- A second read changes nothing more. -/
@[simp] theorem settled_settled (service : ConditionalPublishService) : settled (settled service) = settled service := by
  cases state : unneeded service <;> simp [settled, state]

private theorem lift_preserves {α : Type} {Invariant : ConditionalPublishService → Prop} (outcome : Except PyError α) :
    Preserves Invariant (syncFetch.lift outcome) := by
  cases outcome with
  | ok value => exact .pure value
  | error failure => exact .throw failure

/-- A fetch leaves alone what the reads record. -/
theorem syncFetch_preserves (answers : FetchAnswers) (recorded : Bool × Nat × Nat) :
    Preserves (fun service => (service.lastOfflineCfg, service.lastOnlineBlock, service.lastOfflineBlock) = recorded)
      (syncFetch answers) := by
  unfold syncFetch
  refine .bind .get ?_
  intro service
  dsimp only
  split
  · exact .modify fun _ same => same
  · refine .bind (.modify fun _ same => same) ?_
    intro _
    refine .bind (lift_preserves _) ?_
    intro results
    refine .bind (.modify fun _ same => same) ?_
    intro _
    refine .bind (lift_preserves _) ?_
    intro active
    refine .bind ?_ ?_
    · apply Preserves.modifyGet
      intro state same
      unfold syncFetch.fetchForcePublish
      split <;> exact same
    · exact fun _ => .modify fun _ same => same

/-- What happens to the service in any order: fetches, whatever they are answered, and reads. -/
inductive Event
  | fetch (answers : FetchAnswers)
  | offlineCfg

/-- The service with the last answer a read gave while there was data, and
whether a read without data came after it. -/
structure History where
  service : ConditionalPublishService
  answered : Option Bool
  dropped : Bool

def step (history : History) : Event → History
  | .fetch answers => { history with service := finalState (syncFetch answers) history.service }
  | .offlineCfg =>
    let (out, service) := history.service.offlineCfg
    if history.service.isRunning then ⟨service, some out, false⟩ else { history with service, dropped := true }

def reached (service : ConditionalPublishService) (events : List Event) : History := events.foldl step ⟨service, none, false⟩

/-- A read made now, if there is data, leaves the current block recorded for the switch it answers. -/
def SwitchRecorded (history : History) : Prop :=
  ∀ block, history.service.lastBlock = some block →
    (history.service.offlineCfg.1 = false → history.answered = some true →
      history.service.offlineCfg.2.lastOnlineBlock = block) ∧
    (history.service.offlineCfg.1 = true → history.answered ≠ some true →
      history.service.offlineCfg.2.lastOfflineBlock = block)

/-- Between the last answer `True` and a block at which the price is needed
again, no read came without data; or that block is the recorded one already. -/
def SwitchSeen (history : History) : Prop :=
  ∀ block, history.service.lastBlock = some block → (history.service.baseConditionActive || history.service.forcePublish) →
    history.answered = some true → history.dropped = true → history.service.lastOnlineBlock = block

/-- The state a read compares with is the last answer, unless a read without data came after it. -/
def Tracks (history : History) : Prop :=
  history.service.lastOfflineCfg = (history.answered == some true && !history.dropped)

private theorem step_preserves (history : History) (event : Event) (valid : Tracks history) : Tracks (step history event) := by
  cases event with
  | fetch answers =>
    have kept := congrArg Prod.fst (syncFetch_preserves answers _ history.service rfl)
    exact kept.trans valid
  | offlineCfg =>
    simp only [step, offlineCfg_eq, Tracks]
    cases running : history.service.isRunning
    · simp [settled, unneeded, running]
    · simp [settled]

/-- What the constructor makes, where the configuration passes its checks. -/
theorem init_ok {ccfg : ConditionalConfig} {service : ConditionalPublishService}
    (created : ConditionalPublishService.init ccfg = .ok service) :
    service.cfg = ccfg ∧ service.lastOfflineCfg = false := by
  rw [ConditionalPublishService.init] at created
  split at created
  · cases created
  · split at created
    · cases created
    · obtain rfl := Except.ok.inj created
      exact ⟨rfl, rfl⟩

private theorem tracks_reached {ccfg : ConditionalConfig} {service : ConditionalPublishService}
    (created : ConditionalPublishService.init ccfg = .ok service) (events : List Event) : Tracks (reached service events) := by
  apply run_preserves step_preserves events
  exact (init_ok created).2

private theorem recorded_iff_seen {history : History} (valid : Tracks history) :
    SwitchRecorded history ↔ SwitchSeen history := by
  unfold SwitchRecorded SwitchSeen
  apply forall₂_congr
  intro block running
  have data : history.service.isRunning = true := by simp [isRunning, running]
  rw [Tracks] at valid
  simp only [offlineCfg_eq, settled, unneeded, valid, data, running]
  cases needed : history.service.baseConditionActive || history.service.forcePublish <;>
    rcases history.answered with _ | (_ | _) <;> cases history.dropped <;> simp

/-- Every switch of a run is recorded exactly when each is seen by a read made with data. -/
theorem switches_recorded_iff (ccfg : ConditionalConfig) (service : ConditionalPublishService)
    (created : ConditionalPublishService.init ccfg = .ok service) (events : List Event) :
    (∀ before after, events = before ++ Event.offlineCfg :: after → SwitchRecorded (reached service before)) ↔
    (∀ before after, events = before ++ Event.offlineCfg :: after → SwitchSeen (reached service before)) :=
  forall₃_congr fun before _ _ => recorded_iff_seen (tracks_reached created before)

/-- A pair whose price is needed while one queue has operations pending. -/
def queueEnvironment : Environment :=
  { oracleOfflineCfg := some "true", mocV3QueueIsEmpty := "0x00000000000000000000000000000000000000cc",
    mocV3ShouldCalculateEma := "", mocV3TcInterestPayment := "", mocV3SettlementTime := "", mocQueue := "",
    mocBaseBucket := "", mocEma := "", multicallAddr := some "0x00000000000000000000000000000000000000dd",
    priceDeltaPctNeed := none, oraclePricePublishBlocksNeed := none, priceDeltaPctUnneed := some 10,
    oraclePricePublishBlocksUnneed := none }

def queueConfig : ConditionalConfig := .init queueEnvironment

def queueService : ConditionalPublishService :=
  { cfg := queueConfig, lastValue := none, lastBlock := none, baseConditionActive := true, forcePublish := false,
    lastOnlineBlock := 0, lastOfflineBlock := 0, lastOfflineCfg := false }

/-- One fetch of the queue's state, at a block. -/
def queueAnswers (isEmpty : Bool) (block : Nat) : FetchAnswers :=
  { toChecksumAddress := some, multicall := fun calls => .ok (calls.map fun _ => some (.bool isEmpty), block),
    blockTimestamp := .ok, endpoint := .failed }

def failedAnswers : FetchAnswers := { queueAnswers true 0 with multicall := fun _ => .error .timeoutError }

theorem switches_recorded_iff_queue :
    ConditionalPublishService.init queueConfig = .ok queueService ∧
    ((∀ before after, [.fetch (queueAnswers true 10), .offlineCfg] = before ++ Event.offlineCfg :: after →
      SwitchRecorded (reached queueService before)) ↔
    (∀ before after, [.fetch (queueAnswers true 10), .offlineCfg] = before ++ Event.offlineCfg :: after →
      SwitchSeen (reached queueService before))) := by
  have created : ConditionalPublishService.init queueConfig = .ok queueService := by decide +kernel
  exact ⟨created, switches_recorded_iff queueConfig queueService created _⟩

/-- The queue is empty at block 10 and full at block 20. A failed fetch and a read between them hide the switch. -/
theorem hidden_switch_not_recorded :
    ConditionalPublishService.init queueConfig = .ok queueService ∧
    ¬∀ before after, [.fetch (queueAnswers true 10), .offlineCfg, .fetch failedAnswers, .offlineCfg,
        .fetch (queueAnswers false 20), .offlineCfg] = before ++ Event.offlineCfg :: after →
      SwitchRecorded (reached queueService before) := by
  refine ⟨by decide +kernel, ?_⟩
  intro recorded
  have last := recorded [.fetch (queueAnswers true 10), .offlineCfg, .fetch failedAnswers, .offlineCfg,
    .fetch (queueAnswers false 20)] [] rfl 20 rfl
  exact absurd (last.1 rfl rfl) (by decide)

end OmocNode.Proofs.StateSwitches
