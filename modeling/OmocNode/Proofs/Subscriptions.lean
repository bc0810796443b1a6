import OmocNode.Proofs.PairIsolation

/-! Which pairs count as subscribed. Every answer of the contract is tested for
truth, and an error value is as true as the answer true. -/

namespace OmocNode.Proofs.Subscriptions
open OracleLoop OracleService BlockchainInfo StateFrame Outcomes Reconciliation PairIsolation

section List
variable {manager : OracleManagerService} {filter : List String} {addr : Reply String}

/-- The `is_subscribed` call about a listed service, with its position. -/
def call (manager : OracleManagerService) (addr : Reply String) (asked : OracleCoinPairService × Nat) :
    Except PyError (Reply Bool) :=
  manager.askSubscribed asked.2 asked.1.coinPair addr

def answeredTrue : Except PyError (Reply Bool) → Bool
  | .ok (.ok answer) => answer
  | _ => false

def passesTest : Except PyError (Reply Bool) → Bool
  | .ok answer => answer.truthy
  | .error _ => false

/-- The listed services whose subscription the contract answered with true. -/
def confirmed (manager : OracleManagerService) (addr : Reply String) (services : List OracleCoinPairService) :
    List OracleCoinPairService :=
  (services.zipIdx.filter fun asked => answeredTrue (call manager addr asked)).map Prod.fst

/-- A list that is returned has the confirmed services, of those that pass the filter. -/
def ExactlyConfirmed (manager : OracleManagerService) (filter : List String) (addr : Reply String) : Prop :=
  ∀ subscribed, getSubscribedCoinPairServices manager filter addr = .ok (.ok subscribed) →
    ∃ listed, getAllCoinPairServices manager filter = .ok (.ok listed) ∧ subscribed = confirmed manager addr listed

/-- No subscription of a pair that passes the filter is asked in vain. -/
def NoFailedCall (manager : OracleManagerService) (filter : List String) (addr : Reply String) : Prop :=
  ∀ listed, getAllCoinPairServices manager filter = .ok (.ok listed) →
    ∀ asked ∈ listed.zipIdx, ∀ err, call manager addr asked ≠ .ok (.error err)

private theorem longer_of_mem {coinPairs : List (CoinPair × Nat)} {services : List OracleCoinPairService}
    (found : coinPairServices manager coinPairs = .ok (.ok services)) {service : OracleCoinPairService}
    (member : service ∈ services) : ∃ pair, service.coinPair.longer = .ok pair := by
  induction coinPairs generalizing services with
  | nil =>
    cases found
    cases member
  | cons first coinPairs ih =>
    obtain ⟨coinPair, position⟩ := first
    obtain ⟨reply, here, found⟩ := bind_eq_ok_iff.mp found
    obtain ⟨pair, longer, same⟩ := bind_eq_ok_iff.mp here
    cases reply with
    | error err => cases found
    | ok head =>
      obtain ⟨rest, later, found⟩ := bind_eq_ok_iff.mp found
      obtain ⟨tail, read, rfl⟩ := map_eq_ok_iff.mp (pure_eq_ok_iff.mp found)
      rcases List.mem_cons.mp member with rfl | behind
      · obtain ⟨address, _, rfl⟩ := map_eq_ok_iff.mp (pure_eq_ok_iff.mp same)
        exact ⟨pair, longer⟩
      · exact ih (later.trans (congrArg _ read)) behind

private theorem call_answered {listed : List OracleCoinPairService} (found : getAllCoinPairServices manager filter = .ok (.ok listed))
    {asked : OracleCoinPairService × Nat} (member : asked ∈ listed.zipIdx) : ∃ answer, call manager addr asked = .ok answer := by
  obtain ⟨reply, _, found⟩ := bind_eq_ok_iff.mp found
  cases reply with
  | error err => cases found
  | ok coinPairs =>
    obtain ⟨all, collected, found⟩ := bind_eq_ok_iff.mp found
    obtain ⟨services, rfl, rfl⟩ := map_eq_ok_iff.mp (pure_eq_ok_iff.mp found)
    have kept : asked.1 ∈ services := by
      have passed := List.fst_mem_of_mem_zipIdx member
      rw [applyFilter] at passed
      split at passed
      · exact (List.mem_filter.mp passed).1
      · exact passed
    obtain ⟨pair, longer⟩ := longer_of_mem collected kept
    exact ⟨_, by rw [call, OracleManagerService.askSubscribed, longer]; rfl⟩

theorem subscribedServices_eq {services : List (OracleCoinPairService × Nat)}
    (answered : ∀ asked ∈ services, ∃ answer, call manager addr asked = .ok answer) :
    subscribedServices manager addr services =
      .ok ((services.filter fun asked => passesTest (call manager addr asked)).map Prod.fst) := by
  induction services with
  | nil => rfl
  | cons asked services ih =>
    obtain ⟨answer, here⟩ := answered asked List.mem_cons_self
    have later := ih fun other member => answered other (List.mem_cons_of_mem _ member)
    rw [call] at here
    simp only [subscribedServices, here, later, bind, Except.bind, pure, Except.pure, List.filter_cons, call, passesTest]
    split <;> rfl

/-- The list that is returned has every service whose answer is true or an error value. -/
theorem getSubscribedCoinPairServices_eq {listed : List OracleCoinPairService}
    (found : getAllCoinPairServices manager filter = .ok (.ok listed)) :
    getSubscribedCoinPairServices manager filter addr =
      .ok (.ok ((listed.zipIdx.filter fun asked => passesTest (call manager addr asked)).map Prod.fst)) := by
  simp only [getSubscribedCoinPairServices, found, bind, Except.bind, pure, Except.pure,
    subscribedServices_eq fun asked member => call_answered found member]

private theorem listed_of_subscribed {subscribed : List OracleCoinPairService}
    (returned : getSubscribedCoinPairServices manager filter addr = .ok (.ok subscribed)) :
    ∃ listed, getAllCoinPairServices manager filter = .ok (.ok listed) := by
  obtain ⟨reply, found, returned⟩ := bind_eq_ok_iff.mp returned
  cases reply with
  | error err => cases pure_eq_ok_iff.mp returned
  | ok listed => exact ⟨listed, found⟩

private theorem passesTest_of_answeredTrue {answer : Except PyError (Reply Bool)} (confirms : answeredTrue answer = true) :
    passesTest answer = true := by
  rcases answer with failure | _ | value
  · cases confirms
  · cases confirms
  · exact confirms

theorem exactlyConfirmed_iff : ExactlyConfirmed manager filter addr ↔ NoFailedCall manager filter addr := by
  constructor
  · intro exact listed found asked member err failed
    obtain ⟨same, found', equal⟩ := exact _ (getSubscribedCoinPairServices_eq found)
    rw [found] at found'
    cases found'
    -- The confirmed services are among those that pass the test. As many as these, they are the same.
    have fewer : (listed.zipIdx.filter fun asked => answeredTrue (call manager addr asked)).Sublist
        (listed.zipIdx.filter fun asked => passesTest (call manager addr asked)) :=
      List.monotone_filter_right _ fun _ => passesTest_of_answeredTrue
    have length := congrArg List.length equal
    rw [confirmed, List.length_map, List.length_map] at length
    have passes : asked ∈ listed.zipIdx.filter fun asked => passesTest (call manager addr asked) :=
      List.mem_filter.mpr ⟨member, by rw [failed]; rfl⟩
    rw [← fewer.eq_of_length length.symm, List.mem_filter, failed] at passes
    cases passes.2
  · intro unfailing subscribed returned
    obtain ⟨listed, found⟩ := listed_of_subscribed returned
    rw [getSubscribedCoinPairServices_eq found] at returned
    cases returned
    refine ⟨listed, found, congrArg (List.map Prod.fst) (List.filter_congr fun asked member => ?_)⟩
    obtain ⟨answer, here⟩ := @call_answered manager filter addr listed found asked member
    cases answer with
    | error err => exact absurd here (unfailing listed found asked member err)
    | ok value => rw [here]; rfl

/-- A pair whose subscription the contract answered with true. -/
def Confirmed (manager : OracleManagerService) (filter : List String) (addr : Reply String) (key : String) : Prop :=
  ∃ listed, getAllCoinPairServices manager filter = .ok (.ok listed) ∧ ∃ service ∈ confirmed manager addr listed, cpKey service = key

end List

/-- Where a round gets both lists, it leaves in the map only pairs of which one of them has a confirmed subscription. -/
def OnlyConfirmed (round : Round) (loop : OracleLoop) : Prop :=
  ∀ cpServ1 cpServ2, getSubscribedCoinPairServices round.ofOracle round.filter (.ok round.oracleAddr) = .ok (.ok cpServ1) →
    getSubscribedCoinPairServices round.ofOwner round.filter round.owner = .ok (.ok cpServ2) →
    ∀ key ∈ (finalState round.run loop).cpMap.keys,
      Confirmed round.ofOracle round.filter (.ok round.oracleAddr) key ∨ Confirmed round.ofOwner round.filter round.owner key

private theorem onlyConfirmed {round : Round} {loop : OracleLoop}
    (ofOracle : ExactlyConfirmed round.ofOracle round.filter (.ok round.oracleAddr))
    (ofOwner : ExactlyConfirmed round.ofOwner round.filter round.owner) : OnlyConfirmed round loop := by
  intro cpServ1 cpServ2 first second key present
  rw [Round.finalState_run loop first second] at present
  obtain ⟨service, member, rfl⟩ := List.mem_map.mp (reconcile_keys _ _ _ _ present)
  rcases List.mem_append.mp member with here | here
  · obtain ⟨listed, found, rfl⟩ := ofOracle cpServ1 first
    exact Or.inl ⟨listed, found, service, here, rfl⟩
  · obtain ⟨listed, found, rfl⟩ := ofOwner cpServ2 second
    exact Or.inr ⟨listed, found, service, here, rfl⟩

theorem subscriptions_confirmed_iff (round : Round) (loop : OracleLoop) :
    (ExactlyConfirmed round.ofOracle round.filter (.ok round.oracleAddr) ∧
      ExactlyConfirmed round.ofOwner round.filter round.owner ∧ OnlyConfirmed round loop) ↔
    (NoFailedCall round.ofOracle round.filter (.ok round.oracleAddr) ∧ NoFailedCall round.ofOwner round.filter round.owner) := by
  rw [← exactlyConfirmed_iff, ← exactlyConfirmed_iff]
  exact ⟨fun holds => ⟨holds.1, holds.2.1⟩, fun holds => ⟨holds.1, holds.2, onlyConfirmed holds.1 holds.2⟩⟩

/-- One pair is registered, and the node cannot ask the contract whether the oracle is subscribed to it. -/
def unaskable : OracleManagerService :=
  { registry ["taskNew"] with isSubscribed := fun _ _ _ => .error ⟨"no connection"⟩ }

def unaskableRound : Round :=
  { settings := plainSettings, filter := [], oracleAddr := "0xaa", owner := .error ⟨"no connection"⟩
    ofOracle := unaskable, ofOwner := unaskable }

private theorem confirmed_unaskable (addr : Reply String) (services : List OracleCoinPairService) :
    confirmed unaskable addr services = [] := by
  rw [confirmed, List.map_eq_nil_iff, List.filter_eq_nil_iff]
  intro asked _
  rw [call, OracleManagerService.askSubscribed]
  cases asked.1.coinPair.longer <;> exact Bool.false_ne_true

theorem failed_call_subscribes :
    getSubscribedCoinPairServices unaskable [] (.ok "0xaa") = .ok (.ok [tasksService "taskNew"]) ∧
    "taskNew" ∈ (finalState unaskableRound.run .init).cpMap.keys ∧
    ¬ExactlyConfirmed unaskable [] (.ok "0xaa") ∧ ¬OnlyConfirmed unaskableRound .init := by
  have returned (addr : Reply String) : getSubscribedCoinPairServices unaskable [] addr = .ok (.ok [tasksService "taskNew"]) := rfl
  have present : "taskNew" ∈ (finalState unaskableRound.run .init).cpMap.keys := by decide +kernel
  have unconfirmed (addr : Reply String) : ¬Confirmed unaskable [] addr "taskNew" := by
    intro confirms
    obtain ⟨services, _, service, member, _⟩ := confirms
    rw [confirmed_unaskable] at member
    exact List.not_mem_nil member
  refine ⟨returned _, present, fun exact => ?_, fun only => ?_⟩
  · obtain ⟨services, _, same⟩ := exact _ (returned _)
    rw [confirmed_unaskable] at same
    exact List.cons_ne_nil _ _ same
  · rcases only _ _ (returned _) (returned _) "taskNew" present with here | here
    · exact unconfirmed _ here
    · exact unconfirmed _ here

end OmocNode.Proofs.Subscriptions
