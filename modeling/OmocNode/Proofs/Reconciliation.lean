import OmocNode.OracleLoop
import OmocNode.Proofs.Outcomes
import OmocNode.Proofs.StateFrame
import OmocNode.Proofs.StateSwitches

/-! What one round of the loop does to the map of coin pairs. The pairs that are
no longer wanted go first, and new ones come until one cannot be built. -/

namespace OmocNode.Proofs.Reconciliation
open OracleLoop BlockchainInfo StateFrame Outcomes
open StateSwitches (queueEnvironment failedAnswers)

variable {settings : Settings} {loop : OracleLoop}

/-- The name of a service, which is its key in the map. -/
def cpKey (service : OracleCoinPairService) : String := service.coinPair.cp

theorem deleteCoinPair_eq {key : String} {old : OracleLoopTasks} (present : loop.cpMap.get? key = some old) :
    deleteCoinPair key loop = .ok () { cpMap := loop.cpMap.erase key, stopped := loop.stopped ++ [(key, old.stop)] } := by
  simp only [deleteCoinPair, run_bind, run_get, present, run_modify]

def stoppedAt (cpMap : Dict String OracleLoopTasks) (keys : List String) : List (String × OracleLoopTasks) :=
  keys.filterMap fun key => (cpMap.get? key).map fun old => (key, old.stop)

/-- What deleting some keys leaves: nothing there, and all else as it was. -/
structure Deleted (keys : List String) (loop after : OracleLoop) : Prop where
  cpMap : ∀ key, after.cpMap.get? key = if key ∈ keys then none else loop.cpMap.get? key
  stopped : after.stopped = loop.stopped ++ stoppedAt loop.cpMap keys

private theorem forM_deleteCoinPair {keys : List String} (distinct : keys.Nodup) (present : ∀ key ∈ keys, key ∈ loop.cpMap.keys) :
    ∃ after, keys.forM deleteCoinPair loop = .ok () after ∧ Deleted keys loop after := by
  induction keys generalizing loop with
  | nil => exact ⟨loop, rfl, by simp, by simp [stoppedAt]⟩
  | cons key keys ih =>
    rw [List.nodup_cons] at distinct
    obtain ⟨old, read⟩ := Dict.mem_keys_iff.mp (present key List.mem_cons_self)
    have others : ∀ other ∈ keys, other ≠ key := fun other member same => distinct.1 (same ▸ member)
    obtain ⟨after, ran, deleted⟩ := @ih { cpMap := loop.cpMap.erase key, stopped := loop.stopped ++ [(key, old.stop)] }
      distinct.2 fun other member => Dict.mem_keys_erase.mpr
        ⟨others other member, present other (List.mem_cons_of_mem _ member)⟩
    refine ⟨after, ?_, ?_, ?_⟩
    · rw [run_forM_cons, deleteCoinPair_eq read]
      exact ran
    · intro other
      rw [deleted.cpMap, Dict.get?_erase]
      by_cases same : other = key <;> simp [same]
    · have kept : stoppedAt (loop.cpMap.erase key) keys = stoppedAt loop.cpMap keys :=
        List.filterMap_congr fun other member => by rw [Dict.get?_erase, if_neg (others other member)]
      rw [deleted.stopped, kept]
      simp [stoppedAt, read]

def Constructible (settings : Settings) (service : OracleCoinPairService) : Prop :=
  ∃ entry, settings.construct service = .ok entry

theorem addCoinPair_built (running : settings.oracleRun = true) {service : OracleCoinPairService} {entry : OracleLoopTasks}
    (built : settings.construct service = .ok entry) :
    addCoinPair settings service loop = .ok () { loop with cpMap := loop.cpMap.set (cpKey service) entry.start } := by
  simp only [addCoinPair, running, if_true, built, OracleLoop.lift, run_bind, run_pure, run_modify, cpKey]

theorem addCoinPair_raises (running : settings.oracleRun = true) {service : OracleCoinPairService} {failure : PyError}
    (raises : settings.construct service = .error failure) : addCoinPair settings service loop = .error failure loop := by
  simp only [addCoinPair, running, if_true, raises, OracleLoop.lift, run_bind, run_throw]

private theorem forM_addCoinPair_idle (idle : settings.oracleRun = false) (services : List OracleCoinPairService) :
    services.forM (addCoinPair settings) loop = .ok () loop := by
  induction services with
  | nil => rfl
  | cons service services ih =>
    have first : addCoinPair settings service loop = .ok () loop := by
      simp only [addCoinPair, idle, Bool.false_eq_true, if_false, run_pure]
    rw [run_forM_cons, first]
    exact ih

/-- What adding some services leaves: the first of them are there, built and
started, up to one whose construction raises; and all else is as it was. -/
structure Added (settings : Settings) (built : List OracleCoinPairService) (loop after : OracleLoop) : Prop where
  started : ∀ service ∈ built, ∃ entry, settings.construct service = .ok entry ∧ after.cpMap.get? (cpKey service) = some entry.start
  kept : ∀ key ∉ built.map cpKey, after.cpMap.get? key = loop.cpMap.get? key
  stopped : after.stopped = loop.stopped

theorem Added.constructible {built : List OracleCoinPairService} {after : OracleLoop} (added : Added settings built loop after) :
    ∀ service ∈ built, Constructible settings service := by
  intro service member
  obtain ⟨entry, construction, _⟩ := added.started service member
  exact ⟨entry, construction⟩

private theorem forM_addCoinPair (running : settings.oracleRun = true) {services : List OracleCoinPairService}
    (distinct : (services.map cpKey).Nodup) :
    ∃ built, built <+: services ∧ Added settings built loop (finalState (services.forM (addCoinPair settings)) loop) ∧
      (built = services ∧ services.forM (addCoinPair settings) loop = .ok () (finalState (services.forM (addCoinPair settings)) loop) ∨
        ∃ raising rest, services = built ++ raising :: rest ∧ ¬Constructible settings raising) := by
  induction services generalizing loop with
  | nil => exact ⟨[], List.prefix_rfl, ⟨by simp, fun _ _ => rfl, rfl⟩, Or.inl ⟨rfl, rfl⟩⟩
  | cons service services ih =>
    rw [List.map_cons, List.nodup_cons] at distinct
    cases construction : settings.construct service with
    | error failure =>
      have stays : finalState ((service :: services).forM (addCoinPair settings)) loop = loop := by
        rw [finalState, run_forM_cons, addCoinPair_raises running construction]
      refine ⟨[], List.nil_prefix, ⟨by simp, fun _ _ => by rw [stays], by rw [stays]⟩, Or.inr ⟨service, services, rfl, ?_⟩⟩
      intro constructible
      obtain ⟨entry, same⟩ := constructible
      rw [construction] at same
      cases same
    | ok entry =>
      obtain ⟨built, first, added, ends⟩ := @ih { loop with cpMap := loop.cpMap.set (cpKey service) entry.start } distinct.2
      have ran : (service :: services).forM (addCoinPair settings) loop =
          services.forM (addCoinPair settings) { loop with cpMap := loop.cpMap.set (cpKey service) entry.start } := by
        rw [run_forM_cons, addCoinPair_built running construction]
      have final : finalState ((service :: services).forM (addCoinPair settings)) loop =
          finalState (services.forM (addCoinPair settings)) { loop with cpMap := loop.cpMap.set (cpKey service) entry.start } := by
        simp only [finalState, ran]
      have once : cpKey service ∉ built.map cpKey := fun member => distinct.1 ((first.map cpKey).subset member)
      refine ⟨service :: built, List.cons_prefix_cons.mpr ⟨rfl, first⟩, ?_, ?_⟩
      · rw [final]
        refine ⟨?_, ?_, added.stopped⟩
        · intro other member
          rcases List.mem_cons.mp member with rfl | later
          · exact ⟨entry, construction, by rw [added.kept _ once, Dict.get?_set, if_pos rfl]⟩
          · exact added.started other later
        · intro key absent
          rw [List.map_cons, List.mem_cons, not_or] at absent
          rw [added.kept key absent.2, Dict.get?_set, if_neg absent.1]
      · rw [final, ran]
        rcases ends with ⟨rfl, done⟩ | ⟨raising, rest, rfl, raises⟩
        · exact Or.inl ⟨rfl, done⟩
        · exact Or.inr ⟨raising, rest, rfl, raises⟩

section Round
variable {cpServ1 cpServ2 : List OracleCoinPairService}

def dropped (loop : OracleLoop) (services : Dict String OracleCoinPairService) : List String :=
  loop.cpMap.keys.filter fun key => !services.keys.contains key

/-- The services that the map lacks, in their order. -/
def lacking (loop : OracleLoop) (services : Dict String OracleCoinPairService) : List OracleCoinPairService :=
  (services.entries.filter fun entry => !loop.cpMap.keys.contains entry.1).map Prod.snd

theorem mem_dropped_iff {services : Dict String OracleCoinPairService} {key : String} :
    key ∈ dropped loop services ↔ key ∈ loop.cpMap.keys ∧ key ∉ services.keys := by
  simp [dropped]

theorem key_of_mem_cpServices {services : List OracleCoinPairService} {entry : String × OracleCoinPairService}
    (member : entry ∈ (cpServices services).entries) : entry.2 ∈ services ∧ entry.1 = cpKey entry.2 := by
  obtain ⟨service, listed, rfl⟩ := List.mem_map.mp (Dict.mem_of_mem_ofList member)
  exact ⟨listed, rfl⟩

private theorem mem_keys_cpServices {services : List OracleCoinPairService} {key : String} :
    key ∈ (cpServices services).keys ↔ key ∈ services.map cpKey := by
  rw [cpServices, Dict.mem_keys_ofList, List.map_map]
  rfl

private theorem map_cpKey_lacking (services : List OracleCoinPairService) :
    (lacking loop (cpServices services)).map cpKey =
      ((cpServices services).entries.filter fun entry => !loop.cpMap.keys.contains entry.1).map Prod.fst := by
  rw [lacking, List.map_map]
  exact List.map_congr_left fun entry member => (key_of_mem_cpServices (List.mem_filter.mp member).1).2.symm

theorem lacking_distinct (services : List OracleCoinPairService) : ((lacking loop (cpServices services)).map cpKey).Nodup := by
  rw [map_cpKey_lacking]
  exact (cpServices services).keys_nodup.sublist (List.filter_sublist.map _)

theorem mem_map_cpKey_lacking {services : List OracleCoinPairService} {key : String} :
    key ∈ (lacking loop (cpServices services)).map cpKey ↔ key ∈ (cpServices services).keys ∧ key ∉ loop.cpMap.keys := by
  rw [map_cpKey_lacking]
  simp only [Dict.keys, List.mem_map, List.mem_filter, Bool.not_eq_true', ← Bool.not_eq_true, List.contains_iff_mem]
  constructor
  · intro lacks
    obtain ⟨entry, ⟨member, absent⟩, rfl⟩ := lacks
    exact ⟨⟨entry, member, rfl⟩, absent⟩
  · intro wanted
    obtain ⟨⟨entry, member, rfl⟩, absent⟩ := wanted
    exact ⟨entry, ⟨member, absent⟩, rfl⟩

private theorem mem_of_mem_lacking {services : List OracleCoinPairService} {service : OracleCoinPairService}
    (member : service ∈ lacking loop (cpServices services)) : service ∈ services := by
  obtain ⟨entry, kept, rfl⟩ := List.mem_map.mp member
  exact (key_of_mem_cpServices (List.mem_filter.mp kept).1).1

/-- A round deletes first, and what it adds then is what the map lacked before it. -/
theorem reconcile_eq (settings : Settings) (loop : OracleLoop) (cpServ1 cpServ2 : List OracleCoinPairService) :
    let services := cpServices (cpServ1 ++ cpServ2)
    ∃ middle, Deleted (dropped loop services) loop middle ∧
      reconcile settings (.ok cpServ1) (.ok cpServ2) loop = (lacking loop services).forM (addCoinPair settings) middle := by
  intro services
  obtain ⟨middle, ran, deleted⟩ := @forM_deleteCoinPair loop (dropped loop services)
    (loop.cpMap.keys_nodup.sublist List.filter_sublist) fun key member => (mem_dropped_iff.mp member).1
  have same : lacking middle services = lacking loop services := by
    simp only [lacking]
    congr 1
    apply List.filter_congr
    intro entry member
    -- A wanted pair is not among the dropped ones.
    have wanted : entry.1 ∉ dropped loop services := fun dropped =>
      (mem_dropped_iff.mp dropped).2 (List.mem_map_of_mem member)
    have read : entry.1 ∈ middle.cpMap.keys ↔ entry.1 ∈ loop.cpMap.keys := by
      simp only [Dict.mem_keys_iff, deleted.cpMap, if_neg wanted]
    rw [Bool.eq_iff_iff]
    simp only [Bool.not_eq_true', ← Bool.not_eq_true, List.contains_iff_mem, read]
  refine ⟨middle, deleted, ?_⟩
  have ran' : (loop.cpMap.keys.filter fun key => !services.keys.contains key).forM deleteCoinPair loop = .ok () middle := ran
  rw [← same]
  simp only [reconcile, run_bind, run_get]
  rw [ran']
  rfl

/-- The pairs that the round adds are those the map lacked, up to one that cannot be built. -/
theorem reconcile_adds (running : settings.oracleRun = true) (loop : OracleLoop) (cpServ1 cpServ2 : List OracleCoinPairService) :
    let services := cpServices (cpServ1 ++ cpServ2)
    let round := reconcile settings (.ok cpServ1) (.ok cpServ2)
    ∃ middle built, Deleted (dropped loop services) loop middle ∧ built <+: lacking loop services ∧
      Added settings built middle (finalState round loop) ∧
      (built = lacking loop services ∧ round loop = .ok () (finalState round loop) ∨
        ∃ raising rest, lacking loop services = built ++ raising :: rest ∧ ¬Constructible settings raising) := by
  intro services round
  obtain ⟨middle, deleted, same⟩ := reconcile_eq settings loop cpServ1 cpServ2
  have ran : round loop = (lacking loop services).forM (addCoinPair settings) middle := same
  have final : finalState round loop = finalState ((lacking loop services).forM (addCoinPair settings)) middle := by
    rw [finalState, ran, finalState]
  rw [final, ran]
  obtain ⟨built, first, added, ends⟩ := @forM_addCoinPair settings middle running _ (lacking_distinct (cpServ1 ++ cpServ2))
  exact ⟨middle, built, deleted, first, added, ends⟩

theorem added_nil (settings : Settings) (loop : OracleLoop) : Added settings [] loop loop :=
  ⟨fun _ member => absurd member List.not_mem_nil, fun _ _ => rfl, rfl⟩

/-- Without `ORACLE_RUN` the round only deletes. -/
theorem reconcile_idle (idle : settings.oracleRun = false) (loop : OracleLoop) (cpServ1 cpServ2 : List OracleCoinPairService) :
    ∃ middle, Deleted (dropped loop (cpServices (cpServ1 ++ cpServ2))) loop middle ∧
      finalState (reconcile settings (.ok cpServ1) (.ok cpServ2)) loop = middle := by
  obtain ⟨middle, deleted, same⟩ := reconcile_eq settings loop cpServ1 cpServ2
  exact ⟨middle, deleted, by rw [finalState, same, forM_addCoinPair_idle idle]⟩

private theorem construct_fresh {service : OracleCoinPairService} {entry : OracleLoopTasks}
    (built : settings.construct service = .ok entry) :
    entry.coinPairService = service ∧ ∀ task ∈ entry.tasks, task.calls = [] := by
  rw [Settings.construct] at built
  split at built
  · obtain ⟨engines, _, built⟩ := bind_eq_ok_iff.mp built
    obtain ⟨signal, _, built⟩ := bind_eq_ok_iff.mp built
    rw [← pure_eq_ok_iff.mp built]
    simp [BgTaskExecutor.init]
  · obtain ⟨signal, _, built⟩ := bind_eq_ok_iff.mp built
    rw [← pure_eq_ok_iff.mp built]
    simp [BgTaskExecutor.init]

/-- Every task of an entry was started, once, and never stopped. -/
def StartedOnce (entry : OracleLoopTasks) : Prop := ∀ task ∈ entry.tasks, task.calls = [.start]

theorem started_once {service : OracleCoinPairService} {entry : OracleLoopTasks}
    (built : settings.construct service = .ok entry) : StartedOnce entry.start := by
  intro task member
  obtain ⟨fresh, listed, rfl⟩ := List.mem_map.mp member
  simp [BgTaskExecutor.startBgTask, (construct_fresh built).2 fresh listed]

/-- The map has the wanted pairs and no others. Those it had already are as they
were; the tasks of the new ones have been started once, and those of the old
ones stopped once. -/
structure Reconciled (before : OracleLoop) (services : List OracleCoinPairService) (after : OracleLoop) : Prop where
  keys : ∀ key, key ∈ after.cpMap.keys ↔ key ∈ services.map cpKey
  kept : ∀ key ∈ before.cpMap.keys, key ∈ services.map cpKey → after.cpMap.get? key = before.cpMap.get? key
  new : ∀ key ∈ services.map cpKey, key ∉ before.cpMap.keys → ∃ entry, after.cpMap.get? key = some entry ∧
    entry.coinPairService ∈ services ∧ cpKey entry.coinPairService = key ∧ StartedOnce entry
  removed : ∃ gone, after.stopped = before.stopped ++ gone ∧ (gone.map Prod.fst).Nodup ∧
    ∀ key entry, (key, entry) ∈ gone ↔ key ∉ services.map cpKey ∧ ∃ old, before.cpMap.get? key = some old ∧
      entry = { old with tasks := old.tasks.map fun task => { task with task := false, cancel := true, calls := task.calls ++ [.stop] } }

private theorem map_fst_stoppedAt (cpMap : Dict String OracleLoopTasks) (keys : List String) :
    (stoppedAt cpMap keys).map Prod.fst = keys.filter fun key => (cpMap.get? key).isSome := by
  induction keys with
  | nil => rfl
  | cons key keys ih =>
    rw [stoppedAt] at ih ⊢
    cases read : cpMap.get? key with
    | none => simp [read, ih]
    | some old => simp [read, ih]

theorem mem_stoppedAt_iff {cpMap : Dict String OracleLoopTasks} {keys : List String} {key : String} {entry : OracleLoopTasks} :
    (key, entry) ∈ stoppedAt cpMap keys ↔ key ∈ keys ∧ ∃ old, cpMap.get? key = some old ∧ entry = old.stop := by
  simp only [stoppedAt, List.mem_filterMap, Option.map_eq_some_iff, Prod.mk.injEq]
  constructor
  · intro stopped
    obtain ⟨key, member, old, read, rfl, rfl⟩ := stopped
    exact ⟨member, old, read, rfl⟩
  · intro stopped
    obtain ⟨member, old, read, rfl⟩ := stopped
    exact ⟨key, member, old, read, rfl, rfl⟩

section Reads
variable {services built : List OracleCoinPairService} {middle after : OracleLoop}

private theorem not_mem_built (first : built <+: lacking loop (cpServices services)) {key : String}
    (here : key ∈ loop.cpMap.keys ∨ key ∉ services.map cpKey) : key ∉ built.map cpKey := by
  intro member
  obtain ⟨listed, absent⟩ := mem_map_cpKey_lacking.mp ((first.map cpKey).subset member)
  rcases here with present | unwanted
  · exact absent present
  · exact unwanted (mem_keys_cpServices.mp listed)

theorem get?_retained (deleted : Deleted (dropped loop (cpServices services)) loop middle)
    (first : built <+: lacking loop (cpServices services)) (added : Added settings built middle after) {key : String}
    (present : key ∈ loop.cpMap.keys) (wanted : key ∈ services.map cpKey) : after.cpMap.get? key = loop.cpMap.get? key := by
  have stays : key ∉ dropped loop (cpServices services) := fun member =>
    (mem_dropped_iff.mp member).2 (mem_keys_cpServices.mpr wanted)
  rw [added.kept key (not_mem_built first (Or.inl present)), deleted.cpMap, if_neg stays]

private theorem get?_unwanted (deleted : Deleted (dropped loop (cpServices services)) loop middle)
    (first : built <+: lacking loop (cpServices services)) (added : Added settings built middle after) {key : String}
    (unwanted : key ∉ services.map cpKey) : after.cpMap.get? key = none := by
  rw [added.kept key (not_mem_built first (Or.inr unwanted)), deleted.cpMap]
  split
  · rfl
  next stays =>
    apply Dict.get?_eq_none_iff.mpr
    intro present
    exact stays (mem_dropped_iff.mpr ⟨present, fun listed => unwanted (mem_keys_cpServices.mp listed)⟩)

end Reads

/-- Whatever the round could build, it leaves no pair that is not wanted. -/
theorem reconcile_keys (settings : Settings) (loop : OracleLoop) (cpServ1 cpServ2 : List OracleCoinPairService) {key : String}
    (present : key ∈ (finalState (reconcile settings (.ok cpServ1) (.ok cpServ2)) loop).cpMap.keys) :
    key ∈ (cpServ1 ++ cpServ2).map cpKey := by
  by_contra unwanted
  apply Dict.get?_eq_none_iff.mp _ present
  cases running : settings.oracleRun with
  | true =>
    obtain ⟨middle, built, deleted, first, added, _⟩ := reconcile_adds running loop cpServ1 cpServ2
    exact get?_unwanted deleted first added unwanted
  | false =>
    obtain ⟨middle, deleted, final⟩ := reconcile_idle running loop cpServ1 cpServ2
    rw [final]
    exact get?_unwanted deleted List.nil_prefix (added_nil settings middle) unwanted

private theorem reconcile_reconciles (running : settings.oracleRun = true)
    (buildable : ∀ service ∈ lacking loop (cpServices (cpServ1 ++ cpServ2)), Constructible settings service) :
    ∃ after, reconcile settings (.ok cpServ1) (.ok cpServ2) loop = .ok () after ∧ Reconciled loop (cpServ1 ++ cpServ2) after := by
  obtain ⟨middle, built, deleted, _, added, ends⟩ := reconcile_adds running loop cpServ1 cpServ2
  rcases ends with ⟨rfl, ran⟩ | ⟨raising, rest, same, raises⟩
  swap
  · exact absurd (buildable raising (by rw [same]; simp)) raises
  generalize finalState _ loop = after at added ran
  have retained := fun key => @get?_retained settings loop _ _ middle after deleted List.prefix_rfl added key
  have new : ∀ key ∈ (cpServ1 ++ cpServ2).map cpKey, key ∉ loop.cpMap.keys → ∃ entry, after.cpMap.get? key = some entry ∧
      entry.coinPairService ∈ cpServ1 ++ cpServ2 ∧ cpKey entry.coinPairService = key ∧ StartedOnce entry := by
    intro key wanted absent
    obtain ⟨service, member, rfl⟩ := List.mem_map.mp (mem_map_cpKey_lacking.mpr ⟨mem_keys_cpServices.mpr wanted, absent⟩)
    obtain ⟨entry, construction, read⟩ := added.started service member
    have same : entry.start.coinPairService = service := (construct_fresh construction).1
    exact ⟨entry.start, read, same ▸ mem_of_mem_lacking member, by rw [same], started_once construction⟩
  refine ⟨after, ran, ?_, retained, new, ?_⟩
  · intro key
    constructor
    · intro present
      by_contra unwanted
      exact Dict.get?_eq_none_iff.mp (get?_unwanted deleted List.prefix_rfl added unwanted) present
    · intro wanted
      by_cases present : key ∈ loop.cpMap.keys
      · obtain ⟨entry, read⟩ := Dict.mem_keys_iff.mp present
        exact Dict.mem_keys_iff.mpr ⟨entry, by rw [retained key present wanted, read]⟩
      · obtain ⟨entry, read, _⟩ := new key wanted present
        exact Dict.mem_keys_iff.mpr ⟨entry, read⟩
  · refine ⟨stoppedAt loop.cpMap (dropped loop (cpServices (cpServ1 ++ cpServ2))), ?_, ?_, ?_⟩
    · rw [added.stopped, deleted.stopped]
    · rw [map_fst_stoppedAt]
      exact (loop.cpMap.keys_nodup.sublist List.filter_sublist).sublist List.filter_sublist
    · intro key entry
      rw [mem_stoppedAt_iff, mem_dropped_iff, mem_keys_cpServices]
      constructor
      · intro gone
        obtain ⟨⟨_, unwanted⟩, stopped⟩ := gone
        exact ⟨unwanted, stopped⟩
      · intro gone
        obtain ⟨unwanted, old, read, rfl⟩ := gone
        exact ⟨⟨Dict.mem_keys_iff.mpr ⟨old, read⟩, unwanted⟩, old, read, rfl⟩

theorem run_eq {filter : List String} {oracleAddr : String} {owner : Reply String} {ofOracle ofOwner : OracleManagerService}
    (first : OracleService.getSubscribedCoinPairServices ofOracle filter (.ok oracleAddr) = .ok (.ok cpServ1))
    (second : OracleService.getSubscribedCoinPairServices ofOwner filter owner = .ok (.ok cpServ2)) :
    OracleLoop.run settings filter oracleAddr owner ofOracle ofOwner loop = reconcile settings (.ok cpServ1) (.ok cpServ2) loop := by
  simp only [OracleLoop.run, first, second, OracleLoop.lift, run_bind, run_pure]

theorem run_reconciles {filter : List String} {oracleAddr : String} {owner : Reply String}
    {ofOracle ofOwner : OracleManagerService}
    (first : OracleService.getSubscribedCoinPairServices ofOracle filter (.ok oracleAddr) = .ok (.ok cpServ1))
    (second : OracleService.getSubscribedCoinPairServices ofOwner filter owner = .ok (.ok cpServ2))
    (running : settings.oracleRun = true)
    (buildable : ∀ service ∈ lacking loop (cpServices (cpServ1 ++ cpServ2)), Constructible settings service) :
    ∃ after, OracleLoop.run settings filter oracleAddr owner ofOracle ofOwner loop = .ok () after ∧
      Reconciled loop (cpServ1 ++ cpServ2) after := by
  rw [run_eq first second]
  exact reconcile_reconciles running buildable

end Round

def registryAddress : Address := ⟨"0x00000000000000000000000000000000000000cb", by decide⟩

/-- The registered pairs, to all of which the oracle and its owner are subscribed. -/
def registry (names : List String) : OracleManagerService :=
  { getCoinPairCount := .ok names.length
    getCoinPairAtIndex := fun index => .ok ((names.getD index "").toList.map fun c => UInt8.ofNat c.toNat)
    getContractAddress := fun _ _ => .ok registryAddress
    isSubscribed := fun _ _ _ => .ok true }

def pairService (name : String) : OracleCoinPairService := ⟨⟨name⟩, registryAddress, .coinPair⟩

def tasksService (name : String) : OracleCoinPairService := ⟨⟨name⟩, registryAddress, .tasksRunner⟩

/-- Every pair has one price engine, except those named `NOENTRY`; no pair looks at the conditions on the chain. -/
def plainSettings : Settings :=
  { oracleRun := true
    oraclePriceEngines := fun name => if name = "NOENTRY" then none else some [⟨some "engine", 1, some 0, some 30⟩]
    engineNames := ["engine"]
    environment := fun _ => .ok { queueEnvironment with oracleOfflineCfg := some "false" }
    firstFetch := fun _ => failedAnswers }

def tasksEntry (name : String) : OracleLoopTasks :=
  { coinPairService := tasksService name
    tasks := [.init "OracleBlockchainInfoLoop", .init ("OracleCoinPairLoop-" ++ name)]
    runner := .tasks .disabled }

/-- Two pairs run, and only one of them is still registered. -/
def twoPairs : OracleLoop :=
  { cpMap := .ofList [("taskOld", (tasksEntry "taskOld").start), ("taskKept", (tasksEntry "taskKept").start)], stopped := [] }

theorem run_reconciles_twoPairs :
    let services := [tasksService "taskKept", tasksService "taskNew"]
    ∃ after, OracleLoop.run plainSettings [] "0xaa" (.ok "0xbb") (registry ["taskKept", "taskNew"])
      (registry ["taskKept", "taskNew"]) twoPairs = .ok () after ∧ Reconciled twoPairs (services ++ services) after := by
  intro services
  have missing : lacking twoPairs (cpServices (services ++ services)) = [tasksService "taskNew"] := by decide +kernel
  apply run_reconciles rfl rfl rfl
  intro service member
  rw [missing, List.mem_singleton] at member
  subst member
  exact ⟨tasksEntry "taskNew", rfl⟩

end OmocNode.Proofs.Reconciliation
