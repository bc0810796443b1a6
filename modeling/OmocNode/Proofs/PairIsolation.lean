import OmocNode.Proofs.Reconciliation

/-! Pairs that cannot be built and those behind them. A round adds the pairs it
lacks one after the other, and the first whose construction raises ends it. -/

namespace OmocNode.Proofs.PairIsolation
open OracleLoop BlockchainInfo StateFrame Reconciliation

/-- All that one round is run with. -/
structure Round where
  settings : Settings
  filter : List String
  oracleAddr : String
  owner : Reply String
  ofOracle : OracleManagerService
  ofOwner : OracleManagerService

def Round.run (round : Round) : LoopM Unit :=
  OracleLoop.run round.settings round.filter round.oracleAddr round.owner round.ofOracle round.ofOwner

/-- A round that gets both lists of services. -/
theorem Round.finalState_run {round : Round} {cpServ1 cpServ2 : List OracleCoinPairService} (loop : OracleLoop)
    (first : OracleService.getSubscribedCoinPairServices round.ofOracle round.filter (.ok round.oracleAddr) = .ok (.ok cpServ1))
    (second : OracleService.getSubscribedCoinPairServices round.ofOwner round.filter round.owner = .ok (.ok cpServ2)) :
    finalState round.run loop = finalState (reconcile round.settings (.ok cpServ1) (.ok cpServ2)) loop := by
  rw [finalState, Round.run, run_eq first second, finalState]

/-- The loop after some rounds, each of which may have raised. -/
def reached (rounds : List Round) : OracleLoop := rounds.foldl (fun loop round => finalState round.run loop) .init

def AllStarted (loop : OracleLoop) : Prop := ∀ key entry, loop.cpMap.get? key = some entry → StartedOnce entry

theorem preserves_deleteCoinPair (key : String) : Preserves AllStarted (deleteCoinPair key) := by
  refine .bind .get ?_
  intro loop
  split
  · exact .throw _
  · apply Preserves.modify
    intro loop started other entry read
    rw [Dict.get?_erase] at read
    split at read
    · cases read
    · exact started other entry read

theorem preserves_addCoinPair (settings : Settings) (service : OracleCoinPairService) :
    Preserves AllStarted (addCoinPair settings service) := by
  rw [addCoinPair]
  split
  · cases construction : settings.construct service with
    | error failure => exact fun _ started => started
    | ok built =>
      apply Preserves.modify
      intro loop started key entry read
      rw [Dict.get?_set] at read
      split at read
      · cases read
        exact started_once construction
      · exact started key entry read
  · exact .pure _

private theorem preserves_reconcile (settings : Settings) (cpServ1 cpServ2 : Reply (List OracleCoinPairService)) :
    Preserves AllStarted (reconcile settings cpServ1 cpServ2) := by
  rw [reconcile.eq_def]
  split
  · exact .pure _
  · exact .throw _
  · exact .throw _
  · exact .bind .get fun _ => .bind (.forM preserves_deleteCoinPair _) fun _ => .bind .get fun _ =>
      .forM (preserves_addCoinPair settings) _

private theorem preserves_lift {α : Type} (result : Except PyError α) : Preserves AllStarted (OracleLoop.lift result) := by
  cases result with
  | error failure => exact .throw _
  | ok value => exact .pure _

private theorem preserves_round (round : Round) : Preserves AllStarted round.run :=
  .bind (preserves_lift _) fun _ => .bind (preserves_lift _) fun _ => preserves_reconcile _ _ _

private theorem allStarted_reached (rounds : List Round) : AllStarted (reached rounds) :=
  run_preserves (fun loop round => preserves_round round loop) rounds .init fun _ _ read => nomatch read

/-- Every subscribed pair that can be built is in the map, and runs. -/
def NoneStarved (settings : Settings) (services : List OracleCoinPairService) (after : OracleLoop) : Prop :=
  ∀ entry ∈ (cpServices services).entries, Constructible settings entry.2 →
    ∃ tasks, after.cpMap.get? entry.1 = some tasks ∧ StartedOnce tasks

/-- Nothing that can be built comes behind something that cannot. -/
def UnbuildableLast (settings : Settings) (services : List OracleCoinPairService) : Prop :=
  services.Pairwise fun earlier later => Constructible settings later → Constructible settings earlier

section Round
variable {settings : Settings} {loop middle after : OracleLoop} {services built : List OracleCoinPairService}

theorem present_iff (deleted : Deleted (dropped loop (cpServices services)) loop middle)
    (first : built <+: lacking loop (cpServices services)) (added : Added settings built middle after)
    {service : OracleCoinPairService} (lacks : service ∈ lacking loop (cpServices services)) :
    (∃ entry, after.cpMap.get? (cpKey service) = some entry) ↔ service ∈ built := by
  constructor
  · intro present
    obtain ⟨entry, read⟩ := present
    by_contra unbuilt
    -- Names do not repeat among the lacking services, so none of those built has this one.
    have unnamed : cpKey service ∉ built.map cpKey := by
      intro named
      obtain ⟨other, member, same⟩ := List.mem_map.mp named
      have equal := List.inj_on_of_nodup_map (lacking_distinct services) (first.subset member) lacks same
      exact unbuilt (equal ▸ member)
    rw [added.kept _ unnamed, deleted.cpMap] at read
    split at read
    · cases read
    · exact (mem_map_cpKey_lacking.mp (List.mem_map_of_mem lacks)).2 (Dict.mem_keys_iff.mpr ⟨entry, read⟩)
  · intro member
    obtain ⟨entry, _, read⟩ := added.started service member
    exact ⟨_, read⟩

private theorem noneStarved_iff_built (started : AllStarted loop)
    (deleted : Deleted (dropped loop (cpServices services)) loop middle)
    (first : built <+: lacking loop (cpServices services)) (added : Added settings built middle after) :
    NoneStarved settings services after ↔
      ∀ service ∈ lacking loop (cpServices services), Constructible settings service → service ∈ built := by
  constructor
  · intro fed service lacks constructible
    obtain ⟨entry, kept, rfl⟩ := List.mem_map.mp lacks
    have listed := (List.mem_filter.mp kept).1
    obtain ⟨tasks, read, _⟩ := fed entry listed constructible
    exact (present_iff deleted first added lacks).mp ⟨tasks, (key_of_mem_cpServices listed).2 ▸ read⟩
  · intro builds entry listed constructible
    obtain ⟨here, same⟩ := key_of_mem_cpServices listed
    by_cases present : entry.1 ∈ loop.cpMap.keys
    · obtain ⟨tasks, read⟩ := Dict.mem_keys_iff.mp present
      have wanted : entry.1 ∈ services.map cpKey := same ▸ List.mem_map_of_mem here
      exact ⟨tasks, by rw [get?_retained deleted first added present wanted, read], started _ _ read⟩
    · have lacks : entry.2 ∈ lacking loop (cpServices services) :=
        List.mem_map_of_mem (List.mem_filter.mpr ⟨listed, by simpa using present⟩)
      obtain ⟨tasks, construction, read⟩ := added.started entry.2 (builds _ lacks constructible)
      exact ⟨tasks.start, same ▸ read, started_once construction⟩

private theorem unbuildableLast_of_constructible (constructible : ∀ service ∈ built, Constructible settings service) :
    UnbuildableLast settings built :=
  List.pairwise_of_forall_mem_list fun earlier member _ _ _ => constructible earlier member

private theorem unbuildableLast_of_split {raising : OracleCoinPairService} {rest : List OracleCoinPairService}
    (constructible : ∀ service ∈ built, Constructible settings service) (raises : ¬Constructible settings raising) :
    UnbuildableLast settings (built ++ raising :: rest) ↔ ∀ service ∈ rest, ¬Constructible settings service := by
  rw [UnbuildableLast, List.pairwise_append, List.pairwise_cons]
  constructor
  · intro ordered service member later
    obtain ⟨_, ⟨behind, _⟩, _⟩ := ordered
    exact raises (behind service member later)
  · intro unbuildable
    refine ⟨unbuildableLast_of_constructible constructible, ⟨?_, ?_⟩, ?_⟩
    · exact fun service member later => absurd later (unbuildable service member)
    · exact List.pairwise_of_forall_mem_list fun _ _ service member later => absurd later (unbuildable service member)
    · exact fun earlier member _ _ _ => constructible earlier member

theorem reconcile_noneStarved_iff (running : settings.oracleRun = true) (started : AllStarted loop)
    (cpServ1 cpServ2 : List OracleCoinPairService) :
    NoneStarved settings (cpServ1 ++ cpServ2) (finalState (reconcile settings (.ok cpServ1) (.ok cpServ2)) loop) ↔
      UnbuildableLast settings (lacking loop (cpServices (cpServ1 ++ cpServ2))) := by
  obtain ⟨middle, built, deleted, first, added, ends⟩ := reconcile_adds running loop cpServ1 cpServ2
  rw [noneStarved_iff_built started deleted first added]
  have constructible := added.constructible
  rcases ends with ⟨all, _⟩ | ⟨raising, rest, split, raises⟩
  · rw [← all]
    exact ⟨fun _ => unbuildableLast_of_constructible constructible, fun _ _ member _ => member⟩
  · have distinct := List.Nodup.of_map _ (split ▸ @lacking_distinct loop (cpServ1 ++ cpServ2))
    rw [split, unbuildableLast_of_split constructible raises]
    constructor
    · intro builds service member later
      have twice := builds service (List.mem_append_right _ (List.mem_cons_of_mem _ member)) later
      exact (List.nodup_append.mp distinct).2.2 service twice service (List.mem_cons_of_mem _ member) rfl
    · intro unbuildable service member later
      rcases List.mem_append.mp member with here | behind
      · exact here
      · rcases List.mem_cons.mp behind with rfl | behind
        · exact absurd later raises
        · exact absurd later (unbuildable service behind)

theorem idle_noneStarved_iff (idle : settings.oracleRun = false) (started : AllStarted loop)
    (cpServ1 cpServ2 : List OracleCoinPairService) :
    NoneStarved settings (cpServ1 ++ cpServ2) (finalState (reconcile settings (.ok cpServ1) (.ok cpServ2)) loop) ↔
      ∀ service ∈ lacking loop (cpServices (cpServ1 ++ cpServ2)), ¬Constructible settings service := by
  obtain ⟨middle, deleted, final⟩ := reconcile_idle idle loop cpServ1 cpServ2
  rw [final, noneStarved_iff_built started deleted List.nil_prefix (added_nil settings middle)]
  simp only [List.not_mem_nil, imp_false]

theorem none_starved_iff (rounds : List Round) {round : Round} {cpServ1 cpServ2 : List OracleCoinPairService}
    (first : OracleService.getSubscribedCoinPairServices round.ofOracle round.filter (.ok round.oracleAddr) = .ok (.ok cpServ1))
    (second : OracleService.getSubscribedCoinPairServices round.ofOwner round.filter round.owner = .ok (.ok cpServ2)) :
    NoneStarved round.settings (cpServ1 ++ cpServ2) (finalState round.run (reached rounds)) ↔
      (round.settings.oracleRun = true ∨
        ∀ service ∈ lacking (reached rounds) (cpServices (cpServ1 ++ cpServ2)), ¬Constructible round.settings service) ∧
      UnbuildableLast round.settings (lacking (reached rounds) (cpServices (cpServ1 ++ cpServ2))) := by
  rw [Round.finalState_run (reached rounds) first second]
  cases running : round.settings.oracleRun with
  | true =>
    rw [reconcile_noneStarved_iff running (allStarted_reached rounds)]
    simp only [true_or, true_and]
  | false =>
    rw [idle_noneStarved_iff running (allStarted_reached rounds)]
    simp only [Bool.false_eq_true, false_or]
    -- Where nothing can be built, nothing that can be built is last.
    exact ⟨fun unbuildable => ⟨unbuildable, List.pairwise_of_forall_mem_list fun _ _ later member built =>
      absurd built (unbuildable later member)⟩,
      And.left⟩

end Round

/-- Two pairs are registered, and the first has no entry in `exchanges.json`. -/
def unlistedFirst : Round :=
  { settings := plainSettings, filter := [], oracleAddr := "0xaa", owner := .ok "0xbb"
    ofOracle := registry ["NOENTRY", "taskNew"], ofOwner := registry ["NOENTRY", "taskNew"] }

/-- The same pairs, in the other order. -/
def unlistedLast : Round :=
  { unlistedFirst with ofOracle := registry ["taskNew", "NOENTRY"], ofOwner := registry ["taskNew", "NOENTRY"] }

theorem none_starved_iff_unlistedLast :
    let services := [tasksService "taskNew", pairService "NOENTRY"] ++ [tasksService "taskNew", pairService "NOENTRY"]
    NoneStarved plainSettings services (finalState unlistedLast.run (reached [])) ↔
      (plainSettings.oracleRun = true ∨ ∀ service ∈ lacking (reached []) (cpServices services), ¬Constructible plainSettings service) ∧
      UnbuildableLast plainSettings (lacking (reached []) (cpServices services)) :=
  @none_starved_iff [] unlistedLast _ _ rfl rfl

theorem unlisted_pair_starves :
    let services := [pairService "NOENTRY", tasksService "taskNew"]
    OracleService.getSubscribedCoinPairServices unlistedFirst.ofOracle [] (.ok "0xaa") = .ok (.ok services) ∧
    OracleService.getSubscribedCoinPairServices unlistedFirst.ofOwner [] (.ok "0xbb") = .ok (.ok services) ∧
    ¬NoneStarved plainSettings (services ++ services) (finalState unlistedFirst.run (reached [])) := by
  refine ⟨rfl, rfl, fun fed => ?_⟩
  obtain ⟨tasks, read, _⟩ := fed ("taskNew", tasksService "taskNew") (by decide +kernel) ⟨tasksEntry "taskNew", rfl⟩
  have empty : (finalState unlistedFirst.run (reached [])).cpMap.entries = [] := rfl
  rw [Dict.get?_eq_some_iff, empty] at read
  cases read

end OmocNode.Proofs.PairIsolation
