import OmocNode.IpFilter
import OmocNode.Proofs.StalePeers

/-! For how long an address is let in. A round forgets at most one address, the first
that it finds stale in the order in which they came to be known. So a stale address
is still known for at most as many rounds as there are addresses before it. -/

namespace OmocNode.Proofs.IpFilterRuns
open IpFilterLoop IpFilter StateFrame Dict StalePeers

section Positions
variable {α : Type} [DecidableEq α] {keep : α → Bool} {keys : List α} {key other : α}

private theorem idxOf_filter_le (kept : keep key = true) : (keys.filter keep).idxOf key ≤ keys.idxOf key := by
  induction keys with
  | nil => exact Nat.le_refl _
  | cons first keys ih =>
    by_cases same : first = key
    · rw [same, List.filter_cons_of_pos kept, List.idxOf_cons_self]
      exact Nat.zero_le _
    · rw [List.idxOf_cons_ne _ same, List.filter_cons]
      split
      · rw [List.idxOf_cons_ne _ same]
        omega
      · omega

/-- A key moves up when one before it goes. -/
theorem idxOf_filter_lt (kept : keep key = true) (gone : keep other = false) (before : keys.idxOf other < keys.idxOf key) :
    (keys.filter keep).idxOf key < keys.idxOf key := by
  induction keys with
  | nil => exact absurd before (Nat.lt_irrefl _)
  | cons first keys ih =>
    have same : first ≠ key := by
      rintro rfl
      rw [List.idxOf_cons_self] at before
      exact absurd before (Nat.not_lt_zero _)
    rw [List.idxOf_cons_ne _ same] at before ⊢
    by_cases here : first = other
    · rw [here, List.filter_cons_of_neg (by simp [gone])]
      exact Nat.lt_succ_of_le (idxOf_filter_le kept)
    · rw [List.idxOf_cons_ne _ here] at before
      have later := ih (Nat.lt_of_succ_lt_succ before)
      rw [List.filter_cons]
      split
      · rw [List.idxOf_cons_ne _ same]
        omega
      · omega

/-- What is found first stands before any other that could be found. -/
theorem idxOf_find?_lt {stale : α → Bool} (found : keys.find? stale = some other) (also : stale key = true) (different : other ≠ key) :
    keys.idxOf other < keys.idxOf key := by
  induction keys with
  | nil => cases found
  | cons first keys ih =>
    by_cases here : stale first = true
    · rw [List.find?_cons_of_pos here] at found
      obtain rfl := Option.some.inj found
      rw [List.idxOf_cons_self, List.idxOf_cons_ne _ different]
      exact Nat.succ_pos _
    · rw [List.find?_cons_of_neg here] at found
      have notOther : first ≠ other := by
        rintro rfl
        exact here (List.find?_some found)
      have notKey : first ≠ key := by
        rintro rfl
        exact here also
      rw [List.idxOf_cons_ne _ notOther, List.idxOf_cons_ne _ notKey]
      exact Nat.succ_lt_succ (ih found)

end Positions

section Round
variable {round : Round} {loop : IpFilterLoop} {ip : String} {stamp : PyFloat}

/-- Whether what comes of a lookup is caught in the round. -/
def caught (oracle : Lookup) : Bool :=
  match oracle.parsed with
  | .error .locationParseError | .error (.other .valueError) | .error (.other .typeError) => true
  | .error (.other _) => false
  | .ok host =>
    host.getD "" == "" || match oracle.ipAddresses with
      | .ok _ | .error .socketError => true
      | .error (.other _) => false

theorem caught_iff {oracle : Lookup} : caught oracle = true ↔ Handled oracle := by
  obtain ⟨parsed, ipAddresses⟩ := oracle
  unfold caught Handled
  rcases parsed with (_ | err) | host
  · simp
  · cases err <;> simp
  · rcases ipAddresses with (_ | err) | ips <;> simp

/-- The addresses a round finds; one lookup that is not caught is its last. -/
def found (round : Round) : List String := ((oracles round.info).takeWhile caught).flatMap addresses

/-- A round in which every lookup is caught goes on to forget. -/
def completes (round : Round) : Bool := (oracles round.info).all caught

private theorem forM_refresh_found (now : PyFloat) (all : List Lookup) (loop : IpFilterLoop) :
    ∃ middle, Stamped now ((all.takeWhile caught).flatMap addresses) loop middle ∧
      (all.all caught = true ∧ all.forM (refresh now) loop = .ok () middle ∨
        all.all caught = false ∧ ∃ err, all.forM (refresh now) loop = .error err middle) := by
  induction all generalizing loop with
  | nil => exact ⟨loop, .nil, .inl ⟨rfl, rfl⟩⟩
  | cons oracle all ih =>
    rw [run_forM_cons]
    by_cases handled : Handled oracle
    · obtain ⟨next, ran, stamped⟩ := @refresh_handled now loop oracle handled
      have here : caught oracle = true := caught_iff.mpr handled
      obtain ⟨middle, later, outcome⟩ := ih next
      rw [ran, List.all_cons, here, Bool.true_and, List.takeWhile_cons_of_pos here, List.flatMap_cons]
      exact ⟨middle, stamped.append later, outcome⟩
    · obtain ⟨err, raised⟩ := @refresh_unhandled now loop oracle handled
      have here : ¬caught oracle = true := mt caught_iff.mp handled
      rw [raised, List.all_cons, Bool.eq_false_iff.mpr here, Bool.false_and, List.takeWhile_cons_of_neg here]
      exact ⟨loop, .nil, .inr ⟨rfl, err, rfl⟩⟩

/-- Looking up the oracles moves no address in the order. -/
theorem keys_prefix_refresh (now : PyFloat) (all : List Lookup) (loop : IpFilterLoop) :
    loop.validIps.keys <+: (finalState (all.forM (refresh now)) loop).validIps.keys := by
  have keeps : ∀ oracle, Preserves (fun after : IpFilterLoop => loop.validIps.keys <+: after.validIps.keys) (refresh now oracle) := by
    intro oracle
    have stamps : ∀ ips : List String, Preserves (fun after : IpFilterLoop => loop.validIps.keys <+: after.validIps.keys)
        (ips.forM fun ip => (modify fun loop => { loop with validIps := loop.validIps.set ip now } : LoopM PUnit)) := by
      intro ips
      apply Preserves.forM
      intro ip
      exact .modify fun state grown => grown.trans (keys_prefix_set _ _ _)
    unfold refresh
    split
    · exact .pure _
    · exact .pure _
    · exact .pure _
    · exact .throw _
    split
    · exact .pure _
    split
    · exact stamps _
    · exact .pure _
    · exact .throw _
  exact Preserves.forM keeps all loop List.prefix_rfl

/-- The loop after a round. -/
def after (round : Round) (loop : IpFilterLoop) : IpFilterLoop :=
  finalState (IpFilterLoop.run round.now round.oracleBlockchainInfoInterval round.info) loop

/-- The loop when the round goes on to forget. -/
def refreshed (round : Round) (loop : IpFilterLoop) : IpFilterLoop :=
  finalState ((oracles round.info).forM (refresh round.now)) loop

def stale (round : Round) (loop : IpFilterLoop) (ip : String) : Bool :=
  ((loop.validIps.get? ip).map (expired round.now round.oracleBlockchainInfoInterval)).getD false

private theorem forKeys_purge_find (round : Round) (loop : IpFilterLoop) :
    finalState (forKeys IpFilterLoop.validIps (purge round.now round.oracleBlockchainInfoInterval)) loop =
      (loop.validIps.keys.find? (stale round loop)).elim loop fun ip => { loop with validIps := loop.validIps.erase ip } := by
  apply forKeys_find
  · intro ip present fresh
    obtain ⟨stamp, read⟩ := mem_keys_iff.mp present
    simp only [stale, read, Option.map_some, Option.getD_some] at fresh
    exact purge_kept read fresh
  · intro ip present old
    obtain ⟨stamp, read⟩ := mem_keys_iff.mp present
    simp only [stale, read, Option.map_some, Option.getD_some] at old
    exact ⟨purge_expired read old, (length_keys_erase present).ne⟩

/-- A round that completes forgets the first address it finds stale, and nothing else. -/
theorem after_eq (round : Round) (loop : IpFilterLoop) : after round loop =
    if completes round then
      ((refreshed round loop).validIps.keys.find? (stale round (refreshed round loop))).elim (refreshed round loop)
        fun ip => { refreshed round loop with validIps := (refreshed round loop).validIps.erase ip }
    else refreshed round loop := by
  unfold after refreshed completes
  obtain ⟨middle, _, ⟨all, ran⟩ | ⟨all, err, raised⟩⟩ := forM_refresh_found round.now (oracles round.info) loop
  · rw [if_pos all, finalState, run, run_bind, forM_info, ran]
    have left : finalState ((oracles round.info).forM (refresh round.now)) loop = middle := by rw [finalState, ran]
    rw [left, ← forKeys_purge_find round middle, finalState]
    dsimp only
    rw [run_bind]
    cases forKeys IpFilterLoop.validIps (purge round.now round.oracleBlockchainInfoInterval) middle <;> rfl
  · rw [if_neg (by simp [all]), finalState, finalState, run, run_bind, forM_info, raised]

private theorem stamped_refreshed (round : Round) (loop : IpFilterLoop) : Stamped round.now (found round) loop (refreshed round loop) := by
  unfold refreshed found
  obtain ⟨middle, stamped, ⟨_, ran⟩ | ⟨_, err, raised⟩⟩ := forM_refresh_found round.now (oracles round.info) loop
  · rw [finalState, ran]
    exact stamped
  · rw [finalState, raised]
    exact stamped

/-- How many addresses are known before this one. -/
def position (loop : IpFilterLoop) (ip : String) : ℕ := loop.validIps.keys.idxOf ip

/-- The round would forget an address that was found last at that time. -/
def wouldForget (stamp : PyFloat) (round : Round) : Bool :=
  completes round && expired round.now round.oracleBlockchainInfoInterval stamp

private theorem position_refreshed (known : ip ∈ loop.validIps.keys) : position (refreshed round loop) ip = position loop ip :=
  ((keys_prefix_refresh round.now (oracles round.info) loop).idxOf_eq_of_mem known).symm

/-- What a round does to an address it does not find: it may forget it, or an address
before it where it would forget this one. -/
theorem after_unfound (absent : ip ∉ found round) (known : loop.validIps.get? ip = some stamp) :
    (after round loop).validIps.get? ip = none ∧ wouldForget stamp round = true ∨
      (after round loop).validIps.get? ip = some stamp ∧
        position (after round loop) ip + (if wouldForget stamp round then 1 else 0) ≤ position loop ip := by
  have same : (refreshed round loop).validIps.get? ip = some stamp := by
    rw [stamped_refreshed round loop ip, if_neg absent, known]
  have present := mem_keys_iff.mpr ⟨stamp, known⟩
  rw [← @position_refreshed round loop ip present, after_eq]
  have staleHere : stale round (refreshed round loop) ip = expired round.now round.oracleBlockchainInfoInterval stamp := by
    simp [stale, same]
  cases done : completes round with
  | false => exact .inr ⟨by simpa [done] using same, by simp [wouldForget, done]⟩
  | true =>
    simp only [if_true]
    cases first : (refreshed round loop).validIps.keys.find? (stale round (refreshed round loop)) with
    | none =>
      have fresh : expired round.now round.oracleBlockchainInfoInterval stamp = false := by
        rw [← staleHere]
        have all := List.find?_eq_none.mp first ip (mem_keys_iff.mpr ⟨stamp, same⟩)
        simpa using all
      exact .inr ⟨same, by simp [wouldForget, fresh]⟩
    | some other =>
      by_cases self : other = ip
      · subst self
        refine .inl ⟨by simp, ?_⟩
        rw [wouldForget, done, Bool.true_and, ← staleHere]
        exact List.find?_some first
      · have kept : decide (ip ≠ other) = true := by simpa using Ne.symm self
        refine .inr ⟨by simpa [Ne.symm self] using same, ?_⟩
        simp only [Option.elim_some, position, keys_erase]
        cases would : wouldForget stamp round with
        | false => exact idxOf_filter_le kept
        | true =>
          have also : stale round (refreshed round loop) ip = true := by
            rw [staleHere]
            simpa [wouldForget, done] using would
          exact idxOf_filter_lt kept (by simp) (idxOf_find?_lt first also self)

private theorem get?_refreshed (known : (after round loop).validIps.get? ip = some stamp) :
    (refreshed round loop).validIps.get? ip = some stamp := by
  rw [after_eq] at known
  split at known
  · cases first : (refreshed round loop).validIps.keys.find? (stale round (refreshed round loop)) with
    | none => rwa [first] at known
    | some other =>
      rw [first, Option.elim_some, get?_erase] at known
      split at known
      · cases known
      · exact known
  · exact known

/-- An address that is found is known afterwards, unless the round would forget it at once. -/
theorem after_found (here : ip ∈ found round) (kept : wouldForget round.now round = false) :
    (after round loop).validIps.get? ip = some round.now := by
  have known : (refreshed round loop).validIps.get? ip = some round.now := by
    rw [stamped_refreshed round loop ip, if_pos here]
  rw [after_eq]
  split
  next done =>
    have fresh : stale round (refreshed round loop) ip = false := by
      simpa [stale, known, wouldForget, done] using kept
    cases first : (refreshed round loop).validIps.keys.find? (stale round (refreshed round loop)) with
    | none => exact known
    | some other =>
      have different : ip ≠ other := by
        rintro rfl
        rw [List.find?_some first] at fresh
        cases fresh
      simpa [different] using known
  next => exact known

end Round

section Rounds
variable {rounds earlier later : List Round} {round : Round} {ip : String} {stamp : PyFloat}

/-- The loop after some rounds, from its start. -/
def reached (rounds : List Round) : IpFilterLoop := afterRounds rounds ⟨.empty⟩

private theorem reached_concat (rounds : List Round) (round : Round) : reached (rounds ++ [round]) = after round (reached rounds) := by
  rw [reached, afterRounds, List.foldl_concat]
  rfl

/-- An address that is known was found last in one of the rounds. Since then each round
that would forget it has forgotten one before it. -/
structure KnownSince (rounds : List Round) (ip : String) (stamp : PyFloat) (earlier : List Round) (round : Round)
    (later : List Round) : Prop where
  split : rounds = earlier ++ round :: later
  found : ip ∈ found round
  unfound : ∀ other ∈ later, ip ∉ IpFilterRuns.found other
  last : round.now = stamp
  spared : later.countP (wouldForget stamp) + position (reached rounds) ip ≤ position (reached (earlier ++ [round])) ip

private theorem knownSince (known : (reached rounds).validIps.get? ip = some stamp) : ∃ earlier round later,
    KnownSince rounds ip stamp earlier round later := by
  induction rounds using List.reverseRecOn generalizing stamp with
  | nil => cases known
  | append_singleton rounds last ih =>
    rw [reached_concat] at known
    have kept := get?_refreshed known
    rw [stamped_refreshed last (reached rounds) ip] at kept
    split at kept
    next here =>
      obtain rfl := Option.some.inj kept
      exact ⟨rounds, last, [], rfl, here, by simp, rfl, by simp⟩
    next absent =>
      obtain ⟨earlier, round, later, since⟩ := ih kept
      rcases after_unfound absent kept with ⟨gone, _⟩ | ⟨_, moved⟩
      · rw [gone] at known
        cases known
      · refine ⟨earlier, round, later ++ [last], by rw [since.split, List.append_assoc]; rfl, since.found, ?_, since.last, ?_⟩
        · intro other member
          rcases List.mem_append.mp member with before | here
          · exact since.unfound other before
          · exact List.mem_singleton.mp here ▸ absent
        · have spared := since.spared
          rw [reached_concat, List.countP_append, List.countP_singleton]
          omega

/-- An address stays known while no round would forget it. -/
theorem known_of_kept (here : ip ∈ found round) (unfound : ∀ other ∈ later, ip ∉ found other)
    (kept : ∀ other ∈ round :: later, wouldForget round.now other = false) :
    (reached (earlier ++ round :: later)).validIps.get? ip = some round.now := by
  induction later using List.reverseRecOn with
  | nil =>
    rw [reached_concat]
    exact after_found here (kept round List.mem_cons_self)
  | append_singleton later last ih =>
    have known := ih (fun other member => unfound other (List.mem_append_left _ member))
      fun other member => kept other (by rw [← List.cons_append]; exact List.mem_append_left _ member)
    rw [← List.cons_append, ← List.append_assoc, reached_concat]
    rcases after_unfound (unfound last (by simp)) known with ⟨_, would⟩ | ⟨still, _⟩
    · rw [kept last (by simp)] at would
      cases would
    · exact still

end Rounds

section Calls
variable {Response : Type} {rounds earlier later : List Round} {round : Round} {call : IpFilter.Call} {callNext : Except String Response}
  {debug : Bool} {repr : String → String}

/-- What the caller is told of what the endpoint does. -/
def told (debug : Bool) : Except String Response → Answer Response
  | .ok response => .next response
  | .error errorMsg => .error (if debug then 418 else 417) errorMsg

theorem filter_eq (loop : IpFilterLoop) (call : IpFilter.Call) (callNext : Except String Response) :
    filterIpsBySelectedOracles true debug repr (some loop) call callNext =
      .ok (told debug (checkClient repr (some loop) call >>= fun () => callNext)) := by
  rw [filterIpsBySelectedOracles, if_pos rfl]
  cases checkClient repr (some loop) call >>= fun () => callNext <;> rfl

private theorem passed_known {response : Response} {loop : IpFilterLoop} (closed : call.path ∉ openEndpoints)
    (passed : filterIpsBySelectedOracles true debug repr (some loop) call callNext = .ok (.next response)) :
    ∃ ip stamp, call.client = some ip ∧ loop.validIps.get? ip = some stamp := by
  rw [filter_eq] at passed
  cases client : call.client with
  | none =>
    rw [checkClient, client] at passed
    cases passed
  | some ip =>
    cases valid : loop.isValidIp ip with
    | true =>
      rw [IpFilterLoop.isValidIp, List.contains_iff_mem] at valid
      obtain ⟨stamp, known⟩ := mem_keys_iff.mp valid
      exact ⟨ip, stamp, rfl, known⟩
    | false =>
      have refused : checkClient repr (some loop) call = .error (notAuthorizedMsg ++ " " ++ repr ip) := by
        rw [checkClient, client]
        exact if_pos ⟨closed, valid⟩
      rw [refused] at passed
      cases passed

/-- A call that reaches an endpoint that signs comes from an address that some round has
found for a selected oracle. The rounds since the last such round that would have
forgotten it are no more than the addresses that were known before it. -/
theorem passed_recently_found {response : Response} (closed : call.path ∉ openEndpoints)
    (passed : filterIpsBySelectedOracles true debug repr (some (reached rounds)) call callNext = .ok (.next response)) :
    ∃ ip earlier round later, call.client = some ip ∧ rounds = earlier ++ round :: later ∧ ip ∈ found round ∧
      (∀ other ∈ later, ip ∉ found other) ∧ later.countP (wouldForget round.now) ≤ position (reached (earlier ++ [round])) ip := by
  obtain ⟨ip, stamp, client, known⟩ := passed_known closed passed
  obtain ⟨earlier, round, later, since⟩ := knownSince known
  obtain rfl := since.last
  exact ⟨ip, earlier, round, later, client, since.split, since.found, since.unfound, le_of_add_le_left since.spared⟩

def foundTwo : Round :=
  ⟨.finite 3600, 60, [some [⟨.ok (some "first"), .ok ["10.0.0.1"]⟩, ⟨.ok (some "second"), .ok ["10.0.0.2"]⟩]]⟩

def foundNone : Round := ⟨.finite 7200, 60, []⟩

def signCall : IpFilter.Call := ⟨some "10.0.0.2", "/sign/"⟩

/-- The second round has only forgotten the first of the two. -/
theorem passed_recently_found_late : ∃ ip earlier round later, signCall.client = some ip ∧
    [foundTwo, foundNone] = earlier ++ round :: later ∧ ip ∈ found round ∧ (∀ other ∈ later, ip ∉ found other) ∧
    later.countP (wouldForget round.now) ≤ position (reached (earlier ++ [round])) ip := by
  have passed : filterIpsBySelectedOracles true false id (some (reached [foundTwo, foundNone])) signCall (.ok ()) =
      .ok (.next ()) := by
    decide +kernel
  exact passed_recently_found (by decide) passed

/-- A selected oracle that a round has found is let in until a round would forget it,
and then has the endpoint's answer. -/
theorem found_passes {ip : String} (client : call.client = some ip) (here : ip ∈ found round)
    (unfound : ∀ other ∈ later, ip ∉ found other) (kept : ∀ other ∈ round :: later, wouldForget round.now other = false) :
    filterIpsBySelectedOracles true debug repr (some (reached (earlier ++ round :: later))) call callNext =
      .ok (told debug callNext) := by
  have known := @known_of_kept earlier later round ip here unfound kept
  have valid : (reached (earlier ++ round :: later)).isValidIp ip = true := by
    rw [IpFilterLoop.isValidIp, List.contains_iff_mem]
    exact mem_keys_iff.mpr ⟨_, known⟩
  have lets : checkClient repr (some (reached (earlier ++ round :: later))) call = .ok () := by
    simp [checkClient, client, IpFilter.isValidIp, valid]
  rw [filter_eq, lets]
  rfl

theorem found_passes_next : filterIpsBySelectedOracles true false id (some (reached ([] ++ foundTwo :: [⟨.finite 3690, 60, []⟩])))
    signCall (.error "Can't be signed" : Except String Unit) = .ok (.error 417 "Can't be signed") :=
  found_passes rfl (by decide) (by simp [found, oracles]) (by decide +kernel)

end Calls

end OmocNode.Proofs.IpFilterRuns
