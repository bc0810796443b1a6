import OmocNode.IpFilterLoop
import OmocNode.Proofs.DecimalRounding

/-! What a round of the IP filter leaves of the addresses it knew. It purges the
dictionary it walks over, so the first stale address it deletes ends the round. -/

namespace OmocNode.Proofs.StalePeers
open IpFilterLoop StateFrame Dict

/-- Whatever parsing and resolving come to is caught. -/
def Handled (oracle : Lookup) : Prop :=
  match oracle.parsed with
  | .error .locationParseError | .error (.other .valueError) | .error (.other .typeError) => True
  | .error (.other _) => False
  | .ok host => host.getD "" = "" ∨ ∀ err, oracle.ipAddresses ≠ .error (.other err)

/-- The addresses a round takes from an oracle. -/
def addresses (oracle : Lookup) : List String :=
  match oracle.parsed with
  | .error _ => []
  | .ok host => if host.getD "" = "" then [] else oracle.ipAddresses.toOption.getD []

/-- The oracles of a round, those of every coin pair with an info. -/
def oracles (info : List (Option (List Lookup))) : List Lookup := info.flatMap fun bi => bi.getD []

def resolved (info : List (Option (List Lookup))) : List String := (oracles info).flatMap addresses

/-- The round returns, and knows the addresses it resolved, stamped now, and of the earlier ones those not yet expired. -/
def Forgets (now : PyFloat) (interval : Int) (info : List (Option (List Lookup))) (loop : IpFilterLoop) : Prop :=
  ∃ after, run now interval info loop = .ok interval after ∧ ∀ ip stamp, after.validIps.get? ip = some stamp ↔
    ip ∈ resolved info ∧ stamp = now ∨
      ip ∉ resolved info ∧ loop.validIps.get? ip = some stamp ∧ expired now interval stamp = false

/-- Nothing is left to purge once the round has looked up the oracles. -/
def NothingStale (now : PyFloat) (interval : Int) (info : List (Option (List Lookup))) (loop : IpFilterLoop) : Prop :=
  (∀ ip stamp, loop.validIps.get? ip = some stamp → expired now interval stamp = true → ip ∈ resolved info) ∧
    (resolved info = [] ∨ 0 ≤ interval)

section Refresh
variable {now : PyFloat} {loop : IpFilterLoop}

/-- A loop that differs from another in addresses stamped now. -/
def Stamped (now : PyFloat) (ips : List String) (loop after : IpFilterLoop) : Prop :=
  ∀ ip, after.validIps.get? ip = if ip ∈ ips then some now else loop.validIps.get? ip

theorem Stamped.nil : Stamped now [] loop loop := fun ip => by simp

theorem Stamped.append {ips more : List String} {middle after : IpFilterLoop} (first : Stamped now ips loop middle)
    (rest : Stamped now more middle after) : Stamped now (ips ++ more) loop after := by
  intro ip
  rw [rest ip, first ip]
  by_cases late : ip ∈ more <;> by_cases early : ip ∈ ips <;> simp [late, early]

private theorem forM_set (ips : List String) : ∃ after,
    (ips.forM fun ip => (modify fun loop => { loop with validIps := loop.validIps.set ip now } : LoopM PUnit)) loop = .ok () after ∧
      Stamped now ips loop after := by
  induction ips generalizing loop with
  | nil => exact ⟨loop, rfl, .nil⟩
  | cons ip ips ih =>
    obtain ⟨after, ran, stamped⟩ := @ih { loop with validIps := loop.validIps.set ip now }
    refine ⟨after, ?_, ?_⟩
    · rw [run_forM_cons, run_modify]
      exact ran
    · have first : Stamped now [ip] loop { loop with validIps := loop.validIps.set ip now } :=
        fun other => by simp
      exact first.append stamped

theorem refresh_handled {oracle : Lookup} (handled : Handled oracle) :
    ∃ after, refresh now oracle loop = .ok () after ∧ Stamped now (addresses oracle) loop after := by
  unfold Handled at handled
  unfold refresh addresses
  split at handled
  next parsed => exact ⟨loop, by rw [parsed]; rfl, by rw [parsed]; exact .nil⟩
  next parsed => exact ⟨loop, by rw [parsed]; rfl, by rw [parsed]; exact .nil⟩
  next parsed => exact ⟨loop, by rw [parsed]; rfl, by rw [parsed]; exact .nil⟩
  next => exact False.elim handled
  next host parsed =>
    rw [parsed]
    dsimp only
    by_cases missing : host.getD "" = ""
    · rw [if_pos missing, if_pos missing]
      exact ⟨loop, rfl, .nil⟩
    · rw [if_neg missing, if_neg missing]
      have caught := handled.resolve_left missing
      cases answer : oracle.ipAddresses with
      | ok ips => exact forM_set ips
      | error failure =>
        cases failure with
        | socketError => exact ⟨loop, rfl, .nil⟩
        | other err => exact absurd answer (caught err)

theorem refresh_unhandled {oracle : Lookup} (unhandled : ¬Handled oracle) :
    ∃ err, refresh now oracle loop = .error err loop := by
  unfold Handled at unhandled
  unfold refresh
  split at unhandled
  next => exact absurd trivial unhandled
  next => exact absurd trivial unhandled
  next => exact absurd trivial unhandled
  next err notValue notType parsed =>
    rw [parsed]
    cases err <;> first | exact ⟨_, rfl⟩ | exact absurd rfl notValue | exact absurd rfl notType
  next host parsed =>
    obtain ⟨present, fails⟩ := not_or.mp unhandled
    obtain ⟨err, answer⟩ := not_forall.mp fails
    rw [parsed]
    dsimp only
    rw [if_neg present, not_not.mp answer]
    exact ⟨err, rfl⟩

private theorem forM_refresh (all : List Lookup) :
    (∀ oracle ∈ all, Handled oracle) ∧
        (∃ after, all.forM (refresh now) loop = .ok () after ∧ Stamped now (all.flatMap addresses) loop after) ∨
      (∃ oracle ∈ all, ¬Handled oracle) ∧ ∃ err after, all.forM (refresh now) loop = .error err after := by
  induction all generalizing loop with
  | nil => exact Or.inl ⟨by simp, loop, rfl, .nil⟩
  | cons oracle all ih =>
    rw [run_forM_cons]
    by_cases handled : Handled oracle
    · obtain ⟨middle, ran, stamped⟩ := @refresh_handled now loop oracle handled
      rw [ran]
      rcases @ih middle with ⟨rest, after, ran', stamped'⟩ | ⟨⟨other, member, fails⟩, raised⟩
      · exact Or.inl ⟨List.forall_mem_cons.mpr ⟨handled, rest⟩, after, ran', stamped.append stamped'⟩
      · exact Or.inr ⟨⟨other, List.mem_cons_of_mem _ member, fails⟩, raised⟩
    · obtain ⟨err, raised⟩ := @refresh_unhandled now loop oracle handled
      rw [raised]
      exact Or.inr ⟨⟨oracle, List.mem_cons_self, handled⟩, err, loop, rfl⟩

end Refresh

section Purge
variable {now : PyFloat} {interval : Int} {loop : IpFilterLoop}

theorem purge_kept {ip : String} {stamp : PyFloat} (read : loop.validIps.get? ip = some stamp)
    (fresh : expired now interval stamp = false) : purge now interval ip loop = .ok () loop := by
  simp only [purge, run_bind, run_get, read, fresh, Bool.false_eq_true, if_false, run_pure]

theorem purge_expired {ip : String} {stamp : PyFloat} (read : loop.validIps.get? ip = some stamp)
    (stale : expired now interval stamp = true) :
    purge now interval ip loop = .ok () { loop with validIps := loop.validIps.erase ip } := by
  simp only [purge, run_bind, run_get, read, stale, if_true, run_modify]

/-- The walk ends normally exactly where it has nothing to delete. -/
theorem forKeys_purge (loop : IpFilterLoop) :
    (∀ ip stamp, loop.validIps.get? ip = some stamp → expired now interval stamp = false) ∧
        forKeys IpFilterLoop.validIps (purge now interval) loop = .ok () loop ∨
      (∃ ip stamp, loop.validIps.get? ip = some stamp ∧ expired now interval stamp = true) ∧
        ∃ after, forKeys IpFilterLoop.validIps (purge now interval) loop = .error changedSize after := by
  have each : ∀ ip ∈ loop.validIps.keys, purge now interval ip loop = .ok () loop ∨
      ∃ after, purge now interval ip loop = .ok () after ∧ after.validIps.keys.length ≠ loop.validIps.keys.length := by
    intro ip present
    obtain ⟨stamp, read⟩ := mem_keys_iff.mp present
    cases verdict : expired now interval stamp with
    | false => exact Or.inl (purge_kept read verdict)
    | true => exact Or.inr ⟨_, purge_expired read verdict, (length_keys_erase present).ne⟩
  rcases forKeys_cases each with ⟨idle, normal⟩ | ⟨⟨ip, present, acts⟩, raised⟩
  · refine Or.inl ⟨?_, normal⟩
    intro ip stamp read
    have present := mem_keys_iff.mpr ⟨stamp, read⟩
    cases verdict : expired now interval stamp with
    | false => rfl
    | true =>
      have same := idle ip present
      rw [purge_expired read verdict] at same
      injection same with _ same'
      exact absurd (congrArg (fun loop => loop.validIps.keys.length) same') (length_keys_erase present).ne
  · refine Or.inr ⟨?_, raised⟩
    obtain ⟨stamp, read⟩ := mem_keys_iff.mp present
    refine ⟨ip, stamp, read, ?_⟩
    cases verdict : expired now interval stamp with
    | true => rfl
    | false => exact absurd (purge_kept read verdict) acts

end Purge

theorem forM_info {now : PyFloat} (info : List (Option (List Lookup))) (loop : IpFilterLoop) :
    info.forM (refreshAll now) loop = (oracles info).forM (refresh now) loop := by
  induction info generalizing loop with
  | nil => rfl
  | cons bi info ih =>
    rw [run_forM_cons, oracles, List.flatMap_cons, run_forM_append]
    cases bi with
    | none => exact ih loop
    | some selectedOracles =>
      simp only [refreshAll, Option.getD_some]
      cases selectedOracles.forM (refresh now) loop with
      | ok value middle => exact ih middle
      | error failure middle => rfl

private theorem expired_now (now : ℚ) (interval : Int) : expired (.finite now) interval (.finite now) = decide (interval < 0) := by
  have sign : (interval : ℚ) * 2 < 0 ↔ interval < 0 := by
    rw [mul_neg_iff]
    simp
  simp [expired, PyFloat.sub, PyFloat.ofRat, DecimalRounding.rounded_zero, PyFloat.gtInt, sign]

section Round
variable {now : ℚ} {interval : Int} {info : List (Option (List Lookup))} {loop : IpFilterLoop}

/-- The addresses known when the purge begins. -/
def Refreshed (now : PyFloat) (info : List (Option (List Lookup))) (loop middle : IpFilterLoop) : Prop :=
  ∀ ip stamp, middle.validIps.get? ip = some stamp ↔
    ip ∈ resolved info ∧ stamp = now ∨ ip ∉ resolved info ∧ loop.validIps.get? ip = some stamp

private theorem run_cases (now : PyFloat) (interval : Int) (info : List (Option (List Lookup))) (loop : IpFilterLoop) :
    (∀ oracle ∈ oracles info, Handled oracle) ∧ (∃ middle, Refreshed now info loop middle ∧
        run now interval info loop =
          match forKeys IpFilterLoop.validIps (purge now interval) middle with
          | .ok _ after => .ok interval after
          | .error failure after => .error failure after) ∨
      (∃ oracle ∈ oracles info, ¬Handled oracle) ∧ ∃ err after, run now interval info loop = .error err after := by
  rcases @forM_refresh now loop (oracles info) with ⟨handled, middle, ran, stamped⟩ | ⟨unhandled, err, after, raised⟩
  · refine Or.inl ⟨handled, middle, ?_, ?_⟩
    · intro ip stamp
      rw [stamped ip, ← resolved]
      by_cases member : ip ∈ resolved info <;> simp [member, eq_comm]
    · rw [run, run_bind, forM_info, ran]
      dsimp only
      rw [run_bind]
      cases forKeys IpFilterLoop.validIps (purge now interval) middle <;> rfl
  · refine Or.inr ⟨unhandled, err, after, ?_⟩
    rw [run, run_bind, forM_info, raised]

theorem Refreshed.nothingStale_iff {middle : IpFilterLoop} (known : Refreshed (.finite now) info loop middle) :
    NothingStale (.finite now) interval info loop ↔
      ∀ ip stamp, middle.validIps.get? ip = some stamp → expired (.finite now) interval stamp = false := by
  constructor
  · intro nothing ip stamp read
    obtain ⟨earlier, clock⟩ := nothing
    rcases (known ip stamp).mp read with ⟨member, rfl⟩ | ⟨absent, before⟩
    · rw [expired_now]
      simpa using clock.resolve_left (List.ne_nil_of_mem member)
    · exact Bool.eq_false_iff.mpr fun old => absent (earlier ip stamp before old)
  · intro fresh
    refine ⟨?_, ?_⟩
    · intro ip stamp before old
      by_contra absent
      rw [fresh ip stamp ((known ip stamp).mpr (Or.inr ⟨absent, before⟩))] at old
      cases old
    · cases all : resolved info with
      | nil => exact Or.inl rfl
      | cons ip rest =>
        have here := fresh ip (.finite now) ((known ip _).mpr (Or.inl ⟨by simp [all], rfl⟩))
        rw [expired_now] at here
        exact Or.inr (by simpa using here)

private theorem nothingStale_of_forgets (forgets : Forgets (.finite now) interval info loop) :
    (∀ oracle ∈ oracles info, Handled oracle) ∧ NothingStale (.finite now) interval info loop := by
  obtain ⟨_, normal, _⟩ := forgets
  rcases run_cases (.finite now) interval info loop with ⟨handled, middle, known, result⟩ | ⟨_, err, after, raised⟩
  · refine ⟨handled, known.nothingStale_iff.mpr ?_⟩
    rcases forKeys_purge middle with ⟨fresh, _⟩ | ⟨_, after, raised⟩
    · exact fresh
    · rw [result, raised] at normal
      cases normal
  · rw [raised] at normal
    cases normal

private theorem forgets_of_nothingStale (handled : ∀ oracle ∈ oracles info, Handled oracle)
    (nothing : NothingStale (.finite now) interval info loop) : Forgets (.finite now) interval info loop := by
  rcases run_cases (.finite now) interval info loop with ⟨_, middle, known, result⟩ | ⟨⟨oracle, member, unhandled⟩, _⟩
  · have fresh := known.nothingStale_iff.mp nothing
    rcases forKeys_purge middle with ⟨_, normal⟩ | ⟨⟨ip, stamp, read, old⟩, _⟩
    · refine ⟨middle, by rw [result, normal], ?_⟩
      intro ip stamp
      rw [known ip stamp]
      refine or_congr_right (and_congr_right fun absent => ?_)
      exact (and_iff_left_of_imp fun before => fresh ip stamp ((known ip stamp).mpr (Or.inr ⟨absent, before⟩))).symm
    · rw [fresh ip stamp read] at old
      cases old
  · exact absurd (handled oracle member) unhandled

/-- Whom the node answers to after such a round. -/
theorem isValidIp_of_forgets {now : PyFloat} (forgets : Forgets now interval info loop) :
    ∃ after, run now interval info loop = .ok interval after ∧ ∀ ip, after.isValidIp ip = true ↔
      ip ∈ resolved info ∨ ∃ stamp, loop.validIps.get? ip = some stamp ∧ expired now interval stamp = false := by
  obtain ⟨after, normal, known⟩ := forgets
  refine ⟨after, normal, ?_⟩
  intro ip
  rw [isValidIp, List.contains_iff_mem, mem_keys_iff]
  simp only [known]
  constructor
  · intro present
    obtain ⟨stamp, ⟨member, _⟩ | ⟨_, earlier⟩⟩ := present
    · exact Or.inl member
    · exact Or.inr ⟨stamp, earlier⟩
  · intro either
    by_cases member : ip ∈ resolved info
    · exact ⟨now, Or.inl ⟨member, rfl⟩⟩
    · obtain ⟨stamp, earlier⟩ := either.resolve_left member
      exact ⟨stamp, Or.inr ⟨member, earlier⟩⟩

end Round

/-- A round forgets as it should exactly where it raises nothing on the way and finds nothing to forget. -/
theorem forgets_iff_nothing_stale (now : ℚ) (interval : Int) (info : List (Option (List Lookup))) (loop : IpFilterLoop) :
    Forgets (.finite now) interval info loop ↔
      (∀ oracle ∈ oracles info, Handled oracle) ∧ NothingStale (.finite now) interval info loop :=
  ⟨nothingStale_of_forgets, fun both => forgets_of_nothingStale both.1 both.2⟩

/-- One address has not been seen for an hour, and the interval is a minute. -/
theorem stale_peer_ends_round :
    ¬Forgets (.finite 7200) 60 [] { validIps := .ofList [("10.0.0.1", .finite 3600), ("10.0.0.2", .finite 7170)] } := by
  intro forgets
  have kept := (nothingStale_of_forgets forgets).2.1 "10.0.0.1" (.finite 3600) (by decide +kernel) (by decide +kernel)
  simp [resolved, oracles] at kept

end OmocNode.Proofs.StalePeers
