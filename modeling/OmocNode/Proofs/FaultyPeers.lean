import OmocNode.Proofs.FixedWidth
import OmocNode.Proofs.GatherSignatures

/-! When the peers that misbehave leave a publication with a quorum alone: exactly
when those that lack both endpoints are not waited for. -/

namespace OmocNode.Proofs.FaultyPeers
open CoinPairLoop Outcomes Arrivals Addresses RequestChecks GatherSignatures

variable {eth : EthAccount} {network : Network} {completed oracles : List FullOracleRoundInfo} {params : PublishParams}
  {message : String} {mySignature : Bytes} {legacy : LegacyForm}

/-- The gathering returns valid signatures only, and enough of them if half the peers sign. -/
def GathersQuorum (eth : EthAccount) (network : Network) (completed oracles : List FullOracleRoundInfo) (params : PublishParams)
    (message : String) (mySignature : Bytes) (legacy : LegacyForm) : Prop :=
  ∃ sigs, gatherSignatures eth network completed oracles params message mySignature (some legacy) = .ok sigs ∧
    mySignature ∈ sigs ∧
    (∀ sig ∈ sigs, sig = mySignature ∨ ∃ peer ∈ peers oracles params.oracleAddr,
      Crypto.recover eth message sig = .ok peer.addr.text ∨ Crypto.recover eth legacy.message sig = .ok peer.addr.text) ∧
    (oracles.length / 2 ≤ completed.countP (delivers eth network params message legacy) →
      oracles.length / 2 + 1 ≤ sigs.length)

/-- A peer that lacks both endpoints completes after enough others have signed. -/
def UnsupportedComeLate (eth : EthAccount) (network : Network) (completed : List FullOracleRoundInfo) (params : PublishParams)
    (message : String) (legacy : LegacyForm) (needed : Nat) : Prop :=
  ∀ before peer after, completed = before ++ peer :: after → lacksBothEndpoints network params legacy peer = true →
    needed ≤ before.countP (delivers eth network params message legacy)

theorem countP_delivers_le (list : List FullOracleRoundInfo) :
    list.countP (delivers eth network params message legacy) ≤
      (list.filterMap (getSignature eth network params message (some legacy))).length := by
  rw [List.length_filterMap_eq_countP]
  apply List.countP_mono_left
  intro oracle _ signs
  obtain ⟨signed, answered⟩ := exists_getSignature_eq_iff.mpr signs
  rw [answered]
  rfl

/-- Before the first marker, only signatures are kept. -/
theorem countP_delivers_eq {list : List FullOracleRoundInfo}
    (unmarked : ∀ oracle ∈ list, getSignature eth network params message (some legacy) oracle ≠ some .unsupportedEndpoint) :
    list.countP (delivers eth network params message legacy) =
      (list.filterMap (getSignature eth network params message (some legacy))).length := by
  rw [List.length_filterMap_eq_countP]
  apply List.countP_congr
  intro oracle member
  rw [← exists_getSignature_eq_iff]
  cases answered : getSignature eth network params message (some legacy) oracle with
  | none => simp
  | some result =>
    cases result with
    | unsupportedEndpoint => exact absurd answered (unmarked oracle member)
    | signature signed => simp

/-- The marker is among the first results unless all peers that leave it come late. -/
theorem arrivesInTime_unsupported_iff {needed : Nat} :
    ArrivesInTime needed 0 (completed.map (getSignature eth network params message (some legacy))) .unsupportedEndpoint ↔
      ¬UnsupportedComeLate eth network completed params message legacy needed := by
  constructor
  · intro arrives late
    obtain ⟨first, others, split, early⟩ := arrives
    obtain ⟨before, rest, rfl, rfl, tail⟩ := List.map_eq_append_iff.mp split
    obtain ⟨peer, after, rfl, marked, _⟩ := List.map_eq_cons_iff.mp tail
    have enough := late before peer after rfl (getSignature_eq_unsupported_iff.mp marked)
    have kept := @countP_delivers_le eth network params message legacy before
    rw [Nat.zero_add, reduceOption_map_eq] at early
    omega
  · intro early
    simp only [UnsupportedComeLate, not_forall, not_le] at early
    obtain ⟨before, peer, after, rfl, lacks, few⟩ := early
    have marked : some PeerResult.unsupportedEndpoint ∈
        (before ++ [peer]).map (getSignature eth network params message (some legacy)) :=
      List.mem_map.mpr ⟨peer, by simp, getSignature_eq_unsupported_iff.mpr lacks⟩
    -- The first marker, with signatures and empty results only before it.
    obtain ⟨start, others, split, fresh⟩ := List.eq_append_cons_of_mem marked
    obtain ⟨seen, rest, parts, rfl, tail⟩ := List.map_eq_append_iff.mp split
    have silent : delivers eth network params message legacy peer = false := by
      rw [← Bool.not_eq_true, ← exists_getSignature_eq_iff, getSignature_eq_unsupported_iff.mpr lacks]
      simp
    have fewer : seen.countP (delivers eth network params message legacy) < needed := by
      have within : seen.countP (delivers eth network params message legacy) ≤
          (seen ++ rest).countP (delivers eth network params message legacy) := (List.sublist_append_left seen rest).countP_le
      rw [← parts, List.countP_append, List.countP_singleton, silent] at within
      exact within.trans_lt few
    refine ⟨seen.map (getSignature eth network params message (some legacy)),
      others ++ after.map (getSignature eth network params message (some legacy)), ?_, ?_⟩
    · rw [← List.singleton_append, ← List.append_assoc, List.map_append, split, List.append_assoc, List.cons_append]
    · rw [Nat.zero_add, reduceOption_map_eq,
        ← countP_delivers_eq fun oracle member same => fresh (same ▸ List.mem_map_of_mem member)]
      exact fewer

/-- With one oracle only there is no peer to wait for. -/
theorem no_peers (publisher : ∃ oracle ∈ oracles, oracle.addr.text = params.oracleAddr) (alone : oracles.length / 2 = 0) :
    peers oracles params.oracleAddr = [] := by
  obtain ⟨oracle, member, own⟩ := publisher
  obtain ⟨only, rfl⟩ : ∃ only, oracles = [only] := by
    rw [← List.length_eq_one_iff]
    have := List.length_pos_of_mem member
    omega
  obtain rfl := List.mem_singleton.mp member
  simp [peers, own]

theorem signers_of_taken {taken : List PeerResult} (publisher : ∃ oracle ∈ oracles, oracle.addr.text = params.oracleAddr)
    (results : ∀ result ∈ taken, ∃ oracle, getSignature eth network params message (some legacy) oracle = some result)
    (unmarked : PeerResult.unsupportedEndpoint ∉ taken) :
    ∃ sorted, sortedSignatures (taken ++ [.signature ⟨params.oracleAddr, mySignature⟩]) = .ok sorted := by
  apply sortedSignatures_total
  intro result member
  rcases List.mem_append.mp member with inTaken | own
  · obtain ⟨oracle, answered⟩ := results result inTaken
    cases result with
    | unsupportedEndpoint => exact absurd inTaken unmarked
    | signature signed => exact ⟨signed, oracle.addr, rfl, (valid_of_getSignature answered).1⟩
  · obtain ⟨oracle, _, same⟩ := publisher
    rw [List.mem_singleton] at own
    exact ⟨_, oracle.addr, own, same.symm⟩

/-- The loop returns, and what it keeps are results of peers that completed. -/
theorem collect_peers (arrived : completed.Perm (peers oracles params.oracleAddr)) :
    ∃ taken, collect (oracles.length / 2) ((peers oracles params.oracleAddr).length - completed.length)
        (completed.map (getSignature eth network params message (some legacy))) [] = .ok taken ∧
      (∀ result ∈ taken, ∃ oracle ∈ peers oracles params.oracleAddr,
        getSignature eth network params message (some legacy) oracle = some result) ∧
      (oracles.length / 2 ≤ completed.countP (delivers eth network params message legacy) → oracles.length / 2 ≤ taken.length) := by
  rw [arrived.length_eq, Nat.sub_self]
  obtain ⟨taken, collected⟩ := collect_ok (oracles.length / 2) (completed.map (getSignature eth network params message (some legacy))) []
  obtain ⟨first, others, split, rfl, stopped⟩ := collect_cases collected
  obtain ⟨seen, rest, rfl, rfl, rfl⟩ := List.map_eq_append_iff.mp split
  rw [List.nil_append, reduceOption_map_eq] at *
  refine ⟨_, collected, ?_, ?_⟩
  · intro result member
    obtain ⟨oracle, asked, answered⟩ := List.mem_filterMap.mp member
    exact ⟨oracle, arrived.mem_iff.mp (List.mem_append_left _ asked), answered⟩
  · intro signing
    rcases stopped with enough | all
    · exact enough
    · obtain rfl := List.map_eq_nil_iff.mp all
      rw [List.append_nil] at signing
      exact signing.trans (countP_delivers_le seen)

/-- A marker is taken exactly when a peer that leaves one does not come late. -/
theorem unsupported_mem_iff {taken : List PeerResult} (publisher : ∃ oracle ∈ oracles, oracle.addr.text = params.oracleAddr)
    (arrived : completed.Perm (peers oracles params.oracleAddr))
    (collected : collect (oracles.length / 2) ((peers oracles params.oracleAddr).length - completed.length)
      (completed.map (getSignature eth network params message (some legacy))) [] = .ok taken) :
    PeerResult.unsupportedEndpoint ∈ taken ↔
      ¬UnsupportedComeLate eth network completed params message legacy (oracles.length / 2) := by
  rcases Nat.eq_zero_or_pos (oracles.length / 2) with alone | several
  · rw [no_peers publisher alone, List.perm_nil] at arrived
    subst arrived
    rw [no_peers publisher alone] at collected
    cases collected
    simp [UnsupportedComeLate]
  · rw [mem_collect_iff (by simpa using several) collected, ← arrivesInTime_unsupported_iff]
    simp

/-- A publication gets its quorum exactly when the peers that lack both endpoints come late. -/
theorem gathers_quorum_iff (publisher : ∃ oracle ∈ oracles, oracle.addr.text = params.oracleAddr)
    (arrived : completed.Perm (peers oracles params.oracleAddr)) :
    GathersQuorum eth network completed oracles params message mySignature legacy ↔
      UnsupportedComeLate eth network completed params message legacy (oracles.length / 2) := by
  obtain ⟨taken, collected, asked, enough⟩ := @collect_peers eth network completed oracles params message legacy arrived
  have marked := unsupported_mem_iff publisher arrived collected
  constructor
  · intro gathers
    obtain ⟨sigs, gathered, -⟩ := gathers
    by_contra early
    obtain ⟨signers, signed, -⟩ := map_eq_ok_iff.mp gathered
    obtain ⟨_, again, sorted⟩ := gatherSigned_ok_iff.mp signed
    obtain rfl := Except.ok.inj (collected.symm.trans again)
    have kept := (sortedSignatures_ok sorted).1.mem_iff.mpr (List.mem_append_left _ (marked.mpr early))
    obtain ⟨signer, _, same⟩ := List.mem_map.mp kept
    cases same
  · intro late
    have unmarked : PeerResult.unsupportedEndpoint ∉ taken := fun member => marked.mp member late
    obtain ⟨signers, sorted⟩ := @signers_of_taken eth network oracles params message mySignature legacy taken publisher
      (fun result member => (asked result member).imp fun _ => And.right) unmarked
    have same := (sortedSignatures_ok sorted).1
    have length := same.length_eq
    rw [List.length_map, List.length_append, List.length_singleton] at length
    refine ⟨signers.map (·.signature), map_eq_ok_iff.mpr ⟨signers, gatherSigned_ok_iff.mpr ⟨taken, collected, sorted⟩, rfl⟩,
      ?_, ?_, ?_⟩
    · obtain ⟨signer, member, own⟩ := List.mem_map.mp (same.mem_iff.mpr (List.mem_append_right taken (List.mem_singleton_self _)))
      obtain rfl := PeerResult.signature.inj own
      exact List.mem_map.mpr ⟨_, member, rfl⟩
    · intro sig member
      obtain ⟨signer, signing, rfl⟩ := List.mem_map.mp member
      rcases List.mem_append.mp (same.mem_iff.mp (List.mem_map_of_mem signing)) with inTaken | own
      · obtain ⟨peer, among, answered⟩ := asked _ inTaken
        obtain ⟨address, valid⟩ := valid_of_getSignature answered
        rw [address] at valid
        refine .inr ⟨peer, among, valid.imp id ?_⟩
        intro old
        obtain ⟨_, form, given, recovered⟩ := old
        obtain rfl := Option.mem_some_iff.mp given
        exact recovered
      · rw [List.mem_singleton] at own
        obtain rfl := PeerResult.signature.inj own
        exact .inl rfl
    · intro signing
      rw [List.length_map, length]
      exact Nat.add_le_add_right (enough signing) 1

/-- The exchange with the signature of one peer, the only texts it is asked about. -/
def exchangeEth : EthAccount where
  hexBytes := FixedWidth.plainHexBytes
  recoverMessage message signature :=
    if message = requestedMessage ∧ signature = signerSignature then .ok signerAddr.text else .error .valueError
  signMessage _ _ := .ok requesterSignature

def outdatedOracle : FullOracleRoundInfo :=
  exchangeOracle ⟨"0xfA2435Eacf10Ca62ae6787ba2fB044f8733Ee843", by decide⟩ "http://outdated:5556"

/-- One peer signs, the other knows neither endpoint. -/
def outdatedNetwork : Network := fun oracle path =>
  if oracle = signingOracle ∧ path = "/sign-price-v4/" then
    .response 200 (some (.object [("message", .string requestedMessage), ("signature", .string (FixedWidth.plainHexBytes.hex signerSignature))]))
  else .response 404 none

def exchangeOracles : List FullOracleRoundInfo := [publishingOracle, signingOracle, outdatedOracle]

theorem gathers_quorum_iff_late :
    (∃ oracle ∈ exchangeOracles, oracle.addr.text = exchangeParams.oracleAddr) ∧
      [signingOracle, outdatedOracle].Perm (peers exchangeOracles exchangeParams.oracleAddr) ∧
      (GathersQuorum exchangeEth outdatedNetwork [signingOracle, outdatedOracle] exchangeOracles (.price exchangeParams)
          requestedMessage requesterSignature exchangeLegacy ↔
        UnsupportedComeLate exchangeEth outdatedNetwork [signingOracle, outdatedOracle] (.price exchangeParams)
          requestedMessage exchangeLegacy 1) := by
  have publisher : ∃ oracle ∈ exchangeOracles, oracle.addr.text = exchangeParams.oracleAddr :=
    ⟨publishingOracle, List.mem_cons_self, rfl⟩
  have arrived : [signingOracle, outdatedOracle].Perm (peers exchangeOracles exchangeParams.oracleAddr) := by decide
  exact ⟨publisher, arrived, gathers_quorum_iff publisher arrived⟩

/-- One signature of two peers would do, but the answer of the outdated one comes first. -/
theorem outdated_peer_stops_round :
    ((∃ oracle ∈ exchangeOracles, oracle.addr.text = exchangeParams.oracleAddr) ∧
      (exchangeOracles.map (·.addr.number)).Nodup ∧
      [outdatedOracle, signingOracle].Perm (peers exchangeOracles exchangeParams.oracleAddr) ∧
      exchangeParams.prepareMsg = .ok requestedMessage ∧ exchangeLegacy.params.prepareMsg = .ok legacyMessage) ∧
    exchangeOracles.length / 2 ≤ [outdatedOracle, signingOracle].countP
      (delivers exchangeEth outdatedNetwork (.price exchangeParams) requestedMessage exchangeLegacy) ∧
    gatherSignatures exchangeEth outdatedNetwork [outdatedOracle, signingOracle] exchangeOracles (.price exchangeParams)
      requestedMessage requesterSignature (some exchangeLegacy) = .error (.attributeError "addr") ∧
    ¬GathersQuorum exchangeEth outdatedNetwork [outdatedOracle, signingOracle] exchangeOracles (.price exchangeParams)
      requestedMessage requesterSignature exchangeLegacy := by
  have raised : gatherSignatures exchangeEth outdatedNetwork [outdatedOracle, signingOracle] exchangeOracles
      (.price exchangeParams) requestedMessage requesterSignature (some exchangeLegacy) = .error (.attributeError "addr") := by
    decide +kernel
  refine ⟨⟨⟨publishingOracle, List.mem_cons_self, rfl⟩, by decide +kernel, by decide, by decide +kernel, by decide +kernel⟩,
    by decide +kernel, raised, ?_⟩
  intro gathers
  obtain ⟨sigs, gathered, -⟩ := gathers
  rw [raised] at gathered
  cases gathered

end OmocNode.Proofs.FaultyPeers
