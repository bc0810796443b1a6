import OmocNode.Proofs.FixedWidth
import OmocNode.Proofs.GatherSignatures

/-! What reaches the contract: a majority of the selected oracles, each once, in
the order of their addresses, with signatures that the three arrays spell out. -/

namespace OmocNode.Proofs.PublishedQuorum
open CoinPairLoop Outcomes RequestChecks GatherSignatures
open CoinPairService (ContractCall fromBytesLittle)

/-- The signature library signs in 65 bytes. -/
def SignsInFull (eth : EthAccount) : Prop :=
  ∀ hexstr key signature, eth.signMessage hexstr key = .ok signature → signature.length = 65

/-- The signature is valid over the old form of the message, and the peer lacks
the endpoint of the new one. -/
def SignedLegacy (eth : EthAccount) (network : Network) (oracles : List FullOracleRoundInfo) (params : PublishParams)
    (signer : OracleSignature) : Prop :=
  ∃ oracle ∈ oracles, oracle.addr.text = signer.addr ∧ lacksEndpoint (network oracle params.getPost) = true ∧
    ∃ price message, params = .price price ∧ price.asLegacy.prepareMsg = .ok message ∧
      Crypto.recover eth message signer.signature = .ok signer.addr

structure WellFormedQuorum (eth : EthAccount) (network : Network) (oracles : List FullOracleRoundInfo) (params : PublishParams)
    (message : String) (mySignature : Bytes) (signers : List OracleSignature) : Prop where
  majority : oracles.length / 2 + 1 ≤ signers.length
  selected : ∀ signer ∈ signers, ∃ oracle ∈ oracles, oracle.addr.text = signer.addr
  increasing : signers.Pairwise fun first second => signerNumber first < signerNumber second
  publisherOnce : signers.filter (·.addr = params.oracleAddr) = [⟨params.oracleAddr, mySignature⟩]
  verified : ∀ signer ∈ signers, signer.addr ≠ params.oracleAddr →
    Crypto.recover eth message signer.signature = .ok signer.addr ∨ SignedLegacy eth network oracles params signer

/-- The three arrays of a call have one entry for each signature, and together they are its bytes. -/
structure Recombines (call : ContractCall) (signatures : List Bytes) : Prop where
  lengths : call.v.length = signatures.length ∧ call.r.length = signatures.length ∧ call.s.length = signatures.length
  inFull : ∀ signature ∈ signatures, signature.length = 65
  sizes : (∀ v ∈ call.v, v < 256) ∧ (∀ r ∈ call.r, r.length = 32) ∧ ∀ s ∈ call.s, s.length = 32
  bytes : List.zipWith3 (fun v r s => r ++ s ++ [UInt8.ofNat v]) call.v call.r call.s = signatures

private theorem recombine {signature : Bytes} (inFull : signature.length = 65) :
    signature.take 32 ++ (signature.take 64).drop 32 ++ [UInt8.ofNat (fromBytesLittle (signature.drop 64))] = signature := by
  obtain ⟨last, rest⟩ : ∃ last, signature.drop 64 = [last] := List.length_eq_one_iff.mp (by rw [List.length_drop, inFull])
  have halves : signature.take 32 ++ (signature.take 64).drop 32 = signature.take 64 := by
    have split := List.take_append_drop 32 (signature.take 64)
    rwa [List.take_take, show min 32 64 = 32 from rfl] at split
  rw [halves, rest]
  simp only [fromBytesLittle, List.foldr_cons, List.foldr_nil, Nat.mul_zero, Nat.add_zero, UInt8.ofNat_toNat]
  rw [← rest, List.take_append_drop]

private theorem fromBytesLittle_lt {signature : Bytes} (inFull : signature.length = 65) : fromBytesLittle (signature.drop 64) < 256 := by
  obtain ⟨last, rest⟩ : ∃ last, signature.drop 64 = [last] := List.length_eq_one_iff.mp (by rw [List.length_drop, inFull])
  rw [rest]
  exact last.toNat_lt

private theorem publish_recombines {params : PublishParams} {signatures : List Bytes} {call : ContractCall}
    (inFull : ∀ signature ∈ signatures, signature.length = 65) (ok : CoinPairService.publish params signatures = .ok call) :
    Recombines call signatures := by
  obtain ⟨v, r, s⟩ : call.v = signatures.map (fun signature => fromBytesLittle (signature.drop 64)) ∧
      call.r = signatures.map (fun signature => signature.take 32) ∧
      call.s = signatures.map (fun signature => (signature.take 64).drop 32) := by
    obtain ⟨coinPair, _, made⟩ := bind_eq_ok_iff.mp ok
    cases params with
    | price price => cases made; exact ⟨rfl, rfl, rfl⟩
    | task task => cases made; exact ⟨rfl, rfl, rfl⟩
  have sizes : (∀ v ∈ call.v, v < 256) ∧ (∀ r ∈ call.r, r.length = 32) ∧ ∀ s ∈ call.s, s.length = 32 := by
    simp only [v, r, s, List.forall_mem_map]
    refine ⟨?_, ?_, ?_⟩
    · intro signature member
      exact fromBytesLittle_lt (inFull signature member)
    · intro signature member
      simp [inFull signature member]
    · intro signature member
      simp [inFull signature member]
  refine ⟨by simp [v, r, s], inFull, sizes, ?_⟩
  rw [v, r, s]
  clear ok v r s sizes
  induction signatures with
  | nil => rfl
  | cons signature signatures ih =>
    rw [List.forall_mem_cons] at inFull
    simp only [List.map_cons, List.zipWith3, recombine inFull.1, ih inFull.2]

section Signers
variable {eth : EthAccount} {network : Network} {oracles seen : List FullOracleRoundInfo} {params : PublishParams}
  {message : String} {mySignature : Bytes} {legacy : Option LegacyForm}

/-- The signature among the results of a peer. -/
def answeredSignature (eth : EthAccount) (network : Network) (params : PublishParams) (message : String)
    (legacy : Option LegacyForm) (oracle : FullOracleRoundInfo) : Option OracleSignature :=
  match getSignature eth network params message legacy oracle with
  | some (.signature signed) => some signed
  | _ => none

theorem answeredSignature_eq_some_iff {oracle : FullOracleRoundInfo} {signed : OracleSignature} :
    answeredSignature eth network params message legacy oracle = some signed ↔
      getSignature eth network params message legacy oracle = some (.signature signed) := by
  unfold answeredSignature
  split <;> simp_all

/-- Where only signatures are kept, the signers are the peers that answered with one, and the publisher. -/
theorem signers_perm {signers : List OracleSignature}
    (kept : (signers.map PeerResult.signature).Perm
      (seen.filterMap (getSignature eth network params message legacy) ++ [.signature ⟨params.oracleAddr, mySignature⟩])) :
    signers.Perm (seen.filterMap (answeredSignature eth network params message legacy) ++ [⟨params.oracleAddr, mySignature⟩]) := by
  have onlySignatures : ∀ result ∈ seen.filterMap (getSignature eth network params message legacy),
      ∃ signed, result = .signature signed := by
    intro result member
    obtain ⟨signed, _, same⟩ := List.mem_map.mp (kept.mem_iff.mpr (List.mem_append_left _ member))
    exact ⟨signed, same.symm⟩
  have same : seen.filterMap (getSignature eth network params message legacy) =
      (seen.filterMap (answeredSignature eth network params message legacy)).map PeerResult.signature := by
    clear kept
    induction seen with
    | nil => rfl
    | cons oracle seen ih =>
      cases answered : getSignature eth network params message legacy oracle with
      | none =>
        rw [List.filterMap_cons_none answered] at onlySignatures ⊢
        rw [List.filterMap_cons_none (by simp [answeredSignature, answered]), ih onlySignatures]
      | some result =>
        rw [List.filterMap_cons_some answered] at onlySignatures ⊢
        obtain ⟨⟨signed, rfl⟩, later⟩ := List.forall_mem_cons.mp onlySignatures
        rw [List.filterMap_cons_some (answeredSignature_eq_some_iff.mpr answered), ih later, List.map_cons]
  rw [same, ← List.map_singleton, ← List.map_append] at kept
  exact (List.map_perm_map_iff fun _ _ => PeerResult.signature.inj).mp kept

theorem signerNumber_eq {oracle : FullOracleRoundInfo} {signed : OracleSignature} (own : signed.addr = oracle.addr.text) :
    signerNumber signed = oracle.addr.number := by
  rw [signerNumber, own, Address.number]

/-- The numbers of the peers that sign come in the order of the peers. -/
theorem signerNumbers_sublist (seen : List FullOracleRoundInfo) :
    ((seen.filterMap (answeredSignature eth network params message legacy)).map signerNumber).Sublist
      (seen.map (·.addr.number)) := by
  induction seen with
  | nil => exact .slnil
  | cons oracle seen ih =>
    cases answered : answeredSignature eth network params message legacy oracle with
    | none =>
      rw [List.filterMap_cons_none answered]
      exact ih.cons _
    | some signed =>
      rw [List.filterMap_cons_some answered, List.map_cons, List.map_cons,
        signerNumber_eq (valid_of_getSignature (answeredSignature_eq_some_iff.mp answered)).1]
      exact ih.cons_cons _

/-- The publisher is none of its peers, so no two signers are the same oracle. -/
theorem signerNumbers_nodup (distinct : (oracles.map (·.addr.number)).Nodup)
    (publisher : ∃ oracle ∈ oracles, oracle.addr.text = params.oracleAddr) (asked : seen.Subperm (peers oracles params.oracleAddr)) :
    ((seen.filterMap (answeredSignature eth network params message legacy) ++
      [OracleSignature.mk params.oracleAddr mySignature]).map signerNumber).Nodup := by
  obtain ⟨me, member, own⟩ := publisher
  obtain ⟨ordered, same, among⟩ := asked
  have peersNodup : (seen.map (·.addr.number)).Nodup :=
    (same.map _).nodup_iff.mp (distinct.sublist ((among.trans List.filter_sublist).map _))
  have foreign : me.addr.number ∉ seen.map (·.addr.number) := by
    intro present
    obtain ⟨peer, asked, number⟩ := List.mem_map.mp present
    have kept := among.subset (same.mem_iff.mpr asked)
    obtain ⟨selected, other⟩ := List.mem_filter.mp kept
    obtain rfl := List.inj_on_of_nodup_map distinct selected member number
    simp [own] at other
  rw [List.map_append, List.map_singleton, @signerNumber_eq me ⟨params.oracleAddr, mySignature⟩ own.symm]
  apply List.Nodup.append (peersNodup.sublist (signerNumbers_sublist seen)) (List.nodup_singleton _)
  rw [List.disjoint_singleton]
  exact fun present => foreign ((signerNumbers_sublist seen).subset present)

/-- The forms of the message that the peers sign are those of the publication. -/
theorem signLegacy_ok {account : BlockchainAccount} (ok : signLegacy eth account params = .ok legacy) {form : LegacyForm}
    (given : form ∈ legacy) : ∃ price, params = .price price ∧ price.asLegacy.prepareMsg = .ok form.message := by
  unfold signLegacy at ok
  split at ok
  · cases ok
    cases given
  next price expiration expiring =>
    simp only [bind_eq_ok_iff, pure_eq_ok_iff] at ok
    obtain ⟨text, prepared, signature, _, rfl⟩ := ok
    obtain rfl := Option.mem_some_iff.mp given
    cases params with
    | task task => cases expiring
    | price own =>
      obtain ⟨_, _, same⟩ := Option.map_eq_some_iff.mp expiring
      obtain ⟨rfl, _⟩ := Prod.mk.inj same
      exact ⟨own, rfl, prepared⟩

theorem wellFormedQuorum_of_perm {signers : List OracleSignature} {account : BlockchainAccount}
    (distinct : (oracles.map (·.addr.number)).Nodup) (publisher : ∃ oracle ∈ oracles, oracle.addr.text = params.oracleAddr)
    (asked : seen.Subperm (peers oracles params.oracleAddr)) (form : signLegacy eth account params = .ok legacy)
    (same : signers.Perm (seen.filterMap (answeredSignature eth network params message legacy) ++ [⟨params.oracleAddr, mySignature⟩]))
    (ordered : signers.Pairwise fun first second => signerNumber first ≤ signerNumber second)
    (majority : oracles.length / 2 + 1 ≤ signers.length) :
    WellFormedQuorum eth network oracles params message mySignature signers := by
  have peerSigned : ∀ signer ∈ seen.filterMap (answeredSignature eth network params message legacy),
      ∃ oracle ∈ peers oracles params.oracleAddr, signer.addr = oracle.addr.text ∧
        getSignature eth network params message legacy oracle = some (.signature signer) := by
    intro signer member
    obtain ⟨oracle, present, answered⟩ := List.mem_filterMap.mp member
    rw [answeredSignature_eq_some_iff] at answered
    exact ⟨oracle, asked.subset present, (valid_of_getSignature answered).1, answered⟩
  have origin : ∀ signer ∈ signers, signer ∈ seen.filterMap (answeredSignature eth network params message legacy) ∨
      signer = ⟨params.oracleAddr, mySignature⟩ := by
    intro signer member
    exact (List.mem_append.mp (same.mem_iff.mp member)).imp id List.mem_singleton.mp
  constructor
  · exact majority
  · intro signer member
    rcases origin signer member with peer | rfl
    · obtain ⟨oracle, among, own, _⟩ := peerSigned signer peer
      exact ⟨oracle, List.mem_of_mem_filter among, own.symm⟩
    · exact publisher
  · have nodup := (same.map signerNumber).nodup_iff.mpr (signerNumbers_nodup distinct publisher asked)
    exact (ordered.and (List.pairwise_map.mp nodup)).imp fun both => lt_of_le_of_ne both.1 both.2
  · have foreign : (seen.filterMap (answeredSignature eth network params message legacy)).filter (·.addr = params.oracleAddr) = [] := by
      rw [List.filter_eq_nil_iff]
      intro signer peer
      obtain ⟨oracle, among, own, _⟩ := peerSigned signer peer
      simpa [own] using (List.mem_filter.mp among).2
    have once := same.filter fun signer : OracleSignature => decide (signer.addr = params.oracleAddr)
    rw [List.filter_append, foreign, List.nil_append, List.filter_singleton, decide_eq_true rfl] at once
    exact List.perm_singleton.mp once
  · intro signer member foreign
    rcases origin signer member with peer | rfl
    · obtain ⟨oracle, among, own, answered⟩ := peerSigned signer peer
      apply (valid_of_getSignature answered).2.imp id
      intro onOldForm
      obtain ⟨lacks, old, given, recovered⟩ := onOldForm
      obtain ⟨price, isPrice, prepared⟩ := signLegacy_ok form given
      exact ⟨oracle, List.mem_of_mem_filter among, own.symm, lacks, price, old.message, isPrice, prepared, recovered⟩
    · exact absurd rfl foreign

end Signers

private theorem length_of_recover {eth : EthAccount} {message recovered : String} {signature : Bytes}
    (ok : Crypto.recover eth message signature = .ok recovered) : signature.length = 65 := by
  unfold Crypto.recover at ok
  split at ok
  · cases ok
  next length => exact not_not.mp length

/-- The peers' signatures were checked for their length, the publisher's comes from the library. -/
theorem WellFormedQuorum.inFull {eth : EthAccount} {network : Network} {oracles : List FullOracleRoundInfo}
    {params : PublishParams} {message : String} {mySignature : Bytes} {signers : List OracleSignature}
    (quorum : WellFormedQuorum eth network oracles params message mySignature signers) (own : mySignature.length = 65) :
    ∀ signature ∈ signers.map (·.signature), signature.length = 65 := by
  intro signature member
  obtain ⟨signer, signing, rfl⟩ := List.mem_map.mp member
  by_cases publisher : signer.addr = params.oracleAddr
  · have kept : signer ∈ signers.filter (·.addr = params.oracleAddr) := List.mem_filter.mpr ⟨signing, by simpa using publisher⟩
    rw [quorum.publisherOnce, List.mem_singleton] at kept
    rw [kept]
    exact own
  · rcases quorum.verified signer signing publisher with recovered | ⟨_, _, _, _, _, _, _, _, recovered⟩
    · exact length_of_recover recovered
    · exact length_of_recover recovered

theorem publish_transaction {eth : EthAccount} {account : BlockchainAccount} {conf : OracleConfiguration} {debug : Bool}
    {network : Network} {completed oracles : List FullOracleRoundInfo} {now : Int} {params : PublishParams} {call : ContractCall}
    (sent : publish eth account conf debug network completed now oracles params = .ok (.transaction call)) :
    ∃ message mySignature legacy sigs, params.prepareMsg = .ok message ∧
      Crypto.signMessage eth ("0x" ++ message) account = .ok mySignature ∧ signLegacy eth account params = .ok legacy ∧
      gatherSignatures eth network completed oracles params message mySignature legacy = .ok sigs ∧
      oracles.length / 2 + 1 ≤ sigs.length ∧ CoinPairService.publish params sigs = .ok call := by
  simp only [publish, bind_eq_ok_iff] at sent
  obtain ⟨message, prepared, mySignature, signed, legacy, form, sigs, gathered, rest⟩ := sent
  refine ⟨message, mySignature, legacy, sigs, prepared, signed, form, gathered, ?_⟩
  split at rest
  · cases rest
  next enough =>
    refine ⟨not_lt.mp enough, ?_⟩
    split at rest
    · cases rest
    · cases made : CoinPairService.publish params sigs with
      | ok delivered =>
        simp only [made] at rest
        split at rest <;> obtain ⟨_, _, same⟩ := bind_eq_ok_iff.mp rest <;> cases same <;> rfl
      | error err =>
        simp only [made] at rest
        split at rest <;> obtain ⟨_, _, same⟩ := bind_eq_ok_iff.mp rest <;> cases same

/-- A publication that reaches the contract carries a quorum of valid signatures. -/
theorem published_quorum {eth : EthAccount} {account : BlockchainAccount} {conf : OracleConfiguration} {debug : Bool}
    {network : Network} {completed oracles : List FullOracleRoundInfo} {now : Int} {params : PublishParams} {call : ContractCall}
    (distinct : (oracles.map (·.addr.number)).Nodup) (publisher : ∃ oracle ∈ oracles, oracle.addr.text = params.oracleAddr)
    (arrived : completed.Subperm (peers oracles params.oracleAddr)) (inFull : SignsInFull eth)
    (sent : publish eth account conf debug network completed now oracles params = .ok (.transaction call)) :
    ∃ message mySignature signers, params.prepareMsg = .ok message ∧
      Crypto.signMessage eth ("0x" ++ message) account = .ok mySignature ∧
      WellFormedQuorum eth network oracles params message mySignature signers ∧
      CoinPairService.publish params (signers.map (·.signature)) = .ok call ∧
      Recombines call (signers.map (·.signature)) := by
  obtain ⟨message, mySignature, legacy, sigs, prepared, signed, form, gathered, enough, made⟩ := publish_transaction sent
  obtain ⟨signers, ok, rfl⟩ := map_eq_ok_iff.mp gathered
  obtain ⟨seen, rest, rfl, kept, ordered, _⟩ := gatherSigned_ok ok
  have asked : seen.Subperm (peers oracles params.oracleAddr) := (List.sublist_append_left seen rest).subperm.trans arrived
  rw [List.length_map] at enough
  have quorum := wellFormedQuorum_of_perm distinct publisher asked form (signers_perm kept) ordered enough
  have lengths := quorum.inFull (inFull _ _ _ signed)
  exact ⟨message, mySignature, signers, prepared, signed, quorum, made, publish_recombines lengths made⟩

/-- Genuine signatures, the peer's over the old form of the message. -/
def legacyEth : EthAccount where
  hexBytes := FixedWidth.plainHexBytes
  recoverMessage message signature :=
    if message = legacyMessage ∧ signature = signerLegacySignature then .ok signerAddr.text
    else .error .valueError
  signMessage hexstr _ :=
    if hexstr = "0x" ++ requestedMessage then .ok requesterSignature
    else if hexstr = "0x" ++ legacyMessage then .ok requesterLegacySignature
    else .error .valueError

/-- The peer knows the old endpoint only. -/
def legacyNetwork : Network := fun _ path =>
  if path = "/sign/" then
    .response 200 (some (.object [("message", .string legacyMessage),
      ("signature", .string (FixedWidth.plainHexBytes.hex signerLegacySignature))]))
  else .response 405 none

def publisherAccount : BlockchainAccount := ⟨requesterAddr, "publisher key"⟩

def publisherConfiguration : OracleConfiguration :=
  { turn := ⟨1 / 20, 1, [2, 4, 6, 8, 10], 30⟩, oraclePriceRejectDeltaPct := 50, priceSignatureExpirationSeconds := 300
    priceSignatureMinValiditySeconds := 30, priceSignatureMaxValiditySeconds := 600, taskMessageVersion := 1 }

def publishedCall : ContractCall :=
  { method := "publishPriceWithExpiration", version := 4
    coinPair := [66, 84, 67, 85, 83, 68] ++ List.replicate 26 0, value := 1000000000000000000
    oracleAddr := requesterAddr.text, lastPubBlock := 123, expiration := some 1700000300
    v := [27, 27]
    r := [bigEndian 32 0x3984cc8d7fd1401cf6a71f4cc06670a5496f56354118941f42888134fffccae4,
      bigEndian 32 0xd992ac0782fda8d7789af8dd973ae4b865a20bc8b2ae8421bd5f3a299ceb702e]
    s := [bigEndian 32 0x753bbc814007cd301a45ebc49bf1fe8aaee6159f61466dddf4b770b47d2fbbd7,
      bigEndian 32 0x1598de4a653cd70cba73feea4445601f3927909404734ed5e2baf21cbf859713] }

private theorem legacyEth_signsInFull : SignsInFull legacyEth := by
  intro hexstr key signature signed
  simp only [legacyEth] at signed
  split at signed
  · rw [← Except.ok.inj signed]
    decide +kernel
  · split at signed
    · rw [← Except.ok.inj signed]
      decide +kernel
    · cases signed

theorem mixed_publication :
    publish legacyEth publisherAccount publisherConfiguration false legacyNetwork [signingOracle] 1700000000
      [signingOracle, publishingOracle] (.price exchangeParams) = .ok (.transaction publishedCall) := by
  decide +kernel

theorem published_quorum_mixed :
    publish legacyEth publisherAccount publisherConfiguration false legacyNetwork [signingOracle] 1700000000
        [signingOracle, publishingOracle] (.price exchangeParams) = .ok (.transaction publishedCall) ∧
      ∃ message mySignature signers, exchangeParams.prepareMsg = .ok message ∧
        Crypto.signMessage legacyEth ("0x" ++ message) publisherAccount = .ok mySignature ∧
        WellFormedQuorum legacyEth legacyNetwork [signingOracle, publishingOracle] (.price exchangeParams) message mySignature
          signers ∧
        CoinPairService.publish (.price exchangeParams) (signers.map (·.signature)) = .ok publishedCall ∧
        Recombines publishedCall (signers.map (·.signature)) :=
  ⟨mixed_publication, published_quorum (by decide +kernel) ⟨publishingOracle, by simp, rfl⟩
    (List.Perm.subperm (by decide)) legacyEth_signsInFull mixed_publication⟩

end OmocNode.Proofs.PublishedQuorum
