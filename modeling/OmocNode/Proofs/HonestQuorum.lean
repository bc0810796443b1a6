import OmocNode.Proofs.HonestNodes

/-! What a quorum of signatures says, whoever has gathered it. Nodes that run this
program sign only what they have checked at that moment, so a majority of which
few oracles are faulty vouches for the price. -/

namespace OmocNode.Proofs.HonestQuorum
open App CoinPairLoop OracleNetwork Runs Outcomes RequestChecks PublishedQuorum SignedMessages GatherSignatures
open LoopRounds (decision)
open SignEndpoints RoundDecisions HonestNodes

section Quorum
variable {libraries : Libraries} {start final : World} {events : List Event} {params : PublishPriceParams}
  {oracles : List FullOracleRoundInfo} {signers : List OracleSignature}

/-- The node of the address has vouched for the parameters, with what it knew at one moment of the run. -/
def Vouched (libraries : Libraries) (start : World) (events : List Event) (addr : String) (params : PublishPriceParams) : Prop :=
  ∃ earlier event later world, events = earlier ++ event :: later ∧ run (step libraries) start earlier = some world ∧
    Vouches libraries world addr params event

private theorem wellKept_of_run (kept : WellKept start) (refreshes : ∀ event ∈ events, Refreshes event)
    (ran : run (step libraries) start events = some final) : WellKept final :=
  run_invariant step_wellKept kept (along_of_events refreshes) ran

private theorem vouched_of_mem {entry : Signed} (fresh : start.signed = []) (kept : WellKept start)
    (refreshes : ∀ event ∈ events, Refreshes event) (ran : run (step libraries) start events = some final)
    (expiring : ExpiringPrice params) (form : IsForm params entry.message) (member : entry ∈ final.signed) :
    Vouched libraries start events entry.addr params := by
  rcases mem_run ran member with old | ⟨earlier, event, later, world, rfl, before, signs⟩
  · rw [fresh] at old
    cases old
  · have wellKept := wellKept_of_run kept (fun event member => refreshes event (List.mem_append_left _ member)) before
    exact ⟨earlier, event, later, world, rfl, before, vouches_of_signs wellKept expiring form signs⟩

/-- Those of a kind that are not faulty. -/
theorem countP_le_length_add {α : Type} (holds faulty : α → Bool) (items : List α) :
    items.countP holds ≤ (items.filter fun item => holds item && !faulty item).length + items.countP faulty := by
  have split : items.countP holds ≤ items.countP (fun item => holds item && !faulty item) + items.countP faulty := by
    induction items with
    | nil => simp
    | cons item items ih =>
      simp only [List.countP_cons]
      cases holds item <;> cases faulty item <;> simp <;> omega
  rwa [← List.countP_eq_length_filter]

/-- Distinct signers are no more than the oracles that have signed. -/
theorem length_signers_le (selected : ∀ signer ∈ signers, ∃ oracle ∈ oracles, oracle.addr.text = signer.addr)
    (increasing : signers.Pairwise fun first second => signerNumber first < signerNumber second) :
    signers.length ≤ oracles.countP fun oracle => signers.any (·.addr = oracle.addr.text) := by
  have nodup : (signers.map signerNumber).Nodup := by
    apply List.pairwise_map.mpr
    exact increasing.imp ne_of_lt
  have among : signers.map signerNumber ⊆
      (oracles.filter fun oracle => signers.any (·.addr = oracle.addr.text)).map (·.addr.number) := by
    intro number member
    obtain ⟨signer, signing, rfl⟩ := List.mem_map.mp member
    obtain ⟨oracle, listed, own⟩ := selected signer signing
    apply List.mem_map.mpr
    refine ⟨oracle, List.mem_filter.mpr ⟨listed, ?_⟩, (signerNumber_eq own.symm).symm⟩
    exact List.any_eq_true.mpr ⟨signer, signing, decide_eq_true own.symm⟩
  have counted := (nodup.subperm among).length_le
  rw [List.length_map, List.length_map] at counted
  rwa [List.countP_eq_length_filter]

/-- Of a majority of the oracles, all but the faulty ones have vouched for the parameters. -/
def VouchedByMajority (libraries : Libraries) (start : World) (events : List Event) (oracles : List FullOracleRoundInfo)
    (faulty : FullOracleRoundInfo → Bool) (params : PublishPriceParams) : Prop :=
  ∃ vouchers : List FullOracleRoundInfo, vouchers.Sublist oracles ∧ (vouchers.map (·.addr.number)).Nodup ∧
    oracles.length / 2 + 1 ≤ vouchers.length + oracles.countP faulty ∧
    ∀ oracle ∈ vouchers, faulty oracle = false ∧ Vouched libraries start events oracle.addr.text params

/-- Of a majority that has signed, those that are not faulty vouch for the price. -/
theorem vouchers_of_signed {faulty : FullOracleRoundInfo → Bool} (fresh : start.signed = []) (kept : WellKept start)
    (refreshes : ∀ event ∈ events, Refreshes event) (ran : run (step libraries) start events = some final)
    (expiring : ExpiringPrice params) (distinct : (oracles.map (·.addr.number)).Nodup)
    (majority : oracles.length / 2 + 1 ≤ signers.length)
    (selected : ∀ signer ∈ signers, ∃ oracle ∈ oracles, oracle.addr.text = signer.addr)
    (increasing : signers.Pairwise fun first second => signerNumber first < signerNumber second)
    (signed : ∀ signer ∈ signers, ∀ oracle ∈ oracles, signer.addr = oracle.addr.text → faulty oracle = false →
      ∃ message, IsForm params message ∧ ⟨oracle.addr.text, message⟩ ∈ final.signed) :
    VouchedByMajority libraries start events oracles faulty params := by
  refine ⟨oracles.filter fun oracle => signers.any (·.addr = oracle.addr.text) && !faulty oracle, List.filter_sublist,
    distinct.sublist (List.filter_sublist.map _), ?_, ?_⟩
  · exact (majority.trans (length_signers_le selected increasing)).trans (countP_le_length_add _ _ _)
  · intro oracle member
    obtain ⟨listed, both⟩ := List.mem_filter.mp member
    obtain ⟨signs, honest⟩ := Bool.and_eq_true_iff.mp both
    rw [Bool.not_eq_true'] at honest
    obtain ⟨signer, signing, own⟩ := List.any_eq_true.mp signs
    obtain ⟨message, form, made⟩ := signed signer signing oracle listed (of_decide_eq_true own) honest
    exact ⟨honest, vouched_of_mem fresh kept refreshes ran expiring form made⟩

/-- Signatures of distinct oracles, a majority, over the message or its old form. -/
structure Certificate (eth : EthAccount) (oracles : List FullOracleRoundInfo) (params : PublishPriceParams)
    (signers : List OracleSignature) : Prop where
  distinct : (oracles.map (·.addr.number)).Nodup
  majority : oracles.length / 2 + 1 ≤ signers.length
  selected : ∀ signer ∈ signers, ∃ oracle ∈ oracles, oracle.addr.text = signer.addr
  increasing : signers.Pairwise fun first second => signerNumber first < signerNumber second
  verified : ∀ signer ∈ signers, ∃ message, IsForm params message ∧ Crypto.recover eth message signer.signature = .ok signer.addr

/-- Nobody but its node signs for an oracle that is not faulty. -/
def Authentic (eth : EthAccount) (oracles : List FullOracleRoundInfo) (faulty : FullOracleRoundInfo → Bool) (final : World)
    (signature : Bytes) : Prop :=
  ∀ oracle ∈ oracles, faulty oracle = false → ∀ message, Crypto.recover eth message signature = .ok oracle.addr.text →
    ⟨oracle.addr.text, message⟩ ∈ final.signed

theorem signed_of_certificate {faulty : FullOracleRoundInfo → Bool} (certificate : Certificate libraries.eth oracles params signers)
    (authentic : ∀ signer ∈ signers, Authentic libraries.eth oracles faulty final signer.signature) :
    ∀ signer ∈ signers, ∀ oracle ∈ oracles, signer.addr = oracle.addr.text → faulty oracle = false →
      ∃ message, IsForm params message ∧ ⟨oracle.addr.text, message⟩ ∈ final.signed := by
  intro signer signing oracle listed own honest
  obtain ⟨message, form, recovered⟩ := certificate.verified signer signing
  exact ⟨message, form, authentic signer signing oracle listed honest message (own ▸ recovered)⟩

/-- Whoever has gathered the signatures of a majority, all but the faulty oracles
among the signers vouch for the price: each is a node that had a price of its own
close to it, the same publication block, and found that it was the publisher's turn. -/
theorem certificate_vouched {faulty : FullOracleRoundInfo → Bool} (fresh : start.signed = []) (kept : WellKept start)
    (refreshes : ∀ event ∈ events, Refreshes event) (ran : run (step libraries) start events = some final)
    (expiring : ExpiringPrice params) (certificate : Certificate libraries.eth oracles params signers)
    (authentic : ∀ signer ∈ signers, Authentic libraries.eth oracles faulty final signer.signature) :
    VouchedByMajority libraries start events oracles faulty params := by
  exact vouchers_of_signed fresh kept refreshes ran expiring certificate.distinct certificate.majority certificate.selected
    certificate.increasing (signed_of_certificate certificate authentic)

/-- What a node has signed stays signed. -/
theorem signed_grows {entry : Signed} (ran : run (step libraries) start events = some final) (member : entry ∈ start.signed) :
    entry ∈ final.signed := by
  induction events generalizing start with
  | nil =>
    obtain rfl := Option.some.inj ran
    exact member
  | cons event events ih =>
    obtain ⟨next, stepped, rest⟩ := run_cons_eq_some.mp ran
    apply ih rest
    cases event with
    | refresh addr cpMap now | request addr request =>
      obtain ⟨node, _, same⟩ := Option.bind_eq_some_iff.mp stepped
      obtain rfl := Option.some.inj same
      exact List.mem_append_right _ member
    | round addr name setting =>
      obtain ⟨node, _, inner⟩ := Option.bind_eq_some_iff.mp stepped
      obtain ⟨runner, _, same⟩ := Option.bind_eq_some_iff.mp inner
      obtain rfl := Option.some.inj same
      exact List.mem_append_right _ member

/-- A round in which a node publishes. -/
structure Publishes (libraries : Libraries) (world : World) (addr name : String) (setting : LoopRounds.Setting) (node : Node)
    (oracles : List FullOracleRoundInfo) (params : PublishPriceParams) : Prop where
  found : world.nodes addr = some node
  decided : ∃ runner fallbackIndex, node.cpMap.lookup name = some runner ∧
    (decision setting node.account.addr.text runner).1 = .ok (.publish oracles (.price params) fallbackIndex)

private theorem step_of_publishes {world : World} {addr name : String} {setting : LoopRounds.Setting} {node : Node}
    (publishes : Publishes libraries world addr name setting node oracles params) : ∃ after,
      step libraries world (.round addr name setting) =
        some (world.update addr after (published libraries.eth node.account (.price params))) := by
  obtain ⟨runner, fallbackIndex, runs, decided⟩ := publishes.decided
  simp only [step, publishes.found, Option.bind_eq_bind, Option.bind_some, runs, decided]
  exact ⟨_, rfl⟩

private theorem mem_of_publishes {world next : World} {addr name message : String} {setting : LoopRounds.Setting} {node : Node}
    (publishes : Publishes libraries world addr name setting node oracles params)
    (stepped : step libraries world (.round addr name setting) = some next)
    (listed : message ∈ published libraries.eth node.account (.price params)) : ⟨addr, message⟩ ∈ next.signed := by
  obtain ⟨after, same⟩ := step_of_publishes publishes
  obtain rfl := Option.some.inj (same.symm.trans stepped)
  exact List.mem_append_left _ (List.mem_map.mpr ⟨message, listed, rfl⟩)

private theorem publishes_expiring {world : World} {addr name : String} {setting : LoopRounds.Setting} {node : Node} (kept : Kept addr node)
    (publishes : Publishes libraries world addr name setting node oracles params) (admitted : Admitted (priceFields params)) :
    ExpiringPrice params ∧ params.oracleAddr = addr ∧ ∃ oracle ∈ oracles, oracle.addr.text = params.oracleAddr := by
  obtain ⟨runner, fallbackIndex, runs, decided⟩ := publishes.decided
  obtain ⟨expiring, own, publisher⟩ := expiring_of_decision (kept.runners _ (lookup_mem runs)) decided admitted
  exact ⟨expiring, own.trans kept.account, publisher⟩

private theorem message_published {eth : EthAccount} {account : BlockchainAccount} {made : PublishParams} {message : String}
    {signature : Bytes} (prepared : made.prepareMsg = .ok message)
    (signed : Crypto.signMessage eth ("0x" ++ message) account = .ok signature) : message ∈ published eth account made := by
  unfold published
  rw [prepared]
  dsimp only
  rw [signed]
  cases signLegacy eth account made with
  | error err => exact List.mem_singleton_self _
  | ok legacy =>
    cases legacy with
    | none => exact List.mem_singleton_self _
    | some legacy => exact List.mem_cons_of_mem _ (List.mem_singleton_self _)

private theorem published_both {eth : EthAccount} {account : BlockchainAccount} {made : PublishParams} {message : String} {signature : Bytes}
    {legacy : LegacyForm} (prepared : made.prepareMsg = .ok message)
    (signed : Crypto.signMessage eth ("0x" ++ message) account = .ok signature)
    (old : signLegacy eth account made = .ok (some legacy)) : published eth account made = [legacy.message, message] := by
  unfold published
  rw [prepared]
  dsimp only
  rw [signed, old]

/-- A signature that is gathered was in the answer of the peer, over the message or over its old form. -/
theorem received_of_getSignature {eth : EthAccount} {network : Network} {made : PublishParams} {message : String}
    {legacy : Option LegacyForm} {oracle : FullOracleRoundInfo} {signed : OracleSignature}
    (gathered : getSignature eth network made message legacy oracle = some (.signature signed)) :
    signed.addr = oracle.addr.text ∧ ∃ path text, validSignature eth oracle text (network oracle path) = some signed.signature ∧
      (text = message ∨ ∃ form ∈ legacy, text = form.message) := by
  have once : ∀ path text, getSignatureOnce eth oracle text (network oracle path) = some (.signature signed) →
      signed.addr = oracle.addr.text ∧ validSignature eth oracle text (network oracle path) = some signed.signature := by
    intro path text answer
    rw [getSignatureOnce_eq] at answer
    split at answer
    · cases answer
    · obtain ⟨signature, valid, same⟩ := Option.map_eq_some_iff.mp answer
      obtain rfl := PeerResult.signature.inj same
      exact ⟨rfl, valid⟩
  unfold getSignature at gathered
  split at gathered
  · cases legacy with
    | none => cases gathered
    | some form =>
      obtain ⟨own, valid⟩ := once _ _ gathered
      exact ⟨own, _, _, valid, .inr ⟨form, rfl, rfl⟩⟩
  · obtain ⟨own, valid⟩ := once _ _ gathered
    exact ⟨own, _, _, valid, .inl rfl⟩

/-- The transaction that a node sends is vouched for by a majority of the oracles
but the faulty ones, and by the node itself. -/
theorem publication_vouched {faulty : FullOracleRoundInfo → Bool} {earlier later : List Event} {world : World} {addr name : String}
    {setting : LoopRounds.Setting} {node : Node} {conf : OracleConfiguration} {debug : Bool} {network : Network}
    {completed : List FullOracleRoundInfo} {now : Int} {call : CoinPairService.ContractCall}
    (fresh : start.signed = []) (kept : WellKept start)
    (refreshes : ∀ event ∈ earlier ++ .round addr name setting :: later, Refreshes event)
    (before : run (step libraries) start earlier = some world)
    (ran : run (step libraries) start (earlier ++ .round addr name setting :: later) = some final)
    (publishes : Publishes libraries world addr name setting node oracles params) (admitted : Admitted (priceFields params))
    (distinct : (oracles.map (·.addr.number)).Nodup) (arrived : completed.Subperm (peers oracles addr))
    (sent : publish libraries.eth node.account conf debug network completed now oracles (.price params) = .ok (.transaction call))
    (authentic : ∀ oracle path message signature, validSignature libraries.eth oracle message (network oracle path) = some signature →
      Authentic libraries.eth oracles faulty final signature) :
    (call.value = params.price ∧ call.lastPubBlock = params.lastPubBlock ∧ call.expiration = params.expiration) ∧
      Vouched libraries start (earlier ++ .round addr name setting :: later) addr params ∧
      VouchedByMajority libraries start (earlier ++ .round addr name setting :: later) oracles faulty params := by
  have beforeRound : ∀ event ∈ earlier, Refreshes event := fun event member => refreshes event (List.mem_append_left _ member)
  have keptNode := wellKept_of_run kept beforeRound before addr node publishes.found
  obtain ⟨expiring, own, publisher⟩ := publishes_expiring keptNode publishes admitted
  obtain ⟨message, mySignature, legacy, sigs, prepared, signed, oldForm, gathered, enough, made⟩ := publish_transaction sent
  obtain ⟨signers, ok, rfl⟩ := map_eq_ok_iff.mp gathered
  obtain ⟨seen, rest, rfl, found, ordered, _⟩ := gatherSigned_ok ok
  have asked : seen.Subperm (peers oracles params.oracleAddr) := by
    rw [own]
    exact (List.sublist_append_left seen rest).subperm.trans arrived
  rw [List.length_map] at enough
  have signers_from := signers_perm found
  have quorum := @wellFormedQuorum_of_perm libraries.eth network oracles seen (.price params) message mySignature legacy signers
    node.account distinct publisher asked oldForm signers_from ordered enough
  have mine : ⟨addr, message⟩ ∈ final.signed := by
    obtain ⟨middle, start_middle, rest⟩ := run_append_eq_some.mp ran
    rw [before] at start_middle
    obtain rfl := Option.some.inj start_middle
    obtain ⟨next, stepped, after⟩ := run_cons_eq_some.mp rest
    exact signed_grows after (mem_of_publishes publishes stepped (message_published prepared signed))
  have new : IsForm params message := .inl prepared
  refine ⟨?_, vouched_of_mem fresh kept refreshes ran expiring new mine,
    vouchers_of_signed fresh kept refreshes ran expiring distinct quorum.majority quorum.selected quorum.increasing ?_⟩
  · obtain ⟨coinPair, _, same⟩ := bind_eq_ok_iff.mp made
    cases same
    exact ⟨rfl, rfl, rfl⟩
  · intro signer signing oracle listed same honest
    rcases List.mem_append.mp (signers_from.mem_iff.mp signing) with peer | publishing
    · obtain ⟨peer, _, answer⟩ := List.mem_filterMap.mp peer
      obtain ⟨address, path, text, valid, form⟩ := received_of_getSignature (answeredSignature_eq_some_iff.mp answer)
      have recovered := recover_of_validSignature valid
      rw [← address, same] at recovered
      refine ⟨text, ?_, authentic peer path text signer.signature valid oracle listed honest text recovered⟩
      rcases form with rfl | ⟨legacyForm, given, rfl⟩
      · exact new
      · obtain ⟨price, isPrice, old⟩ := signLegacy_ok oldForm given
        obtain rfl := PublishParams.price.inj isPrice
        exact .inr old
    · obtain rfl := List.mem_singleton.mp publishing
      refine ⟨message, new, ?_⟩
      rw [← same, show (PublishParams.price params).oracleAddr = addr from own]
      exact mine

end Quorum

section Exchange

def sharedNode (addr : Address) (key : String) (own : PriceWithTimestamp) : Node :=
  { cpMap := [("BTCUSD", sharedRunner own)], account := ⟨addr, key⟩, now := 1700000000 }

def publishingNode : Node := sharedNode requesterAddr "publisher key" publishedPrice

def exchangeStart : World where
  nodes addr :=
    if addr = requesterAddr.text then some publishingNode
    else if addr = signerAddr.text then some (sharedNode signerAddr "signer key" ⟨1001000000000000000, .finite 1700000001⟩)
    else none
  signed := []

def exchangeLibraries : Libraries where
  eth :=
    { hexBytes := FixedWidth.plainHexBytes
      recoverMessage := fun message signature =>
        if message = requestedMessage ∧ signature = requesterSignature then .ok requesterAddr.text
        else if message = requestedMessage ∧ signature = signerSignature then .ok signerAddr.text
        else .error .valueError
      signMessage := fun hexstr key =>
        if hexstr = "0x" ++ requestedMessage then .ok (if key = "signer key" then signerSignature else requesterSignature)
        else if hexstr = "0x" ++ legacyMessage then .ok requesterLegacySignature
        else .error .valueError }
  float text := (Python.parseInt 10 text).map fun seconds => .finite seconds

def exchangeEvents : List Event := [.round requesterAddr.text "BTCUSD" publishingRound, .request signerAddr.text priceRequest]

def answeringNetwork : Network := fun _ path =>
  if path = "/sign-price-v4/" then
    .response 200 (some (.object [("message", .string requestedMessage), ("signature", .string (FixedWidth.plainHexBytes.hex signerSignature))]))
  else .response 404 none

theorem exchange_served (own : PriceWithTimestamp) (addr : Address) (key : String) :
    Kept addr.text (sharedNode addr key own) := by
  refine ⟨rfl, ?_⟩
  intro entry member
  obtain rfl := List.mem_singleton.mp member
  have priced : (CoinPair.mk "BTCUSD").isTasksRunner = false := by decide
  exact ⟨btcusd_fits, rfl, priced.symm⟩

private theorem exchange_wellKept : WellKept exchangeStart := by
  intro addr node found
  simp only [exchangeStart] at found
  split at found
  next here =>
    obtain rfl := Option.some.inj found
    rw [here]
    exact exchange_served _ requesterAddr _
  next =>
    split at found
    next here =>
      obtain rfl := Option.some.inj found
      rw [here]
      exact exchange_served _ signerAddr _
    next => cases found

theorem exchange_message : exchangeParams.prepareMsg = .ok requestedMessage := by decide +kernel

theorem exchange_legacyMessage : exchangeParams.asLegacy.prepareMsg = .ok legacyMessage := by decide +kernel

private theorem exchange_published :
    published exchangeLibraries.eth publishingNode.account (.price exchangeParams) = [legacyMessage, requestedMessage] := by
  have key : publishingNode.account.key ≠ "signer key" := by decide
  have signed : Crypto.signMessage exchangeLibraries.eth ("0x" ++ requestedMessage) publishingNode.account = .ok requesterSignature := by
    simp only [Crypto.signMessage, exchangeLibraries, if_true, if_neg key]
  have other : "0x" ++ legacyMessage ≠ "0x" ++ requestedMessage := by decide
  have signedLegacy : Crypto.signMessage exchangeLibraries.eth ("0x" ++ legacyMessage) publishingNode.account =
      .ok requesterLegacySignature := by
    simp only [Crypto.signMessage, exchangeLibraries, if_neg other, if_true]
  have legacy : signLegacy exchangeLibraries.eth publishingNode.account (.price exchangeParams) =
      .ok (some ⟨exchangeParams.asLegacy, legacyMessage, requesterLegacySignature⟩) :=
    bind_eq_ok_iff.mpr ⟨legacyMessage, exchange_legacyMessage, bind_eq_ok_iff.mpr ⟨_, signedLegacy, rfl⟩⟩
  have prepared : (PublishParams.price exchangeParams).prepareMsg = .ok requestedMessage := exchange_message
  exact published_both prepared signed legacy

/-- The publisher signs both forms in its round, and the other node answers its request. -/
theorem exchange_signs {world : World} {node : Node} (fresh : world.signed = [])
    (publishes : Publishes exchangeLibraries world requesterAddr.text "BTCUSD" publishingRound node
      [publishingOracle, signingOracle] exchangeParams) (account : node.account = publishingNode.account)
    {signer : Node} (found : world.nodes signerAddr.text = some signer)
    (answers : (handle exchangeLibraries signer priceRequest).1 = .signed requestedMessage (FixedWidth.plainHexBytes.hex signerSignature)) :
    ∃ final, run (step exchangeLibraries) world exchangeEvents = some final ∧
      final.signed = [⟨signerAddr.text, requestedMessage⟩, ⟨requesterAddr.text, legacyMessage⟩,
        ⟨requesterAddr.text, requestedMessage⟩] := by
  obtain ⟨after, first⟩ := step_of_publishes publishes
  rw [account, exchange_published] at first
  have still : (world.update requesterAddr.text after [legacyMessage, requestedMessage]).nodes signerAddr.text = some signer := by
    have other : signerAddr.text ≠ requesterAddr.text := by decide
    simp only [World.update, Function.update_of_ne other, found]
  have second : step exchangeLibraries (world.update requesterAddr.text after [legacyMessage, requestedMessage])
      (.request signerAddr.text priceRequest) = some ((world.update requesterAddr.text after [legacyMessage, requestedMessage]).update
        signerAddr.text (handle exchangeLibraries signer priceRequest).2 [requestedMessage]) := by
    simp only [step, still, Option.bind_eq_bind, Option.bind_some, answers, answered]
    rfl
  refine ⟨_, run_cons_eq_some.mpr ⟨_, first, run_cons_eq_some.mpr ⟨_, second, rfl⟩⟩, ?_⟩
  simp only [World.update, fresh]
  rfl

private theorem exchange_publishes : Publishes exchangeLibraries exchangeStart requesterAddr.text "BTCUSD" publishingRound
    publishingNode [publishingOracle, signingOracle] exchangeParams :=
  ⟨rfl, sharedRunner publishedPrice, some 0, rfl, shared_publishes⟩

private theorem exchange_run : ∃ final, run (step exchangeLibraries) exchangeStart exchangeEvents = some final ∧
    final.signed = [⟨signerAddr.text, requestedMessage⟩, ⟨requesterAddr.text, legacyMessage⟩,
      ⟨requesterAddr.text, requestedMessage⟩] := by
  apply exchange_signs rfl exchange_publishes rfl rfl
  decide +kernel

theorem exchange_authentic {final : World} (signed : final.signed =
      [⟨signerAddr.text, requestedMessage⟩, ⟨requesterAddr.text, legacyMessage⟩, ⟨requesterAddr.text, requestedMessage⟩])
    (signature : Bytes) : Authentic exchangeLibraries.eth [publishingOracle, signingOracle] (· == publishingOracle) final signature := by
  intro oracle listed honest message recovered
  have isSigner : oracle = signingOracle := by
    simp only [List.mem_cons, List.not_mem_nil, or_false] at listed
    rcases listed with rfl | rfl
    · cases honest
    · rfl
  subst isSigner
  have other : requesterAddr.text ≠ signingOracle.addr.text := by decide
  unfold Crypto.recover at recovered
  split at recovered
  · cases recovered
  split at recovered
  · cases recovered
  simp only [exchangeLibraries] at recovered
  split at recovered
  · exact absurd (Except.ok.inj recovered) other
  · split at recovered
    next both =>
      rw [signed, both.1]
      exact List.mem_cons_self
    next => cases recovered

theorem exchange_expiring : ExpiringPrice exchangeParams := by
  refine ⟨rfl, rfl, admitted_of_address ?_, by decide⟩
  exact
    { version := by norm_num [FitsWord, exchangeParams]
      coinPair := btcusd_fits
      value := by norm_num [FitsWord, exchangeParams]
      oracle := Addresses.number_bounds requesterAddr
      lastPubBlock := by norm_num [FitsWord, exchangeParams]
      expiration := by
        intro expiration present
        obtain rfl := Option.some.inj present
        norm_num [FitsWord] }

def exchangeSigners : List OracleSignature := [⟨requesterAddr.text, requesterSignature⟩, ⟨signerAddr.text, signerSignature⟩]

theorem exchange_certificate :
    Certificate exchangeLibraries.eth [publishingOracle, signingOracle] exchangeParams exchangeSigners where
  distinct := by decide +kernel
  majority := by decide
  selected := by decide
  increasing := by decide +kernel
  verified := by
    have recovered : ∀ signer ∈ exchangeSigners, Crypto.recover exchangeLibraries.eth requestedMessage signer.signature =
        .ok signer.addr := by
      decide +kernel
    exact fun signer signing => ⟨requestedMessage, .inl exchange_message, recovered signer signing⟩

theorem certificate_vouched_exchange :
    VouchedByMajority exchangeLibraries exchangeStart exchangeEvents [publishingOracle, signingOracle] (· == publishingOracle)
      exchangeParams := by
  obtain ⟨final, ran, signed⟩ := exchange_run
  exact certificate_vouched rfl exchange_wellKept (by simp [exchangeEvents, Refreshes]) ran exchange_expiring exchange_certificate
    fun signer _ => exchange_authentic signed signer.signature

def exchangeCall : CoinPairService.ContractCall :=
  { method := "publishPriceWithExpiration", version := 4
    coinPair := [66, 84, 67, 85, 83, 68] ++ List.replicate 26 0, value := 1000000000000000000
    oracleAddr := requesterAddr.text, lastPubBlock := 123, expiration := some 1700000300
    v := [27, 28]
    r := exchangeSigners.map fun signer => signer.signature.take 32
    s := exchangeSigners.map fun signer => (signer.signature.take 64).drop 32 }

theorem publication_vouched_exchange :
    (exchangeCall.value = exchangeParams.price ∧ exchangeCall.lastPubBlock = exchangeParams.lastPubBlock ∧
        exchangeCall.expiration = exchangeParams.expiration) ∧
      Vouched exchangeLibraries exchangeStart exchangeEvents requesterAddr.text exchangeParams ∧
      VouchedByMajority exchangeLibraries exchangeStart exchangeEvents [publishingOracle, signingOracle] (· == publishingOracle)
        exchangeParams := by
  obtain ⟨final, ran, signed⟩ := exchange_run
  have sent : publish exchangeLibraries.eth publishingNode.account sharedConfiguration false answeringNetwork [signingOracle]
      1700000000 [publishingOracle, signingOracle] (.price exchangeParams) = .ok (.transaction exchangeCall) := by
    decide +kernel
  have before : run (step exchangeLibraries) exchangeStart [] = some exchangeStart := rfl
  exact publication_vouched rfl exchange_wellKept (by simp [Refreshes]) before ran exchange_publishes
    exchange_expiring.admitted (by decide +kernel) (List.Perm.subperm (by decide)) sent
    fun _ _ _ signature _ => exchange_authentic signed signature

end Exchange

end OmocNode.Proofs.HonestQuorum
