import OmocNode.Proofs.FaultyPeers
import OmocNode.Proofs.HonestQuorum
import OmocNode.Proofs.SignatureRequests

/-! When a round ends with a transaction. Half of the peers are enough, if they
see the same publication and have a price close to the publisher's. -/

namespace OmocNode.Proofs.SyncedQuorum
open App CoinPairLoop OracleNetwork RequestM Outcomes RequestChecks SignedMessages GatherSignatures FaultyPeers SignatureRequests
open OracleTurn SelectNext RoundDecisions HonestNodes HonestQuorum
open LoopRounds (decision)

section Answers
variable {libraries : Libraries} {params : PublishPriceParams} {message : String}

/-- The key of the account signs the message, as the library reads it back. -/
def KeySigns (eth : EthAccount) (account : BlockchainAccount) (message : String) : Prop :=
  ∃ signature, Crypto.signMessage eth ("0x" ++ message) account = .ok signature ∧
    Crypto.recover eth message signature = .ok account.addr.text

/-- A price that can be signed for. -/
structure Quoted (price : Int) (tsUtc : PyFloat) : Prop where
  priced : price ≠ 0
  dated : tsUtc.nonpositive = false

/-- The node finds that it is the turn of the oracle that asks. -/
def Grants (requester : String) (runner : CoinPairRunner) (vi : OracleBlockchainInfo) (own : PriceWithTimestamp) : Prop :=
  ∃ verdict after, PriceOracleTurn.validateTurn runner.conf.turn vi requester (some own) runner.oracleTurn = .ok verdict after ∧
    verdict.isTurn = true

/-- The node's view of the pair allows the price. -/
structure Ready (libraries : Libraries) (node : Node) (params : PublishPriceParams) (message : String) (runner : CoinPairRunner)
    (vi : OracleBlockchainInfo) (own : PriceWithTimestamp) : Prop where
  serves : node.getRunner params.coinPair = some (.coinPair runner)
  info : runner.blockchainInfo = some vi
  sameBlock : params.lastPubBlock = vi.lastPubBlock
  price : runner.lastPrice params.priceTsUtc false = .ok (some own)
  quoted : Quoted own.price own.tsUtc
  close : ∃ delta, Helpers.priceDelta params.price own.price = .ok (.finite delta) ∧ delta ≤ runner.conf.oraclePriceRejectDeltaPct
  lasts : ∀ expiration ∈ params.expiration, runner.conf.priceSignatureMinValiditySeconds ≤ expiration - node.now ∧
    expiration - node.now ≤ runner.conf.priceSignatureMaxValiditySeconds
  key : KeySigns libraries.eth node.account message

private theorem validatePrice_quoted {v : PriceRequestValidation} {own : PriceWithTimestamp} (present : v.exchangePrice = some own)
    (quoted : Quoted own.price own.tsUtc) (asked : Quoted v.params.price v.params.priceTsUtc)
    (close : ∃ delta, Helpers.priceDelta v.params.price own.price = .ok (.finite delta) ∧ delta ≤ v.oraclePriceRejectDeltaPct) :
    v.validatePrice = .ok () := by
  obtain ⟨delta, measured, near⟩ := close
  simp only [PriceRequestValidation.validatePrice, present, bind_eq_ok_iff, refuseIf_eq_ok_iff, ofPython_eq_ok_iff, exists_const]
  refine ⟨?_, ?_, .finite delta, measured, ?_⟩
  · simp [quoted.priced, quoted.dated]
  · simp [asked.priced, asked.dated]
  · simpa [PyFloat.lt] using near

private theorem validateAndSign_accepts {v : PriceRequestValidation} {eth : EthAccount} {account : BlockchainAccount} {now : Int}
    {signature : String} {turn after : PriceOracleTurn} {vi : OracleBlockchainInfo} {verdict : TurnVerdict} {signed : String × Bytes}
    (info : v.blockchainInfo = some vi) (sameBlock : v.params.lastPubBlock = vi.lastPubBlock) (lasts : ExpirationAccepted v now)
    (priced : v.validatePrice = .ok ())
    (turned : PriceOracleTurn.validateTurn v.turnConfiguration vi v.params.oracleAddr v.exchangePrice turn = .ok verdict after)
    (isTurn : verdict.isTurn = true)
    (signs : signValidated eth account v.params.oracleAddr signature v.params.prepareMsg = .ok signed) :
    (v.validateAndSign eth account now signature turn).1 = .ok signed := by
  have accepted : v.validateParams now = .ok () := by
    simp only [PriceRequestValidation.validateParams, info, bind_eq_ok_iff, refuseIf_eq_ok_iff, ne_eq, not_not, exists_const]
    exact ⟨sameBlock, (), validateExpiration_ok_iff.mpr lasts, priced⟩
  have granted : (v.validateTurn turn).1 = .ok () := by
    simp only [PriceRequestValidation.validateTurn, info, turned]
    rw [refuseIf_eq_ok_iff, isTurn]
    exact Bool.true_eq_false_eq_False
  simp only [PriceRequestValidation.validateAndSign, accepted, granted]
  exact signs

/-- A node that is ready signs what it is asked to sign. -/
theorem validateAndSign_ready {node : Node} {runner : CoinPairRunner} {vi : OracleBlockchainInfo} {own : PriceWithTimestamp}
    {signature : String} (ready : Ready libraries node params message runner vi own)
    (grants : Grants params.oracleAddr runner vi own) (expiring : ExpiringPrice params) (asked : Quoted params.price params.priceTsUtc)
    (prepared : params.prepareMsg = .ok message)
    (requested : SignedBy libraries.eth params.oracleAddr message signature) :
    ∃ answer, Crypto.recover libraries.eth message answer = .ok node.account.addr.text ∧
      (node.validateAndSign libraries (.price params) signature).1 = .ok (message, answer) := by
  obtain ⟨answer, made, recovered⟩ := ready.key
  obtain ⟨verdict, after, turned, isTurn⟩ := grants
  refine ⟨answer, recovered, ?_⟩
  have lasts : ∀ expiration ∈ params.expiration, params.version = expiringPriceMessageVersion ∧
      runner.conf.priceSignatureMinValiditySeconds ≤ expiration - node.now ∧
      ∀ most ∈ some runner.conf.priceSignatureMaxValiditySeconds, expiration - node.now ≤ most := by
    intro expiration present
    obtain ⟨least, most⟩ := ready.lasts expiration present
    refine ⟨expiring.version, least, ?_⟩
    intro bound same
    exact Option.mem_some_iff.mp same ▸ most
  obtain ⟨v, created, signs⟩ : ∃ v, runner.createValidator (.price params) = .ok v ∧
      (v.validateAndSign libraries.eth node.account node.now signature runner.oracleTurn).1 = .ok (message, answer) := by
    refine ⟨_, bind_eq_ok_iff.mpr ⟨_, ready.price, rfl⟩, ?_⟩
    exact validateAndSign_accepts ready.info ready.sameBlock lasts (validatePrice_quoted rfl ready.quoted asked ready.close) turned isTurn
      (signValidated_ok_iff.mpr ⟨prepared, requested, made⟩)
  have serves : node.getRunner (PublishParams.price params).coinPair = some (.coinPair runner) := ready.serves
  simp only [Node.validateAndSign, serves, created]
  exact signs

/-- What a node answers to the form that the publisher posts. -/
theorem reply_ready {detail : Option Response → Json} {strFloat : PyFloat → String} {mySignature : Bytes} {form : Form} {node : Node}
    {runner : CoinPairRunner} {vi : OracleBlockchainInfo} {own : PriceWithTimestamp}
    (ready : Ready libraries node params message runner vi own)
    (grants : Grants params.oracleAddr runner vi own) (expiring : ExpiringPrice params)
    (asked : Quoted params.price params.priceTsUtc) (pair : CoinPair.make params.coinPair.cp = .ok params.coinPair)
    (roundTrip : libraries.float (strFloat params.priceTsUtc) = .ok params.priceTsUtc) (hexRoundTrip : libraries.eth.hexBytes.RoundTrips)
    (prepared : params.prepareMsg = .ok message) (requested : Crypto.recover libraries.eth message mySignature = .ok params.oracleAddr)
    (posted : params.toPostData libraries.eth.hexBytes strFloat mySignature = .ok form) {oracle : FullOracleRoundInfo}
    (same : oracle.addr.text = node.account.addr.text) :
    (validSignature libraries.eth oracle message (reply libraries detail node params.getPost form).1).isSome = true := by
  obtain ⟨request, taken, gate, parsed, signature⟩ := @price_received libraries.eth.hexBytes libraries strFloat mySignature form params pair
    (by rw [expiring.expires, if_pos rfl]; exact expiring.version) roundTrip posted
  obtain ⟨answer, recovered, signed⟩ := validateAndSign_ready ready grants expiring asked prepared
    (signature ▸ ⟨mySignature, hexRoundTrip mySignature, requested⟩ : SignedBy libraries.eth params.oracleAddr message request.signature)
  have handled : (handle libraries node request).1 = .signed message (libraries.eth.hexBytes.hex answer) := by
    simp only [handle, gate, parsed, bind, Except.bind, ofPython, Except.mapError]
    rw [signed]
    rfl
  simp only [reply, taken, handled, Response.statusCode]
  have found : Json.get [("message", .string message), ("signature", .string (libraries.eth.hexBytes.hex answer))] "signature" =
      .string (libraries.eth.hexBytes.hex answer) := by
    simp [Json.get]
  simp only [validSignature, found, hexRoundTrip answer, Except.toOption, Option.isSome_filter, Option.any_some, same, recovered, decide_true]

/-- Whose turn it is first, all find that see the same publication. -/
theorem grants_of_first {runner : CoinPairRunner} {vi : OracleBlockchainInfo} {requester : String} {rest : List String}
    (selected : selectNextAddresses vi.lastPubBlockHash vi.selectedOracles = .ok (requester :: rest)) (own : PriceWithTimestamp) :
    Grants requester runner vi own := by
  refine ⟨.selectedChosen, runner.oracleTurn, ?_, rfl⟩
  rw [TurnWindows.validateTurn_eq selected]
  exact if_pos (beq_self_eq_true requester)

end Answers

section Rounds
variable {libraries : Libraries} {params : PublishPriceParams} {message : String} {strFloat : PyFloat → String}
  {detail : Option Response → Json} {network : Network} {mySignature : Bytes}

/-- The peer answers as its node does at some moment, when it is ready and sees the turn as it should. -/
def Answers (libraries : Libraries) (strFloat : PyFloat → String) (detail : Option Response → Json) (network : Network)
    (params : PublishPriceParams) (message : String) (mySignature : Bytes)
    (sees : CoinPairRunner → OracleBlockchainInfo → PriceWithTimestamp → Prop) (oracle : FullOracleRoundInfo) : Prop :=
  ∃ node runner vi own, node.account.addr = oracle.addr ∧ Ready libraries node params message runner vi own ∧ sees runner vi own ∧
    ∀ form, params.toPostData libraries.eth.hexBytes strFloat mySignature = .ok form →
      network oracle params.getPost = (reply libraries detail node params.getPost form).1

private theorem make_of_fits {pair : CoinPair} (fits : PairFits pair) : CoinPair.make pair.cp = .ok pair := by
  obtain ⟨some, _, _, ended⟩ := fits
  have reversed : pair.cp.toList.reverse.dropWhile (· = '\x00') = pair.cp.toList.reverse := by
    rw [List.dropWhile_eq_self_iff]
    intro long
    simpa [List.getElem_reverse, List.getLast_eq_getElem] using ended
  cases kept : pair.cp.toList.reverse with
  | nil => exact absurd (List.reverse_eq_nil_iff.mp kept) some
  | cons last front =>
    rw [kept] at reversed
    simp only [CoinPair.make, kept, reversed]
    rw [← kept, List.reverse_reverse, String.ofList_toList]

/-- Numbers that fit in a word are short enough to be written. -/
theorem short_of_fits {number : Int} (fits : FitsWord number) : number.natAbs < 10 ^ Python.intMaxStrDigits := by
  have small : number.natAbs < 2 ^ 256 := by
    have := fits.1
    have := fits.2
    omega
  calc number.natAbs < 2 ^ 256 := small
    _ ≤ 10 ^ 256 := Nat.pow_le_pow_left (by decide) 256
    _ ≤ 10 ^ Python.intMaxStrDigits := Nat.pow_le_pow_right (by decide) (by decide)

private theorem posted_of_expiring (expiring : ExpiringPrice params) :
    ∃ form, params.toPostData libraries.eth.hexBytes strFloat mySignature = .ok form := by
  obtain ⟨fields, same, inRange⟩ := expiring.admitted
  obtain ⟨oracle, _, rfl⟩ := map_eq_ok_iff.mp same
  apply @exists_form libraries.eth.hexBytes strFloat mySignature (.price params)
  intro number member
  simp only [numbers, List.mem_append, List.mem_cons, List.not_mem_nil, or_false, Option.mem_toList] at member
  apply short_of_fits
  rcases member with (rfl | rfl | rfl) | present
  · exact inRange.version
  · exact inRange.value
  · exact inRange.lastPubBlock
  · exact inRange.expiration number present

variable {sees : CoinPairRunner → OracleBlockchainInfo → PriceWithTimestamp → Prop} {oracles synced completed : List FullOracleRoundInfo}

/-- The two forms of the message, both of which the account can sign. -/
structure Prepared (eth : EthAccount) (account : BlockchainAccount) (params : PublishPriceParams) (message : String)
    (mySignature : Bytes) (legacy : LegacyForm) : Prop where
  text : params.prepareMsg = .ok message
  signed : Crypto.signMessage eth ("0x" ++ message) account = .ok mySignature
  verified : Crypto.recover eth message mySignature = .ok params.oracleAddr
  legacy : signLegacy eth account (.price params) = .ok (some legacy)

private theorem legacy_params {eth : EthAccount} {account : BlockchainAccount} {legacy : LegacyForm}
    (signed : signLegacy eth account (.price params) = .ok (some legacy)) : legacy.params = params.asLegacy := by
  unfold signLegacy at signed
  split at signed
  · cases signed
  next price _ present =>
    obtain ⟨_, _, rest⟩ := bind_eq_ok_iff.mp signed
    obtain ⟨_, _, same⟩ := bind_eq_ok_iff.mp rest
    obtain rfl := Option.some.inj (pure_eq_ok_iff.mp same)
    obtain ⟨_, _, both⟩ := Option.map_eq_some_iff.mp present
    rw [← (Prod.mk.inj both).1]

private theorem delivers_of_answers {legacy : LegacyForm} {oracle : FullOracleRoundInfo}
    (answers : Answers libraries strFloat detail network params message mySignature sees oracle)
    (granted : ∀ runner vi own, sees runner vi own → Grants params.oracleAddr runner vi own) (expiring : ExpiringPrice params)
    (asked : Quoted params.price params.priceTsUtc) (fits : PairFits params.coinPair)
    (roundTrip : libraries.float (strFloat params.priceTsUtc) = .ok params.priceTsUtc) (hexRoundTrip : libraries.eth.hexBytes.RoundTrips)
    (prepared : params.prepareMsg = .ok message) (requested : Crypto.recover libraries.eth message mySignature = .ok params.oracleAddr) :
    delivers libraries.eth network (.price params) message legacy oracle = true := by
  obtain ⟨node, runner, vi, own, same, ready, seen, answered⟩ := answers
  obtain ⟨form, posted⟩ := @posted_of_expiring libraries params strFloat mySignature expiring
  have valid := @reply_ready libraries params message detail strFloat mySignature form node runner vi own ready (granted _ _ _ seen)
    expiring asked (make_of_fits fits) roundTrip hexRoundTrip prepared requested posted oracle (by rw [same])
  rw [← answered form posted] at valid
  have exists' : lacksEndpoint (network oracle (PublishParams.price params).getPost) = false := by
    by_contra lacks
    rw [Bool.not_eq_false] at lacks
    change (validSignature libraries.eth oracle message (network oracle (PublishParams.price params).getPost)).isSome = true at valid
    rw [validSignature_of_lacksEndpoint lacks] at valid
    cases valid
  rw [delivers, exists', if_neg Bool.false_ne_true]
  exact valid

/-- The loop returns once enough results are there, whoever is still missing. -/
theorem collect_enough {α : Type} {needed missing : Nat} {results : List (Option α)} {sigs : List α} (below : sigs.length < needed)
    (enough : needed ≤ sigs.length + results.reduceOption.length) :
    ∃ taken, collect needed missing results sigs = .ok taken ∧ needed ≤ taken.length := by
  induction results generalizing sigs with
  | nil =>
    rw [List.reduceOption_nil, List.length_nil] at enough
    omega
  | cons result results ih =>
    rw [collect]
    split
    next arrived => exact ⟨_, rfl, arrived⟩
    next few =>
      apply ih (not_le.mp few)
      rw [List.length_append]
      cases result with
      | none => simpa using enough
      | some result =>
        simp only [List.reduceOption_cons_of_some, List.length_cons] at enough
        simp only [Option.toList_some, List.length_singleton]
        omega

/-- Enough peers that deliver among those that complete. -/
theorem collect_delivered {eth : EthAccount} {params : PublishParams} {message : String} {legacy : LegacyForm}
    (publisher : ∃ oracle ∈ oracles, oracle.addr.text = params.oracleAddr) (arrived : completed.Subperm (peers oracles params.oracleAddr))
    (delivered : oracles.length / 2 ≤ completed.countP (delivers eth network params message legacy)) :
    ∃ taken, collect (oracles.length / 2) ((peers oracles params.oracleAddr).length - completed.length)
        (completed.map (getSignature eth network params message (some legacy))) [] = .ok taken ∧
      oracles.length / 2 ≤ taken.length ∧
      ∀ result ∈ taken, ∃ oracle ∈ peers oracles params.oracleAddr,
        getSignature eth network params message (some legacy) oracle = some result := by
  rcases Nat.eq_zero_or_pos (oracles.length / 2) with alone | several
  · rw [no_peers publisher alone] at arrived ⊢
    obtain rfl := List.subperm_nil.mp arrived
    exact ⟨[], rfl, alone.le, by simp⟩
  · have enough : oracles.length / 2 ≤ ([] : List PeerResult).length +
        (completed.map (getSignature eth network params message (some legacy))).reduceOption.length := by
      rw [List.length_nil, Nat.zero_add, Arrivals.reduceOption_map_eq]
      exact delivered.trans (countP_delivers_le completed)
    obtain ⟨taken, collected, many⟩ := collect_enough several enough
    refine ⟨taken, collected, many, ?_⟩
    intro result member
    obtain ⟨first, others, split, rfl, _⟩ := Arrivals.collect_cases collected
    obtain ⟨seen, rest, rfl, rfl, rfl⟩ := List.map_eq_append_iff.mp split
    rw [List.nil_append, Arrivals.reduceOption_map_eq] at member
    obtain ⟨oracle, asked, answered⟩ := List.mem_filterMap.mp member
    exact ⟨oracle, arrived.subset (List.mem_append_left _ asked), answered⟩

/-- A publisher gets its transaction if half the peers are ready, whatever the
others answer and whether they do, unless one of them has neither endpoint. -/
theorem transaction_of_answers {account : BlockchainAccount} {conf : OracleConfiguration} {debug : Bool} {now : Int} {legacy : LegacyForm}
    (expiring : ExpiringPrice params) (asked : Quoted params.price params.priceTsUtc)
    (roundTrip : libraries.float (strFloat params.priceTsUtc) = .ok params.priceTsUtc) (hexRoundTrip : libraries.eth.hexBytes.RoundTrips)
    (prepared : Prepared libraries.eth account params message mySignature legacy)
    (publisher : ∃ oracle ∈ oracles, oracle.addr.text = params.oracleAddr)
    (arrived : completed.Subperm (peers oracles params.oracleAddr))
    (endpoints : ∀ peer ∈ peers oracles params.oracleAddr, lacksEndpoint (network peer params.getPost) = true →
      lacksEndpoint (network peer params.asLegacy.getPost) = false)
    (among : synced.Subperm completed) (half : oracles.length / 2 ≤ synced.length)
    (answers : ∀ peer ∈ synced, Answers libraries strFloat detail network params message mySignature sees peer)
    (granted : ∀ runner vi own, sees runner vi own → Grants params.oracleAddr runner vi own)
    (inTime : ∀ expiration ∈ params.expiration, conf.priceSignatureMinValiditySeconds ≤ expiration - now) :
    ∃ call, publish libraries.eth account conf debug network completed now oracles (.price params) = .ok (.transaction call) ∧
      call.value = params.price ∧ call.lastPubBlock = params.lastPubBlock ∧ call.expiration = params.expiration ∧
      oracles.length / 2 + 1 ≤ call.v.length := by
  have fits : PairFits params.coinPair := by
    obtain ⟨fields, same, inRange⟩ := expiring.admitted
    obtain ⟨oracle, _, rfl⟩ := map_eq_ok_iff.mp same
    exact inRange.coinPair
  have delivered : oracles.length / 2 ≤ completed.countP (delivers libraries.eth network (.price params) message legacy) := by
    have all : synced.countP (delivers libraries.eth network (.price params) message legacy) = synced.length := by
      apply List.countP_eq_length.mpr
      intro peer member
      exact delivers_of_answers (answers peer member) granted expiring asked fits roundTrip hexRoundTrip prepared.text prepared.verified
    exact half.trans (all ▸ among.countP_le _)
  obtain ⟨taken, collected, enough, kept⟩ := collect_delivered publisher arrived delivered
  have unmarked : PeerResult.unsupportedEndpoint ∉ taken := by
    intro marked
    obtain ⟨peer, listed, answered⟩ := kept _ marked
    have lacks := getSignature_eq_unsupported_iff.mp answered
    rw [lacksBothEndpoints, legacy_params prepared.legacy, Bool.and_eq_true] at lacks
    have lacking := lacks.2
    change lacksEndpoint (network peer params.asLegacy.getPost) = true at lacking
    rw [endpoints peer listed lacks.1] at lacking
    cases lacking
  obtain ⟨signers, sorted⟩ := @signers_of_taken libraries.eth network oracles (.price params) message mySignature legacy taken publisher
    (fun result member => (kept result member).imp fun _ => And.right) unmarked
  have count := (sortedSignatures_ok sorted).1.length_eq
  rw [List.length_map, List.length_append, List.length_singleton] at count
  have majority : oracles.length / 2 + 1 ≤ signers.length := by
    rw [count]
    exact Nat.add_le_add_right enough 1
  have gathered : gatherSignatures libraries.eth network completed oracles (.price params) message mySignature (some legacy) =
      .ok (signers.map (·.signature)) :=
    map_eq_ok_iff.mpr ⟨signers, gatherSigned_ok_iff.mpr ⟨taken, collected, sorted⟩, rfl⟩
  have timely : ¬∃ price ∈ expiringPrice (.price params), price.2 - now < conf.priceSignatureMinValiditySeconds := by
    intro late
    obtain ⟨price, present, early⟩ := late
    obtain ⟨expiration, here, rfl⟩ := Option.map_eq_some_iff.mp present
    exact absurd (inTime expiration here) (not_le.mpr early)
  have text : PublishParams.prepareMsg (.price params) = .ok message := prepared.text
  have few : ¬(signers.map (·.signature)).length < oracles.length / 2 + 1 := by
    rw [List.length_map]
    exact not_lt.mpr majority
  obtain ⟨call, made, same⟩ : ∃ call, CoinPairService.publish (.price params) (signers.map (·.signature)) = .ok call ∧
      (call.value = params.price ∧ call.lastPubBlock = params.lastPubBlock ∧ call.expiration = params.expiration ∧
        oracles.length / 2 + 1 ≤ call.v.length) := by
    refine ⟨_, bind_eq_ok_iff.mpr ⟨_, longer_eq fits, rfl⟩, rfl, rfl, rfl, ?_⟩
    rw [List.length_map, List.length_map]
    exact majority
  refine ⟨call, ?_, same⟩
  simp only [publish, text, prepared.signed, prepared.legacy, gathered, bind, Except.bind, if_neg few, if_neg timely,
    Option.isNone_some, Bool.and_false, Bool.false_eq_true, if_false, made]
  rfl

/-- A chosen publisher gets its transaction if at least half of its peers see the
same publication and a price close to its own, whatever the others answer and
whether they do, unless one of them has neither endpoint. -/
theorem chosen_round_publishes {name : String} {setting : LoopRounds.Setting} {runner : Runner} {view : OracleBlockchainInfo}
    {account : BlockchainAccount} {conf : OracleConfiguration} {debug : Bool} {now : Int} {legacy : LegacyForm}
    (served : Served name runner) (info : LoopRounds.blockchainInfo runner = some view)
    (decided : (decision setting account.addr.text runner).1 = .ok (.publish oracles (.price params) (some 0)))
    (admitted : Admitted (priceFields params)) (priced : params.price ≠ 0)
    (roundTrip : libraries.float (strFloat params.priceTsUtc) = .ok params.priceTsUtc) (hexRoundTrip : libraries.eth.hexBytes.RoundTrips)
    (prepared : Prepared libraries.eth account params message mySignature legacy)
    (arrived : completed.Subperm (peers oracles params.oracleAddr))
    (endpoints : ∀ peer ∈ peers oracles params.oracleAddr, lacksEndpoint (network peer params.getPost) = true →
      lacksEndpoint (network peer params.asLegacy.getPost) = false)
    (among : synced.Subperm completed) (half : oracles.length / 2 ≤ synced.length)
    (answers : ∀ peer ∈ synced, Answers libraries strFloat detail network params message mySignature
      (fun _ vi _ => vi.lastPubBlockHash = view.lastPubBlockHash ∧ vi.selectedOracles = view.selectedOracles) peer)
    (inTime : ∀ expiration ∈ params.expiration, conf.priceSignatureMinValiditySeconds ≤ expiration - now) :
    ∃ call, publish libraries.eth account conf debug network completed now oracles (.price params) = .ok (.transaction call) ∧
      call.value = params.price ∧ call.lastPubBlock = params.lastPubBlock ∧ call.expiration = params.expiration ∧
      oracles.length / 2 + 1 ≤ call.v.length := by
  obtain ⟨expiring, _, publisher⟩ := expiring_of_decision served decided admitted
  obtain ⟨_, ⟨price, vi, own, order, after, rfl, here, _⟩ | ⟨tasks, vi, order, since, rfl, here, _⟩⟩ := decision_publish decided
  · have same := PublishParams.price.inj here.params
    obtain rfl : vi = view := Option.some.inj (here.info.symm.trans info)
    obtain ⟨selected, _⟩ := TurnWindows.isOracleTurn_cases here.turn
    obtain ⟨rest, rfl⟩ : ∃ rest, order = account.addr.text :: rest := by
      obtain ⟨inside, first, _⟩ := List.idxOf?_eq_some_iff.mp here.fallbackIndex.symm
      cases order with
      | nil => cases inside
      | cons head rest => exact ⟨rest, congrArg (· :: rest) first⟩
    have first : params.oracleAddr = account.addr.text := by rw [same]; rfl
    have asked : Quoted params.price params.priceTsUtc := ⟨priced, by rw [same]; exact here.dated⟩
    apply transaction_of_answers expiring asked roundTrip hexRoundTrip prepared publisher arrived endpoints among half answers ?_ inTime
    intro peer vi theirs sees
    apply grants_of_first
    rw [sees.1, sees.2, first]
    exact selected
  · cases here.params

end Rounds
section Exchange

/-- The exchange, and a node of the peer that answers on its own. -/
def syncedLibraries : Libraries := { exchangeLibraries with float := timestampLibraries.float }

def syncedPrice : PriceWithTimestamp := ⟨1001000000000000000, .finite 1700000001⟩

def syncedNode : Node := sharedNode signerAddr "signer key" syncedPrice

def refused (_ : Option Response) : Json := .string "Can't be signed"

/-- Every peer answers as this node does. -/
def networkOf (node : Node) : Network := fun _ path =>
  match exchangeParams.toPostData syncedLibraries.eth.hexBytes timestampText requesterSignature with
  | .ok form => (reply syncedLibraries refused node path form).1
  | .error _ => .connectionError

/-- A node of the signer that takes its price from the exchanges, at a block before the price expires. -/
structure Synced (node : Node) (runner : CoinPairRunner) (vi : OracleBlockchainInfo) : Prop where
  serves : node.getRunner exchangeParams.coinPair = some (.coinPair runner)
  info : runner.blockchainInfo = some vi
  sameBlock : exchangeParams.lastPubBlock = vi.lastPubBlock
  price : runner.lastPrice exchangeParams.priceTsUtc false = .ok (some syncedPrice)
  conf : runner.conf = sharedConfiguration
  account : node.account = syncedNode.account
  now : node.now = syncedNode.now

theorem answers_of_synced {node : Node} {runner : CoinPairRunner} {vi : OracleBlockchainInfo}
    {Agrees : CoinPairRunner → OracleBlockchainInfo → PriceWithTimestamp → Prop} (synced : Synced node runner vi)
    (agrees : Agrees runner vi syncedPrice) : Answers syncedLibraries timestampText refused (networkOf node) exchangeParams
      requestedMessage requesterSignature Agrees signingOracle := by
  refine ⟨node, runner, vi, syncedPrice, ?_, ?_, agrees, ?_⟩
  · rw [synced.account]
    rfl
  · refine
      { serves := synced.serves, info := synced.info, sameBlock := synced.sameBlock, price := synced.price, quoted := ⟨by decide, by decide⟩
        close := ⟨3602879701896397 / 36028797018963968, by decide +kernel, ?_⟩
        lasts := ?_, key := ?_ }
    · rw [synced.conf]
      decide +kernel
    · rw [synced.conf, synced.now]
      intro expiration present
      obtain rfl := Option.some.inj present
      decide
    · rw [synced.account]
      exact ⟨signerSignature, by decide +kernel, by decide +kernel⟩
  · intro form posted
    simp only [networkOf, posted]

/-- The publisher's round ends with a transaction for its price that two oracles signed. -/
def PublishesOver (network : Network) : Prop :=
  ∃ call, publish syncedLibraries.eth publishingNode.account sharedConfiguration false network [signingOracle] 1700000000
      [publishingOracle, signingOracle] (.price exchangeParams) = .ok (.transaction call) ∧
    call.value = exchangeParams.price ∧ call.lastPubBlock = exchangeParams.lastPubBlock ∧
    call.expiration = exchangeParams.expiration ∧ 2 ≤ call.v.length

theorem publisher_served : Served "BTCUSD" (sharedRunner publishedPrice) :=
  (exchange_served publishedPrice requesterAddr "publisher key").runners _ List.mem_cons_self

private theorem synced_syncedNode : Synced syncedNode (sharedPriceRunner syncedPrice) sharedView := ⟨rfl, rfl, rfl, rfl, rfl, rfl, rfl⟩

theorem synced_prepared : Prepared syncedLibraries.eth publishingNode.account exchangeParams requestedMessage requesterSignature
    exchangeLegacy := by
  refine ⟨exchange_message, by decide +kernel, by decide +kernel, ?_⟩
  exact bind_eq_ok_iff.mpr ⟨legacyMessage, exchange_legacyMessage, bind_eq_ok_iff.mpr ⟨requesterLegacySignature, by decide +kernel, rfl⟩⟩

theorem synced_hexRoundTrip : syncedLibraries.eth.hexBytes.RoundTrips := FixedWidth.plainHexBytes_roundTrips

theorem synced_roundTrip : syncedLibraries.float (timestampText exchangeParams.priceTsUtc) = .ok exchangeParams.priceTsUtc := by
  decide +kernel

theorem chosen_round_publishes_exchange : PublishesOver (networkOf syncedNode) := by
  have endpoints : ∀ peer ∈ peers [publishingOracle, signingOracle] exchangeParams.oracleAddr,
      lacksEndpoint (networkOf syncedNode peer exchangeParams.getPost) = true →
        lacksEndpoint (networkOf syncedNode peer exchangeParams.asLegacy.getPost) = false := by
    decide +kernel
  have answers : ∀ peer ∈ [signingOracle], Answers syncedLibraries timestampText refused (networkOf syncedNode) exchangeParams
      requestedMessage requesterSignature (fun _ vi _ => vi.lastPubBlockHash = sharedView.lastPubBlockHash ∧
        vi.selectedOracles = sharedView.selectedOracles) peer := by
    intro peer member
    obtain rfl := List.mem_singleton.mp member
    exact answers_of_synced synced_syncedNode ⟨rfl, rfl⟩
  exact chosen_round_publishes publisher_served rfl shared_publishes exchange_expiring.admitted (by decide) synced_roundTrip
    synced_hexRoundTrip synced_prepared (List.Perm.subperm (by decide)) endpoints (List.Subperm.refl _) (by decide) answers (by decide)

end Exchange

end OmocNode.Proofs.SyncedQuorum
