import OmocNode.App
import OmocNode.Proofs.Outcomes
import OmocNode.Proofs.PriceDistance

/-! What each check of a sign request has established when it lets the request
pass. -/

namespace OmocNode.Proofs.RequestChecks
open RequestM Outcomes

theorem ofPython_eq_ok_iff {α : Type} {result : Except PyError α} {value : α} :
    ofPython result = .ok value ↔ result = .ok value := mapError_eq_ok_iff

theorem refuseIf_eq_ok_iff {condition : Prop} [Decidable condition] {failure : ValidationFailure} {done : Unit} :
    refuseIf condition failure = .ok done ↔ ¬condition := by
  unfold refuseIf refuse
  split <;> simp_all

theorem refuse_ne_ok {α : Type} {failure : ValidationFailure} {value : α} : refuse failure ≠ .ok value := nofun

/-- The signature text stands for bytes from which the library recovers the address. -/
def SignedBy (eth : EthAccount) (oracleAddr message signature : String) : Prop :=
  ∃ signatureBytes, eth.hexBytes.ofText signature = .ok signatureBytes ∧ Crypto.recover eth message signatureBytes = .ok oracleAddr

theorem verifySignature_eq_true_iff {eth : EthAccount} {address message : String} {signature : Bytes} :
    Crypto.verifySignature eth address message signature = .ok true ↔ Crypto.recover eth message signature = .ok address := by
  unfold Crypto.verifySignature
  split
  next recovered answered => rw [answered, Except.ok.injEq, Except.ok.injEq, beq_iff_eq, eq_comm]
  all_goals simp [*]

theorem validateSignature_ok_iff {eth : EthAccount} {oracleAddr message signature : String} {done : Unit} :
    validateSignature eth oracleAddr message signature = .ok done ↔ SignedBy eth oracleAddr message signature := by
  unfold validateSignature SignedBy
  split
  next invalid => simp only [refuse_ne_ok, invalid, reduceCtorEq, false_and, exists_false]
  next signatureBytes decoded =>
    simp only [bind_eq_ok_iff, ofPython_eq_ok_iff, refuseIf_eq_ok_iff, Bool.not_eq_false, decoded, Except.ok.injEq,
      exists_eq_left', exists_eq_right, verifySignature_eq_true_iff]

theorem signValidated_ok_iff {eth : EthAccount} {account : BlockchainAccount} {oracleAddr signature message : String}
    {prepared : Except PyError String} {own : Bytes} :
    signValidated eth account oracleAddr signature prepared = .ok (message, own) ↔
      prepared = .ok message ∧ SignedBy eth oracleAddr message signature ∧
        Crypto.signMessage eth ("0x" ++ message) account = .ok own := by
  simp only [signValidated, bind_eq_ok_iff, ofPython_eq_ok_iff, validateSignature_ok_iff, pure_eq_ok_iff, Prod.mk.injEq]
  constructor
  · intro steps
    obtain ⟨_, same, _, signed, _, answered, rfl, rfl⟩ := steps
    exact ⟨same, signed, answered⟩
  · intro checks
    obtain ⟨same, signed, answered⟩ := checks
    exact ⟨message, same, (), signed, own, answered, rfl, rfl⟩

section Price
open PriceRequestValidation
variable {v : PriceRequestValidation} {now : Int} {done : Unit}

/-- An expiration is signed only on a V4 message and only within the validity bounds. -/
def ExpirationAccepted (v : PriceRequestValidation) (now : Int) : Prop :=
  ∀ expiration ∈ v.params.expiration, v.params.version = expiringPriceMessageVersion ∧
    v.minExpirationValidity ≤ expiration - now ∧ ∀ most ∈ v.maxExpirationValidity, expiration - now ≤ most

/-- The node has a price of its own, and the requested one is close to it. -/
def PriceAccepted (v : PriceRequestValidation) : Prop :=
  ∃ own delta, v.exchangePrice = some own ∧ own.price ≠ 0 ∧ v.params.price ≠ 0 ∧
    Helpers.priceDelta v.params.price own.price = .ok (.finite delta) ∧ delta ≤ v.oraclePriceRejectDeltaPct

theorem validateExpiration_ok_iff : v.validateExpiration now = .ok done ↔ ExpirationAccepted v now := by
  unfold validateExpiration ExpirationAccepted
  split
  next absent => simp [absent]
  next expiration present =>
    simp only [bind_eq_ok_iff, refuseIf_eq_ok_iff, present, Option.mem_some, forall_eq', not_exists, not_and, not_lt,
      ne_eq, not_not, exists_const]

private theorem validatePrice_ok (accepted : v.validatePrice = .ok done) : PriceAccepted v := by
  unfold validatePrice at accepted
  split at accepted
  · exact absurd accepted refuse_ne_ok
  next own present =>
    simp only [bind_eq_ok_iff, refuseIf_eq_ok_iff, ofPython_eq_ok_iff, not_or, Bool.not_eq_true, exists_const] at accepted
    obtain ⟨⟨priced, _⟩, ⟨requested, _⟩, delta, measured, close⟩ := accepted
    obtain ⟨number, rfl, near⟩ := (PriceDistance.close_iff measured).mp close
    exact ⟨own, number, present, priced, requested, measured, near⟩

private theorem validateParams_ok (accepted : v.validateParams now = .ok done) :
    ∃ blockchainInfo, v.blockchainInfo = some blockchainInfo ∧ v.params.lastPubBlock = blockchainInfo.lastPubBlock ∧
      ExpirationAccepted v now ∧ PriceAccepted v := by
  unfold validateParams at accepted
  split at accepted
  · exact absurd accepted refuse_ne_ok
  next blockchainInfo present =>
    simp only [bind_eq_ok_iff, refuseIf_eq_ok_iff, ne_eq, not_not, exists_const, validateExpiration_ok_iff] at accepted
    obtain ⟨sameBlock, unexpired, priced⟩ := accepted
    exact ⟨blockchainInfo, present, sameBlock, unexpired, validatePrice_ok priced⟩

private theorem validateTurn_ok {blockchainInfo : OracleBlockchainInfo} (present : v.blockchainInfo = some blockchainInfo)
    {turn : PriceOracleTurn} (accepted : (v.validateTurn turn).1 = .ok done) :
    ∃ verdict after, PriceOracleTurn.validateTurn v.turnConfiguration blockchainInfo v.params.oracleAddr v.exchangePrice turn =
      .ok verdict after ∧ verdict.isTurn = true := by
  simp only [PriceRequestValidation.validateTurn, present] at accepted
  split at accepted
  next verdict after answered =>
    rw [refuseIf_eq_ok_iff, Bool.not_eq_false] at accepted
    exact ⟨verdict, after, answered, accepted⟩
  · cases accepted

/-- What a node has checked when it signs a price. -/
theorem validateAndSign_ok {eth : EthAccount} {account : BlockchainAccount} {signature message : String} {own : Bytes}
    {turn : PriceOracleTurn} (signed : (v.validateAndSign eth account now signature turn).1 = .ok (message, own)) :
    ∃ blockchainInfo verdict after, v.blockchainInfo = some blockchainInfo ∧
      v.params.lastPubBlock = blockchainInfo.lastPubBlock ∧ ExpirationAccepted v now ∧ PriceAccepted v ∧
      PriceOracleTurn.validateTurn v.turnConfiguration blockchainInfo v.params.oracleAddr v.exchangePrice turn =
        .ok verdict after ∧ verdict.isTurn = true ∧
      v.params.prepareMsg = .ok message ∧ SignedBy eth v.params.oracleAddr message signature := by
  unfold validateAndSign at signed
  split at signed
  · cases signed
  next accepted =>
    obtain ⟨blockchainInfo, present, sameBlock, unexpired, priced⟩ := validateParams_ok accepted
    obtain ⟨_, granted, rest⟩ := bind_eq_ok_iff.mp signed
    obtain ⟨verdict, after, answered, isTurn⟩ := validateTurn_ok present granted
    obtain ⟨prepared, signedBy, _⟩ := signValidated_ok_iff.mp rest
    exact ⟨blockchainInfo, verdict, after, present, sameBlock, unexpired, priced, answered, isTurn, prepared, signedBy⟩

end Price

/-- A tasks validator stops at the attribute that only task parameters have. -/
theorem task_of_validateParams_ok {v : TaskRequestValidation} {done : Unit} (accepted : v.validateParams = .ok done) :
    ∃ params, v.params = .task params := by
  unfold TaskRequestValidation.validateParams at accepted
  split at accepted
  · exact absurd accepted refuse_ne_ok
  · simp only [bind_eq_ok_iff, refuseIf_eq_ok_iff, ofPython_eq_ok_iff, exists_const] at accepted
    obtain ⟨_, _, _, flags, _⟩ := accepted
    cases kind : v.params with
    | price params =>
      rw [kind] at flags
      cases flags
    | task params => exact ⟨params, rfl⟩

/-! One request with genuine signatures, of the oracle that asks and of the one that answers. -/

def requesterAddr : Address := ⟨"0x610Bb1573d1046FCb8A70Bbbd395754cD57C2b60", by decide⟩

def signerAddr : Address := ⟨"0x855FA758c77D68a04990E992aA4dcdeF899F654A", by decide⟩

def requestedMessage : String :=
  "0000000000000000000000000000000000000000000000000000000000000004" ++
  "4254435553440000000000000000000000000000000000000000000000000000" ++
  "0000000000000000000000000000000000000000000000000de0b6b3a7640000" ++
  "610bb1573d1046fcb8a70bbbd395754cd57c2b60" ++
  "000000000000000000000000000000000000000000000000000000000000007b" ++
  "000000000000000000000000000000000000000000000000000000006553f22c"

/-- The old form of the message. -/
def legacyMessage : String :=
  "0000000000000000000000000000000000000000000000000000000000000003" ++
  "4254435553440000000000000000000000000000000000000000000000000000" ++
  "0000000000000000000000000000000000000000000000000de0b6b3a7640000" ++
  "610bb1573d1046fcb8a70bbbd395754cd57c2b60" ++
  "000000000000000000000000000000000000000000000000000000000000007b"

def bigEndian (count value : Nat) : Bytes :=
  (List.range count).map fun idx => UInt8.ofNat (value / 256 ^ (count - 1 - idx))

def signatureBytes (r s v : Nat) : Bytes := bigEndian 32 r ++ bigEndian 32 s ++ [UInt8.ofNat v]

def requesterSignature : Bytes :=
  signatureBytes 0x3984cc8d7fd1401cf6a71f4cc06670a5496f56354118941f42888134fffccae4
    0x753bbc814007cd301a45ebc49bf1fe8aaee6159f61466dddf4b770b47d2fbbd7 27

def signerSignature : Bytes :=
  signatureBytes 0x8a83c7c6b2186849e7018f62e21c67da0c82b0e28aa5516a1ab3eef2b5604f1f
    0x537a86f0005500ba5f5e52fb94f1af0002b68f7f0fd34ba99bd318491484d853 28

def requesterLegacySignature : Bytes :=
  signatureBytes 0x9a77a4f1939e65bf64d6b3591eb968d25f76b0a39c2920df30a362fac8e17f7e
    0x7290bcdbfb11acfa71945a3b95b529032e5c898b8d25166d487265576f98c118 28

def signerLegacySignature : Bytes :=
  signatureBytes 0xd992ac0782fda8d7789af8dd973ae4b865a20bc8b2ae8421bd5f3a299ceb702e
    0x1598de4a653cd70cba73feea4445601f3927909404734ed5e2baf21cbf859713 27

end OmocNode.Proofs.RequestChecks
