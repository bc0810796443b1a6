import OmocNode.Proofs.FixedWidth
import OmocNode.Proofs.RequestChecks

/-! What a node has checked when it answers a request with its signature. The
kind of the request and the kind of the pair meet only at run time, so the checks
are collected over every combination of them. -/

namespace OmocNode.Proofs.SignEndpoints
open App RequestM Outcomes RequestChecks

/-- A price goes through `/sign/` as V3, or through `/sign-price-v4/` as V4 with
an expiration that is neither too close nor too far. -/
def ThroughItsEndpoint (conf : OracleConfiguration) (now : Int) (params : PublishPriceParams) : SignRequest → Prop
  | .sign .. => params.version = 3 ∧ params.expiration = none
  | .signPriceV4 .. => params.version = 4 ∧ ∃ expiration, params.expiration = some expiration ∧
      conf.priceSignatureMinValiditySeconds ≤ expiration - now ∧ expiration - now ≤ conf.priceSignatureMaxValiditySeconds
  | .signTask .. => False

/-- What a signed price message vouches for, `vi` and `own` being the node's own
view of the chain and its own price. -/
structure PriceSigned (libraries : Libraries) (node : Node) (runner : CoinPairRunner) (request : SignRequest)
    (params : PublishPriceParams) (message : String) (vi : OracleBlockchainInfo) (own : PriceWithTimestamp) : Prop where
  prepared : params.prepareMsg = .ok message
  endpoint : ThroughItsEndpoint runner.conf node.now params request
  blockchainInfo : runner.blockchainInfo = some vi
  sameBlock : params.lastPubBlock = vi.lastPubBlock
  ownPrice : runner.lastPrice params.priceTsUtc false = .ok (some own)
  priced : own.price ≠ 0
  close : ∃ delta, Helpers.priceDelta params.price own.price = .ok (.finite delta) ∧ delta ≤ runner.conf.oraclePriceRejectDeltaPct
  turn : ∃ verdict after,
    PriceOracleTurn.validateTurn runner.conf.turn vi params.oracleAddr (some own) runner.oracleTurn = .ok verdict after ∧
      verdict.isTurn = true
  requester : SignedBy libraries.eth params.oracleAddr message request.signature

private theorem respond_eq_signed {hexBytes : HexBytes} {result : RequestM (String × Bytes)} {message signature : String}
    (answered : respond hexBytes result = .signed message signature) :
    ∃ own, result = .ok (message, own) ∧ hexBytes.hex own = signature := by
  rcases result with (failure | err) | ⟨text, own⟩ <;> cases answered
  exact ⟨own, rfl, rfl⟩

/-- A signed request has passed the gate of its endpoint and the checks of its pair. -/
theorem handle_signed {libraries : Libraries} {node : Node} {request : SignRequest} {message signature : String}
    (answered : (handle libraries node request).1 = .signed message signature) :
    ∃ params own, request.checkVersion = .ok () ∧ request.params libraries = .ok params ∧
      (node.validateAndSign libraries params request.signature).1 = .ok (message, own) := by
  unfold handle at answered
  split at answered
  next err _ =>
    obtain ⟨own, refused, _⟩ := respond_eq_signed answered
    cases refused
  next params parsed =>
    obtain ⟨_, gate, fields⟩ := bind_eq_ok_iff.mp parsed
    obtain ⟨own, signed, _⟩ := respond_eq_signed answered
    exact ⟨params, own, gate, ofPython_eq_ok_iff.mp fields, signed⟩

/-- A version that an endpoint lets through is the one that the parameters get. -/
theorem version_of_gate {text : String} {expected version : Int} {failure : ValidationFailure}
    (gate : (ofPython (Python.parseInt 10 text) >>= fun number => refuseIf (number ≠ expected) failure) = .ok ())
    (parsed : Python.parseInt 10 text = .ok version) : version = expected := by
  obtain ⟨number, again, passed⟩ := bind_eq_ok_iff.mp gate
  obtain rfl := Except.ok.inj (parsed.symm.trans (ofPython_eq_ok_iff.mp again))
  exact not_not.mp (refuseIf_eq_ok_iff.mp passed)

theorem signTask_params {libraries : Libraries} {version coinPair tasksFlags oracleAddr lastPubBlock signature : String}
    {params : PublishParams}
    (fields : (SignRequest.signTask version coinPair tasksFlags oracleAddr lastPubBlock signature).params libraries = .ok params) :
    ∃ task, params = .task task := by
  simp only [SignRequest.params, bind_eq_ok_iff, pure_eq_ok_iff] at fields
  obtain ⟨_, _, _, _, _, _, _, _, rfl⟩ := fields
  exact ⟨_, rfl⟩

/-- A price runner validates price parameters only. -/
theorem createValidator_ok {runner : CoinPairRunner} {params : PublishParams} {v : PriceRequestValidation}
    (created : runner.createValidator params = .ok v) :
    ∃ price own, params = .price price ∧ runner.lastPrice price.priceTsUtc false = .ok own ∧
      v = { oraclePriceRejectDeltaPct := runner.conf.oraclePriceRejectDeltaPct, params := price
            turnConfiguration := runner.conf.turn, exchangePrice := own, blockchainInfo := runner.blockchainInfo
            minExpirationValidity := runner.conf.priceSignatureMinValiditySeconds
            maxExpirationValidity := some runner.conf.priceSignatureMaxValiditySeconds } := by
  cases params with
  | task params => cases created
  | price params =>
    simp only [CoinPairRunner.createValidator, bind_eq_ok_iff, pure_eq_ok_iff] at created
    obtain ⟨own, priced, rfl⟩ := created
    exact ⟨params, own, rfl, priced, rfl⟩

private theorem throughItsEndpoint_of_accepted {libraries : Libraries} {request : SignRequest} {params : PublishPriceParams}
    {conf : OracleConfiguration} {now : Int} (gate : request.checkVersion = .ok ())
    (fields : request.params libraries = .ok (.price params))
    (unexpired : ∀ expiration ∈ params.expiration, conf.priceSignatureMinValiditySeconds ≤ expiration - now ∧
      expiration - now ≤ conf.priceSignatureMaxValiditySeconds) : ThroughItsEndpoint conf now params request := by
  cases request with
  | sign version coinPair price priceTimestamp oracleAddr lastPubBlock signature =>
    simp only [SignRequest.params, bind_eq_ok_iff, pure_eq_ok_iff, PublishParams.price.injEq] at fields
    obtain ⟨_, parsed, _, _, _, _, _, _, _, _, rfl⟩ := fields
    exact ⟨version_of_gate gate parsed, rfl⟩
  | signPriceV4 version coinPair price priceTimestamp oracleAddr lastPubBlock expiration signature =>
    simp only [SignRequest.params, bind_eq_ok_iff, pure_eq_ok_iff, PublishParams.price.injEq] at fields
    obtain ⟨_, parsed, _, _, _, _, _, _, _, _, expires, _, rfl⟩ := fields
    exact ⟨version_of_gate gate parsed, expires, rfl, unexpired expires rfl⟩
  | signTask version coinPair tasksFlags oracleAddr lastPubBlock signature =>
    obtain ⟨task, same⟩ := signTask_params fields
    cases same

theorem price_of_coinPairRunner {libraries : Libraries} {node : Node} {request : SignRequest} {params : PublishParams}
    {runner : CoinPairRunner} {message : String} {own : Bytes} (gate : request.checkVersion = .ok ())
    (fields : request.params libraries = .ok params) (served : node.getRunner params.coinPair = some (.coinPair runner))
    (signed : (node.validateAndSign libraries params request.signature).1 = .ok (message, own)) :
    ∃ price vi own, params = .price price ∧ PriceSigned libraries node runner request price message vi own := by
  simp only [Node.validateAndSign, served] at signed
  split at signed
  · cases signed
  next v created =>
    obtain ⟨price, ownPrice, rfl, answered, rfl⟩ := createValidator_ok created
    obtain ⟨vi, verdict, after, info, sameBlock, unexpired, ⟨own, delta, rfl, priced, _, measured, close⟩, granted, isTurn,
      prepared, requester⟩ := validateAndSign_ok signed
    have inTime := throughItsEndpoint_of_accepted gate fields fun expiration present =>
      ⟨(unexpired expiration present).2.1, (unexpired expiration present).2.2 _ rfl⟩
    exact ⟨price, vi, own, rfl, prepared, inTime, info, sameBlock, answered, priced, ⟨delta, measured, close⟩,
      ⟨verdict, after, granted, isTurn⟩, requester⟩

theorem task_of_tasksRunner {libraries : Libraries} {node : Node} {params : PublishParams} {runner : TasksRunner}
    {signature message : String} {own : Bytes} (served : node.getRunner params.coinPair = some (.tasks runner))
    (signed : (node.validateAndSign libraries params signature).1 = .ok (message, own)) : ∃ task, params = .task task := by
  simp only [Node.validateAndSign, served, TaskRequestValidation.validateAndSign, bind_eq_ok_iff] at signed
  obtain ⟨_, accepted, _⟩ := signed
  exact task_of_validateParams_ok accepted

/-- A node signs for a price pair only a price request it has checked in full,
and for a tasks pair only a task request. -/
theorem signed_requests_checked {libraries : Libraries} {node : Node} {request : SignRequest} {message signature : String}
    (answered : (handle libraries node request).1 = .signed message signature) :
    ∃ params, request.params libraries = .ok params ∧
      (∀ runner, node.getRunner params.coinPair = some (.coinPair runner) →
        ∃ price vi own, params = .price price ∧ PriceSigned libraries node runner request price message vi own) ∧
      ∀ runner, node.getRunner params.coinPair = some (.tasks runner) → ∃ task, params = .task task := by
  obtain ⟨params, own, gate, fields, signed⟩ := handle_signed answered
  exact ⟨params, fields, fun runner served => price_of_coinPairRunner gate fields served signed,
    fun runner served => task_of_tasksRunner served signed⟩

/-- The libraries on the texts of the request below, where the two signatures are genuine. -/
def requestLibraries : Libraries where
  eth :=
    { hexBytes := FixedWidth.plainHexBytes
      recoverMessage := fun message signature =>
        if message = requestedMessage ∧ signature = requesterSignature then .ok requesterAddr.text
        else .error .valueError
      signMessage := fun hexstr _ =>
        if hexstr = "0x" ++ requestedMessage then .ok signerSignature else .error .valueError }
  float text := (Python.parseInt 10 text).map fun seconds => .finite seconds

def signerRunner : CoinPairRunner where
  conf :=
    { turn := ⟨1 / 20, 1, [2, 4, 6, 8, 10], 30⟩, oraclePriceRejectDeltaPct := 50, priceSignatureExpirationSeconds := 300
      priceSignatureMinValiditySeconds := 30, priceSignatureMaxValiditySeconds := 600, taskMessageVersion := 1 }
  coinPair := ⟨"BTCUSD"⟩
  lastPrice _ _ := .ok (some ⟨1001000000000000000, .finite 1700000001⟩)
  blockchainInfo := some
    { coinPair := ⟨"BTCUSD"⟩, selectedOracles := [⟨requesterAddr, "http://requester:5556", 1000, requesterAddr, 0, true, 1⟩]
      blockchainPrice := 990000000000000000, blockNum := 124, lastPubBlock := 123, lastPubBlockHash := List.replicate 32 7
      validPricePeriodInBlocks := 300 }
  oracleTurn := PriceOracleTurn.init ⟨"BTCUSD"⟩ .disabled

def signerNode : Node :=
  { cpMap := [("BTCUSD", .coinPair signerRunner)]
    account := ⟨signerAddr, "signer key"⟩, now := 1700000000 }

def priceRequest : SignRequest :=
  .signPriceV4 "4" "BTCUSD" "1000000000000000000" "1700000000" requesterAddr.text "123" "1700000300"
    (FixedWidth.plainHexBytes.hex requesterSignature)

theorem signed_requests_checked_v4 :
    (handle requestLibraries signerNode priceRequest).1 = .signed requestedMessage (FixedWidth.plainHexBytes.hex signerSignature) ∧
      ∃ params, priceRequest.params requestLibraries = .ok params ∧
        (∀ runner, signerNode.getRunner params.coinPair = some (.coinPair runner) →
          ∃ price vi own, params = .price price ∧
            PriceSigned requestLibraries signerNode runner priceRequest price requestedMessage vi own) ∧
        ∀ runner, signerNode.getRunner params.coinPair = some (.tasks runner) → ∃ task, params = .task task := by
  have answered : (handle requestLibraries signerNode priceRequest).1 =
      .signed requestedMessage (FixedWidth.plainHexBytes.hex signerSignature) := by
    decide +kernel
  exact ⟨answered, signed_requests_checked answered⟩

end OmocNode.Proofs.SignEndpoints
