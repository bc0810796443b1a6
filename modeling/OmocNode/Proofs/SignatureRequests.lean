import Mathlib.Data.List.DropRight
import OmocNode.Proofs.DecimalText
import OmocNode.Proofs.FixedWidth
import OmocNode.Proofs.RequestChecks

/-! What an oracle asks another one to sign arrives there as it was built. Each
kind of parameters has its own form, its own path and its own way to be read. -/

namespace OmocNode.Proofs.SignatureRequests
open App RequestM Outcomes RequestChecks DecimalText FixedWidth

variable {hexBytes : HexBytes} {libraries : Libraries} {strFloat : PyFloat → String} {mySignature : Bytes} {form : Form}

/-- The parameters of the requests of one node: its own prices, their legacy form, and its tasks. -/
inductive Built (account : BlockchainAccount) : PublishParams → Prop
  | price (runner : CoinPairRunner) (name : String) (made : CoinPair.make name = .ok runner.coinPair) (now : Int)
      (exchangePrice : PriceWithTimestamp) (vi : OracleBlockchainInfo) :
      Built account (.price (runner.preparePublishParams now exchangePrice vi account.addr.text))
  | legacyPrice (runner : CoinPairRunner) (name : String) (made : CoinPair.make name = .ok runner.coinPair) (now : Int)
      (exchangePrice : PriceWithTimestamp) (vi : OracleBlockchainInfo) :
      Built account (.price (runner.preparePublishParams now exchangePrice vi account.addr.text).asLegacy)
  | task (runner : TasksRunner) (name : String) (made : CoinPair.make name = .ok runner.coinPair) (tasksFlags : Int)
      (vi : OracleBlockchainInfo) : Built account (.task (runner.preparePublishParams tasksFlags vi account.addr.text))

/-- The timestamp of a price; task parameters have none. -/
def timestamp : PublishParams → Option PyFloat
  | .price params => some params.priceTsUtc
  | .task _ => none

def numbers : PublishParams → List Int
  | .price params => [params.version, params.price, params.lastPubBlock] ++ params.expiration.toList
  | .task params => [params.version, params.tasksFlags, params.lastPubBlock]

/-- A form can be posted unless a number is too long to be written. -/
theorem exists_form {params : PublishParams} (short : ∀ number ∈ numbers params, number.natAbs < 10 ^ Python.intMaxStrDigits) :
    ∃ form, params.toPostData hexBytes strFloat mySignature = .ok form := by
  cases params with
  | price params =>
    simp only [numbers, List.forall_mem_append, List.forall_mem_cons] at short
    obtain ⟨⟨version, price, lastPubBlock, _⟩, expiration⟩ := short
    obtain ⟨versionText, version⟩ := str_ok version
    obtain ⟨priceText, price⟩ := str_ok price
    obtain ⟨blockText, lastPubBlock⟩ := str_ok lastPubBlock
    simp only [PublishParams.toPostData, PublishPriceParams.toPostData, version, price, lastPubBlock]
    cases present : params.expiration with
    | none => exact ⟨_, rfl⟩
    | some word =>
      obtain ⟨expirationText, written⟩ := str_ok (expiration word (by simp [present]))
      simp only [written]
      exact ⟨_, rfl⟩
  | task params =>
    simp only [numbers, List.forall_mem_cons] at short
    obtain ⟨version, tasksFlags, lastPubBlock, _⟩ := short
    obtain ⟨versionText, version⟩ := str_ok version
    obtain ⟨flagsText, tasksFlags⟩ := str_ok tasksFlags
    obtain ⟨blockText, lastPubBlock⟩ := str_ok lastPubBlock
    simp only [PublishParams.toPostData, PublishTaskParams.toPostData, version, tasksFlags, lastPubBlock]
    exact ⟨_, rfl⟩

/-- A name without its trailing NULs is kept as it is. -/
theorem make_made {name : String} {pair : CoinPair} (made : CoinPair.make name = .ok pair) :
    CoinPair.make pair.cp = .ok pair := by
  cases trimmed : name.toList.reverse.dropWhile (· = '\x00') with
  | nil =>
    simp only [CoinPair.make, trimmed] at made
    cases made
  | cons last front =>
    simp only [CoinPair.make, trimmed] at made
    obtain rfl := Except.ok.inj made
    have again : (last :: front).dropWhile (· = '\x00') = last :: front := by
      rw [← trimmed, List.dropWhile_idempotent]
    simp only [CoinPair.make, String.toList_ofList, List.reverse_reverse, again]

theorem price_received {params : PublishPriceParams} (pair : CoinPair.make params.coinPair.cp = .ok params.coinPair)
    (gate : params.version = if params.expiration.isSome then expiringPriceMessageVersion else legacyPriceMessageVersion)
    (roundTrip : libraries.float (strFloat params.priceTsUtc) = .ok params.priceTsUtc)
    (posted : params.toPostData hexBytes strFloat mySignature = .ok form) :
    ∃ request, SignRequest.ofForm params.getPost form = some request ∧ request.checkVersion = .ok () ∧
      request.params libraries = .ok (.price params) ∧ request.signature = hexBytes.hex mySignature := by
  simp only [PublishPriceParams.toPostData, bind_eq_ok_iff] at posted
  obtain ⟨version, versionText, price, priceText, lastPubBlock, blockText, rest⟩ := posted
  cases present : params.expiration with
  | none =>
    rw [present] at rest gate
    obtain rfl := Except.ok.inj rest
    refine ⟨.sign version params.coinPair.cp price (strFloat params.priceTsUtc) params.oracleAddr lastPubBlock
      (hexBytes.hex mySignature), ?_, ?_, ?_, rfl⟩
    · simp [SignRequest.ofForm, PublishPriceParams.getPost, present, List.lookup_cons]
    · exact bind_eq_ok_iff.mpr ⟨params.version, ofPython_eq_ok_iff.mpr (parseInt_str versionText),
        refuseIf_eq_ok_iff.mpr (not_not.mpr gate)⟩
    · simp only [SignRequest.params, bind_eq_ok_iff, pure_eq_ok_iff]
      refine ⟨_, parseInt_str versionText, _, pair, _, parseInt_str priceText, _, roundTrip, _, parseInt_str blockText, ?_⟩
      rw [PublishPriceParams.make, ← present]
  | some expiration =>
    rw [present] at rest gate
    obtain ⟨expirationText, written, posted⟩ := bind_eq_ok_iff.mp rest
    obtain rfl := Except.ok.inj posted
    refine ⟨.signPriceV4 version params.coinPair.cp price (strFloat params.priceTsUtc) params.oracleAddr lastPubBlock
      expirationText (hexBytes.hex mySignature), ?_, ?_, ?_, rfl⟩
    · simp [SignRequest.ofForm, PublishPriceParams.getPost, present, List.lookup_cons]
    · exact bind_eq_ok_iff.mpr ⟨params.version, ofPython_eq_ok_iff.mpr (parseInt_str versionText),
        refuseIf_eq_ok_iff.mpr (not_not.mpr gate)⟩
    · simp only [SignRequest.params, bind_eq_ok_iff, pure_eq_ok_iff]
      refine ⟨_, parseInt_str versionText, _, pair, _, parseInt_str priceText, _, roundTrip, _, parseInt_str blockText, _,
        parseInt_str written, ?_⟩
      rw [PublishPriceParams.make, ← present]

private theorem task_received {params : PublishTaskParams} (pair : CoinPair.make params.coinPair.cp = .ok params.coinPair)
    (posted : params.toPostData hexBytes mySignature = .ok form) :
    ∃ request, SignRequest.ofForm params.getPost form = some request ∧ request.checkVersion = .ok () ∧
      request.params libraries = .ok (.task params) ∧ request.signature = hexBytes.hex mySignature := by
  simp only [PublishTaskParams.toPostData, bind_eq_ok_iff, pure_eq_ok_iff] at posted
  obtain ⟨version, versionText, tasksFlags, flagsText, lastPubBlock, blockText, rfl⟩ := posted
  refine ⟨.signTask version params.coinPair.cp tasksFlags params.oracleAddr lastPubBlock (hexBytes.hex mySignature), ?_, rfl, ?_,
    rfl⟩
  · simp [SignRequest.ofForm, PublishTaskParams.getPost, List.lookup_cons]
  · simp only [SignRequest.params, bind_eq_ok_iff, pure_eq_ok_iff]
    exact ⟨_, parseInt_str versionText, _, pair, _, parseInt_str flagsText, _, parseInt_str blockText, rfl⟩

/-- A request a node posts is taken at its path for one that passes the version
gate there, with the same message to sign, the same timestamp and the same
signature, whatever the parameters are that the node has built. -/
theorem request_reconstructed {account : BlockchainAccount} {params : PublishParams} (built : Built account params)
    (roundTrip : ∀ tsUtc ∈ timestamp params, libraries.float (strFloat tsUtc) = .ok tsUtc)
    (hexRoundTrip : libraries.eth.hexBytes.RoundTrips) :
    ((∀ number ∈ numbers params, number.natAbs < 10 ^ Python.intMaxStrDigits) →
        ∃ form, params.toPostData libraries.eth.hexBytes strFloat mySignature = .ok form) ∧
      ∀ form, params.toPostData libraries.eth.hexBytes strFloat mySignature = .ok form →
        ∃ request received, SignRequest.ofForm params.getPost form = some request ∧ request.checkVersion = .ok () ∧
          request.params libraries = .ok received ∧ received.prepareMsg = params.prepareMsg ∧
          timestamp received = timestamp params ∧ libraries.eth.hexBytes.ofText request.signature = .ok mySignature := by
  refine ⟨exists_form, ?_⟩
  intro form posted
  obtain ⟨request, taken, gate, parsed, signature⟩ : ∃ request, SignRequest.ofForm params.getPost form = some request ∧
      request.checkVersion = .ok () ∧ request.params libraries = .ok params ∧
      request.signature = libraries.eth.hexBytes.hex mySignature := by
    cases built with
    | price runner name made now exchangePrice vi => exact price_received (make_made made) rfl (roundTrip _ rfl) posted
    | legacyPrice runner name made now exchangePrice vi => exact price_received (make_made made) rfl (roundTrip _ rfl) posted
    | task runner name made tasksFlags vi => exact task_received (make_made made) posted
  exact ⟨request, params, taken, gate, parsed, rfl, rfl, signature ▸ hexRoundTrip mySignature⟩

/-- The conversions of one timestamp. -/
def timestampLibraries : Libraries where
  eth :=
    { hexBytes := plainHexBytes, signMessage := fun _ _ => .error .valueError, recoverMessage := fun _ _ => .error .valueError }
  float text := if text = "1700000000.0" then .ok (.finite 1700000000) else .error .valueError

def timestampText (tsUtc : PyFloat) : String := if tsUtc = .finite 1700000000 then "1700000000.0" else "nan"

def sender : BlockchainAccount := ⟨⟨"0x1CBd3b2770909D4e10f157cABC84C7264073C9Ec", by decide⟩, "sender key"⟩

def senderRunner : CoinPairRunner where
  conf :=
    { turn := ⟨1 / 20, 1, [2, 4], 30⟩, oraclePriceRejectDeltaPct := 50, priceSignatureExpirationSeconds := 300
      priceSignatureMinValiditySeconds := 30, priceSignatureMaxValiditySeconds := 600, taskMessageVersion := 3 }
  coinPair := ⟨"ETHUSD"⟩
  lastPrice _ _ := .ok none
  blockchainInfo := none
  oracleTurn := PriceOracleTurn.init ⟨"ETHUSD"⟩ .disabled

def senderView : OracleBlockchainInfo :=
  { coinPair := ⟨"ETHUSD"⟩, selectedOracles := [], blockchainPrice := 2000, blockNum := 130, lastPubBlock := 123
    lastPubBlockHash := [], validPricePeriodInBlocks := 300 }

def senderParams : PublishParams :=
  .price (senderRunner.preparePublishParams 1700000000 ⟨2010, .finite 1700000000⟩ senderView sender.addr.text)

theorem request_reconstructed_v4 :
    ((∀ number ∈ numbers senderParams, number.natAbs < 10 ^ Python.intMaxStrDigits) →
        ∃ form, senderParams.toPostData timestampLibraries.eth.hexBytes timestampText [1] = .ok form) ∧
      ∀ form, senderParams.toPostData timestampLibraries.eth.hexBytes timestampText [1] = .ok form →
        ∃ request received, SignRequest.ofForm senderParams.getPost form = some request ∧ request.checkVersion = .ok () ∧
          request.params timestampLibraries = .ok received ∧ received.prepareMsg = senderParams.prepareMsg ∧
          timestamp received = timestamp senderParams ∧ timestampLibraries.eth.hexBytes.ofText request.signature = .ok [1] :=
  request_reconstructed (.price senderRunner "ETHUSD" (by decide) 1700000000 ⟨2010, .finite 1700000000⟩ senderView) (by
    intro tsUtc present
    obtain rfl := Option.some.inj present
    decide) plainHexBytes_roundTrips

end OmocNode.Proofs.SignatureRequests
