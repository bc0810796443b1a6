import OmocNode.Proofs.Addresses
import OmocNode.Proofs.Arrivals
import OmocNode.Proofs.RequestChecks

/-! What a publisher gathers from its peers. A peer that lacks the new endpoint
and the old one leaves a marker among the signatures, which then cannot be
sorted, so the round is lost unless it has enough signatures before. -/

namespace OmocNode.Proofs.GatherSignatures
open CoinPairLoop Outcomes Arrivals RequestChecks Addresses

section Replies
variable {eth : EthAccount} {network : Network} {params : PublishParams} {message : String} {legacy : LegacyForm}
  {oracle : FullOracleRoundInfo}

def lacksEndpoint : Reply → Bool
  | .response status _ => status = 404 || status = 405
  | .invalidUrl | .connectionError | .timeout | .exception => false

/-- The signature in an answer, if it is the oracle's over the message. -/
def validSignature (eth : EthAccount) (oracle : FullOracleRoundInfo) (message : String) : Reply → Option Bytes
  | .response 200 (some (.object fields)) =>
    match Json.get fields "signature" with
    | .string value =>
      (eth.hexBytes.ofText value).toOption.filter fun signature => Crypto.recover eth message signature = .ok oracle.addr.text
    | _ => none
  | _ => none

/-- The peer signs the message, or lacks its endpoint and signs the old form. -/
def delivers (eth : EthAccount) (network : Network) (params : PublishParams) (message : String) (legacy : LegacyForm)
    (oracle : FullOracleRoundInfo) : Bool :=
  if lacksEndpoint (network oracle params.getPost) then
    (validSignature eth oracle legacy.message (network oracle legacy.params.getPost)).isSome
  else (validSignature eth oracle message (network oracle params.getPost)).isSome

def lacksBothEndpoints (network : Network) (params : PublishParams) (legacy : LegacyForm) (oracle : FullOracleRoundInfo) : Bool :=
  lacksEndpoint (network oracle params.getPost) && lacksEndpoint (network oracle legacy.params.getPost)

private theorem validSignature_of_status {status : Nat} (other : status ≠ 200) (body : Option Json) :
    validSignature eth oracle message (.response status body) = none := by
  unfold validSignature
  split
  next same => cases same; exact absurd rfl other
  next => rfl

theorem validSignature_of_lacksEndpoint {reply : Reply} (lacks : lacksEndpoint reply = true) :
    validSignature eth oracle message reply = none := by
  cases reply with
  | response status body =>
    apply validSignature_of_status
    intro answered
    subst answered
    cases lacks
  | invalidUrl | connectionError | timeout | exception => cases lacks

theorem recover_of_validSignature {reply : Reply} {signature : Bytes}
    (valid : validSignature eth oracle message reply = some signature) :
    Crypto.recover eth message signature = .ok oracle.addr.text := by
  unfold validSignature at valid
  split at valid
  next =>
    split at valid
    next => exact of_decide_eq_true (Option.filter_eq_some_iff.mp valid).2
    next => cases valid
  next => cases valid

theorem getSignatureOnce_eq (eth : EthAccount) (oracle : FullOracleRoundInfo) (message : String) (reply : Reply) :
    getSignatureOnce eth oracle message reply =
      if lacksEndpoint reply then some .unsupportedEndpoint
      else (validSignature eth oracle message reply).map fun signature => .signature ⟨oracle.addr.text, signature⟩ := by
  cases reply with
  | response status body =>
    by_cases missing : status = 404 ∨ status = 405
    · simp [getSignatureOnce, lacksEndpoint, missing]
    by_cases answered : status = 200
    · subst answered
      rcases body with _ | (_ | _ | _ | _ | _ | fields) <;> try rfl
      cases value : Json.get fields "signature" with
      | string text =>
        cases decoded : eth.hexBytes.ofText text with
        | error err => simp [getSignatureOnce, lacksEndpoint, validSignature, value, decoded, Except.toOption]
        | ok signature =>
          have signs := @verifySignature_eq_true_iff eth oracle.addr.text message signature
          rcases verified : Crypto.verifySignature eth oracle.addr.text message signature with err | _ | _ <;>
            simp [getSignatureOnce, lacksEndpoint, validSignature, value, decoded, Except.toOption, verified, ← signs]
      | null | bool _ | number _ | array _ | object _ =>
        simp [getSignatureOnce, lacksEndpoint, validSignature, value]
    · rw [validSignature_of_status answered]
      simp [getSignatureOnce, lacksEndpoint, missing, answered]
  | invalidUrl | connectionError | timeout | exception => rfl

private theorem lacksEndpoint_of_getSignatureOnce {reply : Reply}
    (answered : getSignatureOnce eth oracle message reply = some .unsupportedEndpoint) : lacksEndpoint reply = true := by
  rw [getSignatureOnce_eq] at answered
  split at answered
  next lacks => exact lacks
  next =>
    obtain ⟨signature, _, same⟩ := Option.map_eq_some_iff.mp answered
    cases same

private theorem valid_of_getSignatureOnce {reply : Reply} {signed : OracleSignature}
    (answered : getSignatureOnce eth oracle message reply = some (.signature signed)) :
    signed.addr = oracle.addr.text ∧ Crypto.recover eth message signed.signature = .ok signed.addr := by
  rw [getSignatureOnce_eq] at answered
  split at answered
  · cases answered
  · obtain ⟨signature, valid, same⟩ := Option.map_eq_some_iff.mp answered
    obtain rfl := PeerResult.signature.inj same
    exact ⟨rfl, recover_of_validSignature valid⟩

theorem getSignature_eq_unsupported_iff :
    getSignature eth network params message (some legacy) oracle = some .unsupportedEndpoint ↔
      lacksBothEndpoints network params legacy oracle = true := by
  by_cases first : lacksEndpoint (network oracle params.getPost) = true
  · by_cases second : lacksEndpoint (network oracle legacy.params.getPost) = true
    · simp [getSignature, getSignatureOnce_eq, lacksBothEndpoints, first, second]
    · simp [getSignature, getSignatureOnce_eq, lacksBothEndpoints, first, second]
  · cases valid : validSignature eth oracle message (network oracle params.getPost) <;>
      simp [getSignature, getSignatureOnce_eq, lacksBothEndpoints, first, valid]

theorem exists_getSignature_eq_iff :
    (∃ signed, getSignature eth network params message (some legacy) oracle = some (.signature signed)) ↔
      delivers eth network params message legacy oracle = true := by
  by_cases first : lacksEndpoint (network oracle params.getPost) = true
  · by_cases second : lacksEndpoint (network oracle legacy.params.getPost) = true
    · simp [getSignature, getSignatureOnce_eq, delivers, first, second, validSignature_of_lacksEndpoint second]
    · simp [getSignature, getSignatureOnce_eq, delivers, first, second, Option.isSome_iff_exists]
  · cases valid : validSignature eth oracle message (network oracle params.getPost) <;>
      simp [getSignature, getSignatureOnce_eq, delivers, first, valid]

/-- A peer's signature carries its address and is valid over one of the forms,
over the old one only if the endpoint of the new one is missing. -/
theorem valid_of_getSignature {legacy : Option LegacyForm} {signed : OracleSignature}
    (answered : getSignature eth network params message legacy oracle = some (.signature signed)) :
    signed.addr = oracle.addr.text ∧ (Crypto.recover eth message signed.signature = .ok signed.addr ∨
      lacksEndpoint (network oracle params.getPost) = true ∧
        ∃ form ∈ legacy, Crypto.recover eth form.message signed.signature = .ok signed.addr) := by
  unfold getSignature at answered
  split at answered
  next first =>
    cases legacy with
    | none => cases answered
    | some form =>
      obtain ⟨own, valid⟩ := valid_of_getSignatureOnce answered
      exact ⟨own, .inr ⟨lacksEndpoint_of_getSignatureOnce first, form, rfl, valid⟩⟩
  next =>
    obtain ⟨own, valid⟩ := valid_of_getSignatureOnce answered
    exact ⟨own, .inl valid⟩

end Replies

section Sorting

/-- The signer's address as a number. -/
def signerNumber (signed : OracleSignature) : Int := (Python.int 16 signed.addr).getD 0

private theorem sortKey_ok {result : PeerResult} {key : Int × OracleSignature} (ok : sortKey result = .ok key) :
    result = .signature key.2 ∧ key.1 = signerNumber key.2 := by
  cases result with
  | unsupportedEndpoint => cases ok
  | signature signed =>
    obtain ⟨number, parsed, rfl⟩ := map_eq_ok_iff.mp ok
    unfold Python.parseInt at parsed
    split at parsed
    next value here =>
      cases parsed
      exact ⟨rfl, by rw [signerNumber, here, Option.getD_some]⟩
    next => cases parsed

/-- What is sorted are signatures only, and they come out in the order of their signers. -/
theorem sortedSignatures_ok {sigs : List PeerResult} {sorted : List OracleSignature} (ok : sortedSignatures sigs = .ok sorted) :
    (sorted.map PeerResult.signature).Perm sigs ∧ sorted.Pairwise fun first second => signerNumber first ≤ signerNumber second := by
  obtain ⟨keyed, computed, rfl⟩ := map_eq_ok_iff.mp ok
  have each := mapM_eq_ok_iff.mp computed
  have matched : keyed.map (fun key => PeerResult.signature key.2) = sigs ∧ ∀ key ∈ keyed, key.1 = signerNumber key.2 := by
    clear ok computed
    induction each with
    | nil => simp
    | cons here _ ih => exact ⟨by rw [List.map_cons, ih.1, (sortKey_ok here).1], List.forall_mem_cons.mpr ⟨(sortKey_ok here).2, ih.2⟩⟩
  obtain ⟨same, numbers⟩ := matched
  constructor
  · rw [List.map_map, ← same]
    exact (List.perm_insertionSort _ keyed).map _
  · rw [List.pairwise_map]
    apply (List.pairwise_insertionSort _ keyed).imp_of_mem
    intro first second inFirst inSecond le
    rw [← numbers first ((List.mem_insertionSort _).mp inFirst), ← numbers second ((List.mem_insertionSort _).mp inSecond)]
    exact le

theorem sortedSignatures_total {sigs : List PeerResult}
    (signed : ∀ sig ∈ sigs, ∃ s : OracleSignature, ∃ address : Address, sig = .signature s ∧ s.addr = address.text) :
    ∃ sorted, sortedSignatures sigs = .ok sorted := by
  have keys : ∀ sig ∈ sigs, ∃ key, sortKey sig = .ok key := by
    intro sig member
    obtain ⟨s, address, rfl, own⟩ := signed sig member
    exact ⟨_, by rw [sortKey, own, parseInt_address]; rfl⟩
  obtain ⟨keyed, computed⟩ := exists_mapM_eq_ok keys
  exact ⟨_, map_eq_ok_iff.mpr ⟨keyed, computed, rfl⟩⟩

end Sorting

section Gathering
variable {eth : EthAccount} {network : Network} {completed oracles : List FullOracleRoundInfo} {params : PublishParams}
  {message : String} {mySignature : Bytes}

theorem gatherSigned_ok_iff {legacy : Option LegacyForm} {signers : List OracleSignature} :
    gatherSigned eth network completed oracles params message mySignature legacy = .ok signers ↔
      ∃ taken, collect (oracles.length / 2) ((peers oracles params.oracleAddr).length - completed.length)
          (completed.map (getSignature eth network params message legacy)) [] = .ok taken ∧
        sortedSignatures (taken ++ [.signature ⟨params.oracleAddr, mySignature⟩]) = .ok signers := by
  rw [gatherSigned, bind_eq_ok_iff]

/-- The peers' signatures are results of those that arrived first, up to a majority. -/
theorem gatherSigned_ok {legacy : Option LegacyForm} {signers : List OracleSignature}
    (ok : gatherSigned eth network completed oracles params message mySignature legacy = .ok signers) :
    ∃ seen rest, completed = seen ++ rest ∧
      (signers.map PeerResult.signature).Perm
        (seen.filterMap (getSignature eth network params message legacy) ++ [.signature ⟨params.oracleAddr, mySignature⟩]) ∧
      signers.Pairwise (fun first second => signerNumber first ≤ signerNumber second) ∧
      (oracles.length / 2 + 1 ≤ signers.length ∨ rest = []) := by
  obtain ⟨taken, collected, sorted⟩ := gatherSigned_ok_iff.mp ok
  obtain ⟨same, ordered⟩ := sortedSignatures_ok sorted
  obtain ⟨before, after, split, rfl, stopped⟩ := collect_cases collected
  obtain ⟨seen, rest, rfl, rfl, rfl⟩ := List.map_eq_append_iff.mp split
  rw [List.nil_append, reduceOption_map_eq] at same stopped
  refine ⟨seen, rest, rfl, same, ordered, ?_⟩
  have length := same.length_eq
  rw [List.length_map, List.length_append, List.length_singleton] at length
  exact stopped.imp (by omega) List.map_eq_nil_iff.mp

end Gathering
/-! The same request on the side of the oracle that asks. -/

def exchangeParams : PublishPriceParams :=
  { version := 4, coinPair := ⟨"BTCUSD"⟩, price := 1000000000000000000, priceTsUtc := .finite 1700000000
    oracleAddr := requesterAddr.text, lastPubBlock := 123, expiration := some 1700000300 }

def exchangeOracle (addr : Address) (internetName : String) : FullOracleRoundInfo :=
  { addr, internetName, stake := 1000, owner := addr, points := 0, selectedInCurrentRound := true, selectedInRound := 1 }

def publishingOracle : FullOracleRoundInfo := exchangeOracle requesterAddr "http://requester:5556"
def signingOracle : FullOracleRoundInfo := exchangeOracle signerAddr "http://signer:5556"

def exchangeLegacy : LegacyForm :=
  { params := exchangeParams.asLegacy, message := legacyMessage, signature := requesterLegacySignature }

end OmocNode.Proofs.GatherSignatures
