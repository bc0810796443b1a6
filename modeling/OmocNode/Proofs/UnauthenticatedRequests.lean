import OmocNode.Proofs.FixedWidth
import OmocNode.Proofs.RequestChecks
import OmocNode.Proofs.TurnWindows

/-! What a price request leaves behind when its signature is not that of the
oracle it names. The turn is checked, and a change recorded, before the signature. -/

namespace OmocNode.Proofs.UnauthenticatedRequests
open OracleTurn PriceOracleTurn SelectNext TurnWindows StateFrame RequestChecks Outcomes

variable {conf : OracleTurnConfiguration} {vi : OracleBlockchainInfo} {price : PriceWithTimestamp} {turn : PriceOracleTurn}
  {oracleAddr first : String} {addresses fallbacks : List String} {onlyChosen : Bool}

def latch (turn : PriceOracleTurn) : Int × Int := (turn.priceChangeBlock, turn.priceChangePubBlock)

/-- The prices differ by the threshold, and no change of this publication is recorded yet. -/
structure NewChange (conf : OracleTurnConfiguration) (vi : OracleBlockchainInfo) (price : PriceWithTimestamp)
    (turn : PriceOracleTurn) : Prop where
  publication : 0 ≤ vi.lastPubBlock
  block : 0 ≤ vi.blockNum
  unrecorded : turn.priceChangePubBlock = vi.lastPubBlock → turn.priceChangeBlock < 0
  large : ∃ delta, Helpers.priceDelta vi.blockchainPrice price.price = .ok delta ∧
    delta.lt (.finite (deltaInForce conf.priceDeltaPct turn.signal)) = false

theorem latch_unchanged_iff :
    latch (finalState (priceChangedBlocks conf vi price) turn) = latch turn ↔ ¬NewChange conf vi price turn := by
  by_cases invalid : vi.lastPubBlock < 0 ∨ vi.blockNum < 0
  · have raised : finalState (priceChangedBlocks conf vi price) turn = turn := by
      simp only [finalState, priceChangedBlocks, run_bind, run_get, invalid, if_true, run_throw]
    simp only [raised, true_iff]
    exact fun new => by have := new.publication; have := new.block; omega
  obtain ⟨publication, block⟩ : 0 ≤ vi.lastPubBlock ∧ 0 ≤ vi.blockNum := by omega
  by_cases latched : turn.priceChangePubBlock = vi.lastPubBlock ∧ 0 ≤ turn.priceChangeBlock
  · rw [finalState, priceChangedBlocks_latched conf price publication block latched.1 latched.2]
    simp only [true_iff]
    exact fun new => absurd (new.unrecorded latched.1) (not_lt.mpr latched.2)
  cases priced : Helpers.priceDelta vi.blockchainPrice price.price with
  | error failure =>
    simp only [finalState, priceChangedBlocks_raises conf publication block latched priced, true_iff]
    intro new
    obtain ⟨delta, same, _⟩ := new.large
    rw [priced] at same
    cases same
  | ok delta =>
    rw [finalState, priceChangedBlocks_eq conf publication block priced]
    simp only [observed, ge_iff_le, if_neg latched]
    split
    next small =>
      simp only [latch, settledTurn, true_iff]
      intro new
      obtain ⟨other, same, large⟩ := new.large
      obtain rfl := Except.ok.inj (priced.symm.trans same)
      exact Bool.noConfusion (small.symm.trans large)
    next large =>
      -- The recorded block is not negative, so one of the two numbers is new.
      have new : NewChange conf vi price turn :=
        ⟨publication, block, fun same => by omega, delta, priced, Bool.eq_false_iff.mpr large⟩
      simp only [latch, Prod.mk.injEq, new, not_true_eq_false, iff_false]
      intro unchanged
      obtain ⟨sameBlock, samePublication⟩ := unchanged
      omega

/-- Of a turn check, only the price check records anything. -/
theorem latch_isOracleTurnWithMsg (nonempty : addresses ≠ [])
    (listed : isOracleSelectedInRound vi.selectedOracles oracleAddr = true)
    (enough : conf.triggerValidPublicationBlocks ≤ vi.validPricePeriodInBlocks) :
    latch (finalState (isOracleTurnWithMsg conf vi oracleAddr addresses (some price) onlyChosen) turn) =
      latch (finalState (priceChangedBlocks conf vi price) turn) := by
  cases checked : priceChangedBlocks conf vi price turn with
  | ok blocks middle =>
    simp only [finalState, isOracleTurnWithMsg_eq nonempty listed enough checked, checked]
    rfl
  | error failure middle => simp only [finalState, isOracleTurnWithMsg_raises listed enough checked, checked]

/-- The turn check of a request gets as far as a new change of the price. -/
structure ReachesNewChange (conf : OracleTurnConfiguration) (vi : OracleBlockchainInfo) (oracleAddr : String)
    (exchangePrice : Option PriceWithTimestamp) (turn : PriceOracleTurn) : Prop where
  order : ∃ first fallbacks, selectNextAddresses vi.lastPubBlockHash vi.selectedOracles = .ok (first :: fallbacks) ∧
    first ≠ oracleAddr
  listed : isOracleSelectedInRound vi.selectedOracles oracleAddr = true
  enough : conf.triggerValidPublicationBlocks ≤ vi.validPricePeriodInBlocks
  new : ∃ price, exchangePrice = some price ∧ NewChange conf vi price turn

theorem latch_fallback_unchanged_iff {exchangePrice : Option PriceWithTimestamp} (nonempty : addresses ≠ []) :
    latch (finalState (isOracleTurnWithMsg conf vi oracleAddr addresses exchangePrice onlyChosen) turn) = latch turn ↔
      ¬(isOracleSelectedInRound vi.selectedOracles oracleAddr = true ∧
        conf.triggerValidPublicationBlocks ≤ vi.validPricePeriodInBlocks ∧
        ∃ price, exchangePrice = some price ∧ NewChange conf vi price turn) := by
  cases exchangePrice with
  | none => simp [finalState, isOracleTurnWithMsg]
  | some price =>
    by_cases listed : isOracleSelectedInRound vi.selectedOracles oracleAddr = true
    swap
    · simp [finalState, isOracleTurnWithMsg, listed]
    by_cases enough : vi.validPricePeriodInBlocks < conf.triggerValidPublicationBlocks
    · simp [finalState, isOracleTurnWithMsg, listed, enough, not_le.mpr enough]
    rw [latch_isOracleTurnWithMsg nonempty listed (not_lt.mp enough), latch_unchanged_iff]
    simp [listed, not_lt.mp enough]

theorem not_reaches_of_order {exchangePrice : Option PriceWithTimestamp} {order : Except PyError (List String)}
    (selected : selectNextAddresses vi.lastPubBlockHash vi.selectedOracles = order)
    (stops : ∀ first fallbacks, order = .ok (first :: fallbacks) → first = oracleAddr) :
    ¬ReachesNewChange conf vi oracleAddr exchangePrice turn := by
  intro reaches
  obtain ⟨first, fallbacks, same, other⟩ := reaches.order
  exact other (stops first fallbacks (selected.symm.trans same))

theorem latch_validateTurn_unchanged_iff {exchangePrice : Option PriceWithTimestamp} :
    latch (finalState (PriceOracleTurn.validateTurn conf vi oracleAddr exchangePrice) turn) = latch turn ↔
      ¬ReachesNewChange conf vi oracleAddr exchangePrice turn := by
  cases order : selectNextAddresses vi.lastPubBlockHash vi.selectedOracles with
  | error failure =>
    simp only [finalState, PriceOracleTurn.validateTurn, run_bind, order, run_lift_error, true_iff]
    exact not_reaches_of_order order fun _ _ same => by cases same
  | ok addresses =>
    cases addresses with
    | nil =>
      simp only [finalState, PriceOracleTurn.validateTurn, run_bind, order, run_lift_ok, isSelectedOracle, run_lift_error,
        true_iff]
      exact not_reaches_of_order order fun _ _ same => by cases same
    | cons first fallbacks =>
      by_cases chosen : first = oracleAddr
      · simp only [finalState, validateTurn_eq order, chosen, beq_self_eq_true, if_true, true_iff]
        exact not_reaches_of_order order fun _ _ same => by cases same; exact chosen
      · have asked : finalState (PriceOracleTurn.validateTurn conf vi oracleAddr exchangePrice) turn =
            finalState (isOracleTurnWithMsg conf vi oracleAddr (first :: fallbacks) exchangePrice false) turn := by
          simp only [finalState, validateTurn_eq order, beq_iff_eq, if_neg chosen]
        rw [asked, latch_fallback_unchanged_iff (List.cons_ne_nil _ _), not_iff_not]
        constructor
        · intro reaches
          obtain ⟨listed, enough, new⟩ := reaches
          exact ⟨⟨first, fallbacks, order, chosen⟩, listed, enough, new⟩
        · intro reaches
          obtain ⟨_, listed, enough, new⟩ := reaches
          exact ⟨listed, enough, new⟩

section Request
variable (v : PriceRequestValidation) (eth : EthAccount) (account : BlockchainAccount) (now : Int) (signature : String)

/-- The signature is that of the named oracle, over the message the request stands for. -/
def Authentic : Prop := ∃ message, v.params.prepareMsg = .ok message ∧ SignedBy eth v.params.oracleAddr message signature

/-- The request passes the checks of its parameters, names an oracle of the
round other than the first, and comes when the price has newly changed. -/
def RecordsChange (turn : PriceOracleTurn) : Prop :=
  v.validateParams now = .ok () ∧ ∃ vi, v.blockchainInfo = some vi ∧
    ReachesNewChange v.turnConfiguration vi v.params.oracleAddr v.exchangePrice turn

private theorem refused_of_unauthentic (unauthentic : ¬Authentic v eth signature) (turn : PriceOracleTurn) :
    ∃ err, (v.validateAndSign eth account now signature turn).1 = .error err := by
  cases answer : (v.validateAndSign eth account now signature turn).1 with
  | error err => exact ⟨err, rfl⟩
  | ok signed =>
    obtain ⟨_, _, _, _, _, _, _, _, _, prepared, signedBy⟩ := validateAndSign_ok answer
    exact absurd ⟨signed.1, prepared, signedBy⟩ unauthentic

theorem latch_validateAndSign_unchanged_iff (turn : PriceOracleTurn) :
    latch (v.validateAndSign eth account now signature turn).2 = latch turn ↔ ¬RecordsChange v now turn := by
  unfold PriceRequestValidation.validateAndSign RecordsChange
  cases accepted : v.validateParams now with
  | error err => simp only [reduceCtorEq, false_and, not_false_eq_true]
  | ok done =>
    have final : ∀ vi, v.blockchainInfo = some vi → (v.validateTurn turn).2 =
        finalState (PriceOracleTurn.validateTurn v.turnConfiguration vi v.params.oracleAddr v.exchangePrice) turn := by
      intro vi present
      simp only [PriceRequestValidation.validateTurn, present, finalState]
      cases PriceOracleTurn.validateTurn v.turnConfiguration vi v.params.oracleAddr v.exchangePrice turn <;> rfl
    cases present : v.blockchainInfo with
    | none => simp [PriceRequestValidation.validateTurn, present]
    | some vi =>
      change latch (v.validateTurn turn).2 = latch turn ↔ _
      rw [final vi present, latch_validateTurn_unchanged_iff]
      simp

/-- A request that is not authentic changes nothing, unless it records a price change. -/
theorem unauthenticated_changes_nothing_iff (turn : PriceOracleTurn) :
    (¬Authentic v eth signature →
      (∃ err, (v.validateAndSign eth account now signature turn).1 = .error err) ∧
      (v.validateAndSign eth account now signature turn).2.priceChangeBlock = turn.priceChangeBlock ∧
      (v.validateAndSign eth account now signature turn).2.priceChangePubBlock = turn.priceChangePubBlock) ↔
    (Authentic v eth signature ∨ ¬RecordsChange v now turn) := by
  rw [← latch_validateAndSign_unchanged_iff v eth account now signature turn, latch, latch, Prod.mk.injEq, or_iff_not_imp_left]
  constructor
  · exact fun changes unauthentic => (changes unauthentic).2
  · exact fun kept unauthentic => ⟨refused_of_unauthentic v eth account now signature unauthentic turn, kept unauthentic⟩

end Request

def chosenAddress : Address := ⟨"0x00000000000000000000000000000000000000c1", by decide⟩

def fallbackAddress : Address := ⟨"0x00000000000000000000000000000000000000c2", by decide⟩

def twoOracles : OracleBlockchainInfo :=
  ⟨⟨"BTCUSD"⟩, [⟨chosenAddress, "http://first:5556", 10, chosenAddress, 0, true, 1⟩,
    ⟨fallbackAddress, "http://second:5556", 10, fallbackAddress, 0, true, 1⟩], 100, 95, 90, List.replicate 32 1, 1000⟩

/-- A request in the name of the fallback, which the exchanges' price bears out. -/
def forgedRequest : PriceRequestValidation :=
  { oraclePriceRejectDeltaPct := 50
    params := .make 3 ⟨"BTCUSD"⟩ ⟨110, .finite 1⟩ fallbackAddress.text 90 none
    turnConfiguration := ⟨5, 1, [2, 4, 6, 8, 10], 30⟩
    exchangePrice := some ⟨110, .finite 1⟩
    blockchainInfo := some twoOracles
    minExpirationValidity := 0
    maxExpirationValidity := none }

/-- No text recovers to an address here. -/
def noEth : EthAccount := ⟨FixedWidth.plainHexBytes, fun _ _ => .error .valueError, fun _ _ => .error .valueError⟩

/-- The forged request is refused, and leaves its block as that of the price change. -/
theorem forged_request_records_change :
    ¬Authentic forgedRequest noEth "0x" ∧
      (forgedRequest.validateAndSign noEth ⟨chosenAddress, "key"⟩ 0 "0x" (.init ⟨"BTCUSD"⟩ .disabled)).1 =
        .error (.validation (.invalidTurn fallbackAddress.text (.waiting 1 0))) ∧
      ¬((∃ err, (forgedRequest.validateAndSign noEth ⟨chosenAddress, "key"⟩ 0 "0x" (.init ⟨"BTCUSD"⟩ .disabled)).1 = .error err) ∧
        (forgedRequest.validateAndSign noEth ⟨chosenAddress, "key"⟩ 0 "0x" (.init ⟨"BTCUSD"⟩ .disabled)).2.priceChangeBlock = -1 ∧
        (forgedRequest.validateAndSign noEth ⟨chosenAddress, "key"⟩ 0 "0x" (.init ⟨"BTCUSD"⟩ .disabled)).2.priceChangePubBlock
          = -1) := by
  refine ⟨?_, by decide +kernel, ?_⟩
  · intro authentic
    obtain ⟨message, _, bytes, _, recovered⟩ := authentic
    simp only [Crypto.recover, noEth] at recovered
    split at recovered
    · cases recovered
    · split at recovered <;> cases recovered
  · intro kept
    obtain ⟨_, block, _⟩ := kept
    exact absurd block (by decide +kernel)

end OmocNode.Proofs.UnauthenticatedRequests
