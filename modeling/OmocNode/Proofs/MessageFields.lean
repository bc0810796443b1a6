import OmocNode.Proofs.SignedMessages

/-! Two messages with one text are over the same fields, also where only one of
them is known to be in range. The text of a number is never shorter than its
width, so none of the other fields can be out of range either. -/

namespace OmocNode.Proofs.MessageFields
open Outcomes FixedWidth SignedMessages
open Sha256 (bigEndian)

section Texts

private theorem le_length_hexPadded (width : Nat) (value : Int) : width ≤ (Python.hexPadded width value).length := by
  have some := Nat.length_toDigits_pos (b := 16) (n := value.natAbs)
  unfold Python.hexPadded
  split
  · simp only [List.length_cons, List.length_append, List.length_replicate]
    omega
  · simp only [List.length_append, List.length_replicate]
    omega

private theorem head_toDigits {value : Nat} (pos : 0 < value) : (Nat.toDigits 16 value).head? ≠ some '0' := by
  induction value using Nat.strongRecOn with
  | ind value ih =>
    by_cases one : value < 16
    · have digits : ∀ number : Fin 16, 0 < number.val → Nat.digitChar number ≠ '0' := by decide
      rw [Nat.toDigits_of_lt_base one, List.head?_cons]
      exact fun same => digits ⟨value, one⟩ pos (Option.some.inj same)
    · rw [Nat.toDigits_of_base_le (by decide) (by omega), List.head?_append_of_ne_nil]
      · exact ih (value / 16) (by omega) (by omega)
      · exact List.ne_nil_of_length_pos Nat.length_toDigits_pos

/-- A number that a text with a zero at its start starts with is padded. -/
theorem length_hexPadded_of_zero {width : Nat} {value : Int} {text rest : List Char} (wide : 1 ≤ width)
    (zero : text.head? = some '0') (written : Python.hexPadded width value ++ rest = text) :
    (Python.hexPadded width value).length = width := by
  rw [← written] at zero
  unfold Python.hexPadded at zero ⊢
  split at zero
  · cases zero
  next nonneg =>
    simp only [nonneg, if_false, List.length_append, List.length_replicate] at zero ⊢
    by_contra longer
    have long : width - (Nat.toDigits 16 value.natAbs).length = 0 := by omega
    rw [long, List.replicate_zero, List.nil_append, List.head?_append_of_ne_nil] at zero
    · apply head_toDigits _ zero
      by_contra none
      rw [Nat.eq_zero_of_not_pos none] at longer
      simp at longer
      omega
    · exact List.ne_nil_of_length_pos Nat.length_toDigits_pos

private theorem hex_inj {first second : Bytes} (same : Python.hex first = Python.hex second) : first = second := by
  have read := hexPairs_hex first
  rw [same, hexPairs_hex] at read
  exact (Option.some.inj read).symm

/-- Only one number is written as the bytes of a number in range are. -/
theorem number_of_text (size : Nat) {value number : Int} (fits : 0 ≤ number ∧ number < 256 ^ (size + 1))
    (written : Python.hexPadded (2 * (size + 1)) value = Python.hex (bigEndian (size + 1) number.toNat)) : value = number := by
  obtain ⟨nonneg, small⟩ := fits_of_hexPadded (length_bigEndian (size + 1) _) written
  have smallNat : value.toNat < 256 ^ (size + 1) := by
    rw [← Int.toNat_of_nonneg nonneg] at small
    exact_mod_cast small
  have numberNat : number.toNat < 256 ^ (size + 1) := by
    have bound := fits.2
    rw [← Int.toNat_of_nonneg fits.1] at bound
    exact_mod_cast bound
  rw [← Int.toNat_of_nonneg nonneg, hexPadded_eq_hex smallNat] at written
  have same := congrArg fromBytesBig (hex_inj written)
  rw [fromBytesBig_bigEndian smallNat, fromBytesBig_bigEndian numberNat] at same
  omega

end Texts

section Fields
variable {fields : SignedFields}

private theorem word_of_text {value number : Int} (fits : FitsWord number)
    (written : Helpers.encUint256 value = Python.hex (bigEndian 32 number.toNat)) : value = number := by
  have same : (256 : Int) ^ (31 + 1) = 2 ^ 256 := by norm_num
  exact number_of_text 31 ⟨fits.1, same ▸ fits.2⟩ written

/-- What follows the version and the coin pair. -/
theorem drop_messageBytes (inRange : InRange fields) : (messageBytes fields).drop 64 =
    bigEndian 32 fields.value.toNat ++ (bigEndian 20 fields.oracle.toNat ++ (bigEndian 32 fields.lastPubBlock.toNat ++
      (fields.expiration.map fun expiration => bigEndian 32 expiration.toNat).getD [])) := by
  rw [messageBytes, afterVersion, ← List.append_assoc]
  exact List.drop_left' (by rw [List.length_append, length_bigEndian, length_pairBytes inRange.coinPair])

/-- The first two fields of a message, where its version is small enough for a zero to come first. -/
theorem start_of_text (inRange : InRange fields) (zero : (Python.hex (messageBytes fields)).head? = some '0') {version : Int}
    {pair : CoinPair} (fits : PairFits pair) {rest : List Char}
    (written : Helpers.encUint256 version ++ (Python.hex (Python.ljust 32 (pairBytes pair)) ++ rest) =
      Python.hex (messageBytes fields)) :
    version = fields.version ∧ pair = fields.coinPair ∧ rest = Python.hex ((messageBytes fields).drop 64) := by
  have padded : (Helpers.encUint256 version).length = 64 := length_hexPadded_of_zero (by decide) zero written
  have parts := length_pairBytes inRange.coinPair
  rw [messageBytes, afterVersion, hex_append, hex_append] at written
  obtain ⟨first, later⟩ := List.append_inj written (by rw [padded, length_hex, length_bigEndian])
  obtain ⟨name, others⟩ := List.append_inj later (by rw [length_hex, length_hex, parts, length_pairBytes fits])
  have read := congrArg readPair (hex_inj name)
  rw [readPair_ljust fits, readPair_ljust inRange.coinPair] at read
  exact ⟨word_of_text inRange.version first, read, others.trans (congrArg Python.hex (drop_messageBytes inRange).symm)⟩

/-- The other numbers of a message: as its length leaves no room for longer ones, each has its width. -/
theorem numbers_of_text (inRange : InRange fields) {value oracle lastPubBlock : Int} {expiration : Option Int}
    (sameKind : expiration.isSome = fields.expiration.isSome)
    (written : Helpers.encUint256 value ++ (Helpers.encPackedAddress oracle ++ (Helpers.encUint256 lastPubBlock ++
      (expiration.map Helpers.encUint256).getD [])) = Python.hex ((messageBytes fields).drop 64)) :
    value = fields.value ∧ oracle = fields.oracle ∧ lastPubBlock = fields.lastPubBlock ∧ expiration = fields.expiration := by
  have atLeast := le_length_hexPadded 64 value
  have atLeastOracle := le_length_hexPadded 40 oracle
  have atLeastBlock := le_length_hexPadded 64 lastPubBlock
  have address : 0 ≤ fields.oracle ∧ fields.oracle < 256 ^ (19 + 1) := by
    have same : (256 : Int) ^ (19 + 1) = 2 ^ 160 := by norm_num
    exact ⟨inRange.oracle.1, same ▸ inRange.oracle.2⟩
  rw [drop_messageBytes inRange] at written
  have total := congrArg List.length written
  unfold Helpers.encUint256 Helpers.encPackedAddress at total written
  cases here : fields.expiration with
  | none =>
    rw [here] at sameKind written total
    obtain rfl : expiration = none := by simpa using sameKind
    simp only [Option.map_none, Option.getD_none, List.append_nil, hex_append, List.length_append, length_hex,
      length_bigEndian] at total written
    obtain ⟨first, written⟩ := List.append_inj written (by rw [length_hex, length_bigEndian]; omega)
    obtain ⟨second, third⟩ := List.append_inj written (by rw [length_hex, length_bigEndian]; omega)
    exact ⟨word_of_text inRange.value first, number_of_text 19 address second, word_of_text inRange.lastPubBlock third, rfl⟩
  | some word =>
    rw [here] at sameKind written total
    obtain ⟨own, rfl⟩ := Option.isSome_iff_exists.mp sameKind
    have atLeastOwn := le_length_hexPadded 64 own
    simp only [Option.map_some, Option.getD_some, hex_append, List.length_append, length_hex, length_bigEndian] at total written
    obtain ⟨first, written⟩ := List.append_inj written (by rw [length_hex, length_bigEndian]; omega)
    obtain ⟨second, written⟩ := List.append_inj written (by rw [length_hex, length_bigEndian]; omega)
    obtain ⟨third, fourth⟩ := List.append_inj written (by rw [length_hex, length_bigEndian]; omega)
    refine ⟨word_of_text inRange.value first, number_of_text 19 address second, word_of_text inRange.lastPubBlock third, ?_⟩
    rw [word_of_text (inRange.expiration word here) fourth]

/-- The two versions of a price message, the newer one with an expiration. -/
def Versioned (version : Int) (expiration : Option Int) : Prop :=
  version = if expiration.isSome then expiringPriceMessageVersion else legacyPriceMessageVersion

private theorem head_of_versioned (versioned : Versioned fields.version fields.expiration) :
    (Python.hex (messageBytes fields)).head? = some '0' := by
  unfold Versioned at versioned
  split at versioned <;> rw [messageBytes, versioned] <;> rfl

private theorem encodeParameters_ok {version value lastPubBlock : Int} {pair : CoinPair} {oracleAddr : String} {text : List Char}
    (fits : PairFits pair) (encoded : encodeParameters version pair value oracleAddr lastPubBlock = .ok text) :
    ∃ oracle, Helpers.addrToNumber oracleAddr = .ok oracle ∧ text = Helpers.encUint256 version ++
      (Python.hex (Python.ljust 32 (pairBytes pair)) ++ (Helpers.encUint256 value ++ (Helpers.encPackedAddress oracle ++
        Helpers.encUint256 lastPubBlock))) := by
  have padded : Helpers.encByte32 (Python.ljust 32 (pairBytes pair)) = Python.hex (Python.ljust 32 (pairBytes pair)) := by
    rw [Helpers.encByte32, ljust_of_length (length_pairBytes fits)]
  obtain ⟨bytes, named, rest⟩ := bind_eq_ok_iff.mp encoded
  obtain ⟨oracle, parsed, same⟩ := bind_eq_ok_iff.mp rest
  rw [longer_eq fits] at named
  obtain rfl := Except.ok.inj named
  refine ⟨oracle, parsed, ?_⟩
  rw [← pure_eq_ok_iff.mp same, padded, List.append_assoc, List.append_assoc, List.append_assoc]

/-- A price message with the text of one in range is over the fields of that one. -/
theorem priceFields_of_message {params : PublishPriceParams} (inRange : InRange fields)
    (versioned : Versioned fields.version fields.expiration) (gate : Versioned params.version params.expiration)
    (fits : PairFits params.coinPair) (prepared : params.prepareMsg = .ok (String.ofList (Python.hex (messageBytes fields)))) :
    priceFields params = .ok fields := by
  obtain ⟨start, encoded, rest⟩ := bind_eq_ok_iff.mp prepared
  obtain ⟨oracle, parsed, rfl⟩ := encodeParameters_ok fits encoded
  have written : Helpers.encUint256 params.version ++ (Python.hex (Python.ljust 32 (pairBytes params.coinPair)) ++
      (Helpers.encUint256 params.price ++ (Helpers.encPackedAddress oracle ++ (Helpers.encUint256 params.lastPubBlock ++
        (params.expiration.map Helpers.encUint256).getD [])))) = Python.hex (messageBytes fields) := by
    split at rest
    next expiration present =>
      rw [← String.ofList_injective (Except.ok.inj rest), present]
      simp only [Option.map_some, Option.getD_some, List.append_assoc]
    next absent =>
      rw [← String.ofList_injective (Except.ok.inj rest), absent]
      simp only [Option.map_none, Option.getD_none, List.append_nil]
  obtain ⟨version, pair, others⟩ := start_of_text inRange (head_of_versioned versioned) fits written
  have sameKind : params.expiration.isSome = fields.expiration.isSome := by
    rw [Versioned, version, versioned] at gate
    cases here : fields.expiration.isSome <;> cases own : params.expiration.isSome <;> simp [here, own] at gate ⊢
    all_goals revert gate; decide
  obtain ⟨value, number, lastPubBlock, expiration⟩ := numbers_of_text inRange sameKind others
  rw [priceFields, parsed]
  simp only [Except.map, version, pair, value, number, lastPubBlock, expiration]

/-- A task message with the text of a price message is for the same coin pair. -/
theorem coinPair_of_task_message {params : PublishTaskParams} (inRange : InRange fields)
    (versioned : Versioned fields.version fields.expiration) (fits : PairFits params.coinPair)
    (prepared : params.prepareMsg = .ok (String.ofList (Python.hex (messageBytes fields)))) :
    params.coinPair = fields.coinPair := by
  obtain ⟨text, encoded, same⟩ := map_eq_ok_iff.mp prepared
  obtain ⟨oracle, parsed, rfl⟩ := encodeParameters_ok fits encoded
  exact (start_of_text inRange (head_of_versioned versioned) fits (String.ofList_injective same)).2.1

end Fields

end OmocNode.Proofs.MessageFields
