import Mathlib.Data.List.DropRight
import Mathlib.Tactic.NormNum
import OmocNode.PublishMessage
import OmocNode.Proofs.Addresses
import OmocNode.Proofs.FixedWidth
import OmocNode.Proofs.Outcomes

/-! What a signature over a message commits to. The message has no separators,
but each of its fields has the same width for every value it admits, so the
fields can be read back from it. -/

namespace OmocNode.Proofs.SignedMessages
open Outcomes FixedWidth Addresses
open Sha256 (bigEndian)

/-- The fields of a message, the oracle by the number of its address. -/
structure SignedFields where
  version : Int
  coinPair : CoinPair
  value : Int
  oracle : Int
  lastPubBlock : Int
  expiration : Option Int
  deriving DecidableEq

def priceFields (params : PublishPriceParams) : Except PyError SignedFields :=
  (Helpers.addrToNumber params.oracleAddr).map fun oracle =>
    { version := params.version, coinPair := params.coinPair, value := params.price, oracle
      lastPubBlock := params.lastPubBlock, expiration := params.expiration }

def taskFields (params : PublishTaskParams) : Except PyError SignedFields :=
  (Helpers.addrToNumber params.oracleAddr).map fun oracle =>
    { version := params.version, coinPair := params.coinPair, value := params.tasksFlags, oracle
      lastPubBlock := params.lastPubBlock, expiration := none }

def FitsWord (number : Int) : Prop := 0 ≤ number ∧ number < 2 ^ 256

/-- One to 32 ASCII characters, of which the last is not NUL. -/
structure PairFits (pair : CoinPair) : Prop where
  some : pair.cp.toList ≠ []
  few : pair.cp.toList.length ≤ 32
  ascii : ∀ c ∈ pair.cp.toList, c.toNat < 128
  ended : pair.cp.toList.getLast some ≠ '\x00'

structure InRange (fields : SignedFields) : Prop where
  version : FitsWord fields.version
  coinPair : PairFits fields.coinPair
  value : FitsWord fields.value
  oracle : 0 ≤ fields.oracle ∧ fields.oracle < 2 ^ 160
  lastPubBlock : FitsWord fields.lastPubBlock
  expiration : ∀ expiration ∈ fields.expiration, FitsWord expiration

/-- The parameters stand for fields in range; the oracle's text is that of a number of twenty bytes. -/
def Admitted (fields : Except PyError SignedFields) : Prop := ∃ admitted, fields = .ok admitted ∧ InRange admitted

def pairBytes (pair : CoinPair) : Bytes := pair.cp.toList.map fun c => UInt8.ofNat c.toNat

/-- The bytes of a message after those of its version. -/
def afterVersion (fields : SignedFields) : Bytes :=
  Python.ljust 32 (pairBytes fields.coinPair) ++ (bigEndian 32 fields.value.toNat ++ (bigEndian 20 fields.oracle.toNat ++
    (bigEndian 32 fields.lastPubBlock.toNat ++ (fields.expiration.map fun expiration => bigEndian 32 expiration.toNat).getD [])))

/-- The bytes whose text the message is. -/
def messageBytes (fields : SignedFields) : Bytes := bigEndian 32 fields.version.toNat ++ afterVersion fields

section Reading

def readWord (bytes : Bytes) (start : Nat) : Int := fromBytesBig ((bytes.drop start).take 32)

/-- The name before the NULs it is padded with. -/
def readPair (bytes : Bytes) : CoinPair := ⟨String.ofList ((bytes.rdropWhile (· == 0)).map fun byte => Char.ofNat byte.toNat)⟩

def readFields (bytes : Bytes) : Option SignedFields :=
  let fields := fun expiration : Option Int =>
    { version := readWord bytes 0, coinPair := readPair ((bytes.drop 32).take 32), value := readWord bytes 64
      oracle := fromBytesBig ((bytes.drop 96).take 20), lastPubBlock := readWord bytes 116, expiration : SignedFields }
  if bytes.length = 148 then some (fields none)
  else if bytes.length = 180 then some (fields (some (readWord bytes 148)))
  else none

def decode (message : String) : Option SignedFields := hexPairs message.toList >>= readFields

end Reading

/-- The message is the text of 148 bytes, or of 180 with an expiration, and its fields can be read from it. -/
def Readable (prepared : Except PyError String) (fields : Except PyError SignedFields) : Prop :=
  ∃ message bytes signed, prepared = .ok message ∧ fields = .ok signed ∧ message = String.ofList (Python.hex bytes) ∧
    bytes.length = (if signed.expiration.isSome then 180 else 148) ∧ decode message = some signed

section Encoding

theorem encUint256_eq {number : Int} (fits : FitsWord number) :
    Helpers.encUint256 number = Python.hex (bigEndian 32 number.toNat) := by
  have small : number.toNat < 256 ^ (31 + 1) := by
    have same : (256 : Nat) ^ (31 + 1) = 2 ^ 256 := by norm_num
    have := fits.2
    omega
  rw [Helpers.encUint256, ← hexPadded_eq_hex small, Int.toNat_of_nonneg fits.1]

theorem encPackedAddress_eq {number : Int} (fits : 0 ≤ number ∧ number < 2 ^ 160) :
    Helpers.encPackedAddress number = Python.hex (bigEndian 20 number.toNat) := by
  have small : number.toNat < 256 ^ (19 + 1) := by
    have same : (256 : Nat) ^ (19 + 1) = 2 ^ 160 := by norm_num
    omega
  rw [Helpers.encPackedAddress, ← hexPadded_eq_hex small, Int.toNat_of_nonneg fits.1]

private theorem length_ljust {bytes : Bytes} {width : Nat} (few : bytes.length ≤ width) : (Python.ljust width bytes).length = width := by
  rw [Python.ljust, List.length_append, List.length_replicate]
  omega

theorem length_pairBytes {pair : CoinPair} (fits : PairFits pair) : (Python.ljust 32 (pairBytes pair)).length = 32 := by
  apply length_ljust
  rw [pairBytes, List.length_map]
  exact fits.few

theorem ljust_of_length {bytes : Bytes} {width : Nat} (full : bytes.length = width) : Python.ljust width bytes = bytes := by
  rw [Python.ljust, full, Nat.sub_self, List.replicate_zero, List.append_nil]

theorem longer_eq {pair : CoinPair} (fits : PairFits pair) : pair.longer = .ok (Python.ljust 32 (pairBytes pair)) := by
  have encoded : Python.encodeAscii pair.cp = .ok (pairBytes pair) := by
    rw [Python.encodeAscii, mapM_eq_ok_iff, pairBytes, List.forall₂_map_right_iff, List.forall₂_same]
    intro c member
    rw [if_pos (fits.ascii c member)]
  rw [CoinPair.longer, encoded]
  rfl

/-- Whatever the version is, the other fields are written after it. -/
theorem encodeParameters_version (version : Int) {value lastPubBlock oracle other : Int} {pair : CoinPair} {oracleAddr : String}
    (parsed : Helpers.addrToNumber oracleAddr = .ok oracle) {expiration : Option Int}
    (inRange : InRange ⟨other, pair, value, oracle, lastPubBlock, expiration⟩) :
    encodeParameters version pair value oracleAddr lastPubBlock =
      .ok (Helpers.encUint256 version ++ Python.hex (afterVersion ⟨other, pair, value, oracle, lastPubBlock, none⟩)) := by
  have padded : Helpers.encByte32 (Python.ljust 32 (pairBytes pair)) = Python.hex (Python.ljust 32 (pairBytes pair)) := by
    rw [Helpers.encByte32, ljust_of_length (length_pairBytes inRange.coinPair)]
  rw [encodeParameters, longer_eq inRange.coinPair, parsed]
  simp only [bind, Except.bind, pure, Except.pure, padded, encUint256_eq inRange.value, encPackedAddress_eq inRange.oracle,
    encUint256_eq inRange.lastPubBlock, afterVersion, Option.map_none, Option.getD_none, List.append_nil, hex_append,
    List.append_assoc]

theorem encodeParameters_eq {version value lastPubBlock oracle : Int} {pair : CoinPair} {oracleAddr : String}
    (parsed : Helpers.addrToNumber oracleAddr = .ok oracle) {expiration : Option Int}
    (inRange : InRange ⟨version, pair, value, oracle, lastPubBlock, expiration⟩) :
    encodeParameters version pair value oracleAddr lastPubBlock =
      .ok (Python.hex (messageBytes ⟨version, pair, value, oracle, lastPubBlock, none⟩)) := by
  rw [encodeParameters_version version parsed inRange, encUint256_eq inRange.version, ← hex_append, messageBytes]

theorem prepareMsg_price {params : PublishPriceParams} {fields : SignedFields} (same : priceFields params = .ok fields)
    (inRange : InRange fields) : params.prepareMsg = .ok (String.ofList (Python.hex (messageBytes fields))) := by
  obtain ⟨oracle, parsed, rfl⟩ := map_eq_ok_iff.mp same
  rw [PublishPriceParams.prepareMsg, encodeParameters_eq parsed inRange]
  cases present : params.expiration with
  | none => rfl
  | some expiration =>
    have fits := inRange.expiration expiration present
    simp only [bind, Except.bind, pure, Except.pure, encUint256_eq fits, ← hex_append, messageBytes, afterVersion, Option.map_none,
      Option.map_some, Option.getD_none, Option.getD_some, List.append_nil, List.append_assoc]

theorem prepareMsg_task {params : PublishTaskParams} {fields : SignedFields} (same : taskFields params = .ok fields)
    (inRange : InRange fields) : params.prepareMsg = .ok (String.ofList (Python.hex (messageBytes fields))) := by
  obtain ⟨oracle, parsed, rfl⟩ := map_eq_ok_iff.mp same
  rw [PublishTaskParams.prepareMsg, encodeParameters_eq parsed inRange]
  rfl

end Encoding

section Decoding
variable {fields : SignedFields}

theorem length_messageBytes (inRange : InRange fields) :
    (messageBytes fields).length = if fields.expiration.isSome then 180 else 148 := by
  have pair := length_pairBytes inRange.coinPair
  cases present : fields.expiration <;> simp [messageBytes, afterVersion, pair, present]

/-- A part of known length is found between what stands before it and after it. -/
theorem take_drop_append {front part rest : Bytes} {start width : Nat} (before : front.length = start) (long : part.length = width) :
    ((front ++ (part ++ rest)).drop start).take width = part := by
  rw [← before, List.drop_left, ← long, List.take_left]

theorem readPair_ljust {pair : CoinPair} (fits : PairFits pair) (width : Nat) : readPair (Python.ljust width (pairBytes pair)) = pair := by
  have back : ∀ c ∈ pair.cp.toList, Char.ofNat (UInt8.ofNat c.toNat).toNat = c := by
    intro c member
    rw [UInt8.toNat_ofNat_of_lt' ((fits.ascii c member).trans (by decide)), Char.ofNat_toNat]
  have zeros : ∀ count, (pairBytes pair ++ List.replicate count 0).rdropWhile (· == 0) = (pairBytes pair).rdropWhile (· == 0) := by
    intro count
    induction count with
    | zero => rw [List.replicate_zero, List.append_nil]
    | succ count ih =>
      rw [List.replicate_succ', ← List.append_assoc, List.rdropWhile_concat_pos _ _ _ rfl, ih]
  have kept : (pairBytes pair).rdropWhile (· == 0) = pairBytes pair := by
    rw [List.rdropWhile_eq_self_iff]
    intro nonempty zero
    simp only [pairBytes, List.getLast_map, beq_iff_eq] at zero
    have same := back _ (List.getLast_mem fits.some)
    rw [zero] at same
    exact fits.ended same.symm
  rw [readPair, Python.ljust, zeros, kept, pairBytes, List.map_map]
  have whole : pair.cp.toList.map ((fun byte : UInt8 => Char.ofNat byte.toNat) ∘ fun c => UInt8.ofNat c.toNat) = pair.cp.toList := by
    conv_rhs => rw [← List.map_id pair.cp.toList]
    exact List.map_congr_left back
  rw [whole, String.ofList_toList]

private theorem readWord_append {number : Int} (fits : FitsWord number) {front rest : Bytes} {start : Nat} (before : front.length = start) :
    readWord (front ++ (bigEndian 32 number.toNat ++ rest)) start = number := by
  have small : number.toNat < 256 ^ 32 := by
    have same : (256 : Nat) ^ 32 = 2 ^ 256 := by norm_num
    have := fits.2
    omega
  rw [readWord, take_drop_append before (length_bigEndian 32 _), fromBytesBig_bigEndian small, Int.toNat_of_nonneg fits.1]

/-- What stands between the words. -/
theorem readParts_messageBytes (inRange : InRange fields) :
    readPair (((messageBytes fields).drop 32).take 32) = fields.coinPair ∧
      (fromBytesBig (((messageBytes fields).drop 96).take 20) : Int) = fields.oracle := by
  have few := length_pairBytes inRange.coinPair
  have small : fields.oracle.toNat < 256 ^ 20 := by
    have same : (256 : Nat) ^ 20 = 2 ^ 160 := by norm_num
    have := inRange.oracle
    omega
  constructor
  · rw [messageBytes, afterVersion, take_drop_append (length_bigEndian 32 _) few, readPair_ljust inRange.coinPair]
  · have before : (bigEndian 32 fields.version.toNat ++ Python.ljust 32 (pairBytes fields.coinPair) ++
        bigEndian 32 fields.value.toNat).length = 96 := by
      simp [few]
    rw [messageBytes, afterVersion, ← List.append_assoc, ← List.append_assoc, take_drop_append before (length_bigEndian 20 _),
      fromBytesBig_bigEndian small, Int.toNat_of_nonneg inRange.oracle.1]

private theorem readWords_messageBytes (inRange : InRange fields) :
    readWord (messageBytes fields) 0 = fields.version ∧ readWord (messageBytes fields) 64 = fields.value ∧
      readWord (messageBytes fields) 116 = fields.lastPubBlock ∧
      ∀ expiration ∈ fields.expiration, readWord (messageBytes fields) 148 = expiration := by
  have few := length_pairBytes inRange.coinPair
  refine ⟨?_, ?_, ?_, ?_⟩
  · rw [messageBytes, ← List.nil_append (bigEndian 32 fields.version.toNat ++ _)]
    exact readWord_append inRange.version rfl
  · rw [messageBytes, afterVersion, ← List.append_assoc]
    apply readWord_append inRange.value
    simp [few]
  · rw [messageBytes, afterVersion, ← List.append_assoc, ← List.append_assoc, ← List.append_assoc]
    apply readWord_append inRange.lastPubBlock
    simp [few]
  · intro expiration present
    rw [Option.mem_def] at present
    rw [messageBytes, afterVersion, present, Option.map_some, Option.getD_some, ← List.append_nil (bigEndian 32 expiration.toNat),
      ← List.append_assoc, ← List.append_assoc, ← List.append_assoc, ← List.append_assoc]
    apply readWord_append (inRange.expiration expiration present)
    simp [few]

private theorem readFields_messageBytes (inRange : InRange fields) : readFields (messageBytes fields) = some fields := by
  obtain ⟨version, value, lastPubBlock, expiration⟩ := readWords_messageBytes inRange
  obtain ⟨pair, oracle⟩ := readParts_messageBytes inRange
  have length := length_messageBytes inRange
  cases present : fields.expiration with
  | none =>
    rw [present, Option.isSome_none, if_neg Bool.false_ne_true] at length
    rw [readFields, if_pos length, version, value, lastPubBlock, pair, oracle, ← present]
  | some word =>
    rw [present, Option.isSome_some, if_pos rfl] at length
    rw [readFields, if_neg (by omega), if_pos length, version, value, lastPubBlock, pair, oracle, expiration word present, ← present]

theorem readable_of_eq {prepared : Except PyError String} {signed : SignedFields} (inRange : InRange signed)
    (message : prepared = .ok (String.ofList (Python.hex (messageBytes signed)))) : Readable prepared (.ok signed) := by
  refine ⟨_, messageBytes signed, signed, message, rfl, rfl, length_messageBytes inRange, ?_⟩
  rw [decode, String.toList_ofList, hexPairs_hex, Option.bind_eq_bind, Option.bind_some, readFields_messageBytes inRange]

/-- What is read from equal messages is equal. -/
theorem Readable.fields_eq {first second : Except PyError String} {fields others : Except PyError SignedFields}
    (here : Readable first fields) (there : Readable second others) (same : first = second) : fields = others := by
  obtain ⟨message, _, signed, prepared, rfl, _, _, read⟩ := here
  obtain ⟨other, _, written, also, rfl, _, _, reread⟩ := there
  rw [prepared, also] at same
  cases same
  rw [read] at reread
  rw [Option.some.inj reread]

end Decoding

/-- A message is the text of 148 bytes, or of 180 with an expiration, from which
every field that was signed can be read; so no other parameters have the same
message. The legacy form of a message only changes its version and its expiration. -/
theorem message_determines_fields (price other : PublishPriceParams) (task otherTask : PublishTaskParams)
    (first : Admitted (priceFields price)) (second : Admitted (priceFields other))
    (firstTask : Admitted (taskFields task)) (secondTask : Admitted (taskFields otherTask)) :
    (Readable price.prepareMsg (priceFields price) ∧ Readable task.prepareMsg (taskFields task)) ∧
      (price.prepareMsg = other.prepareMsg → priceFields price = priceFields other) ∧
      (task.prepareMsg = otherTask.prepareMsg → taskFields task = taskFields otherTask) ∧
      (price.version = expiringPriceMessageVersion → price.asLegacy.price = price.price ∧ price.asLegacy.coinPair = price.coinPair ∧
        price.asLegacy.oracleAddr = price.oracleAddr ∧ price.asLegacy.lastPubBlock = price.lastPubBlock) := by
  have priced : ∀ params : PublishPriceParams, Admitted (priceFields params) → Readable params.prepareMsg (priceFields params) := by
    intro params admitted
    obtain ⟨fields, parsed, inRange⟩ := admitted
    rw [parsed]
    exact readable_of_eq inRange (prepareMsg_price parsed inRange)
  have tasked : ∀ params : PublishTaskParams, Admitted (taskFields params) → Readable params.prepareMsg (taskFields params) := by
    intro params admitted
    obtain ⟨fields, parsed, inRange⟩ := admitted
    rw [parsed]
    exact readable_of_eq inRange (prepareMsg_task parsed inRange)
  refine ⟨⟨priced price first, tasked task firstTask⟩, ?_, ?_, ?_⟩
  · exact (priced price first).fields_eq (priced other second)
  · exact (tasked task firstTask).fields_eq (tasked otherTask secondTask)
  · intro _
    exact ⟨rfl, rfl, rfl, rfl⟩

/-- Parameters that name their oracle by its address stand for its number. -/
theorem admitted_of_address {address : Address} {fields : Int → SignedFields} (inRange : InRange (fields address.number)) :
    Admitted ((Helpers.addrToNumber address.text).map fields) := by
  rw [addrToNumber_address]
  exact ⟨fields address.number, rfl, inRange⟩

def publisherAddr : Address := ⟨"0x2c7536E3605D9C16a7a3D7b1898e529396a65c23", by decide⟩

def expiringPrice (expiration : Int) : PublishPriceParams :=
  { version := 4, coinPair := ⟨"BTCUSD"⟩, price := 1000000000000000000, priceTsUtc := .finite 1700000000
    oracleAddr := publisherAddr.text, lastPubBlock := 123, expiration := some expiration }

def pendingTask (flags : Int) : PublishTaskParams :=
  { version := 3, coinPair := ⟨"TASKS"⟩, tasksFlags := flags, oracleAddr := publisherAddr.text, lastPubBlock := 123 }

theorem btcusd_fits : PairFits ⟨"BTCUSD"⟩ := ⟨by simp, by simp, by simp, by simp⟩

theorem tasks_fits : PairFits ⟨"TASKS"⟩ := ⟨by simp, by simp, by simp, by simp⟩

private theorem admitted_expiringPrice (expiration : Int) (fits : FitsWord expiration) : Admitted (priceFields (expiringPrice expiration)) := by
  apply admitted_of_address
  exact
    { version := by norm_num [FitsWord, expiringPrice]
      coinPair := btcusd_fits
      value := by norm_num [FitsWord, expiringPrice]
      oracle := number_bounds publisherAddr
      lastPubBlock := by norm_num [FitsWord, expiringPrice]
      expiration := by
        intro other present
        obtain rfl := Option.some.inj present
        exact fits }

private theorem admitted_pendingTask (flags : Int) (fits : FitsWord flags) : Admitted (taskFields (pendingTask flags)) := by
  apply admitted_of_address
  exact
    { version := by norm_num [FitsWord, pendingTask]
      coinPair := tasks_fits
      value := fits
      oracle := number_bounds publisherAddr
      lastPubBlock := by norm_num [FitsWord, pendingTask]
      expiration := nofun }

theorem message_determines_fields_here :
    (Readable (expiringPrice 1700000300).prepareMsg (priceFields (expiringPrice 1700000300)) ∧
        Readable (pendingTask 1).prepareMsg (taskFields (pendingTask 1))) ∧
      ((expiringPrice 1700000300).prepareMsg = (expiringPrice 1700000301).prepareMsg →
        priceFields (expiringPrice 1700000300) = priceFields (expiringPrice 1700000301)) ∧
      ((pendingTask 1).prepareMsg = (pendingTask 2).prepareMsg → taskFields (pendingTask 1) = taskFields (pendingTask 2)) ∧
      ((expiringPrice 1700000300).version = expiringPriceMessageVersion →
        (expiringPrice 1700000300).asLegacy.price = (expiringPrice 1700000300).price ∧
          (expiringPrice 1700000300).asLegacy.coinPair = (expiringPrice 1700000300).coinPair ∧
          (expiringPrice 1700000300).asLegacy.oracleAddr = (expiringPrice 1700000300).oracleAddr ∧
          (expiringPrice 1700000300).asLegacy.lastPubBlock = (expiringPrice 1700000300).lastPubBlock) :=
  message_determines_fields (expiringPrice 1700000300) (expiringPrice 1700000301) (pendingTask 1) (pendingTask 2)
    (admitted_expiringPrice _ (by norm_num [FitsWord])) (admitted_expiringPrice _ (by norm_num [FitsWord]))
    (admitted_pendingTask _ (by norm_num [FitsWord])) (admitted_pendingTask _ (by norm_num [FitsWord]))

end OmocNode.Proofs.SignedMessages
