import OmocNode.Crypto
import OmocNode.Sha256

/-! Numbers and bytes in hexadecimal text of a fixed width, and how to read them
back. A number that fits its width is padded to it, and so can be found again in
a text without separators. -/

namespace OmocNode.Proofs.FixedWidth
open Sha256 (bigEndian)

/-- The number that bytes stand for, the first byte counting most. -/
def fromBytesBig (bytes : Bytes) : Nat := bytes.foldl (fun value byte => value * 256 + byte.toNat) 0

@[simp] theorem length_bigEndian (size value : Nat) : (bigEndian size value).length = size := by
  induction size generalizing value with
  | zero => rfl
  | succ size ih => rw [bigEndian, List.length_append, ih, List.length_singleton]

theorem fromBytesBig_bigEndian {size value : Nat} (fits : value < 256 ^ size) : fromBytesBig (bigEndian size value) = value := by
  induction size generalizing value with
  | zero =>
    rw [pow_zero, Nat.lt_one_iff] at fits
    rw [fits]
    rfl
  | succ size ih =>
    have front : value / 256 < 256 ^ size := by
      rw [pow_succ] at fits
      omega
    have low : (UInt8.ofNat value).toNat = value % 256 := UInt8.toNat_ofNat'
    have step : fromBytesBig (bigEndian (size + 1) value) =
        fromBytesBig (bigEndian size (value / 256)) * 256 + (UInt8.ofNat value).toNat := by
      rw [bigEndian, fromBytesBig, List.foldl_append, List.foldl_cons, List.foldl_nil, fromBytesBig]
    rw [step, ih front, low]
    omega

theorem hex_append (first second : Bytes) : Python.hex (first ++ second) = Python.hex first ++ Python.hex second :=
  List.flatMap_append

@[simp] theorem length_hex (bytes : Bytes) : (Python.hex bytes).length = 2 * bytes.length := by
  induction bytes with
  | nil => rfl
  | cons byte bytes ih =>
    rw [← List.singleton_append, hex_append, List.length_append, ih, List.length_append, List.length_singleton]
    change 2 + 2 * bytes.length = _
    omega

/-- One digit of a padded number, from its end. -/
theorem hexPadded_succ {width : Nat} (some : 1 ≤ width) (value : Nat) :
    Python.hexPadded (width + 1) value = Python.hexPadded width ((value / 16 : Nat) : Int) ++ [Nat.digitChar (value % 16)] := by
  have nonneg : ¬((value : Int) < 0) := by omega
  have front : ¬(((value / 16 : Nat) : Int) < 0) := by omega
  simp only [Python.hexPadded, if_neg nonneg, if_neg front, Int.natAbs_natCast]
  by_cases one : value < 16
  · have none : value / 16 = 0 := by omega
    rw [none, Nat.toDigits_of_lt_base one, Nat.toDigits_zero, Nat.mod_eq_of_lt one]
    obtain ⟨rest, rfl⟩ : ∃ rest, width = rest + 1 := ⟨width - 1, by omega⟩
    simp only [List.length_singleton, Nat.add_sub_cancel, List.replicate_succ', List.append_assoc]
  · rw [Nat.toDigits_of_base_le (by decide) (by omega), List.length_append, List.length_singleton, List.append_assoc]
    congr 2
    omega

theorem hexPadded_one {value : Nat} (fits : value < 16) : Python.hexPadded 1 value = [Nat.digitChar value] := by
  have nonneg : ¬((value : Int) < 0) := by omega
  simp only [Python.hexPadded, if_neg nonneg, Int.natAbs_natCast, Nat.toDigits_of_lt_base fits, List.length_singleton,
    Nat.sub_self, List.replicate_zero, List.nil_append]

/-- A number that fits is written as its bytes are. -/
theorem hexPadded_eq_hex {size value : Nat} (fits : value < 256 ^ (size + 1)) :
    Python.hexPadded (2 * (size + 1)) value = Python.hex (bigEndian (size + 1) value) := by
  have pair : ∀ number : Nat, Python.hex [UInt8.ofNat number] = [Nat.digitChar (number / 16 % 16), Nat.digitChar (number % 16)] := by
    intro number
    have byte : (UInt8.ofNat number).toNat = number % 256 := UInt8.toNat_ofNat'
    have high : number % 256 / 16 = number / 16 % 16 := by omega
    have low : number % 256 % 16 = number % 16 := by omega
    simp only [Python.hex, List.flatMap_cons, List.flatMap_nil, List.append_nil, byte, high, low]
  induction size generalizing value with
  | zero =>
    rw [zero_add, pow_one] at fits
    change Python.hexPadded (1 + 1) value = Python.hex [UInt8.ofNat value]
    rw [hexPadded_succ le_rfl, hexPadded_one (by omega), pair, Nat.mod_eq_of_lt (show value / 16 < 16 by omega)]
    rfl
  | succ size ih =>
    have front : value / 256 < 256 ^ (size + 1) := by
      rw [pow_succ] at fits
      omega
    have digits : 2 * (size + 1 + 1) = 2 * (size + 1) + 1 + 1 := by omega
    have split : bigEndian (size + 1 + 1) value = bigEndian (size + 1) (value / 256) ++ [UInt8.ofNat value] := rfl
    rw [digits, hexPadded_succ (by omega), hexPadded_succ (by omega), Nat.div_div_eq_div_mul, ih front, split, hex_append, pair,
      List.append_assoc]
    rfl

/-- Only a number that fits its width is written as bytes are. -/
theorem fits_of_hexPadded {size : Nat} {value : Int} {bytes : Bytes} (long : bytes.length = size)
    (written : Python.hexPadded (2 * size) value = Python.hex bytes) : 0 ≤ value ∧ value < 256 ^ size := by
  have digits : ∀ number : Fin 16, Nat.digitChar number ≠ '-' := by decide
  by_cases negative : value < 0
  · have sign : '-' ∈ Python.hex bytes := by
      rw [← written, Python.hexPadded]
      simp only [negative, if_true, List.mem_cons_self]
    obtain ⟨byte, _, inside⟩ := List.mem_flatMap.mp sign
    have bound := byte.toNat_lt
    simp only [List.mem_cons, List.not_mem_nil, or_false] at inside
    rcases inside with high | low
    · exact absurd high.symm (digits ⟨byte.toNat / 16, by omega⟩)
    · exact absurd low.symm (digits ⟨byte.toNat % 16, by omega⟩)
  · have lengths := congrArg List.length written
    simp only [Python.hexPadded, negative, if_false, List.length_append, List.length_replicate, length_hex, long] at lengths
    have some := Nat.length_toDigits_pos (b := 16) (n := value.natAbs)
    have short := (Nat.length_toDigits_le_iff (b := 16) (n := value.natAbs) (k := 2 * size) (by decide) (by omega)).mp (by omega)
    have same : (16 : Nat) ^ (2 * size) = 256 ^ size := pow_mul 16 2 size
    rw [same] at short
    constructor
    · omega
    · rw [← Int.natAbs_of_nonneg (not_lt.mp negative)]
      exact_mod_cast short

private theorem digit_read (digit : Fin 16) :
    (Nat.digitChar digit).toNat < 128 ∧ Python.digitValue 16 (Nat.digitChar digit) = some digit.val := by
  revert digit
  decide

/-- The bytes that pairs of hexadecimal digits stand for. -/
def hexPairs : List Char → Option Bytes
  | [] => some []
  | high :: low :: rest => do
    let value := fun c : Char => if c.toNat < 128 then Python.digitValue 16 c else none
    let tail ← hexPairs rest
    return UInt8.ofNat ((← value high) * 16 + (← value low)) :: tail
  | [_] => none

theorem hexPairs_hex (bytes : Bytes) : hexPairs (Python.hex bytes) = some bytes := by
  induction bytes with
  | nil => rfl
  | cons byte bytes ih =>
    have bound := byte.toNat_lt
    have high := digit_read ⟨byte.toNat / 16, by omega⟩
    have low := digit_read ⟨byte.toNat % 16, by omega⟩
    have same : UInt8.ofNat (byte.toNat / 16 * 16 + byte.toNat % 16) = byte := by
      rw [Nat.div_add_mod']
      exact UInt8.ofNat_toNat
    change hexPairs (Nat.digitChar (byte.toNat / 16) :: Nat.digitChar (byte.toNat % 16) :: Python.hex bytes) = _
    simp only [hexPairs, ih, high.1, high.2, low.1, low.2, if_true, bind, Option.bind, same, pure]

/-- Reads texts with the prefix `0x` or without, and puts a zero before an odd number of digits. -/
def plainHexBytes : HexBytes where
  ofText text :=
    let chars := text.toList
    let digits := match chars with
      | '0' :: 'x' :: rest | '0' :: 'X' :: rest => rest
      | digits => digits
    match hexPairs (if chars.length % 2 = 1 then '0' :: digits else digits) with
    | some bytes => .ok bytes
    | none => .error .valueError
  hex bytes := "0x" ++ String.ofList (Python.hex bytes)

theorem plainHexBytes_roundTrips : plainHexBytes.RoundTrips := by
  intro bytes
  have shape : (plainHexBytes.hex bytes).toList = '0' :: 'x' :: Python.hex bytes := by
    simp [plainHexBytes, String.toList_append]
  have even : ('0' :: 'x' :: Python.hex bytes).length % 2 ≠ 1 := by
    rw [List.length_cons, List.length_cons, length_hex]
    omega
  simp only [plainHexBytes] at shape ⊢
  simp only [shape, if_neg even, hexPairs_hex]

end OmocNode.Proofs.FixedWidth
