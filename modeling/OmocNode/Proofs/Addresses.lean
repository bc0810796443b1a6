import OmocNode.Helpers
import OmocNode.OracleDao

/-! Every address reads as a number of twenty bytes, whatever the case of its letters. -/

namespace OmocNode.Proofs.Addresses

def HexDigit (c : Char) : Prop := c.toNat < 128 ∧ (Python.digitValue 16 c).isSome

private theorem ascii_cases (code : Fin 128) :
    (Python.digitValue 16 (Char.ofNat code)).isSome →
      (code.val ∉ Python.spaces ∧ Char.ofNat code ≠ '_') ∧ Char.ofNat code ∉ ['-', '+', 'x', 'X'] ∧
        (Python.digitValue 16 (Char.ofNat code)).all (· < 16) = true := by
  revert code
  decide

theorem HexDigit.cases {c : Char} (digit : HexDigit c) :
    c.toNat ∉ Python.spaces ∧ c ≠ '_' := by
  have here := ascii_cases ⟨c.toNat, digit.1⟩
  simp only [Char.ofNat_toNat] at here
  exact (here digit.2).1

theorem HexDigit.no_sign {c : Char} (digit : HexDigit c) : c ∉ ['-', '+', 'x', 'X'] := by
  have here := ascii_cases ⟨c.toNat, digit.1⟩
  simp only [Char.ofNat_toNat] at here
  exact (here digit.2).2.1

theorem HexDigit.value_lt {c : Char} (digit : HexDigit c) {value : Nat} (read : Python.digitValue 16 c = some value) :
    value < 16 := by
  have here := ascii_cases ⟨c.toNat, digit.1⟩
  simp only [Char.ofNat_toNat] at here
  simpa [read] using (here digit.2).2.2

private theorem digitValues_isSome {digits : List Char} (all : ∀ c ∈ digits, HexDigit c) : (Python.digitValues 16 digits).isSome := by
  induction digits with
  | nil => rfl
  | cons c rest ih =>
    have later := ih fun other member => all other (List.mem_cons_of_mem _ member)
    have digit := all c List.mem_cons_self
    rw [Python.digitValues]
    · obtain ⟨value, here⟩ := Option.isSome_iff_exists.mp digit.2
      obtain ⟨values, tail⟩ := Option.isSome_iff_exists.mp later
      simp [here, tail]
    · exact fun next others same _ => digit.cases.2 same

theorem strip_eq (first last : Char) (middle : List Char) (head : first.toNat ∉ Python.spaces)
    (tail : last.toNat ∉ Python.spaces) : Python.strip (first :: (middle ++ [last])) = first :: (middle ++ [last]) := by
  have front : (first :: (middle ++ [last])).dropWhile (fun c => decide (c.toNat ∈ Python.spaces)) = first :: (middle ++ [last]) := by
    rw [List.dropWhile_cons_of_neg (by simpa using head)]
  have back : (last :: (middle.reverse ++ [first])).dropWhile (fun c => decide (c.toNat ∈ Python.spaces)) =
      last :: (middle.reverse ++ [first]) := by
    rw [List.dropWhile_cons_of_neg (by simpa using tail)]
  simp only [Python.strip, List.contains_eq_mem, front, List.reverse_cons, List.reverse_append, List.reverse_nil, List.nil_append,
    List.cons_append, back, List.reverse_reverse]

/-- Text of the form that `isHexAddress` accepts. -/
theorem hexAddress_cases {text : String} (wellFormed : isHexAddress text = true) :
    ∃ digits, text.toList = '0' :: 'x' :: digits ∧ digits.length = 40 ∧ ∀ c ∈ digits, HexDigit c := by
  unfold isHexAddress at wellFormed
  split at wellFormed
  next digits shape =>
    simp only [Bool.and_eq_true, beq_iff_eq, List.all_eq_true, decide_eq_true_eq] at wellFormed
    exact ⟨digits, shape, wellFormed.1, wellFormed.2⟩
  · cases wellFormed

private theorem magnitude_isSome {c : Char} {digits : List Char} (first : HexDigit c) (all : ∀ d ∈ digits, HexDigit d) :
    (Python.magnitude 16 (c :: digits)).isSome := by
  obtain ⟨value, here⟩ := Option.isSome_iff_exists.mp first.2
  obtain ⟨values, tail⟩ := Option.isSome_iff_exists.mp (digitValues_isSome all)
  simp [Python.magnitude, here, tail]

private theorem digitValues_cons {c : Char} {rest : List Char} (digit : HexDigit c) :
    Python.digitValues 16 (c :: rest) = (do
      let value ← Python.digitValue 16 c
      return value :: (← Python.digitValues 16 rest)) := by
  rw [Python.digitValues]
  exact fun _ _ same _ => digit.cases.2 same

private theorem digitValues_lt {digits : List Char} {values : List Nat} (all : ∀ c ∈ digits, HexDigit c)
    (read : Python.digitValues 16 digits = some values) : values.length = digits.length ∧ ∀ value ∈ values, value < 16 := by
  induction digits generalizing values with
  | nil =>
    cases read
    simp
  | cons c rest ih =>
    rw [digitValues_cons (all c List.mem_cons_self)] at read
    obtain ⟨value, here, tail⟩ := Option.bind_eq_some_iff.mp read
    obtain ⟨others, later, same⟩ := Option.bind_eq_some_iff.mp tail
    obtain rfl := Option.some.inj same
    obtain ⟨length, small⟩ := ih (fun other member => all other (List.mem_cons_of_mem _ member)) later
    exact ⟨by rw [List.length_cons, List.length_cons, length],
      List.forall_mem_cons.mpr ⟨(all c List.mem_cons_self).value_lt here, small⟩⟩

private theorem foldl_digits_lt {values : List Nat} (small : ∀ value ∈ values, value < 16) (start : Nat) :
    values.foldl (fun value digit => value * 16 + digit) start < (start + 1) * 16 ^ values.length := by
  induction values generalizing start with
  | nil => simp
  | cons first rest ih =>
    have here := small first List.mem_cons_self
    have later := ih (fun value member => small value (List.mem_cons_of_mem _ member)) (start * 16 + first)
    rw [List.foldl_cons, List.length_cons, pow_succ, mul_comm (16 ^ _) 16, ← mul_assoc]
    exact later.trans_le (Nat.mul_le_mul_right _ (by omega))

private theorem magnitude_lt {c : Char} {digits : List Char} {value : Nat} (first : HexDigit c) (all : ∀ d ∈ digits, HexDigit d)
    (read : Python.magnitude 16 (c :: digits) = some value) : value < 16 ^ (c :: digits).length := by
  obtain ⟨head, here⟩ := Option.isSome_iff_exists.mp first.2
  obtain ⟨values, tail⟩ := Option.isSome_iff_exists.mp (digitValues_isSome all)
  obtain ⟨length, small⟩ := digitValues_lt all tail
  have bound := foldl_digits_lt (List.forall_mem_cons.mpr ⟨first.value_lt here, small⟩) 0
  have same : some (([head] ++ values).foldl (fun value digit => value * 16 + digit) 0) = some value := by
    rw [← read]
    simp [Python.magnitude, here, tail]
  rw [← Option.some.inj same, List.length_cons, ← length]
  simpa using bound

/-- A text of hexadecimal digits, with `0x` before them or without, is read digit by digit. -/
theorem int_eq_magnitude {text : String} {c last : Char} {digits middle : List Char} (split : c :: digits = middle ++ [last])
    (first : HexDigit c) (all : ∀ d ∈ digits, HexDigit d)
    (shape : text.toList = c :: digits ∨ text.toList = '0' :: 'x' :: c :: digits) :
    Python.int 16 text = (Python.magnitude 16 (c :: digits)).map fun value => (value : Int) := by
  have end_digit : HexDigit last := by
    have member : last ∈ c :: digits := by simp [split]
    rcases List.mem_cons.mp member with rfl | inside
    · exact first
    · exact all last inside
  have bare : Python.withoutBasePrefix 16 (c :: digits) = c :: digits := by
    cases digits with
    | nil =>
      unfold Python.withoutBasePrefix
      split
      next same => cases same
      next => rfl
    | cons d rest =>
      have letters := (all d List.mem_cons_self).no_sign
      unfold Python.withoutBasePrefix
      split
      next same =>
        obtain ⟨rfl, rfl, rfl⟩ : c = '0' ∧ d = _ ∧ rest = _ := by simpa using same
        rw [if_neg]
        intro hex
        rcases hex.2 with rfl | rfl <;> simp at letters
      next => rfl
  have prefixed : Python.withoutBasePrefix 16 ('0' :: 'x' :: c :: digits) = c :: digits := by
    simp only [Python.withoutBasePrefix, true_or, and_self, if_true]
    split
    next same => cases (List.cons.inj same).1; exact absurd rfl first.cases.2
    next => rfl
  obtain ⟨start, tail, trimmed, unsigned, kept⟩ : ∃ start tail, Python.strip text.toList = start :: tail ∧
      start ∉ ['-', '+', 'x', 'X'] ∧ Python.withoutBasePrefix 16 (start :: tail) = c :: digits := by
    rcases shape with shape | shape
    · refine ⟨c, digits, ?_, first.no_sign, bare⟩
      rw [shape, split]
      cases middle with
      | nil => simp [Python.strip, end_digit.cases.1]
      | cons start inner =>
        obtain ⟨rfl, _⟩ := List.cons.inj split
        exact strip_eq c last inner first.cases.1 end_digit.cases.1
    · refine ⟨'0', 'x' :: c :: digits, ?_, by decide, prefixed⟩
      rw [shape, split]
      exact strip_eq '0' last ('x' :: middle) (by decide) end_digit.cases.1
  unfold Python.int
  rw [trimmed]
  split
  next same => rw [(List.cons.inj same).1] at unsigned; simp at unsigned
  next same => rw [(List.cons.inj same).1] at unsigned; simp at unsigned
  next => rw [kept]

/-- The forty digits of an address, and the number both readings of it give. -/
theorem address_digits (address : Address) : ∃ c digits value, address.text.toList = '0' :: 'x' :: c :: digits ∧
    (c :: digits).length = 40 ∧ HexDigit c ∧ (∀ d ∈ digits, HexDigit d) ∧ Python.magnitude 16 (c :: digits) = some value ∧
    Python.int 16 address.text = some (value : Int) ∧ Python.int 16 (String.ofList (c :: digits)) = some (value : Int) := by
  obtain ⟨all, shape, length, digit⟩ := hexAddress_cases address.wellFormed
  obtain ⟨c, digits, rfl⟩ : ∃ c digits, all = c :: digits := List.exists_cons_of_length_pos (by omega)
  have first := digit c List.mem_cons_self
  have rest : ∀ d ∈ digits, HexDigit d := fun d member => digit d (List.mem_cons_of_mem _ member)
  obtain ⟨value, read⟩ := Option.isSome_iff_exists.mp (magnitude_isSome first rest)
  have split := (List.dropLast_concat_getLast (List.cons_ne_nil c digits)).symm
  refine ⟨c, digits, value, shape, length, first, rest, read, ?_, ?_⟩
  · rw [int_eq_magnitude split first rest (Or.inr shape), read]
    rfl
  · rw [int_eq_magnitude split first rest (Or.inl String.toList_ofList), read]
    rfl

/-- `int(addr, 16)` does not fail on an address. -/
theorem parseInt_address (address : Address) : Python.parseInt 16 address.text = .ok address.number := by
  obtain ⟨_, _, value, _, _, _, _, _, whole, _⟩ := address_digits address
  simp only [Python.parseInt, whole, Address.number, Option.getD_some]

/-- Nor does `addr_to_number`, which drops the `0x` first. -/
theorem addrToNumber_address (address : Address) : Helpers.addrToNumber address.text = .ok address.number := by
  obtain ⟨c, digits, value, shape, _, _, _, _, whole, bare⟩ := address_digits address
  have nonempty : address.text ≠ "" := by
    intro empty
    rw [empty] at shape
    cases shape
  simp only [Helpers.addrToNumber, if_neg nonempty, shape, Python.parseInt, bare, Address.number, whole, Option.getD_some]

theorem number_bounds (address : Address) : 0 ≤ address.number ∧ address.number < 2 ^ 160 := by
  obtain ⟨c, digits, value, _, length, first, rest, read, whole, _⟩ := address_digits address
  have bound := magnitude_lt first rest read
  rw [length] at bound
  simp only [Address.number, whole, Option.getD_some]
  constructor
  · exact Int.natCast_nonneg value
  · exact_mod_cast bound

end OmocNode.Proofs.Addresses
