import Mathlib.Tactic.SplitIfs
import OmocNode.Python

/-! What `str` writes, `int` reads. -/

namespace OmocNode.Proofs.DecimalText

private theorem digitChar_cases (digit : Fin 10) : Python.digitValue 10 (Nat.digitChar digit) = some digit.val ∧
    (Nat.digitChar digit).toNat ∉ Python.spaces ∧ Nat.digitChar digit ∉ ['_', '-', '+'] := by
  revert digit
  decide

private theorem digitValues_digitChars {digits : List Nat} (small : ∀ digit ∈ digits, digit < 10) :
    Python.digitValues 10 (digits.map Nat.digitChar) = some digits := by
  induction digits with
  | nil => rfl
  | cons digit digits ih =>
    obtain ⟨here, later⟩ := List.forall_mem_cons.mp small
    obtain ⟨read, _, plain⟩ := digitChar_cases ⟨digit, here⟩
    rw [List.map_cons, Python.digitValues, read, ih later]
    · rfl
    · intro next rest same _
      simp [same] at plain

/-- The digits of a number, the most significant one first. -/
theorem exists_digits (value : Nat) : ∃ first rest, Nat.toDigits 10 value = (first :: rest).map Nat.digitChar ∧
    (∀ digit ∈ first :: rest, digit < 10) ∧ (first :: rest).foldl (fun number digit => number * 10 + digit) 0 = value := by
  induction value using Nat.strong_induction_on with
  | _ value ih =>
    by_cases one : value < 10
    · refine ⟨value, [], Nat.toDigits_of_lt_base one, ?_, ?_⟩
      · simpa using one
      · simp
    · obtain ⟨first, rest, written, small, same⟩ := ih (value / 10) (by omega)
      refine ⟨first, rest ++ [value % 10], ?_, ?_, ?_⟩
      · rw [Nat.toDigits_of_base_le (by decide) (by omega), written, ← List.cons_append, List.map_append, List.map_singleton]
      · rw [← List.cons_append, List.forall_mem_append]
        exact ⟨small, by simp; omega⟩
      · rw [← List.cons_append, List.foldl_append, same, List.foldl_cons, List.foldl_nil]
        omega

private theorem magnitude_toDigits {value : Nat} (short : (Nat.toDigits 10 value).length ≤ Python.intMaxStrDigits) :
    Python.magnitude 10 (Nat.toDigits 10 value) = some value := by
  obtain ⟨first, rest, written, small, same⟩ := exists_digits value
  obtain ⟨here, later⟩ := List.forall_mem_cons.mp small
  rw [written, List.length_map] at short
  have read : Python.digitValue 10 (Nat.digitChar first) = some first := (digitChar_cases ⟨first, here⟩).1
  simp only [written, List.map_cons, Python.magnitude, digitValues_digitChars later, read, Option.bind_eq_bind, Option.bind_some,
    Option.map_some, true_and, if_neg (not_lt.mpr short), same]

private theorem strip_plain {text : List Char} (plain : ∀ c ∈ text, c.toNat ∉ Python.spaces) : Python.strip text = text := by
  have kept : ∀ chars : List Char, (∀ c ∈ chars, c ∈ text) →
      chars.dropWhile (fun c => Python.spaces.contains c.toNat) = chars := by
    intro chars inside
    cases chars with
    | nil => rfl
    | cons c rest =>
      have := plain c (inside c List.mem_cons_self)
      rw [List.dropWhile_cons_of_neg (by simpa using this)]
  rw [Python.strip, kept text fun _ member => member, kept text.reverse fun _ member => List.mem_reverse.mp member,
    List.reverse_reverse]

@[simp] theorem withoutBasePrefix_ten (text : List Char) : Python.withoutBasePrefix 10 text = text := by
  unfold Python.withoutBasePrefix
  split
  · rw [if_neg (by simp)]
  · rfl

private theorem int_str {value : Int} {text : String} (written : Python.str value = .ok text) : Python.int 10 text = some value := by
  simp only [Python.str] at written
  split at written
  · cases written
  next short =>
    obtain rfl := Except.ok.inj written
    have number := magnitude_toDigits (not_lt.mp short)
    obtain ⟨first, rest, shape, small, _⟩ := exists_digits value.natAbs
    have plain : ∀ c ∈ Nat.toDigits 10 value.natAbs, c.toNat ∉ Python.spaces ∧ c ∉ ['_', '-', '+'] := by
      rw [shape]
      intro c member
      obtain ⟨digit, inside, rfl⟩ := List.mem_map.mp member
      exact (digitChar_cases ⟨digit, small digit inside⟩).2
    unfold Python.int
    rw [String.toList_ofList]
    split_ifs with negative
    · rw [strip_plain]
      · simp only [withoutBasePrefix_ten, number, Option.bind_eq_bind, Option.bind_some, Option.pure_def, Option.map_some,
          Option.some.injEq]
        omega
      · intro c member
        rcases List.mem_cons.mp member with rfl | digit
        · decide
        · exact (plain c digit).1
    · rw [strip_plain fun c digit => (plain c digit).1]
      split
      next same => exact absurd (same ▸ List.mem_cons_self) fun inside => (plain '-' inside).2 (by simp)
      next same => exact absurd (same ▸ List.mem_cons_self) fun inside => (plain '+' inside).2 (by simp)
      next =>
        simp only [withoutBasePrefix_ten, number, Option.bind_eq_bind, Option.bind_some, Option.pure_def, Option.map_some,
          Option.some.injEq]
        omega

theorem parseInt_str {value : Int} {text : String} (written : Python.str value = .ok text) :
    Python.parseInt 10 text = .ok value := by
  rw [Python.parseInt, int_str written]

/-- Numbers of a word, and larger ones, can be written. -/
theorem str_ok {value : Int} (short : value.natAbs < 10 ^ Python.intMaxStrDigits) : ∃ text, Python.str value = .ok text := by
  have few : (Nat.toDigits 10 value.natAbs).length ≤ Python.intMaxStrDigits :=
    (Nat.length_toDigits_le_iff (by decide) (by decide)).mpr short
  exact ⟨_, if_neg (not_lt.mpr few)⟩

end OmocNode.Proofs.DecimalText
