import OmocNode.OracleTurn
import OmocNode.Proofs.Countdown

/-! The oracles of a selection order that may publish form an initial part of
it, whose length the fallback sequence gives. The sequence reaches the whole
order unless its configured end stops one short. -/

namespace OmocNode.Proofs.FallbackSequence
open OracleTurn Countdown

/-- The last and largest amount plus one; one, if no amounts are configured. -/
def configuredEnd (amounts : Bytes) : Nat := (amounts.map (·.toNat + 1)).getLastD 1

private theorem getLast_configured (amounts : Bytes) (nonempty : 1 :: amounts.map (·.toNat + 1) ≠ []) :
    (1 :: amounts.map (·.toNat + 1)).getLast nonempty = configuredEnd amounts := List.getLast_eq_getLastD nonempty

theorem getFallbackSequence_eq (amounts : Bytes) (n : Nat) : getFallbackSequence amounts n =
    if configuredEnd amounts + 1 < n then 1 :: amounts.map (·.toNat + 1) ++ [n] else 1 :: amounts.map (·.toNat + 1) := by
  rw [getFallbackSequence, getLast_configured]
  congr 1
  rw [eq_iff_iff]
  omega

theorem getFallbackSequence_ne_nil (amounts : Bytes) (n : Nat) : getFallbackSequence amounts n ≠ [] := by
  rw [getFallbackSequence_eq]
  split <;> simp

theorem one_le_of_mem {amounts : Bytes} {n entry : Nat} (member : entry ∈ getFallbackSequence amounts n) : 1 ≤ entry := by
  rw [getFallbackSequence_eq] at member
  split at member
  next more =>
    rcases List.mem_append.mp member with configured | appended
    · rcases List.mem_cons.mp configured with rfl | configured
      · exact le_rfl
      · obtain ⟨amount, _, rfl⟩ := List.mem_map.mp configured
        omega
    · rw [List.mem_singleton] at appended
      omega
  next =>
    rcases List.mem_cons.mp member with rfl | configured
    · exact le_rfl
    · obtain ⟨amount, _, rfl⟩ := List.mem_map.mp configured
      omega

theorem getFallbackSequence_sorted {amounts : Bytes} (sorted : amounts.Pairwise (· ≤ ·)) (n : Nat) :
    (getFallbackSequence amounts n).Pairwise (· ≤ ·) := by
  have configured : (1 :: amounts.map (·.toNat + 1)).Pairwise (· ≤ ·) := by
    rw [List.pairwise_cons, List.pairwise_map]
    refine ⟨?_, sorted.imp fun le => Nat.succ_le_succ (UInt8.le_iff_toNat_le.mp le)⟩
    intro entry member
    obtain ⟨amount, _, rfl⟩ := List.mem_map.mp member
    omega
  rw [getFallbackSequence_eq]
  split
  next more =>
    rw [List.pairwise_append]
    refine ⟨configured, List.pairwise_singleton _ _, ?_⟩
    intro entry member last appended
    rw [List.mem_singleton] at appended
    have bound := configured.rel_getLast member
    rw [getLast_configured] at bound
    omega
  next => exact configured

/-- How many oracles of the order may publish that many blocks after the publication became allowed. -/
def admitted (amounts : Bytes) (n : Nat) (onlyChosen : Bool) (blocks : Int) : Nat :=
  if onlyChosen then 1 else width (getFallbackSequence amounts n) blocks

private theorem getItem_clamped {widths : List Nat} (nonempty : widths ≠ []) {blocks : Int} (nonneg : 0 ≤ blocks) :
    Python.getItem widths (if blocks < widths.length then blocks else (widths.length : Int) - 1) =
      .ok (width widths blocks) := by
  have some := List.length_pos_iff.mpr nonempty
  have index : (if blocks < widths.length then blocks else (widths.length : Int) - 1) =
      ((min blocks.toNat (widths.length - 1) : Nat) : Int) := by
    split <;> omega
  have inside : min blocks.toNat (widths.length - 1) < widths.length := by omega
  rw [index, Python.getItem, width, List.getD_eq_getElem _ _ inside]
  simp only [show ¬((min blocks.toNat (widths.length - 1) : Nat) : Int) < 0 by omega, if_false, Int.toNat_natCast,
    List.getElem?_eq_getElem inside]

private theorem mem_take_cons {first item : String} {count : Nat} (rest : List String) (some : 1 ≤ count) (other : first ≠ item) :
    item ∈ (first :: rest).take count ↔ item ∈ ((first :: rest).take count).tail := by
  obtain ⟨more, rfl⟩ : ∃ more, count = more + 1 := ⟨count - 1, by omega⟩
  simp [Ne.symm other]

theorem canOraclePublish_eq {addresses : List String} (nonempty : addresses ≠ []) (oracleAddr : String) (amounts : Bytes)
    (n : Nat) (onlyChosen : Bool) {blocks : Int} (nonneg : 0 ≤ blocks) :
    canOraclePublish (some blocks) oracleAddr addresses (getFallbackSequence amounts n) onlyChosen =
      .ok (decide (oracleAddr ∈ addresses.take (admitted amounts n onlyChosen blocks))) := by
  obtain ⟨first, rest, rfl⟩ := List.exists_cons_of_ne_nil nonempty
  have filled := getFallbackSequence_ne_nil amounts n
  have some := one_le_of_mem (width_mem filled blocks)
  simp only [canOraclePublish, isSelectedOracle, bind, Except.bind, getItem_clamped filled nonneg, pure, Except.pure]
  by_cases chosen : first = oracleAddr
  · have one : 1 ≤ admitted amounts n onlyChosen blocks := by
      rw [admitted]
      split <;> omega
    have member : oracleAddr ∈ (first :: rest).take (admitted amounts n onlyChosen blocks) :=
      mem_take_of_le one (by simp [chosen])
    simp [chosen] at member ⊢
    exact member
  · have fallback := mem_take_cons rest some chosen
    cases onlyChosen with
    | true => simp [chosen, admitted, Ne.symm chosen]
    | false =>
      simp only [admitted, Bool.false_eq_true, if_false, fallback]
      by_cases member : oracleAddr ∈ ((first :: rest).take (width (getFallbackSequence amounts n) blocks)).tail
      · simp [chosen, member]
      · simp [chosen, member]

/-- Whether the sequence's last entry lets in every member: its end must not be the last position. -/
theorem last_width_iff (amounts : Bytes) (n : Nat) (some : 1 ≤ n) :
    n ≤ (getFallbackSequence amounts n).getLast (getFallbackSequence_ne_nil amounts n) ↔ configuredEnd amounts ≠ n - 1 := by
  have one : 1 ≤ configuredEnd amounts := by
    have member := List.getLast_mem (List.cons_ne_nil 1 (amounts.map (·.toNat + 1)))
    rw [getLast_configured] at member
    rcases List.mem_cons.mp member with same | configured
    · omega
    · obtain ⟨amount, _, same⟩ := List.mem_map.mp configured
      omega
  by_cases short : configuredEnd amounts + 1 < n
  · have last : (getFallbackSequence amounts n).getLast (getFallbackSequence_ne_nil amounts n) = n := by
      simp [getFallbackSequence_eq, short]
    omega
  · have last : (getFallbackSequence amounts n).getLast (getFallbackSequence_ne_nil amounts n) = configuredEnd amounts := by
      simp only [show getFallbackSequence amounts n = 1 :: amounts.map (·.toNat + 1) by
        rw [getFallbackSequence_eq, if_neg short], getLast_configured]
    omega

/-- Every selected oracle gets its chance exactly when the configured end is not
the number of oracles less one. Otherwise the last oracle never does. -/
theorem every_member_admitted_iff (amounts : Bytes) (addresses : List String) (some : 1 ≤ addresses.length)
    (distinct : addresses.Nodup) :
    (∀ member ∈ addresses, ∀ blocks : Int, ((getFallbackSequence amounts addresses.length).length : Int) - 1 ≤ blocks →
      canOraclePublish (Option.some blocks) member addresses (getFallbackSequence amounts addresses.length) false = .ok true) ↔
    configuredEnd amounts ≠ addresses.length - 1 := by
  have nonempty : addresses ≠ [] := List.length_pos_iff.mp some
  have filled := getFallbackSequence_ne_nil amounts addresses.length
  have lasting := List.length_pos_iff.mpr filled
  rw [← last_width_iff amounts _ some]
  constructor
  · intro every
    by_contra short
    have last := every (addresses.getLast nonempty) (List.getLast_mem nonempty)
      (((getFallbackSequence amounts addresses.length).length : Int) - 1) le_rfl
    rw [canOraclePublish_eq nonempty _ _ _ _ (by omega)] at last
    simp only [admitted, Bool.false_eq_true, if_false, width_of_last_le filled le_rfl, Except.ok.injEq,
      decide_eq_true_eq] at last
    have front : addresses.getLast nonempty ∈ addresses.dropLast := by
      rw [List.dropLast_eq_take]
      exact mem_take_of_le (by omega) last
    exact distinct.rel_dropLast_getLast front rfl
  · intro all member inside blocks late
    rw [canOraclePublish_eq nonempty _ _ _ _ (by omega)]
    simp only [admitted, Bool.false_eq_true, if_false, width_of_last_le filled late, List.take_of_length_le all, inside,
      decide_true]

theorem every_member_admitted_iff_three :
    let addresses := ["0xa1", "0xa2", "0xa3"]
    (1 ≤ addresses.length ∧ addresses.Nodup) ∧
    ((∀ member ∈ addresses, ∀ blocks : Int, ((getFallbackSequence [2] addresses.length).length : Int) - 1 ≤ blocks →
      canOraclePublish (some blocks) member addresses (getFallbackSequence [2] addresses.length) false = .ok true) ↔
    configuredEnd [2] ≠ addresses.length - 1) := by
  intro addresses
  have distinct : addresses.Nodup := by decide
  exact ⟨⟨by decide, distinct⟩, every_member_admitted_iff [2] addresses (by decide) distinct⟩

/-- Among twelve oracles and with the default amounts, the twelfth is never let in. -/
theorem last_of_twelve_shut_out :
    let amounts : Bytes := [2, 4, 6, 8, 10]
    let addresses := ["0xa1", "0xa2", "0xa3", "0xa4", "0xa5", "0xa6", "0xa7", "0xa8", "0xa9", "0xaa", "0xab", "0xac"]
    amounts.Pairwise (· ≤ ·) ∧ addresses.length = 12 ∧ addresses.Nodup ∧ "0xac" ∈ addresses ∧
    ∀ blocks : Int, ((getFallbackSequence amounts addresses.length).length : Int) - 1 ≤ blocks →
      canOraclePublish (some blocks) "0xac" addresses (getFallbackSequence amounts addresses.length) false = .ok false := by
  intro amounts addresses
  refine ⟨by decide, rfl, by decide, by decide, ?_⟩
  intro blocks late
  have filled := getFallbackSequence_ne_nil amounts addresses.length
  have lasting := List.length_pos_iff.mpr filled
  rw [canOraclePublish_eq (by decide) _ _ _ _ (by omega), admitted, if_neg (by decide), width_of_last_le filled late]
  rfl

end OmocNode.Proofs.FallbackSequence
