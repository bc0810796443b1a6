import Mathlib.Data.List.GetD
import Mathlib.Data.List.Pairwise

/-! A queue whose members are let in by order as time passes. A list of widths
says how many are in after each tick; its last width stays in force. -/

namespace OmocNode.Proofs.Countdown

def width (widths : List Nat) (elapsed : Int) : Nat := widths.getD (min elapsed.toNat (widths.length - 1)) 0

theorem width_mem {widths : List Nat} (nonempty : widths ≠ []) (elapsed : Int) : width widths elapsed ∈ widths := by
  have some := List.length_pos_iff.mpr nonempty
  have inside : min elapsed.toNat (widths.length - 1) < widths.length := by omega
  rw [width, List.getD_eq_getElem _ _ inside]
  exact List.getElem_mem inside

theorem width_mono {widths : List Nat} (sorted : widths.Pairwise (· ≤ ·)) {early late : Int} (le : early ≤ late) :
    width widths early ≤ width widths late := by
  rcases widths.eq_nil_or_concat with rfl | ⟨front, last, shape⟩
  · simp [width]
  · have some : 0 < widths.length := by simp [shape]
    have first : min early.toNat (widths.length - 1) < widths.length := by omega
    have second : min late.toNat (widths.length - 1) < widths.length := by omega
    rw [width, width, List.getD_eq_getElem _ _ first, List.getD_eq_getElem _ _ second]
    rcases Nat.lt_or_eq_of_le (show min early.toNat (widths.length - 1) ≤ min late.toNat (widths.length - 1) by omega) with less | same
    · exact List.pairwise_iff_getElem.mp sorted _ _ first second less
    · simp only [same, Nat.le_refl]

theorem width_of_last_le {widths : List Nat} (nonempty : widths ≠ []) {elapsed : Int}
    (late : (widths.length : Int) - 1 ≤ elapsed) : width widths elapsed = widths.getLast nonempty := by
  have some := List.length_pos_iff.mpr nonempty
  have index : min elapsed.toNat (widths.length - 1) = widths.length - 1 := by omega
  rw [width, index, List.getD_eq_getElem _ _ (by omega), List.getLast_eq_getElem]

/-- Both bounds on the width bound the members let in. -/
theorem mem_take_of_le {α : Type*} {queue : List α} {item : α} {few many : Nat} (le : few ≤ many) (member : item ∈ queue.take few) :
    item ∈ queue.take many :=
  (List.take_prefix_take_left le).subset member

end OmocNode.Proofs.Countdown
