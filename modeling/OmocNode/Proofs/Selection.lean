import OmocNode.Proofs.Lottery
import OmocNode.SelectNext

/-! The selection loop runs to its end on every list of at most 32 oracles. Its
result is a rotation of a shuffle of the list, so nobody is lost or repeated. -/

namespace OmocNode.Proofs.Selection
open SelectNext OmocNode.Lottery OmocNode.Proofs.Lottery

def byteAt (hb : Digest) (idx : Nat) : Nat := digit 256 32 hb.val idx

/-- The list `l2` the loop builds. -/
def shuffled (hb : Digest) (oracles : List FullOracleRoundInfo) : List FullOracleRoundInfo :=
  deal (byteAt hb) oracles.length 0 oracles

def totalStake (oracles : List FullOracleRoundInfo) : Nat := (oracles.map getCappedStake).sum

/-- Position of the stake draw among the shuffled oracles. -/
def drawn (hb : Digest) (oracles : List FullOracleRoundInfo) : Nat :=
  place getCappedStake (fun limit => (limit : ℚ) < rndStake (totalStake oracles) hb) 0 (shuffled hb oracles)

private theorem shuffle_run (hb : Digest) : ∀ (rounds : Nat) (s : Shuffle), s.l1.length = rounds → s.idx + rounds ≤ 32 →
    shuffle hb rounds s = .ok
      { l1 := []
        totalStake := s.totalStake + totalStake (deal (byteAt hb) rounds s.idx s.l1)
        l2 := s.l2 ++ deal (byteAt hb) rounds s.idx s.l1
        stakeBuckets := s.stakeBuckets ++ buckets getCappedStake s.lastRangeLimit (deal (byteAt hb) rounds s.idx s.l1)
        idx := s.idx + rounds
        lastRangeLimit := s.lastRangeLimit + totalStake (deal (byteAt hb) rounds s.idx s.l1) } := by
  intro rounds
  induction rounds with
  | zero =>
    intro shuffled none _
    obtain ⟨l1, total, l2, limits, idx, limit⟩ := shuffled
    obtain rfl : l1 = [] := List.length_eq_zero_iff.mp none
    simp [shuffle, deal, buckets, totalStake]
  | succ rounds ih =>
    intro shuffled length bounded
    obtain ⟨l1, total, l2, limits, idx, limit⟩ := shuffled
    obtain ⟨inside, first, left⟩ := deal_succ (byteAt hb) idx length
    have byte : digestByte hb idx = .ok (byteAt hb idx) := if_pos (show idx < 32 by simp only at bounded; omega)
    have taken : shuffleStep hb ⟨l1, total, l2, limits, idx, limit⟩ = .ok
        { l1 := l1.eraseIdx (byteAt hb idx % l1.length)
          totalStake := total + getCappedStake l1[byteAt hb idx % l1.length]
          l2 := l2 ++ [l1[byteAt hb idx % l1.length]]
          stakeBuckets := limits ++ [limit + getCappedStake l1[byteAt hb idx % l1.length]]
          idx := idx + 1
          lastRangeLimit := limit + getCappedStake l1[byteAt hb idx % l1.length] } := by
      simp only [shuffleStep, byte, bind, Except.bind, List.getElem?_eq_getElem inside]
      rfl
    rw [shuffle, if_pos (by simp only at length ⊢; omega), taken]
    simp only at bounded first
    have rest := ih ⟨_, total + getCappedStake l1[byteAt hb idx % l1.length], l2 ++ [l1[byteAt hb idx % l1.length]],
      limits ++ [limit + getCappedStake l1[byteAt hb idx % l1.length]], idx + 1,
      limit + getCappedStake l1[byteAt hb idx % l1.length]⟩ left (by simp only; omega)
    change shuffle hb rounds _ = _
    rw [rest, first]
    simp [buckets, totalStake, Nat.add_comm, Nat.add_left_comm]

private theorem select_rotates (kept : List FullOracleRoundInfo) (start : Nat) :
    List.ofFn (fun i : Fin kept.length => kept.get ⟨(start + i) % kept.length, Nat.mod_lt _ i.pos⟩) = kept.rotate start := by
  apply List.ext_getElem (by simp)
  intro i inside _
  simp [List.getElem_rotate, Nat.add_comm]

/-- The variables of the selection when its loop is left. -/
theorem shuffle_eq (hb : Digest) {oracles : List FullOracleRoundInfo} (few : oracles.length ≤ 32) :
    shuffle hb oracles.length
      { l1 := oracles, totalStake := 0, l2 := [], stakeBuckets := [], idx := 0, lastRangeLimit := 0 } = .ok
        { l1 := []
          totalStake := totalStake oracles
          l2 := shuffled hb oracles
          stakeBuckets := buckets getCappedStake 0 (shuffled hb oracles)
          idx := oracles.length
          lastRangeLimit := totalStake oracles } := by
  have sum : totalStake (deal (byteAt hb) oracles.length 0 oracles) = totalStake oracles :=
    ((deal_perm (byteAt hb) _ 0 oracles rfl).map _).sum_eq
  have run := shuffle_run hb oracles.length ⟨oracles, 0, [], [], 0, 0⟩ rfl (by simpa using few)
  rw [run]
  simp only [List.nil_append, Nat.zero_add, sum, shuffled]

/-- What a selection returns: the shuffled oracles from the drawn one on, around the end of the list. -/
theorem selectFrom_eq (hb : Digest) {oracles : List FullOracleRoundInfo} (few : oracles.length ≤ 32) :
    selectFrom hb oracles = .ok ((shuffled hb oracles).rotate (drawn hb oracles)) := by
  by_cases empty : oracles.length = 0
  · obtain rfl : oracles = [] := List.length_eq_zero_iff.mp empty
    rfl
  · rw [selectFrom, if_neg empty, if_neg (by omega), shuffle_eq hb few]
    change Except.ok _ = _
    rw [select_rotates]
    rfl

theorem shuffled_perm (hb : Digest) (oracles : List FullOracleRoundInfo) : (shuffled hb oracles).Perm oracles :=
  deal_perm _ _ _ _ rfl

private theorem selectNext_perm {hash : Bytes} {oracles ordered : List FullOracleRoundInfo}
    (selected : selectNext hash oracles = .ok ordered) : ordered.Perm oracles := by
  by_cases few : oracles.length ≤ 32
  · rw [selectNext, selectFrom_eq _ few] at selected
    obtain rfl := Except.ok.inj selected
    exact (List.rotate_perm _ _).trans (shuffled_perm _ _)
  · rw [selectNext, selectFrom, if_neg (by omega), if_pos (by omega)] at selected
    cases selected

theorem selectNextAddresses_ok (hash : Bytes) {oracles : List FullOracleRoundInfo} (few : oracles.length ≤ 32) :
    ∃ addresses, selectNextAddresses hash oracles = .ok addresses := by
  rw [selectNextAddresses, selectNext, selectFrom_eq _ few]
  exact ⟨_, rfl⟩

theorem selectNextAddresses_perm {hash : Bytes} {oracles : List FullOracleRoundInfo} {addresses : List String}
    (selected : selectNextAddresses hash oracles = .ok addresses) : addresses.Perm (oracles.map (·.addr.text)) := by
  rw [selectNextAddresses] at selected
  cases ordered : selectNext hash oracles with
  | error failure => simp [ordered, Except.map] at selected
  | ok ordering =>
    simp only [ordered, Except.map, Except.ok.injEq] at selected
    rw [← selected]
    exact (selectNext_perm ordered).map _

end OmocNode.Proofs.Selection
