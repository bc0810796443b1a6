import OmocNode.Proofs.Selection

/-! The stake buckets of a selection. They end at the running sums of the stakes,
so a draw above zero and up to the total falls into exactly one of them. -/

namespace OmocNode.Proofs.StakeBuckets
open SelectNext OmocNode.Lottery OmocNode.Proofs.Lottery OmocNode.Proofs.Selection

/-- A draw falls to position `i`: above the stakes before it, at most the stakes up to it. -/
def InBucket (l2 : List FullOracleRoundInfo) (draw : ℚ) (i : Nat) : Prop :=
  (totalStake (l2.take i) : ℚ) < draw ∧ draw ≤ totalStake (l2.take (i + 1))

private theorem totalStake_take_mono (l2 : List FullOracleRoundInfo) {i j : Nat} (le : i ≤ j) :
    totalStake (l2.take i) ≤ totalStake (l2.take j) := by
  apply List.Sublist.sum_le_sum
  · exact ((List.take_prefix_take_left le).sublist).map _
  · exact fun stake _ => Nat.zero_le stake

private theorem inBucket_unique {l2 : List FullOracleRoundInfo} {draw : ℚ} {i j : Nat} (left : InBucket l2 draw i)
    (right : InBucket l2 draw j) : i = j := by
  have ordered : ∀ {i j : Nat}, InBucket l2 draw i → InBucket l2 draw j → i ≤ j := by
    intro i j first second
    by_contra later
    have below : (totalStake (l2.take (j + 1)) : ℚ) ≤ totalStake (l2.take i) := by
      exact_mod_cast totalStake_take_mono l2 (by omega)
    exact absurd first.1 (not_lt.mpr (second.2.trans below))
  exact Nat.le_antisymm (ordered left right) (ordered right left)

private theorem totalStake_take_succ {l2 : List FullOracleRoundInfo} {i : Nat} (inside : i < l2.length) :
    totalStake (l2.take (i + 1)) = totalStake (l2.take i) + l2[i].stake := by
  rw [List.take_succ_eq_append_getElem inside, totalStake, List.map_append, List.sum_append]
  rfl

private theorem inBucket_stake {l2 : List FullOracleRoundInfo} {draw : ℚ} {i : Nat} (inside : i < l2.length)
    (bucket : InBucket l2 draw i) : 0 < l2[i].stake := by
  have wide : totalStake (l2.take i) < totalStake (l2.take (i + 1)) := by
    exact_mod_cast bucket.1.trans_le bucket.2
  rw [totalStake_take_succ inside] at wide
  omega

/-- The search over the buckets stops at the one the draw falls into. -/
theorem drawn_inBucket (hb : Digest) (oracles : List FullOracleRoundInfo)
    (positive : 0 < rndStake (totalStake oracles) hb) (within : rndStake (totalStake oracles) hb ≤ totalStake oracles) :
    drawn hb oracles < (shuffled hb oracles).length ∧
      InBucket (shuffled hb oracles) (rndStake (totalStake oracles) hb) (drawn hb oracles) := by
  have total : ((shuffled hb oracles).map getCappedStake).sum = totalStake oracles :=
    ((shuffled_perm hb oracles).map _).sum_eq
  obtain ⟨inside, below, above⟩ := place_bucket getCappedStake
    (fun limit => (limit : ℚ) < rndStake (totalStake oracles) hb) (shuffled hb oracles) 0
    (by simpa using positive) (by simpa [total] using within)
  rw [Nat.zero_add] at below above
  refine ⟨inside, ?_, ?_⟩
  · exact of_decide_eq_true below
  · exact not_lt.mp (of_decide_eq_false above)

/-- The loop takes every oracle once and every index is in range. The result turns
the shuffled list, and a draw within the total stake decides by the buckets who is first. -/
theorem selectFrom_buckets (hb : Digest) (oracles : List FullOracleRoundInfo) (few : oracles.length ≤ 32) :
    ∃ s ordered,
      shuffle hb oracles.length
        { l1 := oracles, totalStake := 0, l2 := [], stakeBuckets := [], idx := 0, lastRangeLimit := 0 } = .ok s ∧
      s.l1 = [] ∧ s.l2.Perm oracles ∧ s.totalStake = totalStake oracles ∧
      selectFrom hb oracles = .ok ordered ∧ ordered.Perm oracles ∧ (∃ start, ordered = s.l2.rotate start) ∧
      (0 < rndStake s.totalStake hb → rndStake s.totalStake hb ≤ s.totalStake →
        ∃ i first, InBucket s.l2 (rndStake s.totalStake hb) i ∧
          (∀ j, InBucket s.l2 (rndStake s.totalStake hb) j → j = i) ∧
          s.l2[i]? = some first ∧ ordered.head? = some first ∧ 0 < first.stake) := by
  refine ⟨_, _, shuffle_eq hb few, rfl, shuffled_perm hb oracles, rfl, selectFrom_eq hb few,
    (List.rotate_perm _ _).trans (shuffled_perm hb oracles), ⟨drawn hb oracles, rfl⟩, ?_⟩
  intro positive within
  obtain ⟨inside, bucket⟩ := drawn_inBucket hb oracles positive within
  have first := List.getElem?_eq_getElem inside
  refine ⟨drawn hb oracles, _, bucket, fun j other => inBucket_unique other bucket, first, ?_, inBucket_stake inside bucket⟩
  rw [List.head?_rotate inside]
  exact first

theorem selectFrom_buckets_three :
    let oracle (stake : Nat) : FullOracleRoundInfo :=
      let address : Address := ⟨"0x00000000000000000000000000000000000000aa", by decide⟩
      ⟨address, "http://oracle:5556", stake, address, 0, true, 1⟩
    let oracles := [oracle 20, oracle 0, oracle 45, oracle 20]
    let hb : Digest := Fin.ofNat (2 ^ 256) (0xd2dc23 * 2 ^ 232)
    oracles.length ≤ 32 ∧ 0 < rndStake 85 hb ∧ rndStake 85 hb ≤ 85 ∧
      ∃ i first, InBucket (shuffled hb oracles) (rndStake 85 hb) i ∧ (shuffled hb oracles)[i]? = some first ∧
        0 < first.stake := by
  intro oracle oracles hb
  have positive : 0 < rndStake 85 hb := by decide +kernel
  have within : rndStake 85 hb ≤ 85 := by decide +kernel
  obtain ⟨s, ordered, run, _, _, total, _, _, _, drawn⟩ := selectFrom_buckets hb oracles (by decide)
  have same := Except.ok.inj (run.symm.trans (shuffle_eq hb (by decide)))
  have sum : s.totalStake = 85 := total
  rw [sum] at drawn
  obtain ⟨i, first, bucket, _, at_i, _, funded⟩ := drawn positive within
  subst same
  exact ⟨by decide, positive, within, i, first, bucket, at_i, funded⟩

end OmocNode.Proofs.StakeBuckets
