import OmocNode.Proofs.DecimalRounding
import OmocNode.Proofs.Selection
import Mathlib.Data.Fintype.Fin

/-! How often each oracle is the first choice, over all digests. The leading
byte of a digest orders the oracles and is also the leading byte of the stake
draw, so an oracle's share of the digests follows its stake as finely as the
bytes with one remainder lie among all. -/

namespace OmocNode.Proofs.StakeLottery
open SelectNext Decimal Finset
open OmocNode.Lottery OmocNode.Proofs.Lottery OmocNode.Proofs.Selection OmocNode.Proofs.DecimalRounding

def firstSelected (hb : Digest) (oracles : List FullOracleRoundInfo) : Option FullOracleRoundInfo :=
  (selectFrom hb oracles).toOption >>= List.head?

def timesFirst (oracle : FullOracleRoundInfo) (oracles : List FullOracleRoundInfo) : Nat :=
  (univ.filter fun hb : Digest => firstSelected hb oracles = some oracle).card

/-- An oracle's part of the stake. -/
def stakeShare (oracle : FullOracleRoundInfo) (oracles : List FullOracleRoundInfo) : ℚ := oracle.stake / totalStake oracles

/-- The part of the digests for which an oracle is first. -/
def digestShare (oracle : FullOracleRoundInfo) (oracles : List FullOracleRoundInfo) : ℚ := timesFirst oracle oracles / 2 ^ 256

/-- Number of digests whose stake draw is at most `bound`. -/
def reach (total bound : Nat) : Nat := bisect (fun k => rndStake total (Fin.ofNat (2 ^ 256) k) ≤ bound) 256 0

private theorem rndStake_mono (total : Nat) {hb hb' : Digest} (le : hb ≤ hb') : rndStake total hb ≤ rndStake total hb' := by
  have product : (total : ℚ) * hb.val ≤ (total : ℚ) * hb'.val :=
    mul_le_mul_of_nonneg_left (by exact_mod_cast le) (Nat.cast_nonneg _)
  have start : (0 : ℚ) ≤ (total : ℚ) * hb.val := mul_nonneg (Nat.cast_nonneg _) (Nat.cast_nonneg _)
  have numerator := rounded_mono (by decide : 1 < 10) 28 start product (by decide)
  have nonneg := rounded_nonneg (by decide : 1 < 10) 28 start (by decide)
  exact rounded_mono (by decide) 28 (div_nonneg nonneg (Nat.cast_nonneg _))
    (div_le_div_of_nonneg_right numerator (Nat.cast_nonneg _)) (by decide)

private theorem reach_spec (total bound : Nat) : reach total bound ≤ 2 ^ 256 ∧
    ∀ hb : Digest, hb.val < reach total bound ↔ rndStake total hb ≤ bound := by
  have spec := bisect_spec (fun k => rndStake total (Fin.ofNat (2 ^ 256) k) ≤ bound) 256 0 (by
    intro low high _ le below drawn
    simp only [decide_eq_true_eq] at drawn ⊢
    apply (rndStake_mono total _).trans drawn
    simp only [Fin.le_def, Fin.ofNat]
    rw [Nat.mod_eq_of_lt (by omega), Nat.mod_eq_of_lt (by omega)]
    exact le)
  refine ⟨spec.1, ?_⟩
  intro hb
  have here := spec.2 hb.val (Nat.zero_le _) (by simp)
  rw [Nat.zero_add, decide_eq_true_eq] at here
  rw [reach, ← here]
  simp

theorem lt_reach_iff (total bound : Nat) (hb : Digest) : hb.val < reach total bound ↔ rndStake total hb ≤ bound :=
  (reach_spec total bound).2 hb

private theorem reach_mono (total : Nat) : Monotone (reach total) := by
  intro low high le
  by_contra above
  rw [not_le] at above
  let hb : Digest := ⟨reach total high, above.trans_le (reach_spec total low).1⟩
  have drawn : rndStake total hb ≤ low := (lt_reach_iff total low hb).mp above
  exact lt_irrefl hb.val ((lt_reach_iff total high hb).mpr (drawn.trans (by exact_mod_cast le)))

/-- The draw is the digest's part of the total, up to the rounding of two operations. -/
theorem rndStake_close (total : Nat) (hb : Digest) :
    (1 - 1 / (2 * 10 ^ 27)) ^ 2 * ((total : ℚ) * hb.val / maxInt) ≤ rndStake total hb ∧
      rndStake total hb ≤ (1 + 1 / (2 * 10 ^ 27)) ^ 2 * ((total : ℚ) * hb.val / maxInt) := by
  have product : (0 : ℚ) ≤ (total : ℚ) * hb.val := mul_nonneg (Nat.cast_nonneg _) (Nat.cast_nonneg _)
  have largest : (0 : ℚ) < maxInt := by exact_mod_cast (by decide : 0 < maxInt)
  have first := abs_le.mp (rounded_close (by decide : 1 < 10) 28 product (by decide))
  have numerator := rounded_nonneg (by decide : 1 < 10) 28 product (by decide)
  have quotient := div_nonneg numerator largest.le
  have second := abs_le.mp (rounded_close (by decide : 1 < 10) 28 quotient (by decide))
  have lower : (1 - 1 / (2 * 10 ^ 27)) * ((total : ℚ) * hb.val / maxInt) ≤ rounded 10 28 ((total : ℚ) * hb.val) / maxInt := by
    rw [← mul_div_assoc]
    apply div_le_div_of_nonneg_right _ largest.le
    linarith [first.1]
  have upper : rounded 10 28 ((total : ℚ) * hb.val) / maxInt ≤ (1 + 1 / (2 * 10 ^ 27)) * ((total : ℚ) * hb.val / maxInt) := by
    rw [← mul_div_assoc]
    apply div_le_div_of_nonneg_right _ largest.le
    linarith [first.2]
  unfold rndStake
  constructor
  · linarith [second.1]
  · linarith [second.2]

/-- How far the ends of the draws may be from where exact arithmetic would put them. -/
def drawSlack : ℚ := 2 ^ 256 * (2 / 10 ^ 27)

private theorem reach_close {total bound : Nat} (funded : 0 < total) (within : bound ≤ total) :
    |(reach total bound : ℚ) - 2 ^ 256 / total * bound| ≤ drawSlack := by
  have positive : (0 : ℚ) < total := by exact_mod_cast funded
  have largest : (maxInt : ℚ) = 2 ^ 256 - 1 := by norm_num [maxInt]
  have bounded : (reach total bound : ℚ) ≤ 2 ^ 256 := by exact_mod_cast (reach_spec total bound).1
  have part : (bound : ℚ) / total ≤ 1 := (div_le_one positive).mpr (by exact_mod_cast within)
  have some : (0 : ℚ) ≤ (bound : ℚ) / total := by positivity
  have unscaled : ∀ factor digest : ℚ, factor * (total * digest / maxInt) * (maxInt / total) = factor * digest := by
    intro factor digest
    have nonzero : (maxInt : ℚ) ≠ 0 := by rw [largest]; norm_num
    field_simp
  have scale : (0 : ℚ) ≤ maxInt / total := by rw [largest]; positivity
  have above : (maxInt : ℚ) * (bound / total) ≤ (1 + 1 / (2 * 10 ^ 27)) ^ 2 * reach total bound := by
    rcases (reach_spec total bound).1.lt_or_eq with inside | all
    · -- The first digest that is not reached draws more than the bound.
      let hb : Digest := ⟨reach total bound, inside⟩
      have passes : (bound : ℚ) < rndStake total hb := not_le.mp fun drawn => lt_irrefl _ ((lt_reach_iff total bound hb).mpr drawn)
      have drawn := mul_le_mul_of_nonneg_right (passes.le.trans (rndStake_close total hb).2) scale
      rw [unscaled] at drawn
      calc (maxInt : ℚ) * (bound / total) = bound * (maxInt / total) := by ring
        _ ≤ (1 + 1 / (2 * 10 ^ 27)) ^ 2 * reach total bound := drawn
    · rw [all, largest]
      push_cast
      linarith
  have below : (1 - 1 / (2 * 10 ^ 27)) ^ 2 * ((reach total bound : ℚ) - 1) ≤ maxInt * (bound / total) := by
    rcases Nat.eq_zero_or_pos (reach total bound) with none | some_reached
    · rw [none, largest]
      push_cast
      linarith
    · -- The last digest that is reached draws the bound at most.
      let hb : Digest := ⟨reach total bound - 1, by have := (reach_spec total bound).1; omega⟩
      have drawn : rndStake total hb ≤ bound := (lt_reach_iff total bound hb).mp (by simp only [hb]; omega)
      have scaled := mul_le_mul_of_nonneg_right ((rndStake_close total hb).1.trans drawn) scale
      rw [unscaled] at scaled
      have digest : (hb.val : ℚ) = reach total bound - 1 := by
        simp only [hb]
        rw [Nat.cast_sub some_reached, Nat.cast_one]
      calc (1 - 1 / (2 * 10 ^ 27) : ℚ) ^ 2 * ((reach total bound : ℚ) - 1) = (1 - 1 / (2 * 10 ^ 27) : ℚ) ^ 2 * hb.val := by rw [digest]
        _ ≤ (bound : ℚ) * (maxInt / total) := scaled
        _ = maxInt * (bound / total) := by ring
  have exact : (2 : ℚ) ^ 256 / total * bound = 2 ^ 256 * (bound / total) := by ring
  rw [exact, drawSlack, abs_le]
  rw [largest] at above below
  constructor
  · linarith
  · linarith

section Share
variable {oracle : FullOracleRoundInfo} {oracles : List FullOracleRoundInfo}

/-- The digests with one remainder order the oracles alike. -/
def cycle (oracles : List FullOracleRoundInfo) : Nat := 256 ^ 31 * oracles.length

def orderOf (oracles : List FullOracleRoundInfo) (remainder : Nat) : List FullOracleRoundInfo :=
  deal (digit 256 32 remainder) oracles.length 0 oracles

/-- The digests with a remainder that draw the oracle. -/
def bucketOf (oracle : FullOracleRoundInfo) (oracles : List FullOracleRoundInfo) (remainder : Nat) : Nat × Nat :=
  bucket getCappedStake (reach (totalStake oracles)) oracle 0 0 (orderOf oracles remainder)

private theorem orderOf_perm (remainder : Nat) : (orderOf oracles remainder).Perm oracles := deal_perm _ _ _ _ rfl

private theorem orderOf_stake (remainder : Nat) : ((orderOf oracles remainder).map getCappedStake).sum = totalStake oracles :=
  ((orderOf_perm remainder).map _).sum_eq

private theorem shuffled_eq_orderOf (hb : Digest) (nonempty : oracles ≠ []) (few : oracles.length ≤ 32) :
    shuffled hb oracles = orderOf oracles (hb.val % cycle oracles) := by
  have bytes : hb.val < 256 ^ 32 := hb.isLt.trans_eq (by norm_num)
  exact deal_digit_congr bytes ((Nat.mod_le _ _).trans_lt bytes) nonempty few (Nat.mod_modEq _ _).symm

/-- An oracle is first for the digests of its bucket, and it may be for those that pass every bucket. -/
theorem firstSelected_bucket (hb : Digest) (distinct : oracles.Nodup) (few : oracles.length ≤ 32) (member : oracle ∈ oracles) :
    ((bucketOf oracle oracles (hb.val % cycle oracles)).1 ≤ hb.val ∧ hb.val < (bucketOf oracle oracles (hb.val % cycle oracles)).2 →
      firstSelected hb oracles = some oracle) ∧
    (firstSelected hb oracles = some oracle →
      ((bucketOf oracle oracles (hb.val % cycle oracles)).1 ≤ hb.val ∧ hb.val < (bucketOf oracle oracles (hb.val % cycle oracles)).2) ∨
        reach (totalStake oracles) (totalStake oracles) ≤ hb.val) := by
  have order := shuffled_eq_orderOf hb (List.ne_nil_of_mem member) few
  have passed : (fun limit : Nat => decide ((limit : ℚ) < rndStake (totalStake oracles) hb)) =
      fun limit => decide (reach (totalStake oracles) limit ≤ hb.val) := by
    funext limit
    rw [decide_eq_decide, ← not_lt, lt_reach_iff, not_le]
  have first : firstSelected hb oracles = ((orderOf oracles (hb.val % cycle oracles)).rotate
      (place getCappedStake (fun bound => reach (totalStake oracles) bound ≤ hb.val) 0 (orderOf oracles (hb.val % cycle oracles)))).head? := by
    rw [firstSelected, selectFrom_eq hb few, drawn, passed, order]
    rfl
  have here := @getElem?_place_iff _ _ getCappedStake _ oracle hb.val (reach_mono (totalStake oracles)) _
    ((orderOf_perm (hb.val % cycle oracles)).nodup_iff.mpr distinct) ((orderOf_perm _).mem_iff.mpr member) 0 0 (Nat.zero_le _)
  have turned := @head?_rotate_place _ getCappedStake _ oracle (reach_mono (totalStake oracles)) (orderOf oracles (hb.val % cycle oracles))
    hb.val
  rw [first, bucketOf, ← here]
  rw [orderOf_stake] at turned
  exact turned

private theorem card_digests (P : Nat → Prop) [DecidablePred P] :
    (univ.filter fun hb : Digest => P hb.val).card = ((range (2 ^ 256)).filter P).card := by
  rw [← Nat.Iio_eq_range, ← Fin.map_valEmbedding_univ, filter_map, card_map]
  rfl

/-- The digests of an oracle's buckets, whatever they leave as remainder. -/
def digestsOf (oracle : FullOracleRoundInfo) (oracles : List FullOracleRoundInfo) : Finset Nat :=
  (range (2 ^ 256)).filter fun x =>
    (bucketOf oracle oracles (x % cycle oracles)).1 ≤ x ∧ x < (bucketOf oracle oracles (x % cycle oracles)).2

private theorem timesFirst_bounds (distinct : oracles.Nodup) (few : oracles.length ≤ 32) (member : oracle ∈ oracles) :
    (digestsOf oracle oracles).card ≤ timesFirst oracle oracles ∧
      timesFirst oracle oracles ≤ (digestsOf oracle oracles).card + (2 ^ 256 - reach (totalStake oracles) (totalStake oracles)) := by
  rw [timesFirst, digestsOf, ← card_digests]
  constructor
  · exact card_le_card (monotone_filter_right _ fun hb _ => (firstSelected_bucket hb distinct few member).1)
  · have late : (univ.filter fun hb : Digest => reach (totalStake oracles) (totalStake oracles) ≤ hb.val).card =
        2 ^ 256 - reach (totalStake oracles) (totalStake oracles) := by
      rw [card_digests fun x => reach (totalStake oracles) (totalStake oracles) ≤ x, card_late]
    rw [← late]
    apply (card_le_card _).trans (card_union_le _ _)
    rw [← filter_or]
    exact monotone_filter_right _ fun hb _ => (firstSelected_bucket hb distinct few member).2

/-- The number of digests for which an oracle is first is its part by stake, up to one cycle. -/
theorem timesFirst_close (distinct : oracles.Nodup) (few : oracles.length ≤ 32) (funded : 0 < totalStake oracles)
    (member : oracle ∈ oracles) :
    |(timesFirst oracle oracles : ℚ) - 2 ^ 256 / totalStake oracles * oracle.stake| < cycle oracles + 3 * drawSlack := by
  have positive : 0 < cycle oracles := Nat.mul_pos (by decide) (List.length_pos_of_mem member)
  have nonneg : (0 : ℚ) < totalStake oracles := by exact_mod_cast funded
  have count : |((digestsOf oracle oracles).card : ℚ) - 2 ^ 256 / totalStake oracles * oracle.stake| <
      cycle oracles + 2 * drawSlack := by
    rw [digestsOf]
    refine @card_remainders_close _ positive _ (fun v => (bucketOf oracle oracles v).1) (fun v => (bucketOf oracle oracles v).2) _ _
      ?_ ?_ ?_
    · exact fun _ _ => (start_le_bucket (reach_mono _) (Nat.zero_le _)).2
    · exact fun _ _ => bucket_le (fun limit => (reach_spec (totalStake oracles) limit).1) (Nat.zero_le _)
    · intro remainder _
      apply @bucket_close _ _ getCappedStake _ _ _ _ _ fun limit le => reach_close funded le
      · exact (orderOf_perm remainder).mem_iff.mpr member
      · rw [orderOf_stake, Nat.zero_add]
      · rw [Nat.cast_zero, mul_zero, sub_zero, abs_zero]
        exact mul_nonneg (by positivity) (by norm_num)
  obtain ⟨least, most⟩ := timesFirst_bounds distinct few member
  have late := abs_le.mp (reach_close funded (le_refl (totalStake oracles)))
  rw [div_mul_cancel₀ _ nonneg.ne'] at late
  have least : ((digestsOf oracle oracles).card : ℚ) ≤ timesFirst oracle oracles := by exact_mod_cast least
  have most : (timesFirst oracle oracles : ℚ) ≤ (digestsOf oracle oracles).card +
      (2 ^ 256 - reach (totalStake oracles) (totalStake oracles)) := by
    have cast := Nat.cast_sub (R := ℚ) (reach_spec (totalStake oracles) (totalStake oracles)).1
    rw [Nat.cast_pow, Nat.cast_ofNat] at cast
    rw [← cast]
    exact_mod_cast most
  rw [abs_lt] at count ⊢
  constructor <;> linarith [count.1, count.2, late.1]

/-- Selection is proportional to stake up to the leading byte: the more oracles, the coarser. -/
theorem shares_close (oracles : List FullOracleRoundInfo) (distinct : oracles.Nodup) (few : oracles.length ≤ 32)
    (funded : 0 < totalStake oracles) (oracle : FullOracleRoundInfo) (member : oracle ∈ oracles) :
    |stakeShare oracle oracles - digestShare oracle oracles| < oracles.length / 256 + 1 / 10 ^ 26 := by
  have size : (0 : ℚ) < 2 ^ 256 := by positivity
  have scaled : stakeShare oracle oracles - digestShare oracle oracles =
      -(((timesFirst oracle oracles : ℚ) - 2 ^ 256 / totalStake oracles * oracle.stake) / 2 ^ 256) := by
    have nonzero : (totalStake oracles : ℚ) ≠ 0 := by exact_mod_cast funded.ne'
    rw [stakeShare, digestShare]
    field_simp
    ring
  have period : (cycle oracles : ℚ) / 2 ^ 256 = oracles.length / 256 := by
    rw [cycle]
    push_cast
    ring
  rw [scaled, abs_neg, abs_div, abs_of_pos size]
  calc |(timesFirst oracle oracles : ℚ) - 2 ^ 256 / totalStake oracles * oracle.stake| / 2 ^ 256
      < (cycle oracles + 3 * drawSlack) / 2 ^ 256 := div_lt_div_of_pos_right (timesFirst_close distinct few funded member) size
    _ = oracles.length / 256 + 3 * (2 / 10 ^ 27) := by
      rw [add_div, period, drawSlack]
      ring
    _ ≤ oracles.length / 256 + 1 / 10 ^ 26 := by linarith

end Share

def majorOracle : FullOracleRoundInfo :=
  let address : Address := ⟨"0x00000000000000000000000000000000000000aa", by decide⟩
  ⟨address, "http://major:5556", 999, address, 0, true, 1⟩

def minorOracle : FullOracleRoundInfo :=
  let address : Address := ⟨"0x00000000000000000000000000000000000000bb", by decide⟩
  ⟨address, "http://minor:5556", 1, address, 0, true, 1⟩

theorem shares_close_minor :
    |stakeShare minorOracle [majorOracle, minorOracle] - digestShare minorOracle [majorOracle, minorOracle]| <
      ([majorOracle, minorOracle].length : ℚ) / 256 + 1 / 10 ^ 26 :=
  shares_close [majorOracle, minorOracle] (by decide) (by decide) (by decide) minorOracle (by simp)

/-- The ratio of the shares has no such bound. An even leading byte puts the minor oracle last,
where only a draw near the total would reach it, and such a draw has leading byte 255. An odd one
puts it in front, where only a draw near zero would, and such a draw has leading byte 0. -/
theorem minor_never_first (hb : Digest) : firstSelected hb [majorOracle, minorOracle] ≠ some minorOracle := by
  have lead : byteAt hb 0 = hb.val / 256 ^ 31 % 256 := rfl
  have total : totalStake [majorOracle, minorOracle] = 1000 := rfl
  rw [firstSelected, selectFrom_eq hb (by decide), drawn, total]
  rcases Nat.mod_two_eq_zero_or_one (byteAt hb 0) with even | odd
  · have order : shuffled hb [majorOracle, minorOracle] = [majorOracle, minorOracle] := by
      simp [shuffled, deal, even, Nat.mod_one]
    have below : hb ≤ Fin.ofNat (2 ^ 256) (255 * 256 ^ 31) := by
      simp only [Fin.le_def, Fin.ofNat]
      omega
    have draw : rndStake 1000 hb ≤ 999 := (rndStake_mono 1000 below).trans (by decide +kernel)
    have first : place getCappedStake (fun limit => (limit : ℚ) < rndStake 1000 hb) 0 [majorOracle, minorOracle] = 0 := by
      rw [place_cons, if_neg]
      simpa [majorOracle, getCappedStake] using draw
    rw [order, first]
    decide
  · have order : shuffled hb [majorOracle, minorOracle] = [minorOracle, majorOracle] := by
      simp [shuffled, deal, odd, Nat.mod_one]
    have above : Fin.ofNat (2 ^ 256) (256 ^ 31) ≤ hb := by
      simp only [Fin.le_def, Fin.ofNat]
      omega
    have draw : 1 < rndStake 1000 hb := lt_of_lt_of_le (by decide +kernel) (rndStake_mono 1000 above)
    have top : rndStake 1000 hb ≤ 1000 := (rndStake_mono 1000 (Fin.le_last hb)).trans (by decide +kernel)
    have second : place getCappedStake (fun limit => (limit : ℚ) < rndStake 1000 hb) 0 [minorOracle, majorOracle] = 1 := by
      rw [place_cons, if_pos (by simpa [minorOracle, getCappedStake] using draw), place_cons, if_neg]
      simpa [minorOracle, majorOracle, getCappedStake] using top
    rw [order, second]
    decide

end OmocNode.Proofs.StakeLottery
