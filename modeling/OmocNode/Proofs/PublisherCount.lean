import OmocNode.Proofs.RoundDecisions

/-! How many nodes publish on one publication, however they run. Those that see
the same chain let each other in one after another, from the same order. -/

namespace OmocNode.Proofs.PublisherCount
open LoopRounds FallbackSequence Countdown RoundDecisions

private theorem admitted_mono {amounts : Bytes} (sorted : amounts.Pairwise (· ≤ ·)) (n : Nat) (onlyChosen : Bool) {early late : Int}
    (le : early ≤ late) : admitted amounts n onlyChosen early ≤ admitted amounts n onlyChosen late := by
  unfold admitted
  split
  · exact Nat.le_refl _
  · exact width_mono (getFallbackSequence_sorted sorted n) le

/-- One round of one node. -/
structure Round where
  setting : Setting
  oracleAddr : String
  runner : Runner

def Round.decided (round : Round) : Except PyError Decision × Runner := decision round.setting round.oracleAddr round.runner

/-- What the nodes have in common: the publication, the oracles and the configured amounts. -/
structure Era where
  lastPubBlockHash : Bytes
  selectedOracles : List FullOracleRoundInfo
  amounts : Bytes
  disableFallbacks : Bool

/-- The round takes place no later than a block, at a node that lets oracles in no earlier than another. -/
structure Within (era : Era) (opened last : Int) (round : Round) : Prop where
  disableFallbacks : round.setting.disableFallbacks = era.disableFallbacks
  amounts : (turnConfiguration round.runner).enteringFallbacksAmounts = era.amounts
  view : ∀ vi, blockchainInfo round.runner = some vi → vi.lastPubBlockHash = era.lastPubBlockHash ∧
    vi.selectedOracles = era.selectedOracles ∧ vi.blockNum ≤ last
  opens : ∀ vi block, blockchainInfo round.runner = some vi → Opens vi block round.decided.2 → opened ≤ block

def Publishes (round : Round) : Prop := ∃ oracles params place, round.decided.1 = .ok (.publish oracles params place)

variable {era : Era} {opened last : Int} {rounds : List Round}

private theorem place_of_publishes {round : Round} (sorted : era.amounts.Pairwise (· ≤ ·)) (within : Within era opened last round)
    (publishes : Publishes round) :
    ∃ order, SelectNext.selectNextAddresses era.lastPubBlockHash era.selectedOracles = .ok order ∧
      round.oracleAddr ∈ order.take (admitted era.amounts era.selectedOracles.length era.disableFallbacks (last - opened)) := by
  obtain ⟨oracles, params, fallbackIndex, decided⟩ := publishes
  obtain ⟨vi, block, order, place, info, -, -, -, -, opens, inTurn⟩ := inTurn_of_publish decided
  obtain ⟨sameHash, sameOracles, early⟩ := within.view vi info
  have late := within.opens vi block info opens
  refine ⟨order, by rw [← sameHash, ← sameOracles]; exact inTurn.selected, ?_⟩
  have here := inTurn.admitted
  rw [within.amounts, sameOracles, within.disableFallbacks] at here
  have less : place < admitted era.amounts era.selectedOracles.length era.disableFallbacks (last - opened) :=
    here.trans_le (admitted_mono sorted _ _ (by omega))
  obtain ⟨inside, same⟩ := List.getElem?_eq_some_iff.mp inTurn.here
  exact List.mem_take_iff_getElem.mpr ⟨place, by omega, same⟩

/-- On one publication no more oracles publish than the fallback sequence has let in by
the last block, and at most one with fallbacks disabled, in however many rounds. -/
theorem publishers_bounded (sorted : era.amounts.Pairwise (· ≤ ·))
    (each : ∀ round ∈ rounds, Within era opened last round ∧ Publishes round) :
    (rounds.map (·.oracleAddr)).dedup.length ≤
        admitted era.amounts era.selectedOracles.length era.disableFallbacks (last - opened) ∧
      (era.disableFallbacks = true → (rounds.map (·.oracleAddr)).dedup.length ≤ 1) := by
  have bounded : (rounds.map (·.oracleAddr)).dedup.length ≤
      admitted era.amounts era.selectedOracles.length era.disableFallbacks (last - opened) := by
    cases rounds with
    | nil => exact Nat.zero_le _
    | cons first rest =>
      obtain ⟨within, publishes⟩ := each first List.mem_cons_self
      obtain ⟨order, selected, -⟩ := place_of_publishes sorted within publishes
      have among : ((first :: rest).map (·.oracleAddr)).dedup ⊆
          order.take (admitted era.amounts era.selectedOracles.length era.disableFallbacks (last - opened)) := by
        intro addr member
        obtain ⟨round, listed, rfl⟩ := List.mem_map.mp (List.mem_dedup.mp member)
        obtain ⟨within', publishes'⟩ := each round listed
        obtain ⟨order', selected', here⟩ := place_of_publishes sorted within' publishes'
        obtain rfl := Except.ok.inj (selected.symm.trans selected')
        exact here
      exact ((List.nodup_dedup _).subperm among).length_le.trans (List.length_take_le _ _)
  refine ⟨bounded, ?_⟩
  intro disabled
  rw [disabled, admitted, if_pos rfl] at bounded
  exact bounded

section Exchange
open RequestChecks GatherSignatures TurnWindows

def sharedEra : Era := ⟨sharedView.lastPubBlockHash, sharedView.selectedOracles, sharedConfiguration.turn.enteringFallbacksAmounts, true⟩

def soleRound : Round :=
  { setting := { publishingRound with disableFallbacks := true }, oracleAddr := requesterAddr.text, runner := sharedRunner publishedPrice }

/-- The blocks from which the runner lets oracles in, before the price expires and after it changed. -/
def openings : Runner → Int × Int
  | .coinPair runner => (windowStart runner.conf.turn sharedView runner.oracleTurn.signal,
      runner.oracleTurn.priceChangeBlock + runner.conf.turn.pricePublishBlocks)
  | .tasks _ => (0, 0)

private theorem le_of_openings {runner : Runner} {block : Int} (found : openings runner = (393, 501))
    (opens : Opens sharedView block runner) : 393 ≤ block := by
  cases runner with
  | tasks runner => cases found
  | coinPair runner =>
    obtain ⟨expiry, change⟩ := Prod.mk.inj found
    rcases opens with same | ⟨-, same⟩
    · rw [same, expiry]
    · rw [same, change]
      decide

private theorem soleRound_within : Within sharedEra 393 500 soleRound where
  disableFallbacks := rfl
  amounts := rfl
  view := by
    intro vi known
    obtain rfl := Option.some.inj known
    decide
  opens := by
    intro vi block known
    obtain rfl := Option.some.inj known
    have found : openings soleRound.decided.2 = (393, 501) := by decide +kernel
    exact le_of_openings found

private theorem soleRound_publishes : Publishes soleRound := by
  refine ⟨[publishingOracle, signingOracle], .price exchangeParams, some 0, ?_⟩
  apply priceOf_eq_some
  decide +kernel

theorem publishers_bounded_sole :
    ([soleRound, soleRound].map (·.oracleAddr)).dedup.length ≤
        admitted sharedEra.amounts sharedEra.selectedOracles.length sharedEra.disableFallbacks (500 - 393) ∧
      (sharedEra.disableFallbacks = true → ([soleRound, soleRound].map (·.oracleAddr)).dedup.length ≤ 1) := by
  apply publishers_bounded (by decide)
  intro round listed
  obtain rfl : round = soleRound := by simpa using listed
  exact ⟨soleRound_within, soleRound_publishes⟩

end Exchange

end OmocNode.Proofs.PublisherCount
