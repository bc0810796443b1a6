import OmocNode.Proofs.TurnWindows

/-! The turn object remembers one price change. Over any run of checks that is
the first change seen since the price was last published. A check that raises
sees no change, and leaves what is remembered. -/

namespace OmocNode.Proofs.PriceChangeLatch
open PriceOracleTurn TurnWindows StateFrame PriceDistance

/-- One call of the price check. The signal is an argument of it, and may be in
another state at each call. -/
structure Check where
  conf : OracleTurnConfiguration
  blockChainInfo : OracleBlockchainInfo
  exchangePrice : PriceWithTimestamp
  signal : Signal

namespace Check

def lastPubBlock (check : Check) : Int := check.blockChainInfo.lastPubBlock

def blockNum (check : Check) : Int := check.blockChainInfo.blockNum

def run (check : Check) (turn : PriceOracleTurn) : EStateM.Result PyError PriceOracleTurn (Option Int) :=
  priceChangedBlocks check.conf check.blockChainInfo check.exchangePrice { turn with signal := check.signal }

/-- The turn object after the call, which keeps what it recorded even if it raises. -/
def after (turn : PriceOracleTurn) (check : Check) : PriceOracleTurn :=
  match check.run turn with
  | .ok _ after => after
  | .error _ after => after

def seesChange (check : Check) : Bool :=
  match Helpers.priceDelta check.blockChainInfo.blockchainPrice check.exchangePrice.price with
  | .ok delta => !delta.lt (.finite (check.signal.getPriceDelta check.conf.priceDeltaPct).1)
  | .error _ => false

end Check

structure Valid (checks : List Check) : Prop where
  blocks : ∀ check ∈ checks, 0 ≤ check.lastPubBlock ∧ 0 ≤ check.blockNum
  publications : checks.Pairwise fun earlier later => earlier.lastPubBlock ≤ later.lastPubBlock

/-- Block of the first call, among those made while a publication was the last
one, that saw the price change. -/
def firstChange (publication : Int) (checks : List Check) : Option Int :=
  ((checks.filter (·.lastPubBlock = publication)).find? (·.seesChange)).map (·.blockNum)

/-- What the turn object remembers about a publication. -/
def remembered (publication : Int) (turn : PriceOracleTurn) : Option Int :=
  if turn.priceChangePubBlock = publication ∧ turn.priceChangeBlock ≥ 0 then some turn.priceChangeBlock else none

private theorem firstChange_append_same (checks : List Check) (check : Check) :
    firstChange check.lastPubBlock (checks ++ [check]) =
      (firstChange check.lastPubBlock checks).or (if check.seesChange then some check.blockNum else none) := by
  simp only [firstChange, List.filter_append, List.find?_append, Option.map_or]
  cases sees : check.seesChange <;> simp [sees]

private theorem firstChange_append_other {publication : Int} (checks : List Check) {check : Check}
    (other : check.lastPubBlock ≠ publication) :
    firstChange publication (checks ++ [check]) = firstChange publication checks := by
  simp [firstChange, other]

private theorem remembered_init (publication : Int) (coinPair : CoinPair) (signal : Signal) :
    remembered publication (.init coinPair signal) = none := if_neg (by simp [PriceOracleTurn.init])

theorem canCheck_iff {vi : OracleBlockchainInfo} {price : PriceWithTimestamp} {turn : PriceOracleTurn} :
    CanCheck vi price turn ↔ (remembered vi.lastPubBlock turn).isSome = true ∨ Comparable vi.blockchainPrice price.price := by
  unfold CanCheck remembered
  split
  next latched => exact iff_of_true (Or.inl latched) (Or.inl rfl)
  next other =>
    rw [or_iff_right other]
    simp

/-- What one call answers and remembers: what was remembered stays, and
otherwise the call's own block if it sees a change. -/
theorem observed_remembers (conf : OracleTurnConfiguration) {vi : OracleBlockchainInfo} (delta : PyFloat) (turn : PriceOracleTurn)
    (block : 0 ≤ vi.blockNum) :
    let next := (observed conf vi delta turn).2
    (observed conf vi delta turn).1 = (remembered vi.lastPubBlock next).map (vi.blockNum - ·) ∧
      remembered vi.lastPubBlock next = (remembered vi.lastPubBlock turn).or
        (if delta.lt (.finite (deltaInForce conf.priceDeltaPct turn.signal)) then none else some vi.blockNum) ∧
      ∀ publication ≠ vi.lastPubBlock, remembered publication turn = none → remembered publication next = none := by
  by_cases latched : turn.priceChangePubBlock = vi.lastPubBlock ∧ turn.priceChangeBlock ≥ 0
  · have kept : remembered vi.lastPubBlock turn = some turn.priceChangeBlock := if_pos latched
    simp only [observed, if_pos latched, kept, Option.map_some, Option.some_or, true_and]
    exact fun _ _ none => none
  · have nothing : remembered vi.lastPubBlock turn = none := if_neg latched
    by_cases small : delta.lt (.finite (deltaInForce conf.priceDeltaPct turn.signal)) = true
    · have unchanged : remembered vi.lastPubBlock (settledTurn turn) = none := nothing
      simp only [observed, if_neg latched, if_pos small, unchanged, nothing, Option.map_none, Option.none_or, true_and]
      exact fun _ _ none => none
    · simp only [observed, if_neg latched, if_neg small, Option.none_or, remembered,
        ge_iff_le, block, and_self, if_true, Option.map_some, sub_self, true_and]
      exact fun publication other _ => if_neg fun same => other same.1.symm

section Call
variable (check : Check) (turn : PriceOracleTurn) (blocks : 0 ≤ check.lastPubBlock ∧ 0 ≤ check.blockNum)
include blocks

private theorem run_latched (same : turn.priceChangePubBlock = check.lastPubBlock) (recorded : 0 ≤ turn.priceChangeBlock) :
    check.run turn = .ok (some (check.blockNum - turn.priceChangeBlock)) { turn with signal := check.signal } :=
  priceChangedBlocks_latched check.conf check.exchangePrice blocks.1 blocks.2 same recorded

/-- A call leaves what it remembers, whether it returns or raises. -/
theorem after_remembers :
    remembered check.lastPubBlock (Check.after turn check) =
        (remembered check.lastPubBlock turn).or (if check.seesChange then some check.blockNum else none) ∧
      ∀ publication ≠ check.lastPubBlock, remembered publication turn = none →
        remembered publication (Check.after turn check) = none := by
  cases priced : Helpers.priceDelta check.blockChainInfo.blockchainPrice check.exchangePrice.price with
  | ok delta =>
    have sees : check.seesChange = !delta.lt (.finite (deltaInForce check.conf.priceDeltaPct check.signal)) := by
      rw [Check.seesChange, priced, getPriceDelta_eq]
    obtain ⟨-, same, other⟩ := observed_remembers check.conf delta { turn with signal := check.signal } blocks.2
    rw [Check.after, Check.run, priceChangedBlocks_eq check.conf blocks.1 blocks.2 priced, sees]
    refine ⟨same.trans ?_, other⟩
    congr 1
    cases delta.lt (.finite (deltaInForce check.conf.priceDeltaPct check.signal)) <;> rfl
  | error failure =>
    have blind : check.seesChange = false := by rw [Check.seesChange, priced]
    have unmoved : Check.after turn check = { turn with signal := check.signal } := by
      rw [Check.after]
      by_cases latched : turn.priceChangePubBlock = check.lastPubBlock ∧ turn.priceChangeBlock ≥ 0
      · rw [run_latched check turn blocks latched.1 latched.2]
      · have ran : check.run turn = .error failure { turn with signal := check.signal } :=
          priceChangedBlocks_raises check.conf blocks.1 blocks.2 latched priced
        rw [ran]
    rw [unmoved, blind]
    exact ⟨(Option.or_none ..).symm, fun _ _ nothing => nothing⟩

/-- A call that can check the price answers with the blocks since the remembered change. -/
theorem run_eq (can : CanCheck check.blockChainInfo check.exchangePrice turn) : check.run turn =
    .ok ((remembered check.lastPubBlock (Check.after turn check)).map (check.blockNum - ·)) (Check.after turn check) := by
  rcases can with ⟨same, recorded⟩ | comparable
  · have kept : remembered check.lastPubBlock { turn with signal := check.signal } = some turn.priceChangeBlock :=
      if_pos ⟨same, recorded⟩
    rw [Check.after, run_latched check turn blocks same recorded, kept]
    rfl
  · have measured := priceDelta_eq comparable
    obtain ⟨answer, -, -⟩ := observed_remembers check.conf _ { turn with signal := check.signal } blocks.2
    rw [Check.after, Check.run, priceChangedBlocks_eq check.conf blocks.1 blocks.2 measured]
    exact congrArg (EStateM.Result.ok · _) answer

/-- A call returns exactly when it can check the price. -/
theorem run_ok_iff : (∃ answer next, check.run turn = .ok answer next) ↔
    CanCheck check.blockChainInfo check.exchangePrice turn := by
  rw [Check.run]
  exact @priceChangedBlocks_ok_iff _ _ _ { turn with signal := check.signal } blocks.1 blocks.2

end Call

def afterAll (coinPair : CoinPair) (signal : Signal) (checks : List Check) : PriceOracleTurn :=
  checks.foldl Check.after (.init coinPair signal)

theorem Valid.of_append {checks : List Check} {check : Check} (valid : Valid (checks ++ [check])) : Valid checks where
  blocks other member := valid.blocks other (List.mem_append_left _ member)
  publications := (List.pairwise_append.mp valid.publications).1

/-- The turn object remembers the first change of the present publication, and
nothing of a later one. -/
theorem remembered_afterAll (coinPair : CoinPair) (signal : Signal) {checks : List Check} (valid : Valid checks)
    {publication : Int} (latest : ∀ check ∈ checks, check.lastPubBlock ≤ publication) :
    remembered publication (afterAll coinPair signal checks) = firstChange publication checks := by
  induction checks using List.reverseRecOn with
  | nil => exact remembered_init publication coinPair signal
  | append_singleton checks check ih =>
    have last : check ∈ checks ++ [check] := by simp
    obtain ⟨same, other⟩ := after_remembers check (afterAll coinPair signal checks) (valid.blocks check last)
    have stepped : afterAll coinPair signal (checks ++ [check]) = Check.after (afterAll coinPair signal checks) check :=
      List.foldl_concat ..
    have before := ih valid.of_append fun earlier member => latest earlier (List.mem_append_left _ member)
    rw [stepped]
    by_cases current : check.lastPubBlock = publication
    · subst current
      rw [same, before, firstChange_append_same]
    · rw [firstChange_append_other checks current, ← before]
      -- The calls so far are all of earlier publications.
      have none : firstChange publication checks = none := by
        have older := latest check last
        have earlier := (List.pairwise_append.mp valid.publications).2.2
        simp only [firstChange, Option.map_eq_none_iff, List.find?_eq_none, List.mem_filter, decide_eq_true_eq]
        intro call member
        have := earlier call member.1 check (by simp)
        omega
      rw [before, none]
      exact other publication (Ne.symm current) (before.trans none)

/-- A call of any run counts the blocks since the first change of the publication,
and returns nothing while none was seen, exactly when a change was seen before or
its two prices can be compared. -/
theorem blocks_since_first_change_iff (coinPair : CoinPair) (signal : Signal) (checks : List Check) (check : Check)
    (valid : Valid (checks ++ [check])) :
    (∃ next, check.run (afterAll coinPair signal checks) =
      .ok ((firstChange check.lastPubBlock (checks ++ [check])).map (check.blockNum - ·)) next) ↔
    (firstChange check.lastPubBlock checks).isSome = true ∨
      Comparable check.blockChainInfo.blockchainPrice check.exchangePrice.price := by
  have last : check ∈ checks ++ [check] := by simp
  have blocks := valid.blocks check last
  have latest : ∀ earlier ∈ checks, earlier.lastPubBlock ≤ check.lastPubBlock := fun earlier member =>
    (List.pairwise_append.mp valid.publications).2.2 earlier member check (by simp)
  have before := remembered_afterAll coinPair signal valid.of_append latest
  have can : CanCheck check.blockChainInfo check.exchangePrice (afterAll coinPair signal checks) ↔
      (firstChange check.lastPubBlock checks).isSome = true ∨ Comparable check.blockChainInfo.blockchainPrice check.exchangePrice.price := by
    rw [← before]
    exact canCheck_iff
  rw [← can]
  constructor
  · intro exactly
    obtain ⟨next, ran⟩ := exactly
    exact (run_ok_iff check _ blocks).mp ⟨_, next, ran⟩
  · intro can
    refine ⟨Check.after (afterAll coinPair signal checks) check, ?_⟩
    rw [run_eq check _ blocks can, (after_remembers check _ blocks).1, before, firstChange_append_same]

/-- A check at a block of the publication of block 90, with the price 100 on the chain. -/
def checkAt (blockNum exchangePrice : Int) : Check :=
  ⟨⟨5, 1, [2, 4, 6, 8, 10], 30⟩, ⟨⟨"BTCUSD"⟩, [], 100, blockNum, 90, [], 300⟩, ⟨exchangePrice, .finite 1⟩, .disabled⟩

/-- The price moves at block 93, cannot be compared at block 94 and is back at
block 95, two blocks after the change. -/
theorem blocks_since_first_change_iff_back :
    Valid ([checkAt 91 100, checkAt 93 110, checkAt 94 (10 ^ 400)] ++ [checkAt 95 100]) ∧
    ((∃ next, (checkAt 95 100).run (afterAll ⟨"BTCUSD"⟩ .disabled [checkAt 91 100, checkAt 93 110, checkAt 94 (10 ^ 400)]) =
      .ok ((firstChange 90 ([checkAt 91 100, checkAt 93 110, checkAt 94 (10 ^ 400)] ++ [checkAt 95 100])).map (95 - ·)) next) ↔
    (firstChange 90 [checkAt 91 100, checkAt 93 110, checkAt 94 (10 ^ 400)]).isSome = true ∨ Comparable 100 100) ∧
    (firstChange 90 ([checkAt 91 100, checkAt 93 110, checkAt 94 (10 ^ 400)] ++ [checkAt 95 100])).map (95 - ·) = some 2 := by
  have valid : Valid ([checkAt 91 100, checkAt 93 110, checkAt 94 (10 ^ 400)] ++ [checkAt 95 100]) := ⟨by decide, by decide⟩
  exact ⟨valid, blocks_since_first_change_iff ⟨"BTCUSD"⟩ .disabled _ _ valid, by decide +kernel⟩

/-- The exchange price of the first call is beyond comparison. -/
theorem overflowing_check_raises :
    Valid ([] ++ [checkAt 92 (10 ^ 400)]) ∧
    (checkAt 92 (10 ^ 400)).run (afterAll ⟨"BTCUSD"⟩ .disabled []) = .error .overflowError (.init ⟨"BTCUSD"⟩ .disabled) ∧
    ¬∃ next, (checkAt 92 (10 ^ 400)).run (afterAll ⟨"BTCUSD"⟩ .disabled []) =
      .ok ((firstChange 90 ([] ++ [checkAt 92 (10 ^ 400)])).map (92 - ·)) next := by
  have raised : (checkAt 92 (10 ^ 400)).run (afterAll ⟨"BTCUSD"⟩ .disabled []) = .error .overflowError (.init ⟨"BTCUSD"⟩ .disabled) :=
    priceChangedBlocks_raises _ (by decide) (by decide) (by decide) (by decide +kernel)
  refine ⟨⟨by decide, by decide⟩, raised, ?_⟩
  intro exactly
  obtain ⟨next, ran⟩ := exactly
  rw [raised] at ran
  cases ran

end OmocNode.Proofs.PriceChangeLatch
