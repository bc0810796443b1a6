import Mathlib.Data.List.Forall2
import OmocNode.BlockchainInfo

/-! The two ways of reading the chain. Where the InfoGetter contract repeats what
the single calls answer, they differ in the block number, for which the parallel
calls take the last publication block. -/

namespace OmocNode.Proofs.ChainReads
open BlockchainInfo

/-- An oracle as the InfoGetter reports it and as the single calls do. -/
structure SameOracle (chain : Chain) (addr : Address) (oracle : SelectedOracle) : Prop where
  sameAddr : oracle.addr = addr
  registration : chain.getOracleRegistrationInfo addr = .ok (oracle.name, oracle.stake, oracle.owner)
  points : ∃ selectedInCurrentRound, chain.getOracleRoundInfo addr = .ok (oracle.points, selectedInCurrentRound)

/-- The InfoGetter contract repeats what the single calls answer. -/
structure InfoGetterAgrees (chain : Chain) (roundInfo : RoundInfo) (data : OracleServerInfo) : Prop where
  atRound : chain.getRoundInfo = .ok roundInfo
  answered : chain.getOracleServerInfo = .ok data
  round : data.round = roundInfo.round
  oracles : List.Forall₂ (SameOracle chain) roundInfo.selectedOracles data.info
  price : chain.getPrice = .ok data.price
  lastPubBlock : chain.getLastPublicationBlock = .ok data.lastPubBlock
  hash : (∀ byte ∈ data.lastPubBlockHash, byte = 0) ∨ chain.getBlock data.lastPubBlock = .ok data.lastPubBlockHash
  period : chain.getValidPricePeriodInBlocks = .ok data.validPricePeriodInBlocks

/-- The getter of each selected oracle marks it as selected in the current round. -/
def MarkedSelected (chain : Chain) (roundInfo : RoundInfo) : Prop :=
  ∀ addr ∈ roundInfo.selectedOracles, ∀ points marked, chain.getOracleRoundInfo addr = .ok (points, marked) → marked = true

def marked (chain : Chain) (addr : Address) : Bool :=
  match chain.getOracleRoundInfo addr with
  | .ok (_, selectedInCurrentRound) => selectedInCurrentRound
  | .error _ => false

def reported (round : Nat) (selected : Bool) (so : SelectedOracle) : FullOracleRoundInfo :=
  { addr := so.addr, internetName := so.name, stake := so.stake, owner := so.owner, points := so.points
    selectedInCurrentRound := selected, selectedInRound := round }

private theorem oracleRoundInfo_eq {chain : Chain} {roundInfo : RoundInfo} {addr : Address} {oracle : SelectedOracle}
    (atRound : chain.getRoundInfo = .ok roundInfo) (same : SameOracle chain addr oracle) :
    chain.oracleRoundInfo addr = .ok (.ok (reported roundInfo.round (marked chain addr) oracle)) := by
  obtain ⟨rfl, registration, selected, points⟩ := same
  simp only [Chain.oracleRoundInfo, Chain.oracleRegistrationInfo, Chain.roundInfoOf, registration, points, atRound, Except.map,
    reported, marked]

private theorem oraclesInfo_eq {chain : Chain} {roundInfo : RoundInfo} (atRound : chain.getRoundInfo = .ok roundInfo)
    {addresses : List Address} {oracles : List SelectedOracle} (same : List.Forall₂ (SameOracle chain) addresses oracles) :
    chain.oraclesInfo addresses =
      .ok (.ok (List.zipWith (fun addr => reported roundInfo.round (marked chain addr)) addresses oracles)) := by
  induction same with
  | nil => rfl
  | cons here _ ih =>
    rw [Chain.oraclesInfo, oracleRoundInfo_eq atRound here, ih]
    rfl

/-- The parallel calls and the one call to the InfoGetter differ in the marks of
the oracles and in the block number. -/
theorem parallelRequests_eq {chain : Chain} {roundInfo : RoundInfo} {data : OracleServerInfo} (coinPair : CoinPair)
    (agrees : InfoGetterAgrees chain roundInfo data) :
    ∃ vi, getBlockingOneBigRequest chain coinPair = some vi ∧ vi.blockNum = data.currentBlock ∧
      vi.lastPubBlock = data.lastPubBlock ∧ vi.selectedOracles = data.info.map (reported roundInfo.round true) ∧
      getBlockingParallelRequests chain coinPair = some { vi with
        selectedOracles := List.zipWith (fun addr => reported roundInfo.round (marked chain addr)) roundInfo.selectedOracles data.info
        blockNum := vi.lastPubBlock } := by
  obtain ⟨atRound, answered, round, oracles, price, lastPubBlock, hash, period⟩ := agrees
  have sameHash : chain.lastPubBlockHash data.lastPubBlock =
      if data.lastPubBlockHash.all (· == 0) then chain.lastPubBlockHash data.lastPubBlock
      else some data.lastPubBlockHash := by
    rcases hash with zero | known
    · rw [if_pos (by simpa using zero)]
    · simp only [Chain.lastPubBlockHash, known, Except.toOption, ite_self]
  refine ⟨_, by rw [getBlockingOneBigRequest, Chain.oracleServerInfo, answered]; rfl, rfl, rfl, ?_, ?_⟩
  · rw [← round]
    rfl
  · simp only [getBlockingParallelRequests, Chain.selectedOraclesInfo, atRound, oraclesInfo_eq atRound oracles, price,
      lastPubBlock, period, ← sameHash]

private theorem zipWith_eq_map_iff {chain : Chain} {round : Nat} {addresses : List Address} {oracles : List SelectedOracle}
    (same : List.Forall₂ (SameOracle chain) addresses oracles) :
    List.zipWith (fun addr => reported round (marked chain addr)) addresses oracles = oracles.map (reported round true) ↔
      ∀ addr ∈ addresses, ∀ points selected, chain.getOracleRoundInfo addr = .ok (points, selected) → selected = true := by
  induction same with
  | nil => simp
  | cons here _ ih =>
    obtain ⟨_, _, selected, points⟩ := here
    rw [List.zipWith_cons_cons, List.map_cons, List.cons.injEq, ih, List.forall_mem_cons]
    apply and_congr_left
    intro _
    simp [reported, marked, points]

/-- Both reads give the same information exactly when the last publication is in
the current block, given that the oracles are marked as selected. -/
theorem reads_agree_iff {chain : Chain} {roundInfo : RoundInfo} {data : OracleServerInfo} (coinPair : CoinPair)
    (agrees : InfoGetterAgrees chain roundInfo data) :
    getBlockingParallelRequests chain coinPair = getBlockingOneBigRequest chain coinPair ↔
      data.currentBlock = data.lastPubBlock ∧ MarkedSelected chain roundInfo := by
  obtain ⟨vi, request, blockNum, lastPubBlock, selected, parallel⟩ := parallelRequests_eq coinPair agrees
  rw [parallel, request, Option.some_inj, MarkedSelected, ← zipWith_eq_map_iff agrees.oracles, ← selected]
  constructor
  · intro same
    have blocks := congrArg BlockchainInfoOf.blockNum same
    have oracles := congrArg BlockchainInfoOf.selectedOracles same
    simp only [blockNum, lastPubBlock] at blocks
    exact ⟨by exact_mod_cast blocks.symm, oracles⟩
  · intro agreed
    obtain ⟨block, oracles⟩ := agreed
    rw [oracles]
    cases vi
    simp_all

def selectedAddr : Address := ⟨"0x00000000000000000000000000000000000000ab", by decide⟩

def pairRound : RoundInfo :=
  { round := 3, startBlock := 40, lockPeriodTimestamp := 1700000000, totalPoints := 9
    selectedOwners := [selectedAddr], selectedOracles := [selectedAddr] }

def pairData (currentBlock : Nat) : OracleServerInfo :=
  { round := 3, startBlock := 40, lockPeriodTimestamp := 1700000000, totalPoints := 9
    info := [{ stake := 1000, points := 9, addr := selectedAddr, owner := selectedAddr, name := "http://oracle:5556" }]
    price := 64000, currentBlock, lastPubBlock := 100, lastPubBlockHash := List.replicate 32 0
    validPricePeriodInBlocks := 60 }

/-- A price published in block 100, read in block `currentBlock`. -/
def pairChain (currentBlock : Nat) : Chain :=
  { getRoundInfo := .ok pairRound, getPrice := .ok 64000, getLastPublicationBlock := .ok 100
    getValidPricePeriodInBlocks := .ok 60, getOracleRoundInfo := fun _ => .ok (9, true)
    getOracleRegistrationInfo := fun _ => .ok ("http://oracle:5556", 1000, selectedAddr)
    getBlock := fun _ => .ok (List.replicate 32 7), getOracleServerInfo := .ok (pairData currentBlock) }

private theorem pairChain_agrees (currentBlock : Nat) :
    InfoGetterAgrees (pairChain currentBlock) pairRound (pairData currentBlock) :=
  ⟨rfl, rfl, rfl, .cons ⟨rfl, rfl, true, rfl⟩ .nil, rfl, rfl, .inl (by simp [pairData]), rfl⟩

private theorem pairChain_marked (currentBlock : Nat) : MarkedSelected (pairChain currentBlock) pairRound := by
  intro addr _ points selected read
  cases read
  rfl

theorem reads_agree_iff_fresh :
    InfoGetterAgrees (pairChain 100) pairRound (pairData 100) ∧
      (getBlockingParallelRequests (pairChain 100) ⟨"BTCUSD"⟩ = getBlockingOneBigRequest (pairChain 100) ⟨"BTCUSD"⟩ ↔
        100 = 100 ∧ MarkedSelected (pairChain 100) pairRound) :=
  ⟨pairChain_agrees 100, reads_agree_iff ⟨"BTCUSD"⟩ (pairChain_agrees 100)⟩

/-- Ten blocks after the publication the parallel calls still report its block as the current one. -/
theorem parallel_block_stale :
    InfoGetterAgrees (pairChain 110) pairRound (pairData 110) ∧ MarkedSelected (pairChain 110) pairRound ∧
      (getBlockingOneBigRequest (pairChain 110) ⟨"BTCUSD"⟩).map (·.blockNum) = some 110 ∧
      (getBlockingParallelRequests (pairChain 110) ⟨"BTCUSD"⟩).map (·.blockNum) = some 100 ∧
      getBlockingParallelRequests (pairChain 110) ⟨"BTCUSD"⟩ ≠ getBlockingOneBigRequest (pairChain 110) ⟨"BTCUSD"⟩ := by
  have parallel : (getBlockingParallelRequests (pairChain 110) ⟨"BTCUSD"⟩).map (·.blockNum) = some 100 := rfl
  refine ⟨pairChain_agrees 110, pairChain_marked 110, rfl, parallel, ?_⟩
  intro same
  rw [same] at parallel
  exact absurd parallel (by decide)

end OmocNode.Proofs.ChainReads
