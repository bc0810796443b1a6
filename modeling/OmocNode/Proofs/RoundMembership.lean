import OmocNode.Proofs.TaskTurns

/-! Oracles outside the current round. Each kind of turn looks for the oracle in
the round, but a signer lets the first of the order pass before that. -/

namespace OmocNode.Proofs.RoundMembership
open OracleTurn SelectNext TurnWindows TaskTurns StateFrame Outcomes

variable {disableFallbacks onlyChosen areTasksAvailable : Bool} {conf : OracleTurnConfiguration} {vi : OracleBlockchainInfo}
  {oracleAddr : String} {addresses : List String} {exchangePrice : Option PriceWithTimestamp} {turn : PriceOracleTurn}
  {lastBlockWhenAvailable : Option Int}

/-- The address is not in the list, or an entry of it is not selected in the current round. -/
def OutsideRound (oracles : List FullOracleRoundInfo) (oracleAddr : String) : Prop :=
  (∀ oracle ∈ oracles, oracle.addr.text ≠ oracleAddr) ∨
    ∃ oracle ∈ oracles, oracle.addr.text = oracleAddr ∧ oracle.selectedInCurrentRound = false

private theorem unlisted_of_outside {oracles : List FullOracleRoundInfo} (outside : OutsideRound oracles oracleAddr) :
    isOracleSelectedInRound oracles oracleAddr = false := by
  rw [← Bool.not_eq_true]
  intro listed
  simp only [isOracleSelectedInRound, Bool.and_eq_true, Bool.not_eq_true', List.any_eq_true, List.any_eq_false, beq_iff_eq,
    not_and] at listed
  obtain ⟨⟨_, entry, member, same⟩, selected⟩ := listed
  rcases outside with absent | ⟨other, found, sameAddress, notSelected⟩
  · exact absent entry member same
  · exact absurd (selected other found) (by simp [sameAddress, notSelected])

/-- The first address of the order that the block hash gives. -/
def IsChosen (vi : OracleBlockchainInfo) (oracleAddr : String) : Prop :=
  ∃ fallbacks, selectNextAddresses vi.lastPubBlockHash vi.selectedOracles = .ok (oracleAddr :: fallbacks)

/-- One of the two entry points of the price turn grants the oracle its turn. -/
def PriceGrants (disableFallbacks : Bool) (conf : OracleTurnConfiguration) (vi : OracleBlockchainInfo) (oracleAddr : String)
    (exchangePrice : Option PriceWithTimestamp) (turn : PriceOracleTurn) : Prop :=
  (∃ addresses after, PriceOracleTurn.isOracleTurn disableFallbacks conf vi oracleAddr exchangePrice turn =
    .ok (true, addresses) after) ∨
  ∃ verdict after, PriceOracleTurn.validateTurn conf vi oracleAddr exchangePrice turn = .ok verdict after ∧
    verdict.isTurn = true

def TaskGrants (disableFallbacks : Bool) (conf : OracleTurnConfiguration) (vi : OracleBlockchainInfo) (oracleAddr : String)
    (areTasksAvailable : Bool) (lastBlockWhenAvailable : Option Int) : Prop :=
  (∃ addresses, TasksOracleTurn.isOracleTurn disableFallbacks conf vi oracleAddr areTasksAvailable lastBlockWhenAvailable =
    .ok (true, addresses)) ∨
  ∃ verdict, TasksOracleTurn.validateTurn conf vi oracleAddr areTasksAvailable lastBlockWhenAvailable = .ok verdict ∧
    verdict.isTurn = true

private theorem price_check_refuses (unlisted : isOracleSelectedInRound vi.selectedOracles oracleAddr = false) {answer : TurnVerdict}
    {after : PriceOracleTurn}
    (evaluated : PriceOracleTurn.isOracleTurnWithMsg conf vi oracleAddr addresses exchangePrice onlyChosen turn = .ok answer after) :
    answer.isTurn = false := by
  rw [← Bool.not_eq_true]
  intro granted
  obtain ⟨_, _, _, _, listed, _⟩ := granted_cases evaluated granted
  rw [unlisted] at listed
  cases listed

private theorem task_check_refuses (unlisted : isOracleSelectedInRound vi.selectedOracles oracleAddr = false) {answer : TurnVerdict}
    (evaluated : TasksOracleTurn.isOracleTurnWithMsg conf vi oracleAddr addresses areTasksAvailable lastBlockWhenAvailable
      onlyChosen = .ok answer) : answer.isTurn = false := by
  rw [← Bool.not_eq_true]
  intro granted
  have listed := (listed_of_granted evaluated granted).2
  rw [unlisted] at listed
  cases listed

/-- The check of the round is all there is between an oracle outside it and a price turn, but for the first of the order. -/
theorem price_grants_iff (unlisted : isOracleSelectedInRound vi.selectedOracles oracleAddr = false) :
    PriceGrants disableFallbacks conf vi oracleAddr exchangePrice turn ↔ IsChosen vi oracleAddr := by
  constructor
  · intro grants
    rcases grants with ⟨addresses, after, evaluated⟩ | ⟨verdict, after, evaluated, granted⟩
    · obtain ⟨_, answer, asked, isTurn⟩ := isOracleTurn_cases evaluated
      rw [price_check_refuses unlisted asked] at isTurn
      cases isTurn
    · cases order : selectNextAddresses vi.lastPubBlockHash vi.selectedOracles with
      | error failure =>
        simp only [PriceOracleTurn.validateTurn, run_bind, order, run_lift_error] at evaluated
        cases evaluated
      | ok addresses =>
        cases addresses with
        | nil =>
          simp only [PriceOracleTurn.validateTurn, run_bind, order, run_lift_ok, isSelectedOracle, run_lift_error] at evaluated
          cases evaluated
        | cons first fallbacks =>
          by_cases same : first = oracleAddr
          · exact ⟨fallbacks, same ▸ order⟩
          · rw [validateTurn_eq order, if_neg (by simpa using same)] at evaluated
            rw [price_check_refuses unlisted evaluated] at granted
            cases granted
  · intro chosen
    obtain ⟨fallbacks, order⟩ := chosen
    exact Or.inr ⟨.selectedChosen, turn, by rw [validateTurn_eq order, if_pos (beq_self_eq_true _)], rfl⟩

theorem task_grants_iff (unlisted : isOracleSelectedInRound vi.selectedOracles oracleAddr = false) :
    TaskGrants disableFallbacks conf vi oracleAddr areTasksAvailable lastBlockWhenAvailable ↔ IsChosen vi oracleAddr := by
  constructor
  · intro grants
    rcases grants with ⟨addresses, evaluated⟩ | ⟨verdict, evaluated, granted⟩
    · obtain ⟨_, _, rest⟩ := bind_eq_ok_iff.mp evaluated
      obtain ⟨answer, asked, same⟩ := bind_eq_ok_iff.mp rest
      have isTurn := congrArg Prod.fst (pure_eq_ok_iff.mp same)
      rw [task_check_refuses unlisted asked] at isTurn
      cases isTurn
    · obtain ⟨addresses, order, rest⟩ := bind_eq_ok_iff.mp evaluated
      cases addresses with
      | nil => cases rest
      | cons first fallbacks =>
        by_cases same : first = oracleAddr
        · exact ⟨fallbacks, same ▸ order⟩
        · rw [validateTurn_fallback order same] at evaluated
          rw [task_check_refuses unlisted evaluated] at granted
          cases granted
  · intro chosen
    obtain ⟨fallbacks, order⟩ := chosen
    refine Or.inr ⟨.selectedChosen, ?_, rfl⟩
    simp [TasksOracleTurn.validateTurn, order, isSelectedOracle, bind, Except.bind, pure, Except.pure]

/-- An oracle outside the round is refused at every entry point exactly when it
is not the first of the order. -/
theorem outside_round_refused_iff (disableFallbacks : Bool) (conf : OracleTurnConfiguration) (vi : OracleBlockchainInfo)
    (oracleAddr : String) (outside : OutsideRound vi.selectedOracles oracleAddr) (exchangePrice : Option PriceWithTimestamp)
    (turn : PriceOracleTurn) (areTasksAvailable : Bool) (lastBlockWhenAvailable : Option Int) :
    (¬PriceGrants disableFallbacks conf vi oracleAddr exchangePrice turn ∧
      ¬TaskGrants disableFallbacks conf vi oracleAddr areTasksAvailable lastBlockWhenAvailable) ↔
    ¬IsChosen vi oracleAddr := by
  rw [price_grants_iff (unlisted_of_outside outside), task_grants_iff (unlisted_of_outside outside), and_self]

private theorem not_chosen_of_absent (absent : ∀ oracle ∈ vi.selectedOracles, oracle.addr.text ≠ oracleAddr) : ¬IsChosen vi oracleAddr := by
  intro chosen
  obtain ⟨fallbacks, order⟩ := chosen
  have member : oracleAddr ∈ vi.selectedOracles.map (·.addr.text) :=
    (Selection.selectNextAddresses_perm order).mem_iff.mp List.mem_cons_self
  obtain ⟨oracle, listed, same⟩ := List.mem_map.mp member
  exact absent oracle listed same

/-- An address that is not in the list is refused everywhere. -/
theorem absent_refused (absent : ∀ oracle ∈ vi.selectedOracles, oracle.addr.text ≠ oracleAddr) :
    ¬PriceGrants disableFallbacks conf vi oracleAddr exchangePrice turn ∧
      ¬TaskGrants disableFallbacks conf vi oracleAddr areTasksAvailable lastBlockWhenAvailable := by
  have unlisted := unlisted_of_outside (Or.inl absent)
  rw [price_grants_iff unlisted, task_grants_iff unlisted, and_self]
  exact not_chosen_of_absent absent

def droppedAddress : Address := ⟨"0x00000000000000000000000000000000000000ad", by decide⟩

/-- One oracle, which is not selected in the current round. -/
def droppedOracle : OracleBlockchainInfo :=
  ⟨⟨"BTCUSD"⟩, [⟨droppedAddress, "http://oracle:5556", 1, droppedAddress, 0, false, 1⟩], 100, 95, 90, [], 300⟩

/-- Two oracles, of which the second in the order is not selected in the current round. -/
def droppedFallback : OracleBlockchainInfo :=
  let first : Address := ⟨"0x00000000000000000000000000000000000000d3", by decide⟩
  ⟨⟨"BTCUSD"⟩, [⟨first, "http://first:5556", 10, first, 0, true, 1⟩,
    ⟨droppedAddress, "http://oracle:5556", 10, droppedAddress, 0, false, 1⟩], 100, 95, 90, List.replicate 32 1, 300⟩

theorem droppedFallback_order : selectNextAddresses droppedFallback.lastPubBlockHash droppedFallback.selectedOracles =
    .ok ["0x00000000000000000000000000000000000000d3", droppedAddress.text] := by decide +kernel

/-- The dropped oracle is refused where it is second, and not where it is alone. -/
theorem outside_round_refused_iff_dropped :
    (OutsideRound droppedFallback.selectedOracles droppedAddress.text ∧
      ¬PriceGrants false ⟨5, 1, [2, 4, 6, 8, 10], 30⟩ droppedFallback droppedAddress.text (some ⟨110, .finite 1⟩)
        (.init ⟨"BTCUSD"⟩ .disabled) ∧
      ¬TaskGrants false ⟨5, 1, [2, 4, 6, 8, 10], 30⟩ droppedFallback droppedAddress.text true (some 80)) ∧
    OutsideRound droppedOracle.selectedOracles droppedAddress.text ∧
    ((¬PriceGrants false ⟨5, 1, [2, 4, 6, 8, 10], 30⟩ droppedOracle droppedAddress.text none (.init ⟨"BTCUSD"⟩ .disabled) ∧
      ¬TaskGrants false ⟨5, 1, [2, 4, 6, 8, 10], 30⟩ droppedOracle droppedAddress.text false none) ↔
    ¬IsChosen droppedOracle droppedAddress.text) := by
  have second : OutsideRound droppedFallback.selectedOracles droppedAddress.text :=
    Or.inr ⟨_, List.mem_cons_of_mem _ List.mem_cons_self, rfl, rfl⟩
  have fallback : ¬IsChosen droppedFallback droppedAddress.text := by
    intro chosen
    obtain ⟨fallbacks, order⟩ := chosen
    have first := (List.cons.inj (Except.ok.inj (droppedFallback_order.symm.trans order))).1
    exact absurd first (by decide)
  have outside : OutsideRound droppedOracle.selectedOracles droppedAddress.text := Or.inr ⟨_, List.mem_cons_self, rfl, rfl⟩
  exact ⟨⟨second, (outside_round_refused_iff _ _ _ _ second _ _ _ _).mpr fallback⟩, outside,
    outside_round_refused_iff _ _ _ _ outside _ _ _ _⟩

/-- A signer grants both kinds of turn to the one oracle of the list, outside the round. -/
theorem dropped_oracle_granted :
    OutsideRound droppedOracle.selectedOracles droppedAddress.text ∧ droppedOracle.selectedOracles.length ≤ 32 ∧
    PriceGrants false ⟨5, 1, [2, 4, 6, 8, 10], 30⟩ droppedOracle droppedAddress.text none (.init ⟨"BTCUSD"⟩ .disabled) ∧
    TaskGrants false ⟨5, 1, [2, 4, 6, 8, 10], 30⟩ droppedOracle droppedAddress.text false none := by
  have outside : OutsideRound droppedOracle.selectedOracles droppedAddress.text := Or.inr ⟨_, List.mem_cons_self, rfl, rfl⟩
  have chosen : IsChosen droppedOracle droppedAddress.text := ⟨[], by decide +kernel⟩
  exact ⟨outside, by decide, (price_grants_iff (unlisted_of_outside outside)).mpr chosen,
    (task_grants_iff (unlisted_of_outside outside)).mpr chosen⟩

end OmocNode.Proofs.RoundMembership
