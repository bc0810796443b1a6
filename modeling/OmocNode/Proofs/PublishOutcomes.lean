import OmocNode.Publishing
import OmocNode.Proofs.PublishedQuorum
import OmocNode.Proofs.StateFrame

/-! What a publication reports and what became of its transaction. A receipt is
a success whatever its status, and the time of the last publication is set
before anyone looks at the result. -/

namespace OmocNode.Proofs.PublishOutcomes
open BlockchainInfo Blockchain Publishing StateFrame Outcomes

/-- A caught computation ends with an answer, unless it is cancelled. -/
theorem execWithCatch_ends {α : Type} (str : PyError → String) (computation : Awaited (Reply α)) :
    execWithCatch str computation = .error .cancelled ∨ ∃ reply, execWithCatch str computation = .ok reply := by
  rcases computation with (_ | _) | reply
  · exact Or.inr ⟨_, rfl⟩
  · exact Or.inl rfl
  · exact Or.inr ⟨reply, rfl⟩

theorem execWithCatch_success_iff {α : Type} {str : PyError → String} {computation : Awaited (Reply α)} {value : α} :
    execWithCatch str computation = .ok (.ok value) ↔ computation = .ok (.ok value) := by
  rcases computation with (_ | _) | reply
  · simp [execWithCatch]
  · simp [execWithCatch]
  · rfl

section Sending
variable (setting : Setting) (call : CoinPairService.ContractCall)

def gasOf : Option Nat :=
  if call.method = "runTasks" ∧ setting.tasksRunnerMinGas ≠ 0 then some setting.tasksRunnerMinGas else none

/-- The contract call up to the moment when its transaction has been sent. The nonce is the one it was sent with. -/
def sending (lastGasPrice : Reply ℚ) : Awaited (Nat × Sent) := do
  setting.chain.web3.functions call
  let nonce ← setting.chain.web3.acquire
  let txn ← setting.chain.getTx call setting.account.addr lastGasPrice (gasOf setting call) nonce
  let signedTxn ← setting.chain.web3.signTransaction txn
  return (nonce, ← setting.chain.web3.sendRawTransaction signedTxn)

/-- The transaction was sent and mined, with a status other than zero. -/
def Mined : Prop :=
  ∃ lastGasPrice nonce hash receipt, execWithCatch setting.chain.web3.str setting.getCurrent = .ok lastGasPrice ∧
    sending setting call lastGasPrice = .ok (nonce, .hash hash) ∧
    runWithTimeout setting.chain.web3.receipts = .ok receipt ∧ receipt.status ≠ 0

variable {setting call}

theorem publishCall_eq (lastGasPrice : Reply ℚ) :
    setting.publishCall call lastGasPrice = execWithCatch setting.chain.web3.str do
      let sent ← sending setting call lastGasPrice
      let result ← processTx setting.chain.web3.receipts true sent.2
      setting.chain.web3.waitForCommitAndRelease sent.1
      return result := by
  simp only [Setting.publishCall, BlockChain.bcExecute, sending, gasOf, bind_assoc, pure_bind]

theorem processTx_success_iff {polls : List Poll} {tx : Sent} {success : BCSuccess} :
    processTx polls true tx = .ok (.ok success) ↔ ∃ hash receipt, tx = .hash hash ∧ runWithTimeout polls = .ok receipt ∧
      success = ⟨if receipt.status ≠ 0 then .success else .failed, hash⟩ := by
  cases tx with
  | errorDict => simp [processTx]
  | hash hash =>
    simp only [processTx, if_true, getReceipt, bind_eq_ok_iff, pure_eq_ok_iff, Except.ok.injEq, Sent.hash.injEq]
    constructor
    · intro processed
      obtain ⟨state, ⟨receipt, read, rfl⟩, rfl⟩ := processed
      exact ⟨hash, receipt, rfl, read, rfl⟩
    · intro found
      obtain ⟨_, receipt, rfl, read, rfl⟩ := found
      exact ⟨_, ⟨receipt, read, rfl⟩, rfl⟩

/-- A success needs a receipt of the transaction that was sent, with any status, and the lock still locked. -/
theorem publishCall_success_iff {lastGasPrice : Reply ℚ} {success : BCSuccess} :
    setting.publishCall call lastGasPrice = .ok (.ok success) ↔
      ∃ nonce hash receipt, sending setting call lastGasPrice = .ok (nonce, .hash hash) ∧
        runWithTimeout setting.chain.web3.receipts = .ok receipt ∧
        success = ⟨if receipt.status ≠ 0 then .success else .failed, hash⟩ ∧
        setting.chain.web3.waitForCommitAndRelease nonce = .ok () := by
  rw [publishCall_eq, execWithCatch_success_iff]
  simp only [bind_eq_ok_iff, pure_eq_ok_iff]
  constructor
  · intro returned
    obtain ⟨⟨nonce, tx⟩, sent, _, processed, _, committed, rfl⟩ := returned
    obtain ⟨hash, receipt, rfl, read, same⟩ := processTx_success_iff.mp processed
    exact ⟨nonce, hash, receipt, sent, read, same, committed⟩
  · intro steps
    obtain ⟨nonce, hash, receipt, sent, read, same, committed⟩ := steps
    exact ⟨(nonce, .hash hash), sent, _, processTx_success_iff.mpr ⟨hash, receipt, rfl, read, same⟩, (), committed, rfl⟩

private theorem waitForCommit_ends (nonce attempts : Nat) (reads : List (Awaited Nat)) :
    waitForCommit nonce attempts reads = .error .cancelled ∨ waitForCommit nonce attempts reads = .ok () := by
  fun_induction waitForCommit nonce attempts reads with
  | case1 => exact Or.inr rfl
  | case2 => exact Or.inr rfl
  | case3 => exact Or.inr rfl
  | case4 attempts reads onChainNonce early ih => exact ih
  | case5 attempts reads err ih => exact ih
  | case6 => exact Or.inl rfl

/-- The wait for the nonce ends, and its release of the lock raises if somebody else has released it. -/
theorem waitForCommitAndRelease_ends (web3 : Web3) (nonce : Nat) :
    web3.waitForCommitAndRelease nonce = .error .cancelled ∨
      (web3.waitForCommitAndRelease nonce = .ok () ↔ web3.locked = true) := by
  rw [Web3.waitForCommitAndRelease]
  rcases waitForCommit_ends nonce 20 web3.committed with stopped | waited
  · rw [stopped]
    exact Or.inl rfl
  · rw [waited]
    right
    cases web3.locked <;> simp [bind, Except.bind, throw, throwThe, MonadExceptOf.throw, pure, Except.pure]

private theorem publishCall_cancelled {lastGasPrice : Reply ℚ} {nonce : Nat} {hash : Bytes} {receipt : Receipt}
    (sent : sending setting call lastGasPrice = .ok (nonce, .hash hash))
    (read : runWithTimeout setting.chain.web3.receipts = .ok receipt)
    (stopped : setting.chain.web3.waitForCommitAndRelease nonce = .error .cancelled) :
    setting.publishCall call lastGasPrice = .error .cancelled := by
  have processed := processTx_success_iff.mpr ⟨hash, receipt, rfl, read, rfl⟩
  rw [publishCall_eq, sent]
  simp only [bind, Except.bind, processed, stopped]
  rfl

theorem caught_eq (body : PublishM Bool) (before : BaseCoinPairService) : caught body before =
    match body before with
    | .ok result after => .ok result after
    | .error .cancelled after => .error .cancelled after
    | .error (.exception _) after => .ok false after := by
  simp only [caught, tryCatch, tryCatchThe, MonadExceptOf.tryCatch, EStateM.tryCatch]
  rcases body before with ⟨result, after⟩ | ⟨_ | _, after⟩ <;> rfl

private theorem send_unpriced {argument : Except PyError CoinPairService.ContractCall} {before : BaseCoinPairService}
    (stopped : execWithCatch setting.chain.web3.str setting.getCurrent = .error .cancelled) :
    caught (setting.send argument) before = .error .cancelled before := by
  rw [caught_eq, Setting.send, stopped]
  rfl

private theorem conclude_stopped {before : BaseCoinPairService} {lastGasPrice : Reply ℚ}
    (priced : execWithCatch setting.chain.web3.str setting.getCurrent = .ok lastGasPrice)
    (stopped : setting.publishCall call lastGasPrice = .error .cancelled) :
    setting.conclude (.transaction call) before = .error .cancelled before := by
  rw [Setting.conclude, caught_eq, Setting.send, priced]
  simp only [Setting.servicePublish, Publishing.lift, stopped, run_bind, run_pure, run_throw]

private theorem conclude_returned {before : BaseCoinPairService} {lastGasPrice : Reply ℚ} {reply : Reply BCSuccess}
    (priced : execWithCatch setting.chain.web3.str setting.getCurrent = .ok lastGasPrice)
    (returned : setting.publishCall call lastGasPrice = .ok reply) :
    setting.conclude (.transaction call) before =
      match reply, setting.forceUpdate with
      | .ok _, .error .cancelled => .error .cancelled ⟨some setting.now⟩
      | .ok _, .ok () => .ok true ⟨some setting.now⟩
      | _, _ => .ok false ⟨some setting.now⟩ := by
  rw [Setting.conclude, caught_eq, Setting.send, priced]
  simp only [Setting.servicePublish, Publishing.lift, returned, run_bind, run_pure, run_modify]
  cases reply with
  | error err => rfl
  | ok success => rcases setting.forceUpdate with (_ | _) | _ <;> rfl

/-- A contract call that returns is stamped with the time, whatever it returns. -/
theorem transaction_run (uncancelled : ∀ before after, setting.conclude (.transaction call) before ≠ .error .cancelled after) :
    ∃ lastGasPrice reply, execWithCatch setting.chain.web3.str setting.getCurrent = .ok lastGasPrice ∧
      setting.publishCall call lastGasPrice = .ok reply ∧
      ∀ before, setting.conclude (.transaction call) before = .ok (reply.isOk && setting.forceUpdate.isOk) ⟨some setting.now⟩ := by
  rcases execWithCatch_ends setting.chain.web3.str setting.getCurrent with stopped | ⟨lastGasPrice, priced⟩
  · exact absurd (send_unpriced stopped) (uncancelled ⟨none⟩ _)
  have ends : setting.publishCall call lastGasPrice = .error .cancelled ∨ ∃ reply, setting.publishCall call lastGasPrice = .ok reply :=
    execWithCatch_ends _ _
  rcases ends with stopped | ⟨reply, returned⟩
  · exact absurd (conclude_stopped priced stopped) (uncancelled ⟨none⟩ _)
  refine ⟨lastGasPrice, reply, priced, returned, fun before => ?_⟩
  have run := @conclude_returned setting call before _ _ priced returned
  cases reply with
  | error err => exact run
  | ok success =>
    cases update : setting.forceUpdate with
    | ok _ => rw [run, update]; rfl
    | error raised =>
      cases raised with
      | cancelled => exact absurd (run.trans (by rw [update])) (uncancelled before ⟨some setting.now⟩)
      | exception err => rw [run, update]; rfl

/-- Where no contract call is made, nothing is reported and nothing changes. -/
theorem conclude_idle {publication : CoinPairLoop.Publication} (idle : ∀ call, publication ≠ .transaction call)
    (uncancelled : ∀ before after, setting.conclude publication before ≠ .error .cancelled after) (before : BaseCoinPairService) :
    setting.conclude publication before = .ok false before := by
  cases publication with
  | notEnoughSignatures => rfl
  | tooCloseToExpiration => rfl
  | transaction call => exact absurd rfl (idle call)
  | failed err =>
    rcases execWithCatch_ends setting.chain.web3.str setting.getCurrent with stopped | ⟨lastGasPrice, priced⟩
    · exact absurd (send_unpriced stopped) (uncancelled before before)
    · rw [Setting.conclude, caught_eq, Setting.send, priced]
      rfl

/-- What is reported is whether the transaction was mined, and the pair is stamped then and only then. -/
def ReportsMined (setting : Setting) (publication : CoinPairLoop.Publication) (run : PublishM Bool) : Prop :=
  ∀ before, ((∃ call, publication = .transaction call ∧ Mined setting call) → run before = .ok true ⟨some setting.now⟩) ∧
    ((¬∃ call, publication = .transaction call ∧ Mined setting call) → run before = .ok false before)

theorem transaction_reports_iff (uncancelled : ∀ before after, setting.conclude (.transaction call) before ≠ .error .cancelled after) :
    ReportsMined setting (.transaction call) (setting.conclude (.transaction call)) ↔
      Mined setting call ∧ setting.chain.web3.locked = true ∧ setting.forceUpdate = .ok () := by
  obtain ⟨lastGasPrice, reply, priced, returned, run⟩ := transaction_run uncancelled
  constructor
  · intro reports
    have mined : Mined setting call := by
      by_contra unmined
      have never : ¬∃ other, CoinPairLoop.Publication.transaction call = .transaction other ∧ Mined setting other := by
        intro mined
        obtain ⟨_, same, mined⟩ := mined
        cases same
        exact unmined mined
      have unchanged := (reports ⟨none⟩).2 never
      rw [run, EStateM.Result.ok.injEq] at unchanged
      cases unchanged.2
    have told := (reports ⟨none⟩).1 ⟨call, rfl, mined⟩
    rw [run, EStateM.Result.ok.injEq, Bool.and_eq_true] at told
    obtain ⟨⟨succeeded, updated⟩, _⟩ := told
    refine ⟨mined, ?_, ?_⟩
    · cases reply with
      | error err => cases succeeded
      | ok success =>
        obtain ⟨nonce, _, _, _, _, _, committed⟩ := publishCall_success_iff.mp returned
        rcases waitForCommitAndRelease_ends setting.chain.web3 nonce with stopped | released
        · rw [stopped] at committed
          cases committed
        · exact released.mp committed
    · cases update : setting.forceUpdate with
      | error raised =>
        rw [update] at updated
        cases updated
      | ok _ => rfl
  · intro holds before
    obtain ⟨mined, locked, updated⟩ := holds
    refine ⟨fun _ => ?_, fun unmined => absurd ⟨call, rfl, mined⟩ unmined⟩
    obtain ⟨lastGasPrice', nonce, hash, receipt, priced', sent, read, _⟩ := mined
    rw [priced] at priced'
    cases priced'
    rcases waitForCommitAndRelease_ends setting.chain.web3 nonce with stopped | released
    · rw [publishCall_cancelled sent read stopped] at returned
      cases returned
    · have success := publishCall_success_iff.mpr ⟨nonce, hash, receipt, sent, read, rfl, released.mpr locked⟩
      rw [returned] at success
      cases success
      rw [run, updated]
      rfl

theorem conclude_reports_iff {publication : CoinPairLoop.Publication}
    (uncancelled : ∀ before after, setting.conclude publication before ≠ .error .cancelled after) :
    ReportsMined setting publication (setting.conclude publication) ↔
      ∀ call, publication = .transaction call →
        Mined setting call ∧ setting.chain.web3.locked = true ∧ setting.forceUpdate = .ok () := by
  by_cases sends : ∃ call, publication = .transaction call
  · obtain ⟨call, rfl⟩ := sends
    rw [transaction_reports_iff uncancelled]
    simp only [CoinPairLoop.Publication.transaction.injEq, forall_eq']
  · have idle : ∀ call, publication ≠ .transaction call := fun call same => sends ⟨call, same⟩
    constructor
    · exact fun _ call same => absurd same (idle call)
    · refine fun _ before => ⟨?_, fun _ => conclude_idle idle uncancelled before⟩
      intro mined
      obtain ⟨call, same, _⟩ := mined
      exact absurd same (idle call)

end Sending

section Publish
variable {setting : Setting} {eth : EthAccount} {conf : OracleConfiguration} {debug : Bool} {network : CoinPairLoop.Network}
  {completed oracles : List FullOracleRoundInfo} {now : Int} {params : PublishParams} {publication : CoinPairLoop.Publication}

theorem success_iff_mined_iff
    (gathered : CoinPairLoop.publish eth setting.account conf debug network completed now oracles params = .ok publication)
    (uncancelled : ∀ before after,
      publish setting eth conf debug network completed now oracles params before ≠ .error .cancelled after) :
    ReportsMined setting publication (publish setting eth conf debug network completed now oracles params) ↔
      ∀ call, publication = .transaction call →
        Mined setting call ∧ setting.chain.web3.locked = true ∧ setting.forceUpdate = .ok () := by
  have same : publish setting eth conf debug network completed now oracles params = setting.conclude publication := by
    simp only [publish, gathered]
  rw [same] at uncancelled ⊢
  exact conclude_reports_iff uncancelled

end Publish

section Receipts
open PublishedQuorum GatherSignatures

/-- All goes well, and the second poll brings a receipt with some status. -/
def receivedWeb3 (status : Nat) : Web3 :=
  { str := fun _ => "", functions := fun _ => .ok (), acquire := .ok 7, estimateGas := fun _ _ _ => .ok 150000
    chainId := .ok (some 30), buildTransaction := fun _ _ => .ok [1], signTransaction := fun txn => .ok (0 :: txn)
    sendRawTransaction := fun signedTxn => .ok (.hash (2 :: signedTxn))
    receipts := [.transactionNotFound,
      .answer (some { transactionHash := [2, 0, 1], blockHash := some [3], gasUsed := 120000, status })]
    committed := [.ok 8], locked := true }

def receivedSetting (status : Nat) : Setting :=
  { account := publisherAccount, chain := ⟨none, receivedWeb3 status⟩, getCurrent := .ok (.ok 65000000)
    tasksRunnerMinGas := 0, now := 1700000030, forceUpdate := .ok () }

/-- An oracle of two publishes a price, with the signature of the other. -/
def publishPrice (status : Nat) : PublishM Bool :=
  publish (receivedSetting status) legacyEth publisherConfiguration false legacyNetwork [signingOracle] 1700000000
    [signingOracle, publishingOracle] (.price exchangeParams)

private theorem publishPrice_run {status : Nat} {state : TxState}
    (returned : (receivedSetting status).publishCall publishedCall (.ok 65000000) = .ok (.ok ⟨state, [2, 0, 1]⟩))
    (before : BaseCoinPairService) : publishPrice status before = .ok true ⟨some 1700000030⟩ := by
  have account : (receivedSetting status).account = publisherAccount := rfl
  have same : publishPrice status = (receivedSetting status).conclude (.transaction publishedCall) := by
    rw [publishPrice, publish, account, mixed_publication]
  rw [same]
  exact conclude_returned rfl returned

theorem success_iff_mined_iff_received :
    ReportsMined (receivedSetting 1) (.transaction publishedCall) (publishPrice 1) ↔
      ∀ call, CoinPairLoop.Publication.transaction publishedCall = .transaction call →
        Mined (receivedSetting 1) call ∧ (receivedWeb3 1).locked = true ∧ (receivedSetting 1).forceUpdate = .ok () := by
  have account : publisherAccount = (receivedSetting 1).account := rfl
  apply success_iff_mined_iff (account ▸ mixed_publication)
  intro before after stopped
  have run := @publishPrice_run 1 .success (by decide +kernel) before
  cases run.symm.trans stopped

theorem reverted_reported_published :
    (∀ before, publishPrice 0 before = .ok true ⟨some 1700000030⟩) ∧
      ¬ReportsMined (receivedSetting 0) (.transaction publishedCall) (publishPrice 0) := by
  have run := @publishPrice_run 0 .failed (by decide +kernel)
  refine ⟨run, fun reports => ?_⟩
  have unmined : ¬∃ call, CoinPairLoop.Publication.transaction publishedCall = .transaction call ∧ Mined (receivedSetting 0) call := by
    intro mined
    obtain ⟨call, _, _, _, _, receipt, _, _, read, status⟩ := mined
    cases read
    exact status rfl
  cases (run ⟨none⟩).symm.trans ((reports ⟨none⟩).2 unmined)

end Receipts

end OmocNode.Proofs.PublishOutcomes
