import Hpsvm.Properties.FeePayers

/-!
# Airdrops

`airdrop` sends a system transfer from the airdrop account while the account source is swapped for
an empty one. The recipient is therefore credited as the overlay has it, and the account that is
staged for it hides whatever the source holds.
-/

namespace Hpsvm

namespace AccountSharedData

/-- The account with lamports added to it. -/
def credited (account : AccountSharedData) (amount : Nat) : AccountSharedData :=
  { account with lamports := account.lamports + amount }

/-- Owner, data and executable flag are those of an account that does not exist. -/
structure Blank (account : AccountSharedData) : Prop where
  owner : account.owner = AccountSharedData.default.owner
  data : account.data = AccountSharedData.default.data
  executable : account.executable = AccountSharedData.default.executable

end AccountSharedData

namespace Svm

variable (agave : Agave)

/-- Without a source a read sees the overlay only. -/
theorem getAccount_without_source (vm : Svm) (key : Address) :
    (vm.setAccountSource .empty).getAccount key = vm.accounts.getAccountRef key := by
  have read : (vm.setAccountSource .empty).accounts.getAccountRef key =
      vm.accounts.getAccountRef key := rfl
  simp only [getAccount, Accounts.getAccount, Accounts.tryGetAccount, read]
  cases vm.accounts.getAccountRef key with
  | some account => rfl
  | none =>
    by_cases removed : key ∈ (vm.setAccountSource .empty).accounts.cache.removed
    · rw [if_pos removed]
    · rw [if_neg removed]
      rfl

/-- What the message compiler and the system program do with the transfer of an airdrop: the message
lists payer, recipient and system program, the payer is an account of its one instruction, and the
writable accounts of a transfer that succeeds are the two it has moved the amount between. The
recipient is then not the instructions sysvar, which is reserved, and neither is the payer, whose
key was drawn. -/
structure TransfersExactly (vm : Svm) (tx : VersionedTransaction) (recipient : Address)
    (amount fee : Nat) : Prop where
  drawn : vm.airdropPubkey ≠ Ids.instructions
  keys : ∀ run : Execution agave vm tx, run.outcome.result = .ok () →
    run.message.accountKeys = [vm.airdropPubkey, recipient, Ids.systemProgram]
  passed : ∀ run : Execution agave vm tx, run.outcome.result = .ok () →
    run.message.isInstructionAccount 0 = true
  unreserved : ∀ run : Execution agave vm tx, run.outcome.result = .ok () →
    recipient ≠ Ids.instructions
  charges : ∀ run : Execution agave vm tx, run.outcome.result = .ok () → run.fee = fee
  moves : ∀ run : Execution agave vm tx, run.outcome.result = .ok () →
    ∀ payer target program, run.loaded = [payer, target, program] →
      run.postAccounts = [(payer.1, payer.2.charged amount), (target.1, target.2.credited amount)]

/-- The accounts an airdrop stages, both as the overlay has them. -/
def airdropAccounts (vm : Svm) (recipient : Address) (amount fee : Nat) :
    List (Address × AccountSharedData) :=
  [(vm.airdropPubkey,
      (((vm.accounts.getAccountRef vm.airdropPubkey).getD .default).charged fee).charged amount),
    (recipient, ((vm.accounts.getAccountRef recipient).getD .default).credited amount)]

theorem TransfersExactly.postAccounts_eq {vm : Svm} {tx : VersionedTransaction}
    {recipient : Address} {amount fee : Nat}
    (transfers : (vm.setAccountSource .empty).TransfersExactly agave tx recipient amount fee)
    (run : Execution agave (vm.setAccountSource .empty) tx)
    (succeeded : run.outcome.result = .ok ()) :
    run.postAccounts = vm.airdropAccounts recipient amount fee := by
  have keys := transfers.keys run succeeded
  have charged : run.ChargedOnce agave := by
    apply run.chargedOnce
    · simp [transfers.passed run succeeded]
    · rw [keys]
      simpa using transfers.drawn
  obtain ⟨account, read, loaded⟩ := charged.loaded
  have payer : run.payer = vm.airdropPubkey := by
    have first := charged.first
    rw [keys] at first
    exact (Option.some.inj first).symm
  rw [keys, transfers.charges run succeeded, payer] at loaded
  rw [payer, getAccount_without_source] at read
  rw [transfers.moves run succeeded _ _ _ loaded, airdropAccounts, read]
  simp [loadedAccount, transfers.unreserved run succeeded, getAccount_without_source]

/-- An airdrop whose staging is accepted makes the staged accounts visible and nothing else; one
whose staging is refused changes nothing, though it may have reported success. -/
theorem airdrop_reads {vm : Svm} {tx : VersionedTransaction}
    (run : Execution agave (vm.setAccountSource .empty) tx) :
    ((vm.setAccountSource .empty).accounts.AcceptsStaging agave run.postAccounts ∧
        ∀ key, (vm.airdrop agave tx).2.accounts.tryGetAccount key =
          match Accounts.stagedCopy run.postAccounts key with
          | some copy => .ok copy.visible
          | none => vm.accounts.tryGetAccount key) ∨
      (¬ (vm.setAccountSource .empty).accounts.AcceptsStaging agave run.postAccounts ∧
        ∀ key, (vm.airdrop agave tx).2.accounts.tryGetAccount key =
          vm.accounts.tryGetAccount key) := by
  have accepts := (vm.setAccountSource .empty).accounts.syncAccounts_ok_iff agave run.postAccounts
  cases synced : (vm.setAccountSource .empty).accounts.syncAccounts agave run.postAccounts with
  | mk outcome accounts =>
    rw [synced] at accepts
    cases outcome with
    | ok done =>
      refine .inl ⟨accepts.1 rfl, ?_⟩
      intro key
      have sent := sendTransaction_eq agave run run.transactDetached_eq synced
      have after : (vm.airdrop agave tx).2.accounts =
          { accounts with source := vm.accounts.source } := by
        simp only [airdrop, sent]
        rfl
      rw [after]
      exact Accounts.tryGetAccount_addAccounts_over agave vm.accounts.source synced key
    | error error =>
      refine .inr ⟨fun accepted => ?_, ?_⟩
      · cases accepts.2 accepted
      · intro key
        have core := transactCore_eq agave run run.transactDetached_eq
        have journaled : Accounts.Journaled (vm.setAccountSource .empty).accounts accounts := by
          have journaled := (vm.setAccountSource .empty).accounts.journaled_syncAccounts agave
            run.postAccounts
          rwa [synced] at journaled
        rw [synced] at core
        have after : (vm.airdrop agave tx).2.accounts.cache = vm.accounts.cache ∧
            (vm.airdrop agave tx).2.accounts.source = vm.accounts.source := by
          simp only [airdrop, sendTransaction, core, Accounts.rollback_checkpoint journaled]
          exact ⟨rfl, rfl⟩
        exact Accounts.tryGetAccount_congr after.2 (by rw [after.1]) (by rw [after.1])

/-- The recipient has the amount more and is otherwise as it was, and apart from the airdrop account
nothing else reads differently. -/
structure Credited (vm after : Svm) (recipient : Address) (amount : Nat) : Prop where
  balance : balance (after.getAccount recipient) = balance (vm.getAccount recipient) + amount
  owner : ((after.getAccount recipient).getD .default).owner =
    ((vm.getAccount recipient).getD .default).owner
  data : ((after.getAccount recipient).getD .default).data =
    ((vm.getAccount recipient).getD .default).data
  executable : ((after.getAccount recipient).getD .default).executable =
    ((vm.getAccount recipient).getD .default).executable
  others : ∀ key, key ≠ recipient → key ≠ vm.airdropPubkey →
    after.accounts.tryGetAccount key = vm.accounts.tryGetAccount key

/-- The overlay holds the recipient, and not as an account without lamports that the airdrop closes;
or the source holds nothing at the recipient that the staged account could hide. -/
def HoldsRecipient (vm : Svm) (recipient : Address) (amount : Nat) : Prop :=
  match vm.accounts.getAccountRef recipient with
  | some account => account.lamports + amount ≠ 0 ∨ account.Blank
  | none => ∀ account, vm.getAccount recipient = some account →
      account.lamports = 0 ∧ account.Blank

/-- The staged copy of the recipient reads as it should exactly if the overlay holds it. -/
theorem credited_staged_iff {vm after : Svm} {recipient : Address} {amount : Nat}
    (staged : after.getAccount recipient =
      (((vm.accounts.getAccountRef recipient).getD .default).credited amount).visible)
    (others : ∀ key, key ≠ recipient → key ≠ vm.airdropPubkey →
      after.accounts.tryGetAccount key = vm.accounts.tryGetAccount key) :
    vm.Credited after recipient amount ↔ vm.HoldsRecipient recipient amount := by
  unfold HoldsRecipient
  cases held : vm.accounts.getAccountRef recipient with
  | some account =>
    have before : vm.getAccount recipient = some account := by
      simp [getAccount, Accounts.getAccount, Accounts.tryGetAccount, held]
    rw [held] at staged
    by_cases closed : account.lamports + amount = 0
    · -- The staged account has no lamports, so it is removed.
      have gone : after.getAccount recipient = none := by
        rw [staged]
        simp [AccountSharedData.credited, AccountSharedData.visible, closed]
      simp only [closed, ne_eq, not_true_eq_false, false_or]
      constructor
      · intro credited
        have owner := credited.owner
        have data := credited.data
        have executable := credited.executable
        rw [gone, before] at owner data executable
        exact ⟨owner.symm, data.symm, executable.symm⟩
      · intro blank
        refine ⟨?_, ?_, ?_, ?_, others⟩
        · rw [gone, before]
          simp only [balance, Option.map_none, Option.map_some, Option.getD_none, Option.getD_some]
          omega
        all_goals rw [gone, before]
        · exact blank.owner.symm
        · exact blank.data.symm
        · exact blank.executable.symm
    · have kept : after.getAccount recipient = some (account.credited amount) := by
        rw [staged, Option.getD_some, AccountSharedData.visible]
        exact if_neg closed
      simp only [ne_eq, closed, not_false_eq_true, true_or, iff_true]
      refine ⟨?_, ?_, ?_, ?_, others⟩
      all_goals rw [kept, before]
      all_goals rfl
  | none =>
    rw [held] at staged
    have blank : ((after.getAccount recipient).getD .default).Blank := by
      rw [staged]
      unfold AccountSharedData.visible
      split <;> exact ⟨rfl, rfl, rfl⟩
    have lamports : balance (after.getAccount recipient) = amount := by
      rw [staged, balance_visible]
      simp [AccountSharedData.credited, AccountSharedData.default]
    constructor
    · intro credited account before
      have rises := credited.balance
      have owner := credited.owner
      have data := credited.data
      have executable := credited.executable
      rw [before] at rises owner data executable
      rw [lamports] at rises
      simp only [balance, Option.map_some, Option.getD_some] at rises
      exact ⟨by omega, owner.symm.trans blank.owner, data.symm.trans blank.data,
        executable.symm.trans blank.executable⟩
    · intro hidden
      cases before : vm.getAccount recipient with
      | none =>
        refine ⟨?_, ?_, ?_, ?_, others⟩
        · rw [lamports, before]
          simp [balance]
        all_goals rw [before]
        · exact blank.owner
        · exact blank.data
        · exact blank.executable
      | some account =>
        obtain ⟨empty, same⟩ := hidden account before
        refine ⟨?_, ?_, ?_, ?_, others⟩
        · rw [lamports, before]
          simp [balance, empty]
        all_goals rw [before]
        · exact blank.owner.trans same.owner.symm
        · exact blank.data.trans same.data.symm
        · exact blank.executable.trans same.executable.symm

end Svm

namespace Sample

/-- A source with an account of another program at `0x22`. -/
def ownedSource : AccountSource := .ofGetAccount fun key =>
  if key = 0x22 then .ok (some ⟨700, [1], 0x99, false, 0⟩) else .ok none

/-- A VM with a funded airdrop account and the given accounts over that source. -/
def airdropVm (entries : List (Address × AccountSharedData)) : Svm :=
  vm ((0xa1d, systemAccount 1_000_000) :: entries) ownedSource

/-- The airdrop of 64 lamports to `0x22`. -/
def airdropTx : VersionedTransaction := transferTx 1 0xa1d [0x22] [([0, 1], 64)]

/-- The VM the airdrop to an account of the overlay runs in. -/
def heldVm : Svm := (airdropVm [(0x22, systemAccount 7)]).setAccountSource .empty

theorem airdropTx_transfers : heldVm.TransfersExactly agave airdropTx 0x22 64 5000 := by
  have message : ((heldVm.sanitize agave airdropTx).toOption.any fun sanitized =>
      sanitized.message.accountKeys == [0xa1d, 0x22, Ids.systemProgram] &&
        sanitized.message.isInstructionAccount 0) = true := by decide +kernel
  have loads : ((heldVm.sanitize agave airdropTx).toOption.any fun sanitized =>
      (heldVm.loadAccounts agave sanitized.message ⟨fun _ => 0⟩ 5000 0
          sanitized.message.accountKeys none).toOption.any fun outcome =>
        outcome.1 == [(0xa1d, systemAccount 995_000), (0x22, systemAccount 7),
          (Ids.systemProgram, builtinAccount)]) = true := by decide +kernel
  have post : (heldVm.transactDetached agave airdropTx).postAccounts =
      [(0xa1d, systemAccount 994_936), (0x22, systemAccount 71)] := by decide +kernel
  have fee : (heldVm.transactDetached agave airdropTx).info.fee = 5000 := by decide +kernel
  have charges : ∀ run : Svm.Execution agave heldVm airdropTx, run.fee = 5000 := by
    intro run
    rwa [run.transactDetached_eq] at fee
  refine ⟨by decide, ?_, ?_, fun _ _ => by decide, fun run _ => charges run, ?_⟩
  · intro run _
    rw [run.sanitize_eq] at message
    exact eq_of_beq (Bool.and_eq_true_iff.1 message).1
  · intro run _
    rw [run.sanitize_eq] at message
    exact (Bool.and_eq_true_iff.1 message).2
  · intro run _ payer target program loaded
    have load := run.load_eq
    have rent : run.rent = ⟨fun _ => 0⟩ := by
      have found : heldVm.accounts.rent? agave = some ⟨fun _ => 0⟩ := rfl
      exact (Option.some.inj (found.symm.trans run.rent_eq)).symm
    rw [run.transactDetached_eq, Svm.Execution.detached_postAccounts] at post
    have charged : heldVm.transactionFee agave run.sanitized.message run.limits = 5000 :=
      charges run
    rw [rent, charged] at load
    simp only [run.sanitize_eq, load, Except.toOption, Option.any_some] at loads
    rw [post]
    rw [eq_of_beq loads] at loaded
    cases loaded
    decide

end Sample

end Hpsvm
