import Hpsvm.Properties.Charging

/-!
# The fee payer

`process_transaction` looks for its fee payer while it loads the accounts: the first key that is not
only invoked pays, and the instructions sysvar is skipped because its account is constructed. For a
transaction that reaches execution the payer is therefore its first key, unless that key is the
instructions sysvar.
-/

namespace Hpsvm

/-- A covered fee leaves a nonce account its rent minimum. -/
theorem CoversFee.nonce_keeps {agave : Agave} {address : Address} {account : AccountSharedData}
    {rent : Rent} {fee : Nat} (covers : CoversFee agave address account rent fee)
    (nonce : agave.systemAccountKind account = some .nonce) :
    rent.minimumBalance nonceStateSize ≤ (account.charged fee).lamports := by
  obtain ⟨kind, found, covered⟩ := covers.covered
  rw [nonce] at found
  cases found
  simp only [minBalance] at covered
  simp only [AccountSharedData.charged]
  omega

/-- A covered fee does not take the rent exemption of an account. -/
theorem CoversFee.rent_keeps {agave : Agave} {address : Address} {account : AccountSharedData}
    {rent : Rent} {fee : Nat} (covers : CoversFee agave address account rent fee)
    (other : address ≠ Ids.incinerator)
    (exempt : getAccountRentState rent account.lamports account.data.length = .rentExempt)
    (lamports size : Nat) :
    getAccountRentState rent (account.charged fee).lamports account.data.length ≠
      .rentPaying lamports size := by
  have allowed := covers.rent_state other
  unfold keepsRentState at allowed
  rw [exempt] at allowed
  intro paying
  rw [paying] at allowed
  cases allowed

namespace Svm

variable (agave : Agave)

/-- The loop stops at its first key if that key is not the instructions sysvar and is not only
invoked. -/
theorem loadAccounts_first {vm : Svm} {message : SanitizedMessage} {rent : Rent} {fee : Nat}
    {key : Address} {keys : List Address} {loaded : List (Address × AccountSharedData)}
    {payer : Address} (plain : key ≠ Ids.instructions)
    (pays : (!message.isInvoked 0 || message.isInstructionAccount 0) = true)
    (done : vm.loadAccounts agave message rent fee 0 (key :: keys) none =
      .ok (loaded, some payer)) :
    payer = key ∧ ∃ account, vm.getAccount key = some account ∧
      CoversFee agave key account rent fee ∧
      loaded = (key, account.charged fee) ::
        keys.map fun key => (key, vm.loadedAccount agave message key) := by
  unfold loadAccounts at done
  rw [if_neg plain] at done
  split at done
  · cases done
  next found read =>
    have reads : vm.getAccount key = found := by simp [getAccount, Accounts.getAccount, read]
    simp only [Option.isNone_none, Bool.true_and, pays, if_true] at done
    split at done
    · cases done
    next charged validated =>
      obtain ⟨rfl, covers⟩ := validateFeePayer_ok_iff.1 validated
      split at done
      · cases done
      next others found' rest =>
        cases done
        obtain ⟨rfl, same⟩ := loadAccounts_of_payer agave rest
        cases same
        cases found with
        | none => exact absurd rfl covers.funded
        | some account => exact ⟨rfl, account, reads, covers, rfl⟩

/-- The fee was taken once while the accounts were loaded, from the account of the first key, which
could pay it; every other key was loaded as it is. -/
structure Execution.ChargedOnce {vm : Svm} {tx : VersionedTransaction}
    (run : Execution agave vm tx) : Prop where
  first : run.message.accountKeys.head? = some run.payer
  loaded : ∃ account, vm.getAccount run.payer = some account ∧
    run.loaded = (run.payer, account.charged run.fee) ::
      run.message.accountKeys.tail.map fun key => (key, vm.loadedAccount agave run.message key)
  exact : ∀ account, vm.getAccount run.payer = some account →
    (account.charged run.fee).lamports + run.fee = account.lamports
  nonce : ∀ account, vm.getAccount run.payer = some account →
    agave.systemAccountKind account = some .nonce →
      run.rent.minimumBalance nonceStateSize ≤ (account.charged run.fee).lamports
  rent_state : ∀ account, vm.getAccount run.payer = some account →
    run.payer ≠ Ids.incinerator →
    getAccountRentState run.rent account.lamports account.data.length = .rentExempt →
    ∀ lamports size, getAccountRentState run.rent (account.charged run.fee).lamports
      account.data.length ≠ .rentPaying lamports size

theorem Execution.chargedOnce {vm : Svm} {tx : VersionedTransaction} {run : Execution agave vm tx}
    (pays : (!run.message.isInvoked 0 || run.message.isInstructionAccount 0) = true)
    (plain : run.message.accountKeys.head? ≠ some Ids.instructions) : run.ChargedOnce agave := by
  have load := run.load_eq
  change vm.loadAccounts agave run.message run.rent run.fee 0 run.message.accountKeys none =
    .ok (run.loaded, some run.payer) at load
  cases keys : run.message.accountKeys with
  | nil => simp [keys, loadAccounts] at load
  | cons key rest =>
    rw [keys] at load plain
    have plain : key ≠ Ids.instructions := by simpa using plain
    obtain ⟨same, account, read, covers, loaded⟩ := loadAccounts_first agave plain pays load
    -- Whatever the payer reads as is the account that was validated.
    have only : ∀ other, vm.getAccount run.payer = some other → other = account := by
      intro other found
      rw [same, read] at found
      exact (Option.some.inj found).symm
    refine ⟨?_, ⟨account, ?_, ?_⟩, ?_, ?_, ?_⟩
    · rw [keys, same]
      rfl
    · rw [same, read]
    · rw [loaded, keys, same]
      rfl
    · intro other found
      rw [only other found]
      obtain ⟨kind, -, covered⟩ := covers.covered
      simp only [AccountSharedData.charged]
      omega
    · intro other found nonce
      rw [only other found] at nonce ⊢
      exact covers.nonce_keeps nonce
    · intro other found differ exempt
      rw [only other found] at exempt ⊢
      rw [same] at differ
      exact covers.rent_keeps differ exempt

/-- A transaction that does not reach execution leaves every account as it is. -/
theorem accounts_of_excluded {vm : Svm} {tx : VersionedTransaction}
    (excluded : (vm.transactDetached agave tx).included = false) :
    (vm.sendTransaction agave tx).2.accounts = vm.accounts := by
  rcases vm.transactDetached_cases agave tx with ⟨result, rejected, detached⟩ | ⟨run, detached⟩
  · unfold sendTransaction
    rcases transactCore_of_rejected agave rejected detached with
      ⟨failure, core, -⟩ | ⟨staged, core, accounts, -⟩
    · rw [core]
    · rw [core]
      simp only [ExecutedTx.commit]
      exact congrArg Svm.accounts accounts
  · rw [detached] at excluded
    cases excluded

/-- The fee is charged once and to the first key exactly if that key is not the instructions sysvar.
A transaction that is not executed changes no account. -/
theorem fee_charged_once_iff (vm : Svm) (tx : VersionedTransaction)
    (sanitized : ∀ loaded reserved built, agave.buildSanitized tx loaded reserved = .ok built →
      built.message.isInvoked 0 = false) :
    (∀ run : Execution agave vm tx, run.ChargedOnce agave ↔
        run.message.accountKeys.head? ≠ some Ids.instructions) ∧
      ((vm.transactDetached agave tx).included = false →
        (vm.sendTransaction agave tx).2.accounts = vm.accounts) := by
  refine ⟨?_, accounts_of_excluded agave⟩
  intro run
  constructor
  · intro charged sysvar
    obtain ⟨before, after, account, -, -, plain, -⟩ := loadAccounts_eq_ok agave run.load_eq
    have same := charged.first.symm.trans sysvar
    exact plain (Option.some.inj same)
  · intro plain
    obtain ⟨loaded, -, built⟩ := built_of_sanitize agave run.sanitize_eq
    have passive : run.message.isInvoked 0 = false := sanitized loaded _ _ built
    exact run.chargedOnce agave (by simp [passive]) plain

/-- Where the payer's key is listed again, which only an unverified transaction may do, the other
copies of its account are not charged. -/
theorem Execution.ChargedOnce.copies_iff {vm : Svm} {tx : VersionedTransaction}
    {run : Execution agave vm tx} (charged : run.ChargedOnce agave)
    {account : AccountSharedData} (read : vm.getAccount run.payer = some account) :
    (∀ copy, (run.payer, copy) ∈ run.loaded → copy = account.charged run.fee) ↔
      run.payer ∉ run.message.accountKeys.tail ∨ run.fee = 0 := by
  obtain ⟨other, read', loaded⟩ := charged.loaded
  obtain rfl : other = account := Option.some.inj (read'.symm.trans read)
  obtain ⟨-, -, -, -, -, plain, -⟩ := loadAccounts_eq_ok agave run.load_eq
  have again : vm.loadedAccount agave run.message run.payer = other := by
    simp [loadedAccount, plain, read]
  have exact := charged.exact other read
  rw [loaded]
  constructor
  · intro all
    by_cases listed : run.payer ∈ run.message.accountKeys.tail
    · right
      have copy := all other (List.mem_cons_of_mem _
        (List.mem_map.2 ⟨run.payer, listed, by rw [again]⟩))
      rw [← copy] at exact
      omega
    · exact .inl listed
  · intro once copy member
    rcases List.mem_cons.1 member with same | listed
    · exact (Prod.mk.inj same).2
    · obtain ⟨key, tail, same⟩ := List.mem_map.1 listed
      obtain ⟨rfl, rfl⟩ := Prod.mk.inj same
      rcases once with unlisted | free
      · exact absurd tail unlisted
      · rw [again, free]
        rfl

end Svm

namespace Sample

/-- A VM that verifies no signature. -/
def unverifiedVm : Svm := payingVm.setSigverify false

/-- A transfer whose first key is the instructions sysvar. -/
def sysvarPayerTx : VersionedTransaction := transferTx 1 Ids.instructions [0x11, 0x22] [([1, 2], 64)]

/-- The fee is taken from the second key, which has not signed. -/
theorem second_key_pays_fee :
    sysvarPayerTx.staticAccountKeys.head? = some Ids.instructions ∧
      (unverifiedVm.transactDetached agave sysvarPayerTx).included = true ∧
      (unverifiedVm.transactDetached agave sysvarPayerTx).feePayer = some 0x11 ∧
      balance (unverifiedVm.getAccount 0x11) = 1_000_000 ∧
      balance ((unverifiedVm.sendTransaction agave sysvarPayerTx).2.getAccount 0x11) =
        994_936 := by
  decide

theorem plain_transfer_charged_once :
    (∀ run : Svm.Execution agave payingVm plainTx, run.ChargedOnce agave ↔
        run.message.accountKeys.head? ≠ some Ids.instructions) ∧
      ((payingVm.transactDetached agave plainTx).included = false →
        (payingVm.sendTransaction agave plainTx).2.accounts = payingVm.accounts) := by
  refine Svm.fee_charged_once_iff agave payingVm plainTx ?_
  intro loaded reserved built done
  cases done
  rfl

end Sample

end Hpsvm
