import Hpsvm.Properties.Discard

/-!
# What a failed transaction leaves

A transaction whose instructions fail is still charged its fee. The accounts staged for it are the
writable accounts of the context the failing instruction left, so apart from the fee they read as
before only where that context still holds what was loaded.
-/

namespace Hpsvm

/-- The lamports of an account that may be missing. -/
def balance (account : Option AccountSharedData) : Nat :=
  (account.map fun account => account.lamports).getD 0

@[simp] theorem balance_visible (account : AccountSharedData) :
    balance account.visible = account.lamports := by
  unfold AccountSharedData.visible balance
  split
  next empty => simp [empty]
  · rfl

/-- The account with a fee taken from it. -/
def AccountSharedData.charged (account : AccountSharedData) (fee : Nat) : AccountSharedData :=
  { account with lamports := account.lamports - fee }

/-- The rent state of a charged account may change this way. -/
def keepsRentState (rent : Rent) (account charged : AccountSharedData) : Bool :=
  transitionAllowed (getAccountRentState rent account.lamports account.data.length)
    (getAccountRentState rent charged.lamports account.data.length)

/-- What `validate_fee_payer` requires of an account. -/
structure CoversFee (agave : Agave) (address : Address) (account : AccountSharedData) (rent : Rent)
    (fee : Nat) : Prop where
  funded : account.lamports ≠ 0
  covered : ∃ kind, agave.systemAccountKind account = some kind ∧
    minBalance rent kind + fee ≤ account.lamports
  rent_state : address ≠ Ids.incinerator → keepsRentState rent account (account.charged fee) = true

theorem validateFeePayer_ok_iff {agave : Agave} {address : Address}
    {account charged : AccountSharedData} {index : Nat} {rent : Rent} {fee : Nat} :
    validateFeePayer agave address account index rent fee = .ok charged ↔
      charged = account.charged fee ∧ CoversFee agave address account rent fee := by
  unfold validateFeePayer
  by_cases empty : account.lamports = 0
  · simp only [empty, if_true, reduceCtorEq, false_iff, not_and]
    exact fun _ covers => covers.funded empty
  rw [if_neg empty]
  cases kind : agave.systemAccountKind account with
  | none =>
    simp only [reduceCtorEq, false_iff, not_and]
    rintro _ ⟨-, ⟨other, found, -⟩, -⟩
    rw [kind] at found
    cases found
  | some kind' =>
    simp only
    by_cases short : account.lamports < minBalance rent kind' + fee
    · simp only [short, if_true, reduceCtorEq, false_iff, not_and]
      rintro _ ⟨-, ⟨other, found, covered⟩, -⟩
      rw [kind] at found
      cases found
      omega
    rw [if_neg short]
    unfold checkRentStateWithAccount
    by_cases refused : (address != Ids.incinerator && !keepsRentState rent account
        (account.charged fee)) = true
    · -- The transition is refused, and the address is not the incinerator.
      unfold keepsRentState at refused
      simp only [AccountSharedData.charged] at refused
      simp only [refused, if_true, reduceCtorEq, false_iff, not_and]
      intro _ covers
      simp only [Bool.and_eq_true, bne_iff_ne, Bool.not_eq_true'] at refused
      have kept := covers.rent_state refused.1
      unfold keepsRentState at kept
      simp only [AccountSharedData.charged] at kept
      rw [kept] at refused
      cases refused.2
    · have allowed : address ≠ Ids.incinerator →
          keepsRentState rent account (account.charged fee) = true := by
        simpa using refused
      unfold keepsRentState at refused
      simp only [AccountSharedData.charged] at refused
      rw [if_neg refused]
      simp only [Except.ok.injEq]
      constructor
      · intro same
        exact ⟨same.symm, empty, ⟨kind', kind, by omega⟩, allowed⟩
      · rintro ⟨same, -⟩
        exact same.symm

theorem CoversFee.fee_le {agave : Agave} {address : Address} {account : AccountSharedData}
    {rent : Rent} {fee : Nat} (covers : CoversFee agave address account rent fee) :
    fee ≤ account.lamports := by
  obtain ⟨kind, -, covered⟩ := covers.covered
  omega

namespace Svm

variable (agave : Agave)

/-! ### The loaded accounts -/

/-- The account a key is loaded with when it does not pay the fee. -/
def loadedAccount (vm : Svm) (message : SanitizedMessage) (key : Address) : AccountSharedData :=
  if key = Ids.instructions then constructInstructionsAccount agave message
  else (vm.getAccount key).getD .default

/-- Once the payer is found, every further key is loaded as it is. -/
theorem loadAccounts_of_payer {vm : Svm} {message : SanitizedMessage} {rent : Rent}
    {fee index : Nat} {keys : List Address} {payer : Address}
    {loaded : List (Address × AccountSharedData)} {payer' : Option Address}
    (done : vm.loadAccounts agave message rent fee index keys (some payer) =
      .ok (loaded, payer')) :
    loaded = (keys.map fun key => (key, vm.loadedAccount agave message key)) ∧
      payer' = some payer := by
  induction keys generalizing index loaded with
  | nil =>
    cases done
    exact ⟨rfl, rfl⟩
  | cons key keys ih =>
    unfold loadAccounts at done
    split at done
    next sysvar =>
      split at done
      · cases done
      next others found rest =>
        cases done
        obtain ⟨rfl, rfl⟩ := ih rest
        simp [loadedAccount, sysvar]
    next plain =>
      split at done
      · cases done
      next found read =>
        simp only [Option.isNone_some, Bool.false_and, Bool.false_eq_true, if_false] at done
        split at done
        · cases done
        next others found rest =>
          cases done
          obtain ⟨rfl, rfl⟩ := ih rest
          simp [loadedAccount, plain, getAccount, Accounts.getAccount, read]

/-- The keys split at the payer, whose account alone is charged. -/
theorem loadAccounts_eq_ok {vm : Svm} {message : SanitizedMessage} {rent : Rent}
    {fee index : Nat} {keys : List Address} {loaded : List (Address × AccountSharedData)}
    {payer : Address}
    (done : vm.loadAccounts agave message rent fee index keys none = .ok (loaded, some payer)) :
    ∃ before after account, keys = before ++ payer :: after ∧
      vm.getAccount payer = some account ∧ payer ≠ Ids.instructions ∧
      account.lamports ≠ 0 ∧ fee ≤ account.lamports ∧
      loaded = (before.map fun key => (key, vm.loadedAccount agave message key)) ++
        (payer, account.charged fee) ::
          after.map fun key => (key, vm.loadedAccount agave message key) := by
  induction keys generalizing index loaded with
  | nil => cases done
  | cons key keys ih =>
    unfold loadAccounts at done
    split at done
    next sysvar =>
      split at done
      · cases done
      next others found rest =>
        cases done
        obtain ⟨before, after, account, rfl, read, differ, funded, covered, rfl⟩ := ih rest
        refine ⟨key :: before, after, account, rfl, read, differ, funded, covered, ?_⟩
        simp [loadedAccount, sysvar]
    next plain =>
      split at done
      · cases done
      next found read =>
        have reads : vm.getAccount key = found := by simp [getAccount, Accounts.getAccount, read]
        simp only at done
        split at done
        · split at done
          · cases done
          next charged validated =>
            -- This key pays: a missing account has no lamports and is refused.
            obtain ⟨rfl, covers⟩ := validateFeePayer_ok_iff.1 validated
            split at done
            · cases done
            next others found' rest =>
              cases done
              obtain ⟨rfl, same⟩ := loadAccounts_of_payer agave rest
              cases same
              cases found with
              | none => exact absurd rfl covers.funded
              | some account =>
                exact ⟨[], keys, account, rfl, reads, plain, covers.funded, covers.fee_le, rfl⟩
        · split at done
          · cases done
          next others found' rest =>
            cases done
            obtain ⟨before, after, account, rfl, read', differ, funded, covered, rfl⟩ := ih rest
            refine ⟨key :: before, after, account, rfl, read', differ, funded, covered, ?_⟩
            simp [loadedAccount, plain, reads]

theorem map_fst_of_loadAccounts {vm : Svm} {message : SanitizedMessage} {rent : Rent}
    {fee index : Nat} {keys : List Address} {loaded : List (Address × AccountSharedData)}
    {payer : Address}
    (done : vm.loadAccounts agave message rent fee index keys none = .ok (loaded, some payer)) :
    loaded.map Prod.fst = keys := by
  obtain ⟨before, after, account, split, -, -, -, -, loaded⟩ := loadAccounts_eq_ok agave done
  rw [split, loaded]
  simp [Function.comp_def]

theorem Execution.map_fst_loaded {vm : Svm} {tx : VersionedTransaction}
    (run : Execution agave vm tx) : run.loaded.map Prod.fst = run.message.accountKeys :=
  map_fst_of_loadAccounts agave run.load_eq

theorem writableAccounts_sublist (message : SanitizedMessage)
    (accounts : List (Address × AccountSharedData)) :
    ((writableAccounts message accounts).map Prod.fst).Sublist (accounts.map Prod.fst) := by
  have filtered := (List.filter_sublist (l := accounts.zipIdx)
    (p := fun pair => message.isWritable pair.2)).map Prod.fst
  rw [List.zipIdx_map_fst] at filtered
  exact filtered.map Prod.fst

theorem map_fst_pairs {keys : List Address} (context : InvokeContext keys) :
    context.pairs.map Prod.fst = keys := by
  rw [InvokeContext.pairs, List.map_ofFn]
  exact List.ofFn_get keys

/-! ### Failed transactions -/

/-- The nonce account a durable-nonce transaction advances. -/
def durableNonce? (vm : Svm) (tx : VersionedTransaction) : Option Address :=
  match vm.sanitize agave tx with
  | .ok sanitized => agave.getDurableNonce sanitized.message
  | .error _ => none

/-- `after` reads as the VM does, apart from the charged payer and the nonce account. -/
structure OnlyCharged (vm : Svm) (payer : Address) (nonce : Option Address) (fee : Nat)
    (after : Address → Option AccountSharedData) : Prop where
  others : ∀ key, key ≠ payer → nonce ≠ some key → after key = vm.getAccount key
  charged : nonce ≠ some payer →
    after payer = (vm.getAccount payer).bind fun account => (account.charged fee).visible
  lower : balance (after payer) + fee = balance (vm.getAccount payer)

/-- A failed transaction leaves only its fee behind, on each of the ways to commit it. -/
structure FailedAtomic (vm : Svm) (tx : VersionedTransaction) (payer : Address) : Prop where
  sent : vm.OnlyCharged payer (vm.durableNonce? agave tx) (vm.transactDetached agave tx).info.fee
    (vm.sendTransaction agave tx).2.getAccount
  committed : ∀ staged, vm.transact agave tx = .ok staged →
    vm.OnlyCharged payer (vm.durableNonce? agave tx) (vm.transactDetached agave tx).info.fee
      staged.commit.2.getAccount
  merged : ∀ accounts history,
    applyCommitDelta agave vm.accounts vm.history
      (detachedIntoResultAndDelta (vm.transactDetached agave tx) vm.history.isEnabled).2 =
        (.ok (), accounts, history) →
    vm.OnlyCharged payer (vm.durableNonce? agave tx) (vm.transactDetached agave tx).info.fee
      accounts.getAccount

/-- The staged accounts are as they were loaded: each as the VM reads it, the payer less the
fee. -/
structure StagesLoaded (vm : Svm) (payer : Address) (nonce : Option Address) (fee : Nat)
    (staged : List (Address × AccountSharedData)) : Prop where
  others : ∀ key copy, Accounts.stagedCopy staged key = some copy → key ≠ payer →
    nonce ≠ some key → copy.visible = vm.getAccount key
  charged : ∀ copy, Accounts.stagedCopy staged payer = some copy → nonce ≠ some payer →
    copy.visible = (vm.getAccount payer).bind fun account => (account.charged fee).visible
  lower : ∀ copy, Accounts.stagedCopy staged payer = some copy →
    copy.lamports + fee = balance (vm.getAccount payer)
  readonly_payer : Accounts.stagedCopy staged payer = none → fee = 0

section OnlyCharged

variable {vm : Svm} {payer : Address} (nonce : Option Address) (fee : Nat)
  {account : AccountSharedData}

theorem onlyCharged_getAccount_iff (read : vm.getAccount payer = some account)
    (funded : account.lamports ≠ 0) :
    vm.OnlyCharged payer nonce fee vm.getAccount ↔ fee = 0 := by
  constructor
  · intro charged
    have lower := charged.lower
    omega
  · rintro rfl
    refine ⟨fun _ _ _ => rfl, ?_, rfl⟩
    intro _
    simp [read, AccountSharedData.charged, AccountSharedData.visible, funded]

theorem onlyCharged_staged_iff {staged : List (Address × AccountSharedData)}
    {after : Address → Option AccountSharedData}
    (reads : ∀ key, after key = match Accounts.stagedCopy staged key with
      | some copy => copy.visible
      | none => vm.getAccount key)
    (read : vm.getAccount payer = some account) (funded : account.lamports ≠ 0) :
    vm.OnlyCharged payer nonce fee after ↔ vm.StagesLoaded payer nonce fee staged := by
  constructor
  · intro charged
    refine ⟨?_, ?_, ?_, ?_⟩
    · intro key copy found differ plain
      have kept := charged.others key differ plain
      rwa [reads, found] at kept
    · intro copy found plain
      have kept := charged.charged plain
      rwa [reads, found] at kept
    · intro copy found
      have lower := charged.lower
      rwa [reads, found, balance_visible] at lower
    · intro missing
      have lower := charged.lower
      rw [reads, missing] at lower
      simpa using lower
  · intro stages
    refine ⟨?_, ?_, ?_⟩
    · intro key differ plain
      rw [reads]
      cases found : Accounts.stagedCopy staged key with
      | none => rfl
      | some copy => exact stages.others key copy found differ plain
    · intro plain
      rw [reads]
      cases found : Accounts.stagedCopy staged payer with
      | none =>
        -- A payer that is not staged was charged nothing.
        have free := stages.readonly_payer found
        subst free
        simp [read, AccountSharedData.charged, AccountSharedData.visible, funded]
      | some copy => exact stages.charged copy found plain
    · rw [reads]
      cases found : Accounts.stagedCopy staged payer with
      | none =>
        rw [stages.readonly_payer found]
        rfl
      | some copy =>
        rw [balance_visible]
        exact stages.lower copy found

end OnlyCharged

/-- What the ways to commit an included transaction have in common: accepted staging ends every one
of them with the same accounts, refused staging commits nothing. -/
inductive CommitPaths (vm : Svm) (tx : VersionedTransaction) : Prop
  | accepted (accounts : Accounts)
      (accepts : vm.accounts.AcceptsStaging agave (vm.transactDetached agave tx).postAccounts)
      (reads : ∀ key, accounts.getAccount key =
        match Accounts.stagedCopy (vm.transactDetached agave tx).postAccounts key with
        | some copy => copy.visible
        | none => vm.getAccount key)
      (sent : (vm.sendTransaction agave tx).2.getAccount = accounts.getAccount)
      (stages : ∃ staged, vm.transact agave tx = .ok staged)
      (committed : ∀ staged, vm.transact agave tx = .ok staged →
        staged.commit.2.getAccount = accounts.getAccount)
      (merged : ∀ accounts' history, applyCommitDelta agave vm.accounts vm.history
        (detachedIntoResultAndDelta (vm.transactDetached agave tx) vm.history.isEnabled).2 =
          (.ok (), accounts', history) → accounts' = accounts)
  | refused
      (refuses : ¬ vm.accounts.AcceptsStaging agave (vm.transactDetached agave tx).postAccounts)
      (sent : (vm.sendTransaction agave tx).2.getAccount = vm.getAccount)
      (unstaged : ∀ staged, vm.transact agave tx ≠ .ok staged)
      (unmerged : ∀ accounts' history, applyCommitDelta agave vm.accounts vm.history
        (detachedIntoResultAndDelta (vm.transactDetached agave tx) vm.history.isEnabled).2 ≠
          (.ok (), accounts', history))

theorem commitPaths_of_included {vm : Svm} {tx : VersionedTransaction}
    (included : (vm.transactDetached agave tx).included = true) : vm.CommitPaths agave tx := by
  obtain ⟨run, detached⟩ := exists_execution_of_included agave included
  have post : (vm.transactDetached agave tx).postAccounts = run.postAccounts := by
    rw [detached]
    rfl
  have delta : (detachedIntoResultAndDelta (vm.transactDetached agave tx)
      vm.history.isEnabled).2.postAccounts = run.postAccounts := by
    rw [detached]
    rfl
  -- All three paths stage the same accounts on the same database, so one answer decides them.
  have core := transactCore_eq agave run detached
  have restored := vm.accounts.tryGetAccount_rollback_syncAccounts agave run.postAccounts
  have accepts := vm.accounts.syncAccounts_ok_iff agave run.postAccounts
  cases synced : vm.accounts.syncAccounts agave run.postAccounts with
  | mk outcome accounts =>
    rw [synced] at core restored accepts
    cases outcome with
    | ok done =>
      refine .accepted accounts ?_ ?_ ?_ ?_ ?_ ?_
      · rw [post]
        exact accepts.1 rfl
      · rw [post]
        exact Accounts.getAccount_syncAccounts agave synced
      · rw [sendTransaction_eq agave run detached synced]
        rfl
      · exact ⟨_, (transact_eq_ok_iff agave).2 core⟩
      · intro staged transacted
        rw [transact_eq_ok_iff, core] at transacted
        cases transacted
        rfl
      · intro accounts' history applied
        unfold applyCommitDelta at applied
        rw [delta, synced] at applied
        cases applied
        rfl
    | error error =>
      refine .refused ?_ ?_ ?_ ?_
      · rw [post, ← accepts]
        intro equal
        cases equal
      · funext key
        simp only [sendTransaction, core, getAccount]
        exact Accounts.getAccount_congr (restored key)
      · intro staged transacted
        rw [transact_eq_ok_iff, core] at transacted
        cases transacted
      · intro accounts' history applied
        unfold applyCommitDelta at applied
        rw [delta, synced] at applied
        cases applied

/-- The payer of an included transaction has lamports to pay with. -/
theorem payer_funded {vm : Svm} {tx : VersionedTransaction} {payer : Address}
    (included : (vm.transactDetached agave tx).included = true)
    (pays : (vm.transactDetached agave tx).feePayer = some payer) :
    ∃ account, vm.getAccount payer = some account ∧ account.lamports ≠ 0 := by
  obtain ⟨run, detached⟩ := exists_execution_of_included agave included
  obtain ⟨before, after, account, -, read, -, funded, -⟩ := loadAccounts_eq_ok agave run.load_eq
  have same : run.payer = payer := by
    rw [detached] at pays
    exact Option.some.inj pays
  rw [same] at read
  exact ⟨account, read, funded⟩

end Svm

namespace Sample

/-- A transfer from an account without lamports. -/
def unfundedTx : VersionedTransaction := transferTx 1 0x11 [0x22] [([1, 0], 64)]

/-- A transfer that succeeds, and one that fails after it. -/
def halfwayTx : VersionedTransaction :=
  transferTx 1 0x11 [0x22, 0x33] [([0, 1], 64), ([2, 1], 64)]

end Sample

end Hpsvm
