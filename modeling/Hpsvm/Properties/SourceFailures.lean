import Hpsvm.Properties.Charging

/-!
# Failures of the account source

An execution reads accounts at five kinds of sites. The list of the reads it makes follows the code
from site to site and stops where the code stops. A failure at a lookup table or at an account of
the message ends the execution with an error of its own; a failure at a nonce account, at the owner
of a program or at programdata is turned into something else.
-/

namespace Hpsvm

/-- Where an execution reads an account. -/
inductive ReadSite
  | lookupTable
  | nonce
  | messageAccount
  | programOwner
  | programdata
deriving DecidableEq, Repr

/-- The sites whose failures end the execution with an error of their own. -/
def ReadSite.Propagates (site : ReadSite) : Prop := site = .lookupTable ∨ site = .messageAccount

/-- A read that goes to the overlay and then to the source, with its answer. -/
structure SourceRead where
  site : ReadSite
  pubkey : Address
  answer : Except AccountSourceError (Option AccountSharedData)

namespace Accounts

variable (agave : Agave)

def read (db : Accounts) (site : ReadSite) (pubkey : Address) : SourceRead :=
  ⟨site, pubkey, db.tryGetAccount pubkey⟩

/-! ### The reads of each stage -/

/-- The reads of `load_addresses`. -/
def lookupReads (db : Accounts) : List MessageAddressTableLookup → List SourceRead
  | [] => []
  | lookup :: rest =>
    db.read .lookupTable lookup.accountKey ::
      match db.tryLoadLookupTableAddresses agave lookup with
      | .error _ => []
      | .ok _ => lookupReads db rest

/-- The read of `load_program`: an upgradeable program's programdata. -/
def programdataReads (db : Accounts) (account : AccountSharedData) : List SourceRead :=
  match db.clockSlot? agave, programdataAddress? account with
  | some _, some address => [db.read .programdata address]
  | _, _ => []

/-- The reads of `rebuild_program_cache`, which loads every program in turn. -/
def rebuildReads (db : Accounts) : List (Address × AccountSharedData) → List SourceRead
  | [] => []
  | (_, account) :: rest =>
    db.programdataReads agave account ++
      match db.loadProgram agave account with
      | .error _ => []
      | .ok _ => rebuildReads db rest

/-- The reads of `add_account`. -/
def addReads (db : Accounts) (pubkey : Address) (account : AccountSharedData) : List SourceRead :=
  if isManagedSysvarAccount pubkey && account.lamports != 0 then
    match validateSysvarAccount agave pubkey account with
    | .error _ => []
    | .ok () => loadReads
  else loadReads
where
  loadReads : List SourceRead :=
    if hasCachedProgram pubkey account then db.programdataReads agave account
    else if db.hadCachedProgram pubkey then
      let written := db.written agave pubkey account
      written.rebuildReads agave written.programAccounts
    else []

/-- The reads of `sync_accounts`. -/
def stageReads (db : Accounts) : List (Address × AccountSharedData) → List SourceRead
  | [] => []
  | (address, account) :: rest =>
    db.addReads agave address account ++
      match db.addAccount agave address account with
      | (.error _, _) => []
      | (.ok (), next) => stageReads next rest

end Accounts

namespace Svm

variable (agave : Agave)

/-- The read of `check_transaction_age`. -/
def nonceReads (vm : Svm) (message : SanitizedMessage) : List SourceRead :=
  if !vm.version.blockhashCheck || message.recentBlockhash == vm.blockEnv.latestBlockhash ||
      message.recentBlockhash == agave.durableNonce vm.blockEnv.latestBlockhash then []
  else match agave.getDurableNonce message with
    | none => []
    | some address => [vm.accounts.read .nonce address]

/-- The reads of the loading loop, which stops at a payer that cannot pay. -/
def accountReads (vm : Svm) (message : SanitizedMessage) (rent : Rent) (fee : Nat) :
    Nat → List Address → Option Address → List SourceRead
  | _, [], _ => []
  | index, key :: keys, payer =>
    if key = Ids.instructions then accountReads vm message rent fee (index + 1) keys payer
    else
      vm.accounts.read .messageAccount key ::
        match vm.accounts.tryGetAccount key with
        | .error _ => []
        | .ok found =>
          if payer.isNone && (!message.isInvoked index || message.isInstructionAccount index) then
            match validateFeePayer agave key (found.getD .default) index rent fee with
            | .error _ => []
            | .ok _ => accountReads vm message rent fee (index + 1) keys (some key)
          else accountReads vm message rent fee (index + 1) keys payer

/-- The reads of `resolve_program_indices`. -/
def ownerReads (vm : Svm) (accounts : List (Address × AccountSharedData)) :
    List CompiledInstruction → List SourceRead
  | [] => []
  | instruction :: rest =>
    match accounts[instruction.programIdIndex]? with
    | none => []
    | some (programId, programAccount) =>
      if programId = Ids.nativeLoader then ownerReads vm accounts rest
      else if !programAccount.executable then []
      else if programAccount.owner = Ids.nativeLoader then ownerReads vm accounts rest
      else
        vm.accounts.read .programOwner programAccount.owner ::
          match vm.accounts.tryGetAccount programAccount.owner with
          | .error _ => []
          | .ok none => []
          | .ok (some owner) =>
            if owner.owner ≠ Ids.nativeLoader ∨ !owner.executable then []
            else ownerReads vm accounts rest

/-- The reads of a sanitized transaction whose loaded accounts are known. -/
def loadedReads (vm : Svm) (tx : VersionedTransaction) (message : SanitizedMessage) (fee : Nat)
    (accounts : List (Address × AccountSharedData)) : List SourceRead :=
  vm.ownerReads accounts message.instructions ++
    match vm.resolveProgramIndices accounts fee message.instructions [] with
    | .error _ => []
    -- The instructions run; what they leave is staged.
    | .ok _ => vm.accounts.stageReads agave
        (partitionProgramdata [] [] (vm.transactDetached agave tx).postAccounts)

/-- The reads of a transaction that passed its checks. -/
def processReads (vm : Svm) (tx : VersionedTransaction) (message : SanitizedMessage)
    (limits : ComputeBudgetLimits) : List SourceRead :=
  match vm.accounts.rent? agave with
  | none => []
  | some rent =>
    let fee := vm.transactionFee agave message limits
    vm.accountReads agave message rent fee 0 message.accountKeys none ++
      match vm.loadAccounts agave message rent fee 0 message.accountKeys none with
      | .error _ => []
      | .ok (_, none) => []
      | .ok (accounts, some _) => vm.loadedReads agave tx message fee accounts

/-- Every read of an execution and its staging, in order. -/
def sourceReads (vm : Svm) (tx : VersionedTransaction) : List SourceRead :=
  match agave.sanitizeEnvelope tx with
  | .error _ => []
  | .ok () =>
    vm.accounts.lookupReads agave (lookupsOf tx) ++
      match vm.sanitize agave tx with
      | .error _ => []
      | .ok sanitized =>
        (if vm.materialized.sysvars then vm.nonceReads agave sanitized.message else []) ++
          match vm.checkTransaction agave sanitized with
          | .error _ => []
          | .ok limits => vm.processReads agave tx sanitized.message limits

end Svm

/-! ### What a failed read does to its stage -/

namespace Accounts

variable (agave : Agave)

theorem lookupReads_failed {db : Accounts} {lookups : List MessageAddressTableLookup}
    {read : SourceRead} (member : read ∈ db.lookupReads agave lookups) :
    read.site = .lookupTable ∧ ∀ error, read.answer = .error error →
      db.loadAddresses agave lookups = .error (.accountSource read.pubkey error) := by
  induction lookups with
  | nil => cases member
  | cons lookup rest ih =>
    unfold lookupReads at member
    rcases List.mem_cons.1 member with rfl | later
    · refine ⟨rfl, ?_⟩
      intro error failed
      have failed : db.tryGetAccount lookup.accountKey = .error error := failed
      simp [loadAddresses, tryLoadLookupTableAddresses, failed, read]
    · cases loaded : db.tryLoadLookupTableAddresses agave lookup with
      | error refused => simp [loaded] at later
      | ok addresses =>
        rw [loaded] at later
        obtain ⟨site, fails⟩ := ih later
        refine ⟨site, ?_⟩
        intro error failed
        simp [loadAddresses, loaded, fails error failed]

theorem programdataReads_site {db : Accounts} {account : AccountSharedData} {read : SourceRead}
    (member : read ∈ db.programdataReads agave account) : read.site = .programdata := by
  unfold programdataReads at member
  split at member
  · rw [List.mem_singleton.1 member]
    rfl
  · cases member

theorem rebuildReads_site {db : Accounts} {programs : List (Address × AccountSharedData)}
    {read : SourceRead} (member : read ∈ db.rebuildReads agave programs) :
    read.site = .programdata := by
  induction programs with
  | nil => cases member
  | cons program rest ih =>
    unfold rebuildReads at member
    rcases List.mem_append.1 member with own | later
    · exact programdataReads_site agave own
    · split at later
      · cases later
      · exact ih later

theorem addReads_site {db : Accounts} {pubkey : Address} {account : AccountSharedData}
    {read : SourceRead} (member : read ∈ db.addReads agave pubkey account) :
    read.site = .programdata := by
  have loads : read ∈ addReads.loadReads agave db pubkey account := by
    unfold addReads at member
    split at member
    · split at member
      · cases member
      · exact member
    · exact member
  unfold addReads.loadReads at loads
  split at loads
  · exact programdataReads_site agave loads
  · split at loads
    · exact rebuildReads_site agave loads
    · cases loads

theorem stageReads_site {db : Accounts} {accounts : List (Address × AccountSharedData)}
    {read : SourceRead} (member : read ∈ db.stageReads agave accounts) :
    read.site = .programdata := by
  induction accounts generalizing db with
  | nil => cases member
  | cons pair rest ih =>
    unfold stageReads at member
    rcases List.mem_append.1 member with own | later
    · exact addReads_site agave own
    · split at later
      · cases later
      · exact ih later

end Accounts

namespace Svm

variable (agave : Agave)

/-- A nonce that cannot be read is no nonce, and the blockhash is refused. -/
theorem nonceReads_failed {vm : Svm} {tx : SanitizedTransaction} {read : SourceRead}
    (materialized : vm.materialized.sysvars = true)
    (member : read ∈ vm.nonceReads agave tx.message) :
    read.site = .nonce ∧ ∀ error, read.answer = .error error →
      vm.checkTransaction agave tx = .error (.rejected .blockhashNotFound 0) := by
  unfold nonceReads at member
  split at member
  · cases member
  next checks =>
    simp only [Bool.or_eq_true, Bool.not_eq_true', not_or, Bool.not_eq_false, Bool.not_eq_true]
      at checks
    obtain ⟨⟨checked, old⟩, stale⟩ := checks
    split at member
    · cases member
    next address named =>
      rw [List.mem_singleton.1 member]
      refine ⟨rfl, ?_⟩
      intro error failed
      have missing : vm.accounts.getAccount address = none := by
        have failed : vm.accounts.tryGetAccount address = .error error := failed
        simp [Accounts.getAccount, failed]
      simp [checkTransaction, materialized, checked, checkTransactionAge, old,
        checkTransactionForNonce, checkMessageForNonce, named, missing]

/-- An account of the message that cannot be read ends the execution with the failure. -/
theorem accountReads_failed {vm : Svm} {message : SanitizedMessage} {rent : Rent} {fee index : Nat}
    {keys : List Address} {payer : Option Address} {read : SourceRead}
    (member : read ∈ vm.accountReads agave message rent fee index keys payer) :
    read.site = .messageAccount ∧ ∀ error, read.answer = .error error →
      vm.loadAccounts agave message rent fee index keys payer =
        .error (executionResultWithAccountSourceError read.pubkey error .accountNotFound fee) := by
  induction keys generalizing index payer with
  | nil => cases member
  | cons key keys ih =>
    unfold accountReads at member
    unfold loadAccounts
    by_cases sysvar : key = Ids.instructions
    · rw [if_pos sysvar] at member ⊢
      obtain ⟨site, fails⟩ := ih member
      refine ⟨site, ?_⟩
      intro error failed
      rw [fails error failed]
    · rw [if_neg sysvar] at member ⊢
      rcases List.mem_cons.1 member with rfl | later
      · refine ⟨rfl, ?_⟩
        intro error failed
        have failed : vm.accounts.tryGetAccount key = .error error := failed
        simp only [failed, Accounts.read]
      · cases reads : vm.accounts.tryGetAccount key with
        | error refused => simp [reads] at later
        | ok found =>
          simp only [reads] at later ⊢
          -- The key pays the fee, or is loaded as it is.
          split at later
          next pays =>
            rw [if_pos pays]
            cases validated : validateFeePayer agave key
                (found.getD AccountSharedData.default) index rent fee with
            | error refused =>
              simp only [validated] at later
              cases later
            | ok charged =>
              simp only [validated] at later
              obtain ⟨site, fails⟩ := ih later
              refine ⟨site, ?_⟩
              intro error failed
              rw [fails error failed]
          next plain =>
            rw [if_neg plain]
            obtain ⟨site, fails⟩ := ih later
            refine ⟨site, ?_⟩
            intro error failed
            rw [fails error failed]

/-- An owner that cannot be read makes its program invalid, and the failure is not fatal. -/
theorem ownerReads_failed {vm : Svm} {accounts : List (Address × AccountSharedData)} (fee : Nat)
    {instructions : List CompiledInstruction} {read : SourceRead}
    (member : read ∈ vm.ownerReads accounts instructions) :
    read.site = .programOwner ∧ ∀ error, read.answer = .error error →
      ∀ failures, ∃ result, vm.resolveProgramIndices accounts fee instructions failures =
        .error result ∧ result.fatalError = none := by
  induction instructions with
  | nil => cases member
  | cons instruction rest ih =>
    -- A failure at a later program passes through the programs before it.
    have deeper : read ∈ vm.ownerReads accounts rest →
        read.site = .programOwner ∧ ∀ error, read.answer = .error error →
          ∀ failures, ∃ result, prependIndex instruction.programIdIndex
            (vm.resolveProgramIndices accounts fee rest failures) = .error result ∧
              result.fatalError = none := by
      intro later
      obtain ⟨site, fails⟩ := ih later
      refine ⟨site, ?_⟩
      intro error failed failures
      obtain ⟨result, refused, survives⟩ := fails error failed failures
      exact ⟨result, by rw [refused]; rfl, survives⟩
    unfold ownerReads at member
    simp only [resolveProgramIndices]
    -- The program is looked up, and its owner read, in the order of the code.
    cases found : accounts[instruction.programIdIndex]? with
    | none =>
      simp only [found] at member
      cases member
    | some program =>
      obtain ⟨programId, programAccount⟩ := program
      simp only [found] at member ⊢
      by_cases native : programId = Ids.nativeLoader
      · rw [if_pos native] at member
        simp only [if_pos native]
        exact deeper member
      · rw [if_neg native] at member
        simp only [if_neg native]
        cases runs : programAccount.executable with
        | false => simp [runs] at member
        | true =>
          simp only [runs, Bool.not_true, Bool.false_eq_true, if_false] at member ⊢
          by_cases builtin : programAccount.owner = Ids.nativeLoader
          · rw [if_pos builtin] at member
            simp only [if_pos builtin]
            exact deeper member
          · rw [if_neg builtin] at member
            simp only [if_neg builtin]
            rcases List.mem_cons.1 member with rfl | later
            · refine ⟨rfl, ?_⟩
              intro error failed failures
              have failed : vm.accounts.tryGetAccount programAccount.owner = .error error := failed
              simp only [failed]
              exact ⟨_, rfl, rfl⟩
            · cases owned : vm.accounts.tryGetAccount programAccount.owner with
              | error refused => simp [owned] at later
              | ok answer =>
                cases answer with
                | none => simp [owned] at later
                | some owner =>
                  simp only [owned] at later ⊢
                  by_cases foreign : owner.owner ≠ Ids.nativeLoader ∨ (!owner.executable) = true
                  · rw [if_pos foreign] at later
                    cases later
                  · rw [if_neg foreign] at later
                    simp only [if_neg foreign]
                    exact deeper later

/-! ### What a failed read does to the execution -/

theorem sanitize_of_source_failure {vm : Svm} {tx : VersionedTransaction} {pubkey : Address}
    {error : AccountSourceError} (envelope : agave.sanitizeEnvelope tx = .ok ())
    (failed : vm.accounts.loadAddresses agave (lookupsOf tx) =
      .error (.accountSource pubkey error)) :
    vm.sanitize agave tx = .error (executionResultWithAccountSourceError pubkey error
      AddressLookupError.lookupTableAccountNotFound.toTransactionError 0) := by
  have unverified : vm.sanitizeTransactionNoVerify agave tx =
      .error (executionResultWithAccountSourceError pubkey error
        AddressLookupError.lookupTableAccountNotFound.toTransactionError 0) := by
    simp only [sanitizeTransactionNoVerify, envelope, failed]
  unfold sanitize
  split
  · simp only [sanitizeTransaction, unverified]
  · exact unverified

/-- The reads of a transaction that passed its checks. -/
theorem fatalError_of_processing {vm : Svm} {tx : VersionedTransaction} {read : SourceRead}
    {error : AccountSourceError} {sanitized : SanitizedTransaction} {limits : ComputeBudgetLimits}
    (sanitizes : vm.sanitize agave tx = .ok sanitized)
    (checks : vm.checkTransaction agave sanitized = .ok limits)
    (member : read ∈ vm.processReads agave tx sanitized.message limits)
    (failed : read.answer = .error error) :
    (read.site.Propagates ∧
        (vm.transactDetached agave tx).fatalError = some (.accountSource read.pubkey error)) ∨
      (¬ read.site.Propagates ∧ (vm.transactDetached agave tx).fatalError = none) := by
  have fatal : (vm.transactDetached agave tx).fatalError =
    (vm.executeReadonly agave tx).1.fatalError := rfl
  unfold processReads at member
  split at member
  · cases member
  next rent rents =>
    simp only at member
    rcases List.mem_append.1 member with loading | resolving
    · obtain ⟨site, fails⟩ := accountReads_failed agave loading
      refine .inl ⟨.inr site, ?_⟩
      simp only [fatal, executeReadonly, sanitizes, executeSanitizedTransaction, checks,
        processTransaction, rents, fails error failed]
      rfl
    · split at resolving
      · cases resolving
      · cases resolving
      next accounts payer loads =>
        right
        unfold loadedReads at resolving
        rcases List.mem_append.1 resolving with owned | staging
        · obtain ⟨site, fails⟩ := ownerReads_failed
            (vm.transactionFee agave sanitized.message limits) owned
          refine ⟨by simp [ReadSite.Propagates, site], ?_⟩
          obtain ⟨result, refused, survives⟩ := fails error failed []
          simp only [fatal, executeReadonly, sanitizes, executeSanitizedTransaction, checks,
            processTransaction, rents, loads, refused, survives]
        · split at staging
          · cases staging
          next indices resolves =>
            -- The instructions ran, so there is nothing fatal to report.
            have site := Accounts.stageReads_site agave staging
            refine ⟨by simp [ReadSite.Propagates, site], ?_⟩
            let run : Execution agave vm tx := ⟨sanitized, limits, rent, accounts, payer, indices.1,
              indices.2, sanitizes, checks, rents, loads, resolves⟩
            rw [run.transactDetached_eq]
            rfl

/-- A failed read decides whether the execution has a fatal error. -/
theorem fatalError_of_failed_read {vm : Svm} {tx : VersionedTransaction} {read : SourceRead}
    {error : AccountSourceError} (member : read ∈ vm.sourceReads agave tx)
    (failed : read.answer = .error error) :
    (read.site.Propagates ∧
        (vm.transactDetached agave tx).fatalError = some (.accountSource read.pubkey error)) ∨
      (¬ read.site.Propagates ∧ (vm.transactDetached agave tx).fatalError = none) := by
  have fatal : (vm.transactDetached agave tx).fatalError =
    (vm.executeReadonly agave tx).1.fatalError := rfl
  unfold sourceReads at member
  split at member
  · cases member
  next envelope =>
    rcases List.mem_append.1 member with looked | sanitizing
    · obtain ⟨site, fails⟩ := Accounts.lookupReads_failed agave looked
      refine .inl ⟨.inl site, ?_⟩
      rw [fatal, executeReadonly, sanitize_of_source_failure agave envelope (fails error failed)]
      rfl
    · split at sanitizing
      · cases sanitizing
      next sanitized sanitizes =>
        rcases List.mem_append.1 sanitizing with aged | checking
        · split at aged
          next materialized =>
            obtain ⟨site, fails⟩ := nonceReads_failed agave materialized aged
            refine .inr ⟨by simp [ReadSite.Propagates, site], ?_⟩
            simp only [fatal, executeReadonly, sanitizes, executeSanitizedTransaction,
              fails error failed]
            rfl
          · cases aged
        · split at checking
          · cases checking
          next limits checks =>
            exact fatalError_of_processing agave sanitizes checks checking failed

/-- The outcome a failure of the source should have: both calls return it, and nothing is staged. -/
structure SurfacesAs (vm : Svm) (tx : VersionedTransaction) (pubkey : Address)
    (error : AccountSourceError) : Prop where
  tried : vm.tryTransact agave tx = .error (.accountSource pubkey error)
  transacted : vm.transact agave tx = .error (.accountSource pubkey error, vm)

/-- Failures of the source surface as such exactly if every read that fails is one of a lookup table
or of an account of the message. -/
theorem source_failures_surface_iff (vm : Svm) (tx : VersionedTransaction) :
    (∀ read ∈ vm.sourceReads agave tx, ∀ error, read.answer = .error error →
        vm.SurfacesAs agave tx read.pubkey error) ↔
      ∀ read ∈ vm.sourceReads agave tx, ∀ error, read.answer = .error error →
        read.site.Propagates := by
  constructor
  · intro surfaces read member error failed
    rcases fatalError_of_failed_read agave member failed with ⟨site, -⟩ | ⟨-, survives⟩
    · exact site
    · -- Without a fatal error `try_transact` succeeds.
      have tried := (surfaces read member error failed).tried
      simp [tryTransact, survives] at tried
  · intro propagates read member error failed
    rcases fatalError_of_failed_read agave member failed with ⟨-, fatal⟩ | ⟨stays, -⟩
    · constructor
      · simp [tryTransact, fatal, HpsvmError.ofExecution]
      · simp [transact, transactCore, fatal, HpsvmError.ofExecution]
    · exact absurd (propagates read member error failed) stays

end Svm

namespace Sample

/-- A source that answers nothing. -/
def failingSource : AccountSource := .ofGetAccount fun _ => .error ⟨.unavailable, "offline"⟩

/-- A VM over that source whose overlay has a payer and a program, but not the program's loader. -/
def offlineVm : Svm :=
  vm [(0x11, systemAccount 1_000_000), (0x77, ⟨1, [0x7f], Ids.bpfLoader, true, 0⟩)] failingSource

/-- A transaction that invokes the program. -/
def invokeTx : VersionedTransaction where
  version := .legacy
  signatures := [1]
  header := ⟨1, 0, 1⟩
  staticAccountKeys := [0x11, 0x77]
  recentBlockhash := 0xb10c
  instructions := [⟨1, [0], []⟩]
  addressTableLookups := []

/-- The read of the loader fails, and the transaction is rejected for its program. -/
theorem failed_owner_read_rejects :
    ((offlineVm.sourceReads agave invokeTx).any fun read =>
        read.site == .programOwner && !read.answer.isOk) = true ∧
      (offlineVm.tryTransact agave invokeTx).isOk = true ∧
      (offlineVm.transact agave invokeTx).isOk = true ∧
      (offlineVm.transactDetached agave invokeTx).status = .error .invalidProgramForExecution := by
  decide +kernel

end Sample

end Hpsvm
