import Hpsvm.Properties.ChangeStream
import Hpsvm.Properties.JournalRuns

/-!
# Replicas fed by a stream of changes

A sink that keeps a copy of the accounts: it writes what each change leaves, and takes a commit that
fails back by what each change says was there before. Over a run of staged transactions the copy
stays the accounts of the VM. The journal can be streamed as well; its changes lead from the accounts
at the start of the journal to those of now and back.
-/

namespace Hpsvm

open Foundation

namespace AccountChangeRecord

/-- Takes a stream of changes over into a copy of the accounts. -/
def replay : List AccountChangeRecord → (Address → Option AccountSharedData) →
    Address → Option AccountSharedData :=
  Writes.write address after

/-- Takes a stream of changes back, the last one first. -/
def unplay : List AccountChangeRecord → (Address → Option AccountSharedData) →
    Address → Option AccountSharedData :=
  Writes.writeBack address before

end AccountChangeRecord

open AccountChangeRecord (replay unplay)

/-! ### The journal as a stream -/

namespace Accounts

theorem getElem?_undo (entry : JournalEntry) (cache : CacheDb) :
    (fun address : Address => (entry.undo cache).inner[address]?) =
      Function.update (fun address : Address => cache.inner[address]?) entry.address
        entry.previous := by
  obtain ⟨pubkey, previous, wasRemoved⟩ := entry
  funext address
  by_cases same : address = pubkey
  · subst same
    cases previous with
    | none => simp [JournalEntry.undo]
    | some account => simp [JournalEntry.undo]
  · cases previous with
    | none => simp [JournalEntry.undo, same, Ne.symm same]
    | some account => simp [JournalEntry.undo, same, Ne.symm same]

/-- Undoing the entries of a journal in turn takes each address back to its oldest one. -/
theorem overlay_of_extends {start cache : CacheDb} {journal : List JournalEntry}
    (since : UndoLog.Extends JournalEntry.undo [] start journal cache) :
    Writes.write JournalEntry.address JournalEntry.previous journal
        (fun address : Address => cache.inner[address]?) =
      fun address : Address => start.inner[address]? := by
  induction since with
  | refl => rfl
  | @record journal entry next _ ih =>
    rw [← ih, getElem?_undo]
    rfl

/-- The changes of the journal lead to the overlay of now, and back to the one it started from. -/
theorem journalChanges_replay {start db : Accounts} (fresh : start.journal = [])
    (journaled : Journaled start db) :
    replay db.journalChanges start.getAccountRef = db.getAccountRef ∧
      unplay db.journalChanges db.getAccountRef = start.getAccountRef := by
  unfold Journaled at journaled
  rw [fresh] at journaled
  have undone := overlay_of_extends journaled
  have addresses : db.journalChanges.map AccountChangeRecord.address =
      db.journal.reverse.map JournalEntry.address := by
    simp [journalChanges, Function.comp_def]
  constructor
  · funext address
    have settled : ∀ record ∈ db.journalChanges, record.after = db.getAccountRef record.address := by
      intro record member
      obtain ⟨entry, -, rfl⟩ := List.mem_map.1 member
      rfl
    rw [replay, Writes.write_of_settled settled, addresses]
    split
    · rfl
    next unwritten =>
      -- An address without an entry was not written since.
      rw [List.map_reverse, List.mem_reverse] at unwritten
      have kept := congrFun undone address
      rw [Writes.write_of_notMem unwritten] at kept
      exact kept.symm
  · have reversed : db.journalChanges = (db.journal.map fun entry =>
        (⟨entry.address, entry.previous, db.getAccountRef entry.address⟩ :
          AccountChangeRecord)).reverse := by
      rw [journalChanges, List.map_reverse]
    rw [unplay, ← Writes.write_reverse, reversed, List.reverse_reverse]
    refine Eq.trans ?_ undone
    exact List.foldl_map

end Accounts

namespace JournalSession

variable {agave : Agave}

/-- The stream of a journal is the difference between the overlay it started from and the one of now:
over every interleaving of writes, checkpoints and rollbacks, its changes lead from the first to the
second and back. A sink is given them in order, and all of them unless it fails. -/
theorem journal_stream_is_difference {start : Accounts} (fresh : start.journal = [])
    {ops : List JournalOp} {reached : JournalSession}
    (ran : Runs.run (step agave) ops ⟨start, []⟩ = some reached) {σ ε : Type}
    (sink : σ → AccountChangeRecord → Except ε Unit × σ) (state : σ) :
    replay reached.db.journalChanges start.getAccountRef = reached.db.getAccountRef ∧
      unplay reached.db.journalChanges reached.db.getAccountRef = start.getAccountRef ∧
      ∃ given, given <+: reached.db.journalChanges ∧
        (reached.db.commitSource (ExecutedTx.recording sink) ([], state)).2.1 = given ∧
        ((reached.db.commitSource (ExecutedTx.recording sink) ([], state)).1 = .ok () →
          given = reached.db.journalChanges) := by
  have journaled : start.Journaled reached.db := by
    refine Runs.invariant_run (fun session => start.Journaled session.db) ?_ (.refl start) ran
    intro op session next before taken
    apply journaled_of_step agave before _ taken
    -- No rollback goes below the start of an empty journal.
    cases op with
    | rollback index =>
      intro target _
      simp [Accounts.checkpoint, fresh]
    | _ => trivial
  obtain ⟨forward, backward⟩ := Accounts.journalChanges_replay fresh journaled
  refine ⟨forward, backward, ?_⟩
  exact ExecutedTx.streamChanges_recording sink reached.db.journalChanges [] state

end JournalSession

/-! ### A replica of a VM -/

/-- A copy of the accounts, and the changes of the commit under way. -/
structure Replica where
  view : Address → Option AccountSharedData
  pending : List AccountChangeRecord

namespace Replica

variable {σ ε : Type}

/-- The replica as a sink, behind another one that can refuse a change. -/
def ingest (sink : σ → AccountChangeRecord → Except ε Unit × σ) (state : Replica × σ)
    (record : AccountChangeRecord) : Except ε Unit × Replica × σ :=
  match sink state.2 record with
  | (.error error, inner) => (.error error, state.1, inner)
  | (.ok (), inner) =>
    (.ok (), ⟨replay [record] state.1.view, state.1.pending ++ [record]⟩, inner)

/-- The commit succeeded. -/
def keep (replica : Replica) : Replica := ⟨replica.view, []⟩

/-- The commit failed: what it changed is taken back. -/
def revert (replica : Replica) : Replica := ⟨unplay replica.pending replica.view, []⟩

/-- What the caller of a staged transaction does with it. -/
inductive Decision
  | commit
  | discard

variable (agave : Agave)

/-- A transaction is staged and committed to the sink, or discarded; `none` is a panic. -/
def step (sink : σ → AccountChangeRecord → Except ε Unit × σ) :
    VersionedTransaction × Decision → Svm × Replica × σ → Option (Svm × Replica × σ)
  | (tx, decision), (vm, replica, state) =>
    match vm.transact agave tx with
    | .error (_, vm) => some (vm, replica, state)
    | .ok staged =>
      match decision with
      | .commit => (staged.commitWith agave (ingest sink) (replica, state)).map fun
          | (.ok _, vm, replica, state) => (vm, replica.keep, state)
          | (.error _, vm, replica, state) => (vm, replica.revert, state)
      | .discard => (staged.discard agave).map fun (_, vm) => (vm, replica, state)

/-- The sink has taken a part of the changes over, all of them if it did not fail. -/
theorem streamChanges_ingest (sink : σ → AccountChangeRecord → Except ε Unit × σ)
    (changes : List AccountChangeRecord) (replica : Replica) (state : σ) :
    ∃ taken, taken <+: changes ∧
      (ExecutedTx.streamChanges (ingest sink) changes (replica, state)).2.1 =
        ⟨replay taken replica.view, replica.pending ++ taken⟩ ∧
      ((ExecutedTx.streamChanges (ingest sink) changes (replica, state)).1 = .ok () →
        taken = changes) := by
  induction changes generalizing replica state with
  | nil =>
    refine ⟨[], List.nil_prefix, ?_, fun _ => rfl⟩
    simp [ExecutedTx.streamChanges, replay, Writes.write]
  | cons change rest ih =>
    simp only [ExecutedTx.streamChanges, ingest]
    rcases sink state change with ⟨_ | _, inner⟩
    · refine ⟨[], List.nil_prefix, ?_, ?_⟩
      · simp [replay, Writes.write]
      · intro accepted
        cases accepted
    · obtain ⟨taken, part, left, all⟩ :=
        ih ⟨replay [change] replica.view, replica.pending ++ [change]⟩ inner
      refine ⟨change :: taken, (List.prefix_cons_inj change).2 part, ?_, ?_⟩
      · rw [left]
        simp [replay, Writes.write]
      · intro accepted
        rw [all accepted]

/-- The replica holds the accounts of the VM. -/
structure Follows (vm : Svm) (replica : Replica) : Prop where
  verified : vm.version.sigverify = true
  view : replica.view = vm.getAccount
  pending : replica.pending = []

variable {agave} {vm after : Svm} {replica : Replica} {tx : VersionedTransaction} {staged : ExecutedTx}

/-- The VM with other caches. -/
theorem Follows.of_caches (follows : Follows vm replica) {programs : ProgramCache}
    {sysvars : SysvarCache}
    (same : after = { vm with
      accounts := { vm.accounts with programsCache := programs, sysvarCache := sysvars } }) :
    Follows after replica := by
  subst same
  exact ⟨follows.verified, follows.view, follows.pending⟩

/-- A transaction that is not staged leaves the accounts. -/
theorem Follows.of_refused (follows : Follows vm replica) {error : HpsvmError}
    (refused : vm.transact agave tx = .error (error, after)) : Follows after replica := by
  obtain ⟨failure, core, -⟩ := (Svm.transact_eq_error_iff agave).1 refused
  rcases Svm.transactCore_eq_error agave core with rfl | ⟨accounts, synced, rfl⟩
  · exact follows
  · refine ⟨follows.verified, follows.view.trans (funext fun address => ?_), follows.pending⟩
    have restored := vm.accounts.tryGetAccount_rollback_syncAccounts agave
      (detachedIntoResultAndDelta (vm.transactDetached agave tx) vm.history.isEnabled).2.postAccounts
      address
    rw [synced] at restored
    exact (Accounts.getAccount_congr restored).symm

/-- A transaction that is taken back leaves the accounts. -/
theorem Follows.of_unstaged (follows : Follows vm replica)
    (transacted : vm.transact agave tx = .ok staged) (unstaged : staged.unstage agave = some after) :
    Follows after replica :=
  follows.of_caches ((Svm.stagedOn_of_transact agave transacted).eq_of_unstage agave unstaged)

/-- The changes of a verified transaction lead to the accounts after its commit. -/
theorem replay_changes (verified : vm.version.sigverify = true)
    (transacted : vm.transact agave tx = .ok staged) :
    replay staged.changes vm.getAccount = staged.commit.2.getAccount := by
  obtain ⟨changes, reads⟩ := Svm.staged_reads agave transacted
  have same : Svm.SameCopies (vm.transactDetached agave tx).postAccounts :=
    Svm.sameCopies_of_verified agave verified
  have settled : ∀ record ∈ staged.changes,
      record.after = staged.commit.2.getAccount record.address := by
    intro record member
    rw [changes] at member
    obtain ⟨⟨address, copy⟩, listed, rfl⟩ := List.mem_map.1 member
    rw [reads address]
    cases found : Accounts.stagedCopy (vm.transactDetached agave tx).postAccounts address with
    | some last => exact same address copy last listed (Accounts.mem_of_stagedCopy found)
    | none =>
      rw [Accounts.stagedCopy_eq_none_iff] at found
      exact absurd (List.mem_map_of_mem listed) found
  funext address
  rw [replay, Writes.write_of_settled settled]
  split
  · rfl
  next unlisted =>
    have unstaged : Accounts.stagedCopy (vm.transactDetached agave tx).postAccounts address = none := by
      rw [Accounts.stagedCopy_eq_none_iff]
      simpa [changes, Function.comp_def] using unlisted
    rw [reads address, unstaged]

/-- Changes that were taken over can be taken back. -/
theorem unplay_replay {taken : List AccountChangeRecord} {view : Address → Option AccountSharedData}
    (before : ∀ record ∈ taken, record.before = view record.address) :
    unplay taken (replay taken view) = view := by
  funext address
  rw [unplay, Writes.writeBack_of_settled before]
  split
  · rfl
  next unwritten => exact Writes.write_of_notMem unwritten view

/-- Whatever becomes of a transaction, the replica follows. -/
theorem Follows.step {σ ε : Type} {sink : σ → AccountChangeRecord → Except ε Unit × σ}
    {decision : Decision} {state state' : σ} {replica' : Replica} (follows : Follows vm replica)
    (taken : Replica.step agave sink (tx, decision) (vm, replica, state) =
      some (after, replica', state')) : Follows after replica' := by
  unfold Replica.step at taken
  cases transacted : vm.transact agave tx with
  | error failure =>
    obtain ⟨error, left⟩ := failure
    simp only [transacted] at taken
    cases taken
    exact follows.of_refused transacted
  | ok staged =>
    simp only [transacted] at taken
    cases decision with
    | discard =>
      obtain ⟨⟨result, left⟩, discarded, equal⟩ := Option.map_eq_some_iff.1 taken
      obtain ⟨unstaged, restored, same⟩ := Option.map_eq_some_iff.1 discarded
      cases same
      cases equal
      exact follows.of_unstaged transacted restored
    | commit =>
      obtain ⟨view, pending⟩ := replica
      obtain ⟨verified, rfl, rfl⟩ := follows
      obtain ⟨accepted, part, left, all⟩ :=
        streamChanges_ingest sink staged.changes ⟨vm.getAccount, []⟩ state
      simp only [ExecutedTx.commitWith] at taken
      rcases outcome : ExecutedTx.streamChanges (ingest sink) staged.changes
          (⟨vm.getAccount, []⟩, state) with ⟨_ | _, final, inner⟩
      · simp only [outcome, Option.map_map] at taken left
        obtain ⟨unstaged, restored, equal⟩ := Option.map_eq_some_iff.1 taken
        cases equal
        have follows : Follows vm ⟨vm.getAccount, []⟩ := ⟨verified, rfl, rfl⟩
        have before : ∀ record ∈ accepted, record.before = vm.getAccount record.address := by
          intro record member
          have listed := part.subset member
          rw [(Svm.staged_reads agave transacted).1] at listed
          obtain ⟨pair, -, rfl⟩ := List.mem_map.1 listed
          rfl
        rw [left, revert, List.nil_append, unplay_replay before]
        exact follows.of_unstaged transacted restored
      · simp only [outcome, Option.map_some, Option.some.injEq, Prod.mk.injEq] at taken left
        obtain ⟨rfl, rfl, rfl⟩ := taken
        rw [outcome] at all
        have on := Svm.stagedOn_of_transact agave transacted
        refine ⟨?_, ?_, rfl⟩
        · rw [← verified, ExecutedTx.commit, on.rest]
        · rw [left, all rfl]
          exact replay_changes verified transacted

/-- Over every run of transactions that are committed to a sink or discarded, where the sink may
refuse any change, the replica holds the accounts of the VM. -/
theorem replica_follows {σ ε : Type} (sink : σ → AccountChangeRecord → Except ε Unit × σ)
    (verified : vm.version.sigverify = true) (state : σ)
    {ops : List (VersionedTransaction × Decision)} {state' : σ} {replica : Replica}
    (ran : Runs.run (step agave sink) ops (vm, ⟨vm.getAccount, []⟩, state) =
      some (after, replica, state')) :
    replica.view = after.getAccount ∧ replica.pending = [] := by
  have reached := Runs.invariant_run (fun (vm, replica, _) => Follows vm replica)
    (fun _ _ _ follows taken => Follows.step follows taken) ⟨verified, rfl, rfl⟩ ran
  exact ⟨reached.view, reached.pending⟩

end Replica

namespace Sample

/-- A sink that refuses the fourth change it is given. -/
def fourthRefused (seen : Nat) (_ : AccountChangeRecord) : Except Unit Unit × Nat :=
  (if seen = 3 then .error () else .ok (), seen + 1)

/-- A transfer, a second one whose last change is refused, and one that is discarded. -/
def stagedTransfers : List (VersionedTransaction × Replica.Decision) :=
  [(plainTx, .commit), (transferTx 2 0x11 [0x22] [([0, 1], 8)], .commit),
    (transferTx 3 0x11 [0x22] [([0, 1], 9)], .discard)]

theorem stagedTransfers_replicated :
    ∃ after replica state, Runs.run (Replica.step agave fourthRefused) stagedTransfers
        (payingVm, ⟨payingVm.getAccount, []⟩, 0) = some (after, replica, state) ∧
      (after.getAccount 0x22).map AccountSharedData.lamports = some 64 ∧
      replica.view = after.getAccount ∧ replica.pending = [] := by
  have ends : (Runs.run (Replica.step agave fourthRefused) stagedTransfers
      (payingVm, ⟨payingVm.getAccount, []⟩, 0)).any fun (after, _, state) =>
        (after.getAccount 0x22).map AccountSharedData.lamports == some 64 && state == 4 := by
    decide +kernel
  obtain ⟨⟨after, replica, state⟩, ran, checked⟩ := (Option.any_eq_true _ _).1 ends
  simp only [Bool.and_eq_true, beq_iff_eq] at checked
  exact ⟨after, replica, state, ran, checked.1, Replica.replica_follows fourthRefused rfl 0 ran⟩

theorem nestedOps_streamed : ∃ current,
    Runs.run (JournalSession.step agave) (.addAccount 0xa (systemAccount 5) :: nestedOps)
        ⟨accounts [] .empty, []⟩ = some current ∧
      replay current.db.journalChanges (accounts [] .empty).getAccountRef =
        current.db.getAccountRef := by
  cases went : Runs.run (JournalSession.step agave) (.addAccount 0xa (systemAccount 5) :: nestedOps)
      ⟨accounts [] .empty, []⟩ with
  | none => cases went
  | some current =>
    obtain ⟨forward, -⟩ := JournalSession.journal_stream_is_difference rfl went fourthRefused 0
    exact ⟨current, rfl, forward⟩

end Sample

end Hpsvm
