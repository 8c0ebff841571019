import Hpsvm.Properties.FeePayers
import Hpsvm.Properties.InspectorEvents

/-!
# The stream of account changes

A staged transaction keeps one record for each account that its execution leaves. The accounts are
then staged in another order, and only the copy staged last stays. So the records tell what a commit
leaves exactly if the copies of one account do not differ.
-/

namespace Hpsvm

open Foundation (Writes.view_last)
open Foundation.Unwinding

/-! ### What a sink is given -/

namespace ExecutedTx

variable {σ ε : Type}

/-- The sink, with a list of what it was given. -/
def recording (sink : σ → AccountChangeRecord → Except ε Unit × σ)
    (state : List AccountChangeRecord × σ) (record : AccountChangeRecord) :
    Except ε Unit × List AccountChangeRecord × σ :=
  let (answer, inner) := sink state.2 record
  (answer, state.1 ++ [record], inner)

/-- A sink is given the changes in order, and all of them unless it fails. -/
theorem streamChanges_recording (sink : σ → AccountChangeRecord → Except ε Unit × σ)
    (changes given : List AccountChangeRecord) (state : σ) :
    ∃ streamed, streamed <+: changes ∧
      (streamChanges (recording sink) changes (given, state)).2.1 = given ++ streamed ∧
      ((streamChanges (recording sink) changes (given, state)).1 = .ok () → streamed = changes) := by
  induction changes generalizing given state with
  | nil => exact ⟨[], List.nil_prefix, (List.append_nil given).symm, fun _ => rfl⟩
  | cons change rest ih =>
    simp only [streamChanges, recording]
    cases answered : (sink state change).1 with
    | error error =>
      exact ⟨[change], List.prefix_append [change] rest, rfl, nofun⟩
    | ok done =>
      obtain ⟨streamed, part, seen, all⟩ := ih (given ++ [change]) (sink state change).2
      refine ⟨change :: streamed, (List.prefix_cons_inj change).2 part, ?_, ?_⟩
      · exact seen.trans (List.append_assoc given [change] streamed)
      · intro accepted
        rw [all accepted]

end ExecutedTx

namespace Svm

variable (agave : Agave)

/-- The changes reach the sink and the inspector one by one in the order of the post-accounts, with
the account before the transaction and after the commit, and no other account changes. -/
structure StreamsExactly (vm : Svm) (tx : VersionedTransaction) (staged : ExecutedTx) : Prop where
  order : staged.changes.map AccountChangeRecord.address =
    (vm.transactDetached agave tx).postAccounts.map Prod.fst
  streamed : ∀ {σ ε : Type} (sink : σ → AccountChangeRecord → Except ε Unit × σ) (state : σ)
    (result : TransactionResult) (committed : Svm) (given : List AccountChangeRecord) (state' : σ),
    staged.commitWith agave (ExecutedTx.recording sink) ([], state) =
      some (.ok result, committed, given, state') →
    given = staged.changes ∧ committed = staged.commit.2
  inspected : ∀ (inspector : HookInspector) (scratch : TxScratch),
    Hears False inspector (staged.changes.map .accountChange)
      ((Inspected.commit ⟨staged, true⟩).run ⟨staged.vm, scratch, some inspector⟩)
  before : ∀ record ∈ staged.changes, record.before = vm.getAccount record.address
  after : ∀ record ∈ staged.changes, record.after = staged.commit.2.getAccount record.address
  others : ∀ address, address ∉ staged.changes.map AccountChangeRecord.address →
    staged.commit.2.getAccount address = vm.getAccount address

/-- The copies of an account that an execution leaves look alike. -/
def SameCopies (accounts : List (Address × AccountSharedData)) : Prop :=
  ∀ address first second, (address, first) ∈ accounts → (address, second) ∈ accounts →
    first.visible = second.visible

/-- What is staged, and how it reads after the commit. -/
theorem staged_reads {vm : Svm} {tx : VersionedTransaction} {staged : ExecutedTx}
    (transacted : vm.transact agave tx = .ok staged) :
    staged.changes = (vm.transactDetached agave tx).postAccounts.map
        (fun (address, after) => ⟨address, vm.getAccount address, after.visible⟩) ∧
      ∀ address, staged.commit.2.getAccount address =
        match Accounts.stagedCopy (vm.transactDetached agave tx).postAccounts address with
        | some copy => copy.visible
        | none => vm.getAccount address := by
  have core := (transact_eq_ok_iff agave).1 transacted
  rcases vm.transactDetached_cases agave tx with ⟨result, rejected, detached⟩ | ⟨run, detached⟩
  · rw [postAccounts_of_rejected agave rejected detached]
    rcases transactCore_of_rejected agave rejected detached with
      ⟨failure, failed, -⟩ | ⟨other, kept, same, -, -, -, -, changes⟩
    · rw [failed] at core
      cases core
    · obtain rfl : other = staged := Except.ok.inj (kept.symm.trans core)
      refine ⟨changes, fun address => ?_⟩
      simp only [ExecutedTx.commit, getAccount, same]
      rfl
  · have post : (vm.transactDetached agave tx).postAccounts = run.postAccounts := by
      rw [detached]
      rfl
    rw [transactCore_eq agave run detached] at core
    rw [post]
    split at core
    · cases core
    next accounts synced =>
      cases core
      exact ⟨rfl, fun address => Accounts.getAccount_syncAccounts agave synced address⟩

/-- The checks that come with signature verification refuse a key that is listed twice. -/
theorem nodup_of_sanitize {vm : Svm} {tx : VersionedTransaction} {sanitized : SanitizedTransaction}
    (verified : vm.version.sigverify = true) (done : vm.sanitize agave tx = .ok sanitized) :
    sanitized.message.accountKeys.Nodup := by
  unfold sanitize sanitizeTransaction at done
  rw [if_pos verified] at done
  split at done
  · cases done
  · split at done
    · cases done
    · split at done
      · cases done
      next locks =>
        cases done
        unfold validateAccountLocks at locks
        split at locks
        · cases locks
        next distinct => exact not_not.1 distinct

/-- Where no key is listed twice, every account has one copy. -/
theorem nodup_postAccounts {vm : Svm} {tx : VersionedTransaction}
    (distinct : ∀ sanitized, vm.sanitize agave tx = .ok sanitized →
      sanitized.message.accountKeys.Nodup) :
    ((vm.transactDetached agave tx).postAccounts.map Prod.fst).Nodup := by
  rcases vm.transactDetached_cases agave tx with ⟨result, rejected, detached⟩ | ⟨run, detached⟩
  · rw [postAccounts_of_rejected agave rejected detached]
    exact List.nodup_nil
  · rw [detached, Execution.detached_postAccounts]
    apply List.Nodup.sublist (writableAccounts_sublist run.message run.outcome.context.pairs)
    rw [map_fst_pairs, run.map_fst_loaded]
    exact distinct run.sanitized run.sanitize_eq

/-- So the accounts of a verified transaction have one copy each. -/
theorem sameCopies_of_verified {vm : Svm} {tx : VersionedTransaction}
    (verified : vm.version.sigverify = true) :
    SameCopies (vm.transactDetached agave tx).postAccounts := by
  have nodup : ((vm.transactDetached agave tx).postAccounts.map Prod.fst).Nodup :=
    nodup_postAccounts agave fun _ => nodup_of_sanitize agave verified
  intro address first second earlier later
  have same := List.inj_on_of_nodup_map nodup earlier later rfl
  rw [(Prod.mk.inj same).2]

/-- The records tell what a commit leaves exactly if the copies of each account look alike. If signatures are
verified, they do. -/
theorem change_stream_exact_iff {vm : Svm} {tx : VersionedTransaction} {staged : ExecutedTx}
    (transacted : vm.transact agave tx = .ok staged) :
    (vm.StreamsExactly agave tx staged ↔
        SameCopies (vm.transactDetached agave tx).postAccounts) ∧
      (vm.version.sigverify = true → SameCopies (vm.transactDetached agave tx).postAccounts) := by
  refine ⟨?_, sameCopies_of_verified agave⟩
  obtain ⟨changes, reads⟩ := staged_reads agave transacted
  have recorded : ∀ {address copy}, (address, copy) ∈ (vm.transactDetached agave tx).postAccounts →
      ⟨address, vm.getAccount address, copy.visible⟩ ∈ staged.changes := by
    intro address copy member
    rw [changes]
    exact List.mem_map_of_mem member
  constructor
  · -- Two copies of one account have one record each, and both tell the account after the commit.
    intro exact address first second earlier later
    have left := exact.after _ (recorded earlier)
    have right := exact.after _ (recorded later)
    exact left.trans right.symm
  · intro same
    have addresses : staged.changes.map AccountChangeRecord.address =
        (vm.transactDetached agave tx).postAccounts.map Prod.fst := by
      simp [changes, Function.comp_def]
    constructor
    · exact addresses
    · intro σ ε sink state result committed given state' done
      obtain ⟨streamed, -, seen, all⟩ :=
        ExecutedTx.streamChanges_recording sink staged.changes [] state
      unfold ExecutedTx.commitWith at done
      cases outcome : ExecutedTx.streamChanges (ExecutedTx.recording sink) staged.changes
          ([], state) with
      | mk answer final =>
        rw [outcome] at done seen all
        cases answer with
        | error error =>
          cases restored : staged.unstage agave <;> simp [restored] at done
        | ok accepted =>
          cases done
          exact ⟨seen.trans (all rfl), rfl⟩
    · intro inspector scratch
      exact Inspected.hears_commit rfl (.inl rfl)
    · intro record member
      rw [changes] at member
      obtain ⟨pair, -, rfl⟩ := List.mem_map.1 member
      rfl
    · intro record member
      rw [changes] at member
      obtain ⟨⟨address, copy⟩, listed, rfl⟩ := List.mem_map.1 member
      have alike := Writes.view_last AccountSharedData.visible
        (fun first second earlier later => same address first second
          (Accounts.mem_partitionProgramdata.1 earlier) (Accounts.mem_partitionProgramdata.1 later))
        (Accounts.mem_partitionProgramdata.2 listed)
      obtain ⟨last, found, visible⟩ := Option.map_eq_some_iff.1 alike
      rw [reads address]
      unfold Accounts.stagedCopy
      rw [found]
      exact visible.symm
    · intro address unlisted
      rw [addresses, ← Accounts.stagedCopy_eq_none_iff] at unlisted
      rw [reads address, unlisted]

end Svm

namespace Sample

/-- The payer is listed again as the first account it writes. -/
def repeatedPayerTx : VersionedTransaction := transferTx 1 0x11 [0x11, 0x22] [([0, 2], 64)]

/-- The first record of the payer tells what it paid, but the copy that was not charged is staged
over it. -/
theorem repeated_payer_record_is_stale :
    ∃ staged, unverifiedVm.transact agave repeatedPayerTx = .ok staged ∧
      ∃ record ∈ staged.changes,
        record.after ≠ staged.commit.2.getAccount record.address := by
  have stale : (match unverifiedVm.transact agave repeatedPayerTx with
      | .ok staged => staged.changes.any fun record =>
          decide (record.after ≠ staged.commit.2.getAccount record.address)
      | .error _ => false) = true := by
    decide +kernel
  split at stale
  next staged transacted =>
    obtain ⟨record, member, differs⟩ := List.any_eq_true.1 stale
    exact ⟨staged, transacted, record, member, of_decide_eq_true differs⟩
  · cases stale

theorem plain_transfer_streams_exactly :
    ∃ staged, payingVm.transact agave plainTx = .ok staged ∧
      payingVm.StreamsExactly agave plainTx staged := by
  have stages : (match payingVm.transact agave plainTx with
      | .ok _ => true
      | .error _ => false) = true := by
    decide +kernel
  split at stages
  next staged transacted =>
    obtain ⟨exactly, verified⟩ := Svm.change_stream_exact_iff agave transacted
    exact ⟨staged, transacted, exactly.2 (verified rfl)⟩
  · cases stages

end Sample

end Hpsvm
