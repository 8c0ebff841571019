import Hpsvm.Properties.InspectedRuns

/-!
# Panics of an inspector

A caller may catch the panic of a hook and go on with the VM. The operation is then done either not
at all, if the hook was one of the execution, or entirely but for its record in the history, if it
was one of the commit: the accounts are live when a commit begins, and the history is written last.
The origin, the account source and the signature verification are as before in both cases, and the
inspector is in its place.

A transaction without a record can be sent again.
-/

namespace Hpsvm

open Foundation.Unwinding

/-- The VM before an operation, or the one it commits without the record of it. -/
def Unrecorded (before committed left : Svm) : Prop :=
  left = before ∨ left = { committed with history := before.history }

namespace InspectorImpl

variable {σ : Type}

/-- Where the program unwinds from a clean scratch, the origin is as it was and the inspector in its
place; the relation tells what is left of the VM. -/
def Unwinds {α : Type} (origin : TransactionOrigin) (program : ObservedProgram σ α)
    (leaves : Svm → Svm → Prop) : Prop :=
  ∀ vm state payload after, program.run ⟨vm, .clean, some state, origin⟩ = .error payload after →
    after.inspectionOrigin = origin ∧ after.inspector.isSome = true ∧ leaves vm after.vm

section Rules

variable {inspector : InspectorImpl σ} {α β : Type} {origin : TransactionOrigin}
  {program : ObservedProgram σ α} {leaves : Svm → Svm → Prop}

theorem unwinds_observe {execution : ReadonlyProgram α} {events : Svm → List HookEvent}
    {ending : Svm → Option (α × Svm)}
    (consults : ∀ vm, Consults (leaves vm) vm execution (events vm) fun _ => ending vm) :
    Unwinds origin (inspector.observe execution) leaves := by
  intro vm state payload after unwound
  have ended := inspector.run_observe (consults vm) origin state
  rw [unwound] at ended
  unfold Observed at ended
  split at ended
  · cases ended
  · obtain ⟨_, same, left, kept, placed⟩ := ended
    cases same
    exact ⟨kept, placed, left⟩

theorem Unwinds.map (answer : α → β) (unwinds : Unwinds origin program leaves) :
    Unwinds origin (answer <$> program) leaves := by
  intro vm state payload after unwound
  rw [map_eq_pure_bind, EStateM.run_bind] at unwound
  split at unwound
  · cases unwound
  next stopped =>
    cases unwound
    exact unwinds vm state payload after stopped

/-- What is changed for a while is changed back. -/
theorem Unwinds.restoring {other : TransactionOrigin} {change : ObservedVm σ → ObservedVm σ}
    {back : ObservedVm σ → ObservedVm σ → ObservedVm σ} (enter : Svm → Svm) (restore : Svm → Svm → Svm)
    (unwinds : Unwinds other program leaves)
    (changes : ∀ vm state,
      change ⟨vm, .clean, some state, origin⟩ = ⟨enter vm, .clean, some state, other⟩)
    (backs : ∀ vm state after, after.inspectionOrigin = other →
      back ⟨vm, .clean, some state, origin⟩ after =
        ⟨restore vm after.vm, after.scratch, after.inspector, origin⟩) :
    Unwinds origin (Hpsvm.restoring change back program) fun vm left =>
      ∃ inner, leaves (enter vm) inner ∧ left = restore vm inner := by
  intro vm state payload after unwound
  rw [run_restoring, changes] at unwound
  split at unwound
  · cases unwound
  next inner stopped =>
    obtain ⟨kept, placed, left⟩ := unwinds _ _ _ _ stopped
    cases unwound
    rw [backs vm state inner kept]
    exact ⟨rfl, placed, inner.vm, left, rfl⟩

theorem Unwinds.mono {wider : Svm → Svm → Prop} (unwinds : Unwinds origin program leaves)
    (allowed : ∀ vm left, leaves vm left → wider vm left) : Unwinds origin program wider := by
  intro vm state payload after unwound
  obtain ⟨kept, placed, left⟩ := unwinds vm state payload after unwound
  exact ⟨kept, placed, allowed vm after.vm left⟩

end Rules

end InspectorImpl

namespace ObservedOperation

open Inspected InspectorImpl

variable {agave : BatchAgave} {σ : Type} {inspector : InspectorImpl σ} {origin : TransactionOrigin}

/-! ### Transactions that are sent -/

theorem unrecorded_of_staged {vm : Svm} {tx : VersionedTransaction} {staged : ExecutedTx}
    (stages : vm.transactCore agave.toAgave tx = .ok staged) :
    Unrecorded vm (vm.sendTransaction agave.toAgave tx).2 staged.vm := by
  have kept := Svm.stagedOn_of_transact agave.toAgave ((Svm.transact_eq_ok_iff agave.toAgave).2 stages)
  right
  rw [Svm.sendTransaction, stages]
  simp only [ExecutedTx.commit]
  rw [kept.rest]

theorem unwinds_sendTransaction (tx : VersionedTransaction) :
    Unwinds origin (inspector.sendTransaction agave tx) fun vm left =>
      Unrecorded vm (vm.sendTransaction agave.toAgave tx).2 left :=
  unwinds_observe fun _ => consults_sendTransaction (.inl rfl) fun _ => unrecorded_of_staged

theorem unwinds_airdrop (tx : VersionedTransaction) :
    Unwinds origin (inspector.airdrop agave tx) fun vm left =>
      Unrecorded vm (vm.airdrop agave.toAgave tx).2 left := by
  have sent : Unwinds origin
      (withTransactionOrigin .internalAirdrop (inspector.sendTransaction agave tx)) _ :=
    (unwinds_sendTransaction tx).restoring id (fun _ after => after) (fun _ _ => rfl)
      fun _ _ _ _ => rfl
  apply (sent.restoring (fun vm => vm.setAccountSource .empty)
    (fun vm after => after.setAccountSource vm.accounts.source) (fun _ _ => rfl) ?_).mono
  · rintro vm _ ⟨_, ⟨inner, unrecorded, rfl⟩, rfl⟩
    rcases unrecorded with rfl | rfl
    · exact .inl rfl
    · exact .inr rfl
  · rintro vm state after rfl
    rfl

theorem unwinds_processInstructionChain (instructions : List Instruction) :
    Unwinds origin (inspector.processInstructionChain agave instructions) fun vm left =>
      Unrecorded vm (vm.processInstructionChain agave.toAgave instructions).2 left := by
  intro vm
  have sent : Unwinds origin (withoutSigverify (inspector.sendTransaction agave
      (vm.instructionChainTransaction agave.toAgave instructions))) _ :=
    (unwinds_sendTransaction _).restoring (fun vm => vm.setSigverify false)
      (fun vm after => after.setSigverify vm.version.sigverify) (fun _ _ => rfl) fun _ _ _ same => by
        subst same
        rfl
  intro state payload after unwound
  obtain ⟨kept, placed, inner, unrecorded, left⟩ := sent vm state payload after unwound
  refine ⟨kept, placed, ?_⟩
  rw [left]
  rcases unrecorded with rfl | rfl
  · exact .inl rfl
  · exact .inr rfl

/-! ### Operations of one transaction -/

/-- The operations that execute one transaction and resolve it by themselves. -/
def isSingle : ObservedOperation → Bool
  | sendTransaction _ => true
  | simulateTransaction _ => true
  | tryTransact _ => true
  | processInstructionChainWithAccounts _ _ => true
  | airdrop _ => true
  | _ => false

/-- The VM that the transaction of an operation starts on. -/
def prepared (agave : Agave) : ObservedOperation → Svm → Svm
  | processInstructionChainWithAccounts _ preAccounts, vm => (vm.setAccounts agave preAccounts).2
  | _, vm => vm

/-- The accounts are written before the chain, and stay written. -/
theorem unwinds_processInstructionChainWithAccounts (instructions : List Instruction)
    (preAccounts : List (Address × AccountSharedData)) :
    Unwinds origin
      (inspector.processInstructionChainWithAccounts agave instructions preAccounts) fun vm left =>
        Unrecorded (vm.setAccounts agave.toAgave preAccounts).2
          (vm.processInstructionChainWithAccounts agave.toAgave instructions preAccounts).2 left := by
  intro vm state payload after unwound
  have wrote : (unobserved fun vm => some (vm.setAccounts agave.toAgave preAccounts)).run
      (⟨vm, .clean, some state, origin⟩ : ObservedVm σ) =
        .ok (vm.setAccounts agave.toAgave preAccounts).1
          ⟨(vm.setAccounts agave.toAgave preAccounts).2, .clean, some state, origin⟩ := rfl
  unfold InspectorImpl.processInstructionChainWithAccounts at unwound
  rw [EStateM.run_bind, wrote] at unwound
  simp only [Svm.processInstructionChainWithAccounts]
  generalize vm.setAccounts agave.toAgave preAccounts = written at unwound ⊢
  obtain ⟨error | ⟨⟩, written⟩ := written
  · cases unwound
  · exact unwinds_processInstructionChain instructions written state payload after unwound

end ObservedOperation

namespace Sample

/-- Panics at the first change that a commit reports. -/
def changePanics : InspectorImpl Unit where
  panics := fun _ event _ =>
    match event with
    | .accountChange _ => true
    | _ => false

end Sample

end Hpsvm
