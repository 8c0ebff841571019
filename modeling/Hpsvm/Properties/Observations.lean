import Hpsvm.Inspectors
import Hpsvm.Properties.InspectorEvents

/-!
# What executions report

An execution that starts on a clean scratch reports the same hooks and ends the same way whichever
inspector is installed, unless a hook panics: it answers what the VM without an inspector answers,
and leaves that VM. If a hook does panic, the VM is left as it was, or as the staged transaction has
it.
-/

namespace Hpsvm

open Foundation.Unwinding

/-! ### Consultations -/

/-- A program that consults the inspector first, on a VM with a clean scratch. It reports the events
if the inspector accepts, none otherwise, and leaves a clean scratch. -/
def Consults {α : Type} (unwound : Svm → Prop) (vm : Svm) (program : ReadonlyProgram α)
    (events : List HookEvent) (ending : Bool → Option (α × Svm)) : Prop :=
  ∃ body : Bool → ReadonlyProgram α, program = listening >>= body ∧ ∀ live,
    Reports unwound vm (body live) .clean (if live then events else [])
      ((ending live).map fun (value, vm) => (value, vm, .clean))

section Consults

variable {α β : Type} {unwound : Svm → Prop} {vm vm' : Svm} {program : ReadonlyProgram α}
  {next : α → ReadonlyProgram β} {events later : List HookEvent} {value : Bool → α}
  {ending : Bool → Option (β × Svm)}

theorem Consults.bind
    (first : Consults unwound vm program events fun live => some (value live, vm'))
    (second : ∀ live, Reports unwound vm' (next (value live)) .clean (if live then later else [])
      ((ending live).map fun (value, vm) => (value, vm, .clean))) :
    Consults unwound vm (program >>= next) (events ++ later) ending := by
  obtain ⟨body, rfl, reports⟩ := first
  refine ⟨fun live => body live >>= next, bind_assoc listening body next, ?_⟩
  intro live
  have joined := (reports live).bind (second live)
  cases live <;> exact joined

/-- What only returns a value reports nothing more. -/
theorem Consults.bind_pure {answer : Bool → β}
    (first : Consults unwound vm program events fun live => some (value live, vm'))
    (returns : ∀ live, next (value live) = pure (answer live)) :
    Consults unwound vm (program >>= next) events fun live => some (answer live, vm') := by
  rw [← List.append_nil events]
  apply first.bind
  intro live
  rw [returns live, ite_self]
  exact reports_pure

end Consults

namespace Inspected

open Readonly (hookPoints executeImpl)

variable (agave : BatchAgave) (vm : Svm) (tx : VersionedTransaction)

/-- The hooks of an execution, if the inspector accepts it. -/
def executionEvents : List HookEvent := ((hookPoints agave vm true tx .clean).getD []).map Prod.fst

/-- The changes that the transaction stages. -/
def changesOn : List AccountChangeRecord := stagedChanges agave ⟨vm, .clean, none⟩ tx

/-- The hooks of a transaction that is sent. -/
def sendEvents : List HookEvent := executionEvents agave vm tx ++ (changesOn agave vm tx).map .accountChange

/-- A staged transaction, with whether the inspector takes part in its commit. -/
def withLive (live : Bool) (staged : ExecutedTx) : InspectedTx :=
  { staged with inspectorLive := live && (vm.transactDetached agave.toAgave tx).included }

theorem hookPoints_of_not_live (scratch : TxScratch) :
    (hookPoints agave vm false tx scratch).getD [] = [] := by
  simp only [hookPoints, Readonly.transactionPoints]
  split
  · rfl
  split
  · rfl
  split
  · rfl
  split
  · rfl
  · rfl
  split
  · rfl
  · rfl

section Executions

variable {unwound : Svm → Prop} (here : unwound vm)

include here

theorem reports_executeImpl (live : Bool) :
    Reports unwound vm (executeImpl agave live tx) .clean
      (if live then executionEvents agave vm tx else [])
      (some (vm.executeReadonly agave.toAgave tx, vm, .clean)) := by
  have reports := (Readonly.performs_executeImpl agave vm live tx .clean).reports here
  have empty : TxScratch.clean.modifiedEntries = ∅ := rfl
  simp only [Readonly.endingEffect, ite_self, Readonly.executionAnswer_of_empty agave vm tx empty]
    at reports
  cases live with
  | true => exact reports
  | false =>
    rw [hookPoints_of_not_live] at reports
    exact reports

/-! ### Read-only calls -/

theorem consults_readonlyDetached :
    Consults unwound vm (Readonly.transactDetached agave tx) (executionEvents agave vm tx)
      fun _ => some (vm.transactDetached agave.toAgave tx, vm) := by
  have executes : Consults unwound vm (Readonly.executeReadonly agave tx)
      (executionEvents agave vm tx) fun _ => some (vm.executeReadonly agave.toAgave tx, vm) :=
    ⟨fun live => executeImpl agave live tx, rfl, reports_executeImpl agave vm tx here⟩
  rw [← List.append_nil (executionEvents _ _ _)]
  apply executes.bind
  intro live
  rw [ite_self]
  exact reports_pure

theorem consults_tryTransact :
    Consults unwound vm (Readonly.tryTransact agave tx) (executionEvents agave vm tx)
      fun _ => some (vm.tryTransact agave.toAgave tx, vm) := by
  apply (consults_readonlyDetached agave vm tx here).bind_pure
  intro live
  simp only [Svm.tryTransact]
  cases (vm.transactDetached agave.toAgave tx).fatalError <;> rfl

theorem consults_simulateTransaction :
    Consults unwound vm (Readonly.simulateTransaction agave tx) (executionEvents agave vm tx)
      fun _ => some (vm.simulateTransaction agave.toAgave tx, vm) := by
  apply (consults_readonlyDetached agave vm tx here).bind_pure
  intro live
  simp only [Svm.simulateTransaction]
  cases (vm.transactDetached agave.toAgave tx).status <;> rfl

/-! ### Staged transactions -/

theorem consults_transactDetached :
    Consults unwound vm (transactDetached agave tx) (executionEvents agave vm tx)
      fun live => some ((vm.transactDetached agave.toAgave tx,
        live && (vm.transactDetached agave.toAgave tx).included), vm) := by
  refine ⟨_, rfl, ?_⟩
  intro live
  rw [← List.append_nil (ite _ _ _)]
  exact (reports_executeImpl agave vm tx here live).bind reports_pure

/-- Staging reports nothing. -/
theorem consults_transactCore :
    Consults unwound vm (transactCore agave tx) (executionEvents agave vm tx)
      fun live => match vm.transactCore agave.toAgave tx with
        | .error (failure, after) => some (.error failure, after)
        | .ok staged =>
          some (.ok (withLive agave vm tx live staged), staged.vm) := by
  rw [← List.append_nil (executionEvents _ _ _)]
  apply (consults_transactDetached agave vm tx here).bind
  intro live
  rw [ite_self, Svm.transactCore_eq_stageDetached]
  apply Reports.readRest
  cases vm.stageDetached agave.toAgave (vm.transactDetached agave.toAgave tx) with
  | error failed => exact reports_writeRest.bind reports_pure
  | ok staged => exact reports_writeRest.bind reports_pure

end Executions

/-! ### Resolving a staged transaction -/

section Changes

variable {agave : BatchAgave} {vm : Svm} {tx : VersionedTransaction}

theorem stagedChanges_eq :
    changesOn agave vm tx =
      match vm.transactCore agave.toAgave tx with
      | .error _ => []
      | .ok staged => staged.changes := by
  have empty : TxScratch.clean.modifiedEntries = ∅ := rfl
  unfold changesOn stagedChanges detachedAnswer
  rw [Readonly.executionAnswer_of_empty agave vm tx empty]
  rfl

theorem changesOn_of_refused {failed : StagedFailure × Svm}
    (refused : vm.transactCore agave.toAgave tx = .error failed) : changesOn agave vm tx = [] := by
  rw [stagedChanges_eq, refused]

theorem changesOn_of_staged {staged : ExecutedTx}
    (stages : vm.transactCore agave.toAgave tx = .ok staged) :
    changesOn agave vm tx = staged.changes := by
  rw [stagedChanges_eq, stages]

end Changes

section Resolutions

variable {agave : BatchAgave} {vm : Svm} {tx : VersionedTransaction} {staged : ExecutedTx}
  {unwound : Svm → Prop} (stages : vm.transactCore agave.toAgave tx = .ok staged) (live : Bool)

theorem performs_onAccountChanges (vm : Svm) (live : Bool) (changes : List AccountChangeRecord)
    (scratch : TxScratch) :
    Performs vm (onAccountChanges live changes) scratch
      ⟨if live then changes.map fun record => (.accountChange record, scratch) else [], (),
        scratch⟩ := by
  induction changes with
  | nil =>
    have done : Performs vm (onAccountChanges live []) scratch (.pure () scratch) :=
      performs_pure vm () scratch
    cases live <;> exact done
  | cons record rest ih =>
    apply (Readonly.performs_onHook (.accountChange record)).bind ih
    cases live <;> rfl

include stages

/-- A commit reports the changes if the inspector took part in the execution. There are none if the
execution is not included. -/
theorem reports_commit (here : unwound staged.vm) :
    Reports unwound staged.vm (commit (withLive agave vm tx live staged)) .clean
      (if live then (changesOn agave vm tx).map .accountChange else [])
      (some (staged.commit.1, staged.commit.2, .clean)) := by
  have announced := (performs_onAccountChanges staged.vm
    (live && (vm.transactDetached agave.toAgave tx).included) staged.changes .clean).reports here
  have fired : List.map Prod.fst
      (if (live && (vm.transactDetached agave.toAgave tx).included) = true then
        staged.changes.map fun record => (HookEvent.accountChange record, TxScratch.clean) else []) =
      if live then (changesOn agave vm tx).map .accountChange else [] := by
    rw [changesOn_of_staged stages]
    have changes := changes_of_stageDetached agave
      ((Svm.transactCore_eq_stageDetached agave.toAgave vm tx).symm.trans stages)
    cases live with
    | false => rfl
    | true =>
      cases included : (vm.transactDetached agave.toAgave tx).included with
      | true => simp
      | false => simp [changes, included]
  rw [fired] at announced
  rw [← List.append_nil (ite _ _ _)]
  exact announced.bind (reports_writeRest.bind reports_pure)

end Resolutions

/-- Rolling back reports nothing. -/
theorem reports_unstage {α : Type} {unwound : Svm → Prop} (any : ∀ vm, unwound vm)
    (agave : BatchAgave) (vm : Svm) (tx : VersionedTransaction) (staged : ExecutedTx) (live : Bool)
    (value : α) :
    Reports unwound staged.vm
      (unstage agave (withLive agave vm tx live staged) >>= fun _ => pure value) .clean []
      ((staged.unstage agave.toAgave).map fun vm => (value, vm, .clean)) := by
  unfold unstage ExecutedTx.unstage withLive
  simp only
  split
  · rcases (staged.vm.accounts.rollback staged.checkpoint).rebuildSysvarCache agave.toAgave
      |>.rebuildProgramCache agave.toAgave with ⟨error | done, rebuilt⟩
    · exact (reports_writeRest.bind (reports_panic (any _))).bind_none
    · exact reports_writeRest.bind reports_pure
  · exact reports_writeRest.bind reports_pure

/-- What only returns a value reports nothing more, whether it is come to or not. -/
theorem reports_bind_pure {α β : Type} {unwound : Svm → Prop} {vm : Svm} {program : ReadonlyProgram α}
    {events : List HookEvent} {ending : Option (α × Svm × TxScratch)} (answer : α → β)
    (reports : Reports unwound vm program .clean events ending) :
    Reports unwound vm (program >>= fun value => pure (answer value)) .clean events
      (ending.map fun (value, vm, scratch) => (answer value, vm, scratch)) := by
  rcases ending with _ | ⟨value, after, scratch⟩
  · exact reports.bind_none
  · rw [← List.append_nil events]
    exact reports.bind reports_pure

/-! ### Transactions -/

section Transactions

variable {agave : BatchAgave} {vm : Svm} {tx : VersionedTransaction} {unwound : Svm → Prop}

theorem consults_sendTransaction (here : unwound vm)
    (staged_here : ∀ staged, vm.transactCore agave.toAgave tx = .ok staged → unwound staged.vm) :
    Consults unwound vm (sendTransaction agave tx) (sendEvents agave vm tx)
      fun _ => some (vm.sendTransaction agave.toAgave tx) := by
  have core := consults_transactCore agave vm tx here
  unfold sendEvents Svm.sendTransaction
  cases stages : vm.transactCore agave.toAgave tx with
  | error failed =>
    rw [stages] at core
    rw [changesOn_of_refused stages]
    apply core.bind
    intro live
    rw [List.map_nil, ite_self]
    exact reports_pure
  | ok staged =>
    rw [stages] at core
    apply core.bind
    intro live
    exact reports_commit stages live (staged_here staged stages)

/-- Without an inspector, the transaction is staged and resolved. -/
def transacted (agave : Agave) (vm : Svm) (tx : VersionedTransaction) (resolution : ChangeSink) :
    Option Svm :=
  match vm.transact agave tx with
  | .error (_, vm) => some vm
  | .ok staged => ObservedOperation.resolved agave staged resolution

theorem reports_commitWith {staged : ExecutedTx}
    (stages : vm.transactCore agave.toAgave tx = .ok staged) (any : ∀ vm, unwound vm) (live : Bool)
    {ε ρ : Type} (sink : ρ → AccountChangeRecord → Except ε Unit × ρ) (state : ρ) :
    Reports unwound staged.vm
      (commitWith agave sink state (withLive agave vm tx live staged)) .clean
      (if live then (Resolution.commitWith sink state).events staged.changes else [])
      ((staged.commitWith agave.toAgave sink state).map fun (answer, vm, state) =>
        ((answer, state), vm, .clean)) := by
  have commits := reports_commit stages live (any staged.vm)
  rw [changesOn_of_staged stages] at commits
  have same : (withLive agave vm tx live staged).changes = staged.changes := rfl
  simp only [Resolution.events, commitWith, ExecutedTx.commitWith, same]
  rcases ExecutedTx.streamChanges sink staged.changes state with ⟨error | ⟨⟩, state⟩
  · rw [ite_self, Option.map_map]
    exact reports_unstage any agave vm tx staged live _
  · exact reports_bind_pure (fun result => (Except.ok result, state)) commits

theorem reports_resolve {staged : ExecutedTx}
    (stages : vm.transactCore agave.toAgave tx = .ok staged) (any : ∀ vm, unwound vm) (live : Bool)
    (resolution : ChangeSink) :
    Reports unwound staged.vm (resolution.resolve agave (withLive agave vm tx live staged)) .clean
      (if live then resolution.events staged.changes else [])
      ((ObservedOperation.resolved agave.toAgave staged resolution).map fun vm => ((), vm, .clean)) := by
  cases resolution with
  | commit =>
    have commits := reports_commit stages live (any staged.vm)
    rw [changesOn_of_staged stages] at commits
    exact reports_bind_pure (fun _ => ()) commits
  | commitWith sink state =>
    have ended := reports_bind_pure (fun _ => ()) (reports_commitWith stages any live sink state)
    rw [Option.map_map] at ended
    rw [ObservedOperation.resolved, Option.map_map]
    exact ended
  | discard =>
    have ended := reports_bind_pure (fun _ => ())
      (reports_unstage any agave vm tx staged live staged.result)
    rw [Option.map_map] at ended
    rw [ObservedOperation.resolved, ExecutedTx.discard, Option.map_map, Option.map_map,
      Resolution.events, ite_self]
    exact ended

theorem consults_transactAnd (any : ∀ vm, unwound vm) (resolution : ChangeSink) :
    Consults unwound vm (transactAnd agave resolution tx)
      (executionEvents agave vm tx ++ resolution.events (changesOn agave vm tx))
      fun _ => (transacted agave.toAgave vm tx resolution).map fun vm => ((), vm) := by
  have core := consults_transactCore agave vm tx (any vm)
  unfold transacted Svm.transact
  cases stages : vm.transactCore agave.toAgave tx with
  | error failed =>
    rw [stages] at core
    rw [changesOn_of_refused stages, resolution.events_nil]
    apply core.bind
    intro live
    rw [ite_self]
    exact reports_pure
  | ok staged =>
    rw [stages] at core
    rw [changesOn_of_staged stages]
    apply core.bind
    intro live
    rw [Option.map_map]
    exact reports_resolve stages any live resolution

end Transactions

end Inspected

end Hpsvm
