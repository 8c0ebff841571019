import Hpsvm.Properties.Discard
import Hpsvm.Readonly

/-!
# What a read-only execution leaves

An execution announces its hooks at fixed points, with the scratch of the program cache as the
instructions before left it. If no hook panics, the scratch is drained at the end. If one does, the
scratch stays as it was at that point, and the VM keeps it.
-/

namespace Hpsvm

open Foundation.Unwinding

namespace Readonly

open Svm (MessageOutcome ProcessedTransaction)

variable (agave : BatchAgave) {keys : List Address}

/-! ### Hook points -/

/-- The hooks of the instruction loop, with the scratch at their time. -/
def instructionPoints (vm : Svm) (config : EnvironmentConfig) (message : SanitizedMessage) :
    Nat → List CompiledInstruction → InvokeContext keys → TxScratch → List (HookEvent × TxScratch)
  | _, [], _, _ => []
  | index, instruction :: rest, context, scratch =>
    let programId := message.accountKeys.getD instruction.programIdIndex 0
    let outcome := vm.processTopLevelInstruction agave.toAgave config message index instruction context
    let after := vm.scratchAfter agave config message index instruction context scratch
    (.instructionStart index programId, scratch) :: (.instructionEnd index programId, after) ::
      match outcome.result with
      | .error _ => []
      | .ok () => instructionPoints vm config message (index + 1) rest outcome.context after

/-- The scratch after the instruction loop. -/
def instructionScratch (vm : Svm) (config : EnvironmentConfig) (message : SanitizedMessage) :
    Nat → List CompiledInstruction → InvokeContext keys → TxScratch → TxScratch
  | _, [], _, scratch => scratch
  | index, instruction :: rest, context, scratch =>
    let outcome := vm.processTopLevelInstruction agave.toAgave config message index instruction context
    let after := vm.scratchAfter agave config message index instruction context scratch
    match outcome.result with
    | .error _ => after
    | .ok () => instructionScratch vm config message (index + 1) rest outcome.context after

/-- The effect of `process_message`. Without a live inspector nothing is announced. -/
def messageEffect (vm : Svm) (live : Bool) (config : EnvironmentConfig) (message : SanitizedMessage)
    (context : InvokeContext keys) (scratch : TxScratch) :
    Effect TxScratch HookEvent (MessageOutcome keys) :=
  match agave.prepareTopLevelInstructions config message context with
  | .error (index, error) => .pure ⟨.error (.instructionError index error), context, 0⟩ scratch
  | .ok prepared =>
    let lent := { scratch with modifiedEntries := prepared.modifiedEntries }
    { points :=
        if live then instructionPoints agave vm config message 0 message.instructions prepared lent
        else []
      value := vm.processInstructions agave.toAgave config message 0 message.instructions prepared 0
      scratch := instructionScratch agave vm config message 0 message.instructions prepared lent }

/-- All hooks of a transaction whose accounts are loaded. -/
def loadedPoints (vm : Svm) (live : Bool) (tx : SanitizedTransaction) (config : EnvironmentConfig)
    (accounts : List (Address × AccountSharedData)) (scratch : TxScratch) :
    List (HookEvent × TxScratch) :=
  let effect := messageEffect agave vm live config tx.message (lentContext config accounts scratch)
    scratch
  if live then
    (.transactionStart tx, scratch) :: effect.points ++
      effect.value.context.logs.map (fun message => (.log message, effect.scratch)) ++
      [(.transactionEnd effect.value.result, effect.scratch)]
  else []

section Rules

variable {vm : Svm} {live : Bool} {scratch : TxScratch}

theorem performs_onHook (event : HookEvent) :
    Performs vm (onHook live event) scratch
      ⟨if live then [(event, scratch)] else [], (), scratch⟩ := by
  cases live with
  | true => exact performs_announce vm event scratch
  | false => exact performs_pure vm () scratch

theorem performs_onLogs (logs : List String) :
    Performs vm (onLogs live logs) scratch
      ⟨if live then logs.map (fun message => (.log message, scratch)) else [], (), scratch⟩ := by
  induction logs with
  | nil =>
    have done : Performs vm (onLogs live []) scratch (.pure () scratch) := performs_pure vm () scratch
    cases live <;> exact done
  | cons message rest ih =>
    refine (performs_onHook (.log message)).bind ih ?_
    cases live <;> rfl

theorem performs_processInstructions (config : EnvironmentConfig) (message : SanitizedMessage)
    (index : Nat) (instructions : List CompiledInstruction) (context : InvokeContext keys)
    (consumed : Nat) :
    Performs vm (processInstructions agave live config message index instructions context consumed)
      scratch
      { points :=
          if live then instructionPoints agave vm config message index instructions context scratch
          else []
        value := vm.processInstructions agave.toAgave config message index instructions context
          consumed
        scratch := instructionScratch agave vm config message index instructions context
          scratch } := by
  induction instructions generalizing index context consumed scratch with
  | nil =>
    have done : Performs vm (processInstructions agave live config message index [] context consumed)
        scratch (.pure ⟨.ok (), context, consumed⟩ scratch) := performs_pure vm _ scratch
    cases live <;> exact done
  | cons instruction rest ih =>
    unfold processInstructions
    cases ended : (vm.processTopLevelInstruction agave.toAgave config message index instruction
        context).result with
    | error error =>
      apply Performs.bind (performs_onHook _)
      · apply Performs.readRest
        apply Performs.bind (performs_modifyScratch vm _ scratch)
        · apply Performs.bind (performs_onHook _)
          · simp only [Effect.pure, ended]
            exact performs_pure vm _ _
          · rfl
        · rfl
      · cases live <;> simp [instructionPoints, instructionScratch, Svm.processInstructions, ended,
          Effect.followed, Effect.pure]
    | ok done =>
      apply Performs.bind (performs_onHook _)
      · apply Performs.readRest
        apply Performs.bind (performs_modifyScratch vm _ scratch)
        · apply Performs.bind (performs_onHook _)
          · simp only [Effect.pure, ended]
            exact ih _ _ _
          · rfl
        · rfl
      · cases live <;> simp [instructionPoints, instructionScratch, Svm.processInstructions, ended,
          Effect.followed, Effect.pure]

theorem performs_processMessage (config : EnvironmentConfig) (message : SanitizedMessage)
    (context : InvokeContext keys) :
    Performs vm (processMessage agave live config message context) scratch
      (messageEffect agave vm live config message context scratch) := by
  unfold processMessage messageEffect
  cases agave.prepareTopLevelInstructions config message context with
  | error failed => exact performs_pure vm _ scratch
  | ok prepared =>
    apply Performs.bind (performs_modifyScratch vm _ scratch)
    · exact performs_processInstructions agave config message 0 message.instructions prepared 0
    · rfl

theorem messageEffect_points_of_not_live (config : EnvironmentConfig) (message : SanitizedMessage)
    (context : InvokeContext keys) :
    (messageEffect agave vm false config message context scratch).points = [] := by
  unfold messageEffect
  cases agave.prepareTopLevelInstructions config message context <;> rfl

theorem messageEffect_value (config : EnvironmentConfig) (message : SanitizedMessage)
    (context : InvokeContext keys) :
    (messageEffect agave vm live config message context scratch).value =
      vm.processMessage agave.toAgave config message context := by
  unfold messageEffect Svm.processMessage
  cases agave.prepareTopLevelInstructions config message context <;> rfl

/-- A transaction whose accounts are loaded announces its hooks and leaves a clean scratch. -/
theorem performs_processLoaded (tx : SanitizedTransaction) (config : EnvironmentConfig)
    (accounts : List (Address × AccountSharedData)) :
    Performs vm (processLoaded agave live tx config accounts) scratch
      { points := loadedPoints agave vm live tx config accounts scratch
        value := vm.processMessage agave.toAgave config tx.message
          (lentContext config accounts scratch)
        scratch := .clean } := by
  unfold processLoaded
  apply Performs.bind (performs_modifyScratch vm _ scratch)
  · apply Performs.bind (performs_onHook _)
    · apply Performs.bind (performs_processMessage agave config tx.message _)
      · apply Performs.bind (performs_onLogs _)
        · apply Performs.bind (performs_onHook _)
          · apply Performs.bind (performs_modifyScratch vm _ _)
            · exact performs_pure vm _ _
            · rfl
          · rfl
        · rfl
      · rfl
    · rfl
  · unfold loadedPoints
    cases live <;> simp [Effect.followed, Effect.pure, messageEffect_points_of_not_live,
      messageEffect_value]

end Rules

/-! ### Whole executions -/

/-- `inspector_live`. -/
def isLive (shared : SharedVm) : Bool :=
  shared.slot.any fun inspector => inspector.accepts inspector.heard

/-- The hooks of `process_transaction`, with the scratch at their time; `none` if it ends before
them. -/
def transactionPoints (vm : Svm) (live : Bool) (tx : SanitizedTransaction)
    (limits : ComputeBudgetLimits) (scratch : TxScratch) : Option (List (HookEvent × TxScratch)) :=
  match vm.accounts.rent? agave.toAgave with
  | none => none
  | some rent =>
    let fee := vm.transactionFee agave.toAgave tx.message limits
    match vm.loadAccounts agave.toAgave tx.message rent fee 0 tx.message.accountKeys none with
    | .error _ => none
    | .ok (_, none) => none
    | .ok (accounts, some _) =>
      match vm.resolveProgramIndices accounts fee tx.message.instructions [] with
      | .error _ => none
      | .ok _ =>
        let config := vm.environmentConfig agave.toAgave tx.message limits rent
        some (loadedPoints agave vm live tx config accounts scratch)

/-- The hooks of an execution. -/
def hookPoints (vm : Svm) (live : Bool) (tx : VersionedTransaction) (scratch : TxScratch) :
    Option (List (HookEvent × TxScratch)) :=
  match vm.sanitize agave.toAgave tx with
  | .error _ => none
  | .ok sanitized =>
    match vm.checkTransaction agave.toAgave sanitized with
    | .error _ => none
    | .ok limits => transactionPoints agave vm live sanitized limits scratch

/-- Announces the hooks, and drains the scratch if there are any to come to. -/
def endingEffect {α : Type} (points : Option (List (HookEvent × TxScratch))) (value : α)
    (scratch : TxScratch) : Effect TxScratch HookEvent α :=
  ⟨points.getD [], value, if points.isSome then .clean else scratch⟩

/-- What `process_transaction` answers, with the modified entries that the scratch lends. -/
def transactionAnswer (vm : Svm) (tx : SanitizedTransaction) (limits : ComputeBudgetLimits)
    (scratch : TxScratch) : Except ExecutionResult ProcessedTransaction :=
  match vm.accounts.rent? agave.toAgave with
  | none => .error (.rejected .sanitizeFailure 0)
  | some rent =>
    let fee := vm.transactionFee agave.toAgave tx.message limits
    match vm.loadAccounts agave.toAgave tx.message rent fee 0 tx.message.accountKeys none with
    | .error result => .error result
    | .ok (_, none) => .error (.rejected .accountNotFound fee)
    | .ok (accounts, some payer) =>
      match vm.resolveProgramIndices accounts fee tx.message.instructions [] with
      | .error result => .error result
      | .ok (_, failures) =>
        let config := vm.environmentConfig agave.toAgave tx.message limits rent
        .ok ⟨_, vm.processMessage agave.toAgave config tx.message
          (lentContext config accounts scratch), fee, some payer, failures⟩

/-- What an execution answers. -/
def executionAnswer (vm : Svm) (tx : VersionedTransaction) (scratch : TxScratch) :
    ExecutionResult × List String :=
  match vm.sanitize agave.toAgave tx with
  | .error result => (result, [])
  | .ok sanitized =>
    match vm.checkTransaction agave.toAgave sanitized with
    | .error result => (result, [])
    | .ok limits =>
      match transactionAnswer agave vm sanitized limits scratch with
      | .error result => (result, [])
      | .ok processed =>
        (Svm.executionResultIfContext sanitized processed, processed.outcome.context.logs)

theorem transactionAnswer_of_empty (vm : Svm) (tx : SanitizedTransaction)
    (limits : ComputeBudgetLimits) {scratch : TxScratch} (empty : scratch.modifiedEntries = ∅) :
    transactionAnswer agave vm tx limits scratch =
      vm.processTransaction agave.toAgave tx.message limits := by
  unfold transactionAnswer Svm.processTransaction
  simp only [lentContext, empty]
  rfl

/-- Where no entries are lent, the answer is the one of the execution without hooks. -/
theorem executionAnswer_of_empty (vm : Svm) (tx : VersionedTransaction) {scratch : TxScratch}
    (empty : scratch.modifiedEntries = ∅) :
    executionAnswer agave vm tx scratch = vm.executeReadonly agave.toAgave tx := by
  unfold executionAnswer
  simp only [transactionAnswer_of_empty agave vm _ _ empty]
  rfl

theorem performs_processTransaction (vm : Svm) (live : Bool) (tx : SanitizedTransaction)
    (limits : ComputeBudgetLimits) (scratch : TxScratch) :
    Performs vm (processTransaction agave live tx limits) scratch
      (endingEffect (transactionPoints agave vm live tx limits scratch)
        (transactionAnswer agave vm tx limits scratch) scratch) := by
  have early : ∀ result, Performs vm
      (pure (.error result) : ReadonlyProgram (Except ExecutionResult ProcessedTransaction)) scratch
        (endingEffect none (.error result) scratch) := fun result => performs_pure vm _ scratch
  apply Performs.readRest
  unfold transactionPoints transactionAnswer
  cases vm.accounts.rent? agave.toAgave with
  | none => exact early _
  | some rent =>
    simp only
    cases vm.loadAccounts agave.toAgave tx.message rent
        (vm.transactionFee agave.toAgave tx.message limits) 0 tx.message.accountKeys none with
    | error result => exact early _
    | ok pair =>
      obtain ⟨accounts, _ | payer⟩ := pair
      · exact early _
      · simp only
        cases vm.resolveProgramIndices accounts
            (vm.transactionFee agave.toAgave tx.message limits) tx.message.instructions [] with
        | error result => exact early _
        | ok pair =>
          apply Performs.bind (performs_processLoaded agave tx _ accounts)
          · exact performs_pure vm _ _
          · simp [Effect.followed, Effect.pure, endingEffect]

theorem performs_executeImpl (vm : Svm) (live : Bool) (tx : VersionedTransaction)
    (scratch : TxScratch) :
    Performs vm (executeImpl agave live tx) scratch
      (endingEffect (hookPoints agave vm live tx scratch) (executionAnswer agave vm tx scratch)
        scratch) := by
  apply Performs.readRest
  unfold hookPoints executionAnswer
  cases vm.sanitize agave.toAgave tx with
  | error result => exact performs_pure vm _ scratch
  | ok sanitized =>
    apply Performs.readRest
    simp only
    cases vm.checkTransaction agave.toAgave sanitized with
    | error result => exact performs_pure vm _ scratch
    | ok limits =>
      have performs := performs_processTransaction agave vm live sanitized limits scratch
      simp only
      cases answered : transactionAnswer agave vm sanitized limits scratch with
      | error result =>
        rw [answered] at performs
        apply Performs.bind performs
        · exact performs_pure vm _ _
        · simp [Effect.followed, Effect.pure, endingEffect]
      | ok processed =>
        rw [answered] at performs
        apply Performs.bind performs
        · exact performs_pure vm _ _
        · simp [Effect.followed, Effect.pure, endingEffect]

/-- What an execution leaves, however it ends. -/
theorem left_executeReadonly (shared : SharedVm) (tx : VersionedTransaction) :
    left ((executeReadonly agave tx).run shared) =
      let points := hookPoints agave shared.rest (isLive shared) tx shared.scratch
      let heard := interrupt shared.slot (points.getD [])
      ⟨shared.rest, heard.2.getD (if points.isSome then .clean else shared.scratch),
        heard.1.map Listener.consult⟩ := by
  have ran := (performs_executeImpl agave shared.rest (isLive shared) tx shared.scratch).left_eq
    (shared.slot.map Listener.consult)
  rw [interrupt_consult] at ran
  exact ran

/-- Without a panic, and with no entries left over, the hooks change no answer. -/
theorem executeReadonly_answer {shared after : SharedVm} {tx : VersionedTransaction}
    {answer : ExecutionResult × List String} (empty : shared.scratch.modifiedEntries = ∅)
    (returned : (executeReadonly agave tx).run shared = .ok answer after) :
    answer = shared.rest.executeReadonly agave.toAgave tx := by
  have ran : (executeReadonly agave tx).run shared = _ :=
    performs_executeImpl agave shared.rest (isLive shared) tx shared.scratch
      (shared.slot.map Listener.consult)
  rw [returned] at ran
  split at ran
  · cases ran
  · cases ran
    exact executionAnswer_of_empty agave shared.rest tx empty

/-- The hooks leave no trace: one that panics finds the scratch as it was before the execution, and
if none does, there was nothing to drain. -/
def HooksLeaveScratch (shared : SharedVm) (tx : VersionedTransaction) : Prop :=
  ∀ points, hookPoints agave shared.rest (isLive shared) tx shared.scratch = some points →
    match (interrupt shared.slot points).2 with
    | some scratch => scratch = shared.scratch
    | none => shared.scratch = .clean

/-- The read-only entry points. -/
inductive EntryPoint
  | transactDetached
  | tryTransact
  | simulateTransaction

/-- What a call of the entry point leaves, whether it returns or unwinds. -/
def EntryPoint.leaves (tx : VersionedTransaction) (shared : SharedVm) : EntryPoint → SharedVm
  | transactDetached => left ((Readonly.transactDetached agave tx).run shared)
  | tryTransact => left ((Readonly.tryTransact agave tx).run shared)
  | simulateTransaction => left ((Readonly.simulateTransaction agave tx).run shared)

theorem EntryPoint.leaves_eq (entry : EntryPoint) (tx : VersionedTransaction) (shared : SharedVm) :
    entry.leaves agave tx shared = left ((executeReadonly agave tx).run shared) := by
  have detached : left ((Readonly.transactDetached agave tx).run shared) =
      left ((executeReadonly agave tx).run shared) :=
    left_bind_of_returns fun _ _ => ⟨_, rfl⟩
  cases entry with
  | transactDetached => exact detached
  | tryTransact =>
    refine (left_bind_of_returns fun outcome after => ?_).trans detached
    cases outcome.fatalError <;> exact ⟨_, rfl⟩
  | simulateTransaction =>
    refine (left_bind_of_returns fun outcome after => ?_).trans detached
    cases outcome.status <;> exact ⟨_, rfl⟩

/-- A read-only call never changes the VM. It leaves the scratch and the flags of the program cache
as they were exactly if its hooks leave no trace. -/
theorem readonly_frame_iff (entry : EntryPoint) (tx : VersionedTransaction) (shared : SharedVm) :
    (entry.leaves agave tx shared).rest = shared.rest ∧
    ((entry.leaves agave tx shared).scratch = shared.scratch ↔ HooksLeaveScratch agave shared tx) := by
  rw [entry.leaves_eq, left_executeReadonly]
  refine ⟨rfl, ?_⟩
  unfold HooksLeaveScratch
  cases hookPoints agave shared.rest (isLive shared) tx shared.scratch with
  | none => simp [interrupt_nil]
  | some points =>
    simp only [Option.getD_some, Option.isSome_some, if_true, Option.some.injEq, forall_eq']
    cases (interrupt shared.slot points).2 with
    | none => exact eq_comm
    | some scratch => exact Iff.rfl

end Readonly

namespace Sample

open Readonly

/-- Every instruction puts the program `0x77` among the modified entries, as a deployment does. -/
def deployingAgave : BatchAgave :=
  { agave with
    processInstruction := fun config cache message index context =>
      let outcome := processInstruction config cache message index context
      { outcome with
        context :=
          { outcome.context with
            modifiedEntries := outcome.context.modifiedEntries.insert 0x77 (.builtin 9) } }
    batchFlags := fun _ _ _ _ _ flags => flags }

/-- Panics when the first instruction ends. -/
def panickingInspector : HookInspector where
  accepts := fun _ => true
  panics := fun _ event =>
    match event with
    | .instructionEnd _ _ => true
    | _ => false
  heard := []

def inspectedVm : SharedVm := ⟨payingVm, .clean, some panickingInspector⟩

/-- The entry that the instruction put into the scratch is still there after the call unwound, and
is found before the committed entries by the next execution. -/
theorem panicking_hook_leaves_scratch :
    inspectedVm.scratch = .clean ∧
      (EntryPoint.simulateTransaction.leaves deployingAgave plainTx
        inspectedVm).scratch.modifiedEntries[(0x77 : Address)]?.isSome = true := by
  rw [EntryPoint.leaves_eq]
  exact ⟨rfl, by decide +kernel⟩

end Sample

end Hpsvm
