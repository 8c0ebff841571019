import Hpsvm.Foundation.Sharing
import Hpsvm.Handlers
import Hpsvm.SampleRuntime

/-!
# What handlers can do to a VM

With the default handlers the registry is not there: a VM runs as one that executes every envelope
directly, whatever is registered under other tags. Handlers that check a transaction before they hand
it to the default execution only filter: whatever they look at, remember, run or panic over, the VM
runs as the plain one does on the operations that were let through.
-/

namespace Hpsvm

open Foundation (Callback CallEnding Sharing.runAlone)
open Layers (TxTag TxError TxValidationError)

section

variable {W : Type} {agave : Agave}

namespace TxRegistry

/-! ### Dispatching -/

/-- Once a dispatch returns, deeper nesting changes nothing. -/
theorem dispatch_deeper {registry : TxRegistry W} {depth : Nat} {tag : TxTag}
    {tx : VersionedTransaction} {host : Svm} {memory : W}
    {ended : CallEnding (Except TxError DetachedTx) × W}
    (dispatched : registry.dispatch depth tag tx host memory = some ended) :
    registry.dispatch (depth + 1) tag tx host memory = some ended := by
  induction depth generalizing tag tx memory ended with
  | zero => cases dispatched
  | succ depth ih =>
    have deeper {α : Type} {program : Handling W α} {memory : W} {ended : CallEnding α × W}
        (ran : program.run (fun nested memory =>
          registry.dispatch depth (tagOf nested) nested host memory) host memory = some ended) :
        program.run (fun nested memory =>
          registry.dispatch (depth + 1) (tagOf nested) nested host memory) host memory =
            some ended :=
      Callback.run_of_serves (fun _ _ _ served => ih served) ran
    rw [dispatch] at dispatched ⊢
    cases registered : registry.handlers tag with
    | none =>
      rw [registered] at dispatched
      exact dispatched
    | some handle =>
      rw [registered] at dispatched
      simp only at dispatched ⊢
      split at dispatched
      · cases dispatched
      next memory validated =>
        rw [deeper validated]
        exact dispatched
      next error memory validated =>
        rw [deeper validated]
        exact dispatched
      next memory validated =>
        rw [deeper validated]
        simp only
        split at dispatched
        · cases dispatched
        next memory executed =>
          rw [deeper executed]
          exact dispatched
        next error memory executed =>
          rw [deeper executed]
          exact dispatched
        next detached memory executed =>
          rw [deeper executed]
          exact dispatched

/-- The handler of the tag executes by default, whatever it validates. -/
def GuardsTag (agave : Agave) (registry : TxRegistry W) (tag : TxTag) : Prop :=
  ∃ handle, registry.handlers tag = some handle ∧
    handle.execute = (defaultExecutionHandler agave W).execute

/-- The handlers of all envelopes execute by default. -/
def Guards (agave : Agave) (registry : TxRegistry W) : Prop :=
  ∀ tx : VersionedTransaction, registry.GuardsTag agave (tagOf tx)

/-- A guarded dispatch executes by default, or it stops before. -/
theorem Guards.dispatch_cases {registry : TxRegistry W} (guards : registry.Guards agave)
    {depth : Nat} {tx : VersionedTransaction} {host : Svm} {memory memory' : W}
    {ending : CallEnding (Except TxError DetachedTx)}
    (dispatched : registry.dispatch depth (tagOf tx) tx host memory = some (ending, memory')) :
    ending = .returned (.ok (host.transactDetached agave tx)) ∨ ending = .panicked ∨
      ∃ error, ending = .returned (.error (.validation error)) := by
  obtain ⟨handle, registered, executes⟩ := guards tx
  cases depth with
  | zero => cases dispatched
  | succ depth =>
    rw [dispatch, registered] at dispatched
    simp only at dispatched
    split at dispatched
    · cases dispatched
    · cases dispatched
      exact .inr (.inl rfl)
    next error memory _ =>
      cases dispatched
      exact .inr (.inr ⟨error, rfl⟩)
    next memory _ =>
      rw [executes] at dispatched
      cases dispatched
      exact .inl rfl

end TxRegistry

/-! ### Operations -/

namespace Operation

/-- What the caller gets where the handler does not let the transaction through. -/
def refusal (op : Operation) (tx : VersionedTransaction) (error : TxError) : RoutedAnswer :=
  match op with
  | transactCommit _ => .staged (.error (.ofTx error))
  | transactDiscard _ => .staged (.error (.ofTx error))
  | processInstructionCase _ _ => .instruction (.error (.ofTx error))
  | simulateInstructionChainWithAccounts _ _ =>
    .simulation (.error ⟨error.transactionError, { signature := tx.signature }⟩)
  | _ => .transaction (.error ⟨error.transactionError, { signature := tx.signature }⟩)

end Operation

namespace RoutedVm

/-- Staging what the default execution returned is what `transact_core` does. -/
theorem stage_default (svm : Svm) (tx : VersionedTransaction) :
    stage agave svm tx (.ok (svm.transactDetached agave tx)) =
      match svm.transactCore agave tx with
      | .error (failure, svm) => .error (⟨.ofModel failure.error, failure.result⟩, svm)
      | .ok staged => .ok staged := by
  rw [Svm.transactCore_eq_stageDetached]
  rfl

/-- What follows a default execution is the plain operation. -/
theorem conclude_default {vm : RoutedVm W} {op : Operation} {host : Svm}
    {tx : VersionedTransaction} (runs : op.runs agave vm.svm = some (host, tx)) (memory : W) :
    vm.conclude agave op host tx (.ok (host.transactDetached agave tx)) memory =
      (op.act agave vm.svm).map fun (answer, svm) => (.ofAnswer answer, vm.withSvm svm memory) := by
  cases op with
  | sendTransaction tx =>
    cases runs
    simp only [conclude, stage_default, Operation.act, Svm.sendTransaction]
    cases vm.svm.transactCore agave tx with
    | error failure => rfl
    | ok staged => rfl
  | transactCommit tx =>
    cases runs
    simp only [conclude, stage_default, Operation.act, Svm.transact]
    cases vm.svm.transactCore agave tx with
    | error failure => rfl
    | ok staged => rfl
  | transactDiscard tx =>
    cases runs
    simp only [conclude, stage_default, Operation.act, Svm.transact]
    cases vm.svm.transactCore agave tx with
    | error failure => rfl
    | ok staged =>
      simp only [Option.map_map]
      rfl
  | processInstructionCase case unique =>
    simp only [Operation.runs] at runs
    simp only [conclude, Operation.act, Svm.processInstructionCase]
    rcases prepared : vm.svm.prepareCase agave case (case.feePayer unique) with
      ⟨error | done, working⟩
    · rw [prepared] at runs
      cases runs
    · rw [prepared] at runs
      cases runs
      simp only [tryTransactOf, Svm.tryTransact]
      cases (host.transactDetached agave (agave.compileMessage [case.instruction]
        (case.feePayer unique) host.blockEnv.latestBlockhash)).fatalError with
      | none => rfl
      | some error => rfl
  | simulateInstructionChainWithAccounts instructions preAccounts =>
    simp only [Operation.runs] at runs
    simp only [conclude, Operation.act, Svm.simulateInstructionChainWithAccounts]
    rcases prepared : vm.svm.setAccounts agave preAccounts with ⟨error | done, working⟩
    · rw [prepared] at runs
      cases runs
    · rw [prepared] at runs
      cases runs
      rfl
  | _ => cases runs

/-- A transaction that is refused leaves the VM as a panic of its handler does. -/
theorem conclude_refused {vm : RoutedVm W} {op : Operation} {host : Svm}
    {tx : VersionedTransaction} (runs : op.runs agave vm.svm = some (host, tx)) (error : TxError)
    (memory : W) :
    vm.conclude agave op host tx (.error error) memory =
      some (op.refusal tx error, vm.unwound op host memory) := by
  cases op with
  | sendTransaction tx => cases runs; rfl
  | transactCommit tx => cases runs; rfl
  | transactDiscard tx => cases runs; rfl
  | processInstructionCase case unique => rfl
  | simulateInstructionChainWithAccounts instructions preAccounts => rfl
  | _ => cases runs

/-- That is as it was, or as the plain operation leaves it if that works on a clone. -/
theorem unwound_cases {vm : RoutedVm W} {op : Operation} {host : Svm}
    {tx : VersionedTransaction} (runs : op.runs agave vm.svm = some (host, tx)) (memory : W) :
    (op.isReadonly = false → (vm.unwound op host memory).svm = vm.svm) ∧
      (op.isReadonly = true →
        ∃ plain, op.act agave vm.svm = some (plain, (vm.unwound op host memory).svm)) := by
  cases op with
  | processInstructionCase case unique =>
    refine ⟨fun changes => absurd changes.symm Bool.false_ne_true, fun _ => ?_⟩
    simp only [Operation.runs] at runs
    simp only [Operation.act, Svm.processInstructionCase]
    rcases prepared : vm.svm.prepareCase agave case (case.feePayer unique) with
      ⟨error | done, working⟩
    · rw [prepared] at runs
      cases runs
    · rw [prepared] at runs
      cases runs
      exact ⟨_, rfl⟩
  | simulateInstructionChainWithAccounts instructions preAccounts =>
    refine ⟨fun changes => absurd changes.symm Bool.false_ne_true, fun _ => ?_⟩
    simp only [Operation.runs] at runs
    simp only [Operation.act, Svm.simulateInstructionChainWithAccounts]
    rcases prepared : vm.svm.setAccounts agave preAccounts with ⟨error | done, working⟩
    · rw [prepared] at runs
      cases runs
    · rw [prepared] at runs
      cases runs
      exact ⟨_, rfl⟩
  | _ => exact ⟨fun _ => rfl, fun readonly => absurd readonly Bool.false_ne_true⟩

theorem act_deeper {vm : RoutedVm W} {depth : Nat} {op : Operation}
    {acted : RoutedAnswer × RoutedVm W} (ran : vm.act agave depth op = some acted) :
    vm.act agave (depth + 1) op = some acted := by
  unfold act at ran ⊢
  cases runs : op.runs agave vm.svm with
  | none =>
    rw [runs] at ran
    exact ran
  | some run =>
    obtain ⟨host, tx⟩ := run
    rw [runs] at ran
    simp only at ran ⊢
    cases dispatched : vm.dispatchDetached depth host tx with
    | none => simp [dispatched] at ran
    | some ended =>
      have deeper : vm.dispatchDetached (depth + 1) host tx = some ended :=
        TxRegistry.dispatch_deeper dispatched
      rw [dispatched] at ran
      rw [deeper]
      exact ran

end RoutedVm

namespace RoutedOperation

/-- The handler did not let the transaction of the operation through. -/
def Refused (op : Operation) (answer : RoutedAnswer) : Prop :=
  answer = .panicked ∨ ∃ tx error, answer = op.refusal tx (.validation error)

/-- The operations of a run that reach the plain VM, with what it answers to them. An operation that
is refused reaches it only if it works on a clone. -/
inductive Filtered : List (RoutedOperation W) → List RoutedAnswer → List Operation → List Answer →
    Prop
  | nil : Filtered [] [] [] []
  | register {ops : List (RoutedOperation W)} {answers : List RoutedAnswer}
      {plain : List Operation} {given : List Answer} (tag : TxTag) (handle : TxHandler W)
      (rest : Filtered ops answers plain given) :
      Filtered (.register tag handle :: ops) (.done :: answers) plain given
  | admitted {ops : List (RoutedOperation W)} {answers : List RoutedAnswer}
      {plain : List Operation} {given : List Answer} (op : Operation) (answer : Answer)
      (rest : Filtered ops answers plain given) :
      Filtered (.operate op :: ops) (.ofAnswer answer :: answers) (op :: plain) (answer :: given)
  | refused {ops : List (RoutedOperation W)} {answers : List RoutedAnswer}
      {plain : List Operation} {given : List Answer} {op : Operation} {answer : RoutedAnswer}
      (stages : op.isReadonly = false) (stopped : Refused op answer)
      (rest : Filtered ops answers plain given) :
      Filtered (.operate op :: ops) (answer :: answers) plain given
  | refusedReadonly {ops : List (RoutedOperation W)} {answers : List RoutedAnswer}
      {plain : List Operation} {given : List Answer} {op : Operation} {answer : RoutedAnswer}
      (unheard : Answer) (readonly : op.isReadonly = true) (stopped : Refused op answer)
      (rest : Filtered ops answers plain given) :
      Filtered (.operate op :: ops) (answer :: answers) (op :: plain) (unheard :: given)

/-- Only guards are registered for envelopes. -/
def Guards (agave : Agave) : RoutedOperation W → Prop
  | register (.custom _) _ => True
  | register _ handle => handle.execute = (defaultExecutionHandler agave W).execute
  | operate _ => True

theorem guards_register {registry : TxRegistry W} (guards : registry.Guards agave) {tag : TxTag}
    {handle : TxHandler W} (allowed : (register tag handle).Guards agave) :
    (registry.register tag handle).Guards agave := by
  intro tx
  by_cases same : tagOf tx = tag
  · refine ⟨handle, if_pos same, ?_⟩
    cases tag with
    | custom id =>
      -- No envelope has a custom tag.
      unfold tagOf at same
      split at same <;> cases same
    | _ => exact allowed
  · obtain ⟨other, registered, executes⟩ := guards tx
    exact ⟨other, (if_neg same).trans registered, executes⟩

/-- One operation under guards. -/
theorem act_cases {vm next : RoutedVm W} (guards : vm.registry.Guards agave) {depth : Nat}
    {op : Operation} {answer : RoutedAnswer}
    (acted : vm.act agave depth op = some (answer, next)) :
    next.registry = vm.registry ∧
      ((∃ plain, answer = .ofAnswer plain ∧ op.act agave vm.svm = some (plain, next.svm)) ∨
        Refused op answer ∧ (op.isReadonly = false → next.svm = vm.svm) ∧
          (op.isReadonly = true → ∃ plain, op.act agave vm.svm = some (plain, next.svm))) := by
  unfold RoutedVm.act at acted
  cases runs : op.runs agave vm.svm with
  | none =>
    rw [runs] at acted
    obtain ⟨⟨plain, svm⟩, plainly, equal⟩ := Option.map_eq_some_iff.1 acted
    cases equal
    exact ⟨rfl, .inl ⟨plain, rfl, plainly⟩⟩
  | some run =>
    obtain ⟨host, tx⟩ := run
    rw [runs] at acted
    cases dispatched : vm.dispatchDetached depth host tx with
    | none => simp [dispatched] at acted
    | some ended =>
      obtain ⟨ending, memory⟩ := ended
      have stopped := RoutedVm.unwound_cases runs memory
      rcases guards.dispatch_cases dispatched with rfl | rfl | ⟨error, rfl⟩
      · simp only [dispatched, RoutedVm.conclude_default runs] at acted
        obtain ⟨⟨plain, svm⟩, plainly, equal⟩ := Option.map_eq_some_iff.1 acted
        cases equal
        exact ⟨rfl, .inl ⟨plain, rfl, plainly⟩⟩
      · simp only [dispatched] at acted
        cases acted
        exact ⟨rfl, .inr ⟨.inl rfl, stopped⟩⟩
      · simp only [dispatched, RoutedVm.conclude_refused runs] at acted
        cases acted
        exact ⟨rfl, .inr ⟨.inr ⟨tx, error, rfl⟩, stopped⟩⟩

/-! ### Runs -/

theorem run_deeper {depth : Nat} {ops : List (RoutedOperation W)} {vm : RoutedVm W}
    {ended : List RoutedAnswer × RoutedVm W}
    (ran : Sharing.runAlone (act agave depth) ops vm = some ended) :
    Sharing.runAlone (act agave (depth + 1)) ops vm = some ended := by
  induction ops generalizing vm ended with
  | nil => exact ran
  | cons op rest ih =>
    obtain ⟨⟨answer, next⟩, acted, remaining⟩ := Option.bind_eq_some_iff.1 ran
    obtain ⟨⟨answers, reached⟩, later, rfl⟩ := Option.map_eq_some_iff.1 remaining
    have deeper : act agave (depth + 1) op vm = some (answer, next) := by
      cases op with
      | register tag handle => exact acted
      | operate op => exact RoutedVm.act_deeper acted
    simp [Sharing.runAlone, deeper, ih later]

end RoutedOperation

end

namespace Sample

/-- A handler that lets one transaction through, after it has tried it out. -/
def oneShotHandler : TxHandler Nat where
  validate := fun tx => .look fun _ seen =>
    if seen = 0 then
      .store 1 (.call tx fun
        | .panicked => .panic
        | .returned _ => .done (.ok ()))
    else if seen = 1 then .store 2 (.done (.ok ()))
    else .done (.error (.invalid .accountNotFound))
  execute := (defaultExecutionHandler agave Nat).execute

def oneShotVm : RoutedVm Nat :=
  ⟨vm [(0x11, systemAccount 1_000_000)] .empty, .withDefaults agave, 0⟩

def oneShotOps : List (RoutedOperation Nat) :=
  [.register .legacy oneShotHandler,
    .operate (.sendTransaction (transferTx 1 0x11 [0x22] [([0, 1], 64)])),
    .operate (.sendTransaction (transferTx 2 0x11 [0x22] [([0, 1], 64)]))]

end Sample

/-! ### The default handlers -/

variable {W : Type}

namespace TxRegistry

/-- The registry of a new VM with handlers under custom tags. -/
def withCustom (agave : Agave) (customs : List (UInt8 × TxHandler W)) : TxRegistry W :=
  customs.foldl (fun registry (tag, handle) => registry.register (.custom tag) handle)
    (withDefaults agave)

theorem handlers_withCustom {agave : Agave} (customs : List (UInt8 × TxHandler W)) (tx : VersionedTransaction) :
    (withCustom agave customs).handlers (tagOf tx) = some (defaultExecutionHandler agave W) := by
  suffices kept : ∀ registry : TxRegistry W,
      registry.handlers (tagOf tx) = some (defaultExecutionHandler agave W) →
      (customs.foldl (fun registry (tag, handle) => registry.register (.custom tag) handle)
        registry).handlers (tagOf tx) = some (defaultExecutionHandler agave W) by
    apply kept
    unfold tagOf
    cases tx.version <;> rfl
  induction customs with
  | nil => exact fun registry default => default
  | cons custom rest ih =>
    intro registry default
    refine ih _ ?_
    have envelope : tagOf tx ≠ .custom custom.1 := by
      unfold tagOf
      cases tx.version <;> simp
    exact (if_neg envelope).trans default

end TxRegistry

/-- With the default handlers a VM runs as one that executes every envelope directly, and no handler
under a custom tag is ever called. -/
theorem RoutedVm.default_handlers_are_transparent (agave : Agave) (depth : Nat)
    (customs : List (UInt8 × TxHandler W)) (svm : Svm) (memory : W) (ops : List Operation) :
    Sharing.runAlone (RoutedVm.act agave (depth + 1)) ops ⟨svm, .withCustom agave customs, memory⟩ =
      (Sharing.runAlone (Operation.act agave) ops svm).map fun (answers, svm) =>
        (answers.map .ofAnswer, ⟨svm, .withCustom agave customs, memory⟩) := by
  induction ops generalizing svm with
  | nil => rfl
  | cons op rest ih =>
    have plain : RoutedVm.act agave (depth + 1) op ⟨svm, .withCustom agave customs, memory⟩ =
        (op.act agave svm).map fun (answer, svm) =>
          (.ofAnswer answer, ⟨svm, .withCustom agave customs, memory⟩) := by
      unfold RoutedVm.act
      cases runs : op.runs agave svm with
      | none => rfl
      | some run =>
        obtain ⟨host, tx⟩ := run
        have dispatched : RoutedVm.dispatchDetached (depth + 1)
            ⟨svm, .withCustom agave customs, memory⟩ host tx =
              some (.returned (.ok (host.transactDetached agave tx)), memory) := by
          simp only [RoutedVm.dispatchDetached, TxRegistry.dispatch,
            TxRegistry.handlers_withCustom]
          rfl
        simp only [dispatched]
        exact RoutedVm.conclude_default runs memory
    simp only [Sharing.runAlone, plain]
    cases op.act agave svm with
    | none => rfl
    | some acted =>
      simp only [Option.map_some, Option.bind_some, ih, Option.map_map]
      rfl

end Hpsvm
