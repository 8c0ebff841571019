import Mathlib.Order.Nat

/-! Undo logs: entries recorded before each mutation, newest first, and the unwinding of a
log to an earlier length. -/

namespace Foundation.UndoLog

variable {ε σ : Type*} (undo : ε → σ → σ)

/-- Pops entries and undoes them while the log is longer than `mark`. -/
def unwind (mark : Nat) : List ε → σ → List ε × σ
  | [], state => ([], state)
  | entry :: log, state =>
    if mark ≤ log.length then unwind mark log (undo entry state) else (entry :: log, state)

/-- The log `log'` adds entries to `log`, and undoing them newest first leads from the
state `state'` back to `state`. -/
inductive Extends (log : List ε) (state : σ) : List ε → σ → Prop
  | refl : Extends log state log state
  | record {log' : List ε} {entry : ε} {next : σ} :
      Extends log state log' (undo entry next) → Extends log state (entry :: log') next

variable {undo}

theorem Extends.length_le {log log' : List ε} {state state' : σ}
    (extension : Extends undo log state log' state') : log.length ≤ log'.length := by
  induction extension with
  | refl => exact le_rfl
  | record _ ih => exact ih.trans (Nat.le_succ _)

theorem Extends.trans {log log' log'' : List ε} {state state' state'' : σ}
    (first : Extends undo log state log' state')
    (second : Extends undo log' state' log'' state'') : Extends undo log state log'' state'' := by
  induction second with
  | refl => exact first
  | record _ ih => exact .record ih

/-- Unwinding a log that is not longer than the mark changes nothing. -/
theorem unwind_of_length_le {mark : Nat} {log : List ε} (state : σ) (short : log.length ≤ mark) :
    unwind undo mark log state = (log, state) := by
  cases log with
  | nil => rfl
  | cons entry log =>
    have kept : ¬ mark ≤ log.length := by simp only [List.length_cons] at short; omega
    simp only [unwind, if_neg kept]

/-- Unwinding to the length a log had restores both the log and the state it had. -/
theorem Extends.unwind_eq {log log' : List ε} {state state' : σ}
    (extension : Extends undo log state log' state') :
    unwind undo log.length log' state' = (log, state) := by
  induction extension with
  | refl => exact unwind_of_length_le _ le_rfl
  | record inner ih => simp only [unwind, if_pos inner.length_le, ih]

theorem length_unwind_le (mark : Nat) (log : List ε) (state : σ) :
    (unwind undo mark log state).1.length ≤ mark := by
  induction log generalizing state with
  | nil => exact Nat.zero_le mark
  | cons entry log ih =>
    by_cases above : mark ≤ log.length
    · simp only [unwind, if_pos above]
      exact ih (undo entry state)
    · simp only [unwind, if_neg above, List.length_cons]
      omega

/-- Unwinding twice to the same length is unwinding once. -/
theorem unwind_unwind (mark : Nat) (log : List ε) (state : σ) :
    unwind undo mark (unwind undo mark log state).1 (unwind undo mark log state).2 =
      unwind undo mark log state :=
  unwind_of_length_le _ (length_unwind_le mark log state)

/-- Unwinding, but not below the length a log had, leaves an extension of that log. -/
theorem Extends.unwind {log log' : List ε} {state state' : σ}
    (extension : Extends undo log state log' state') {mark : Nat} (above : log.length ≤ mark) :
    Extends undo log state (unwind undo mark log' state').1 (unwind undo mark log' state').2 := by
  induction extension with
  | refl =>
    rw [unwind_of_length_le _ above]
    exact .refl
  | @record log' entry next inner ih =>
    by_cases popped : mark ≤ log'.length
    · simpa only [UndoLog.unwind, if_pos popped] using ih
    · simp only [UndoLog.unwind, if_neg popped]
      exact .record inner

/-- The entries of a log on top of `base` all meet a condition. -/
def Since (sound : ε → Prop) (base log : List ε) : Prop :=
  ∃ added, log = added ++ base ∧ ∀ entry ∈ added, sound entry

theorem Since.refl {sound : ε → Prop} (base : List ε) : Since sound base base :=
  ⟨[], rfl, by simp⟩

theorem Since.record {sound : ε → Prop} {base log : List ε} (since : Since sound base log)
    {entry : ε} (holds : sound entry) : Since sound base (entry :: log) := by
  obtain ⟨added, rfl, all⟩ := since
  refine ⟨entry :: added, rfl, ?_⟩
  intro other member
  rcases List.mem_cons.1 member with rfl | earlier
  · exact holds
  · exact all other earlier

theorem Since.length_le {sound : ε → Prop} {base log : List ε} (since : Since sound base log) :
    base.length ≤ log.length := by
  obtain ⟨added, rfl, -⟩ := since
  simp only [List.length_append]
  omega

/-- What undoing a sound entry keeps, unwinding keeps that does not reach below `base`. -/
theorem Since.unwind {sound : ε → Prop} {holds : σ → Prop} {base log : List ε} {state : σ}
    {mark : Nat} (since : Since sound base log) (above : base.length ≤ mark) (start : holds state)
    (keeps : ∀ entry state, sound entry → holds state → holds (undo entry state)) :
    Since sound base (unwind undo mark log state).1 ∧ holds (unwind undo mark log state).2 := by
  obtain ⟨added, rfl, all⟩ := since
  induction added generalizing state with
  | nil =>
    rw [List.nil_append, unwind_of_length_le _ above]
    exact ⟨.refl base, start⟩
  | cons entry added ih =>
    by_cases popped : mark ≤ (added ++ base).length
    · simp only [List.cons_append, UndoLog.unwind, if_pos popped]
      apply ih
      · exact keeps entry state (all entry List.mem_cons_self) start
      · exact fun other member => all other (List.mem_cons_of_mem _ member)
    · simp only [List.cons_append, UndoLog.unwind, if_neg popped]
      exact ⟨⟨entry :: added, rfl, all⟩, start⟩

end Foundation.UndoLog
