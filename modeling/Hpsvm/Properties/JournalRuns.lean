import Hpsvm.AccountsDb.Prewarming
import Hpsvm.Foundation.Runs
import Hpsvm.SampleRuntime
import Mathlib.Logic.Relation

/-!
# Checkpoints and rollbacks

A checkpoint is the length of the journal. Callers take checkpoints, write accounts and roll back
in any order; a checkpoint stays good until a rollback goes below it. Rolling back to a good
checkpoint restores the overlay, the tombstones and the journal, because every write since is
journaled and undone newest first.
-/

namespace Hpsvm

open Foundation (Runs.run Runs.Along Runs.invariant_of_along UndoLog.Since)

/-- No address is both written and removed. -/
def CacheDb.Separate (cache : CacheDb) : Prop :=
  ∀ address : Address, cache.inner[address]? ≠ none → address ∉ cache.removed

/-- The entry of an address that was not both written and removed. -/
def JournalEntry.Consistent (entry : JournalEntry) : Prop :=
  entry.previous ≠ none → entry.wasRemoved = false

namespace CacheDb

theorem Separate.journalEntry {cache : CacheDb} (separate : cache.Separate) (pubkey : Address) :
    (cache.journalEntry pubkey).Consistent := by
  intro found
  exact decide_eq_false (separate pubkey found)

theorem Separate.put {cache : CacheDb} (separate : cache.Separate) (pubkey : Address)
    (account : AccountSharedData) : (cache.put pubkey account).Separate := by
  intro address found
  by_cases same : pubkey = address
  · subst same
    simp [CacheDb.put]
  · simp only [put_inner, AddressMap.getElem?_insert, if_neg same] at found
    simp [CacheDb.put, separate address found]

theorem Separate.drop {cache : CacheDb} (separate : cache.Separate) (pubkey : Address) :
    (cache.drop pubkey).Separate := by
  intro address found
  by_cases same : pubkey = address
  · subst same
    simp [CacheDb.drop] at found
  · simp only [drop_inner, AddressMap.getElem?_erase, if_neg same] at found
    simp [CacheDb.drop, separate address found, Ne.symm same]

/-- Undoing a consistent entry keeps the overlay and the tombstones apart. -/
theorem Separate.undo {cache : CacheDb} (separate : cache.Separate) {entry : JournalEntry}
    (consistent : entry.Consistent) : (entry.undo cache).Separate := by
  obtain ⟨pubkey, previous, wasRemoved⟩ := entry
  intro address found
  by_cases same : pubkey = address
  · subst same
    cases previous with
    | none => simp [JournalEntry.undo] at found
    | some account =>
      have kept : wasRemoved = false := consistent (by simp)
      simp [JournalEntry.undo, kept]
  · have before : cache.inner[address]? ≠ none := by
      cases previous with
      | none => simpa [JournalEntry.undo, same] using found
      | some account => simpa [JournalEntry.undo, same] using found
    cases wasRemoved with
    | true => simp [JournalEntry.undo, separate address before, Ne.symm same]
    | false => simp [JournalEntry.undo, separate address before]

end CacheDb

namespace Accounts

variable (agave : Agave)

/-! ### Journaled writes -/

/-- The address was written or removed, and its entry pushed to the journal. -/
structure Rewrote (db : Accounts) (pubkey : Address) (db' : Accounts) : Prop where
  journal : db'.journal = db.cache.journalEntry pubkey :: db.journal
  cache : (∃ account, db'.cache = db.cache.put pubkey account) ∨ db'.cache = db.cache.drop pubkey

theorem Rewrote.journaled {db db' : Accounts} {pubkey : Address}
    (rewrote : Rewrote db pubkey db') : Journaled db db' := by
  unfold Journaled
  rw [rewrote.journal]
  apply Foundation.UndoLog.Extends.record
  rcases rewrote.cache with ⟨account, equal⟩ | equal
  · rw [equal, CacheDb.undo_put]
    exact .refl
  · rw [equal, CacheDb.undo_drop]
    exact .refl

/-- Any number of journaled writes. -/
def Written : Accounts → Accounts → Prop :=
  Relation.ReflTransGen fun db db' => ∃ pubkey, Rewrote db pubkey db'

theorem Written.journaled {db db' : Accounts} (written : Written db db') : Journaled db db' := by
  induction written with
  | refl => exact .refl db
  | tail _ last ih =>
    obtain ⟨pubkey, rewrote⟩ := last
    exact ih.trans rewrote.journaled

theorem written_addAccountNoChecks (db : Accounts) (pubkey : Address)
    (account : AccountSharedData) : Written db (db.addAccountNoChecks pubkey account) :=
  .single ⟨pubkey, rfl, .inl ⟨account, rfl⟩⟩

theorem written_addAccount (db : Accounts) (pubkey : Address) (account : AccountSharedData) :
    Written db (db.addAccount agave pubkey account).2 := by
  rcases db.addAccount_unchanged_or_wrote agave pubkey account with ⟨error, refused⟩ | wrote
  · rw [refused]
    exact .refl
  · refine .single ⟨pubkey, wrote.journal, ?_⟩
    -- An account without lamports is removed.
    by_cases empty : account.lamports = 0
    · exact .inr (wrote.cache.trans (if_pos empty))
    · exact .inl ⟨account, wrote.cache.trans (if_neg empty)⟩

theorem written_removeAccount (db : Accounts) (pubkey : Address) :
    Written db (db.removeAccount agave pubkey) := by
  refine .single ⟨pubkey, ?_, .inr ?_⟩
  · simp [removeAccount, recordJournal]
  · simp [removeAccount]

theorem written_prewarm (db : Accounts) (addresses : List Address) :
    Written db (db.prewarm addresses).2 := by
  refine prewarm_induct ?_ .refl
  intro current address account _ before
  exact before.trans (current.written_addAccountNoChecks address account)

/-- The overlay and the tombstones are apart, and every entry on top of a journal restores that. -/
structure Sound (base : List JournalEntry) (db : Accounts) : Prop where
  separate : db.cache.Separate
  entries : UndoLog.Since JournalEntry.Consistent base db.journal

theorem Sound.rewrote {base : List JournalEntry} {db db' : Accounts} {pubkey : Address}
    (sound : Sound base db) (rewrote : Rewrote db pubkey db') : Sound base db' := by
  refine ⟨?_, ?_⟩
  · rcases rewrote.cache with ⟨account, equal⟩ | equal
    · rw [equal]
      exact sound.separate.put pubkey account
    · rw [equal]
      exact sound.separate.drop pubkey
  · rw [rewrote.journal]
    exact sound.entries.record (sound.separate.journalEntry pubkey)

theorem Sound.written {base : List JournalEntry} {db db' : Accounts} (sound : Sound base db)
    (written : Written db db') : Sound base db' := by
  induction written with
  | refl => exact sound
  | tail _ last ih =>
    obtain ⟨pubkey, rewrote⟩ := last
    exact ih.rewrote rewrote

theorem Sound.rollback {base : List JournalEntry} {db : Accounts} (sound : Sound base db)
    {checkpoint : Nat} (above : base.length ≤ checkpoint) : Sound base (db.rollback checkpoint) := by
  have kept := sound.entries.unwind above sound.separate
    (fun entry cache consistent separate => CacheDb.Separate.undo separate consistent)
  exact ⟨kept.2, kept.1⟩

end Accounts

/-! ### Interleavings -/

/-- The operations on the overlay and its journal. A rollback names a checkpoint by how many were
taken after it. -/
inductive JournalOp
  | addAccount (pubkey : Address) (account : AccountSharedData)
  | addAccountNoChecks (pubkey : Address) (account : AccountSharedData)
  | addBuiltinAccount (address : Address) (data : AccountSharedData)
  | removeAccount (pubkey : Address)
  | prewarm (addresses : List Address)
  | checkpoint
  | rollback (index : Nat)

/-- A database and the checkpoints its callers hold, newest first. -/
structure JournalSession where
  db : Accounts
  checkpoints : List Nat

namespace JournalSession

variable (agave : Agave)

def takeCheckpoint (session : JournalSession) : JournalSession :=
  { session with checkpoints := session.db.checkpoint :: session.checkpoints }

/-- One operation; `none` is a rollback to a checkpoint nobody took. -/
def step : JournalOp → JournalSession → Option JournalSession
  | .addAccount pubkey account, session =>
    some { session with db := (session.db.addAccount agave pubkey account).2 }
  | .addAccountNoChecks pubkey account, session =>
    some { session with db := session.db.addAccountNoChecks pubkey account }
  | .addBuiltinAccount address data, session =>
    some { session with db := session.db.addBuiltinAccount address data }
  | .removeAccount pubkey, session =>
    some { session with db := session.db.removeAccount agave pubkey }
  | .prewarm addresses, session => some { session with db := (session.db.prewarm addresses).2 }
  | .checkpoint, session => some session.takeCheckpoint
  | .rollback index, session =>
    session.checkpoints[index]?.map fun checkpoint =>
      { session with db := session.db.rollback checkpoint }

/-- The operation is not a rollback below the checkpoint. -/
def StaysAbove (checkpoint : Nat) : JournalOp → JournalSession → Prop
  | .rollback index, session => ∀ target, session.checkpoints[index]? = some target →
      checkpoint ≤ target
  | _, _ => True

/-- Everything one operation can do. -/
theorem step_cases {op : JournalOp} {session next : JournalSession}
    (taken : step agave op session = some next) :
    (next.checkpoints = session.checkpoints ∧ Accounts.Written session.db next.db) ∨
    next = session.takeCheckpoint ∨
    ∃ index target, op = .rollback index ∧ session.checkpoints[index]? = some target ∧
      next = { session with db := session.db.rollback target } := by
  cases op with
  | addAccount pubkey account =>
    cases taken
    exact .inl ⟨rfl, session.db.written_addAccount agave pubkey account⟩
  | addAccountNoChecks pubkey account =>
    cases taken
    exact .inl ⟨rfl, session.db.written_addAccountNoChecks pubkey account⟩
  | addBuiltinAccount address data =>
    cases taken
    exact .inl ⟨rfl, session.db.written_addAccountNoChecks address data⟩
  | removeAccount pubkey =>
    cases taken
    exact .inl ⟨rfl, session.db.written_removeAccount agave pubkey⟩
  | prewarm addresses =>
    cases taken
    exact .inl ⟨rfl, session.db.written_prewarm addresses⟩
  | checkpoint =>
    cases taken
    exact .inr (.inl rfl)
  | rollback index =>
    obtain ⟨target, found, equal⟩ := Option.map_eq_some_iff.1 taken
    exact .inr (.inr ⟨index, target, rfl, found, equal.symm⟩)

/-- Since a checkpoint was taken that no rollback went below, all writes are journaled. -/
theorem journaled_of_step {saved : Accounts} {op : JournalOp} {session next : JournalSession}
    (journaled : Accounts.Journaled saved session.db)
    (above : StaysAbove saved.checkpoint op session) (taken : step agave op session = some next) :
    Accounts.Journaled saved next.db := by
  rcases step_cases agave taken with ⟨-, written⟩ | rfl | ⟨index, target, named, found, rfl⟩
  · exact journaled.trans written.journaled
  · exact journaled
  · subst named
    exact Foundation.UndoLog.Extends.unwind journaled (above target found)

/-- No operation puts an address on both sides. The callers' checkpoints all lie on top of the
journal the run started with, whose entries are never undone. -/
structure Tidy (base : List JournalEntry) (session : JournalSession) : Prop where
  sound : Accounts.Sound base session.db
  checkpoints : ∀ checkpoint ∈ session.checkpoints, base.length ≤ checkpoint

theorem Tidy.step {base : List JournalEntry} {op : JournalOp} {session next : JournalSession}
    (tidy : Tidy base session) (taken : step agave op session = some next) : Tidy base next := by
  rcases step_cases agave taken with ⟨same, written⟩ | rfl | ⟨index, target, -, found, rfl⟩
  · refine ⟨tidy.sound.written written, ?_⟩
    rw [same]
    exact tidy.checkpoints
  · refine ⟨tidy.sound, ?_⟩
    intro checkpoint member
    rcases List.mem_cons.1 member with rfl | earlier
    · exact tidy.sound.entries.length_le
    · exact tidy.checkpoints checkpoint earlier
  · refine ⟨tidy.sound.rollback ?_, tidy.checkpoints⟩
    exact tidy.checkpoints target (List.mem_of_getElem? found)

theorem along_true (ops : List JournalOp) (session : JournalSession) :
    Runs.Along (step agave) (fun _ _ => True) ops session := by
  induction ops generalizing session with
  | nil => trivial
  | cons op rest ih => exact ⟨trivial, fun next _ => ih next⟩

theorem Tidy.run {base : List JournalEntry} {ops : List JournalOp}
    {session reached : JournalSession} (tidy : Tidy base session)
    (ran : Runs.run (JournalSession.step agave) ops session = some reached) : Tidy base reached :=
  Runs.invariant_of_along (Tidy base) (fun _ _ _ tidy _ taken => tidy.step agave taken) tidy
    (along_true agave ops session) (List.append_nil ops).symm ran

/-- Rolling back from `current` to the checkpoint of `saved` is exact. -/
structure RollsBack (saved current : Accounts) : Prop where
  inner : (current.rollback saved.checkpoint).cache.inner = saved.cache.inner
  removed : (current.rollback saved.checkpoint).cache.removed = saved.cache.removed
  journal : (current.rollback saved.checkpoint).journal = saved.journal
  repeated : (current.rollback saved.checkpoint).rollback saved.checkpoint =
    current.rollback saved.checkpoint

theorem rollsBack_of_journaled {saved current : Accounts}
    (journaled : Accounts.Journaled saved current) : RollsBack saved current := by
  have restored := Accounts.rollback_checkpoint journaled
  refine ⟨?_, ?_, ?_, ?_⟩
  · rw [restored]
  · rw [restored]
  · rw [restored]
  · simp only [Accounts.rollback, Foundation.UndoLog.unwind_unwind]

/-- In every interleaving, rolling back to a checkpoint that no rollback went below since is exact,
and no address is ever both written and removed. -/
theorem rollback_exact (start : Accounts) {before between : List JournalOp}
    {saved current : JournalSession}
    (reached : Runs.run (step agave) before ⟨start, []⟩ = some saved)
    (went : Runs.run (step agave) between saved.takeCheckpoint = some current)
    (good : Runs.Along (step agave) (StaysAbove saved.db.checkpoint) between
      saved.takeCheckpoint) :
    RollsBack saved.db current.db ∧
      (start.cache.Separate → saved.db.cache.Separate ∧ current.db.cache.Separate) := by
  refine ⟨?_, ?_⟩
  · apply rollsBack_of_journaled
    exact Runs.invariant_of_along (fun session => Accounts.Journaled saved.db session.db)
      (fun _ _ _ journaled above taken => journaled_of_step agave journaled above taken)
      (Accounts.Journaled.refl saved.db) good (List.append_nil between).symm went
  · intro separate
    have initial : Tidy start.journal ⟨start, []⟩ :=
      ⟨⟨separate, .refl start.journal⟩, by simp⟩
    have first := initial.run agave reached
    have taken : step agave .checkpoint saved = some saved.takeCheckpoint := rfl
    have second := (first.step agave taken).run agave went
    exact ⟨first.sound.separate, second.sound.separate⟩

end JournalSession

namespace Sample

def fundedSession : JournalSession :=
  ⟨((accounts [] .empty).addAccount agave 0xa (systemAccount 5)).2, []⟩

/-- A nested checkpoint that is rolled back to, and writes before and after. -/
def nestedOps : List JournalOp :=
  [.addAccount 0xb (systemAccount 7), .checkpoint, .removeAccount 0xa, .rollback 0,
    .addAccountNoChecks 0xa (systemAccount 9)]

theorem nestedOps_stay_above : Runs.Along (JournalSession.step agave)
    (JournalSession.StaysAbove fundedSession.db.checkpoint) nestedOps
    fundedSession.takeCheckpoint := by
  refine ⟨trivial, fun _ added => ⟨trivial, fun _ marked => ⟨trivial, fun _ removed => ⟨?_, ?_⟩⟩⟩⟩
  · -- The nested checkpoint was taken after one more write.
    intro target found
    cases added
    cases marked
    cases removed
    have one : (fundedSession.db.addAccount agave 0xb (systemAccount 7)).2.checkpoint = target :=
      Option.some.inj found
    rw [← one]
    decide
  · intro _ _
    exact ⟨trivial, fun _ _ => trivial⟩

theorem nested_rollback_exact : ∃ current,
    Runs.run (JournalSession.step agave) nestedOps fundedSession.takeCheckpoint = some current ∧
      JournalSession.RollsBack fundedSession.db current.db := by
  have reached : Runs.run (JournalSession.step agave) [.addAccount 0xa (systemAccount 5)]
      ⟨accounts [] .empty, []⟩ = some fundedSession := rfl
  cases went : Runs.run (JournalSession.step agave) nestedOps fundedSession.takeCheckpoint with
  | none => cases went
  | some current =>
    exact ⟨current, rfl, (JournalSession.rollback_exact agave _ reached went
      nestedOps_stay_above).1⟩

end Sample

end Hpsvm
