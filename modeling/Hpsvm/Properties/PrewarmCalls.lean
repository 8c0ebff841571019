import Hpsvm.Properties.Prewarm
import Hpsvm.SampleRuntime

/-!
# What a prewarm asks for

A prewarm asks the source at most once, for the addresses that the overlay knows nothing about, and
no read can tell that it happened. Asked again for the same addresses it only turns to those that the
source does not have.
-/

namespace Hpsvm

/-- A batch query that answers does so with what its keys give one by one. -/
def AccountSource.Agrees (source : AccountSource) : Prop :=
  ∀ pubkeys loaded, source.getAccounts pubkeys = .ok loaded →
    List.Forall₂ (fun pubkey account => source.getAccount pubkey = .ok account) pubkeys loaded

theorem AccountSource.agrees_ofGetAccount
    (getAccount : Address → Except AccountSourceError (Option AccountSharedData)) :
    (ofGetAccount getAccount).Agrees :=
  fun _ _ answered => Foundation.mapM_eq_ok_iff.1 answered

namespace AccountSource.Agrees

variable {source : AccountSource} {pubkeys : List Address}
  {loaded : List (Option AccountSharedData)}

theorem of_mem_zip (agrees : source.Agrees) (answered : source.getAccounts pubkeys = .ok loaded)
    {pubkey : Address} {account : Option AccountSharedData}
    (member : (pubkey, account) ∈ pubkeys.zip loaded) :
    source.getAccount pubkey = .ok account :=
  (List.forall₂_iff_zip.1 (agrees pubkeys loaded answered)).2 member

/-- Every key has its answer. -/
theorem exists_answer (agrees : source.Agrees) (answered : source.getAccounts pubkeys = .ok loaded)
    {pubkey : Address} (asked : pubkey ∈ pubkeys) :
    ∃ account, (pubkey, account) ∈ pubkeys.zip loaded := by
  have paired := agrees pubkeys loaded answered
  clear answered
  induction paired with
  | nil => cases asked
  | cons _ _ ih =>
    rcases List.mem_cons.1 asked with rfl | later
    · exact ⟨_, List.mem_cons_self⟩
    · obtain ⟨account, member⟩ := ih later
      exact ⟨account, List.mem_cons_of_mem _ member⟩

end AccountSource.Agrees

namespace Accounts

/-! ### The queries of a prewarm -/

/-- `prewarm` over any way to ask the source. -/
def prewarmWith {m : Type → Type} [Monad m]
    (query : List Address → m (Except AccountSourceError (List (Option AccountSharedData))))
    (db : Accounts) (addresses : List Address) : m (Except DbError Unit × Accounts) := do
  let missing := db.missingAddresses [] addresses
  if missing.isEmpty then
    return (.ok (), db)
  match ← query missing with
  | .error error => return (.error (DbError.ofAccountSource error), db)
  | .ok loaded => return (.ok (), db.insertLoaded (missing.zip loaded))

/-- Asks the source and notes the keys. -/
def loggedQuery (source : AccountSource) (pubkeys : List Address) :
    StateM (List (List Address)) (Except AccountSourceError (List (Option AccountSharedData))) := do
  modify fun calls => calls ++ [pubkeys]
  return source.getAccounts pubkeys

/-- A prewarm together with the batch queries it makes, in order. -/
def loggedPrewarm (db : Accounts) (addresses : List Address) :
    (Except DbError Unit × Accounts) × List (List Address) :=
  (db.prewarmWith (loggedQuery db.source) addresses).run []

/-- Keeping a log changes nothing about the prewarm, and there is one query unless every address is
known. -/
theorem loggedPrewarm_eq (db : Accounts) (addresses : List Address) :
    db.loggedPrewarm addresses = (db.prewarm addresses,
      if db.missingAddresses [] addresses = [] then [] else [db.missingAddresses [] addresses]) := by
  unfold loggedPrewarm prewarmWith prewarm
  cases db.missingAddresses [] addresses with
  | nil => rfl
  | cons first rest =>
    have asked : (loggedQuery db.source (first :: rest)).run [] =
        (db.source.getAccounts (first :: rest), [first :: rest]) := rfl
    cases answer : db.source.getAccounts (first :: rest) with
    | error error =>
      simp only [List.isEmpty_cons, Bool.false_eq_true, if_false, StateT.run_bind, asked, answer]
      rfl
    | ok loaded =>
      simp only [List.isEmpty_cons, Bool.false_eq_true, if_false, StateT.run_bind, asked, answer]
      rfl

/-! ### The addresses it asks for -/

theorem nodup_missingAddresses {db : Accounts} {seen addresses : List Address}
    (distinct : seen.Nodup) : (db.missingAddresses seen addresses).Nodup := by
  induction addresses generalizing seen with
  | nil => exact distinct
  | cons first rest ih =>
    rcases db.missingAddresses_cons seen rest first with ⟨_, unseen, equal⟩ | ⟨_, equal⟩
    · rw [equal]
      exact ih (List.nodup_append.2 ⟨distinct, List.nodup_singleton _, by
        rintro _ before _ here rfl
        exact unseen (List.mem_singleton.1 here ▸ before)⟩)
    · rw [equal]
      exact ih distinct

/-! ### What it inserts -/

/-- The overlay of `warm` has accounts more, where that of `cold` falls through to the source. -/
structure FilledFrom (cold warm : Accounts) : Prop where
  source : warm.source = cold.source
  removed : warm.cache.removed = cold.cache.removed
  inner : ∀ pubkey : Address, warm.cache.inner[pubkey]? = cold.cache.inner[pubkey]? ∨
    cold.Unknown pubkey ∧
      cold.source.getAccount pubkey = .ok warm.cache.inner[pubkey]?

namespace FilledFrom

variable {cold warm : Accounts}

theorem refl (db : Accounts) : FilledFrom db db := ⟨rfl, rfl, fun _ => .inl rfl⟩

theorem tryGetAccount_eq (filled : FilledFrom cold warm) (pubkey : Address) :
    warm.tryGetAccount pubkey = cold.tryGetAccount pubkey := by
  rcases filled.inner pubkey with same | ⟨⟨absent, present⟩, read⟩
  · exact tryGetAccount_congr filled.source same (by rw [filled.removed])
  · simp only [tryGetAccount, getAccountRef, absent, if_neg present, filled.source, filled.removed]
    cases found : warm.cache.inner[pubkey]? with
    | none => rfl
    | some account => rw [read, found]

theorem insert (filled : FilledFrom cold warm) {pubkey : Address} {account : AccountSharedData}
    (unknown : cold.Unknown pubkey) (read : cold.source.getAccount pubkey = .ok (some account)) :
    FilledFrom cold (warm.addAccountNoChecks pubkey account) := by
  refine ⟨filled.source, ?_, ?_⟩
  · change warm.cache.removed.erase pubkey = cold.cache.removed
    rw [filled.removed]
    exact Finset.erase_eq_of_notMem unknown.2
  · intro other
    simp only [addAccountNoChecks, CacheDb.put_inner, AddressMap.getElem?_insert]
    split
    next same => exact .inr ⟨same ▸ unknown, same ▸ read⟩
    · exact filled.inner other

end FilledFrom

/-- An overlay that holds an account goes on to hold one. -/
theorem isSome_insertLoaded {db : Accounts} {loaded : List (Address × Option AccountSharedData)}
    {pubkey : Address} (held : db.cache.inner[pubkey]?.isSome) :
    (db.insertLoaded loaded).cache.inner[pubkey]?.isSome := by
  refine @insertLoaded_induct (fun db => db.cache.inner[pubkey]?.isSome) db loaded ?_ held
  intro current other account _ held
  simp only [addAccountNoChecks, CacheDb.put_inner, AddressMap.getElem?_insert]
  split
  · rfl
  · exact held

theorem isSome_of_mem_loaded {db : Accounts} {loaded : List (Address × Option AccountSharedData)}
    {pubkey : Address} {account : AccountSharedData} (member : (pubkey, some account) ∈ loaded) :
    (db.insertLoaded loaded).cache.inner[pubkey]?.isSome := by
  induction loaded generalizing db with
  | nil => cases member
  | cons pair rest ih =>
    rcases List.mem_cons.1 member with rfl | later
    · have written : (db.addAccountNoChecks pubkey account).cache.inner[pubkey]?.isSome := by
        simp [addAccountNoChecks]
      rw [insertLoaded]
      exact isSome_insertLoaded written
    · obtain ⟨other, answer⟩ := pair
      cases answer with
      | none => exact ih later
      | some existing => exact ih later

theorem insertLoaded_of_none {db : Accounts} {loaded : List (Address × Option AccountSharedData)}
    (absent : ∀ pair ∈ loaded, pair.2 = none) : db.insertLoaded loaded = db := by
  induction loaded with
  | nil => rfl
  | cons pair rest ih =>
    obtain ⟨address, answer⟩ := pair
    obtain rfl : answer = none := absent _ List.mem_cons_self
    exact ih fun other member => absent other (List.mem_cons_of_mem _ member)

/-! ### One prewarm and the next -/

variable {db db' : Accounts} {addresses : List Address}

theorem filledFrom_prewarm (agrees : db.source.Agrees)
    (done : db.prewarm addresses = (.ok (), db')) : FilledFrom db db' := by
  have filled : FilledFrom db (db.prewarm addresses).2 := by
    refine prewarm_induct ?_ (.refl db)
    intro current pubkey account answered filled
    have unknown := answered.unknown.2
    obtain ⟨loaded, read, member⟩ := answered
    exact filled.insert unknown (agrees.of_mem_zip read member)
  rwa [done] at filled

/-- What is still missing after a prewarm is missing at the source. -/
theorem getAccount_of_still_missing (agrees : db.source.Agrees)
    (done : db.prewarm addresses = (.ok (), db')) {address : Address}
    (missing : address ∈ db'.missingAddresses [] addresses) :
    db.source.getAccount address = .ok none := by
  obtain ⟨listed, absent, present⟩ := mem_missingAddresses.1 missing
  have filled := filledFrom_prewarm agrees done
  -- A prewarm only adds to the overlay, so what it does not know now it did not know before.
  have unknown : db.Unknown address := by
    rw [filled.removed] at present
    refine ⟨?_, present⟩
    rcases filled.inner address with same | ⟨unknown, _⟩
    · rw [← same, absent]
    · exact unknown.1
  have asked : address ∈ db.missingAddresses [] addresses :=
    mem_missingAddresses.2 ⟨listed, unknown⟩
  rcases db.prewarm_cases addresses with ⟨none, _⟩ | ⟨_, _, equal⟩ | ⟨loaded, answered, equal⟩
  · rw [none] at asked
    cases asked
  · cases done.symm.trans equal
  · cases done.symm.trans equal
    obtain ⟨answer, member⟩ := agrees.exists_answer answered asked
    cases answer with
    | none => exact agrees.of_mem_zip answered member
    | some account =>
      -- An account that the source has would have been inserted.
      have held : (db.insertLoaded _).cache.inner[address]?.isSome := isSome_of_mem_loaded member
      rw [absent] at held
      cases held

/-- A second prewarm of the same addresses leaves everything as it is. -/
theorem prewarm_again (agrees : db.source.Agrees) (done : db.prewarm addresses = (.ok (), db')) :
    (db'.prewarm addresses).2 = db' := by
  have source := (filledFrom_prewarm agrees done).source
  rcases db'.prewarm_cases addresses with ⟨_, equal⟩ | ⟨_, _, equal⟩ | ⟨loaded, answered, equal⟩
  · rw [equal]
  · rw [equal]
  · rw [equal]
    refine insertLoaded_of_none ?_
    rintro ⟨address, answer⟩ member
    have unknown := getAccount_of_still_missing agrees done (List.of_mem_zip member).1
    rw [source] at answered
    rw [agrees.of_mem_zip answered member] at unknown
    exact Except.ok.inj unknown

/-- Prewarming is transparent: no read changes and no tombstone appears, the source is asked at most
once, for the distinct addresses that the overlay does not know, and a second prewarm asks for none
that the source knows and changes nothing. A prewarm that fails leaves the database as it is. -/
theorem prewarm_transparent (db : Accounts) (addresses : List Address)
    (agrees : db.source.Agrees) :
    (∃ missing, missing.Nodup ∧
      (∀ address, address ∈ missing ↔ address ∈ addresses ∧
        db.cache.inner[address]? = none ∧ address ∉ db.cache.removed) ∧
      db.loggedPrewarm addresses =
        (db.prewarm addresses, if missing = [] then [] else [missing])) ∧
    (∀ db', db.prewarm addresses = (.ok (), db') →
      (∀ pubkey, db'.tryGetAccount pubkey = db.tryGetAccount pubkey) ∧
      db'.cache.removed = db.cache.removed ∧
      (∀ call ∈ (db'.loggedPrewarm addresses).2, ∀ address ∈ call,
        db.source.getAccount address = .ok none) ∧
      (db'.prewarm addresses).2 = db') ∧
    ∀ error db', db.prewarm addresses = (.error error, db') → db' = db := by
  refine ⟨⟨db.missingAddresses [] addresses, nodup_missingAddresses List.nodup_nil, ?_, ?_⟩, ?_, ?_⟩
  · exact fun address => mem_missingAddresses
  · exact db.loggedPrewarm_eq addresses
  · intro db' done
    have filled := filledFrom_prewarm agrees done
    refine ⟨filled.tryGetAccount_eq, filled.removed, ?_, prewarm_again agrees done⟩
    intro call called address asked
    rw [loggedPrewarm_eq] at called
    split at called
    · cases called
    · rw [List.mem_singleton.1 called] at asked
      exact getAccount_of_still_missing agrees done asked
  · intro error db' failed
    rcases db.prewarm_cases addresses with ⟨_, equal⟩ | ⟨_, _, equal⟩ | ⟨_, _, equal⟩
    · cases failed.symm.trans equal
    · cases failed.symm.trans equal
      rfl
    · cases failed.symm.trans equal

end Accounts

namespace Sample

/-- An overlay with an account at 0x11 and a tombstone at 0x22, over a source with one at 0x33. -/
def coldAccounts : Accounts :=
  { accounts [(0x11, systemAccount 5)] (.ofGetAccount fun address =>
      .ok (if address = 0x33 then some (systemAccount 7) else none)) with
    cache := ⟨overlay [(0x11, systemAccount 5)], {0x22}⟩ }

/-- Of the addresses that are asked for, only 0x33 and 0x44 are not known yet. -/
theorem repeated_prewarm_transparent :
    ((coldAccounts.loggedPrewarm [0x33, 0x11, 0x22, 0x33, 0x44]).1.1.isOk &&
      (coldAccounts.loggedPrewarm [0x33, 0x11, 0x22, 0x33, 0x44]).2 == [[0x33, 0x44]]) = true ∧
    ∃ warm, coldAccounts.prewarm [0x33, 0x11, 0x22, 0x33, 0x44] = (.ok (), warm) ∧
      ∀ pubkey, warm.tryGetAccount pubkey = coldAccounts.tryGetAccount pubkey := by
  refine ⟨by decide +kernel, _, rfl, ?_⟩
  exact ((Accounts.prewarm_transparent coldAccounts [0x33, 0x11, 0x22, 0x33, 0x44]
    (AccountSource.agrees_ofGetAccount _)).2.1 _ rfl).1

end Sample

end Hpsvm
