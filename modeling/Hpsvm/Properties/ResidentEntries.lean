import Hpsvm.Foundation.Runs
import Hpsvm.Foundation.WeakMemo
import Hpsvm.Residency
import Hpsvm.SampleRuntime

/-!
# Which environment a resident entry belongs to

An entry of the store is found under the address of the environment it was built under. As long as
that environment lives, no other one has the address. Once it is freed, a new environment may be
given the address, and then finds the entries of the old one. So the store answers every VM with
entries of its own environment exactly if no environment is allocated where the store still has
entries.
-/

namespace Hpsvm

open Foundation

variable {Digest : Type}

namespace Process

variable (host : Host Digest)

/-- The entry that a load under the environment, for the loader and from the bytes, builds. -/
def entryOf (arc : EnvArc) (loader : Address) (elf : List UInt8) : ResidentEntry :=
  ⟨arc.env, loader, elf⟩

variable [DecidableEq Digest] in
/-- Whatever a VM loads next, by either path, it is answered with an entry of its own environment,
for the loader and from the bytes it asked for. -/
def Faithful (process : Process Digest) : Prop :=
  ∀ vm arc loader, process.find vm = some arc →
    (∀ elf entry, (process.loadResident host arc loader elf).1 = some entry →
      entry = entryOf arc loader elf) ∧
    ∀ slot source entry, (process.resolveProgramEntry host arc loader slot source).1 = some entry →
      entry = entryOf arc loader (sourceBytes host source)

/-- The environment at an address. -/
def Holds (process : Process Digest) (address : Nat) (env : EnvObject) : Prop :=
  ⟨address, env⟩ ∈ process.handles

/-- Both caches hold loadable entries under the keys they are built with. Environments that live are
apart, and numbered like those of the entries. -/
structure WellFormed (process : Process Digest) : Prop where
  keyed : ∀ key entry, (key, entry) ∈ process.store.entries →
    key = contentKey host key.env entry.elf entry.loader
  loadable : ∀ key entry, (key, entry) ∈ process.store.entries →
    host.agave.loadElf entry.env.content entry.loader entry.elf = .ok ()
  numbered : ∀ key entry, (key, entry) ∈ process.store.entries →
    entry.env.serial < process.nextSerial
  counted : ∀ address env, process.Holds address env → env.serial < process.nextSerial
  apart : ∀ address env env', process.Holds address env → process.Holds address env' → env = env'

/-- The caches agree with the environments that live. -/
structure Consistent (process : Process Digest) : Prop extends process.WellFormed host where
  sound : WeakMemo.Sound ProgramEntryKey.env ResidentEntry.env process.Holds process.store.entries
  memo : ∀ key entry, (key, entry) ∈ process.defaultPrograms → ∃ shared,
    process.defaultEnv = some shared ∧ key.env = shared.address ∧
      entry = entryOf shared key.loader (host.staticBytes key.elfPtr key.elfLen)

variable {host}

/-! ### Environments -/

theorem holds_of_find {process : Process Digest} {vm : Nat} {arc : EnvArc}
    (found : process.find vm = some arc) : process.Holds arc.address arc.env := by
  have member : (vm, arc) ∈ process.vms := by
    obtain ⟨before, after, split, -⟩ := List.lookup_eq_some_iff.1 found
    rw [split]
    simp
  exact List.mem_append_right _ (List.mem_map_of_mem member)

theorem holds_drop {process : Process Digest} {vm address : Nat} {env : EnvObject}
    (held : (process.drop vm).Holds address env) : process.Holds address env := by
  rcases List.mem_append.1 held with shared | other
  · exact List.mem_append_left _ shared
  · obtain ⟨pair, kept, equal⟩ := List.mem_map.1 other
    exact List.mem_append_right _ (List.mem_map.2 ⟨pair, List.mem_of_mem_filter kept, equal⟩)

theorem holds_setEnv {process : Process Digest} {vm address : Nat} {arc : EnvArc} {env : EnvObject}
    (held : (process.setEnv vm arc).Holds address env) :
    process.Holds address env ∨ (address = arc.address ∧ env = arc.env) := by
  rcases List.mem_append.1 held with shared | other
  · exact .inl (List.mem_append_left _ shared)
  · rw [setEnv, List.map_cons, List.mem_cons] at other
    rcases other with same | old
    · cases same
      exact .inr ⟨rfl, rfl⟩
    · exact .inl (holds_drop (List.mem_append_right _ old))

theorem find_setEnv (process : Process Digest) (vm : Nat) (arc : EnvArc) :
    (process.setEnv vm arc).find vm = some arc := by
  simp [find, setEnv]

/-- The process with fewer holders of its environments. -/
theorem Consistent.of_holds {process next : Process Digest} (consistent : process.Consistent host)
    (holds : ∀ address env, next.Holds address env → process.Holds address env)
    (store : next.store = process.store) (defaultEnv : next.defaultEnv = process.defaultEnv)
    (defaultPrograms : next.defaultPrograms = process.defaultPrograms)
    (nextSerial : next.nextSerial = process.nextSerial) : next.Consistent host where
  keyed := by
    rw [store]
    exact consistent.keyed
  loadable := by
    rw [store]
    exact consistent.loadable
  numbered := by
    rw [store, nextSerial]
    exact consistent.numbered
  counted address env held := by
    rw [nextSerial]
    exact consistent.counted address env (holds address env held)
  apart address env env' held held' :=
    consistent.apart address env env' (holds _ _ held) (holds _ _ held')
  sound := by
    rw [store]
    exact consistent.sound.mono holds fun _ member => member
  memo := by
    rw [defaultPrograms, defaultEnv]
    exact consistent.memo

/-- What an allocation makes of the process: an environment of a new number at a free address, for
a VM and perhaps for all default VMs. -/
structure Allocates (process : Process Digest) (vm : Nat) (arc : EnvArc) (next : Process Digest) : Prop where
  serial : arc.env.serial = process.nextSerial
  free : process.isFree arc.address = true
  holds : ∀ address env, next.Holds address env →
    WeakMemo.Allocated process.Holds arc.address arc.env address env
  found : next.find vm = some arc
  store : next.store = process.store
  defaultEnv : next.defaultEnv = process.defaultEnv ∨
    (process.defaultEnv = none ∧ next.defaultEnv = some arc)
  defaultPrograms : next.defaultPrograms = process.defaultPrograms
  nextSerial : next.nextSerial = process.nextSerial + 1

theorem Allocates.unheld {process next : Process Digest} {vm : Nat} {arc : EnvArc}
    (allocates : process.Allocates vm arc next) (env : EnvObject) :
    ¬ process.Holds arc.address env := by
  intro held
  have other := List.all_eq_true.1 allocates.free _ held
  simp at other

/-- The end of a refresh that builds an environment. -/
theorem allocates_publish (process : Process Digest) (vm : Nat) (content : RuntimeEnvironment)
    (address : Nat) (isDefault : Bool) (free : process.isFree address = true)
    (unshared : isDefault = true → process.defaultEnv = none) :
    process.Allocates vm ⟨address, process.nextSerial, content⟩
      (let (arc, process) := process.allocate content address
       let process := if isDefault then { process with defaultEnv := some arc } else process
       process.setEnv vm arc) := by
  cases isDefault with
  | false =>
    exact
      { serial := rfl
        free := free
        holds := fun _ _ held => holds_setEnv held
        found := find_setEnv _ vm _
        store := rfl
        defaultEnv := .inl rfl
        defaultPrograms := rfl
        nextSerial := rfl }
  | true =>
    refine
      { serial := rfl
        free := free
        holds := ?_
        found := find_setEnv _ vm _
        store := rfl
        defaultEnv := .inr ⟨unshared rfl, rfl⟩
        defaultPrograms := rfl
        nextSerial := rfl }
    intro other env held
    rcases holds_setEnv held with old | new
    · rcases List.mem_append.1 old with shared | vms
      · cases List.mem_singleton.1 shared
        exact .inr ⟨rfl, rfl⟩
      · exact .inl (List.mem_append_right _ vms)
    · exact .inr new

/-- The store has no entry under the address. -/
def Unused (process : Process Digest) (address : Nat) : Prop :=
  ∀ key entry, (key, entry) ∈ process.store.entries → key.env ≠ address

theorem Consistent.allocate {process next : Process Digest} {vm : Nat} {arc : EnvArc}
    (consistent : process.Consistent host) (allocates : process.Allocates vm arc next)
    (unused : process.Unused arc.address) : next.Consistent host where
  keyed := by
    rw [allocates.store]
    exact consistent.keyed
  loadable := by
    rw [allocates.store]
    exact consistent.loadable
  numbered key entry member := by
    rw [allocates.store] at member
    rw [allocates.nextSerial]
    exact (consistent.numbered key entry member).trans (Nat.lt_succ_self _)
  counted address env held := by
    rw [allocates.nextSerial]
    rcases allocates.holds address env held with old | ⟨-, rfl⟩
    · exact (consistent.counted address env old).trans (Nat.lt_succ_self _)
    · rw [allocates.serial]
      exact Nat.lt_succ_self _
  apart address env env' held held' := by
    rcases allocates.holds _ _ held with old | ⟨rfl, rfl⟩
    · rcases allocates.holds _ _ held' with old' | ⟨rfl, rfl⟩
      · exact consistent.apart address env env' old old'
      · exact absurd old (allocates.unheld env)
    · rcases allocates.holds _ _ held' with old' | ⟨-, rfl⟩
      · exact absurd old' (allocates.unheld env')
      · rfl
  sound := by
    rw [allocates.store]
    -- The new environment may get an old address, but never an old serial.
    have fresh : ∀ key entry, (key, entry) ∈ process.store.entries → entry.env ≠ arc.env := by
      intro key entry member same
      have older := consistent.numbered key entry member
      rw [same, allocates.serial] at older
      exact lt_irrefl _ older
    have sound : WeakMemo.Sound ProgramEntryKey.env ResidentEntry.env
        (WeakMemo.Allocated process.Holds arc.address arc.env) process.store.entries :=
      (WeakMemo.sound_allocated_iff fresh).2 ⟨consistent.sound, unused⟩
    exact sound.mono allocates.holds fun _ member => member
  memo key entry member := by
    rw [allocates.defaultPrograms] at member
    obtain ⟨shared, published, address, built⟩ := consistent.memo key entry member
    rcases allocates.defaultEnv with same | ⟨absent, -⟩
    · exact ⟨shared, same.trans published, address, built⟩
    · rw [absent] at published
      cases published

variable (host) in
theorem consistent_start : (start : Process Digest).Consistent host where
  keyed key entry member := by cases member
  loadable key entry member := by cases member
  numbered key entry member := by cases member
  counted address env held := by cases held
  apart address env env' held := by cases held
  sound key entry member := by cases member
  memo key entry member := by cases member

/-! ### Loads -/

theorem Consistent.of_mem_store {process : Process Digest} (consistent : process.Consistent host)
    {store : ProgramEntryStore Digest} (kept : ∀ entry ∈ store.entries, entry ∈ process.store.entries) :
    ({ process with store := store } : Process Digest).Consistent host where
  keyed key entry member := consistent.keyed key entry (kept _ member)
  loadable key entry member := consistent.loadable key entry (kept _ member)
  numbered key entry member := consistent.numbered key entry (kept _ member)
  counted := consistent.counted
  apart := consistent.apart
  sound := consistent.sound.mono (fun _ _ alive => alive) kept
  memo := consistent.memo

/-- The fast path is open to static slices under the shared environment. -/
theorem fastKey_eq_some {process : Process Digest} {arc : EnvArc} {loader : Address} {slot : Nat}
    {source : ElfSource} {key : DefaultProgramKey}
    (eligible : process.fastKey arc loader slot source = some key) :
    ∃ shared elfPtr elfLen, process.defaultEnv = some shared ∧ arc.address = shared.address ∧
      source = .preverified elfPtr elfLen ∧ key = ⟨shared.address, elfPtr, elfLen, loader⟩ := by
  cases source with
  | bytes elf => cases eligible
  | preverified elfPtr elfLen =>
    unfold fastKey sharedDefaultEnvPtr at eligible
    cases published : process.defaultEnv with
    | none => simp [published] at eligible
    | some shared =>
      simp only [published] at eligible
      split at eligible
      · split at eligible
        next same =>
          cases eligible
          exact ⟨shared, elfPtr, elfLen, rfl, same, rfl, rfl⟩
        · cases eligible
      · cases eligible

theorem entryOf_congr {arc shared : EnvArc} (same : arc.env = shared.env) (loader : Address)
    (elf : List UInt8) : entryOf arc loader elf = entryOf shared loader elf := by
  simp [entryOf, same]

/-- The shared environment is kept alive. -/
theorem Consistent.env_eq_shared {process : Process Digest} (consistent : process.Consistent host)
    {arc shared : EnvArc} (held : process.Holds arc.address arc.env)
    (published : process.defaultEnv = some shared) (same : arc.address = shared.address) :
    arc.env = shared.env := by
  have kept : process.Holds shared.address shared.env := by
    simp [Holds, handles, published]
  rw [same] at held
  exact consistent.apart _ _ _ held kept

theorem Consistent.memoize {process : Process Digest} (consistent : process.Consistent host)
    {shared : EnvArc} (published : process.defaultEnv = some shared) (elfPtr elfLen : Nat)
    (loader : Address) :
    ({ process with
      defaultPrograms := (⟨shared.address, elfPtr, elfLen, loader⟩,
        entryOf shared loader (host.staticBytes elfPtr elfLen)) ::
          process.defaultPrograms } : Process Digest).Consistent host where
  keyed := consistent.keyed
  loadable := consistent.loadable
  numbered := consistent.numbered
  counted := consistent.counted
  apart := consistent.apart
  sound := consistent.sound
  memo key entry member := by
    rcases List.mem_cons.1 member with new | old
    · cases new
      exact ⟨shared, published, rfl, rfl⟩
    · exact consistent.memo key entry old

variable [DecidableEq Digest]

theorem insert_of_peek {store : ProgramEntryStore Digest} {key : ProgramEntryKey Digest} {entry : ResidentEntry}
    (missing : store.peek key = none) :
    ProgramEntryStore.insert store key entry = (entry, store.put key entry) := by
  simp [ProgramEntryStore.insert, LruCache.get, missing]

variable (host) in
/-- A load finds an entry, cannot build one, or builds one and stores it. -/
theorem loadResident_cases (process : Process Digest) (arc : EnvArc) (loader : Address)
    (elf : List UInt8) :
    let key := contentKey host arc.address elf loader
    (∃ entry, process.store.peek key = some entry ∧ process.loadResident host arc loader elf =
      (some entry, { process with store := (process.store.get key).2 })) ∨
    (process.store.peek key = none ∧
      (∃ error, host.agave.loadElf arc.env.content loader elf = .error error) ∧
      process.loadResident host arc loader elf = (none, process)) ∨
    (process.store.peek key = none ∧ host.agave.loadElf arc.env.content loader elf = .ok () ∧
      process.loadResident host arc loader elf = (some (entryOf arc loader elf),
        { process with store := process.store.put key (entryOf arc loader elf) })) := by
  intro key
  unfold loadResident
  cases found : process.store.peek key with
  | some entry =>
    refine .inl ⟨entry, rfl, ?_⟩
    simp [LruCache.get, key, found]
  | none =>
    have missed : process.store.get (contentKey host arc.address elf loader) =
        (none, process.store) := by
      unfold LruCache.get
      rw [found]
    simp only [missed]
    right
    cases built : host.agave.loadElf arc.env.content loader elf with
    | error error => exact .inl ⟨trivial, ⟨error, rfl⟩, rfl⟩
    | ok done =>
      have inserted : ProgramEntryStore.insert process.store
          (contentKey host arc.address elf loader) (entryOf arc loader elf) = _ :=
        insert_of_peek found
      refine .inr ⟨trivial, rfl, ?_⟩
      simp only [entryOf] at inserted
      rw [inserted]
      rfl

/-- An entry that was just built belongs to the environment at its key's address. -/
theorem Consistent.put {process : Process Digest} (consistent : process.Consistent host) {arc : EnvArc}
    (held : process.Holds arc.address arc.env) {loader : Address} {elf : List UInt8}
    (built : host.agave.loadElf arc.env.content loader elf = .ok ()) :
    ({ process with
      store := process.store.put (contentKey host arc.address elf loader)
        (entryOf arc loader elf) } : Process Digest).Consistent host where
  keyed key entry member := by
    rcases LruCache.mem_put member with new | old
    · cases new
      rfl
    · exact consistent.keyed key entry old
  loadable key entry member := by
    rcases LruCache.mem_put member with new | old
    · cases new
      exact built
    · exact consistent.loadable key entry old
  numbered key entry member := by
    rcases LruCache.mem_put member with new | old
    · cases new
      exact consistent.counted _ _ held
    · exact consistent.numbered key entry old
  counted := consistent.counted
  apart := consistent.apart
  sound := by
    apply consistent.sound.insert _ fun entry member => LruCache.mem_put member
    intro env alive
    exact consistent.apart _ _ _ held alive
  memo := consistent.memo

theorem Consistent.loadResident {process : Process Digest} (consistent : process.Consistent host)
    {arc : EnvArc} (held : process.Holds arc.address arc.env) (loader : Address)
    (elf : List UInt8) : (process.loadResident host arc loader elf).2.Consistent host := by
  rcases process.loadResident_cases host arc loader elf with
    ⟨entry, -, ran⟩ | ⟨-, -, ran⟩ | ⟨-, built, ran⟩
  · rw [ran]
    exact consistent.of_mem_store fun entry member => LruCache.mem_get member
  · rw [ran]
    exact consistent
  · rw [ran]
    exact consistent.put held built

/-- What a load answers is what it would have built. -/
theorem Consistent.loadResident_answer {process : Process Digest} (consistent : process.Consistent host)
    (injective : Function.Injective host.sha256) {arc : EnvArc}
    (held : process.Holds arc.address arc.env) {loader : Address} {elf : List UInt8}
    {entry : ResidentEntry} (answered : (process.loadResident host arc loader elf).1 = some entry) :
    entry = entryOf arc loader elf := by
  rcases process.loadResident_cases host arc loader elf with
    ⟨found, present, ran⟩ | ⟨-, -, ran⟩ | ⟨-, -, ran⟩
  · rw [ran] at answered
    cases answered
    have member := (process.store.peek_eq_some_iff _ _).1 present
    -- The key tells the bytes and the loader, and the environment that has its address.
    have same := consistent.keyed _ _ member
    have owner := consistent.sound _ _ member arc.env held
    simp only [contentKey, ProgramEntryKey.mk.injEq, true_and] at same
    have bytes := injective same.1
    cases entry
    simp_all [entryOf]
  · rw [ran] at answered
    cases answered
  · rw [ran] at answered
    exact (Option.some.inj answered).symm

theorem Consistent.resolveProgramEntry {process : Process Digest} (consistent : process.Consistent host)
    (injective : Function.Injective host.sha256) {arc : EnvArc}
    (held : process.Holds arc.address arc.env) (loader : Address) (slot : Nat)
    (source : ElfSource) :
    (process.resolveProgramEntry host arc loader slot source).2.Consistent host ∧
      ∀ entry, (process.resolveProgramEntry host arc loader slot source).1 = some entry →
        entry = entryOf arc loader (sourceBytes host source) := by
  have loaded := consistent.loadResident held loader (sourceBytes host source)
  have answered : ∀ entry,
      (process.loadResident host arc loader (sourceBytes host source)).1 = some entry →
        entry = entryOf arc loader (sourceBytes host source) :=
    fun entry => consistent.loadResident_answer injective held
  have same : (process.loadResident host arc loader (sourceBytes host source)).2.defaultEnv =
      process.defaultEnv ∧
      (process.loadResident host arc loader (sourceBytes host source)).2.defaultPrograms =
        process.defaultPrograms := by
    rcases process.loadResident_cases host arc loader (sourceBytes host source) with
      ⟨_, -, ran⟩ | ⟨-, -, ran⟩ | ⟨-, -, ran⟩ <;> exact ran ▸ ⟨rfl, rfl⟩
  unfold Process.resolveProgramEntry
  cases eligible : process.fastKey arc loader slot source with
  | none => exact ⟨loaded, answered⟩
  | some key =>
    obtain ⟨shared, elfPtr, elfLen, published, address, rfl, rfl⟩ := fastKey_eq_some eligible
    have shares := consistent.env_eq_shared held published address
    simp only
    cases found : process.defaultPrograms.lookup ⟨shared.address, elfPtr, elfLen, loader⟩ with
    | some entry =>
      refine ⟨consistent, fun other equal => ?_⟩
      cases equal
      obtain ⟨before, after, split, -⟩ := List.lookup_eq_some_iff.1 found
      obtain ⟨other, published', -, built⟩ := consistent.memo _ _
        (split ▸ List.mem_append_right before List.mem_cons_self)
      obtain rfl : shared = other := Option.some.inj (published.symm.trans published')
      rw [built, entryOf_congr shares]
      rfl
    | none =>
      cases ran : process.loadResident host arc loader
          (sourceBytes host (.preverified elfPtr elfLen)) with
      | mk answer after =>
        rw [ran] at loaded same
        rw [ran] at answered
        cases answer with
        | none => exact ⟨loaded, fun _ equal => by cases equal⟩
        | some resident =>
          -- The winner of the store is memoized.
          have built := answered resident rfl
          rw [entryOf_congr shares] at built
          obtain ⟨env, programs⟩ : after.defaultEnv = process.defaultEnv ∧
            after.defaultPrograms = process.defaultPrograms := same
          rw [← programs] at found
          simp only [orInsert, found]
          subst built
          refine ⟨?_, fun entry equal => ?_⟩
          · exact loaded.memoize (env.trans published) elfPtr elfLen loader
          · cases equal
            exact (entryOf_congr shares _ _).symm

/-- A consistent process is faithful. -/
theorem Consistent.faithful {process : Process Digest} (injective : Function.Injective host.sha256)
    (consistent : process.Consistent host) : process.Faithful host := by
  intro vm arc loader found
  have held := holds_of_find found
  constructor
  · intro elf entry answered
    exact consistent.loadResident_answer injective held answered
  · intro slot source entry answered
    exact (consistent.resolveProgramEntry injective held loader slot source).2 entry answered

/-- The store is transparent: what it answers is what the load of the database builds. -/
theorem Consistent.loadResident_eq_loadElf {process : Process Digest}
    (injective : Function.Injective host.sha256) (consistent : process.Consistent host)
    {arc : EnvArc} (held : process.Holds arc.address arc.env) {db : Accounts}
    (same : db.environments = arc.env.content) (loader : Address) (elf : List UInt8) :
    (process.loadResident host arc loader elf).1.map
        (fun entry => ProgramCacheEntry.loaded entry.env.content entry.loader entry.elf) =
      (db.loadElf host.agave loader elf).toOption := by
  unfold Accounts.loadElf
  rw [same]
  rcases process.loadResident_cases host arc loader elf with
    ⟨entry, present, ran⟩ | ⟨-, ⟨error, failed⟩, ran⟩ | ⟨-, built, ran⟩
  · have own : entry = entryOf arc loader elf := by
      apply consistent.loadResident_answer injective held
      rw [ran]
    have loads := consistent.loadable _ _ ((process.store.peek_eq_some_iff _ _).1 present)
    rw [own] at loads
    simp only [entryOf] at loads
    simp [ran, own, loads, entryOf, Except.toOption]
  · simp [ran, failed, Except.toOption]
  · simp [ran, built, entryOf, Except.toOption]

/-- If the store has an entry under the address, the VM is answered with it. -/
theorem unused_of_faithful {process next : Process Digest} {vm : Nat} {arc : EnvArc}
    (consistent : process.Consistent host) (allocates : process.Allocates vm arc next)
    (faithful : next.Faithful host) : process.Unused arc.address := by
  intro key entry member same
  have keyed := consistent.keyed key entry member
  have present : next.store.peek (contentKey host arc.address entry.elf entry.loader) =
      some entry := by
    rw [allocates.store, LruCache.peek_eq_some_iff, ← same, ← keyed]
    exact member
  -- The load of the entry's own bytes finds it.
  have answered : (next.loadResident host arc entry.loader entry.elf).1 = some entry := by
    rcases next.loadResident_cases host arc entry.loader entry.elf with
      ⟨found, there, ran⟩ | ⟨missing, -, -⟩ | ⟨missing, -, -⟩
    · rw [ran]
      exact there.symm.trans present
    · rw [present] at missing
      cases missing
    · rw [present] at missing
      cases missing
  have own := (faithful vm arc entry.loader allocates.found).1 entry.elf entry answered
  have older := consistent.numbered key entry member
  have serial : entry.env.serial = process.nextSerial := by
    rw [own]
    exact allocates.serial
  omega

end Process

/-! ### Histories -/

variable [DecidableEq Digest]

namespace ProcessOp

variable (host : Host Digest)

/-- The address at which the operation allocates an environment, if it does. -/
def allocates : ProcessOp → Process Digest → Option Nat
  | create vm address, process =>
    if (process.find vm).isNone && process.isFree address then some address else none
  | refresh vm config address, process =>
    let shares := Process.isDefaultConfig host config && process.defaultEnv.isSome
    if (process.find vm).isSome && process.isFree address &&
        (!shares && (Process.buildEnvironment host config).isSome) then some address
    else none
  | _, _ => none

/-- The store has no entries under the address at which the operation allocates. -/
def AllocatesUnused (op : ProcessOp) (process : Process Digest) : Prop :=
  ∀ address, op.allocates host process = some address → process.Unused address

variable {host}

variable (host) in
/-- What an operation does: it allocates an environment, loads a program, or leaves all but the
holders of environments alone. -/
inductive Effect (op : ProcessOp) (process : Process Digest) : Process Digest → Prop
  | allocated {vm : Nat} {arc : EnvArc} {next : Process Digest}
      (address : op.allocates host process = some arc.address)
      (allocates : process.Allocates vm arc next) : Effect op process next
  | loaded {vm : Nat} {arc : EnvArc} (quiet : op.allocates host process = none)
      (found : process.find vm = some arc) (loader : Address) (elf : List UInt8) :
      Effect op process (process.loadResident host arc loader elf).2
  | resolved {vm : Nat} {arc : EnvArc} (quiet : op.allocates host process = none)
      (found : process.find vm = some arc) (loader : Address) (slot : Nat) (source : ElfSource) :
      Effect op process (process.resolveProgramEntry host arc loader slot source).2
  | released {next : Process Digest} (quiet : op.allocates host process = none)
      (holds : ∀ address env, next.Holds address env → process.Holds address env)
      (store : next.store = process.store) (defaultEnv : next.defaultEnv = process.defaultEnv)
      (defaultPrograms : next.defaultPrograms = process.defaultPrograms)
      (nextSerial : next.nextSerial = process.nextSerial) : Effect op process next

theorem effect_create {process next : Process Digest} {vm address : Nat}
    (stepped : (create vm address).step host process = some next) :
    Effect host (create vm address) process next := by
  simp only [step] at stepped
  split at stepped
  next allowed =>
    cases stepped
    have free := (Bool.and_eq_true_iff.1 allowed).2
    have allocated := process.allocates_publish vm host.emptyEnvironment address false free nofun
    refine .allocated ?_ allocated
    exact if_pos allowed
  · cases stepped

theorem effect_refresh {process next : Process Digest} {vm address : Nat} {config : EnvConfig}
    (stepped : (refresh vm config address).step host process = some next) :
    Effect host (refresh vm config address) process next := by
  simp only [step] at stepped
  split at stepped
  next allowed =>
    obtain ⟨present, free⟩ := Bool.and_eq_true_iff.1 allowed
    cases stepped
    unfold Process.refresh
    split
    next shared isDefault published =>
      apply Effect.released
      · simp [allocates, isDefault, published]
      · intro address env held
        rcases Process.holds_setEnv held with old | ⟨rfl, rfl⟩
        · exact old
        · simp [Process.Holds, Process.handles, published]
      all_goals rfl
    next differs =>
      cases built : Process.buildEnvironment host config with
      | none =>
        apply Effect.released
        · simp [allocates, built]
        · exact fun _ _ held => held
        all_goals rfl
      | some content =>
        -- The environment is published if it is the first one of a default VM.
        have unshared : Process.isDefaultConfig host config = true → process.defaultEnv = none := by
          intro default
          cases published : process.defaultEnv with
          | none => rfl
          | some shared => exact absurd published (differs shared default)
        have allocated : process.Allocates vm ⟨address, process.nextSerial, content⟩ _ :=
          process.allocates_publish vm content address (Process.isDefaultConfig host config) free
            unshared
        refine .allocated ?_ allocated
        cases default : Process.isDefaultConfig host config with
        | false => simp [allocates, present, free, default, built]
        | true => simp [allocates, present, free, unshared default, built]
  · cases stepped

theorem effect_of_step {op : ProcessOp} {process next : Process Digest}
    (stepped : op.step host process = some next) : Effect host op process next := by
  cases op with
  | create vm address => exact effect_create stepped
  | clone source vm =>
    simp only [step] at stepped
    split at stepped
    · obtain ⟨arc, found, rfl⟩ := Option.map_eq_some_iff.1 stepped
      refine .released rfl ?_ rfl rfl rfl rfl
      intro address env held
      rcases Process.holds_setEnv held with old | ⟨rfl, rfl⟩
      · exact old
      · exact Process.holds_of_find found
    · cases stepped
  | refresh vm config address => exact effect_refresh stepped
  | drop vm =>
    obtain ⟨arc, -, rfl⟩ := Option.map_eq_some_iff.1 stepped
    exact .released rfl (fun _ _ => Process.holds_drop) rfl rfl rfl rfl
  | loadProgram vm loader elf =>
    obtain ⟨arc, found, rfl⟩ := Option.map_eq_some_iff.1 stepped
    exact .loaded rfl found loader elf
  | resolveProgramEntry vm loader slot source =>
    obtain ⟨arc, found, rfl⟩ := Option.map_eq_some_iff.1 stepped
    exact .resolved rfl found loader slot source

theorem consistent_step (injective : Function.Injective host.sha256) {op : ProcessOp}
    {process next : Process Digest} (consistent : process.Consistent host)
    (unused : op.AllocatesUnused host process) (stepped : op.step host process = some next) :
    next.Consistent host := by
  cases effect_of_step stepped with
  | allocated address allocates => exact consistent.allocate allocates (unused _ address)
  | loaded _ found loader elf => exact consistent.loadResident (Process.holds_of_find found) loader elf
  | resolved _ found loader slot source =>
    exact (consistent.resolveProgramEntry injective (Process.holds_of_find found) loader slot
      source).1
  | released _ holds store defaultEnv defaultPrograms nextSerial =>
    exact consistent.of_holds holds store defaultEnv defaultPrograms nextSerial

theorem allocatesUnused_of_faithful {op : ProcessOp} {process next : Process Digest}
    (consistent : process.Consistent host) (stepped : op.step host process = some next)
    (faithful : next.Faithful host) : op.AllocatesUnused host process := by
  intro address at_address
  cases effect_of_step stepped with
  | allocated same allocates =>
    rw [same] at at_address
    cases at_address
    exact Process.unused_of_faithful consistent allocates faithful
  | loaded quiet _ _ _ => simp [quiet] at at_address
  | resolved quiet _ _ _ _ => simp [quiet] at at_address
  | released quiet _ _ _ _ _ => simp [quiet] at at_address

/-- An operation that does not take place allocates nothing. -/
theorem allocatesUnused_of_stuck {op : ProcessOp} {process : Process Digest}
    (stuck : op.step host process = none) : op.AllocatesUnused host process := by
  intro address at_address
  cases op with
  | create vm free =>
    simp only [step, allocates] at stuck at_address
    split at stuck
    · cases stuck
    next refused => simp [refused] at at_address
  | refresh vm config free =>
    simp only [step, allocates] at stuck at_address
    split at stuck
    · cases stuck
    next refused => simp [refused] at at_address
  | clone | drop | loadProgram | resolveProgramEntry => cases at_address

end ProcessOp

/-- In a history of a process, every VM is always answered with entries of its own environment, for
the loader and the bytes it asks for, exactly if every environment was allocated at an address under
which the store had no entries. -/
theorem resident_entries_faithful_iff (host : Host Digest) (injective : Function.Injective host.sha256)
    (history : List ProcessOp) :
    (∀ before after reached, history = before ++ after →
      Runs.run (ProcessOp.step host) before .start = some reached → reached.Faithful host) ↔
      Runs.Along (ProcessOp.step host) (ProcessOp.AllocatesUnused host) history .start := by
  refine (Runs.along_iff_reached (Process.Consistent host) ?_ ?_ ?_ ?_
    (Process.consistent_start host)).symm
  · intro op process next consistent unused stepped
    exact ProcessOp.consistent_step injective consistent unused stepped
  · intro process consistent
    exact consistent.faithful injective
  · intro op process next consistent stepped faithful
    exact ProcessOp.allocatesUnused_of_faithful consistent stepped faithful
  · intro op process stuck
    exact ProcessOp.allocatesUnused_of_stuck stuck

namespace Sample

/-- The sample runtime with the bytes themselves as their digests. -/
def host : Host (List UInt8) where
  agave := agave
  sha256 := id
  staticBytes := fun _ _ => []
  emptyEnvironment := environment
  isAllEnabled := fun _ => false

/-- A configuration that differs from the empty one in its custom syscalls. -/
def withSyscalls (names : List String) : EnvConfig :=
  ⟨⟨∅⟩, none, names.map fun name => ⟨name, 1⟩⟩

/-- A VM registers a syscall, loads a program and registers another one. -/
def registering : List ProcessOp :=
  [.create 1 0x10, .refresh 1 (withSyscalls ["first"]) 0x20, .loadProgram 1 Ids.bpfLoader [0x7f],
    .refresh 1 (withSyscalls ["first", "second"]) 0x30]

/-- Every environment has an address of its own, so what the VM loads next is its own. -/
theorem registering_faithful :
    ∃ reached, Runs.run (ProcessOp.step host) registering .start = some reached ∧
      reached.Faithful host := by
  have apart : Runs.Along (ProcessOp.step host) (ProcessOp.AllocatesUnused host) registering
      .start := by
    refine ⟨?_, fun created stepped => ?_⟩
    · intro address _ key entry member
      cases member
    cases stepped
    refine ⟨?_, fun registered stepped => ?_⟩
    · intro address _ key entry member
      cases member
    cases stepped
    refine ⟨nofun, fun loaded stepped => ?_⟩
    cases stepped
    refine ⟨?_, fun _ _ => trivial⟩
    -- The only entry is the one of the environment at the first address.
    intro address allocated key entry member
    cases allocated
    cases member with
    | head => decide
    | tail _ member => cases member
  obtain ⟨reached, ran⟩ : ∃ reached,
      Runs.run (ProcessOp.step host) registering .start = some reached := ⟨_, rfl⟩
  exact ⟨reached, ran, (resident_entries_faithful_iff host Function.injective_id registering).2 apart
    registering [] reached (List.append_nil _).symm ran⟩

/-- A third registration is given the address of the first environment, which is freed by then. The
program is answered as it was loaded under that one, where two of the three syscalls are missing. -/
theorem reused_address_crosses :
    (Runs.run (ProcessOp.step host)
        (registering ++ [.refresh 1 (withSyscalls ["first", "second", "third"]) 0x20])
        .start).bind (fun process => (process.find 1).bind fun arc =>
          (process.loadResident host arc Ids.bpfLoader [0x7f]).1.map fun entry =>
            (arc.env.content.syscalls.length, entry.env.content.syscalls.length)) =
      some (3, 1) := by
  decide +kernel

end Sample

end Hpsvm
