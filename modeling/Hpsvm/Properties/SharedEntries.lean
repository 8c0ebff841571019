import Hpsvm.Properties.TierSteps

/-!
# Shared entries

A VM that loads a program gets an entry that was loaded from that very program. While a process loads no
more programs than the resident store keeps, all VMs that load a program get the same entry, also
when several of them miss at the same time: the first writer wins, and the others drop what they
loaded.
-/

namespace Hpsvm

open Foundation
open Foundation.Interleaving (Holds step_cases)

variable {κ : Type} {host : TierHost}

namespace TierHost

/-! ### Contents -/

/-- The entry was loaded from the program. -/
def LoadedFrom (tiers : Tiers κ) (key : κ) (entry : Nat) : Prop :=
  ∃ current, tiers.entries[entry]? = some current ∧ current.program = some key

/-- The store keeps each entry under the program it was loaded from. -/
def StoreSound (tiers : Tiers κ) : Prop :=
  ∀ key entry, (key, entry) ∈ tiers.store.entries → LoadedFrom tiers key entry

/-- A load ends with an entry for its program. -/
def LoadSound (tiers : Tiers κ) : TierPhase κ → Prop
  | .fresh _ key entry => LoadedFrom tiers key entry
  | .linked _ (some key) entry => LoadedFrom tiers key entry
  | _ => True

theorem loadSound_of_key? {phase : TierPhase κ} {tiers : Tiers κ}
    (loads : phase.key? = none) : LoadSound tiers phase := by
  cases phase with
  | fresh => cases loads
  | linked vm key entry =>
    cases loads
    trivial
  | _ => trivial

section

variable [DecidableEq κ] {phase phase' : TierPhase κ} {tiers tiers' : Tiers κ}
  {events : List TierEvent} {key : κ} {entry : Nat}

theorem Took.loadedFrom (took : Took host phase tiers phase' tiers' events)
    (loaded : LoadedFrom tiers key entry) : LoadedFrom tiers' key entry := by
  obtain ⟨current, there, program⟩ := loaded
  obtain ⟨current', there', kept⟩ := took.entry_kept there
  exact ⟨current', there', kept.1.trans program⟩

theorem Took.loadSound_other (took : Took host phase tiers phase' tiers' events)
    {other : TierPhase κ} (sound : LoadSound tiers other) : LoadSound tiers' other := by
  cases other with
  | fresh vm key entry => exact took.loadedFrom sound
  | linked vm key entry =>
    cases key with
    | none => trivial
    | some key => exact took.loadedFrom sound
  | _ => trivial

/-- The store only ever changes by a lookup, and by an insertion after a miss. -/
theorem Took.store_cases (took : Took host phase tiers phase' tiers' events) :
    tiers'.store = tiers.store ∨
    (∃ key, phase'.key? = some key ∧ tiers'.store = (tiers.store.get key).2) ∨
    ∃ vm key entry, phase = .fresh vm key entry ∧ phase'.key? = some key ∧
      tiers.store.peek key = none ∧ tiers'.store = tiers.store.put key entry := by
  cases took with
  | @hit _ vm key resident _ asks found => exact .inr (.inl ⟨key, rfl, rfl⟩)
  | @missed vm key _ absent => exact .inr (.inl ⟨key, rfl, rfl⟩)
  | @inserted vm key entry _ absent =>
    rw [LruCache.get_fst] at absent
    refine .inr (.inr ⟨vm, key, entry, rfl, rfl, absent, ?_⟩)
    simp only [LruCache.get_snd_of_none absent]
  | promotes promotes => exact .inl promotes.store
  | works promotes => exact .inl promotes.store
  | _ => exact .inl rfl

theorem Took.storeSound (took : Took host phase tiers phase' tiers' events)
    (store : StoreSound tiers) (load : LoadSound tiers phase) : StoreSound tiers' := by
  intro key entry member
  apply took.loadedFrom
  rcases took.store_cases with same | ⟨looked, _, same⟩ | ⟨vm, new, inserted, rfl, _, _, same⟩
  · exact store key entry (same ▸ member)
  · rw [same] at member
    exact store key entry (LruCache.mem_get member)
  · rw [same] at member
    rcases LruCache.mem_put member with equal | before
    · cases equal
      exact load
    · exact store key entry before

theorem Took.loadSound (took : Took host phase tiers phase' tiers' events)
    (store : StoreSound tiers) (load : LoadSound tiers phase) : LoadSound tiers' phase' := by
  cases took with
  | @hit _ vm key resident _ asks found =>
    rw [LruCache.get_fst, LruCache.peek_eq_some_iff] at found
    exact store key resident found
  | @loaded vm key _ =>
    exact ⟨.fresh (some key) (host.loadsNative vm), List.getElem?_concat_length, rfl⟩
  | inserted => exact load
  | promotes => exact loadSound_of_key? (TierPhase.key?_resume _ _ _ _ _)
  | works => exact loadSound_of_key? (TierPhase.key?_dispatch _ _ _)
  | _ => trivial

theorem sound_step (op : Interleaving.Op (TierPhase κ) TierChoice) (system next : TierSystem κ)
    (holds : Holds (fun tiers _ => StoreSound tiers) (fun tiers _ => LoadSound tiers) system)
    (taken : host.step op system = some next) :
    Holds (fun tiers _ => StoreSound tiers) (fun tiers _ => LoadSound tiers) next := by
  refine Holds.step ?_ ?_ op system next holds taken
  · intro phase system allowed
    cases phase with
    | fresh | linked => cases allowed
    | _ => trivial
  · intro process phase choice tiers log phase' tiers' events store load ran
    have took := took_of_program ran
    exact ⟨took.storeSound store load, took.loadSound store load,
      fun other sound => took.loadSound_other sound⟩

/-! ### One entry for each program -/

/-- A thread goes on with the program it loads. -/
theorem Took.key_kept (took : Took host phase tiers phase' tiers' events)
    (loads : phase.key? = some key) : phase'.key? = some key := by
  cases took with
  | hit asks found => rcases asks with rfl | ⟨_, rfl⟩ <;> exact loads
  | missed | loaded | refused | inserted => exact loads
  | _ => cases loads

/-- Only programs of a set are loaded. -/
def LoadsAmong (keys : Finset κ) (system : TierSystem κ) : Prop :=
  ∀ phase ∈ system.phases, ∀ key, phase.key? = some key → key ∈ keys

theorem loadsAmong_of_step {keys : Finset κ} {op : Interleaving.Op (TierPhase κ) TierChoice}
    {system next : TierSystem κ} (taken : host.step op system = some next)
    (among : LoadsAmong keys next) : LoadsAmong keys system := by
  intro phase member key loads
  rcases step_cases taken with
    ⟨new, _, rfl⟩ | ⟨mover, old, choice, phase', tiers', events, moving, ran, rfl⟩
  · exact among phase (List.mem_append_left _ member) key loads
  · have inside : mover < system.phases.length := (List.getElem?_eq_some_iff.1 moving).1
    obtain ⟨place, here⟩ := List.getElem?_of_mem member
    by_cases same : mover = place
    · subst same
      rw [moving] at here
      cases here
      exact among phase' (List.mem_set inside _) key ((took_of_program ran).key_kept loads)
    · apply among phase _ key loads
      exact List.mem_of_getElem? (by rwa [List.getElem?_set_ne same])

/-- Every entry that a VM linked is the one that the store keeps. -/
structure Resident (keys : Finset κ) (system : TierSystem κ) : Prop where
  cap : system.shared.store.cap = programEntryCapacity
  linked : ∀ vm key entry, TierPhase.linked vm (some key) entry ∈ system.phases →
    system.shared.store.Keeps key entry (keys.erase key)

/-- A load links the entry that the store has then. -/
theorem Took.keeps_linked (took : Took host phase tiers phase' tiers' events)
    (room : 0 < tiers.store.cap) {vm : Nat} (links : phase' = .linked vm (some key) entry) :
    tiers'.store.Keeps key entry ∅ := by
  cases took with
  | @hit _ _ _ resident _ asks found =>
    cases links
    rw [LruCache.get_fst] at found
    simp only [LruCache.get, found]
    exact LruCache.keeps_put_self room key entry
  | @inserted _ _ _ _ absent =>
    cases links
    rw [LruCache.get_fst] at absent
    simp only [LruCache.get_snd_of_none absent]
    exact LruCache.keeps_put_self room key entry
  | promotes =>
    have loads := congrArg TierPhase.key? links
    rw [TierPhase.key?_resume] at loads
    cases loads
  | works =>
    have loads := congrArg TierPhase.key? links
    rw [TierPhase.key?_dispatch] at loads
    cases loads
  | _ => cases links

/-- With room for all programs, the store keeps what it has. -/
theorem Took.keeps (took : Took host phase tiers phase' tiers' events) {keys : Finset κ}
    (fits : keys.card ≤ tiers.store.cap) (loads : ∀ other, phase'.key? = some other → other ∈ keys)
    (listed : key ∈ keys) (keeps : tiers.store.Keeps key entry (keys.erase key)) :
    tiers'.store.Keeps key entry (keys.erase key) := by
  have others : (keys.erase key).card < tiers.store.cap := by
    have smaller := Finset.card_erase_lt_of_mem listed
    omega
  rcases took.store_cases with same | ⟨looked, loading, same⟩ | ⟨vm, new, inserted, _, loading, absent, same⟩
  · rwa [same]
  · rw [same]
    by_cases equal : key = looked
    · subst equal
      obtain ⟨next, found, first⟩ := keeps.get_self (by omega)
      rw [found]
      exact first.mono (Finset.empty_subset _)
    · exact keeps.get equal (Finset.mem_erase.2 ⟨Ne.symm equal, loads looked loading⟩) others
  · rw [same]
    have differ : key ≠ new := by
      rintro rfl
      rw [keeps.peek] at absent
      cases absent
    exact keeps.put differ (Finset.mem_erase.2 ⟨differ.symm, loads new loading⟩) others inserted

theorem resident_step {keys : Finset κ} (fits : keys.card ≤ programEntryCapacity)
    {op : Interleaving.Op (TierPhase κ) TierChoice} {system next : TierSystem κ}
    (among : LoadsAmong keys next) (resident : Resident keys system)
    (taken : host.step op system = some next) : Resident keys next := by
  rcases step_cases taken with
    ⟨new, allowed, rfl⟩ | ⟨mover, old, choice, phase', tiers', events, moving, ran, rfl⟩
  · refine ⟨resident.cap, ?_⟩
    intro vm key entry member
    rcases List.mem_append.1 member with before | now
    · exact resident.linked vm key entry before
    · -- No thread starts with an entry.
      rw [← List.mem_singleton.1 now] at allowed
      cases allowed
  · have took := took_of_program ran
    have inside : mover < system.phases.length := (List.getElem?_eq_some_iff.1 moving).1
    have room : 0 < system.shared.store.cap := by
      rw [resident.cap]
      decide
    refine ⟨?_, ?_⟩
    · rcases took.store_cases with same | ⟨_, _, same⟩ | ⟨_, _, _, _, _, _, same⟩
      all_goals simp [same, resident.cap]
    · intro vm key entry member
      have listed : key ∈ keys := among _ member key rfl
      rcases List.mem_or_eq_of_mem_set member with before | now
      · refine took.keeps (by rwa [resident.cap]) ?_ listed (resident.linked vm key entry before)
        exact among phase' (List.mem_set inside _)
      · exact (took.keeps_linked room now.symm).mono (Finset.empty_subset _)

/-- However the VMs of a process load programs: what a VM links for a program is an entry that was loaded
from that program; and as long as they load no more programs than the store keeps, all VMs link the
same entry for the same program. -/
theorem loads_share_entries (host : TierHost)
    (ops : List (Interleaving.Op (TierPhase κ) TierChoice)) (reached : TierSystem κ)
    (ran : Runs.run host.step ops startSystem = some reached) :
    (∀ vm key entry, TierPhase.linked vm (some key) entry ∈ reached.phases →
      ∃ current, reached.shared.entries[entry]? = some current ∧ current.program = some key) ∧
    ∀ keys : Finset κ, keys.card ≤ programEntryCapacity →
      (∀ phase ∈ reached.phases, ∀ key, phase.key? = some key → key ∈ keys) →
      ∀ vm vm' key entry entry', TierPhase.linked vm (some key) entry ∈ reached.phases →
        TierPhase.linked vm' (some key) entry' ∈ reached.phases → entry = entry' := by
  constructor
  · intro vm key entry member
    have sound : Holds (fun tiers _ => StoreSound tiers) (fun tiers _ => LoadSound tiers) reached := by
      refine Runs.invariant_run _ sound_step ⟨?_, ?_⟩ ran
      · intro key entry member
        cases member
      · intro phase member
        cases member
    exact sound.phases _ member
  · intro keys fits among vm vm' key entry entry' member member'
    have resident : LoadsAmong keys reached → Resident keys reached := by
      refine Runs.invariant_run (fun system => LoadsAmong keys system → Resident keys system)
        ?_ ?_ ran
      · intro op system next resident taken among
        exact resident_step fits among (resident (loadsAmong_of_step taken among)) taken
      · intro _
        refine ⟨rfl, ?_⟩
        intro vm key entry member
        cases member
    have first := ((resident among).linked vm key entry member).peek
    have second := ((resident among).linked vm' key entry' member').peek
    exact Option.some.inj (first.symm.trans second)

end

end TierHost

namespace Sample

/-- VMs that compile what they load. -/
def eagerHost : TierHost := ⟨⟨true, false⟩, 4, fun _ => ⟨.eager, true⟩⟩

/-- Two VMs load a program, and both miss. -/
def racingLoads : List (Interleaving.Op (TierPhase Nat) TierChoice) :=
  [.start (.load 0 7), .start (.load 1 7), .move 0 .proceed, .move 1 .proceed, .move 1 (.load true),
    .move 0 (.load true), .move 0 .proceed, .move 1 .proceed]

def racedTo : TierHost.TierSystem Nat :=
  (Runs.run eagerHost.step racingLoads TierHost.startSystem).getD TierHost.startSystem

theorem racingLoads_share :
    (∃ current, racedTo.shared.entries[1]? = some current ∧ current.program = some 7) ∧
      racedTo.phases = [.linked 0 (some 7) 1, .linked 1 (some 7) 1] :=
  ⟨(TierHost.loads_share_entries eagerHost racingLoads racedTo rfl).1 0 7 1 (by decide), by decide⟩

end Sample

end Hpsvm
