import Mathlib.Data.List.Basic

/-!
# Memo tables with weak keys

A memo table whose keys hold the address of an object, and whose values were built for an object.
The table does not keep the object alive: its address may be given to another object while the
entry is still there. The table is sound as long as no live object finds a value that was built for
another one.
-/

namespace Foundation.WeakMemo

variable {Addr Obj Key Value : Type} {address : Key → Addr} {owner : Value → Obj}
  {live : Addr → Obj → Prop} {entries : List (Key × Value)}

/-- What is stored under the address of a live object was built for it. -/
def Sound (address : Key → Addr) (owner : Value → Obj) (live : Addr → Obj → Prop)
    (entries : List (Key × Value)) : Prop :=
  ∀ key value, (key, value) ∈ entries → ∀ object, live (address key) object → owner value = object

/-- Freeing objects and forgetting entries are safe. -/
theorem Sound.mono {live' : Addr → Obj → Prop} {entries' : List (Key × Value)}
    (sound : Sound address owner live entries) (freed : ∀ addr object, live' addr object →
      live addr object) (kept : ∀ entry ∈ entries', entry ∈ entries) :
    Sound address owner live' entries' :=
  fun key value member object alive => sound key value (kept _ member) object (freed _ _ alive)

/-- So is storing a value that was built for the object at the address of its key. -/
theorem Sound.insert {entries' : List (Key × Value)} {key : Key} {value : Value}
    (sound : Sound address owner live entries)
    (built : ∀ object, live (address key) object → owner value = object)
    (added : ∀ entry ∈ entries', entry = (key, value) ∨ entry ∈ entries) :
    Sound address owner live entries' := by
  intro other stored member object alive
  rcases added _ member with new | old
  · cases new
    exact built object alive
  · exact sound other stored old object alive

/-- The objects after an allocation. -/
def Allocated (live : Addr → Obj → Prop) (addr : Addr) (object : Obj) : Addr → Obj → Prop :=
  fun other present => live other present ∨ (other = addr ∧ present = object)

/-- An allocation is safe exactly if nothing is stored under the address it is given. -/
theorem sound_allocated_iff {addr : Addr} {object : Obj}
    (fresh : ∀ key value, (key, value) ∈ entries → owner value ≠ object) :
    Sound address owner (Allocated live addr object) entries ↔
      Sound address owner live entries ∧
        ∀ key value, (key, value) ∈ entries → address key ≠ addr := by
  constructor
  · intro sound
    refine ⟨sound.mono (fun _ _ alive => .inl alive) (fun _ member => member), ?_⟩
    intro key value member same
    exact fresh key value member (sound key value member object (.inr ⟨same, rfl⟩))
  · rintro ⟨sound, unused⟩ key value member present (alive | ⟨same, -⟩)
    · exact sound key value member present alive
    · exact absurd same (unused key value member)

end Foundation.WeakMemo
