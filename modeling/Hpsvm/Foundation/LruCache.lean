import Mathlib.Data.Finset.Card
import Mathlib.Data.List.Nodup

/-! Bounded maps that forget their least recently inserted key. -/

namespace Foundation

/-- A map of at most `cap` entries with distinct keys, most recently inserted first. -/
structure LruCache (κ α : Type*) where
  cap : Nat
  entries : List (κ × α)
  nodup_keys : (entries.map Prod.fst).Nodup
  length_le : entries.length ≤ cap

namespace LruCache

variable {κ α : Type*} [DecidableEq κ]

/-- The entries of `entries` under other keys than `key`. -/
def without (key : κ) (entries : List (κ × α)) : List (κ × α) :=
  entries.filter fun entry => decide (entry.1 ≠ key)

omit [DecidableEq κ] in
private theorem nodup_take {entries : List (κ × α)} (nodup : (entries.map Prod.fst).Nodup)
    (size : Nat) : ((entries.take size).map Prod.fst).Nodup := by
  rw [List.map_take]
  exact nodup.sublist (List.take_sublist _ _)

private theorem nodup_cons_without {entries : List (κ × α)}
    (nodup : (entries.map Prod.fst).Nodup) (key : κ) (value : α) :
    (((key, value) :: without key entries).map Prod.fst).Nodup := by
  rw [List.map_cons, List.nodup_cons]
  refine ⟨?_, nodup.sublist (List.filter_sublist.map Prod.fst)⟩
  intro member
  obtain ⟨entry, kept, same⟩ := List.mem_map.1 member
  have other := (List.mem_filter.1 kept).2
  exact absurd same (by simpa using other)

def empty (cap : Nat) : LruCache κ α := ⟨cap, [], by simp, by simp⟩

/-- The value under a key; looking it up does not refresh its age. -/
def peek (cache : LruCache κ α) (key : κ) : Option α := cache.entries.lookup key

/-- Inserts in front, forgetting the oldest entries beyond the capacity. -/
def put (cache : LruCache κ α) (key : κ) (value : α) : LruCache κ α where
  cap := cache.cap
  entries := ((key, value) :: without key cache.entries).take cache.cap
  nodup_keys := nodup_take (nodup_cons_without cache.nodup_keys key value) _
  length_le := List.length_take_le _ _

/-- Forgets a key. -/
def pop (cache : LruCache κ α) (key : κ) : LruCache κ α where
  cap := cache.cap
  entries := without key cache.entries
  nodup_keys := cache.nodup_keys.sublist (List.filter_sublist.map Prod.fst)
  length_le := Nat.le_trans (List.length_filter_le _ _) cache.length_le

/-- The value under a key, which becomes the most recent one. -/
def get (cache : LruCache κ α) (key : κ) : Option α × LruCache κ α :=
  match cache.peek key with
  | none => (none, cache)
  | some value => (some value, cache.put key value)

def clear (cache : LruCache κ α) : LruCache κ α := empty cache.cap

def resize (cache : LruCache κ α) (cap : Nat) : LruCache κ α where
  cap := cap
  entries := cache.entries.take cap
  nodup_keys := nodup_take cache.nodup_keys cap
  length_le := List.length_take_le _ _

@[simp] theorem put_cap (cache : LruCache κ α) (key : κ) (value : α) :
    (cache.put key value).cap = cache.cap := rfl

theorem peek_put_self {cache : LruCache κ α} (room : 0 < cache.cap) (key : κ) (value : α) :
    (cache.put key value).peek key = some value := by
  obtain ⟨cap, same⟩ : ∃ cap, cache.cap = cap + 1 := ⟨cache.cap - 1, by omega⟩
  simp [peek, put, same]

theorem lookup_without {key other : κ} (entries : List (κ × α)) (differ : other ≠ key) :
    (without key entries).lookup other = entries.lookup other := by
  induction entries with
  | nil => rfl
  | cons entry entries ih =>
    obtain ⟨found, value⟩ := entry
    unfold without at ih ⊢
    by_cases same : found = key
    · subst same
      rw [List.filter_cons_of_neg (by simp), ih, List.lookup_cons,
        beq_eq_false_iff_ne.2 differ]
    · rw [List.filter_cons_of_pos (by simpa using same), List.lookup_cons, List.lookup_cons, ih]

/-- Below the capacity an insertion leaves every other key as it was. -/
theorem peek_put_of_ne {cache : LruCache κ α} (room : cache.entries.length < cache.cap)
    {key other : κ} (differ : other ≠ key) (value : α) :
    (cache.put key value).peek other = cache.peek other := by
  have fits : ((key, value) :: without key cache.entries).length ≤ cache.cap := by
    have shorter : (without key cache.entries).length ≤ cache.entries.length :=
      List.length_filter_le _ _
    simp only [List.length_cons]
    omega
  simp only [peek, put, List.take_of_length_le fits, List.lookup_cons,
    beq_eq_false_iff_ne.2 differ, lookup_without _ differ]

theorem length_put_le (cache : LruCache κ α) (key : κ) (value : α) :
    (cache.put key value).entries.length ≤ cache.entries.length + 1 := by
  have shorter : (without key cache.entries).length ≤ cache.entries.length :=
    List.length_filter_le _ _
  simp only [put, List.length_take, List.length_cons]
  omega

/-! ### The keys of a cache -/

/-- The keys, the most recently inserted one first. -/
def keys (cache : LruCache κ α) : List κ := cache.entries.map Prod.fst

/-- The first occurrence of each key. -/
def distinct : List κ → List κ
  | [] => []
  | key :: rest => key :: (distinct rest).filter fun other => decide (other ≠ key)

/-- The `cap` most recent distinct keys of a sequence of insertions, the newest one first. -/
def recent (cap : Nat) (inserted : List κ) : List κ := (distinct inserted).take cap

theorem nodup_distinct (inserted : List κ) : (distinct inserted).Nodup := by
  induction inserted with
  | nil => exact List.nodup_nil
  | cons key rest ih =>
    rw [distinct, List.nodup_cons]
    exact ⟨by simp, ih.filter _⟩

theorem filter_ne_of_notMem {key : κ} {inserted : List κ} (absent : key ∉ inserted) :
    (inserted.filter fun other => decide (other ≠ key)) = inserted := by
  refine List.filter_eq_self.2 ?_
  intro other member
  refine decide_eq_true ?_
  rintro rfl
  exact absent member

theorem distinct_of_nodup {inserted : List κ} (nodup : inserted.Nodup) :
    distinct inserted = inserted := by
  induction inserted with
  | nil => rfl
  | cons key rest ih =>
    obtain ⟨absent, others⟩ := List.nodup_cons.1 nodup
    rw [distinct, ih others, filter_ne_of_notMem absent]

/-- Filtering out a key that occurs at most once looks one element further. -/
theorem take_filter_ne {key : κ} {inserted : List κ} (nodup : inserted.Nodup) (count : Nat) :
    (inserted.filter fun other => decide (other ≠ key)).take count =
      ((inserted.take (count + 1)).filter fun other => decide (other ≠ key)).take count := by
  induction inserted generalizing count with
  | nil => rfl
  | cons first rest ih =>
    obtain ⟨absent, others⟩ := List.nodup_cons.1 nodup
    rw [List.take_succ_cons]
    by_cases same : first = key
    · subst same
      have absent' : first ∉ rest.take count := fun member => absent (List.mem_of_mem_take member)
      rw [List.filter_cons_of_neg (by simp), List.filter_cons_of_neg (by simp),
        filter_ne_of_notMem absent, filter_ne_of_notMem absent', List.take_take, Nat.min_self]
    · rw [List.filter_cons_of_pos (by simpa using same),
        List.filter_cons_of_pos (by simpa using same)]
      cases count with
      | zero => rfl
      | succ count => rw [List.take_succ_cons, List.take_succ_cons, ih others]

/-- Keys that fell out of the most recent ones do not come back. -/
theorem recent_append_recent (cap : Nat) (newer older : List κ) :
    recent cap (newer ++ recent cap older) = recent cap (newer ++ older) := by
  induction newer with
  | nil =>
    have nodup : (recent cap older).Nodup := (nodup_distinct older).sublist (List.take_sublist _ _)
    simp only [List.nil_append]
    rw [recent, distinct_of_nodup nodup, recent, List.take_take, Nat.min_self]
  | cons key newer ih =>
    simp only [List.cons_append, recent, distinct] at ih ⊢
    cases cap with
    | zero => simp
    | succ cap =>
      rw [List.take_succ_cons, List.take_succ_cons, take_filter_ne (nodup_distinct _),
        ih, ← take_filter_ne (nodup_distinct _)]

theorem keys_put (cache : LruCache κ α) (key : κ) (value : α) :
    (cache.put key value).keys = recent cache.cap (key :: cache.keys) := by
  have others : (without key cache.entries).map Prod.fst =
      cache.keys.filter fun other => decide (other ≠ key) := by
    unfold without keys
    rw [List.filter_map]
    rfl
  have nodup : cache.keys.Nodup := cache.nodup_keys
  rw [recent, distinct, distinct_of_nodup nodup, ← others]
  simp only [keys, put, List.map_take, List.map_cons]

omit [DecidableEq κ] in
theorem keys_resize (cache : LruCache κ α) (cap : Nat) :
    (cache.resize cap).keys = cache.keys.take cap := by
  simp only [keys, resize, List.map_take]

theorem recent_keys (cache : LruCache κ α) (cap : Nat) :
    recent cap cache.keys = cache.keys.take cap := by
  rw [recent, keys, distinct_of_nodup cache.nodup_keys]

/-- A key is found exactly when it is among the keys. -/
theorem isSome_peek_iff (cache : LruCache κ α) (key : κ) :
    (cache.peek key).isSome = true ↔ key ∈ cache.keys := by
  unfold peek keys
  induction cache.entries with
  | nil => simp
  | cons entry rest ih =>
    obtain ⟨found, value⟩ := entry
    rw [List.lookup_cons]
    by_cases same : key = found
    · simp [same]
    · simp only [beq_eq_false_iff_ne.2 same, ih, List.map_cons, List.mem_cons, same, false_or]

/-! ### The entries of a cache -/

theorem peek_eq_some_iff (cache : LruCache κ α) (key : κ) (value : α) :
    cache.peek key = some value ↔ (key, value) ∈ cache.entries := by
  have nodup := cache.nodup_keys
  unfold peek
  generalize cache.entries = entries at nodup ⊢
  induction entries with
  | nil => simp
  | cons entry rest ih =>
    obtain ⟨found, other⟩ := entry
    rw [List.map_cons, List.nodup_cons] at nodup
    rw [List.lookup_cons, List.mem_cons]
    by_cases same : key = found
    · subst same
      -- Under this key there is no second entry.
      have single : (key, value) ∉ rest := fun member =>
        nodup.1 (List.mem_map.2 ⟨(key, value), member, rfl⟩)
      simp [single, eq_comm]
    · simp only [beq_eq_false_iff_ne.2 same, Prod.mk.injEq, same, false_and, false_or]
      exact ih nodup.2

theorem mem_put {cache : LruCache κ α} {key : κ} {value : α} {entry : κ × α}
    (member : entry ∈ (cache.put key value).entries) :
    entry = (key, value) ∨ entry ∈ cache.entries := by
  rcases List.mem_cons.1 (List.mem_of_mem_take member) with new | old
  · exact .inl new
  · exact .inr (List.mem_of_mem_filter old)

/-- Looking a key up changes the order of the entries only. -/
theorem mem_get {cache : LruCache κ α} {key : κ} {entry : κ × α}
    (member : entry ∈ (cache.get key).2.entries) : entry ∈ cache.entries := by
  unfold get at member
  split at member
  · exact member
  next value found =>
    rcases mem_put member with same | old
    · rw [same]
      exact (cache.peek_eq_some_iff key value).1 found
    · exact old

theorem get_fst (cache : LruCache κ α) (key : κ) : (cache.get key).1 = cache.peek key := by
  unfold get
  split
  next absent => exact absent.symm
  next value found => exact found.symm

theorem get_snd_of_none {cache : LruCache κ α} {key : κ} (absent : cache.peek key = none) :
    (cache.get key).2 = cache := by
  simp only [get, absent]

theorem mem_pop {cache : LruCache κ α} {key : κ} {entry : κ × α}
    (member : entry ∈ (cache.pop key).entries) : entry ∈ cache.entries :=
  List.mem_of_mem_filter member

/-! ### Recently used entries -/

/-- The value is under the key, and only entries under the given keys are more recent. -/
def Keeps (cache : LruCache κ α) (key : κ) (value : α) (newer : Finset κ) : Prop :=
  ∃ front back, cache.entries = front ++ (key, value) :: back ∧ ∀ entry ∈ front, entry.1 ∈ newer

theorem keeps_put_self {cache : LruCache κ α} (room : 0 < cache.cap) (key : κ) (value : α) :
    (cache.put key value).Keeps key value ∅ := by
  obtain ⟨cap, same⟩ : ∃ cap, cache.cap = cap + 1 := ⟨cache.cap - 1, by omega⟩
  refine ⟨[], (without key cache.entries).take cap, ?_, ?_⟩
  · simp only [put, same, List.take_succ_cons, List.nil_append]
  · intro entry member
    cases member

theorem exists_keeps_of_mem {cache : LruCache κ α} {key : κ} {value : α}
    (member : (key, value) ∈ cache.entries) : ∃ newer, cache.Keeps key value newer := by
  obtain ⟨front, back, split⟩ := List.append_of_mem member
  refine ⟨(front.map Prod.fst).toFinset, front, back, split, ?_⟩
  intro entry listed
  exact List.mem_toFinset.2 (List.mem_map_of_mem listed)

namespace Keeps

variable {cache : LruCache κ α} {key other : κ} {value : α} {newer : Finset κ}

theorem peek (keeps : cache.Keeps key value newer) : cache.peek key = some value := by
  obtain ⟨front, back, split, -⟩ := keeps
  rw [peek_eq_some_iff, split]
  simp

omit [DecidableEq κ] in
theorem mono {wider : Finset κ} (keeps : cache.Keeps key value newer) (subset : newer ⊆ wider) :
    cache.Keeps key value wider := by
  obtain ⟨front, back, split, known⟩ := keeps
  exact ⟨front, back, split, fun entry member => subset (known entry member)⟩

theorem pop (keeps : cache.Keeps key value newer) (differ : key ≠ other) :
    (cache.pop other).Keeps key value newer := by
  obtain ⟨front, back, split, known⟩ := keeps
  refine ⟨without other front, without other back, ?_, ?_⟩
  · simp [LruCache.pop, without, split, differ]
  · intro entry member
    exact known entry (List.mem_of_mem_filter member)

/-- An entry survives an insertion as long as fewer keys than the capacity are more recent. -/
theorem put (keeps : cache.Keeps key value newer) (differ : key ≠ other) (listed : other ∈ newer)
    (fits : newer.card < cache.cap) (inserted : α) :
    (cache.put other inserted).Keeps key value newer := by
  obtain ⟨front, back, split, known⟩ := keeps.pop differ
  have popped : without other cache.entries = front ++ (key, value) :: back := split
  -- The keys in front are distinct and among the newer ones.
  have nodup : (((other, inserted) :: front).map Prod.fst).Nodup := by
    have whole := nodup_cons_without cache.nodup_keys other inserted
    rw [popped, ← List.cons_append, List.map_append] at whole
    exact whole.of_append_left
  have among : ∀ entry ∈ (other, inserted) :: front, entry.1 ∈ newer := by
    intro entry member
    rcases List.mem_cons.1 member with rfl | later
    · exact listed
    · exact known entry later
  have short : ((other, inserted) :: front).length < cache.cap := by
    have card : (((other, inserted) :: front).map Prod.fst).toFinset.card ≤ newer.card := by
      apply Finset.card_le_card
      intro found member
      obtain ⟨entry, there, rfl⟩ := List.mem_map.1 (List.mem_toFinset.1 member)
      exact among entry there
    rw [List.toFinset_card_of_nodup nodup, List.length_map] at card
    omega
  refine ⟨(other, inserted) :: front,
    back.take (cache.cap - ((other, inserted) :: front).length - 1), ?_, among⟩
  obtain ⟨rest, room⟩ : ∃ rest, cache.cap - ((other, inserted) :: front).length = rest + 1 :=
    ⟨cache.cap - ((other, inserted) :: front).length - 1, by omega⟩
  simp only [LruCache.put, popped]
  rw [← List.cons_append, List.take_append, List.take_of_length_le (Nat.le_of_lt short), room,
    List.take_succ_cons, Nat.add_sub_cancel]

theorem get (keeps : cache.Keeps key value newer) (differ : key ≠ other) (listed : other ∈ newer)
    (fits : newer.card < cache.cap) : (cache.get other).2.Keeps key value newer := by
  unfold LruCache.get
  split
  · exact keeps
  next found _ => exact keeps.put differ listed fits found

/-- A lookup of the entry makes it the most recent one. -/
theorem get_self (keeps : cache.Keeps key value newer) (room : 0 < cache.cap) :
    ∃ next, cache.get key = (some value, next) ∧ next.Keeps key value ∅ := by
  refine ⟨cache.put key value, ?_, keeps_put_self room key value⟩
  simp only [LruCache.get, keeps.peek]

end Keeps

@[simp] theorem get_cap (cache : LruCache κ α) (key : κ) : (cache.get key).2.cap = cache.cap := by
  unfold get
  split <;> rfl

@[simp] theorem pop_cap (cache : LruCache κ α) (key : κ) : (cache.pop key).cap = cache.cap := rfl

end LruCache

end Foundation
