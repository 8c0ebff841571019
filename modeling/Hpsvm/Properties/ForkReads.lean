import Hpsvm.Fork

/-!
# What a forked account source answers

An answer from the cache was given by the endpoint at most the time to live ago, counted from its
insertion; an answer may have been under way for a while when it is inserted, also behind a newer
one. Absence and errors are never answered from the cache.
-/

namespace Hpsvm

open Foundation
open Foundation.Interleaving (System Holds Logged step_cases)

/-! ### The cache -/

namespace AccountCache

theorem mem_get {cache : AccountCache} {now : Nat} {pubkey : Address}
    {entry : Address × CachedAccount}
    (member : entry ∈ (cache.get now pubkey).2.entries.entries) :
    entry ∈ cache.entries.entries := by
  have kept : ∀ other, other ∈ (cache.entries.get pubkey).2.entries → other ∈ cache.entries.entries :=
    fun other => LruCache.mem_get
  unfold get at member
  split at member
  next entries equal =>
    rw [equal] at kept
    exact kept entry member
  next found entries equal =>
    rw [equal] at kept
    split at member
    · exact kept entry (LruCache.mem_pop member)
    · exact kept entry member

/-- What a lookup answers is in the cache and young enough. -/
theorem get_eq_some {cache next : AccountCache} {now : Nat} {pubkey : Address}
    {account : AccountSharedData} (found : cache.get now pubkey = (some account, next)) :
    ∃ fetchedAt, (pubkey, ⟨fetchedAt, account⟩) ∈ cache.entries.entries ∧
      now - fetchedAt < cache.ttl := by
  unfold get at found
  split at found
  · cases found
  next entry entries equal =>
    split at found
    · cases found
    next young =>
      cases found
      have peeked : cache.entries.peek pubkey = some entry := by
        unfold LruCache.get at equal
        split at equal
        · cases equal
        next value there =>
          cases equal
          exact there
      exact ⟨entry.fetchedAt, (cache.entries.peek_eq_some_iff pubkey entry).1 peeked,
        Nat.lt_of_not_le young⟩

@[simp] theorem get_ttl (cache : AccountCache) (now : Nat) (pubkey : Address) :
    (cache.get now pubkey).2.ttl = cache.ttl := by
  unfold get
  split
  · rfl
  · split <;> rfl

@[simp] theorem get_cap (cache : AccountCache) (now : Nat) (pubkey : Address) :
    (cache.get now pubkey).2.entries.cap = cache.entries.cap := by
  have same := cache.entries.get_cap pubkey
  unfold get
  split
  next entries equal => rwa [equal] at same
  next entry entries equal =>
    rw [equal] at same
    split <;> exact same

end AccountCache

namespace RpcForkSource

variable {endpoint : Endpoint}

/-! ### One operation -/

/-- Everything an operation of a call can do. -/
inductive Took (endpoint : Endpoint) (elapsed : Nat) (state : ForkState) :
    ForkPhase → ForkPhase → ForkState → List ForkRequest → Prop
  | found {pubkey : Address} {since : Nat} {account : AccountSharedData} {cache : AccountCache}
      (there : state.source.cache.get (state.now + elapsed) pubkey = (some account, cache)) :
      Took endpoint elapsed state (.entered pubkey since) (.hit pubkey since account)
        ⟨state.source.withCache cache, state.now + elapsed, state.slowest⟩ []
  | absent {pubkey : Address} {since : Nat} {cache : AccountCache}
      (gone : state.source.cache.get (state.now + elapsed) pubkey = (none, cache)) :
      Took endpoint elapsed state (.entered pubkey since) (.missed pubkey since)
        ⟨state.source.withCache cache, state.now + elapsed, state.slowest⟩ []
  | countedHit {pubkey : Address} {since : Nat} {account : AccountSharedData} :
      Took endpoint elapsed state (.hit pubkey since account)
        (.returned pubkey since true (.ok (some account)))
        ⟨state.source.countHit, state.now + elapsed, state.slowest⟩ []
  | countedMiss {pubkey : Address} {since : Nat} :
      Took endpoint elapsed state (.missed pubkey since) (.fetching pubkey since)
        ⟨state.source.countMiss, state.now + elapsed, state.slowest⟩ [⟨pubkey⟩]
  | answered {pubkey : Address} {since : Nat} :
      Took endpoint elapsed state (.fetching pubkey since)
        (.fetched pubkey since (state.now + elapsed) (endpoint (state.now + elapsed) pubkey))
        ⟨state.source, state.now + elapsed, state.slowest⟩ []
  | inserted {pubkey : Address} {since asOf : Nat} {account : AccountSharedData} :
      Took endpoint elapsed state (.fetched pubkey since asOf (.ok (some account)))
        (.returned pubkey since false (.ok (some account)))
        ⟨state.source.withCache (state.source.cache.insert (state.now + elapsed) pubkey account),
          state.now + elapsed, max state.slowest (state.now + elapsed - asOf)⟩ []
  | passed {pubkey : Address} {since asOf : Nat}
      {answer : Except String (Option AccountSharedData)}
      (other : ∀ account, answer ≠ .ok (some account)) :
      Took endpoint elapsed state (.fetched pubkey since asOf answer)
        (.returned pubkey since false (fetchedAccount answer))
        ⟨state.source, state.now + elapsed, state.slowest⟩ []

theorem took_of_getAccount {elapsed : Nat} {state state' : ForkState} {phase phase' : ForkPhase}
    {labels : List ForkRequest}
    (ran : getAccount endpoint phase elapsed state = some (phase', state', labels)) :
    Took endpoint elapsed state phase phase' state' labels := by
  unfold getAccount at ran
  split at ran
  next pubkey since =>
    split at ran
    next account cache there =>
      cases ran
      exact .found there
    next cache gone =>
      cases ran
      exact .absent gone
  · cases ran
    exact .countedHit
  · cases ran
    exact .countedMiss
  · cases ran
    exact .answered
  · cases ran
    exact .inserted
  next other =>
    cases ran
    exact .passed other
  · cases ran

/-! ### The age of an answer -/

/-- The endpoint gave the answer during the call; or it gave the account before, no longer ago than
the time to live and the slowest insertion allow. -/
def Answered (endpoint : Endpoint) (ttl : Nat) (state : ForkState) (pubkey : Address) (since : Nat)
    (answer : Except AccountSourceError (Option AccountSharedData)) : Prop :=
  ∃ asOf ≤ state.now, answer = fetchedAccount (endpoint asOf pubkey) ∧
    (since ≤ asOf ∨
      (∃ account, answer = .ok (some account)) ∧ since < asOf + ttl + state.slowest)

/-- Every cached account was an answer of the endpoint when it was on its way to the cache. -/
structure CacheRecent (endpoint : Endpoint) (ttl : Nat) (state : ForkState) : Prop where
  ttl : state.source.cache.ttl = ttl
  entries : ∀ pubkey entry, (pubkey, entry) ∈ state.source.cache.entries.entries →
    ∃ asOf, endpoint asOf pubkey = .ok (some entry.account) ∧ asOf ≤ entry.fetchedAt ∧
      entry.fetchedAt ≤ asOf + state.slowest ∧ entry.fetchedAt ≤ state.now

/-- What a call knows by its phase. -/
def PhaseRecent (endpoint : Endpoint) (ttl : Nat) (state : ForkState) : ForkPhase → Prop
  | .entered _ since => since ≤ state.now
  | .hit pubkey since account => Answered endpoint ttl state pubkey since (.ok (some account))
  | .missed _ since => since ≤ state.now
  | .fetching _ since => since ≤ state.now
  | .fetched pubkey since asOf answer =>
    since ≤ asOf ∧ asOf ≤ state.now ∧ answer = endpoint asOf pubkey
  | .returned pubkey since _ answer => Answered endpoint ttl state pubkey since answer

/-- Time and the slowest insertion only grow. -/
theorem Answered.later {ttl : Nat} {state state' : ForkState} {pubkey : Address} {since : Nat}
    {answer : Except AccountSourceError (Option AccountSharedData)}
    (answered : Answered endpoint ttl state pubkey since answer) (now : state.now ≤ state'.now)
    (slowest : state.slowest ≤ state'.slowest) :
    Answered endpoint ttl state' pubkey since answer := by
  obtain ⟨asOf, past, given, young⟩ := answered
  refine ⟨asOf, Nat.le_trans past now, given, ?_⟩
  rcases young with during | ⟨found, young⟩
  · exact .inl during
  · exact .inr ⟨found, by omega⟩

theorem PhaseRecent.later {ttl : Nat} {state state' : ForkState} {phase : ForkPhase}
    (recent : PhaseRecent endpoint ttl state phase) (now : state.now ≤ state'.now)
    (slowest : state.slowest ≤ state'.slowest) : PhaseRecent endpoint ttl state' phase := by
  cases phase with
  | entered pubkey since => exact Nat.le_trans recent now
  | hit pubkey since account => exact Answered.later recent now slowest
  | missed pubkey since => exact Nat.le_trans recent now
  | fetching pubkey since => exact Nat.le_trans recent now
  | fetched pubkey since asOf answer =>
    exact ⟨recent.1, Nat.le_trans recent.2.1 now, recent.2.2⟩
  | returned pubkey since fromCache answer => exact Answered.later recent now slowest

/-- Entries that were there before stay recent. -/
theorem CacheRecent.later {ttl : Nat} {state state' : ForkState}
    (recent : CacheRecent endpoint ttl state) (now : state.now ≤ state'.now)
    (slowest : state.slowest ≤ state'.slowest)
    (same : state'.source.cache.ttl = state.source.cache.ttl)
    (old : ∀ entry, entry ∈ state'.source.cache.entries.entries →
      entry ∈ state.source.cache.entries.entries) : CacheRecent endpoint ttl state' := by
  refine ⟨same.trans recent.ttl, ?_⟩
  intro pubkey entry member
  obtain ⟨asOf, given, before, after, past⟩ := recent.entries pubkey entry (old _ member)
  exact ⟨asOf, given, before, by omega, by omega⟩

/-- An account from the cache is an answer. -/
theorem CacheRecent.answered {ttl : Nat} {state : ForkState}
    (recent : CacheRecent endpoint ttl state) {now since : Nat} {pubkey : Address}
    {account : AccountSharedData} {cache : AccountCache}
    (found : state.source.cache.get now pubkey = (some account, cache)) (began : since ≤ state.now)
    (advance : state.now ≤ now) {state' : ForkState} (later : state'.now = now)
    (slowest : state'.slowest = state.slowest) :
    Answered endpoint ttl state' pubkey since (.ok (some account)) := by
  obtain ⟨fetchedAt, member, young⟩ := AccountCache.get_eq_some found
  obtain ⟨asOf, given, before, after, past⟩ := recent.entries _ _ member
  rw [recent.ttl] at young
  simp only at given before after past
  refine ⟨asOf, by omega, by rw [given]; rfl, .inr ⟨⟨account, rfl⟩, by omega⟩⟩

/-- Whatever an operation does, the clock goes on and the slowest insertion does not shrink. -/
theorem Took.clock {elapsed : Nat} {state state' : ForkState} {phase phase' : ForkPhase}
    {labels : List ForkRequest} (took : Took endpoint elapsed state phase phase' state' labels) :
    state'.now = state.now + elapsed ∧ state.slowest ≤ state'.slowest := by
  cases took with
  | inserted => exact ⟨rfl, Nat.le_max_left _ _⟩
  | _ => exact ⟨rfl, Nat.le_refl _⟩

theorem Took.cacheRecent {ttl elapsed : Nat} {state state' : ForkState} {phase phase' : ForkPhase}
    {labels : List ForkRequest} (took : Took endpoint elapsed state phase phase' state' labels)
    (cached : CacheRecent endpoint ttl state) (recent : PhaseRecent endpoint ttl state phase) :
    CacheRecent endpoint ttl state' := by
  have later : state.now ≤ state'.now := by
    rw [took.clock.1]
    exact Nat.le_add_right _ _
  have slower := took.clock.2
  cases took with
  | @found pubkey _ _ _ there =>
    have same := state.source.cache.get_ttl (state.now + elapsed) pubkey
    rw [there] at same
    refine cached.later later slower same ?_
    intro entry member
    exact AccountCache.mem_get (by rw [there]; exact member)
  | @absent pubkey _ _ gone =>
    have same := state.source.cache.get_ttl (state.now + elapsed) pubkey
    rw [gone] at same
    refine cached.later later slower same ?_
    intro entry member
    exact AccountCache.mem_get (by rw [gone]; exact member)
  | @inserted pubkey since asOf account =>
    obtain ⟨_, past, given⟩ := recent
    refine ⟨cached.ttl, ?_⟩
    intro other entry member
    rcases LruCache.mem_put member with new | old
    · -- The entry counts from its insertion, the answer is as old as its way here was long.
      cases new
      refine ⟨asOf, given.symm, ?_, ?_, Nat.le_refl _⟩
      · exact Nat.le_trans past later
      · have lag := Nat.le_max_right state.slowest (state.now + elapsed - asOf)
        simp only
        omega
    · obtain ⟨time, answered, before, after, known⟩ := cached.entries other entry old
      exact ⟨time, answered, before, Nat.le_trans after (Nat.add_le_add_left slower time),
        Nat.le_trans known later⟩
  | _ => exact cached.later later slower rfl fun _ member => member

theorem Took.phaseRecent {ttl elapsed : Nat} {state state' : ForkState} {phase phase' : ForkPhase}
    {labels : List ForkRequest} (took : Took endpoint elapsed state phase phase' state' labels)
    (cached : CacheRecent endpoint ttl state) (recent : PhaseRecent endpoint ttl state phase) :
    PhaseRecent endpoint ttl state' phase' := by
  have advance : state.now ≤ state.now + elapsed := Nat.le_add_right _ _
  cases took with
  | found there => exact cached.answered there recent advance rfl rfl
  | absent gone => exact Nat.le_trans recent advance
  | countedHit => exact Answered.later recent advance (Nat.le_refl _)
  | countedMiss => exact Nat.le_trans recent advance
  | answered => exact ⟨Nat.le_trans recent advance, Nat.le_refl _, rfl⟩
  | @inserted pubkey since asOf account =>
    obtain ⟨during, past, given⟩ := recent
    exact ⟨asOf, Nat.le_trans past advance, by rw [← given]; rfl, .inl during⟩
  | @passed pubkey since asOf answer =>
    obtain ⟨during, past, given⟩ := recent
    exact ⟨asOf, Nat.le_trans past advance, by rw [← given], .inl during⟩

theorem holds_step (endpoint : Endpoint) (ttl : Nat) (op : Interleaving.Op ForkPhase Nat)
    (system next : System ForkPhase ForkState ForkRequest)
    (holds : Holds (fun state _ => CacheRecent endpoint ttl state)
      (fun state _ => PhaseRecent endpoint ttl state) system)
    (taken : step endpoint op system = some next) :
    Holds (fun state _ => CacheRecent endpoint ttl state)
      (fun state _ => PhaseRecent endpoint ttl state) next := by
  refine Holds.step ?_ ?_ op system next holds taken
  · intro phase system allowed
    cases phase with
    | entered pubkey since =>
      have same : since = system.shared.now := by simpa [mayCall] using allowed
      exact Nat.le_of_eq same
    | _ => cases allowed
  · intro process phase elapsed state log phase' state' labels cached recent ran
    have took := took_of_getAccount ran
    have later : state.now ≤ state'.now := by
      rw [took.clock.1]
      exact Nat.le_add_right _ _
    exact ⟨took.cacheRecent cached recent, took.phaseRecent cached recent,
      fun other known => known.later later took.clock.2⟩

theorem holds_run {builder : RpcForkSourceBuilder} {start : Nat}
    {ops : List (Interleaving.Op ForkPhase Nat)} {reached : System ForkPhase ForkState ForkRequest}
    (ran : Runs.run (step endpoint) ops (builder.build.idleSystem start) = some reached) :
    Holds (fun state _ => CacheRecent endpoint (builder.ttl.getD defaultTtl) state)
      (fun state _ => PhaseRecent endpoint (builder.ttl.getD defaultTtl) state) reached := by
  refine Runs.invariant_run _ (holds_step endpoint _) ⟨⟨rfl, ?_⟩, ?_⟩ ran
  · intro pubkey entry member
    cases member
  · intro phase member
    cases member

/-- However calls interleave and however the accounts behind the endpoint change meanwhile, a call
answers what the endpoint answered at some time: during the call, or for an account that exists, less
than the time to live before the call, plus the longest time an answer took into the cache. -/
theorem reads_are_recent (endpoint : Endpoint) (builder : RpcForkSourceBuilder) (start : Nat)
    (ops : List (Interleaving.Op ForkPhase Nat))
    (reached : System ForkPhase ForkState ForkRequest)
    (ran : Runs.run (step endpoint) ops (builder.build.idleSystem start) = some reached)
    (process : Nat) (pubkey : Address) (since : Nat) (fromCache : Bool)
    (answer : Except AccountSourceError (Option AccountSharedData))
    (returned : reached.phases[process]? = some (.returned pubkey since fromCache answer)) :
    ∃ asOf ≤ reached.shared.now, answer = fetchedAccount (endpoint asOf pubkey) ∧
      (since ≤ asOf ∨ (∃ account, answer = .ok (some account)) ∧
        since < asOf + builder.ttl.getD defaultTtl + reached.shared.slowest) := by
  exact (holds_run ran).phases _ (List.mem_of_getElem? returned)

end RpcForkSource

namespace Sample

/-- An account with one lamport until time 5 and with two from then on; no other key has one. -/
def growingAccount : Endpoint := fun time pubkey =>
  .ok (if pubkey = 7 then
    some { AccountSharedData.default with lamports := if time < 5 then 1 else 2 } else none)

/-- Room for two accounts, which live for ten. -/
def smallFork : RpcForkSourceBuilder := ⟨none, some 2, some 10⟩

/-- The system a run ends in. -/
def forkedAfter (ops : List (Interleaving.Op ForkPhase Nat)) :
    System ForkPhase ForkState ForkRequest :=
  (Runs.run (RpcForkSource.step growingAccount) ops (smallFork.build.idleSystem 0)).getD
    (smallFork.build.idleSystem 0)

/-- A call fetches the account at time 2 and inserts it at time 3. -/
def firstRead : List (Interleaving.Op ForkPhase Nat) :=
  [.start (.entered 7 0), .move 0 0, .move 0 1, .move 0 1, .move 0 1]

/-- A second call asks at time 6, when the account has changed, and is answered from the cache. -/
def staleRead : List (Interleaving.Op ForkPhase Nat) :=
  firstRead ++ [.start (.entered 7 3), .move 1 3, .move 1 0]

theorem staleRead_recent :
    ∃ asOf ≤ 6, Except.ok (some { AccountSharedData.default with lamports := 1 }) =
        fetchedAccount (growingAccount asOf 7) ∧
      (3 ≤ asOf ∨ (∃ account, Except.ok (some { AccountSharedData.default with lamports := 1 }) =
          (Except.ok (some account) : Except AccountSourceError (Option AccountSharedData))) ∧
        3 < asOf + 10 + (forkedAfter staleRead).shared.slowest) :=
  RpcForkSource.reads_are_recent growingAccount smallFork 0 staleRead (forkedAfter staleRead) rfl
    1 7 3 true _ rfl

end Sample

/-! ### Hits, misses and requests -/

namespace ForkPhase

/-- The calls answered from the cache. -/
def answeredHit : ForkPhase → Nat
  | .returned _ _ true _ => 1
  | _ => 0

/-- The requests a call has made. -/
def requests : ForkPhase → List ForkRequest
  | .fetching pubkey _ => [⟨pubkey⟩]
  | .fetched pubkey _ _ _ => [⟨pubkey⟩]
  | .returned pubkey _ false _ => [⟨pubkey⟩]
  | _ => []

def isReturned : ForkPhase → Bool
  | .returned _ _ _ _ => true
  | _ => false

theorem answeredHit_add_requests {phase : ForkPhase} (ended : phase.isReturned = true) :
    phase.answeredHit + phase.requests.length = 1 := by
  cases phase with
  | returned pubkey since fromCache answer => cases fromCache <;> rfl
  | _ => cases ended

end ForkPhase

namespace RpcForkSource

variable {endpoint : Endpoint}

/-- What an operation adds to the counters and to the requests. -/
theorem Took.counts {elapsed : Nat} {state state' : ForkState} {phase phase' : ForkPhase}
    {labels : List ForkRequest} (took : Took endpoint elapsed state phase phase' state' labels) :
    ∃ hits, phase'.answeredHit = phase.answeredHit + hits ∧
      phase'.requests = phase.requests ++ labels ∧
      state'.source.cacheHits = state.source.cacheHits + UInt64.ofNat hits ∧
      state'.source.cacheMisses = state.source.cacheMisses + UInt64.ofNat labels.length := by
  cases took with
  | countedHit => exact ⟨1, rfl, rfl, rfl, (UInt64.add_zero _).symm⟩
  | countedMiss => exact ⟨0, rfl, rfl, (UInt64.add_zero _).symm, rfl⟩
  | _ => exact ⟨0, rfl, rfl, (UInt64.add_zero _).symm, (UInt64.add_zero _).symm⟩

theorem Took.cap {elapsed : Nat} {state state' : ForkState} {phase phase' : ForkPhase}
    {labels : List ForkRequest} (took : Took endpoint elapsed state phase phase' state' labels) :
    state'.source.cache.entries.cap = state.source.cache.entries.cap := by
  cases took with
  | @found pubkey _ _ _ there =>
    have same := state.source.cache.get_cap (state.now + elapsed) pubkey
    rwa [there] at same
  | @absent pubkey _ _ gone =>
    have same := state.source.cache.get_cap (state.now + elapsed) pubkey
    rwa [gone] at same
  | _ => rfl

/-- The counters count the calls by what they did. -/
structure Counted (capacity : Nat) (system : System ForkPhase ForkState ForkRequest) : Prop where
  hits : system.shared.source.cacheHits = UInt64.ofNat (system.total ForkPhase.answeredHit)
  misses : system.shared.source.cacheMisses = UInt64.ofNat system.log.length
  sent : system.log.length = system.total fun phase => phase.requests.length
  logged : Logged ForkPhase.requests system
  cap : system.shared.source.cache.entries.cap = capacity

theorem counted_step (endpoint : Endpoint) (capacity : Nat) (op : Interleaving.Op ForkPhase Nat)
    (system next : System ForkPhase ForkState ForkRequest) (counted : Counted capacity system)
    (taken : step endpoint op system = some next) : Counted capacity next := by
  rcases step_cases taken with
    ⟨phase, allowed, rfl⟩ | ⟨process, phase, elapsed, phase', state, labels, found, ran, rfl⟩
  · -- A call that begins has done nothing yet.
    cases phase with
    | entered pubkey since =>
      refine ⟨?_, counted.misses, ?_, counted.logged.start rfl, counted.cap⟩
      · rw [Interleaving.total_start]
        exact counted.hits
      · rw [Interleaving.total_start]
        exact counted.sent
    | _ => cases allowed
  · have took := took_of_getAccount ran
    obtain ⟨hits, more, requests, counts, misses⟩ := took.counts
    refine ⟨?_, ?_, ?_, counted.logged.move found requests, took.cap.trans counted.cap⟩
    · have sum := Interleaving.total_move ForkPhase.answeredHit found phase' state
        (system.log ++ labels.map fun label => (process, label))
      have total : System.total ForkPhase.answeredHit (⟨system.phases.set process phase', state,
          system.log ++ labels.map fun label => (process, label)⟩ :
            System ForkPhase ForkState ForkRequest) =
          system.total ForkPhase.answeredHit + hits := by
        omega
      rw [total, UInt64.ofNat_add, ← counted.hits]
      exact counts
    · rw [List.length_append, List.length_map, UInt64.ofNat_add, ← counted.misses]
      exact misses
    · have sum := Interleaving.total_move (fun phase => phase.requests.length) found phase' state
        (system.log ++ labels.map fun label => (process, label))
      have sent := counted.sent
      simp only [requests, List.length_append] at sum
      simp only [List.length_append, List.length_map]
      omega

theorem counted_run {builder : RpcForkSourceBuilder} {start : Nat}
    {ops : List (Interleaving.Op ForkPhase Nat)} {reached : System ForkPhase ForkState ForkRequest}
    (ran : Runs.run (step endpoint) ops (builder.build.idleSystem start) = some reached) :
    Counted (max 1 (builder.maxCapacity.getD defaultMaxCapacity)) reached :=
  Runs.invariant_run (Counted (max 1 (builder.maxCapacity.getD defaultMaxCapacity)))
    (counted_step endpoint _) ⟨rfl, rfl, rfl, .empty _, rfl⟩ ran

/-- When no call is under way, `cache_hits` is the number of calls answered from the cache,
`cache_misses` the number of requests made, and every call is one or the other: a call makes one
request for its own key, or none. The cache stays within its capacity throughout. -/
theorem reads_are_counted (endpoint : Endpoint) (builder : RpcForkSourceBuilder) (start : Nat)
    (ops : List (Interleaving.Op ForkPhase Nat))
    (reached : System ForkPhase ForkState ForkRequest)
    (ran : Runs.run (step endpoint) ops (builder.build.idleSystem start) = some reached) :
    reached.shared.source.cache.len ≤ max 1 (builder.maxCapacity.getD defaultMaxCapacity) ∧
      (∀ process pubkey since fromCache answer,
        reached.phases[process]? = some (.returned pubkey since fromCache answer) →
          reached.labelsOf process = if fromCache then [] else [⟨pubkey⟩]) ∧
      ((∀ phase ∈ reached.phases, phase.isReturned = true) →
        reached.total ForkPhase.answeredHit + reached.log.length = reached.phases.length ∧
        reached.shared.source.cacheHits.toNat =
          reached.total ForkPhase.answeredHit % 2 ^ 64 ∧
        reached.shared.source.cacheMisses.toNat = reached.log.length % 2 ^ 64) := by
  have counted := counted_run ran
  refine ⟨?_, ?_, ?_⟩
  · have bound := reached.shared.source.cache.entries.length_le
    rwa [counted.cap] at bound
  · intro process pubkey since fromCache answer found
    rw [counted.logged.labels process _ found]
    cases fromCache <;> rfl
  · intro settled
    refine ⟨?_, ?_, ?_⟩
    · rw [counted.sent]
      unfold System.total
      rw [← List.sum_map_add, List.map_congr_left fun phase member =>
        ForkPhase.answeredHit_add_requests (settled phase member)]
      simp
    · rw [counted.hits, UInt64.toNat_ofNat']
    · rw [counted.misses, UInt64.toNat_ofNat']

end RpcForkSource

/-- One of the two calls made a request. -/
theorem Sample.staleRead_counted :
    (Sample.forkedAfter Sample.staleRead).shared.source.cacheHits.toNat = 1 ∧
      (Sample.forkedAfter Sample.staleRead).shared.source.cacheMisses.toNat = 1 := by
  obtain ⟨-, -, settled⟩ := RpcForkSource.reads_are_counted Sample.growingAccount Sample.smallFork 0
    Sample.staleRead (Sample.forkedAfter Sample.staleRead) rfl
  obtain ⟨-, hits, misses⟩ := settled (by decide)
  exact ⟨hits, misses⟩

/-! ### What stays in the cache -/

namespace AccountCache

variable {cache : AccountCache} {pubkey other : Address} {entry : CachedAccount}
  {newer : Finset Address}

theorem keeps_get (keeps : cache.entries.Keeps pubkey entry newer) (differ : pubkey ≠ other)
    (listed : other ∈ newer) (fits : newer.card < cache.entries.cap) (now : Nat) :
    (cache.get now other).2.entries.Keeps pubkey entry newer := by
  have kept := keeps.get differ listed fits
  unfold get
  split
  next entries equal => rwa [equal] at kept
  next found entries equal =>
    rw [equal] at kept
    split
    · exact kept.pop differ
    · exact kept

theorem get_of_keeps (keeps : cache.entries.Keeps pubkey entry newer)
    (room : 0 < cache.entries.cap) (now : Nat) (young : now - entry.fetchedAt < cache.ttl) :
    ∃ next, cache.get now pubkey = (some entry.account, next) ∧
      next.entries.Keeps pubkey entry ∅ := by
  obtain ⟨entries, found, kept⟩ := keeps.get_self room
  refine ⟨{ cache with entries := entries }, ?_, kept⟩
  unfold get
  rw [found]
  simp only [if_neg (Nat.not_le_of_lt young)]

end AccountCache

namespace ForkPhase

def pubkey : ForkPhase → Address
  | .entered pubkey _ => pubkey
  | .hit pubkey _ _ => pubkey
  | .missed pubkey _ => pubkey
  | .fetching pubkey _ => pubkey
  | .fetched pubkey _ _ _ => pubkey
  | .returned pubkey _ _ _ => pubkey

end ForkPhase

namespace RpcForkSource

theorem Took.pubkey {elapsed : Nat} {state state' : ForkState} {phase phase' : ForkPhase}
    {labels : List ForkRequest} (took : Took endpoint elapsed state phase phase' state' labels) :
    phase'.pubkey = phase.pubkey := by
  cases took <;> rfl

theorem Took.ttl {elapsed : Nat} {state state' : ForkState} {phase phase' : ForkPhase}
    {labels : List ForkRequest} (took : Took endpoint elapsed state phase phase' state' labels) :
    state'.source.cache.ttl = state.source.cache.ttl := by
  cases took with
  | @found pubkey _ _ _ there =>
    have same := state.source.cache.get_ttl (state.now + elapsed) pubkey
    rwa [there] at same
  | @absent pubkey _ _ gone =>
    have same := state.source.cache.get_ttl (state.now + elapsed) pubkey
    rwa [gone] at same
  | _ => rfl

/-- The key has an entry inserted at the given time or later, and only the given keys were used
since. -/
structure Kept (pubkey : Address) (fetchedAt : Nat) (others : Finset Address) (state : ForkState) :
    Prop where
  past : fetchedAt ≤ state.now
  entry : ∃ entry, fetchedAt ≤ entry.fetchedAt ∧
    state.source.cache.entries.Keeps pubkey entry others

/-- An operation of a call for this key, or for one of the others, leaves a young entry in place. -/
theorem Took.kept {pubkey : Address} {fetchedAt elapsed : Nat} {others : Finset Address}
    {state state' : ForkState} {phase phase' : ForkPhase} {labels : List ForkRequest}
    (took : Took endpoint elapsed state phase phase' state' labels)
    (kept : Kept pubkey fetchedAt others state)
    (listed : phase.pubkey ≠ pubkey → phase.pubkey ∈ others)
    (few : others.card < state.source.cache.entries.cap)
    (young : state'.now - fetchedAt < state.source.cache.ttl) :
    Kept pubkey fetchedAt others state' := by
  obtain ⟨past, entry, inserted, keeps⟩ := kept
  have later : fetchedAt ≤ state'.now := by
    rw [took.clock.1]
    omega
  have room := Nat.zero_lt_of_lt few
  refine ⟨later, ?_⟩
  -- A lookup of the key itself finds the entry, a lookup of another key passes it by.
  have looked : ∀ other, (other ≠ pubkey → other ∈ others) →
      (state.source.cache.get state'.now other).2.entries.Keeps pubkey entry others := by
    intro other known
    by_cases same : other = pubkey
    · subst same
      obtain ⟨next, found, front⟩ := AccountCache.get_of_keeps keeps room state'.now (by omega)
      rw [found]
      exact front.mono (Finset.empty_subset _)
    · exact AccountCache.keeps_get keeps (Ne.symm same) (known same) few state'.now
  cases took with
  | @found asked _ _ _ there =>
    have after := looked asked listed
    rw [there] at after
    exact ⟨entry, inserted, after⟩
  | @absent asked _ _ gone =>
    have after := looked asked listed
    rw [gone] at after
    exact ⟨entry, inserted, after⟩
  | @inserted asked _ _ account =>
    by_cases same : asked = pubkey
    · subst same
      exact ⟨⟨state.now + elapsed, account⟩, later,
        (LruCache.keeps_put_self room _ _).mono (Finset.empty_subset _)⟩
    · exact ⟨entry, inserted, keeps.put (Ne.symm same) (listed same) few _⟩
  | _ => exact ⟨entry, inserted, keeps⟩

theorem now_le_of_run {ops : List (Interleaving.Op ForkPhase Nat)}
    {system later : System ForkPhase ForkState ForkRequest}
    (ran : Runs.run (step endpoint) ops system = some later) :
    system.shared.now ≤ later.shared.now := by
  refine Runs.invariant_run (fun state => system.shared.now ≤ state.shared.now) ?_ (Nat.le_refl _) ran
  intro op state next before taken
  rcases step_cases taken with ⟨phase, _, rfl⟩ | ⟨_, _, elapsed, _, _, _, _, moved, rfl⟩
  · exact before
  · rw [(took_of_getAccount moved).clock.1]
    omega

/-- A call keeps its key, and one that has returned stays as it is. -/
theorem call_of_run {ops : List (Interleaving.Op ForkPhase Nat)}
    {system later : System ForkPhase ForkState ForkRequest}
    (ran : Runs.run (step endpoint) ops system = some later) {process : Nat} {phase : ForkPhase}
    (found : system.phases[process]? = some phase) :
    ∃ phase', later.phases[process]? = some phase' ∧ phase'.pubkey = phase.pubkey ∧
      (phase.isReturned = true → phase'.isReturned = true) := by
  refine Runs.invariant_run (fun state => ∃ phase', state.phases[process]? = some phase' ∧
    phase'.pubkey = phase.pubkey ∧ (phase.isReturned = true → phase'.isReturned = true)) ?_
    ⟨phase, found, rfl, id⟩ ran
  intro op state next before taken
  refine Interleaving.phase_kept ?_ taken before
  intro old elapsed shared moved ⟨same, ended⟩ ran
  refine ⟨(took_of_getAccount ran).pubkey.trans same, ?_⟩
  intro returned
  cases old with
  | returned => cases ran
  | _ => cases ended returned

/-- The calls under way in the earlier system, and those begun since, are for the key or for one of
the others. -/
def AskedSince (pubkey : Address) (others : Finset Address)
    (earlier later : System ForkPhase ForkState ForkRequest) : Prop :=
  ∀ (process : Nat) (phase : ForkPhase), later.phases[process]? = some phase →
    (∀ old, earlier.phases[process]? = some old → old.isReturned = false) →
    phase.pubkey ≠ pubkey → phase.pubkey ∈ others

theorem AskedSince.step {pubkey : Address} {others : Finset Address}
    {earlier next later : System ForkPhase ForkState ForkRequest}
    (asked : AskedSince pubkey others earlier later) {op : Interleaving.Op ForkPhase Nat}
    (taken : step endpoint op earlier = some next) : AskedSince pubkey others next later := by
  intro process phase found unfinished
  refine asked process phase found ?_
  intro old there
  have one : Runs.run (RpcForkSource.step endpoint) [op] earlier = some next := by
    simp [Runs.run, taken]
  obtain ⟨new, now, -, ended⟩ := call_of_run one there
  -- A call that had returned before would still have returned.
  by_contra returned
  have still := ended (Bool.eq_true_of_not_eq_false returned)
  rw [unfinished new now] at still
  cases still

/-- The entry is kept over a run in which all calls are for its key or for one of few others. -/
theorem kept_run {pubkey : Address} {fetchedAt : Nat} {others : Finset Address}
    {ops : List (Interleaving.Op ForkPhase Nat)}
    {system later : System ForkPhase ForkState ForkRequest}
    (ran : Runs.run (step endpoint) ops system = some later)
    (kept : Kept pubkey fetchedAt others system.shared)
    (asked : AskedSince pubkey others system later)
    (few : others.card < system.shared.source.cache.entries.cap)
    (young : later.shared.now - fetchedAt < system.shared.source.cache.ttl) :
    Kept pubkey fetchedAt others later.shared ∧
      later.shared.source.cache.entries.cap = system.shared.source.cache.entries.cap ∧
      later.shared.source.cache.ttl = system.shared.source.cache.ttl := by
  induction ops generalizing system with
  | nil =>
    cases ran
    exact ⟨kept, rfl, rfl⟩
  | cons op rest ih =>
    obtain ⟨next, taken, remaining⟩ := Option.bind_eq_some_iff.1 ran
    have asked' := asked.step taken
    rcases step_cases taken with
      ⟨phase, _, rfl⟩ | ⟨process, phase, elapsed, phase', state, labels, found, moved, rfl⟩
    · have last := ih remaining kept asked' few young
      exact last
    · have took := took_of_getAccount moved
      have live : phase.isReturned = false := by
        cases phase with
        | returned => cases moved
        | _ => rfl
      have listed : phase.pubkey ≠ pubkey → phase.pubkey ∈ others := by
        obtain ⟨last, there, same, -⟩ := call_of_run ran found
        rw [← same]
        apply asked process last there
        intro old equal
        rw [found] at equal
        cases equal
        exact live
      have soon : state.now - fetchedAt < system.shared.source.cache.ttl := by
        have clock := now_le_of_run remaining
        simp only at clock
        omega
      have after := took.kept kept listed few soon
      obtain ⟨last, cap, ttl⟩ := ih remaining after asked' (by rw [took.cap]; exact few)
        (by rw [took.ttl]; exact young)
      exact ⟨last, cap.trans took.cap, ttl.trans took.ttl⟩

/-- A call that has just found an account in the cache, or put it there, leaves it in front. -/
theorem Took.keeps_front {pubkey : Address} {since elapsed : Nat} {account : AccountSharedData}
    {state state' : ForkState} {phase phase' : ForkPhase} {labels : List ForkRequest}
    (took : Took endpoint elapsed state phase phase' state' labels)
    (room : 0 < state.source.cache.entries.cap)
    (touched : phase' = .hit pubkey since account ∨
      phase' = .returned pubkey since false (.ok (some account))) :
    ∃ fetchedAt, state'.source.cache.entries.Keeps pubkey ⟨fetchedAt, account⟩ ∅ := by
  cases took with
  | found there =>
    rcases touched with hit | ended
    · cases hit
      obtain ⟨fetchedAt, member, young⟩ := AccountCache.get_eq_some there
      obtain ⟨newer, keeps⟩ := LruCache.exists_keeps_of_mem member
      obtain ⟨cache, got, front⟩ := AccountCache.get_of_keeps keeps room _ young
      rw [there] at got
      cases got
      exact ⟨fetchedAt, front⟩
    · cases ended
  | inserted =>
    rcases touched with hit | ended
    · cases hit
    · cases ended
      exact ⟨_, LruCache.keeps_put_self room _ _⟩
  | @passed _ _ _ answer other =>
    rcases touched with hit | ended
    · cases hit
    · cases answer with
      | error message => cases ended
      | ok given =>
        cases ended
        exact absurd rfl (other account)
  | _ => rcases touched with hit | ended <;> cases ‹_ = _›

/-- Once a call has found an account in the cache or put it there, calls for the same key are answered
from the cache for the rest of its time to live, without a request, as long as the calls since then
are for fewer other keys than the cache has room for. -/
theorem recently_used_stays_cached (endpoint : Endpoint) (builder : RpcForkSourceBuilder)
    (start : Nat) (before ops : List (Interleaving.Op ForkPhase Nat)) (process elapsed : Nat)
    (reached next later : System ForkPhase ForkState ForkRequest)
    (ran : Runs.run (step endpoint) before (builder.build.idleSystem start) = some reached)
    (used : step endpoint (.move process elapsed) reached = some next)
    (pubkey : Address) (since : Nat) (account : AccountSharedData) (entry : CachedAccount)
    (touched : next.phases[process]? = some (.hit pubkey since account) ∨
      next.phases[process]? = some (.returned pubkey since false (.ok (some account))))
    (cached : next.shared.source.cache.entries.peek pubkey = some entry)
    (continued : Runs.run (step endpoint) ops next = some later) (others : Finset Address)
    (few : others.card < max 1 (builder.maxCapacity.getD defaultMaxCapacity))
    (asked : AskedSince pubkey others next later)
    (caller began waited : Nat) (calls : later.phases[caller]? = some (.entered pubkey began))
    (young : later.shared.now + waited - entry.fetchedAt < builder.ttl.getD defaultTtl) :
    entry.account = account ∧
      ∃ final served, step endpoint (.move caller waited) later = some final ∧
        final.phases[caller]? = some (.hit pubkey began served) ∧ final.log = later.log := by
  have reachable : Runs.run (step endpoint) (before ++ [.move process elapsed])
      (builder.build.idleSystem start) = some next := by
    simp [Runs.run_append, ran, Runs.run, used]
  -- The account is in front of the cache when the operation is done.
  obtain ⟨fetchedAt, front⟩ : ∃ fetchedAt,
      next.shared.source.cache.entries.Keeps pubkey ⟨fetchedAt, account⟩ ∅ := by
    obtain ⟨phase, found, moves⟩ := Option.bind_eq_some_iff.1 used
    obtain ⟨⟨phase', state, labels⟩, moved, rfl⟩ := Option.map_eq_some_iff.1 moves
    have inside : process < reached.phases.length := (List.getElem?_eq_some_iff.1 found).1
    simp only [List.getElem?_set_self inside, Option.some.injEq] at touched
    refine (took_of_getAccount moved).keeps_front ?_ touched
    rw [(counted_run ran).cap]
    exact Nat.lt_of_lt_of_le Nat.one_pos (Nat.le_max_left _ _)
  have same : entry = ⟨fetchedAt, account⟩ := by
    rw [front.peek] at cached
    cases cached
    rfl
  subst same
  refine ⟨rfl, ?_⟩
  have member := (LruCache.peek_eq_some_iff _ _ _).1 front.peek
  obtain ⟨-, -, -, -, past⟩ := (holds_run reachable).shared.entries _ _ member
  have ttl := (holds_run reachable).shared.ttl
  have cap := (counted_run reachable).cap
  obtain ⟨⟨-, last, recent, keeps⟩, lastCap, lastTtl⟩ :=
    kept_run continued ⟨past, _, Nat.le_refl _, front.mono (Finset.empty_subset others)⟩ asked
      (by rw [cap]; exact few) (by rw [ttl]; simp only at young ⊢; omega)
  obtain ⟨cache, got, -⟩ := AccountCache.get_of_keeps keeps
    (by rw [lastCap, cap]; exact Nat.zero_lt_of_lt few) (later.shared.now + waited)
    (by rw [lastTtl, ttl]; simp only at young recent; omega)
  have inside : caller < later.phases.length := (List.getElem?_eq_some_iff.1 calls).1
  refine ⟨⟨later.phases.set caller (.hit pubkey began last.account),
    ⟨later.shared.source.withCache cache, later.shared.now + waited, later.shared.slowest⟩,
    later.log⟩, last.account, ?_, List.getElem?_set_self inside, rfl⟩
  simp [step, Interleaving.step, calls, getAccount, got]

end RpcForkSource

/-- A call for a key without an account passes between the insertion and the second call. -/
theorem Sample.firstRead_stays_cached :
    ∃ final served, RpcForkSource.step Sample.growingAccount (.move 2 3)
        (Sample.forkedAfter (Sample.firstRead ++ [.start (.entered 8 3), .move 1 0,
          .start (.entered 7 3)])) = some final ∧
      final.phases[2]? = some (.hit 7 3 served) ∧
      final.log = [(0, ⟨7⟩)] := by
  have facts := RpcForkSource.recently_used_stays_cached Sample.growingAccount Sample.smallFork 0
    (Sample.firstRead.take 4) [.start (.entered 8 3), .move 1 0, .start (.entered 7 3)] 0 1
    (Sample.forkedAfter (Sample.firstRead.take 4)) (Sample.forkedAfter Sample.firstRead)
    (Sample.forkedAfter (Sample.firstRead ++ [.start (.entered 8 3), .move 1 0,
      .start (.entered 7 3)])) rfl rfl 7 0 { AccountSharedData.default with lamports := 1 }
    ⟨3, { AccountSharedData.default with lamports := 1 }⟩ (.inr rfl) rfl rfl {8} (by decide) ?_ 2 3 3
    rfl (by decide)
  · exact facts.2
  · intro process phase found _ differ
    match process, found with
    | 0, found => cases found; exact absurd rfl differ
    | 1, found => cases found; decide
    | 2, found => cases found; exact absurd rfl differ
    | _ + 3, found => cases found

end Hpsvm
