import Hpsvm.Account
import Hpsvm.Foundation.Interleaving
import Hpsvm.Foundation.LruCache

/-!
# Forked accounts

The account source of `fork.rs`, which reads accounts from an RPC endpoint through a bounded cache
with a time to live. Clones of a source share the cache and its counters, so calls of `get_account`
from any number of threads interleave: the mutex of the cache is held for one lookup or one
insertion, and not while a request is under way. Times are nanoseconds of one monotonic clock.

What the endpoint answers may change from one moment to the next. The slot of the source is stored
and reported, but no request carries it.
-/

namespace Hpsvm

open Foundation

def defaultMaxCapacity : Nat := 10000

/-- One hour. -/
def defaultTtl : Nat := 3600 * 10 ^ 9

structure CachedAccount where
  fetchedAt : Nat
  account : AccountSharedData
deriving DecidableEq, Repr

structure AccountCache where
  entries : LruCache Address CachedAccount
  ttl : Nat

namespace AccountCache

def new (maxCapacity ttl : Nat) : AccountCache := ⟨.empty maxCapacity, ttl⟩

/-- A lookup refreshes the age of what it finds in the order of eviction, but not in time; what is
too old is removed. -/
def get (cache : AccountCache) (now : Nat) (pubkey : Address) :
    Option AccountSharedData × AccountCache :=
  match cache.entries.get pubkey with
  | (none, entries) => (none, { cache with entries := entries })
  | (some entry, entries) =>
    if cache.ttl ≤ now - entry.fetchedAt then (none, { cache with entries := entries.pop pubkey })
    else (some entry.account, { cache with entries := entries })

def insert (cache : AccountCache) (now : Nat) (pubkey : Address) (account : AccountSharedData) :
    AccountCache :=
  { cache with entries := cache.entries.put pubkey ⟨now, account⟩ }

def len (cache : AccountCache) : Nat := cache.entries.entries.length

end AccountCache

/-- `RpcForkSource`: what its clones share. -/
structure RpcForkSource where
  slot : Nat
  cache : AccountCache
  cacheHits : UInt64
  cacheMisses : UInt64

namespace RpcForkSource

def withCache (source : RpcForkSource) (cache : AccountCache) : RpcForkSource :=
  { source with cache := cache }

/-- `fetch_add` on `cache_hits`. -/
def countHit (source : RpcForkSource) : RpcForkSource :=
  { source with cacheHits := source.cacheHits + 1 }

def countMiss (source : RpcForkSource) : RpcForkSource :=
  { source with cacheMisses := source.cacheMisses + 1 }

end RpcForkSource

structure RpcForkSourceBuilder where
  slot : Option Nat := none
  maxCapacity : Option Nat := none
  ttl : Option Nat := none
deriving DecidableEq, Repr

/-- `build`. A capacity of zero is clamped to one. -/
def RpcForkSourceBuilder.build (builder : RpcForkSourceBuilder) : RpcForkSource where
  slot := builder.slot.getD 0
  cache := .new (max 1 (builder.maxCapacity.getD defaultMaxCapacity)) (builder.ttl.getD defaultTtl)
  cacheHits := 0
  cacheMisses := 0

/-- What the endpoint answers at a time: an account, its absence, or the text of an error. -/
abbrev Endpoint := Nat → Address → Except String (Option AccountSharedData)

/-- `fetch_account`, for an answer of the endpoint. -/
def fetchedAccount :
    Except String (Option AccountSharedData) → Except AccountSourceError (Option AccountSharedData)
  | .error message => .error (.new message)
  | .ok account => .ok account

/-! ### Calls -/

/-- Where a call of `get_account` is, with the time it began. An answer under way is kept with the
time the endpoint gave it, which the call does not know. -/
inductive ForkPhase
  | entered (pubkey : Address) (since : Nat)
  | hit (pubkey : Address) (since : Nat) (account : AccountSharedData)
  | missed (pubkey : Address) (since : Nat)
  | fetching (pubkey : Address) (since : Nat)
  | fetched (pubkey : Address) (since asOf : Nat)
      (answer : Except String (Option AccountSharedData))
  | returned (pubkey : Address) (since : Nat) (fromCache : Bool)
      (answer : Except AccountSourceError (Option AccountSharedData))

/-- The source, the clock, and the longest time so far from an answer of the endpoint to its
insertion into the cache. -/
structure ForkState where
  source : RpcForkSource
  now : Nat
  slowest : Nat

/-- A request to the endpoint. -/
structure ForkRequest where
  pubkey : Address
deriving DecidableEq, Repr

namespace RpcForkSource

/-- `get_account`, one operation on what is shared at a time. The choice is how long the call waits
before the operation. -/
def getAccount (endpoint : Endpoint) :
    Interleaving.Program ForkPhase Nat ForkState ForkRequest
  | .entered pubkey since, elapsed, state =>
    match state.source.cache.get (state.now + elapsed) pubkey with
    | (some account, cache) =>
      some (.hit pubkey since account,
        ⟨state.source.withCache cache, state.now + elapsed, state.slowest⟩, [])
    | (none, cache) =>
      some (.missed pubkey since,
        ⟨state.source.withCache cache, state.now + elapsed, state.slowest⟩, [])
  | .hit pubkey since account, elapsed, state =>
    some (.returned pubkey since true (.ok (some account)),
      ⟨state.source.countHit, state.now + elapsed, state.slowest⟩, [])
  | .missed pubkey since, elapsed, state =>
    some (.fetching pubkey since,
      ⟨state.source.countMiss, state.now + elapsed, state.slowest⟩, [⟨pubkey⟩])
  | .fetching pubkey since, elapsed, state =>
    some (.fetched pubkey since (state.now + elapsed) (endpoint (state.now + elapsed) pubkey),
      ⟨state.source, state.now + elapsed, state.slowest⟩, [])
  | .fetched pubkey since asOf (.ok (some account)), elapsed, state =>
    some (.returned pubkey since false (.ok (some account)),
      ⟨state.source.withCache (state.source.cache.insert (state.now + elapsed) pubkey account),
        state.now + elapsed, max state.slowest (state.now + elapsed - asOf)⟩, [])
  | .fetched pubkey since _ answer, elapsed, state =>
    some (.returned pubkey since false (fetchedAccount answer),
      ⟨state.source, state.now + elapsed, state.slowest⟩, [])
  | .returned _ _ _ _, _, _ => none

/-- A call begins at the present time. -/
def mayCall (phase : ForkPhase) (system : Interleaving.System ForkPhase ForkState ForkRequest) :
    Bool :=
  match phase with
  | .entered _ since => since = system.shared.now
  | _ => false

def step (endpoint : Endpoint) :
    Interleaving.Op ForkPhase Nat → Interleaving.System ForkPhase ForkState ForkRequest →
      Option (Interleaving.System ForkPhase ForkState ForkRequest) :=
  Interleaving.step (getAccount endpoint) mayCall

/-- A source nobody calls. -/
def idleSystem (source : RpcForkSource) (now : Nat) :
    Interleaving.System ForkPhase ForkState ForkRequest :=
  ⟨[], ⟨source, now, 0⟩, []⟩

end RpcForkSource

end Hpsvm
