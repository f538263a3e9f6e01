import Metering.Record
import Metering.Config

/-!
# Cache

A bounded cache with two keyspaces, one for entitlements by user and one for usage records by
their key.  An entry is served until it expires; when a keyspace is full, a new key takes the
place of the entry that was used longest ago.  Writing and serving an entry both count as use, and
among entries used at the same instant the one written first goes first.
-/

namespace Metering

/-- One cached value. -/
structure CacheEntry (α : Type) where
  value : α
  expiresAt : Instant
  lastUse : Instant
  /-- Its number among the writes of the keyspace. -/
  serial : Nat
  deriving DecidableEq, Repr

/-- One side of the cache.  Without a capacity it is unbounded. -/
structure CacheSpace (α : Type) where
  entries : Table (CacheEntry α)
  capacity : Nat
  nextSerial : Nat
  deriving DecidableEq, Repr

namespace CacheSpace

variable {α : Type}

def empty (capacity : Nat) : CacheSpace α := ⟨.empty, capacity, 0⟩

/-- Serves a value that has not expired; an expired entry is dropped. -/
def get (s : CacheSpace α) (key : String) (now : Instant) : Option α × CacheSpace α :=
  match s.entries.get? key with
  | none => (none, s)
  | some entry =>
      if entry.expiresAt ≤ now then (none, { s with entries := s.entries.erase key })
      else
        (some entry.value,
          { s with entries := s.entries.insert key { entry with lastUse := now } })

/-- The first entry goes before the second one. -/
def goesBefore (a b : CacheEntry α) : Bool :=
  a.lastUse < b.lastUse || (a.lastUse = b.lastUse && a.serial < b.serial)

/-- The key of the entry that was used longest ago. -/
def oldest? : List (String × CacheEntry α) → Option (String × CacheEntry α)
  | [] => none
  | e :: rest =>
      match oldest? rest with
      | none => some e
      | some f => if goesBefore f.2 e.2 then some f else some e

/-- Drops entries until there is room for one more; at most so many as the bound says. -/
def makeRoom (s : CacheSpace α) : Nat → CacheSpace α
  | 0 => s
  | bound + 1 =>
      if s.entries.size < s.capacity then s
      else
        match oldest? s.entries.toList with
        | none => s
        | some (key, _) => makeRoom { s with entries := s.entries.erase key } bound

/-- Writes a value that lives for some time. -/
def set (s : CacheSpace α) (key : String) (value : α) (ttl : Duration) (now : Instant) :
    CacheSpace α :=
  let room :=
    if s.entries.contains key || s.capacity = 0 then s else s.makeRoom s.entries.size
  let entry : CacheEntry α := ⟨value, now.addToLatest ttl.span, now, room.nextSerial⟩
  { room with entries := room.entries.insert key entry, nextSerial := room.nextSerial + 1 }

/-- How many entries writing a key drops. -/
def evictions (s : CacheSpace α) (key : String) : Nat :=
  if s.entries.contains key || s.capacity = 0 then 0
  else s.entries.size - (s.makeRoom s.entries.size).entries.size

def invalidate (s : CacheSpace α) (key : String) : CacheSpace α :=
  { s with entries := s.entries.erase key }

def clear (s : CacheSpace α) : CacheSpace α := { s with entries := .empty }

end CacheSpace

/-- The state of a working cache. -/
structure CacheState where
  entitlements : CacheSpace Entitlement
  usages : CacheSpace Usage
  hits : Nat
  misses : Nat
  evicted : Nat
  deriving DecidableEq, Repr

/-- A cache, or the absence of one. -/
inductive Cache where
  | absent
  | present (state : CacheState)
  deriving DecidableEq, Repr

/-- What a cache has done so far and what it holds. -/
structure CacheStats where
  hits : Nat
  misses : Nat
  evicted : Nat
  entitlements : Nat
  usages : Nat
  deriving DecidableEq, Repr

namespace Cache

def withCapacities (entitlements usages : Nat) : Cache :=
  .present ⟨.empty entitlements, .empty usages, 0, 0, 0⟩

/-- The cache of a configuration. -/
def ofSettings (s : CacheSettings) : Cache :=
  if s.enabled then withCapacities s.entitlementCapacity s.usageCapacity else .absent

/-- Counts a hit or a miss. -/
def counted (state : CacheState) (hit : Bool) : CacheState :=
  if hit then { state with hits := state.hits + 1 } else { state with misses := state.misses + 1 }

def getEntitlement (c : Cache) (user : String) (now : Instant) : Option Entitlement × Cache :=
  match c with
  | .absent => (none, .absent)
  | .present state =>
      let (found, entitlements) := state.entitlements.get user now
      (found, .present { counted state found.isSome with entitlements })

def setEntitlement (c : Cache) (e : Entitlement) (ttl : Duration) (now : Instant) : Cache :=
  match c with
  | .absent => .absent
  | .present state =>
      .present { state with
        entitlements := state.entitlements.set e.user e ttl now
        evicted := state.evicted + state.entitlements.evictions e.user }

def invalidateEntitlement (c : Cache) (user : String) : Cache :=
  match c with
  | .absent => .absent
  | .present state =>
      .present { state with entitlements := state.entitlements.invalidate user }

def getUsage (c : Cache) (key : String) (now : Instant) : Option Usage × Cache :=
  match c with
  | .absent => (none, .absent)
  | .present state =>
      let (found, usages) := state.usages.get key now
      (found, .present { counted state found.isSome with usages })

def setUsage (c : Cache) (key : String) (u : Usage) (ttl : Duration) (now : Instant) : Cache :=
  match c with
  | .absent => .absent
  | .present state =>
      .present { state with
        usages := state.usages.set key u ttl now
        evicted := state.evicted + state.usages.evictions key }

def invalidateUsage (c : Cache) (key : String) : Cache :=
  match c with
  | .absent => .absent
  | .present state => .present { state with usages := state.usages.invalidate key }

def clear (c : Cache) : Cache :=
  match c with
  | .absent => .absent
  | .present state =>
      .present { state with
        entitlements := state.entitlements.clear
        usages := state.usages.clear }

def stats : Cache → CacheStats
  | .absent => ⟨0, 0, 0, 0, 0⟩
  | .present s => ⟨s.hits, s.misses, s.evicted, s.entitlements.entries.size, s.usages.entries.size⟩

end Cache

/-- The share of requests that the cache served; zero before the first one. -/
def CacheStats.hitRate (s : CacheStats) : Binary64 :=
  if s.hits + s.misses = 0 then Binary64.zero
  else Binary64.ofInt s.hits / Binary64.ofInt ((s.hits : Int) + s.misses)

end Metering
