import GhostBridge.Ecma.Arrays
import GhostBridge.Ecma.Numeric
import GhostBridge.Ecma.OrderedMap
import GhostBridge.Ecma.Utf8
import Mathlib.Algebra.Order.Ring.Rat

/-!
# The bounded memory cache

`BoundedMemoryCacheAdapter` keeps entries in the order of their last use, the keys of each tag and
the bytes of all entries.
-/

namespace GhostBridge.DataAccess

open Ecma

variable {κ : Type} [DecidableEq κ]

def toRat (x : Finite64) : ℚ := x.signedUnits / (unitsPerOne : ℤ)

/-- `Math.max(low, Math.min(given, high))`; none is `NaN`. -/
def clampLimit (low high : ℕ) : Number → Option ℚ
  | .nan => none
  | .infinity negative => some (if negative then low else high)
  | .finite x => some (max (low : ℚ) (min (toRat x) high))

/-- `count > limit`, which is false for `NaN`. -/
def exceeds (count : ℤ) (limit : Option ℚ) : Bool := limit.any fun l : ℚ => decide (l < count)

structure CacheLimits where
  maximumEntries : Option ℚ
  maximumBytes : Option ℚ

/-- The numbers that `options.maximumEntries || 1_000` and
`options.maximumBytes || 32 * 1024 * 1024` convert to. -/
def cacheLimits (maximumEntries maximumBytes : Number) : CacheLimits where
  maximumEntries := clampLimit 1 100000 maximumEntries
  maximumBytes := clampLimit 1024 (256 * 1024 * 1024) maximumBytes

structure CacheEntry where
  value : Text
  expiresAt : Number
  staleUntil : Number
  bytes : ℕ
  tags : List Text
deriving DecidableEq

structure CacheLease where
  ownerToken : Text
  expiresAt : Number
deriving DecidableEq

structure CacheStatistics where
  hits : ℕ
  misses : ℕ
  sets : ℕ
  evictions : ℕ
deriving DecidableEq

structure MemoryCache (κ : Type) [DecidableEq κ] where
  entries : OrderedMap κ CacheEntry
  tags : OrderedMap Text (List κ)
  leases : OrderedMap κ CacheLease
  totalBytes : ℤ
  closed : Bool
  statistics : CacheStatistics

def newCache : MemoryCache κ where
  entries := .empty
  tags := .empty
  leases := .empty
  totalBytes := 0
  closed := false
  statistics := ⟨0, 0, 0, 0⟩

/-- `a > b`. -/
def laterThan (a b : Number) : Bool := b.le a && !a.le b

def unlink (key : κ) (tags : OrderedMap Text (List κ)) (tag : Text) : OrderedMap Text (List κ) :=
  match tags.get? tag with
  | none => tags
  | some keys =>
    if (keys.erase key).isEmpty then tags.delete tag else tags.set tag (keys.erase key)

namespace MemoryCache

def remove (cache : MemoryCache κ) (key : κ) : MemoryCache κ :=
  match cache.entries.get? key with
  | none => cache
  | some entry =>
    { cache with
      entries := cache.entries.delete key
      totalBytes := cache.totalBytes - entry.bytes
      tags := entry.tags.foldl (unlink key) cache.tags }

def prune (cache : MemoryCache κ) (now : Number) : MemoryCache κ :=
  let pruned := cache.entries.entries.foldl
    (fun cache e => if laterThan e.2.staleUntil now then cache else cache.remove e.1) cache
  { pruned with leases := pruned.leases.filter fun lease => !lease.2.expiresAt.le now }

variable (limits : CacheLimits)

def isOver (cache : MemoryCache κ) : Bool :=
  exceeds cache.entries.size limits.maximumEntries ||
    exceeds cache.totalBytes limits.maximumBytes

def evictOne (cache : MemoryCache κ) (oldest : κ) : MemoryCache κ :=
  let cache := cache.remove oldest
  { cache with statistics :=
      { cache.statistics with evictions := cache.statistics.evictions + 1 } }

/-- Removing the oldest key leaves the others in their order, so the loop takes the keys one after
another. -/
def evictFrom : List κ → MemoryCache κ → MemoryCache κ
  | [], cache => cache
  | oldest :: rest, cache =>
    if cache.isOver limits then evictFrom rest (cache.evictOne oldest) else cache

def evict (cache : MemoryCache κ) : MemoryCache κ :=
  evictFrom limits (cache.entries.entries.map Prod.fst) cache

def countHit (cache : MemoryCache κ) : MemoryCache κ :=
  { cache with statistics := { cache.statistics with hits := cache.statistics.hits + 1 } }

def countMiss (cache : MemoryCache κ) : MemoryCache κ :=
  { cache with statistics := { cache.statistics with misses := cache.statistics.misses + 1 } }

def touch (cache : MemoryCache κ) (key : κ) (entry : CacheEntry) : MemoryCache κ :=
  { cache with entries := (cache.entries.delete key).set key entry }

def get (cache : MemoryCache κ) (key : κ) (now : Number) (allowStale : Bool) :
    MemoryCache κ × Option (Text × Bool) :=
  if cache.closed then (cache, none)
  else
    match cache.entries.get? key with
    | none => (cache.countMiss, none)
    | some entry =>
      if entry.expiresAt.le now && !(allowStale && laterThan entry.staleUntil now) then
        ((cache.remove key).countMiss, none)
      else ((cache.touch key entry).countHit, some (entry.value, entry.expiresAt.le now))

end MemoryCache

/-- The numbers that the options convert to, with a default for what is not set. -/
structure SetOptions where
  now : Number
  ttlMs : Number := .ofNat 60000
  staleTtlMs : Number := .ofNat 0
  tags : List Text := []

def link (key : κ) (tags : OrderedMap Text (List κ)) (tag : Text) : OrderedMap Text (List κ) :=
  let keys := (tags.get? tag).getD []
  tags.set tag (if key ∈ keys then keys else keys ++ [key])

variable (keyText : κ → Text)

def entryBytes (key : κ) (value : Text) : ℕ :=
  Utf8.byteLength (keyText key) + Utf8.byteLength value

def newEntry (key : κ) (value : Text) (options : SetOptions) : CacheEntry :=
  let ttlMs := Number.max (.ofNat 1) (Number.min options.ttlMs (.ofNat 86400000))
  let staleTtlMs := Number.max (.ofNat 0) (Number.min options.staleTtlMs (.ofNat 3600000))
  { value
    expiresAt := options.now.add ttlMs
    staleUntil := (options.now.add ttlMs).add staleTtlMs
    bytes := entryBytes keyText key value
    tags := distinct (options.tags.take 16) }

namespace MemoryCache

def insert (cache : MemoryCache κ) (key : κ) (entry : CacheEntry) : MemoryCache κ where
  entries := cache.entries.set key entry
  tags := entry.tags.foldl (link key) cache.tags
  leases := cache.leases
  totalBytes := cache.totalBytes + entry.bytes
  closed := cache.closed
  statistics := { cache.statistics with sets := cache.statistics.sets + 1 }

variable (limits : CacheLimits)

def set (cache : MemoryCache κ) (key : κ) (value : Text) (options : SetOptions) :
    MemoryCache κ × Except String Bool :=
  if cache.closed then (cache, .ok false)
  else if exceeds (entryBytes keyText key value) limits.maximumBytes then
    (cache, .error "CACHE_VALUE_LIMIT_EXCEEDED: The cache entry exceeds adapter capacity.")
  else
    (evict limits ((cache.remove key).insert key (newEntry keyText key value options)), .ok true)

def delete (cache : MemoryCache κ) (key : κ) : MemoryCache κ × Bool :=
  (cache.remove key, cache.entries.has key)

def batchLimit : ℕ := 250

def getMany (cache : MemoryCache κ) (keys : List κ) (now : Number) (allowStale : Bool) :
    MemoryCache κ :=
  (keys.take batchLimit).foldl (fun cache key => (cache.get key now allowStale).1) cache

def setMany (cache : MemoryCache κ) (entries : List (κ × Text × SetOptions)) : MemoryCache κ :=
  (entries.take batchLimit).foldl (fun cache e => (cache.set keyText limits e.1 e.2.1 e.2.2).1) cache

def deleteMany (cache : MemoryCache κ) (keys : List κ) : MemoryCache κ :=
  (keys.take batchLimit).foldl remove cache

def listedKeys (cache : MemoryCache κ) (tags : List Text) : List κ :=
  distinct ((tags.take 32).flatMap fun tag => (cache.tags.get? tag).getD [])

def invalidateTags (cache : MemoryCache κ) (tags : List Text) : MemoryCache κ × ℕ :=
  (cache.deleteMany (cache.listedKeys tags), (cache.listedKeys tags).length)

def currentNumber (value : Option (Text × Bool)) : Number :=
  match value with
  | none => .ofNat 0
  | some (value, _) => if value = [] then .ofNat 0 else Text.toNumber value

/-- Between the read and the write other operations may run, which then stand between a `get` and a
`set`. -/
def increment (cache : MemoryCache κ) (key : κ) (amount readAt : Number) (options : SetOptions) :
    MemoryCache κ × Except String Number :=
  let (cache, current) := cache.get key readAt false
  let value := (currentNumber current).add amount
  let (cache, result) := cache.set keyText limits key ((Value.number value).toText?.getD []) options
  (cache, result.map fun _ => value)

def close (cache : MemoryCache κ) : MemoryCache κ where
  entries := .empty
  tags := .empty
  leases := .empty
  totalBytes := 0
  closed := true
  statistics := cache.statistics

end MemoryCache

inductive CacheOperation (κ : Type) where
  | get (key : κ) (now : Number) (allowStale : Bool)
  | set (key : κ) (value : Text) (options : SetOptions)
  | delete (key : κ)
  | getMany (keys : List κ) (now : Number) (allowStale : Bool)
  | setMany (entries : List (κ × Text × SetOptions))
  | deleteMany (keys : List κ)
  | increment (key : κ) (amount readAt : Number) (options : SetOptions)
  | prune (now : Number)
  | invalidateTags (tags : List Text)
  | close

def MemoryCache.perform (limits : CacheLimits) (cache : MemoryCache κ) :
    CacheOperation κ → MemoryCache κ
  | .get key now allowStale => (cache.get key now allowStale).1
  | .set key value options => (cache.set keyText limits key value options).1
  | .delete key => (cache.delete key).1
  | .getMany keys now allowStale => cache.getMany keys now allowStale
  | .setMany entries => cache.setMany keyText limits entries
  | .deleteMany keys => cache.deleteMany keys
  | .increment key amount readAt options =>
    (cache.increment keyText limits key amount readAt options).1
  | .prune now => cache.prune now
  | .invalidateTags tags => (cache.invalidateTags tags).1
  | .close => cache.close

def runCache (limits : CacheLimits) (operations : List (CacheOperation κ)) : MemoryCache κ :=
  operations.foldl (MemoryCache.perform keyText limits) newCache

end GhostBridge.DataAccess
