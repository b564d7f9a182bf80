import TinyCache.Library.Act
import TinyCache.Library.OrderedDict
import TinyCache.Spec.Models

/-! The in-memory backend. Each operation runs under the store's lock, so it is
one step; its clock readings are `clock 0, clock 1, ..` in the order in which the
code asks for them. -/

namespace TinyCache

structure CacheStore where
  limits : CacheStoreLimits
  store : OrderedDict Key CacheEntry
  currentMemoryBytes : ℤ
  hits : ℕ
  misses : ℕ
  evictions : ℕ
  lruEvictions : ℕ
  expiredRemovals : ℕ
  rejectedOversize : ℕ
  rejectedCapacity : ℕ

namespace CacheStore

/-- The constructor, past the check of its arguments. -/
def init (limits : CacheStoreLimits) : CacheStore where
  limits := limits
  store := .empty
  currentMemoryBytes := 0
  hits := 0
  misses := 0
  evictions := 0
  lruEvictions := 0
  expiredRemovals := 0
  rejectedOversize := 0
  rejectedCapacity := 0

def new (args : LimitArgs) : Except PyError CacheStore :=
  (CacheStoreLimits.resolve args).map init

def isExpired (now : Time) (entry : CacheEntry) : Bool := entry.isExpired now

def removeEntry (key : Key) : Act PyError CacheStore Unit := do
  match (← .read).store.get? key with
  | some entry => .modify fun self =>
      { self with
        store := self.store.erase key
        currentMemoryBytes := self.currentMemoryBytes - entry.sizeBytes }
  | none => pure ()

def removeExpiredEntry (key : Key) : Act PyError CacheStore Unit := do
  if (← .read).store.contains key then
    removeEntry key
    .modify fun self => { self with expiredRemovals := self.expiredRemovals + 1 }
  else pure ()

def removeExpiredEntries : List Key → Act PyError CacheStore Unit
  | [] => pure ()
  | key :: keys => do
    removeExpiredEntry key
    removeExpiredEntries keys

/-- The keys of the entries found expired, each at its own reading. -/
def expiredKeys (clock : ℕ → Time) (items : List (Key × CacheEntry)) : List Key :=
  (items.zipIdx.filter fun p => isExpired (clock p.2) p.1.2).map fun p => p.1.1

def removeExpiredEntriesLocked (clock : ℕ → Time) : Act PyError CacheStore Unit := do
  removeExpiredEntries (expiredKeys clock (← .read).store.items)

def snapshotItems : Act PyError CacheStore (List (Key × CacheEntry)) := do
  return (← .read).store.items

def removeIfExpired (clock : ℕ → Time) (key : Key) : Act PyError CacheStore Unit := do
  match (← .read).store.get? key with
  | some entry => if isExpired (clock 0) entry then removeExpiredEntry key else pure ()
  | none => pure ()

def evictLru : Act PyError CacheStore Bool := do
  match (← .read).store.first? with
  | none => return false
  | some (lruKey, _) =>
    removeEntry lruKey
    .modify fun self =>
      { self with evictions := self.evictions + 1, lruEvictions := self.lruEvictions + 1 }
    return true

/-- `while` the condition holds, `_evict_lru`; `False` as soon as that fails. Every
round removes an entry, so there are at most as many as entries and one more. -/
def evictWhile (cond : CacheStore → Bool) : Act PyError CacheStore Bool := do
  Act.whileDo cond evictLru ((← .read).store.length + 1)

def evictToFit (requiredBytes : ℤ) : Act PyError CacheStore Bool := do
  if ← evictWhile fun self =>
      self.currentMemoryBytes + requiredBytes > self.limits.maxMemoryBytes && !self.store.isEmpty then
    let self ← .read
    return self.currentMemoryBytes + requiredBytes ≤ self.limits.maxMemoryBytes
  else return false

/-- The bytes of the entry that `set` or `compare_and_set` has popped. -/
def oldBytes (oldEntry : Option CacheEntry) : ℤ := (oldEntry.map CacheEntry.sizeBytes).getD 0

/-- `self.store[key] = old_entry` on the branches that reject the new value. -/
def restore (key : Key) (oldEntry : Option CacheEntry) : Act PyError CacheStore Unit :=
  match oldEntry with
  | some entry => .modify fun self =>
      { self with
        store := self.store.set key entry
        currentMemoryBytes := self.currentMemoryBytes + entry.sizeBytes }
  | none => pure ()

def rejectCapacity : Act PyError CacheStore CacheSetStatus := do
  .modify fun self => { self with rejectedCapacity := self.rejectedCapacity + 1 }
  return .capacityExhausted

/-- The memory check of `_store_value_locked`; `False` rejects the value. -/
def makeRoomForBytes (size : ℤ) : Act PyError CacheStore Bool := do
  let self ← .read
  if self.currentMemoryBytes + size > self.limits.maxMemoryBytes then evictToFit size
  else return true

/-- The item check of `_store_value_locked`, made for a new key only. -/
def makeRoomForItem (isNewKey : Bool) : Act PyError CacheStore Bool := do
  if isNewKey then
    evictWhile fun self => decide ((self.store.length : ℤ) ≥ self.limits.maxItems)
  else return true

def storeValueLocked (now : Time) (key : Key) (value : Bytes) (ttl : Option ℤ)
    (oldEntry : Option CacheEntry) : Act PyError CacheStore CacheSetStatus := do
  .modify fun self =>
    { self with currentMemoryBytes := self.currentMemoryBytes - oldBytes oldEntry }
  let entry := CacheEntry.new value ttl now
  if entry.sizeBytes > (← .read).limits.maxValueBytes then
    restore key oldEntry
    .modify fun self => { self with rejectedOversize := self.rejectedOversize + 1 }
    return .valueTooLarge
  else if ← makeRoomForBytes entry.sizeBytes then
    if ← makeRoomForItem oldEntry.isNone then
      .modify fun self =>
        { self with
          store := (self.store.set key entry).moveToEnd key
          currentMemoryBytes := self.currentMemoryBytes + entry.sizeBytes }
      return .ok
    else rejectCapacity
  else
    restore key oldEntry
    rejectCapacity

def get (clock : ℕ → Time) (key : Key) : Act PyError CacheStore (Option Bytes) := do
  .check (validateKey key)
  match (← .read).store.get? key with
  | none =>
    .modify fun self => { self with misses := self.misses + 1 }
    return none
  | some entry =>
    if isExpired (clock 0) entry then
      .modify fun self => { self with misses := self.misses + 1 }
      removeExpiredEntry key
      return none
    else
      .modify fun self =>
        { self with store := self.store.moveToEnd key, hits := self.hits + 1 }
      return some entry.value

def set (clock : ℕ → Time) (key : Key) (value : Bytes) (ttl : Option ℤ) :
    Act PyError CacheStore CacheSetStatus := do
  .check (validateKey key)
  let oldEntry := (← .read).store.get? key
  .modify fun self => { self with store := self.store.erase key }
  storeValueLocked (clock 0) key value ttl oldEntry

def setIfAbsent (clock : ℕ → Time) (key : Key) (value : Bytes) (ttl : Option ℤ) :
    Act PyError CacheStore CacheConditionalSetStatus := do
  .check (validateKey key)
  match (← .read).store.get? key with
  | some existingEntry =>
    if isExpired (clock 0) existingEntry then
      removeExpiredEntry key
      return conditionalStatusFromSetStatus (← storeValueLocked (clock 1) key value ttl none)
    else return .exists_
  | none => return conditionalStatusFromSetStatus (← storeValueLocked (clock 1) key value ttl none)

def compareAndSet (clock : ℕ → Time) (key : Key) (expectedValue value : Bytes) (ttl : Option ℤ) :
    Act PyError CacheStore CacheConditionalSetStatus := do
  .check (validateKey key)
  match (← .read).store.get? key with
  | none => return .notFound
  | some existingEntry =>
    if isExpired (clock 0) existingEntry then
      removeExpiredEntry key
      return .notFound
    else if existingEntry.value ≠ expectedValue then return .mismatch
    else
      .modify fun self => { self with store := self.store.erase key }
      return conditionalStatusFromSetStatus
        (← storeValueLocked (clock 1) key value ttl (some existingEntry))

def delete (key : Key) : Act PyError CacheStore Bool := do
  .check (validateKey key)
  if (← .read).store.contains key then
    removeEntry key
    return true
  else return false

def snapshot (self : CacheStore) : CacheStatsSnapshot where
  size := self.store.length
  hits := self.hits
  misses := self.misses
  evictions := self.evictions
  lruEvictions := self.lruEvictions
  expiredRemovals := self.expiredRemovals
  rejectedOversize := self.rejectedOversize
  rejectedCapacity := self.rejectedCapacity
  hitRate := hitRate self.hits self.misses
  memoryUsageBytes := self.currentMemoryBytes
  maxMemoryBytes := self.limits.maxMemoryBytes
  maxValueBytes := self.limits.maxValueBytes
  maxItems := self.limits.maxItems

def stats (clock : ℕ → Time) : Act PyError CacheStore CacheStatsSnapshot := do
  removeExpiredEntriesLocked clock
  return (← .read).snapshot

def clear : Act PyError CacheStore Unit :=
  .modify fun self => init self.limits

/-- One operation of the port. -/
def call (clock : ℕ → Time) : Op → Act PyError CacheStore Reply
  | .get key => return .value (← get clock key)
  | .set key value ttl => return .status (← set clock key value ttl)
  | .setIfAbsent key value ttl => return .conditional (← setIfAbsent clock key value ttl)
  | .compareAndSet key expectedValue value ttl =>
    return .conditional (← compareAndSet clock key expectedValue value ttl)
  | .delete key => return .deleted (← delete key)
  | .stats => return .stats (← stats clock)
  | .clear => do clear; return .done

def step (self : CacheStore) (event : Event) : Except PyError Reply × CacheStore :=
  match event.action with
  | .client op => call event.clock op self
  | .cleaner key => (do removeIfExpired event.clock key; return .done : Act _ _ _) self

end CacheStore

end TinyCache
