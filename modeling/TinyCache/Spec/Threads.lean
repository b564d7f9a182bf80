import TinyCache.Library.Lock
import TinyCache.Spec.MemoryStore

/-! The methods of the in-memory store as threads run them: the key is checked first, then
everything is done with the lock held, and the clock is read on the way. -/

namespace TinyCache.CacheStore

/-- What a method does with the lock. -/
abbrev Locked := Lock.Code CacheStore Time (Except PyError Reply)

/-- Statements that do not read the clock, and what comes after them. -/
def andThen {α : Type} (m : Act PyError CacheStore α) (next : α → Locked) : Locked :=
  .access (fun self => (m self).2) fun self =>
    match (m self).1 with
    | .ok a => next a
    | .error e => .done (.error e)

def finish {α : Type} (m : Act PyError CacheStore α) (reply : α → Reply) : Locked :=
  andThen m fun a => .done (.ok (reply a))

/-- `_is_expired`, which reads the clock only for an entry with a TTL. -/
def ifExpired (place : ℕ) (entry : CacheEntry) (next : Bool → Locked) : Locked :=
  match entry.ttl with
  | none => next false
  | some ttl => .now place fun now => next (decide (now - entry.createdAt ≥ ttl))

def storeLocked (place : ℕ) (key : Key) (value : Bytes) (ttl : Option ℤ) (oldEntry : Option CacheEntry)
    (reply : CacheSetStatus → Reply) : Locked :=
  .now place fun now => finish (storeValueLocked now key value ttl oldEntry) reply

def getLocked (key : Key) : Locked :=
  andThen .read fun self =>
    match self.store.get? key with
    | none => finish (.modify fun self => { self with misses := self.misses + 1 }) fun _ => .value none
    | some entry => ifExpired 0 entry fun expired =>
      if expired then
        andThen (.modify fun self => { self with misses := self.misses + 1 }) fun _ =>
          finish (removeExpiredEntry key) fun _ => .value none
      else
        finish (.modify fun self =>
          { self with store := self.store.moveToEnd key, hits := self.hits + 1 }) fun _ =>
            .value (some entry.value)

def setLocked (key : Key) (value : Bytes) (ttl : Option ℤ) : Locked :=
  andThen .read fun self =>
    andThen (.modify fun self => { self with store := self.store.erase key }) fun _ =>
      storeLocked 0 key value ttl (self.store.get? key) .status

def setIfAbsentLocked (key : Key) (value : Bytes) (ttl : Option ℤ) : Locked :=
  let store := storeLocked 1 key value ttl none fun st => .conditional (conditionalStatusFromSetStatus st)
  andThen .read fun self =>
    match self.store.get? key with
    | none => store
    | some entry => ifExpired 0 entry fun expired =>
      if expired then andThen (removeExpiredEntry key) fun _ => store
      else .done (.ok (.conditional .exists_))

def compareAndSetLocked (key : Key) (expectedValue value : Bytes) (ttl : Option ℤ) : Locked :=
  andThen .read fun self =>
    match self.store.get? key with
    | none => .done (.ok (.conditional .notFound))
    | some entry => ifExpired 0 entry fun expired =>
      if expired then finish (removeExpiredEntry key) fun _ => .conditional .notFound
      else if entry.value ≠ expectedValue then .done (.ok (.conditional .mismatch))
      else
        andThen (.modify fun self => { self with store := self.store.erase key }) fun _ =>
          storeLocked 1 key value ttl (some entry) fun st => .conditional (conditionalStatusFromSetStatus st)

def deleteLocked (key : Key) : Locked :=
  andThen .read fun self =>
    if self.store.contains key then finish (removeEntry key) fun _ => .deleted true
    else .done (.ok (.deleted false))

/-- The list comprehension of `_remove_expired_entries_locked`, one reading for each entry. -/
def collectExpired (place : ℕ) (items : List (Key × CacheEntry)) (next : List Key → Locked) : Locked :=
  match items with
  | [] => next []
  | (key, entry) :: items => ifExpired place entry fun expired =>
    collectExpired (place + 1) items fun keys => next (if expired then key :: keys else keys)

def statsLocked : Locked :=
  andThen .read fun self =>
    collectExpired 0 self.store.items fun keys =>
      andThen (removeExpiredEntries keys) fun _ => finish .read fun self => .stats self.snapshot

def removeIfExpiredLocked (key : Key) : Locked :=
  andThen .read fun self =>
    match self.store.get? key with
    | none => .done (.ok .done)
    | some entry => ifExpired 0 entry fun expired =>
      if expired then finish (removeExpiredEntry key) fun _ => .done else .done (.ok .done)

def locked : Op → Locked
  | .get key => getLocked key
  | .set key value ttl => setLocked key value ttl
  | .setIfAbsent key value ttl => setIfAbsentLocked key value ttl
  | .compareAndSet key expectedValue value ttl => compareAndSetLocked key expectedValue value ttl
  | .delete key => deleteLocked key
  | .stats => statsLocked
  | .clear => finish clear fun _ => .done

/-- What a thread does for an action: an invalid key is refused without the lock. -/
def threadCode : Action → Except PyError Reply ⊕ Locked
  | .cleaner key => .inr (removeIfExpiredLocked key)
  | .client op =>
    match op.key?.map validateKey with
    | some (.error x) => .inl (.error x)
    | _ => .inr (locked op)

/-- The store as the lock's object: one call at a time. -/
def atOnce (self : CacheStore) (action : Action) (clock : ℕ → Time) : Except PyError Reply × CacheStore :=
  step self ⟨action, clock⟩

/-- A call that is over, as an event of the store. -/
def logEvent (e : Lock.Entry Time Action (Except PyError Reply)) : Event := ⟨e.input, e.clock⟩

end TinyCache.CacheStore
