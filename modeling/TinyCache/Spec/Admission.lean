import TinyCache.Spec.Cache
import TinyCache.Spec.Statistics

/-! Which writes are admitted, and the two loops of `_store_value_locked` that have to
end before one is. -/

namespace TinyCache

/-- What a write that gets as far as storing answers, that it has stored what it says it has, and
that the capacity of the store is never the reason to turn it away. -/
structure AdmitsBySize {σ : Type} (maxValueBytes : ℤ) (counters : σ → Counters)
    (entries : σ → Entries) (r : Obs σ) : Prop where
  set : ∀ key value ttl, r.input.action = .client (.set key value ttl) →
    validateKey key = .ok () → r.output = .ok (.status (admission maxValueBytes value))
  setIfAbsent : ∀ key value ttl, r.input.action = .client (.setIfAbsent key value ttl) →
    validateKey key = .ok () →
    (∀ e, entries r.before key = some e → e.isExpired (r.input.clock 0) = true) →
    r.output = .ok (.conditional (conditionalStatusFromSetStatus (admission maxValueBytes value)))
  compareAndSet : ∀ key expected value ttl e,
    r.input.action = .client (.compareAndSet key expected value ttl) → validateKey key = .ok () →
    entries r.before key = some e → e.isExpired (r.input.clock 0) = false → e.value = expected →
    r.output = .ok (.conditional (conditionalStatusFromSetStatus (admission maxValueBytes value)))
  stored : ∀ w, Obs.write? r = some w → entries r.after w.key = some w.entry
  never : r.output ≠ .ok (.status .capacityExhausted) ∧
    r.output ≠ .ok (.conditional .capacityExhausted)
  rejectedCapacity : (counters r.after).rejectedCapacity = 0

namespace CacheStore

/-- The condition of the loop in `_evict_to_fit`. -/
def overMemory (requiredBytes : ℤ) (self : CacheStore) : Bool :=
  self.currentMemoryBytes + requiredBytes > self.limits.maxMemoryBytes && !self.store.isEmpty

/-- The condition of the loop for a new key. -/
def atMaxItems (self : CacheStore) : Bool := decide ((self.store.length : ℤ) ≥ self.limits.maxItems)

theorem evictToFit_eq (requiredBytes : ℤ) :
    evictToFit requiredBytes = (do
      if ← evictWhile (overMemory requiredBytes) then
        let self ← .read
        return self.currentMemoryBytes + requiredBytes ≤ self.limits.maxMemoryBytes
      else return false) := rfl

theorem makeRoomForItem_eq (isNewKey : Bool) :
    makeRoomForItem isNewKey = (if isNewKey then evictWhile atMaxItems else pure true) := rfl

/-- The two loops end, in no more rounds than there are entries. -/
def LoopsEnd (u : CacheStore) (size : ℤ) : Prop :=
  ∃ n₁ n₂ v w, Act.EndsAfter (overMemory size) evictLru n₁ u v ∧
    Act.EndsAfter atMaxItems evictLru n₂ v w ∧ n₁ + n₂ ≤ u.store.length

end CacheStore

namespace SqliteCacheStore

/-- The condition of the loop in `_evict_to_fit_locked`. -/
def overMemory (requiredBytes : ℤ) (self : SqliteCacheStore) : Bool :=
  self.currentMemoryBytes + requiredBytes > self.limits.maxMemoryBytes && self.entryCount > 0

/-- The condition of the loop for a new key. -/
def atMaxItems (self : SqliteCacheStore) : Bool := decide (self.entryCount ≥ self.limits.maxItems)

variable (db : Engine)

theorem evictToFitLocked_eq (requiredBytes : ℤ) :
    evictToFitLocked db requiredBytes = (do
      if ← evictWhile db (overMemory requiredBytes) then
        let self ← .read
        return self.currentMemoryBytes + requiredBytes ≤ self.limits.maxMemoryBytes
      else return false) := rfl

theorem makeRoomForItem_eq (isNewKey : Bool) :
    makeRoomForItem db isNewKey = (if isNewKey then evictWhile db atMaxItems else pure true) := rfl

/-- `u` has the rows of `s` while one of them is being written to: its old row may be set
aside, and is no longer counted. -/
structure SetAside (s u : SqliteCacheStore) : Prop where
  limits : u.limits = s.limits
  table : u.table = s.table ∨ ∃ key, u.table = s.table.erase key
  count : u.entryCount = u.table.length

/-- The two loops end, in no more rounds than there are rows. -/
def LoopsEnd (u : SqliteCacheStore) (size : ℤ) : Prop :=
  ∃ n₁ n₂ v w, Act.EndsAfter (overMemory size) (evictLruLocked db) n₁ u v ∧
    Act.EndsAfter atMaxItems (evictLruLocked db) n₂ v w ∧ n₁ + n₂ ≤ u.table.length

end SqliteCacheStore

end TinyCache
