import TinyCache.Spec.Statistics

/-! The background cleaner. A pass takes a snapshot under the lock, looks for expired
entries without it, and takes it again for each key it found, so that anything may
have happened to that key in between. -/

namespace TinyCache

/-- The callbacks of the cleaner. -/
structure ExpiredEntryCleaner (σ : Type) where
  snapshotItems : Act PyError σ (List (Key × CacheEntry))
  removeIfExpired : (ℕ → Time) → Key → Act PyError σ Unit
  isExpired : Time → CacheEntry → Bool

/-- Where a pass stands: between two passes, in the comprehension of `_expired_keys`,
or in the loop over the keys that came out of it. -/
inductive CleanerPass
  | waiting
  | checking (items : List (Key × CacheEntry)) (expiredKeys : List Key)
  | removing (expiredKeys : List Key)
  deriving DecidableEq

/-- The store, and the thread that shares it with the clients. -/
structure Shared (σ : Type) where
  store : σ
  pass : CleanerPass

/-- Whose turn it is, with the clock readings of that turn. -/
inductive Turn
  | client (op : Op) (clock : ℕ → Time)
  | cleaner (clock : ℕ → Time)

namespace ExpiredEntryCleaner

variable {σ : Type} (self : ExpiredEntryCleaner σ)

/-- One step of `run`. An exception ends the pass. -/
def advance (clock : ℕ → Time) (s : Shared σ) : Shared σ :=
  match s.pass with
  | .waiting =>
    match self.snapshotItems s.store with
    | (.ok items, store) => ⟨store, .checking items []⟩
    | (.error _, store) => ⟨store, .waiting⟩
  | .checking [] expiredKeys => ⟨s.store, .removing expiredKeys⟩
  | .checking ((key, entry) :: items) expiredKeys =>
    if self.isExpired (clock 0) entry then ⟨s.store, .checking items (expiredKeys ++ [key])⟩
    else ⟨s.store, .checking items expiredKeys⟩
  | .removing [] => ⟨s.store, .waiting⟩
  | .removing (key :: expiredKeys) =>
    match self.removeIfExpired clock key s.store with
    | (.ok _, store) => ⟨store, .removing expiredKeys⟩
    | (.error _, store) => ⟨store, .waiting⟩

/-- One turn, of a client or of the cleaner. -/
def step (call : (ℕ → Time) → Op → Act PyError σ Reply) (s : Shared σ) :
    Turn → Except PyError Reply × Shared σ
  | .client op clock => ((call clock op s.store).1, { s with store := (call clock op s.store).2 })
  | .cleaner clock => (.ok .done, self.advance clock s)

end ExpiredEntryCleaner

def CacheStore.cleaner : ExpiredEntryCleaner CacheStore :=
  ⟨snapshotItems, removeIfExpired, isExpired⟩

def SqliteCacheStore.cleaner (db : Engine) : ExpiredEntryCleaner SqliteCacheStore :=
  ⟨snapshotItems db, removeIfExpired db, isExpired⟩

/-- What a turn of the cleaner does to a store of `rows`: nothing, or it takes one row out
that has expired by then, and books that. -/
inductive Cleans {σ ρ : Type} (rows : σ → List (Key × ρ)) (entry : ρ → CacheEntry) (memory : σ → ℤ)
    (counters : σ → Counters) (now : Time) (s t : σ) : Prop
  | nothing (hrows : rows t = rows s) (hmemory : memory t = memory s)
      (hcounters : counters t = counters s)
  | removed {key : Key} {row : ρ} (hm : (key, row) ∈ rows s) (hx : (entry row).isExpired now = true)
      (hrows : rows t = (rows s).filter fun p => p.1 ≠ key)
      (hmemory : memory t = memory s - (entry row).sizeBytes)
      (hcounters : counters t =
        { counters s with expiredRemovals := (counters s).expiredRemovals + 1 })

/-- A purge of `keys` at one reading, one key after another. -/
def purges (now : Time) (keys : List Key) : List Event :=
  keys.map fun key => ⟨.cleaner key, fun _ => now⟩

/-- The operation deletes one of `keys`, whose entry is still there but has expired. -/
def Op.DeletesExpired (op : Op) (m : Entries) (now : Time) (keys : List Key) : Prop :=
  ∃ key ∈ keys, op = .delete key ∧ validateKey key = .ok () ∧
    ∃ e, m key = some e ∧ e.isExpired now = true

end TinyCache
