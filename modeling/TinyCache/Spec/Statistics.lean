import TinyCache.Spec.History
import TinyCache.Spec.MemoryStore
import TinyCache.Spec.SqliteStore

/-! The statistics as a ledger: every entry that came in is still there or left by one of
the ways that are counted. -/

namespace TinyCache

/-- What only the statistics read. -/
structure Counters where
  hits : ℕ
  misses : ℕ
  evictions : ℕ
  lruEvictions : ℕ
  expiredRemovals : ℕ
  rejectedOversize : ℕ
  rejectedCapacity : ℕ

def Counters.zero : Counters := ⟨0, 0, 0, 0, 0, 0, 0⟩

def CacheStatsSnapshot.counters (stats : CacheStatsSnapshot) : Counters :=
  ⟨stats.hits, stats.misses, stats.evictions, stats.lruEvictions, stats.expiredRemovals,
    stats.rejectedOversize, stats.rejectedCapacity⟩

def CacheStore.counters (s : CacheStore) : Counters :=
  ⟨s.hits, s.misses, s.evictions, s.lruEvictions, s.expiredRemovals, s.rejectedOversize,
    s.rejectedCapacity⟩

def SqliteCacheStore.counters (s : SqliteCacheStore) : Counters :=
  ⟨s.hits, s.misses, s.evictions, s.lruEvictions, s.expiredRemovals, s.rejectedOversize,
    s.rejectedCapacity⟩

namespace Obs

variable {σ : Type}

/-- The step is a write that was accepted while its key had no entry; `set_if_absent` has
by then removed an expired one. -/
def adds (entries : σ → Entries) (r : Obs σ) : Bool :=
  match Obs.write? r, r.input.action with
  | some w, .client (.setIfAbsent _ _ _) =>
    (Entries.purge (entries r.before) (r.input.clock 0) w.key w.key).isNone
  | some w, _ => (entries r.before w.key).isNone
  | none, _ => false

def deletes (r : Obs σ) : Bool :=
  match r.input.action, r.output with
  | .client (.delete _), .ok (.deleted true) => true
  | _, _ => false

/-- The step is a `get` with a valid key. -/
def looksUp (r : Obs σ) : Bool :=
  match r.input.action with
  | .client (.get key) => decide (validateKey key = .ok ())
  | _ => false

def oversize (r : Obs σ) : Bool :=
  match r.output with
  | .ok (.status .valueTooLarge) | .ok (.conditional .valueTooLarge) => true
  | _ => false

end Obs

/-- Nothing has been called yet, or a `clear` was the last call. -/
def Fresh (events : List Event) : Prop := ∀ last ∈ events.getLast?, last.action = .client .clear

/-- What the counters say of the steps of `history`, at whose start there were `start` entries
and all counters were fresh, when `left` entries are left. -/
structure Balance {σ : Type} (entries : σ → Entries) (start : ℕ) (history : List (Obs σ)) (left : ℤ)
    (c : Counters) : Prop where
  entries : (start : ℤ) + history.countP (Obs.adds entries) =
    left + c.lruEvictions + c.expiredRemovals + history.countP Obs.deletes
  lookups : c.hits + c.misses = history.countP Obs.looksUp
  evictions : c.evictions = c.lruEvictions
  oversize : c.rejectedOversize = history.countP Obs.oversize

/-- From a state with fresh counters to a later one the steps between balance, and so do those
up to any `stats`, with the numbers that its reply carries. -/
structure Conserved {σ : Type} (count : σ → ℕ) (counters : σ → Counters) (entries : σ → Entries)
    (s : σ) (history : List (Obs σ)) (t : σ) : Prop where
  balance : Balance entries (count s) history (count t) (counters t)
  reported : ∀ pre r post snapshot, history = pre ++ r :: post → r.output = .ok (.stats snapshot) →
    Balance entries (count s) (pre ++ [r]) snapshot.size snapshot.counters

/-- The keys for which `get` returns a value at the reading `now`, each with that value. -/
structure Hits {σ : Type} (step : σ → Event → Except PyError Reply × σ) (now : Time) (s : σ)
    (hits : List (Key × Bytes)) : Prop where
  nodup : (hits.map Prod.fst).Nodup
  mem : ∀ key value, (key, value) ∈ hits ↔
    (step s ((Op.get key).atTime now)).1 = .ok (.value (some value))

/-- `stats` has reported `snapshot` at the reading `now` and turned `s` into `t`. It has counted
what `get` returns, and nobody can tell that it was called: evictions go by the order of the
items and by what the items hold, and for those that `get` returns both are as they were. -/
structure StatsAgree {σ ρ : Type} (step : σ → Event → Except PyError Reply × σ)
    (shelf : σ → OrderedDict Key ρ) (now : Time) (s : σ) (snapshot : CacheStatsSnapshot) (t : σ) :
    Prop where
  counted : ∃ hits, Hits step now s hits ∧ snapshot.size = hits.length ∧
    snapshot.memoryUsageBytes = (hits.map fun hit => getsizeof hit.2).sum
  again : (step t (Op.stats.atTime now)).1 = .ok (.stats snapshot)
  get : ∀ key, (step t ((Op.get key).atTime now)).1 = (step s ((Op.get key).atTime now)).1
  order : ∀ hits, Hits step now s hits →
    ((shelf t).items.filter fun p => p.1 ∈ hits.map Prod.fst) =
      (shelf s).items.filter fun p => p.1 ∈ hits.map Prod.fst

end TinyCache
