import TinyCache.Library.Lru
import TinyCache.Sanity.Memory
import TinyCache.Spec.Cache

/-! The in-memory store without its counters: a least-recently-used cache, and what each
event asks of it. -/

namespace TinyCache

/-- Memory and a place for the entry beside the items. -/
def CacheStoreLimits.room (limits : CacheStoreLimits) (entry : CacheEntry) (items : List (Key × CacheEntry)) :
    Bool :=
  decide (CacheStore.bytes items + entry.sizeBytes ≤ limits.maxMemoryBytes) &&
    decide ((items.length : ℤ) < limits.maxItems)

/-- The entry of `key` goes if it is expired. -/
def dropExpired (now : Time) (key : Key) : Lru.Request Key CacheEntry :=
  .sweep fun _ p => decide (p.1 = key) && p.2.isExpired now

/-- What a valid operation asks. A `set` or `compare_and_set` that is turned away puts the
entry it has popped behind all others. -/
def Op.requests (maxValueBytes : ℤ) (clock : ℕ → Time) : Op → List (Lru.Request Key CacheEntry)
  | .get key => [dropExpired (clock 0) key, .touch key]
  | .set key value ttl =>
    [if getsizeof value > maxValueBytes then .touch key else .put key (.new value ttl (clock 0))]
  | .setIfAbsent key value ttl =>
    dropExpired (clock 0) key ::
      if getsizeof value > maxValueBytes then [] else [.fill key (.new value ttl (clock 1))]
  | .compareAndSet key expectedValue value ttl =>
    [dropExpired (clock 0) key, .rewrite key fun e =>
      if e.value ≠ expectedValue then none
      else if getsizeof value > maxValueBytes then some e
      else some (.new value ttl (clock 1))]
  | .delete key => [.sweep fun _ p => decide (p.1 = key)]
  | .stats => [.sweep fun i p => p.2.isExpired (clock i)]
  | .clear => [.sweep fun _ _ => true]

def Event.requests (maxValueBytes : ℤ) (event : Event) : List (Lru.Request Key CacheEntry) :=
  match event.action with
  | .cleaner key => [dropExpired (event.clock 0) key]
  | .client op =>
    match op.key?.map validateKey with
    | some (.error _) => []
    | _ => op.requests maxValueBytes event.clock

/-- The reply to an event that finds `old` under its key; what `stats` reports is left out. -/
def Event.reply (maxValueBytes : ℤ) (event : Event) (find : Key → Option CacheEntry) : Except PyError Reply :=
  match event.action with
  | .cleaner _ => .ok .done
  | .client op =>
    match op.key? with
    | some key => (validateKey key).map fun _ => (op.onCell maxValueBytes event.clock (find key)).1
    | none => .ok .done

/-- The cache as a machine. -/
def lruStep (limits : CacheStoreLimits) (d : OrderedDict Key CacheEntry) (event : Event) :
    Except PyError Reply × OrderedDict Key CacheEntry :=
  (event.reply limits.maxValueBytes d.get?, Lru.run limits.room d (event.requests limits.maxValueBytes))

/-- A reply without the statistics in it. -/
def Reply.quiet : Reply → Reply
  | .stats _ => .done
  | reply => reply

/-- What a reply adds to the hits, and to the misses. -/
def foundBy : Except PyError Reply → ℕ
  | .ok (.value (some _)) => 1
  | _ => 0

def missedBy : Except PyError Reply → ℕ
  | .ok (.value none) => 1
  | _ => 0

/-- The event asks the same whatever the cache holds: it does not write only where there is
nothing, and a `stats` reads the clock once. -/
def Event.Steady (event : Event) : Prop :=
  match event.action with
  | .client (.setIfAbsent _ _ _) => False
  | .client .stats => ∀ i, event.clock i = event.clock 0
  | _ => True

/-- The memory cannot run out before the items do. -/
def CacheStoreLimits.Roomy (limits : CacheStoreLimits) : Prop :=
  limits.maxItems * limits.maxValueBytes ≤ limits.maxMemoryBytes

end TinyCache
