import TinyCache.Spec.Servicer
import TinyCache.Spec.Statistics

/-! The `Stats` call and its message, whose integers have the widths of `cache.proto`, and
what a run has done that the message counts. -/

namespace TinyCache

/-- What a signed integer field of `w` bits holds. -/
def FitsBits (w : ℕ) (n : ℤ) : Prop := -2 ^ (w - 1) ≤ n ∧ n < 2 ^ (w - 1)

abbrev ProtoInt (w : ℕ) : Type := { n : ℤ // FitsBits w n }

/-- The protobuf library: assigning to a field an integer that it does not hold raises a
`ValueError`. -/
structure Protobuf where
  assign (w : ℕ) (n : ℤ) : Except PyError (ProtoInt w)
  assign_fits : ∀ w n (h : FitsBits w n), assign w n = .ok ⟨n, h⟩
  assign_not_fits : ∀ w n, ¬ FitsBits w n → ∃ message, assign w n = .error (.valueError message)

instance (w : ℕ) (n : ℤ) : Decidable (FitsBits w n) :=
  inferInstanceAs (Decidable (-2 ^ (w - 1) ≤ n ∧ n < 2 ^ (w - 1)))

/-- The library with one of its messages. -/
def Protobuf.upb : Protobuf where
  assign w n := if h : FitsBits w n then .ok ⟨n, h⟩ else .error (.valueError s!"Value out of range: {n}")
  assign_fits _ _ h := dif_pos h
  assign_not_fits _ _ h := ⟨_, dif_neg h⟩

def ProtoInt.zero (w : ℕ) : ProtoInt w := ⟨0, by simp [FitsBits]⟩

structure CacheStats where
  size : ProtoInt 32 := .zero 32
  hits : ProtoInt 32 := .zero 32
  misses : ProtoInt 32 := .zero 32
  evictions : ProtoInt 32 := .zero 32
  hitRate : ℚ := 0
  memoryUsageBytes : ProtoInt 64 := .zero 64
  maxMemoryBytes : ProtoInt 64 := .zero 64
  maxItems : ProtoInt 32 := .zero 32
  maxValueBytes : ProtoInt 64 := .zero 64
  lruEvictions : ProtoInt 32 := .zero 32
  expiredRemovals : ProtoInt 32 := .zero 32
  rejectedOversize : ProtoInt 32 := .zero 32
  rejectedCapacity : ProtoInt 32 := .zero 32

def cacheStatsResponse (proto : Protobuf) (stats : CacheStatsSnapshot) : Except PyError CacheStats := do
  let size ← proto.assign 32 stats.size
  let hits ← proto.assign 32 stats.hits
  let misses ← proto.assign 32 stats.misses
  let evictions ← proto.assign 32 stats.evictions
  let memoryUsageBytes ← proto.assign 64 stats.memoryUsageBytes
  let maxMemoryBytes ← proto.assign 64 stats.maxMemoryBytes
  let maxItems ← proto.assign 32 stats.maxItems
  let maxValueBytes ← proto.assign 64 stats.maxValueBytes
  let lruEvictions ← proto.assign 32 stats.lruEvictions
  let expiredRemovals ← proto.assign 32 stats.expiredRemovals
  let rejectedOversize ← proto.assign 32 stats.rejectedOversize
  let rejectedCapacity ← proto.assign 32 stats.rejectedCapacity
  return {
    size := size
    hits := hits
    misses := misses
    evictions := evictions
    hitRate := stats.hitRate.toRat
    memoryUsageBytes := memoryUsageBytes
    maxMemoryBytes := maxMemoryBytes
    maxItems := maxItems
    maxValueBytes := maxValueBytes
    lruEvictions := lruEvictions
    expiredRemovals := expiredRemovals
    rejectedOversize := rejectedOversize
    rejectedCapacity := rejectedCapacity }

/-- The message has the values of the snapshot. -/
structure CacheStats.Shows (message : CacheStats) (stats : CacheStatsSnapshot) : Prop where
  size : message.size.val = stats.size
  hits : message.hits.val = stats.hits
  misses : message.misses.val = stats.misses
  evictions : message.evictions.val = stats.evictions
  hitRate : message.hitRate = stats.hitRate.toRat
  memoryUsageBytes : message.memoryUsageBytes.val = stats.memoryUsageBytes
  maxMemoryBytes : message.maxMemoryBytes.val = stats.maxMemoryBytes
  maxItems : message.maxItems.val = stats.maxItems
  maxValueBytes : message.maxValueBytes.val = stats.maxValueBytes
  lruEvictions : message.lruEvictions.val = stats.lruEvictions
  expiredRemovals : message.expiredRemovals.val = stats.expiredRemovals
  rejectedOversize : message.rejectedOversize.val = stats.rejectedOversize
  rejectedCapacity : message.rejectedCapacity.val = stats.rejectedCapacity

/-- `Stats` has no `except ValueError`. -/
def GrpcCacheService.stats {σ : Type} (proto : Protobuf) (app : CacheApp σ) (context : RpcContext) :
    σ → Answer CacheStats × σ :=
  Act.handle
    (do
      let stats ← app.stats
      return ⟨← .check ((cacheStatsResponse proto stats).mapError PyError.toExn), none⟩)
    fun _ => ⟨{}, some (.internal, internalErrorDetails context.requestId)⟩

namespace Obs

/-- A `get` that found a live entry. -/
def hit (r : Obs CacheStore) : Bool :=
  match r.input.action, r.output with
  | .client (.get _), .ok (.value (some _)) => true
  | _, _ => false

def miss (r : Obs CacheStore) : Bool :=
  match r.input.action, r.output with
  | .client (.get _), .ok (.value none) => true
  | _, _ => false

/-- How many entries under other keys an accepted write pushes out. -/
def evicted (r : Obs CacheStore) : ℕ :=
  match Obs.write? r with
  | some w => (r.before.store.keys.filter fun k => k ≠ w.key && !r.after.store.contains k).length
  | none => 0

/-- How many entries a call that looks for expired ones finds; `set` and `delete` do not
look. -/
def expired (r : Obs CacheStore) : ℕ :=
  match r.input.action, r.output with
  | _, .error _ => 0
  | .client (.get key), _ | .client (.setIfAbsent key _ _), _ | .client (.compareAndSet key _ _ _), _
  | .cleaner key, _ =>
    if (r.before.store.get? key).any fun e => e.isExpired (r.input.clock 0) then 1 else 0
  | .client .stats, _ => (CacheStore.expiredKeys r.input.clock r.before.store.items).length
  | _, _ => 0

end Obs

/-- What has happened since the last `clear`. -/
structure Usage where
  hits : ℕ := 0
  misses : ℕ := 0
  evicted : ℕ := 0
  expired : ℕ := 0
  oversize : ℕ := 0

def Usage.add (u : Usage) (r : Obs CacheStore) : Usage :=
  match r.input.action with
  | .client .clear => {}
  | _ =>
    { hits := u.hits + if Obs.hit r then 1 else 0
      misses := u.misses + if Obs.miss r then 1 else 0
      evicted := u.evicted + Obs.evicted r
      expired := u.expired + Obs.expired r
      oversize := u.oversize + if Obs.oversize r then 1 else 0 }

def usage (history : List (Obs CacheStore)) : Usage := history.foldl Usage.add {}

/-- The limits and what has happened are small enough for the fields of the message, with the
entries that the call itself finds expired. -/
structure Countable (limits : CacheStoreLimits) (u : Usage) (found : ℕ) : Prop where
  maxItems : limits.maxItems < 2 ^ 31
  maxMemoryBytes : limits.maxMemoryBytes < 2 ^ 63
  hits : u.hits < 2 ^ 31
  misses : u.misses < 2 ^ 31
  evicted : u.evicted < 2 ^ 31
  expired : u.expired + found < 2 ^ 31
  oversize : u.oversize < 2 ^ 31

end TinyCache
