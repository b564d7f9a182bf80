import TinyCache.Spec.Domain

/-! Results of the store operations, and the operations themselves as data. -/

namespace TinyCache

inductive CacheWriteFailure
  | valueTooLarge
  | capacityExhausted
  deriving DecidableEq

inductive CacheSetStatus
  | ok
  | valueTooLarge
  | capacityExhausted
  deriving DecidableEq

inductive CacheConditionalSetStatus
  | stored
  | exists_
  | notFound
  | mismatch
  | valueTooLarge
  | capacityExhausted
  deriving DecidableEq

/-- An `int`, or a `float` at its exact value. -/
inductive PyNumber
  | int (n : ℤ)
  | float (x : ℚ)
  deriving DecidableEq

def PyNumber.toRat : PyNumber → ℚ
  | .int n => n
  | .float x => x

structure CacheStatsSnapshot where
  size : ℤ
  hits : ℕ
  misses : ℕ
  evictions : ℕ
  lruEvictions : ℕ
  expiredRemovals : ℕ
  rejectedOversize : ℕ
  rejectedCapacity : ℕ
  hitRate : PyNumber
  memoryUsageBytes : ℤ
  maxMemoryBytes : ℤ
  maxValueBytes : ℤ
  maxItems : ℤ
  deriving DecidableEq

def cacheWriteFailureFromSetStatus : CacheSetStatus → Option CacheWriteFailure
  | .ok => none
  | .valueTooLarge => some .valueTooLarge
  | .capacityExhausted => some .capacityExhausted

def conditionalStatusFromFailure : CacheWriteFailure → CacheConditionalSetStatus
  | .valueTooLarge => .valueTooLarge
  | .capacityExhausted => .capacityExhausted

def conditionalStatusFromSetStatus (status : CacheSetStatus) : CacheConditionalSetStatus :=
  match cacheWriteFailureFromSetStatus status with
  | none => .stored
  | some failure => conditionalStatusFromFailure failure

/-- `hits / total if total > 0 else 0` -/
def hitRate (hits misses : ℕ) : PyNumber :=
  let total := hits + misses
  if total > 0 then .float (hits / total) else .int 0

/-- The operations of `CacheStorePort`, with `clear`. -/
inductive Op
  | get (key : Key)
  | set (key : Key) (value : Bytes) (ttl : Option ℤ)
  | setIfAbsent (key : Key) (value : Bytes) (ttl : Option ℤ)
  | compareAndSet (key : Key) (expectedValue value : Bytes) (ttl : Option ℤ)
  | delete (key : Key)
  | stats
  | clear
  deriving DecidableEq

def Op.key? : Op → Option Key
  | .get key | .set key _ _ | .setIfAbsent key _ _ | .compareAndSet key _ _ _ | .delete key => some key
  | .stats | .clear => none

inductive Reply
  | value (value : Option Bytes)
  | status (status : CacheSetStatus)
  | conditional (status : CacheConditionalSetStatus)
  | deleted (removed : Bool)
  | stats (snapshot : CacheStatsSnapshot)
  | done
  deriving DecidableEq

/-- The reply turns a write away. -/
def Reply.Rejects : Reply → Prop
  | .status st => st = .valueTooLarge ∨ st = .capacityExhausted
  | .conditional st => st = .valueTooLarge ∨ st = .capacityExhausted
  | _ => False

/-- What takes the store's lock: an operation of a client, or one
`_remove_if_expired` of the background cleaner. -/
inductive Action
  | client (op : Op)
  | cleaner (key : Key)
  deriving DecidableEq

/-- The action does not stop at the check of its key. -/
def Action.KeyValid (action : Action) : Prop :=
  ∀ op key, action = .client op → op.key? = some key → validateKey key = .ok ()

theorem exists_of_not_keyValid {action : Action} (h : ¬ action.KeyValid) :
    ∃ op key x, action = .client op ∧ op.key? = some key ∧ validateKey key = .error x := by
  unfold Action.KeyValid at h
  push Not at h
  obtain ⟨op, key, haction, hk, hv⟩ := h
  rcases hx : validateKey key with x | _
  · exact ⟨op, key, x, haction, hk, hx⟩
  · exact absurd hx hv

/-- An action with the clock readings it gets: `clock i` is what the `i`-th place
that reads the clock sees. -/
structure Event where
  action : Action
  clock : ℕ → Time

/-- The readings of a run never go back. -/
structure ClockOk (es : List Event) : Prop where
  within : ∀ e ∈ es, Monotone e.clock
  across : es.Pairwise fun a b => ∀ i j, a.clock i ≤ b.clock j

/-- The operation with every reading the same. -/
def Op.atTime (op : Op) (now : Time) : Event := ⟨.client op, fun _ => now⟩

theorem ClockOk.atTimes {l : List (Op × Time)} (h : l.Pairwise fun a b => a.2 ≤ b.2) :
    ClockOk (l.map fun p => p.1.atTime p.2) := by
  refine ⟨?_, ?_⟩
  · intro e he
    obtain ⟨p, -, rfl⟩ := List.mem_map.mp he
    exact monotone_const
  · rw [List.pairwise_map]
    exact h.imp fun hab _ _ => hab

end TinyCache
