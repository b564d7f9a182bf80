import TinyCache.Spec.Results

/-! Cache entries, the limits of a store, and when they leave room for one more entry. -/

namespace TinyCache

def DEFAULT_MAX_ITEMS : ℤ := 1000

def DEFAULT_MAX_MEMORY_MB : ℤ := 100

def DEFAULT_CLEANUP_INTERVAL : ℤ := 10

/-- `sys.getsizeof` of a `bytes` object in 64-bit CPython: a header of 32 bytes,
the bytes and a terminating zero. -/
def getsizeof (value : Bytes) : ℤ := 33 + value.length

/-- A TTL that is kept is positive. -/
structure CacheEntry where
  value : Bytes
  ttl : Option ℤ
  createdAt : Time
  ttl_pos : ∀ t, ttl = some t → 0 < t
  deriving DecidableEq

namespace CacheEntry

/-- `None if ttl is not None and ttl <= 0 else ttl` -/
def normalizeTtl : Option ℤ → Option ℤ
  | some ttl => if ttl ≤ 0 then none else some ttl
  | none => none

/-- The constructor of `CacheEntry`. -/
def new (value : Bytes) (ttl : Option ℤ) (createdAt : Time) : CacheEntry where
  value := value
  ttl := normalizeTtl ttl
  createdAt := createdAt
  ttl_pos := by
    intro t h
    cases ttl with
    | none => cases h
    | some t' =>
      simp only [normalizeTtl] at h
      split_ifs at h with hle
      cases h
      omega

/-- `size_bytes`, which the setter of `value` keeps. -/
def sizeBytes (entry : CacheEntry) : ℤ := getsizeof entry.value

/-- `_is_expired` of either store at the reading `now`. -/
def isExpired (now : Time) (entry : CacheEntry) : Bool :=
  match entry.ttl with
  | none => false
  | some ttl => decide (now - entry.createdAt ≥ ttl)

@[simp] theorem new_value (v : Bytes) (ttl : Option ℤ) (t : Time) : (new v ttl t).value = v := rfl

@[simp] theorem new_sizeBytes (v : Bytes) (ttl : Option ℤ) (t : Time) :
    (new v ttl t).sizeBytes = getsizeof v := rfl

@[simp] theorem new_createdAt (v : Bytes) (ttl : Option ℤ) (t : Time) :
    (new v ttl t).createdAt = t := rfl

theorem normalizeTtl_of_pos {ttl : Option ℤ} (h : ∀ t, ttl = some t → 0 < t) :
    normalizeTtl ttl = ttl := by
  cases ttl with
  | none => rfl
  | some t =>
    have := h t rfl
    rw [normalizeTtl, if_neg (by omega)]

/-- Building an entry again from its own fields gives the entry. -/
theorem new_self (e : CacheEntry) : new e.value e.ttl e.createdAt = e := by
  cases e with
  | mk value ttl createdAt pos => simp only [new, normalizeTtl_of_pos pos]

/-- An expired entry stays expired. -/
theorem isExpired_mono {e : CacheEntry} {s t : Time} (hst : s ≤ t) (h : e.isExpired s = true) :
    e.isExpired t = true := by
  unfold isExpired at h ⊢
  cases httl : e.ttl with
  | none => simp [httl] at h
  | some ttl =>
    simp only [httl, ge_iff_le, decide_eq_true_eq] at h ⊢
    linarith

theorem isExpired_new {v : Bytes} {ttl : Option ℤ} {s t : Time} :
    (new v ttl s).isExpired t = true ↔ ∃ n, ttl = some n ∧ 0 < n ∧ n ≤ t - s := by
  unfold isExpired
  cases ttl with
  | none => simp [new, normalizeTtl]
  | some n =>
    by_cases hn : n ≤ 0
    · simp only [new, normalizeTtl, if_pos hn, Bool.false_eq_true, Option.some.injEq, false_iff]
      rintro ⟨m, rfl, hm, -⟩
      omega
    · simp only [new, normalizeTtl, if_neg hn, ge_iff_le, decide_eq_true_eq, Option.some.injEq]
      constructor
      · exact fun h => ⟨n, rfl, by omega, h⟩
      · rintro ⟨m, rfl, -, h⟩
        exact h

theorem getsizeof_pos (v : Bytes) : 0 < getsizeof v := by
  unfold getsizeof
  omega

theorem sizeBytes_pos (e : CacheEntry) : 0 < e.sizeBytes := getsizeof_pos e.value

end CacheEntry

/-- The arguments of a store's constructor that bear on its limits. -/
structure LimitArgs where
  maxItems : Option ℤ
  maxMemoryMb : Option ℤ
  cleanupInterval : Option ℤ
  maxValueBytes : Option ℤ

/-- Limits as `resolve` leaves them. -/
structure CacheStoreLimits where
  maxItems : ℤ
  maxMemoryBytes : ℤ
  maxValueBytes : ℤ
  cleanupInterval : ℤ
  maxItems_pos : 1 ≤ maxItems
  maxValueBytes_pos : 1 ≤ maxValueBytes
  value_le_memory : maxValueBytes ≤ maxMemoryBytes
  cleanupInterval_pos : 1 ≤ cleanupInterval
  deriving DecidableEq

def CacheStoreLimits.resolve (args : LimitArgs) : Except PyError CacheStoreLimits :=
  let maxItems := args.maxItems.getD DEFAULT_MAX_ITEMS
  let maxMemoryMb := args.maxMemoryMb.getD DEFAULT_MAX_MEMORY_MB
  let cleanupInterval := args.cleanupInterval.getD DEFAULT_CLEANUP_INTERVAL
  let maxMemoryBytes := maxMemoryMb * 1024 * 1024
  let maxValueBytes := args.maxValueBytes.getD maxMemoryBytes
  if hItems : maxItems < 1 then
    .error (.valueError s!"max_items must be >= 1, got {maxItems}")
  else if hMemory : maxMemoryMb < 1 then
    .error (.valueError s!"max_memory_mb must be >= 1, got {maxMemoryMb}")
  else if hInterval : cleanupInterval < 1 then
    .error (.valueError s!"cleanup_interval must be >= 1, got {cleanupInterval}")
  else if hValue : maxValueBytes < 1 then
    .error (.valueError s!"max_value_bytes must be >= 1, got {maxValueBytes}")
  else
    .ok
      { maxItems := maxItems
        maxMemoryBytes := maxMemoryBytes
        maxValueBytes := min maxValueBytes maxMemoryBytes
        cleanupInterval := cleanupInterval
        maxItems_pos := by omega
        maxValueBytes_pos := by omega
        value_le_memory := by omega
        cleanupInterval_pos := by omega }

/-- Entries of these sizes leave room for one of `size` bytes; the number of items is looked at
only when the key is new. Both backends evict until this holds, so both lose the same prefix of
their eviction order. -/
def Fits (limits : CacheStoreLimits) (isNewKey : Bool) (size : ℤ) (sizes : List ℤ) : Prop :=
  sizes.sum + size ≤ limits.maxMemoryBytes ∧
    (isNewKey = true → (sizes.length : ℤ) < limits.maxItems)

def FitsMemory (limits : CacheStoreLimits) (size : ℤ) (sizes : List ℤ) : Prop :=
  sizes.sum + size ≤ limits.maxMemoryBytes

def FitsItems (limits : CacheStoreLimits) (sizes : List ℤ) : Prop :=
  (sizes.length : ℤ) < limits.maxItems

/-- Room for `n + 1` items of at most 7 bytes each, for runs that can be followed by hand. -/
def CacheStoreLimits.small (n : ℕ) : CacheStoreLimits where
  maxItems := n + 1
  maxMemoryBytes := 1048576
  maxValueBytes := 40
  cleanupInterval := 10
  maxItems_pos := by omega
  maxValueBytes_pos := by decide
  value_le_memory := by decide
  cleanupInterval_pos := by decide

end TinyCache
