import TinyCache.Spec.MemoryStore

/-! The settings that bear on a store's limits, read from the environment of the process. -/

namespace TinyCache

/-- What Python makes of a text: `int`, where it does not raise, and `repr`. -/
structure Builtins where
  int : String → Option ℤ
  repr : String → String

/-- These, on plain digits. -/
def Builtins.plain : Builtins where
  int text :=
    if text ≠ "" ∧ text.toList.all Char.isDigit then
      some (text.toList.foldl (fun n c => 10 * n + (c.toNat - '0'.toNat)) 0 : ℕ)
    else none
  repr text := s!"'{text}'"

/-- `os.getenv` -/
abbrev Getenv := String → Option String

/-- The bounds that a variable has, if any. -/
def InRange (minValue maxValue : Option ℤ) (value : ℤ) : Prop :=
  (∀ m, minValue = some m → m ≤ value) ∧ ∀ m, maxValue = some m → value ≤ m

/-- The `if` statements at the end of `get_env_int`. -/
def checkRange (envName : String) (minValue maxValue : Option ℤ) (value : ℤ) :
    Except PyError { n : ℤ // InRange minValue maxValue n } :=
  match hmin : minValue.filter fun m => value < m with
  | some m => .error (.valueError s!"{envName} must be >= {m}, got {value}")
  | none =>
    match hmax : maxValue.filter fun m => value > m with
    | some m => .error (.valueError s!"{envName} must be <= {m}, got {value}")
    | none => .ok ⟨value, by
        rw [Option.filter_eq_none_iff] at hmin hmax
        exact ⟨fun m hm => by simpa using hmin m hm, fun m hm => by simpa using hmax m hm⟩⟩

def getEnvInt (py : Builtins) (getenv : Getenv) (envName : String) (defaultValue : ℤ)
    (minValue maxValue : Option ℤ) : Except PyError { n : ℤ // InRange minValue maxValue n } :=
  match getenv envName with
  | none => checkRange envName minValue maxValue defaultValue
  | some rawValue =>
    match py.int rawValue with
    | none => .error (.valueError s!"{envName} must be an integer, got {py.repr rawValue}")
    | some value => checkRange envName minValue maxValue value

/-- The bounds of the fields; `get_env_int` has checked them before. -/
structure Settings where
  maxItems : ℤ
  maxMemoryMb : ℤ
  maxValueBytes : ℤ
  cleanupInterval : ℤ
  maxItems_pos : 1 ≤ maxItems
  maxMemoryMb_pos : 1 ≤ maxMemoryMb
  maxValueBytes_pos : 1 ≤ maxValueBytes
  cleanupInterval_pos : 1 ≤ cleanupInterval

def loadSettings (py : Builtins) (getenv : Getenv) : Except PyError Settings := do
  let maxMemoryMb ← getEnvInt py getenv "CACHE_MAX_MEMORY_MB" 100 (some 1) none
  let maxMemoryBytes := maxMemoryMb.val * 1024 * 1024
  let maxItems ← getEnvInt py getenv "CACHE_MAX_ITEMS" 1000 (some 1) none
  let maxValueBytes ←
    getEnvInt py getenv "CACHE_MAX_VALUE_BYTES" maxMemoryBytes (some 1) (some maxMemoryBytes)
  let cleanupInterval ← getEnvInt py getenv "CACHE_CLEANUP_INTERVAL" 10 (some 1) none
  return {
    maxItems := maxItems.val
    maxMemoryMb := maxMemoryMb.val
    maxValueBytes := maxValueBytes.val
    cleanupInterval := cleanupInterval.val
    maxItems_pos := maxItems.property.1 1 rfl
    maxMemoryMb_pos := maxMemoryMb.property.1 1 rfl
    maxValueBytes_pos := maxValueBytes.property.1 1 rfl
    cleanupInterval_pos := cleanupInterval.property.1 1 rfl }

/-- What `create_cache_store` hands to either backend. -/
def Settings.limitArgs (settings : Settings) : LimitArgs where
  maxItems := some settings.maxItems
  maxMemoryMb := some settings.maxMemoryMb
  cleanupInterval := some settings.cleanupInterval
  maxValueBytes := some settings.maxValueBytes

/-- `create_cache_store` where the backend is the default one. -/
def createMemoryStore (settings : Settings) : Except PyError CacheStore :=
  CacheStore.new settings.limitArgs

/-- The limits under which a store is created. -/
def Settings.limits (settings : Settings) : CacheStoreLimits where
  maxItems := settings.maxItems
  maxMemoryBytes := settings.maxMemoryMb * 1024 * 1024
  maxValueBytes := min settings.maxValueBytes (settings.maxMemoryMb * 1024 * 1024)
  cleanupInterval := settings.cleanupInterval
  maxItems_pos := settings.maxItems_pos
  maxValueBytes_pos := by
    have := settings.maxMemoryMb_pos
    have := settings.maxValueBytes_pos
    omega
  value_le_memory := by omega
  cleanupInterval_pos := settings.cleanupInterval_pos

/-- No settings are turned away by a store. -/
theorem Settings.resolve_eq (settings : Settings) :
    CacheStoreLimits.resolve settings.limitArgs = .ok settings.limits := by
  obtain ⟨maxItems, maxMemoryMb, maxValueBytes, cleanupInterval, h1, h2, h3, h4⟩ := settings
  rw [Settings.limitArgs]
  simp only [CacheStoreLimits.resolve, Option.getD_some]
  rw [dif_neg (by omega), dif_neg (by omega), dif_neg (by omega), dif_neg (by omega)]
  rfl

theorem createMemoryStore_eq (settings : Settings) :
    createMemoryStore settings = .ok (CacheStore.init settings.limits) := by
  rw [createMemoryStore, CacheStore.new, settings.resolve_eq]
  rfl

end TinyCache
