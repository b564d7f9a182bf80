import Mathlib.Data.List.Sort
import TinyCache.Spec.Config
import TinyCache.Spec.SqliteStore

/-! All the settings of the process, and the store that is made of them. The settings that bear on a
store's limits are read first. -/

namespace TinyCache

def isAscii (s : String) : Bool := s.toList.all fun c => c.toNat < 128

/-- `str.upper` and `str.lower`, which are told only for letters of ASCII. -/
structure Casing where
  upper : String → String
  lower : String → String
  upper_ascii : ∀ s : String, isAscii s = true → upper s = s.toUpper
  lower_ascii : ∀ s : String, isAscii s = true → lower s = s.toLower

/-- These, on letters of ASCII. -/
def Casing.ascii : Casing := ⟨String.toUpper, String.toLower, fun _ _ => rfl, fun _ _ => rfl⟩

def getEnvChoice (py : Builtins) (getenv : Getenv) (envName defaultValue : String) (allowedValues : List String)
    (normalize : String → String) : Except PyError { value : String // value ∈ allowedValues } :=
  let value := normalize (match getenv envName with
    | none => defaultValue
    | some rawValue => strip rawValue)
  if h : value ∈ allowedValues then .ok ⟨value, h⟩
  else
    let allowed := ", ".intercalate (allowedValues.insertionSort (· ≤ ·))
    .error (.valueError s!"{envName} must be one of: {allowed}; got {py.repr value}")

def getEnvBool (py : Builtins) (letters : Casing) (getenv : Getenv) (envName : String) (defaultValue : Bool) :
    Except PyError Bool :=
  match getenv envName with
  | none => .ok defaultValue
  | some rawValue =>
    let normalized := letters.lower (strip rawValue)
    if normalized ∈ ["1", "true", "yes", "y", "on"] then .ok true
    else if normalized ∈ ["0", "false", "no", "n", "off"] then .ok false
    else .error (.valueError s!"{envName} must be a boolean, got {py.repr rawValue}")

/-- An error about a variable says what that must be. -/
def Complains (envName : String) (x : PyError) : Prop := ∃ wants, x = .valueError (envName ++ " must be " ++ wants)

namespace Process

def LOG_LEVELS : List String := ["DEBUG", "INFO", "WARNING", "ERROR", "CRITICAL"]

def LOG_FORMATS : List String := ["text", "json"]

def BACKENDS : List String := ["memory", "sqlite"]

/-- `Settings`, with the bounds of the fields. -/
structure Settings extends TinyCache.Settings where
  port : ℤ
  host : String
  healthHost : String
  healthPort : ℤ
  logLevel : String
  logFormat : String
  backend : String
  sqlitePath : String
  tlsEnabled : Bool
  tlsCertPath : Option String
  tlsKeyPath : Option String
  tlsRequireClientAuth : Bool
  tlsClientCaPath : Option String
  port_range : 1 ≤ port ∧ port ≤ 65535
  healthPort_range : 1 ≤ healthPort ∧ healthPort ≤ 65535

def loadSettings (py : Builtins) (letters : Casing) (getenv : Getenv) : Except PyError Settings := do
  let stores ← TinyCache.loadSettings py getenv
  let port ← getEnvInt py getenv "CACHE_PORT" 50051 (some 1) (some 65535)
  let healthPort ← getEnvInt py getenv "CACHE_HEALTH_PORT" 8080 (some 1) (some 65535)
  let logLevel ← getEnvChoice py getenv "CACHE_LOG_LEVEL" "INFO" LOG_LEVELS letters.upper
  let logFormat ← getEnvChoice py getenv "CACHE_LOG_FORMAT" "text" LOG_FORMATS letters.lower
  let backend ← getEnvChoice py getenv "CACHE_BACKEND" "memory" BACKENDS letters.lower
  let tlsEnabled ← getEnvBool py letters getenv "CACHE_TLS_ENABLED" false
  let tlsRequireClientAuth ← getEnvBool py letters getenv "CACHE_TLS_REQUIRE_CLIENT_AUTH" false
  return {
    toSettings := stores
    port := port.val
    host := (getenv "CACHE_HOST").getD "[::]"
    healthHost := (getenv "CACHE_HEALTH_HOST").getD "0.0.0.0"
    healthPort := healthPort.val
    logLevel := logLevel.val
    logFormat := logFormat.val
    backend := backend.val
    sqlitePath := (getenv "CACHE_SQLITE_PATH").getD "tiny-cache.sqlite3"
    tlsEnabled := tlsEnabled
    tlsCertPath := getenv "CACHE_TLS_CERT_PATH"
    tlsKeyPath := getenv "CACHE_TLS_KEY_PATH"
    tlsRequireClientAuth := tlsRequireClientAuth
    tlsClientCaPath := getenv "CACHE_TLS_CLIENT_CA_PATH"
    port_range := ⟨port.property.1 1 rfl, port.property.2 65535 rfl⟩
    healthPort_range := ⟨healthPort.property.1 1 rfl, healthPort.property.2 65535 rfl⟩ }

/-- `CacheStoreLifecyclePort`: one of the two backends, the second on its database. -/
inductive CacheStoreLifecyclePort
  | memory (store : CacheStore)
  | sqlite (dbPath : String) (store : SqliteCacheStore)

/-- `files` has what is in the databases. -/
def createCacheStore (db : Engine) (files : String → Connection) (settings : Settings) :
    Except PyError CacheStoreLifecyclePort :=
  if settings.backend = "sqlite" then
    (SqliteCacheStore.init db settings.limitArgs (files settings.sqlitePath)).1.map
      (.sqlite settings.sqlitePath)
  else (createMemoryStore settings.toSettings).map .memory

/-- A variable that is checked: what it is when it is not set, and what a text that it is set to
means, if anything. -/
structure Variable (α : Type) where
  envName : String
  defaultValue : α
  means : String → Option α

def Variable.read {α : Type} (self : Variable α) (getenv : Getenv) : Option α :=
  match getenv self.envName with
  | none => some self.defaultValue
  | some rawValue => self.means rawValue

section

variable (py : Builtins) (letters : Casing)

def intVariable (envName : String) (defaultValue : ℤ) (bounds : ℤ → Bool) : Variable ℤ :=
  ⟨envName, defaultValue, fun rawValue => (py.int rawValue).filter bounds⟩

def choiceVariable (envName defaultValue : String) (allowedValues : List String) (normalize : String → String) :
    Variable String :=
  ⟨envName, defaultValue, fun rawValue => some (normalize (strip rawValue)) |>.filter (· ∈ allowedValues)⟩

def boolVariable (envName : String) : Variable Bool where
  envName := envName
  defaultValue := false
  means rawValue :=
    if letters.lower (strip rawValue) ∈ ["1", "true", "yes", "y", "on"] then some true
    else if letters.lower (strip rawValue) ∈ ["0", "false", "no", "n", "off"] then some false
    else none

def positive (value : ℤ) : Bool := 1 ≤ value

def isPortNumber (value : ℤ) : Bool := 1 ≤ value ∧ value ≤ 65535

def maxMemoryMb : Variable ℤ := intVariable py "CACHE_MAX_MEMORY_MB" 100 positive

def maxItems : Variable ℤ := intVariable py "CACHE_MAX_ITEMS" 1000 positive

/-- A value may take all of the memory, and no more. -/
def maxValueBytes (maxMemoryMb : ℤ) : Variable ℤ :=
  intVariable py "CACHE_MAX_VALUE_BYTES" (maxMemoryMb * 1024 * 1024) fun value =>
    1 ≤ value ∧ value ≤ maxMemoryMb * 1024 * 1024

def cleanupInterval : Variable ℤ := intVariable py "CACHE_CLEANUP_INTERVAL" 10 positive

def port : Variable ℤ := intVariable py "CACHE_PORT" 50051 isPortNumber

def healthPort : Variable ℤ := intVariable py "CACHE_HEALTH_PORT" 8080 isPortNumber

def logLevel : Variable String := choiceVariable "CACHE_LOG_LEVEL" "INFO" LOG_LEVELS letters.upper

def logFormat : Variable String := choiceVariable "CACHE_LOG_FORMAT" "text" LOG_FORMATS letters.lower

def backend : Variable String := choiceVariable "CACHE_BACKEND" "memory" BACKENDS letters.lower

def tlsEnabled : Variable Bool := boolVariable letters "CACHE_TLS_ENABLED"

def tlsRequireClientAuth : Variable Bool := boolVariable letters "CACHE_TLS_REQUIRE_CLIENT_AUTH"

/-- The variables that are checked, in the order in which they are read, and whether they can be used. -/
def checked (getenv : Getenv) : List (String × Bool) :=
  [("CACHE_MAX_MEMORY_MB", ((maxMemoryMb py).read getenv).isSome),
    ("CACHE_MAX_ITEMS", ((maxItems py).read getenv).isSome),
    ("CACHE_MAX_VALUE_BYTES",
      (((maxMemoryMb py).read getenv).bind fun memory => (maxValueBytes py memory).read getenv).isSome),
    ("CACHE_CLEANUP_INTERVAL", ((cleanupInterval py).read getenv).isSome),
    ("CACHE_PORT", ((port py).read getenv).isSome),
    ("CACHE_HEALTH_PORT", ((healthPort py).read getenv).isSome),
    ("CACHE_LOG_LEVEL", ((logLevel letters).read getenv).isSome),
    ("CACHE_LOG_FORMAT", ((logFormat letters).read getenv).isSome),
    ("CACHE_BACKEND", ((backend letters).read getenv).isSome),
    ("CACHE_TLS_ENABLED", ((tlsEnabled letters).read getenv).isSome),
    ("CACHE_TLS_REQUIRE_CLIENT_AUTH", ((tlsRequireClientAuth letters).read getenv).isSome)]

/-- Every setting is what the environment says. -/
structure Configured (getenv : Getenv) (settings : Settings) : Prop where
  maxMemoryMb : (maxMemoryMb py).read getenv = some settings.maxMemoryMb
  maxItems : (maxItems py).read getenv = some settings.maxItems
  maxValueBytes : (maxValueBytes py settings.maxMemoryMb).read getenv = some settings.maxValueBytes
  cleanupInterval : (cleanupInterval py).read getenv = some settings.cleanupInterval
  port : (port py).read getenv = some settings.port
  healthPort : (healthPort py).read getenv = some settings.healthPort
  logLevel : (logLevel letters).read getenv = some settings.logLevel
  logFormat : (logFormat letters).read getenv = some settings.logFormat
  backend : (backend letters).read getenv = some settings.backend
  tlsEnabled : (tlsEnabled letters).read getenv = some settings.tlsEnabled
  tlsRequireClientAuth : (tlsRequireClientAuth letters).read getenv = some settings.tlsRequireClientAuth
  host : settings.host = (getenv "CACHE_HOST").getD "[::]"
  healthHost : settings.healthHost = (getenv "CACHE_HEALTH_HOST").getD "0.0.0.0"
  sqlitePath : settings.sqlitePath = (getenv "CACHE_SQLITE_PATH").getD "tiny-cache.sqlite3"
  tlsPaths : settings.tlsCertPath = getenv "CACHE_TLS_CERT_PATH" ∧
    settings.tlsKeyPath = getenv "CACHE_TLS_KEY_PATH" ∧
    settings.tlsClientCaPath = getenv "CACHE_TLS_CLIENT_CA_PATH"

end

/-- The store of the backend that is set: an empty one, or one on what is in the database, unless a
statement raises. -/
inductive Created (db : Engine) (files : String → Connection) (settings : Settings) :
    Except PyError CacheStoreLifecyclePort → Prop
  | memory (h : settings.backend = "memory") :
      Created db files settings (.ok (.memory (CacheStore.init settings.limits)))
  | sqlite {store : SqliteCacheStore} (h : settings.backend = "sqlite") (hlimits : store.limits = settings.limits)
      (htable : store.table = (files settings.sqlitePath).table) :
      Created db files settings (.ok (.sqlite settings.sqlitePath store))
  | failed (h : settings.backend = "sqlite") (hdb : ¬ db.Reliable) :
      Created db files settings (.error .sqliteError)

/-- How it ends that settings are loaded, and a store is made of them: the limits that it enforces are
those that are set, and none is cut. Or the first variable that cannot be used is named. -/
inductive Loaded (py : Builtins) (letters : Casing) (getenv : Getenv) : Except PyError Settings → Prop
  | ok {settings : Settings} (hsettings : Configured py letters getenv settings)
      (hvalue : settings.limits.maxValueBytes = settings.maxValueBytes)
      (hstore : ∀ db files, Created db files settings (createCacheStore db files settings)) :
      Loaded py letters getenv (.ok settings)
  | error {before later : List (String × Bool)} {envName rawValue : String} {x : PyError}
      (h : checked py letters getenv = before ++ (envName, false) :: later)
      (hbefore : ∀ p ∈ before, p.2 = true) (hset : getenv envName = some rawValue)
      (hx : Complains envName x) : Loaded py letters getenv (.error x)

end Process

end TinyCache
