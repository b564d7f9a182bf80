import TinyCache.Library.Machine
import TinyCache.Spec.SqliteStore

/-! The life of a database file: one store after another is opened on it, and its table outlasts
them all. Beside it a store that goes on without a restart. -/

namespace TinyCache

/-- The file, without an open store or with one. -/
inductive World
  | closed (connection : Connection)
  | opened (store : SqliteCacheStore)

inductive SessionEvent
  | call (event : Event)
  | reopen (args : LimitArgs)

namespace World

/-- A file that has not been opened yet. -/
def new : World := .closed .new

def connection : World → Connection
  | .closed connection => connection
  | .opened store => store.connection

/-- Closing whatever store is open and constructing a new one; when the constructor
raises, none is open. -/
def reopen (db : Engine) (self : World) (args : LimitArgs) : Except PyError Reply × World :=
  match SqliteCacheStore.init db args self.connection with
  | (.ok store, _) => (.ok .done, .opened store)
  | (.error x, connection) => (.error x, .closed connection)

/-- Without an open store there is nothing to call. -/
def call (db : Engine) (event : Event) : World → Except PyError Reply × World
  | .closed connection => (.ok .done, .closed connection)
  | .opened store =>
    ((SqliteCacheStore.step db store event).1, .opened (SqliteCacheStore.step db store event).2)

def step (db : Engine) (self : World) : SessionEvent → Except PyError Reply × World
  | .call event => self.call db event
  | .reopen args => self.reopen db args

/-- `s` is a new store on what earlier sessions have left, whichever statements of theirs
have raised. -/
def Opens (db : Engine) (s : SqliteCacheStore) : Prop :=
  ∃ db₀ history args c,
    SqliteCacheStore.init db args (Machine.exec (step db₀) new history).connection = (.ok s, c)

end World

namespace SqliteCacheStore

/-- All that happens to a store that goes on where another is opened anew on its file: it gets the
new limits and counts from zero. -/
def resumed (self : SqliteCacheStore) (limits : CacheStoreLimits) : SqliteCacheStore :=
  { self with
    limits := limits
    hits := 0
    misses := 0
    evictions := 0
    lruEvictions := 0
    expiredRemovals := 0
    rejectedOversize := 0
    rejectedCapacity := 0 }

/-- The store that is never closed. -/
def continued (db : Engine) (self : SqliteCacheStore) : SessionEvent → Except PyError Reply × SqliteCacheStore
  | .call event => step db self event
  | .reopen args =>
    match CacheStoreLimits.resolve args with
    | .ok limits => (.ok .done, self.resumed limits)
    | .error x => (.error x, self)

end SqliteCacheStore

end TinyCache
