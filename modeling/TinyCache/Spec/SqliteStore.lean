import TinyCache.Library.Act
import TinyCache.Library.OrderedDict
import TinyCache.Spec.Models

/-! The SQLite backend. The table lives in the connection and outlasts the store; the
counters are fields of the store. Any statement may raise, and then it has left the
table as it was: a `with self.connection` block holds one statement, so a failed
block is a failed statement. -/

namespace TinyCache

/-- A row of `cache_entries`, next to its key. -/
structure Row where
  value : Bytes
  ttl : Option ℤ
  createdAt : Time
  lastAccessed : Time
  sizeBytes : ℤ
  deriving DecidableEq

/-- The rows in the order of their rowids. -/
abbrev Table := OrderedDict Key Row

/-- The database, with the number of statements executed so far. -/
structure Connection where
  table : Table
  statements : ℕ

/-- What SQLite decides by itself: whether the `n`-th statement raises, and which of
several equal rows a `LIMIT 1` in it returns. -/
structure Engine where
  raises : ℕ → Bool
  tie : ℕ → ℕ

def Engine.Reliable (db : Engine) : Prop := ∀ n, db.raises n = false

namespace Connection

variable (db : Engine)

/-- The database file before its first session. -/
def new : Connection := ⟨.empty, 0⟩

def execute {α : Type} (statement : ℕ → Table → α × Table) : Act PyError Connection α := fun self =>
  if db.raises self.statements then
    (.error .sqliteError, { self with statements := self.statements + 1 })
  else
    (.ok (statement self.statements self.table).1,
      ⟨(statement self.statements self.table).2, self.statements + 1⟩)

/-- `PRAGMA ..` -/
def pragma : Act PyError Connection Unit := execute db fun _ table => ((), table)

/-- `CREATE TABLE IF NOT EXISTS cache_entries ..`; a missing table has no rows. -/
def createTable : Act PyError Connection Unit := execute db fun _ table => ((), table)

/-- `SELECT COALESCE(SUM(size_bytes), 0) ..` -/
def selectTotalBytes : Act PyError Connection ℤ :=
  execute db fun _ table => ((table.items.map fun p => p.2.sizeBytes).sum, table)

/-- `SELECT COUNT(*) ..` -/
def selectCount : Act PyError Connection ℤ := execute db fun _ table => (table.length, table)

/-- `SELECT .. WHERE key = ?` -/
def selectRow (key : Key) : Act PyError Connection (Option Row) :=
  execute db fun _ table => (table.get? key, table)

/-- `SELECT .. FROM cache_entries` -/
def selectAll : Act PyError Connection (List (Key × Row)) :=
  execute db fun _ table => (table.items, table)

/-- `INSERT OR REPLACE ..`; the row gets a new rowid, the largest. -/
def insertOrReplace (key : Key) (row : Row) : Act PyError Connection Unit :=
  execute db fun _ table => ((), table.putLast key row)

/-- `DELETE .. WHERE key = ?` -/
def deleteRow (key : Key) : Act PyError Connection Unit :=
  execute db fun _ table => ((), table.erase key)

/-- `DELETE FROM cache_entries` -/
def deleteAll : Act PyError Connection Unit := execute db fun _ _ => ((), .empty)

/-- `UPDATE .. SET last_accessed = ? WHERE key = ?` -/
def updateLastAccessed (key : Key) (now : Time) : Act PyError Connection Unit :=
  execute db fun _ table => ((), table.replace key fun row => { row with lastAccessed := now })

/-- The rows that no other row is older than. -/
def oldest (table : Table) : List (Key × Row) :=
  table.items.filter fun p => table.items.all fun q => decide (p.2.lastAccessed ≤ q.2.lastAccessed)

/-- `SELECT key .. ORDER BY last_accessed ASC LIMIT 1` -/
def selectLru : Act PyError Connection (Option Key) :=
  execute db fun n table =>
    (((oldest table)[db.tie n % (oldest table).length]?).map Prod.fst, table)

end Connection

structure SqliteCacheStore where
  limits : CacheStoreLimits
  connection : Connection
  currentMemoryBytes : ℤ
  entryCount : ℤ
  hits : ℕ
  misses : ℕ
  evictions : ℕ
  lruEvictions : ℕ
  expiredRemovals : ℕ
  rejectedOversize : ℕ
  rejectedCapacity : ℕ

namespace SqliteCacheStore

def table (self : SqliteCacheStore) : Table := self.connection.table

variable (db : Engine)

/-- The constructor, run on the database it connects to. -/
def init (args : LimitArgs) : Act PyError Connection SqliteCacheStore := do
  let limits ← .check (CacheStoreLimits.resolve args)
  Connection.pragma db
  Connection.pragma db
  Connection.pragma db
  Connection.createTable db
  let currentMemoryBytes ← Connection.selectTotalBytes db
  let entryCount ← Connection.selectCount db
  let connection ← .read
  return {
    limits := limits
    connection := connection
    currentMemoryBytes := currentMemoryBytes
    entryCount := entryCount
    hits := 0
    misses := 0
    evictions := 0
    lruEvictions := 0
    expiredRemovals := 0
    rejectedOversize := 0
    rejectedCapacity := 0 }

def sql {α : Type} (m : Act PyError Connection α) : Act PyError SqliteCacheStore α :=
  Act.zoom connection (fun c self => { self with connection := c }) m

def isExpired (now : Time) (entry : CacheEntry) : Bool := entry.isExpired now

def rowToEntry (row : Row) : CacheEntry := .new row.value row.ttl row.createdAt

def getRowLocked (key : Key) : Act PyError SqliteCacheStore (Option Row) :=
  sql (Connection.selectRow db key)

def insertRowLocked (now : Time) (key : Key) (entry : CacheEntry) : Act PyError SqliteCacheStore Unit := do
  sql (Connection.insertOrReplace db key
    { value := entry.value
      ttl := entry.ttl
      createdAt := entry.createdAt
      lastAccessed := now
      sizeBytes := entry.sizeBytes })
  .modify fun self =>
    { self with
      currentMemoryBytes := self.currentMemoryBytes + entry.sizeBytes
      entryCount := self.entryCount + 1 }

def restoreRowLocked (key : Key) (row : Row) : Act PyError SqliteCacheStore Unit := do
  sql (Connection.insertOrReplace db key row)
  .modify fun self =>
    { self with
      currentMemoryBytes := self.currentMemoryBytes + row.sizeBytes
      entryCount := self.entryCount + 1 }

def removeEntryLocked (key : Key) : Act PyError SqliteCacheStore Bool := do
  match ← getRowLocked db key with
  | none => return false
  | some row =>
    sql (Connection.deleteRow db key)
    .modify fun self =>
      { self with
        currentMemoryBytes := self.currentMemoryBytes - row.sizeBytes
        entryCount := self.entryCount - 1 }
    return true

def removeExpiredEntryLocked (key : Key) : Act PyError SqliteCacheStore Bool := do
  let removed ← removeEntryLocked db key
  if removed then
    .modify fun self => { self with expiredRemovals := self.expiredRemovals + 1 }
    return removed
  else return removed

/-- The loop over the selected rows, from the `i`-th on. -/
def removeExpiredRows (clock : ℕ → Time) : ℕ → List (Key × Row) → Act PyError SqliteCacheStore Unit
  | _, [] => pure ()
  | i, (key, row) :: rows => do
    if isExpired (clock i) (rowToEntry row) then
      let _ ← removeExpiredEntryLocked db key
      removeExpiredRows clock (i + 1) rows
    else removeExpiredRows clock (i + 1) rows

def removeExpiredEntriesLocked (clock : ℕ → Time) : Act PyError SqliteCacheStore Unit := do
  removeExpiredRows db clock 0 (← sql (Connection.selectAll db))

def snapshotItems : Act PyError SqliteCacheStore (List (Key × CacheEntry)) := do
  let rows ← sql (Connection.selectAll db)
  return rows.map fun p => (p.1, rowToEntry p.2)

def removeIfExpired (clock : ℕ → Time) (key : Key) : Act PyError SqliteCacheStore Unit := do
  match ← getRowLocked db key with
  | none => pure ()
  | some row =>
    if isExpired (clock 0) (rowToEntry row) then
      let _ ← removeExpiredEntryLocked db key
      pure ()
    else pure ()

def evictLruLocked : Act PyError SqliteCacheStore Bool := do
  match ← sql (Connection.selectLru db) with
  | none => return false
  | some key =>
    if ← removeEntryLocked db key then
      .modify fun self =>
        { self with evictions := self.evictions + 1, lruEvictions := self.lruEvictions + 1 }
      return true
    else return false

/-- `while` the condition holds, `_evict_lru_locked`; `False` as soon as that fails. Every
round deletes a row, so there are at most as many as rows and one more. -/
def evictWhile (cond : SqliteCacheStore → Bool) : Act PyError SqliteCacheStore Bool := do
  Act.whileDo cond (evictLruLocked db) ((← .read).table.length + 1)

def evictToFitLocked (requiredBytes : ℤ) : Act PyError SqliteCacheStore Bool := do
  if ← evictWhile db fun self =>
      self.currentMemoryBytes + requiredBytes > self.limits.maxMemoryBytes && self.entryCount > 0 then
    let self ← .read
    return self.currentMemoryBytes + requiredBytes ≤ self.limits.maxMemoryBytes
  else return false

/-- `_remove_entry_locked` on an old row. -/
def removeOld (key : Key) (oldRow : Option Row) : Act PyError SqliteCacheStore Unit := do
  match oldRow with
  | some _ =>
    let _ ← removeEntryLocked db key
    pure ()
  | none => pure ()

/-- `_restore_row_locked` of an old row, on the branches that reject the new value. -/
def restore (key : Key) (oldRow : Option Row) : Act PyError SqliteCacheStore Unit :=
  match oldRow with
  | some row => restoreRowLocked db key row
  | none => pure ()

def rejectCapacity : Act PyError SqliteCacheStore CacheSetStatus := do
  .modify fun self => { self with rejectedCapacity := self.rejectedCapacity + 1 }
  return .capacityExhausted

/-- The memory check of `_store_value_locked`; `False` rejects the value. -/
def makeRoomForBytes (size : ℤ) : Act PyError SqliteCacheStore Bool := do
  let self ← .read
  if self.currentMemoryBytes + size > self.limits.maxMemoryBytes then evictToFitLocked db size
  else return true

/-- The item check of `_store_value_locked`, made for a new key only. -/
def makeRoomForItem (isNewKey : Bool) : Act PyError SqliteCacheStore Bool := do
  if isNewKey then evictWhile db fun self => decide (self.entryCount ≥ self.limits.maxItems)
  else return true

/-- `_store_value_locked` once the old row is gone; `accessed` is the reading of the insertion. -/
def writeValueLocked (accessed : Time) (key : Key) (entry : CacheEntry) (oldRow : Option Row) :
    Act PyError SqliteCacheStore CacheSetStatus := do
  if entry.sizeBytes > (← .read).limits.maxValueBytes then
    restore db key oldRow
    .modify fun self => { self with rejectedOversize := self.rejectedOversize + 1 }
    return .valueTooLarge
  else if ← makeRoomForBytes db entry.sizeBytes then
    if ← makeRoomForItem db oldRow.isNone then
      insertRowLocked db accessed key entry
      return .ok
    else rejectCapacity
  else
    restore db key oldRow
    rejectCapacity

def storeValueLocked (created accessed : Time) (key : Key) (value : Bytes) (ttl : Option ℤ)
    (oldRow : Option Row) : Act PyError SqliteCacheStore CacheSetStatus := do
  removeOld db key oldRow
  writeValueLocked db accessed key (.new value ttl created) oldRow

def get (clock : ℕ → Time) (key : Key) : Act PyError SqliteCacheStore (Option Bytes) := do
  .check (validateKey key)
  match ← getRowLocked db key with
  | none =>
    .modify fun self => { self with misses := self.misses + 1 }
    return none
  | some row =>
    let entry := rowToEntry row
    if isExpired (clock 0) entry then
      .modify fun self => { self with misses := self.misses + 1 }
      let _ ← removeExpiredEntryLocked db key
      return none
    else
      sql (Connection.updateLastAccessed db key (clock 1))
      .modify fun self => { self with hits := self.hits + 1 }
      return some entry.value

def set (clock : ℕ → Time) (key : Key) (value : Bytes) (ttl : Option ℤ) :
    Act PyError SqliteCacheStore CacheSetStatus := do
  .check (validateKey key)
  storeValueLocked db (clock 0) (clock 1) key value ttl (← getRowLocked db key)

def setIfAbsent (clock : ℕ → Time) (key : Key) (value : Bytes) (ttl : Option ℤ) :
    Act PyError SqliteCacheStore CacheConditionalSetStatus := do
  .check (validateKey key)
  match ← getRowLocked db key with
  | some row =>
    if isExpired (clock 0) (rowToEntry row) then
      let _ ← removeExpiredEntryLocked db key
      return conditionalStatusFromSetStatus
        (← storeValueLocked db (clock 1) (clock 2) key value ttl none)
    else return .exists_
  | none =>
    return conditionalStatusFromSetStatus
      (← storeValueLocked db (clock 1) (clock 2) key value ttl none)

def compareAndSet (clock : ℕ → Time) (key : Key) (expectedValue value : Bytes) (ttl : Option ℤ) :
    Act PyError SqliteCacheStore CacheConditionalSetStatus := do
  .check (validateKey key)
  match ← getRowLocked db key with
  | none => return .notFound
  | some row =>
    if isExpired (clock 0) (rowToEntry row) then
      let _ ← removeExpiredEntryLocked db key
      return .notFound
    else if (rowToEntry row).value ≠ expectedValue then return .mismatch
    else
      return conditionalStatusFromSetStatus
        (← storeValueLocked db (clock 1) (clock 2) key value ttl (some row))

def delete (key : Key) : Act PyError SqliteCacheStore Bool := do
  .check (validateKey key)
  removeEntryLocked db key

def snapshot (self : SqliteCacheStore) : CacheStatsSnapshot where
  size := self.entryCount
  hits := self.hits
  misses := self.misses
  evictions := self.evictions
  lruEvictions := self.lruEvictions
  expiredRemovals := self.expiredRemovals
  rejectedOversize := self.rejectedOversize
  rejectedCapacity := self.rejectedCapacity
  hitRate := hitRate self.hits self.misses
  memoryUsageBytes := self.currentMemoryBytes
  maxMemoryBytes := self.limits.maxMemoryBytes
  maxValueBytes := self.limits.maxValueBytes
  maxItems := self.limits.maxItems

def stats (clock : ℕ → Time) : Act PyError SqliteCacheStore CacheStatsSnapshot := do
  removeExpiredEntriesLocked db clock
  return (← .read).snapshot

def clear : Act PyError SqliteCacheStore Unit := do
  sql (Connection.deleteAll db)
  .modify fun self =>
    { self with
      currentMemoryBytes := 0
      entryCount := 0
      hits := 0
      misses := 0
      evictions := 0
      lruEvictions := 0
      expiredRemovals := 0
      rejectedOversize := 0
      rejectedCapacity := 0 }

/-- One operation of the port. -/
def call (clock : ℕ → Time) : Op → Act PyError SqliteCacheStore Reply
  | .get key => return .value (← get db clock key)
  | .set key value ttl => return .status (← set db clock key value ttl)
  | .setIfAbsent key value ttl => return .conditional (← setIfAbsent db clock key value ttl)
  | .compareAndSet key expectedValue value ttl =>
    return .conditional (← compareAndSet db clock key expectedValue value ttl)
  | .delete key => return .deleted (← delete db key)
  | .stats => return .stats (← stats db clock)
  | .clear => do clear db; return .done

def step (self : SqliteCacheStore) (event : Event) : Except PyError Reply × SqliteCacheStore :=
  match event.action with
  | .client op => call db event.clock op self
  | .cleaner key => (do removeIfExpired db event.clock key; return .done : Act _ _ _) self

end SqliteCacheStore

end TinyCache
