import TinyCache.Spec.Passes
import TinyCache.Spec.Sessions

/-! The life of a store with its cleaner, which is a thread of its own until `stop` ends it. -/

namespace TinyCache

/-- Where `run` stands: in `_stop_event.wait`, in a pass, or at its end. A pass that is still
`waiting` has its snapshot ahead of it. -/
inductive CleanerThread
  | waiting
  | working (pass : CleanerPass)
  | ended
  deriving DecidableEq

/-- Where `stop` stands: it has set the event and waits for the thread, or it has returned. -/
inductive StopPhase
  | notCalled
  | joining
  | returned
  deriving DecidableEq

structure Lifetime (σ : Type) where
  store : σ
  thread : CleanerThread
  stopEvent : Bool
  stop : StopPhase

/-- Whose turn it is; `join` may give up waiting. -/
inductive LifeTurn
  | client (op : Op) (clock : ℕ → Time)
  | cleaner (clock : ℕ → Time)
  | stop (timedOut : Bool)

def LifeTurn.isCleaner : LifeTurn → Bool
  | .cleaner _ => true
  | .client _ _ | .stop _ => false

/-- What the threads do to the store. -/
structure Backend (σ : Type) where
  call : (ℕ → Time) → Op → Act PyError σ Reply
  cleaner : ExpiredEntryCleaner σ
  close : σ → σ

namespace Lifetime

variable {σ : Type} (backend : Backend σ)

/-- The constructor, with `start_cleaner` or without. -/
def start (store : σ) (startCleaner : Bool) : Lifetime σ :=
  ⟨store, if startCleaner then .waiting else .ended, false, .notCalled⟩

/-- A step of `run`; a wait that is not ended by the event times out. -/
def advance (clock : ℕ → Time) (self : Lifetime σ) : Lifetime σ :=
  match self.thread with
  | .waiting => { self with thread := if self.stopEvent then .ended else .working .waiting }
  | .working pass =>
    let shared := backend.cleaner.advance clock ⟨self.store, pass⟩
    { self with
      store := shared.store
      thread := if shared.pass = .waiting then .waiting else .working shared.pass }
  | .ended => self

def finish (self : Lifetime σ) : Lifetime σ :=
  { self with store := backend.close self.store, stop := .returned }

/-- A step of `stop`. -/
def advanceStop (timedOut : Bool) (self : Lifetime σ) : Lifetime σ :=
  match self.stop with
  | .notCalled =>
    if self.thread = .ended then finish backend { self with stopEvent := true }
    else { self with stopEvent := true, stop := .joining }
  | .joining => if self.thread = .ended ∨ timedOut = true then finish backend self else self
  | .returned => self

def step (self : Lifetime σ) : LifeTurn → Except PyError Reply × Lifetime σ
  | .client op clock =>
    ((backend.call clock op self.store).1, { self with store := (backend.call clock op self.store).2 })
  | .cleaner clock => (.ok .done, self.advance backend clock)
  | .stop timedOut => (.ok .done, self.advanceStop backend timedOut)

end Lifetime

def CacheStore.backend : Backend CacheStore := ⟨call, cleaner, id⟩

/-- A closed connection raises at every statement. -/
def Engine.closed : Engine := ⟨fun _ => true, fun _ => 0⟩

/-- The SQLite store, and whether its connection is closed. -/
structure SqliteSession where
  store : SqliteCacheStore
  closed : Bool

namespace SqliteSession

variable (db : Engine)

def engine (self : SqliteSession) : Engine := if self.closed then .closed else db

def onStore {α : Type} (m : Engine → Act PyError SqliteCacheStore α) : Act PyError SqliteSession α :=
  fun self => Act.zoom store (fun store self => { self with store := store }) (m (self.engine db)) self

def backend : Backend SqliteSession where
  call clock op := onStore db fun db => SqliteCacheStore.call db clock op
  cleaner :=
    { snapshotItems := onStore db fun db => SqliteCacheStore.snapshotItems db
      removeIfExpired := fun clock key => onStore db fun db => SqliteCacheStore.removeIfExpired db clock key
      isExpired := SqliteCacheStore.isExpired }
  close self := { self with closed := true }

/-- Nothing comes to the file of the store any more, and who still calls is told so. -/
structure AtRest (self : Lifetime SqliteSession) : Prop where
  rows : ∀ later,
    (Machine.exec (Lifetime.step (backend db)) self later).store.store.table = self.store.store.table
  refused : ∀ later, ∀ r ∈ Machine.trace (Lifetime.step (backend db)) self later, ∀ op clock,
    r.input = .client op clock → ∃ x, r.output = .error x ∧
      (x = .sqliteError ∨ ∃ key, op.key? = some key ∧ validateKey key = .error x)

end SqliteSession

/-- Once it is told to stop, the thread ends in time, and `stop` returns: when the thread has
ended, or when it has waited long enough. -/
structure Lifetime.Stops {σ : Type} (backend : Backend σ) (most : ℕ) (self : Lifetime σ) : Prop where
  ends : self.stopEvent = true → ∀ later : List LifeTurn,
    2 * most + 4 ≤ (later.filter LifeTurn.isCleaner).length →
    (Machine.exec (step backend) self later).thread = .ended
  told : self.stop ≠ .notCalled → self.stopEvent = true
  returns : self.stop = .joining → ∀ timedOut,
    (self.step backend (.stop timedOut)).2.stop = .returned ↔ self.thread = .ended ∨ timedOut = true

end TinyCache
