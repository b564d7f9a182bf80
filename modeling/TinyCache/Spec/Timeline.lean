import TinyCache.Spec.History
import TinyCache.Spec.Sessions

/-! Sessions in real time. The clock of a session measures seconds faithfully, but what it
read at time zero may be anything and another number in the next session; nothing more is
known of `time.monotonic`. -/

namespace TinyCache

structure Timeline where
  world : World
  origin : Time

/-- A call says when it reads the clock; a new session what its clock read at time zero. -/
inductive TimedEvent
  | call (action : Action) (real : ℕ → Time)
  | reopen (args : LimitArgs) (origin : Time)

namespace Timeline

def new : Timeline := ⟨.new, 0⟩

def step (db : Engine) (self : Timeline) : TimedEvent → Except PyError Reply × Timeline
  | .call action real =>
    let called := self.world.call db ⟨action, fun i => self.origin + real i⟩
    (called.1, ⟨called.2, self.origin⟩)
  | .reopen args origin =>
    let reopened := self.world.reopen db args
    (reopened.1, ⟨reopened.2, origin⟩)

/-- What a client can find in the file. -/
def entries (self : Timeline) : Entries := fun key =>
  (self.world.connection.table.get? key).map SqliteCacheStore.rowToEntry

end Timeline

abbrev TimedObs := Machine.Step Timeline TimedEvent (Except PyError Reply)

/-- The accepted write of a step, with the real time at which it was stamped. -/
def TimedObs.write? (r : TimedObs) : Option Write :=
  match r.input with
  | .call action real => accepted? ⟨action, real⟩ r.output
  | .reopen _ _ => none

/-- The action looks for expired entries and does nothing else to the table. -/
def Action.Purges : Action → Prop
  | .client (.get _) | .client .stats | .cleaner _ => True
  | .client _ => False

/-- TTLs count real seconds: a value is returned only while its write is live, and what a
purge removes is no longer live. -/
structure TtlHonoured (history : List TimedObs) : Prop where
  returned : ∀ pre post r key real v, history = pre ++ r :: post →
    r.input = .call (.client (.get key)) real → r.output = .ok (.value (some v)) →
    ∃ w since, LastWriteBy TimedObs.write? key pre w since ∧ w.value = v ∧ w.Live (real 0)
  removed : ∀ pre post r action real key, history = pre ++ r :: post →
    r.input = .call action real → action.Purges →
    r.before.entries key ≠ none → r.after.entries key = none →
    ∃ w since, LastWriteBy TimedObs.write? key pre w since ∧ ∃ i, ¬ w.Live (real i)

end TinyCache
