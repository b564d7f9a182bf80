import TinyCache.Library.Recency
import TinyCache.Spec.History
import TinyCache.Spec.Sessions

/-! Least recently used over the life of a file: which steps use an entry, and the reading
that a use leaves in `last_accessed`. -/

namespace TinyCache

/-- The entry that a step uses, by an accepted write or by a `get` that finds it. -/
def used? (event : Event) (reply : Except PyError Reply) : Option Key :=
  match event.action, reply with
  | .client (.get key), .ok (.value (some _)) => some key
  | _, _ => (accepted? event reply).map Write.key

/-- The reading that an operation on the entry `old` of its key stamps it with, if it comes
to use it. -/
def Op.stamp? (maxValueBytes : ℤ) (clock : ℕ → Time) (old : Option CacheEntry) : Op → Option Time :=
  let live := old.filter fun e => !e.isExpired (clock 0)
  let write value (now : Time) := if getsizeof value > maxValueBytes then none else some now
  fun
  | .get _ => live.map fun _ => clock 1
  | .set _ value _ => write value (clock 1)
  | .setIfAbsent _ value _ => if live.isSome then none else write value (clock 2)
  | .compareAndSet _ expectedValue value _ =>
    live.bind fun e => if e.value ≠ expectedValue then none else write value (clock 2)
  | .delete _ | .stats | .clear => none

/-- The calls of each session. -/
def sessions (events : List SessionEvent) : List (List Event) :=
  events.foldr
    (fun event later => match event with
      | .call event => (event :: later.headD []) :: later.tail
      | .reopen _ => [] :: later)
    [[]]

abbrev SessionObs := Machine.Step World SessionEvent (Except PyError Reply)

namespace SessionObs

def used? (r : SessionObs) : Option Key :=
  match r.input with
  | .call event => TinyCache.used? event r.output
  | .reopen _ => none

/-- The key that the step comes to use, with the reading it is stamped with. -/
def stamp? (r : SessionObs) : Option (Key × Time) :=
  match r.before, r.input with
  | .opened s, .call ⟨.client op, clock⟩ => do
    let key ← op.key?
    let _ ← (validateKey key).toOption
    let now ← op.stamp? s.limits.maxValueBytes clock ((s.table.get? key).map SqliteCacheStore.rowToEntry)
    return (key, now)
  | _, _ => none

/-- The reading is later than what is stamped on any other row. -/
def StampsLast (r : SessionObs) : Prop :=
  ∀ use ∈ r.stamp?, ∀ p ∈ r.before.connection.table.items, p.1 ≠ use.1 → p.2.lastAccessed < use.2

instance (r : SessionObs) : Decidable r.StampsLast :=
  inferInstanceAs (Decidable (∀ use ∈ r.stamp?, ∀ p ∈ r.before.connection.table.items,
    p.1 ≠ use.1 → p.2.lastAccessed < use.2))

/-- Of the rows of other keys, those that go are evicted one after another, and each of them
was last used before every other that is still there. -/
def EvictsLeastRecentlyUsed (history : List SessionObs) (r : SessionObs) : Prop :=
  ∀ op clock key, r.input = .call ⟨.client op, clock⟩ → op.key? = some key →
    ∃ gone,
      (r.before.connection.table.erase key).items.Perm
        (gone ++ (r.after.connection.table.erase key).items) ∧
      (gone.Pairwise fun p q => Recency.UsedBefore used? history p.1 q.1) ∧
      ∀ p ∈ gone, ∀ q ∈ (r.after.connection.table.erase key).items,
        Recency.UsedBefore used? history p.1 q.1

end SessionObs

end TinyCache
