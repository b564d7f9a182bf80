import TinyCache.Spec.Cleaner

/-! How far a pass of the cleaner has come, and what is left to it. -/

namespace TinyCache

namespace Turn

def clock : Turn → ℕ → Time
  | .client _ clock | .cleaner clock => clock

def isCleaner : Turn → Bool
  | .client _ _ => false
  | .cleaner _ => true

end Turn

/-- No entry is left that had expired by `now`. -/
def Entries.Fresh (m : Entries) (now : Time) : Prop := ∀ key e, m key = some e → e.isExpired now = false

namespace CleanerPass

/-- The turns that the cleaner needs at most for the rest of its pass: each item is looked at,
and may have to be removed. -/
def left : CleanerPass → ℕ
  | .waiting => 0
  | .checking items expiredKeys => 2 * items.length + expiredKeys.length + 2
  | .removing expiredKeys => expiredKeys.length + 1

/-- The pass will still come to an entry. -/
def Reaches (pass : CleanerPass) (key : Key) (e : CacheEntry) : Prop :=
  match pass with
  | .waiting => False
  | .checking items expiredKeys => (key, e) ∈ items ∨ key ∈ expiredKeys
  | .removing expiredKeys => key ∈ expiredKeys

/-- What had expired by `now` and is still there is ahead of the pass. -/
def Covers (pass : CleanerPass) (now : Time) (m : Entries) : Prop :=
  ∀ key e, m key = some e → e.isExpired now = true → pass.Reaches key e

end CleanerPass

/-- The callbacks of a cleaner, and the calls of the clients, on a store that is a cache as long
as `Inv` holds. -/
structure ExpiredEntryCleaner.Serves {σ : Type} (cleaner : ExpiredEntryCleaner σ)
    (call : (ℕ → Time) → Op → Act PyError σ Reply) (entries : σ → Entries) (Inv : σ → Prop) : Prop where
  expired : ∀ now e, cleaner.isExpired now e = e.isExpired now
  snapshot : ∀ s, Inv s → ∃ items t, cleaner.snapshotItems s = (.ok items, t) ∧ Inv t ∧
    entries t = entries s ∧ ∀ key e, entries s key = some e → (key, e) ∈ items
  remove : ∀ s clock key, Inv s → ∃ t, cleaner.removeIfExpired clock key s = (.ok (), t) ∧ Inv t ∧
    entries t = (entries s).purge (clock 0) key
  client : ∀ s clock op, Inv s → Inv (call clock op s).2 ∧ ∃ maxValueBytes,
    Allowed maxValueBytes clock (entries s) (.client op) (call clock op s).1 (entries (call clock op s).2)

end TinyCache
