import TinyCache.Proofs.SqliteRefines

/-! The limits of a session on a file that was filled under others. A write brings the
bytes back under their limit; the items only when its key is new, since a row that is
written over frees its own place. -/

namespace TinyCache.SqliteCacheStore

open Machine

variable {db : Engine} {s u t : SqliteCacheStore}

/-- The write found a row of its key and put another in its place. -/
def Overwrites (r : Obs SqliteCacheStore) (w : Write) : Prop :=
  r.before.table.get? w.key ≠ none ∧
    ∀ key value ttl, r.input.action ≠ .client (.setIfAbsent key value ttl)

/-- The table after an accepted write. -/
structure Bounded (limits : CacheStoreLimits) (overwritten : Prop) (s t : Table) : Prop where
  memory : (t.items.map fun p => p.2.sizeBytes).sum ≤ limits.maxMemoryBytes
  items : (t.length : ℤ) ≤ limits.maxItems ∨ overwritten ∧ t.length ≤ s.length

/-- A row over which another is written makes up for it; without one there is room. -/
theorem Stored.bounded {isNewKey : Bool} {key : Key} {row : Row} {gone rest : List (Key × Row)}
    (h : Stored u isNewKey key row gone t rest) {overwritten : Prop}
    (hold : isNewKey = false → overwritten ∧ u.table.length + 1 = s.table.length) :
    Bounded u.limits overwritten s.table t.table := by
  obtain ⟨hmemory, hitems⟩ := h.trimmed.fits
  have hlen := h.items.length_eq
  rw [List.length_append, List.length_singleton] at hlen
  refine ⟨?_, ?_⟩
  · have hsum := sum_sizes_perm h.items
    rw [sizes_append, List.sum_append] at hsum
    change (sizes t.table.items).sum ≤ _
    rw [hsum]
    simpa [sizes] using hmemory
  · cases isNewKey with
    | true =>
      left
      have hroom := hitems rfl
      rw [length_sizes] at hroom
      rw [OrderedDict.length, hlen]
      omega
    | false =>
      right
      obtain ⟨hover, hgone⟩ := hold rfl
      have hperm := h.perm.length_eq
      rw [List.length_append] at hperm
      unfold OrderedDict.length at hgone ⊢
      exact ⟨hover, by omega⟩

theorem Outcome.bounded {event : Event} {reply : Reply} (h : Outcome s event.clock event.action reply t)
    {w : Write} (hw : accepted? event (.ok reply) = some w) :
    Bounded s.limits (Overwrites ⟨s, event, .ok reply, t⟩ w) s.table t.table := by
  obtain ⟨action, clock⟩ := event
  cases h with
  | @set key value ttl st t _ hwrite =>
    cases hwrite with
    | tooLarge => cases hw
    | stored _ hst =>
      cases hw
      rw [← popped_limits s key (s.table.get? key)]
      refine hst.bounded fun hnew => ?_
      rw [Option.isNone_eq_false_iff, Option.isSome_iff_exists] at hnew
      obtain ⟨row, hrow⟩ := hnew
      rw [hrow]
      refine ⟨⟨?_, fun _ _ _ h => by cases h⟩, (OrderedDict.length_erase hrow).symm⟩
      change s.table.get? key ≠ none
      simp [hrow]
  | setIfAbsentMissing _ _ hwrite =>
    cases hwrite with
    | tooLarge => cases hw
    | stored _ hst => exact hst.bounded fun hnew => by cases hnew
  | setIfAbsentExpired _ _ _ hwrite =>
    cases hwrite with
    | tooLarge => cases hw
    | stored _ hst => exact hst.bounded fun hnew => by cases hnew
  | @compareAndSetMatch key _ value ttl row st t _ hk _ _ hwrite =>
    cases hwrite with
    | tooLarge => cases hw
    | stored _ hst =>
      cases hw
      refine hst.bounded fun _ => ⟨⟨?_, fun _ _ _ h => by cases h⟩, (OrderedDict.length_erase hk).symm⟩
      change s.table.get? key ≠ none
      simp [hk]
  | _ => cases hw

/-- After every accepted write of a session, whatever it found in the file, the rows fit
the memory limit; they fit the item limit unless the write replaced a row, and then they
have not become more. -/
theorem limits_hold_after_writes {s₀ : SqliteCacheStore} (hopens : World.Opens db s₀)
    (events : List Event) {r : Obs SqliteCacheStore} (hr : r ∈ trace (step db) s₀ events) {w : Write}
    (hw : r.write? = some w) :
    Bounded s₀.limits (Overwrites r w) r.before.table r.after.table := by
  obtain ⟨hacc, hlimits, hrec⟩ := trace_accounted db hopens.accounted events r hr
  rw [← hlimits]
  rw [hrec] at hw ⊢
  rcases hstep : step db r.before r.input with ⟨x | reply, t⟩
  · rw [Obs.write?, record, hstep] at hw
    cases hw
  · rw [Obs.write?, record, hstep] at hw
    rw [record, hstep]
    exact (step_ok hacc hstep).bounded hw

/-- Two rows are left by a session for two items; the next one, for one item, writes over
the first of them. -/
theorem limits_hold_after_writes_run :
    ∃ s₀, World.Opens ⟨fun _ => false, fun _ => 0⟩ s₀ ∧
      ∃ r ∈ trace (step ⟨fun _ => false, fun _ => 0⟩) s₀ [(Op.set "a" [3] none).atTime 2],
        ∃ w, Obs.write? r = some w ∧ Bounded s₀.limits (Overwrites r w) r.before.table r.after.table := by
  have hopens : World.Opens ⟨fun _ => false, fun _ => 0⟩ _ :=
    ⟨⟨fun _ => false, fun _ => 0⟩, [.reopen ⟨some 2, some 1, some 10, some 40⟩,
      .call ((Op.set "a" [1] none).atTime 0), .call ((Op.set "b" [2] none).atTime 1)],
      ⟨some 1, some 1, some 10, some 40⟩, _, rfl⟩
  have hmem := fun s => @record_mem _ _ _ (step ⟨fun _ => false, fun _ => 0⟩) s
    ((Op.set "a" [3] none).atTime 2) []
  exact ⟨_, hopens, _, hmem _, ⟨"a", [3], none, 2⟩, rfl, limits_hold_after_writes hopens _ (hmem _) rfl⟩

theorem items_exceed_limit_after_write :
    ¬ ∀ (db : Engine) (s₀ : SqliteCacheStore), World.Opens db s₀ → ∀ events,
      ∀ r ∈ trace (step db) s₀ events, ∀ w, Obs.write? r = some w →
        (r.after.table.length : ℤ) ≤ s₀.limits.maxItems ∧
          (r.after.table.items.map fun p => p.2.sizeBytes).sum ≤ s₀.limits.maxMemoryBytes := by
  intro h
  have hopens : World.Opens ⟨fun _ => false, fun _ => 0⟩ _ :=
    ⟨⟨fun _ => false, fun _ => 0⟩, [.reopen ⟨some 2, some 1, some 10, some 40⟩,
      .call ((Op.set "a" [1] none).atTime 0), .call ((Op.set "b" [2] none).atTime 1)],
      ⟨some 1, some 1, some 10, some 40⟩, _, rfl⟩
  have hitems := (h _ _ hopens _ _ (record_mem _ ((Op.set "a" [3] none).atTime 2) [])
    ⟨"a", [3], none, 2⟩ rfl).1
  revert hitems
  decide +kernel

end TinyCache.SqliteCacheStore
