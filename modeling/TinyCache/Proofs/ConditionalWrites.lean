import TinyCache.Proofs.MemoryHistory
import TinyCache.Proofs.SqliteRefines

/-! Conditional writes lose no update, in any cache and so in both backends. -/

namespace TinyCache

open Machine

section

variable {maxValueBytes : ℤ} {clock : ℕ → Time} {m m' : Entries} {key : Key} {value : Bytes}
  {ttl : Option ℤ}

theorem Allowed.setIfAbsent_stored {reply : Except PyError Reply}
    (h : Allowed maxValueBytes clock m (.client (.setIfAbsent key value ttl)) reply m')
    (hr : reply = .ok (.conditional .stored)) : m.purge (clock 0) key key = none := by
  cases h with
  | invalid => cases hr
  | failed => cases hr
  | setIfAbsentExists => cases hr
  | setIfAbsent _ h => exact h

theorem Allowed.compareAndSet_stored {expected : Bytes} {reply : Except PyError Reply}
    (h : Allowed maxValueBytes clock m (.client (.compareAndSet key expected value ttl)) reply m')
    (hr : reply = .ok (.conditional .stored)) :
    ∃ e, m.purge (clock 0) key key = some e ∧ e.value = expected := by
  cases h with
  | invalid => cases hr
  | failed => cases hr
  | compareAndSetMissing => cases hr
  | compareAndSetMismatch => cases hr
  | compareAndSet _ h he => exact ⟨_, h, he⟩

/-- A conditional write that found its condition false has at most purged its key. -/
theorem Allowed.refused {action : Action} {reply : Except PyError Reply}
    (h : Allowed maxValueBytes clock m action reply m')
    (hr : (∃ key value ttl, action = .client (.setIfAbsent key value ttl)) ∧
        reply = .ok (.conditional .exists_) ∨
      (∃ key expected value ttl, action = .client (.compareAndSet key expected value ttl)) ∧
        (reply = .ok (.conditional .mismatch) ∨ reply = .ok (.conditional .notFound))) :
    ∃ key, m' = m.purge (clock 0) key := by
  have hst : ∀ st, conditionalStatusFromSetStatus st ≠ .exists_ ∧
      conditionalStatusFromSetStatus st ≠ .mismatch ∧
      conditionalStatusFromSetStatus st ≠ .notFound := by
    intro st
    cases st <;> decide
  rcases hr with ⟨⟨key, value, ttl, rfl⟩, hr⟩ | ⟨⟨key, expected, value, ttl, rfl⟩, hr⟩
  · cases h with
    | invalid => cases hr
    | failed => cases hr
    | setIfAbsentExists => exact ⟨key, rfl⟩
    | setIfAbsent => simp [(hst _).1] at hr
  · cases h with
    | invalid => simp at hr
    | failed => simp at hr
    | compareAndSetMissing => exact ⟨key, rfl⟩
    | compareAndSetMismatch => exact ⟨key, rfl⟩
    | compareAndSet => simp [(hst _).2] at hr

end

section

variable {σ : Type} {step : σ → Event → Except PyError Reply × σ} {entries : σ → Entries}
  {maxValueBytes : ℤ} {Inv : σ → Prop} {s₀ : σ}

theorem Refines.noLostUpdates (h : Refines step entries maxValueBytes Inv s₀) {events : List Event}
    (hclock : ClockOk events) : NoLostUpdates entries (trace step s₀ events) := by
  refine ⟨?_, ?_, ?_⟩
  · intro pre mid post q₁ q₂ key v₁ ttl₁ v₂ ttl₂ htrace ha₁ hr₁ ha₂ hr₂
    obtain ⟨ht, hall, -⟩ := h.tracked_at hclock htrace key
    have hwrites : q₁.Writes key := ⟨⟨key, v₁, ttl₁, q₁.input.clock 1⟩, by
      simp [Obs.write?, accepted?, ha₁, hr₁], rfl⟩
    obtain ⟨w, since, hlast, hmem⟩ := LastWriteBy.exists_after hwrites mid
    rcases ht.since w since hlast with ⟨hw, -⟩ | ⟨-, r, hr, hb, ha, hl⟩
    · have hallowed := hall q₂ (by simp)
      rw [ha₂] at hallowed
      have hnone := hallowed.setIfAbsent_stored hr₂
      exact Or.inr ⟨w.entry, hw, Entries.purge_eq_none.mp hnone _ hw⟩
    · refine Or.inl ⟨r, hmem r hr, ?_, ha, hl⟩
      rw [hb]
      exact Option.some_ne_none _
  · intro pre post q key expected value ttl htrace ha hr
    obtain ⟨-, hall, -⟩ := h.tracked_at hclock htrace key
    have hallowed := hall q (by simp)
    rw [ha] at hallowed
    obtain ⟨e, he, rfl⟩ := hallowed.compareAndSet_stored hr
    obtain ⟨he, hx⟩ := Entries.purge_eq_some.mp he
    obtain ⟨w, since, hlast, rfl, hsince⟩ := h.present hclock htrace he hx
    exact ⟨w, since, hlast, rfl, (w.live_iff _).mpr hx, he, hsince⟩
  · intro q hq hr x hx
    obtain ⟨key, hm⟩ := (h.allowed_of_mem events q hq).refused hr
    rw [hm]
    by_cases hk : x = key
    · subst hk
      rw [Entries.purge_eq_self hx]
    · exact Entries.purge_of_ne _ _ hk

end

/-- In both backends, for any interleaving of calls and cleaner removals, conditional writes
lose no update. No step fails in memory, nor while the engine does not raise. -/
theorem conditional_writes_lose_no_update {events : List Event} (hclock : ClockOk events) :
    (∀ limits, NoLostUpdates CacheStore.entries (trace CacheStore.step (.init limits) events) ∧
      ∀ r ∈ trace CacheStore.step (.init limits) events, ¬ Obs.Fails r) ∧
    ∀ db args s₀ c, SqliteCacheStore.init db args .new = (.ok s₀, c) →
      NoLostUpdates SqliteCacheStore.entries (trace (SqliteCacheStore.step db) s₀ events) ∧
        (db.Reliable → ∀ r ∈ trace (SqliteCacheStore.step db) s₀ events, ¬ Obs.Fails r) := by
  refine ⟨fun limits => ⟨?_, ?_⟩, fun db args s₀ c hinit => ⟨?_, fun hdb => ?_⟩⟩
  · exact (CacheStore.refines limits).noLostUpdates hclock
  · exact CacheStore.trace_not_fails limits events
  · exact (SqliteCacheStore.refines db hinit).noLostUpdates hclock
  · exact SqliteCacheStore.trace_not_fails hdb hinit events

/-- The second `set_if_absent` finds the entry of the first expired. -/
theorem conditional_writes_lose_no_update_run :
    NoLostUpdates CacheStore.entries (trace CacheStore.step (.init (.small 0))
      [(Op.setIfAbsent "a" [1] (some 2)).atTime 0, (Op.compareAndSet "a" [9] [2] none).atTime 1,
        (Op.setIfAbsent "a" [3] none).atTime 3, (Op.compareAndSet "a" [3] [4] none).atTime 4]) := by
  have hclock : ClockOk
      [(Op.setIfAbsent "a" [1] (some 2)).atTime 0, (Op.compareAndSet "a" [9] [2] none).atTime 1,
        (Op.setIfAbsent "a" [3] none).atTime 3, (Op.compareAndSet "a" [3] [4] none).atTime 4] :=
    ClockOk.atTimes (l := [(Op.setIfAbsent "a" [1] (some 2), 0),
      (Op.compareAndSet "a" [9] [2] none, 1), (Op.setIfAbsent "a" [3] none, 3),
      (Op.compareAndSet "a" [3] [4] none, 4)]) (by norm_num)
  exact ((conditional_writes_lose_no_update hclock).1 (.small 0)).1

end TinyCache
