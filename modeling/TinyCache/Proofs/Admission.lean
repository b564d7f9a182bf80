import TinyCache.Proofs.Statistics
import TinyCache.Spec.Admission

/-! Admission depends on the size of the value alone. What is answered follows from the
refinement to a cache; that the two loops end, from the byte counter. -/

namespace TinyCache

open Machine

theorem Allowed.never_exhausted {maxValueBytes : ℤ} {clock : ℕ → Time} {m m' : Entries}
    {action : Action} {reply : Reply} (h : Allowed maxValueBytes clock m action (.ok reply) m') :
    reply ≠ .status .capacityExhausted ∧ reply ≠ .conditional .capacityExhausted := by
  cases h with
  | set _ hw => cases hw <;> simp
  | setIfAbsent _ _ hw | compareAndSet _ _ _ hw =>
    cases hw <;> simp [conditionalStatusFromSetStatus, cacheWriteFailureFromSetStatus,
      conditionalStatusFromFailure]
  | _ => simp

section

variable {σ : Type} {maxValueBytes : ℤ} {counters : σ → Counters} {entries : σ → Entries} {r : Obs σ}

theorem AdmitsBySize.of_allowed
    (h : Allowed maxValueBytes r.input.clock (entries r.before) r.input.action r.output
      (entries r.after)) (hok : ¬ r.Fails) (hcap : (counters r.after).rejectedCapacity = 0) :
    AdmitsBySize maxValueBytes counters entries r := by
  have hstored : ∀ w, Obs.write? r = some w → entries r.after w.key = some w.entry := by
    intro w hw
    cases h.keyStep w.key with
    | wrote hw' _ hafter =>
      have heq := Option.some.inj (hw.symm.trans hw')
      rwa [← heq] at hafter
    | kept hne => exact absurd rfl (hne w hw)
    | lost hne => exact absurd rfl (hne w hw)
  have hanswer : ∀ op key, r.input.action = .client op → op.key? = some key →
      validateKey key = .ok () →
      r.output = .ok (op.onCell maxValueBytes r.input.clock (entries r.before key)).1 := by
    intro op key ha hk hv
    rw [ha] at h
    rw [Obs.Fails, ha] at hok
    rw [h.answer hok hk, hv]
    rfl
  refine ⟨?_, ?_, ?_, hstored, ?_, hcap⟩
  · intro key value ttl ha hv
    rw [hanswer _ key ha rfl hv, Op.onCell]
  · intro key value ttl ha hv hgone
    have hlive : (entries r.before key).filter (fun e => !e.isExpired (r.input.clock 0)) = none := by
      rw [Option.filter_eq_none_iff]
      intro e he
      simp [hgone e he]
    rw [hanswer _ key ha rfl hv, Op.onCell, hlive]
    rfl
  · intro key expected value ttl e ha hv he hx heq
    have hlive : (entries r.before key).filter (fun e => !e.isExpired (r.input.clock 0)) = some e := by
      rw [he]
      simp [Option.filter, hx]
    rw [hanswer _ key ha rfl hv, Op.onCell, hlive]
    simp [heq]
  · rcases hout : r.output with x | reply
    · simp
    · rw [hout] at h
      simpa using h.never_exhausted

end

namespace CacheStore

variable {s u v : CacheStore}

/-- A loop whose condition fails on an empty store ends there at the latest. -/
theorem evictWhile_ends {cond : CacheStore → Bool}
    (hempty : ∀ gone v, Lost gone u v → v.store.items = [] → cond v = false) :
    ∃ n gone v, Act.EndsAfter cond evictLru n u v ∧ Lost gone u v ∧
      n + v.store.length ≤ u.store.length := by
  obtain ⟨r, v, gone, hrun, hlost, hend, -⟩ := evictWhile_apply cond u
  have hdone : r = true ∧ cond v = false := by
    rcases hend with h | ⟨-, hnil, hc⟩
    · exact h
    · rw [hempty gone v hlost hnil] at hc
      cases hc
  obtain ⟨rfl, hdone⟩ := hdone
  have hsize : ∀ s t : CacheStore, evictLru s = (.ok true, t) → t.store.length < s.store.length := by
    intro s t h
    obtain ⟨item, -, hlt⟩ := evictLru_shrinks h
    exact hlt
  obtain ⟨n, hn, hends⟩ := Act.endsAfter_of_size hsize hrun hdone
  exact ⟨n, gone, v, hends, hlost, hn⟩

theorem loops_end (u : CacheStore) (size : ℤ) : LoopsEnd u size := by
  obtain ⟨n₁, gone₁, v, hends₁, hlost₁, hn₁⟩ := @evictWhile_ends u (overMemory size) (by
    intro gone v _ hnil
    simp [overMemory, OrderedDict.isEmpty, hnil])
  obtain ⟨n₂, gone₂, w, hends₂, hlost₂, hn₂⟩ := @evictWhile_ends v atMaxItems (by
    intro gone w _ hnil
    have hpos := w.limits.maxItems_pos
    simp only [atMaxItems, OrderedDict.length, hnil, List.length_nil, ge_iff_le, decide_eq_false_iff_not]
    omega)
  exact ⟨n₁, n₂, v, w, hends₁, hends₂, by omega⟩

end CacheStore

namespace SqliteCacheStore

variable {db : Engine} {s u v : SqliteCacheStore}

theorem Lost.count {gone : List (Key × Row)} (h : Lost gone u v) (hu : u.entryCount = u.table.length) :
    v.entryCount = v.table.length := by
  have hlen := h.perm.length_eq
  rw [List.length_append] at hlen
  have hcount : v.entryCount = u.entryCount - gone.length := by rw [h.eq]
  rw [hcount, hu, OrderedDict.length, OrderedDict.length, hlen]
  push_cast
  exact add_sub_cancel_left _ _

/-- A loop whose condition fails on an empty table ends there at the latest. -/
theorem evictWhile_ends (hdb : db.Reliable) {cond : SqliteCacheStore → Bool}
    (hticked : ∀ (u : SqliteCacheStore) (n : ℕ), cond (u.ticked n) = cond u)
    (hempty : ∀ gone v, Lost gone u v → v.table.items = [] → cond v = false) :
    ∃ n gone v, Act.EndsAfter cond (evictLruLocked db) n u v ∧ Lost gone u v ∧
      n + v.table.length ≤ u.table.length := by
  have hreturns : Act.Triple (fun _ => True) (evictWhile db cond) (fun _ _ => True)
      (Failed db fun _ => True) := evictWhile_triple (shrinks_true.evictLruLocked.pre fun _ h => h.1)
  have hreturns := hreturns u trivial
  rcases hrun : evictWhile db cond u with ⟨x | r, v⟩
  · rw [hrun] at hreturns
    exact absurd hdb hreturns.2
  obtain ⟨gone, hlost, hend, -⟩ := evictWhile_ok hticked hrun
  have hdone : r = true ∧ cond v = false := by
    rcases hend with h | ⟨-, hnil, hc⟩
    · exact h
    · rw [hempty gone v hlost hnil] at hc
      cases hc
  obtain ⟨rfl, hdone⟩ := hdone
  have hsize : ∀ s t : SqliteCacheStore, evictLruLocked db s = (.ok true, t) →
      t.table.length < s.table.length := by
    intro s t h
    obtain ⟨item, -, hlt⟩ := evictLruLocked_shrinks h
    exact hlt
  obtain ⟨n, hn, hends⟩ := Act.endsAfter_of_size hsize hrun hdone
  exact ⟨n, gone, v, hends, hlost, hn⟩

theorem loops_end (hdb : db.Reliable) (hu : u.entryCount = u.table.length) (size : ℤ) :
    LoopsEnd db u size := by
  have hempty : ∀ w : SqliteCacheStore, w.entryCount = w.table.length → w.table.items = [] →
      w.entryCount = 0 := by
    intro w hw hnil
    rw [hw, OrderedDict.length, hnil]
    rfl
  obtain ⟨n₁, gone₁, v, hends₁, hlost₁, hn₁⟩ := @evictWhile_ends db u hdb (overMemory size)
    (fun _ _ => rfl) (by
      intro gone v hlost hnil
      simp [overMemory, hempty v (hlost.count hu) hnil])
  obtain ⟨n₂, gone₂, w, hends₂, hlost₂, hn₂⟩ := @evictWhile_ends db v hdb atMaxItems
    (fun _ _ => rfl) (by
      intro gone w hlost hnil
      have hpos := w.limits.maxItems_pos
      simp only [atMaxItems, hempty w (hlost.count (hlost₁.count hu)) hnil, ge_iff_le,
        decide_eq_false_iff_not]
      omega)
  exact ⟨n₁, n₂, v, w, hends₁, hends₂, by omega⟩

end SqliteCacheStore

/-- In either backend a write that gets as far as storing is decided by its size: the loops
that make room always end, and always find it. -/
theorem admission_by_size :
    ((∀ (limits : CacheStoreLimits) (events : List Event),
      ∀ r ∈ trace CacheStore.step (CacheStore.init limits) events,
        AdmitsBySize limits.maxValueBytes CacheStore.counters CacheStore.entries r) ∧
      ∀ u size, CacheStore.LoopsEnd u size) ∧
    ∀ (db : Engine) (s₀ : SqliteCacheStore) (events : List Event), db.Reliable → World.Opens db s₀ →
      (∀ r ∈ trace (SqliteCacheStore.step db) s₀ events,
        AdmitsBySize s₀.limits.maxValueBytes SqliteCacheStore.counters SqliteCacheStore.entries r) ∧
      ∀ u size, SqliteCacheStore.SetAside (exec (SqliteCacheStore.step db) s₀ events) u →
        SqliteCacheStore.LoopsEnd db u size := by
  refine ⟨⟨?_, CacheStore.loops_end⟩, ?_⟩
  · intro limits events r hr
    have hout := (CacheStore.trace_outcome limits events r hr).2
    refine .of_allowed ?_ hout.not_fails ?_
    · rw [← CacheStore.trace_limits limits events r hr]
      exact hout.allowed
    · exact (CacheStore.books.trace_settled (CacheStore.init_inv limits) rfl hr).2
  · intro db s₀ events hdb hopens
    refine ⟨?_, fun u size hu => SqliteCacheStore.loops_end hdb hu.count size⟩
    intro r hr
    obtain ⟨hs, hlimits, hrec⟩ := SqliteCacheStore.trace_accounted db hopens.accounted events r hr
    refine .of_allowed ?_ ?_ ?_
    · rw [← hlimits, hrec]
      exact SqliteCacheStore.step_allowed db hs r.input
    · rw [hrec]
      exact SqliteCacheStore.not_fails hdb hs r.input
    · exact ((SqliteCacheStore.books hdb).trace_settled hopens.accounted hopens.counters hr).2

/-- The second value is one byte too long for stores of one item. -/
theorem admission_by_size_run :
    let events := [(Op.set "a" [1] none).atTime 0, (Op.setIfAbsent "b" [1, 2, 3, 4, 5, 6, 7, 8] none).atTime 1,
      (Op.set "b" [2] none).atTime 2]
    (∃ r ∈ trace CacheStore.step (.init (.small 0)) events,
      AdmitsBySize 40 CacheStore.counters CacheStore.entries r ∧
        r.output = .ok (.conditional .valueTooLarge)) ∧
    ∃ s₀, World.Opens ⟨fun _ => false, fun _ => 0⟩ s₀ ∧
      (∃ r ∈ trace (SqliteCacheStore.step ⟨fun _ => false, fun _ => 0⟩) s₀ events,
        AdmitsBySize s₀.limits.maxValueBytes SqliteCacheStore.counters SqliteCacheStore.entries r ∧
          r.output = .ok (.conditional .valueTooLarge)) ∧
      SqliteCacheStore.LoopsEnd ⟨fun _ => false, fun _ => 0⟩
        (exec (SqliteCacheStore.step ⟨fun _ => false, fun _ => 0⟩) s₀ events) 40 := by
  intro events
  have hopens : World.Opens ⟨fun _ => false, fun _ => 0⟩ _ :=
    ⟨⟨fun _ => false, fun _ => 0⟩, [], ⟨some 1, some 1, some 10, some 40⟩, _, rfl⟩
  have hsqlite := admission_by_size.2 _ _ events (fun _ => rfl) hopens
  have hmem : ∀ {σ : Type} (step : σ → Event → Except PyError Reply × σ) (s : σ),
      record step (step s ((Op.set "a" [1] none).atTime 0)).2
        ((Op.setIfAbsent "b" [1, 2, 3, 4, 5, 6, 7, 8] none).atTime 1) ∈ trace step s events :=
    fun _ _ => List.mem_cons_of_mem _ List.mem_cons_self
  refine ⟨⟨_, hmem _ _, admission_by_size.1.1 (.small 0) events _ (hmem _ _), rfl⟩, _, hopens,
    ⟨_, hmem _ _, hsqlite.1 _ (hmem _ _), rfl⟩, hsqlite.2 _ 40 ⟨rfl, Or.inl rfl, rfl⟩⟩

end TinyCache
