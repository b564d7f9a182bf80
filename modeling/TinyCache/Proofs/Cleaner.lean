import TinyCache.Proofs.MemoryLimits
import TinyCache.Proofs.SqliteRefines
import TinyCache.Spec.Cleaner

/-! A turn of the cleaner acts on the store as it is, whatever its snapshot said: the
store takes the same step as for a purge of one key, and that key has expired. -/

namespace TinyCache

open Machine

section

variable {σ ρ : Type} {rows : σ → List (Key × ρ)} {entry : ρ → CacheEntry} {memory : σ → ℤ}
  {counters : σ → Counters} {now : Time} {s t u : σ}

theorem Cleans.refl (s : σ) : Cleans rows entry memory counters now s s := .nothing rfl rfl rfl

theorem Cleans.keeps (h : Cleans rows entry memory counters now s t) (hn : ((rows s).map Prod.fst).Nodup)
    {p : Key × ρ} (hp : p ∈ rows s) (hlive : (entry p.2).isExpired now = false) : p ∈ rows t := by
  cases h with
  | nothing hrows => rwa [hrows]
  | @removed key row hm hx hrows =>
    rw [hrows, List.mem_filter]
    refine ⟨hp, ?_⟩
    have hne : p.1 ≠ key := by
      intro hkey
      have heq : p = (key, row) := List.inj_on_of_nodup_map hn hp hm hkey
      rw [heq] at hlive
      exact Bool.false_ne_true (hlive.symm.trans hx)
    simpa using hne

theorem ExpiredEntryCleaner.advance_store {self : ExpiredEntryCleaner σ} {clock : ℕ → Time}
    {s : Shared σ} {P : σ → Prop} (hs : P s.store) (hsnapshot : P (self.snapshotItems s.store).2)
    (hremove : ∀ key, P (self.removeIfExpired clock key s.store).2) : P (self.advance clock s).store := by
  obtain ⟨store, pass⟩ := s
  unfold advance
  cases pass with
  | waiting => rcases h : self.snapshotItems store with ⟨x | items, t⟩ <;> simpa [h] using hsnapshot
  | checking items keys =>
    cases items with
    | nil => exact hs
    | cons p items =>
      dsimp only
      split_ifs
      · exact hs
      · exact hs
  | removing keys =>
    cases keys with
    | nil => exact hs
    | cons key keys =>
      have hkey := hremove key
      rcases h : self.removeIfExpired clock key store with ⟨x | a, t⟩ <;> simpa [h] using hkey

end

namespace CacheStore

/-- How the cleaner may change this store. -/
abbrev Cleans (now : Time) (s t : CacheStore) : Prop :=
  TinyCache.Cleans (fun s => s.store.items) id currentMemoryBytes counters now s t

theorem step_cleaner (s : CacheStore) (clock : ℕ → Time) (key : Key) :
    (step s ⟨.cleaner key, clock⟩).2 = (removeIfExpired clock key s).2 :=
  Act.bind_pure_snd (removeIfExpired clock key) Reply.done s

theorem removeIfExpired_cleans (s : CacheStore) (clock : ℕ → Time) (key : Key) :
    Cleans (clock 0) s (removeIfExpired clock key s).2 := by
  have hout := cleaner_outcome clock s key
  rw [step_cleaner] at hout
  generalize (removeIfExpired clock key s).2 = t at hout ⊢
  generalize (step s ⟨.cleaner key, clock⟩).1 = reply at hout
  cases hout with
  | cleanerKept => exact .refl _
  | cleanerRemoved h hx => exact .removed (OrderedDict.get?_eq_some.mp h) hx rfl rfl rfl

end CacheStore

namespace SqliteCacheStore

variable {db : Engine} {s t : SqliteCacheStore} {key : Key} {x : PyError}

/-- How the cleaner may change this store. -/
abbrev Cleans (now : Time) (s t : SqliteCacheStore) : Prop :=
  TinyCache.Cleans (fun s => s.table.items) rowToEntry currentMemoryBytes counters now s t

theorem removeExpiredEntryLocked_error (h : removeExpiredEntryLocked db key s = (.error x, t)) :
    ∃ n, t = s.ticked n := by
  rcases Act.bind_error h with h | ⟨b, u, hu, h⟩
  · exact removeEntryLocked_error h
  · cases b <;> cases h

theorem removeIfExpired_error {clock : ℕ → Time} (h : removeIfExpired db clock key s = (.error x, t)) :
    ∃ n, t = s.ticked n := by
  rcases Act.bind_error h with h | ⟨r, u, hu, h⟩
  · exact ⟨_, (sql_error h).2.2⟩
  · obtain ⟨-, n, rfl⟩ := getRowLocked_ok hu
    cases r with
    | none => cases h
    | some row =>
      cases hx : isExpired (clock 0) (rowToEntry row) with
      | false =>
        simp only [hx, Bool.false_eq_true, if_false] at h
        cases h
      | true =>
        simp only [hx, if_true] at h
        rcases Act.bind_error h with h | ⟨b, v, hv, h⟩
        · obtain ⟨m, rfl⟩ := removeExpiredEntryLocked_error h
          exact ⟨m, rfl⟩
        · cases h

theorem removeIfExpired_cleans (hs : s.Accounted) (clock : ℕ → Time) (key : Key) :
    Cleans (clock 0) s (removeIfExpired db clock key s).2 := by
  rcases h : removeIfExpired db clock key s with ⟨x | a, t⟩
  · obtain ⟨n, rfl⟩ := removeIfExpired_error h
    exact .nothing rfl rfl rfl
  · cases removeIfExpired_ok h with
    | cleanerKept => exact .nothing rfl rfl rfl
    | @cleanerRemoved _ row hk hx =>
      have hm := OrderedDict.get?_eq_some.mp hk
      refine .removed hm hx rfl ?_ rfl
      exact congrArg (s.currentMemoryBytes - ·) (hs.sized _ hm)

theorem snapshotItems_ticked (db : Engine) (s : SqliteCacheStore) :
    ∃ n, (snapshotItems db s).2 = s.ticked n := by
  rcases h : snapshotItems db s with ⟨x | items, t⟩
  · rcases Act.bind_error h with h | ⟨rows, u, hu, h⟩
    · exact ⟨_, (sql_error h).2.2⟩
    · cases h
  · obtain ⟨rows, u, hu, h⟩ := Act.bind_ok h
    obtain ⟨-, -, rfl⟩ := sql_ok hu
    cases h
    exact ⟨_, rfl⟩

theorem step_cleaner (db : Engine) (s : SqliteCacheStore) (clock : ℕ → Time) (key : Key) :
    (step db s ⟨.cleaner key, clock⟩).2 = (removeIfExpired db clock key s).2 :=
  Act.bind_pure_snd (removeIfExpired db clock key) Reply.done s

theorem turn_accounted {s : Shared SqliteCacheStore} (h : s.store.Accounted) (turn : Turn) :
    ((cleaner db).step (call db) s turn).2.store.Accounted := by
  cases turn with
  | client op clock => exact h.step db ⟨.client op, clock⟩
  | cleaner clock =>
    refine ExpiredEntryCleaner.advance_store h ?_ fun key => ?_
    · obtain ⟨n, hn⟩ := snapshotItems_ticked db s.store
      rw [SqliteCacheStore.cleaner, hn]
      exact h.ticked n
    · rw [SqliteCacheStore.cleaner, ← step_cleaner]
      exact h.step db _

end SqliteCacheStore

/-- In every interleaving, a turn of the cleaner takes out at most one entry, which has
expired by that turn, and changes nothing else. -/
theorem cleaner_spares_live_entries :
    (∀ (limits : CacheStoreLimits) (turns : List Turn),
      ∀ r ∈ trace (CacheStore.cleaner.step CacheStore.call) ⟨CacheStore.init limits, .waiting⟩ turns,
        ∀ clock, r.input = .cleaner clock →
          CacheStore.Cleans (clock 0) r.before.store r.after.store ∧
          ∀ p ∈ r.before.store.store.items, p.2.isExpired (clock 0) = false →
            p ∈ r.after.store.store.items) ∧
    ∀ (db : Engine) (s₀ : SqliteCacheStore) (turns : List Turn), World.Opens db s₀ →
      ∀ r ∈ trace ((SqliteCacheStore.cleaner db).step (SqliteCacheStore.call db)) ⟨s₀, .waiting⟩ turns,
        ∀ clock, r.input = .cleaner clock →
          SqliteCacheStore.Cleans (clock 0) r.before.store r.after.store ∧
          ∀ p ∈ r.before.store.table.items,
            (SqliteCacheStore.rowToEntry p.2).isExpired (clock 0) = false →
              p ∈ r.after.store.table.items := by
  refine ⟨?_, ?_⟩
  · intro limits turns r hr clock hclock
    have hrec := eq_record_of_mem hr
    have hcleans : CacheStore.Cleans (clock 0) r.before.store r.after.store := by
      rw [hrec, hclock]
      exact ExpiredEntryCleaner.advance_store (.refl _) (.refl _)
        (CacheStore.removeIfExpired_cleans r.before.store clock)
    exact ⟨hcleans, fun p hp hlive => hcleans.keeps r.before.store.store.nodup hp hlive⟩
  · intro db s₀ turns hopens r hr clock hclock
    obtain ⟨hacc, hrec⟩ := trace_always (I := fun s : Shared SqliteCacheStore => s.store.Accounted)
      (fun _ turn h => SqliteCacheStore.turn_accounted h turn) hopens.accounted hr
    have hcleans : SqliteCacheStore.Cleans (clock 0) r.before.store r.after.store := by
      rw [hrec, hclock]
      refine ExpiredEntryCleaner.advance_store (.refl _) ?_
        (SqliteCacheStore.removeIfExpired_cleans hacc clock)
      obtain ⟨n, hn⟩ := SqliteCacheStore.snapshotItems_ticked db r.before.store
      rw [SqliteCacheStore.cleaner, hn]
      exact .nothing rfl rfl rfl
    exact ⟨hcleans, fun p hp hlive => hcleans.keeps r.before.store.table.nodup hp hlive⟩

/-- The key is set anew after the snapshot, and survives the pass that was to remove it. -/
theorem cleaner_spares_live_entries_run :
    let turns : List Turn := [.client (.set "a" [1] (some 1)) fun _ => 0, .cleaner fun _ => 2,
      .cleaner fun _ => 2, .cleaner fun _ => 2, .client (.set "a" [2] none) fun _ => 3, .cleaner fun _ => 4]
    (∃ r ∈ trace (CacheStore.cleaner.step CacheStore.call) ⟨.init (.small 0), .waiting⟩ turns,
      r.before.pass = .removing ["a"] ∧ ("a", CacheEntry.new [2] none 3) ∈ r.after.store.store.items) ∧
    ∃ s₀, World.Opens ⟨fun _ => false, fun _ => 0⟩ s₀ ∧
      ∃ r ∈ trace ((SqliteCacheStore.cleaner ⟨fun _ => false, fun _ => 0⟩).step
          (SqliteCacheStore.call ⟨fun _ => false, fun _ => 0⟩)) ⟨s₀, .waiting⟩ turns,
        r.before.pass = .removing ["a"] ∧ SqliteCacheStore.Cleans 4 r.before.store r.after.store := by
  intro turns
  have hopens : World.Opens ⟨fun _ => false, fun _ => 0⟩ _ :=
    ⟨⟨fun _ => false, fun _ => 0⟩, [], ⟨some 1, some 1, some 10, some 40⟩, _, rfl⟩
  have hlast : ∀ {σ : Type} (step : Shared σ → Turn → Except PyError Reply × Shared σ) (s : Shared σ),
      record step (exec step s turns.dropLast) (.cleaner fun _ => 4) ∈ trace step s turns := by
    intro σ step s
    simp [trace, turns, exec]
  refine ⟨⟨_, hlast _ _, by decide +kernel, ?_⟩, _, hopens, _, hlast _ _, by decide +kernel, ?_⟩
  · exact (cleaner_spares_live_entries.1 (.small 0) turns _ (hlast _ _) _ rfl).2 _ (by decide +kernel)
      (by decide +kernel)
  · exact (cleaner_spares_live_entries.2 _ _ turns hopens _ (hlast _ _) _ rfl).1

end TinyCache
