import TinyCache.Proofs.Statistics
import TinyCache.Spec.Config
import TinyCache.Spec.StatsMessage

/-! When `Stats` can answer. The counters of the in-memory store say what has happened
since the last `clear`, whatever came before, and nothing bounds them. -/

namespace TinyCache

open Machine

theorem Protobuf.assign_ok (proto : Protobuf) {w : ℕ} {n : ℤ} {m : ProtoInt w} :
    proto.assign w n = .ok m ↔ m.val = n := by
  by_cases h : FitsBits w n
  · rw [proto.assign_fits w n h, Except.ok.injEq, Subtype.ext_iff]
    exact eq_comm
  · obtain ⟨message, herr⟩ := proto.assign_not_fits w n h
    rw [herr]
    refine iff_of_false (fun h => nomatch h) ?_
    rintro rfl
    exact h m.property

theorem Except.bind_ok {ε α β : Type} {x : Except ε α} {f : α → Except ε β} {b : β} :
    (x >>= f) = .ok b ↔ ∃ a, x = .ok a ∧ f a = .ok b := by
  cases x with
  | error e => simp [bind, Except.bind]
  | ok a => simp [bind, Except.bind]

theorem cacheStatsResponse_ok (proto : Protobuf) {stats : CacheStatsSnapshot} {message : CacheStats} :
    cacheStatsResponse proto stats = .ok message ↔ message.Shows stats := by
  unfold cacheStatsResponse
  simp only [Except.bind_ok, proto.assign_ok]
  constructor
  · rintro ⟨_, h1, _, h2, _, h3, _, h4, _, h5, _, h6, _, h7, _, h8, _, h9, _, h10, _, h11, _, h12, ⟨⟩⟩
    exact ⟨h1, h2, h3, h4, rfl, h5, h6, h7, h8, h9, h10, h11, h12⟩
  · intro h
    refine ⟨_, h.size, _, h.hits, _, h.misses, _, h.evictions, _, h.memoryUsageBytes, _, h.maxMemoryBytes,
      _, h.maxItems, _, h.maxValueBytes, _, h.lruEvictions, _, h.expiredRemovals, _, h.rejectedOversize,
      _, h.rejectedCapacity, ?_⟩
    rw [← h.hitRate]
    rfl

/-- Every integer of the snapshot is one that its field holds. -/
structure CacheStatsSnapshot.Fits (stats : CacheStatsSnapshot) : Prop where
  size : FitsBits 32 stats.size
  hits : FitsBits 32 stats.hits
  misses : FitsBits 32 stats.misses
  evictions : FitsBits 32 stats.evictions
  memoryUsageBytes : FitsBits 64 stats.memoryUsageBytes
  maxMemoryBytes : FitsBits 64 stats.maxMemoryBytes
  maxItems : FitsBits 32 stats.maxItems
  maxValueBytes : FitsBits 64 stats.maxValueBytes
  lruEvictions : FitsBits 32 stats.lruEvictions
  expiredRemovals : FitsBits 32 stats.expiredRemovals
  rejectedOversize : FitsBits 32 stats.rejectedOversize
  rejectedCapacity : FitsBits 32 stats.rejectedCapacity

theorem exists_shows {stats : CacheStatsSnapshot} :
    (∃ message : CacheStats, message.Shows stats) ↔ stats.Fits := by
  constructor
  · rintro ⟨m, h⟩
    exact ⟨h.size ▸ m.size.property, h.hits ▸ m.hits.property, h.misses ▸ m.misses.property,
      h.evictions ▸ m.evictions.property, h.memoryUsageBytes ▸ m.memoryUsageBytes.property,
      h.maxMemoryBytes ▸ m.maxMemoryBytes.property, h.maxItems ▸ m.maxItems.property,
      h.maxValueBytes ▸ m.maxValueBytes.property, h.lruEvictions ▸ m.lruEvictions.property,
      h.expiredRemovals ▸ m.expiredRemovals.property, h.rejectedOversize ▸ m.rejectedOversize.property,
      h.rejectedCapacity ▸ m.rejectedCapacity.property⟩
  · intro h
    exact ⟨⟨⟨_, h.size⟩, ⟨_, h.hits⟩, ⟨_, h.misses⟩, ⟨_, h.evictions⟩, stats.hitRate.toRat, ⟨_, h.memoryUsageBytes⟩,
      ⟨_, h.maxMemoryBytes⟩, ⟨_, h.maxItems⟩, ⟨_, h.maxValueBytes⟩, ⟨_, h.lruEvictions⟩,
      ⟨_, h.expiredRemovals⟩, ⟨_, h.rejectedOversize⟩, ⟨_, h.rejectedCapacity⟩⟩,
      ⟨rfl, rfl, rfl, rfl, rfl, rfl, rfl, rfl, rfl, rfl, rfl, rfl, rfl⟩⟩

namespace CacheStore

variable {s t : CacheStore} {clock : ℕ → Time}

/-- The counters of what has happened since the last `clear`. -/
def used (s : CacheStore) : Usage where
  hits := s.hits
  misses := s.misses
  evicted := s.lruEvictions
  expired := s.expiredRemovals
  oversize := s.rejectedOversize

theorem WriteOutcome.used {before : CacheStore} {now : Time} {key : Key} {value : Bytes}
    {ttl : Option ℤ} {old : Option CacheEntry} {st : CacheSetStatus}
    (hpop : s.store = before.store.erase key) (h : WriteOutcome s now key value ttl old st t) :
    t.used = { s.used with
      evicted := s.used.evicted + if st = .ok then
        (before.store.keys.filter fun k => k ≠ key && !t.store.contains k).length else 0
      oversize := s.used.oversize + if st = .valueTooLarge then 1 else 0 } := by
  cases h with
  | tooLarge => rfl
  | @stored gone _ _ _ hst =>
    have hsplit : (before.store.erase key).items = gone ++ _ := hpop ▸ hst.trimmed.split
    rw [OrderedDict.length_filter_gone hsplit hst.items, hst.eq]
    rfl

theorem Outcome.used {action : Action} {reply : Except PyError Reply}
    (h : Outcome s clock action reply t) : t.used = s.used.add ⟨s, ⟨action, clock⟩, reply, t⟩ := by
  cases h with
  | @invalid op _ _ hk =>
    cases op with
    | stats | clear => cases hk
    | _ => rfl
  | getMissing hv h =>
    simp only [Usage.add, Obs.expired, h]
    rfl
  | getExpired hv h hx =>
    simp only [Usage.add, Obs.expired, h, Option.any_some, hx]
    rfl
  | getHit hv h hx =>
    simp only [Usage.add, Obs.expired, h, Option.any_some, hx]
    rfl
  | @set key value ttl st t hv hw =>
    rw [hw.used rfl]
    cases st <;> rfl
  | setIfAbsentExists hv h hx =>
    simp only [Usage.add, Obs.expired, h, Option.any_some, hx]
    rfl
  | @setIfAbsentMissing key value ttl st t hv h hw =>
    rw [hw.used (OrderedDict.erase_of_none h).symm]
    simp only [Usage.add, Obs.expired, h]
    cases st <;> rfl
  | @setIfAbsentExpired key value ttl e st t hv h hx hw =>
    rw [hw.used rfl]
    simp only [Usage.add, Obs.expired, h, Option.any_some, hx]
    cases st <;> rfl
  | compareAndSetMissing hv h =>
    simp only [Usage.add, Obs.expired, h]
    rfl
  | compareAndSetExpired hv h hx =>
    simp only [Usage.add, Obs.expired, h, Option.any_some, hx]
    rfl
  | compareAndSetMismatch hv h hx hne =>
    simp only [Usage.add, Obs.expired, h, Option.any_some, hx]
    rfl
  | @compareAndSetMatch key expected value ttl e st t hv h hx he hw =>
    rw [hw.used rfl]
    simp only [Usage.add, Obs.expired, h, Option.any_some, hx]
    cases st <;> rfl
  | deleteMissing hv h => rfl
  | deletePresent hv h => rfl
  | stats hp =>
    rw [hp.eq]
    rfl
  | clear => rfl
  | @cleanerKept key h =>
    have hnone : ((s.store.get? key).any fun e => e.isExpired (clock 0)) = false := by
      cases hk : s.store.get? key with
      | none => rfl
      | some e => exact h e hk
    simp only [Usage.add, Obs.expired, hnone]
    rfl
  | cleanerRemoved h hx =>
    simp only [Usage.add, Obs.expired, h, Option.any_some, hx]
    rfl

theorem exec_used (limits : CacheStoreLimits) (events : List Event) :
    (exec step (init limits) events).used = usage (trace step (init limits) events) := by
  refine (history_always (I := fun history s => s.Inv ∧ s.used = usage history) ?_
    ⟨init_inv limits, rfl⟩ events).2
  rintro history s event ⟨hs, hused⟩
  refine ⟨step_inv hs event, ?_⟩
  rw [usage, List.foldl_append, List.foldl_cons, List.foldl_nil, ← usage, ← hused]
  exact (step_outcome hs.counted event).used

theorem step_stats (s : CacheStore) (clock : ℕ → Time) :
    ∃ t, Purged (expiredKeys clock s.store.items) s t ∧
      step s ⟨.client .stats, clock⟩ = (.ok (.stats t.snapshot), t) := by
  obtain ⟨t, hrun, hp⟩ := removeExpiredEntriesLocked_apply clock s
  have hstats : stats clock s = (.ok t.snapshot, t) := by
    simp [stats, Act.bind_of_ok hrun]
  exact ⟨t, hp, call_stats hstats⟩

end CacheStore

theorem GrpcCacheService.stats_eq (proto : Protobuf) (context : RpcContext) {clock : ℕ → Time}
    {s t : CacheStore} {snapshot : CacheStatsSnapshot}
    (h : CacheStore.step s ⟨.client .stats, clock⟩ = (.ok (.stats snapshot), t)) :
    stats proto (CacheApplicationService.app CacheStore.step clock) context s =
      match cacheStatsResponse proto snapshot with
      | .ok message => (⟨message, none⟩, t)
      | .error _ => (⟨{}, some (.internal, internalErrorDetails context.requestId)⟩, t) := by
  simp only [stats, CacheApplicationService.app, CacheApplicationService.stats, CacheApplicationService.port,
    Act.handle, Act.mapError, Act.bind_apply, Act.check_apply, h]
  rcases hmessage : cacheStatsResponse proto snapshot with x | message <;>
    simp only [Except.mapError, Act.pure_apply, hmessage]

/-- The call answers with the snapshot it gets exactly if that fits. -/
theorem GrpcCacheService.stats_answers_iff (proto : Protobuf) (context : RpcContext) {clock : ℕ → Time}
    {s t : CacheStore} {snapshot : CacheStatsSnapshot}
    (h : CacheStore.step s ⟨.client .stats, clock⟩ = (.ok (.stats snapshot), t)) :
    let answer := (stats proto (CacheApplicationService.app CacheStore.step clock) context s).1
    answer.status = none ∧ answer.message.Shows snapshot ↔ snapshot.Fits := by
  intro answer
  have hanswer : answer = _ := congrArg Prod.fst (stats_eq proto context h)
  rw [hanswer, ← exists_shows]
  rcases hmessage : cacheStatsResponse proto snapshot with x | message
  · refine iff_of_false (fun h => nomatch h.1) ?_
    rintro ⟨message, hshows⟩
    rw [(cacheStatsResponse_ok proto).mpr hshows] at hmessage
    cases hmessage
  · exact ⟨fun h => ⟨message, h.2⟩, fun _ => ⟨rfl, (cacheStatsResponse_ok proto).mp hmessage⟩⟩

theorem GrpcCacheService.stats_internal (proto : Protobuf) (context : RpcContext) {clock : ℕ → Time}
    {s t : CacheStore} {snapshot : CacheStatsSnapshot}
    (h : CacheStore.step s ⟨.client .stats, clock⟩ = (.ok (.stats snapshot), t)) (hnot : ¬ snapshot.Fits) :
    (stats proto (CacheApplicationService.app CacheStore.step clock) context s).1.status =
      some (.internal, internalErrorDetails context.requestId) := by
  rw [stats_eq proto context h]
  rcases hmessage : cacheStatsResponse proto snapshot with x | message
  · rfl
  · exact absurd (exists_shows.mp ⟨message, (cacheStatsResponse_ok proto).mp hmessage⟩) hnot

/-- The sizes are bounded by the limits, and what is left are the limits and what has
happened. -/
theorem CacheStore.snapshot_fits {s t : CacheStore} {keys : List Key} (ht : t.Inv)
    (hp : Purged keys s t) (hevictions : s.evictions = s.lruEvictions)
    (hcapacity : s.rejectedCapacity = 0) : t.snapshot.Fits ↔ Countable s.limits s.used keys.length := by
  have hlimits : t.limits = s.limits := by rw [hp.eq]
  have hused : t.used = { s.used with expired := s.used.expired + keys.length } := by
    rw [hp.eq]
    rfl
  have hlru : t.evictions = s.used.evicted := by
    rw [hp.eq]
    exact hevictions
  have hzero : t.rejectedCapacity = 0 := by
    rw [hp.eq]
    exact hcapacity
  have hvalue := s.limits.maxValueBytes_pos
  have hvalue_le := s.limits.value_le_memory
  have hitems := s.limits.maxItems_pos
  have hmemory : 0 ≤ t.currentMemoryBytes := ht.counted ▸ bytes_nonneg t.store.items
  have hmemory_le := ht.memory_le
  have hsize := ht.items_le
  rw [hlimits] at hmemory_le hsize
  have hhits : t.hits = s.used.hits := congrArg Usage.hits hused
  have hmisses : t.misses = s.used.misses := congrArg Usage.misses hused
  have hevicted : t.lruEvictions = s.used.evicted := congrArg Usage.evicted hused
  have hexpired : t.expiredRemovals = s.used.expired + keys.length := congrArg Usage.expired hused
  have hoversize : t.rejectedOversize = s.used.oversize := congrArg Usage.oversize hused
  constructor
  · rintro ⟨-, h1, h2, -, -, h3, h4, -, h5, h6, h7, -⟩
    simp only [snapshot, FitsBits, hlimits, hhits, hmisses, hevicted, hexpired, hoversize] at *
    exact ⟨h4.2, h3.2, by omega, by omega, by omega, by omega, by omega⟩
  · rintro ⟨h1, h2, h3, h4, h5, h6, h7⟩
    refine ⟨?_, ?_, ?_, ?_, ?_, ?_, ?_, ?_, ?_, ?_, ?_, ?_⟩ <;>
      simp only [snapshot, FitsBits, hlimits, hhits, hmisses, hevicted, hexpired, hoversize, hlru, hzero,
        OrderedDict.length] <;> omega

/-- In every state of every run, `Stats` answers with the store's values exactly if the limits
and what has happened since the last `clear` are small enough. -/
theorem stats_shown_iff_countable (proto : Protobuf) (limits : CacheStoreLimits) (events : List Event)
    (clock : ℕ → Time) (context : RpcContext) :
    let s := exec CacheStore.step (CacheStore.init limits) events
    let answer :=
      (GrpcCacheService.stats proto (CacheApplicationService.app CacheStore.step clock) context s).1
    (answer.status = none ∧ ∃ snapshot t,
        CacheStore.step s ⟨.client .stats, clock⟩ = (.ok (.stats snapshot), t) ∧
          answer.message.Shows snapshot) ↔
      Countable limits (usage (trace CacheStore.step (CacheStore.init limits) events))
        (CacheStore.expiredKeys clock s.store.items).length := by
  intro s answer
  obtain ⟨hinv, hlimits⟩ := CacheStore.exec_inv limits events
  obtain ⟨hevictions, hcapacity⟩ := CacheStore.books.exec_settled (CacheStore.init_inv limits) rfl events
  obtain ⟨t, hp, hstep⟩ := CacheStore.step_stats s clock
  have ht : t.Inv := by
    have := CacheStore.step_inv hinv ⟨.client .stats, clock⟩
    rwa [hstep] at this
  have hfits := CacheStore.snapshot_fits ht hp hevictions hcapacity
  rw [show s.limits = limits from hlimits, show s.used = _ from CacheStore.exec_used limits events] at hfits
  have hanswers : answer.status = none ∧ answer.message.Shows t.snapshot ↔ t.snapshot.Fits :=
    GrpcCacheService.stats_answers_iff proto context hstep
  rw [← hfits, ← hanswers]
  constructor
  · rintro ⟨hstatus, snapshot, t', hstep', hshows⟩
    rw [hstep] at hstep'
    cases hstep'
    exact ⟨hstatus, hshows⟩
  · rintro ⟨hstatus, hshows⟩
    exact ⟨hstatus, _, t, hstep, hshows⟩

/-- `get_env_int` takes an item limit of 2 ^ 31, and with it no call of `Stats` succeeds. -/
theorem stats_not_shown :
    let getenv : Getenv := fun envName => if envName = "CACHE_MAX_ITEMS" then some "2147483648" else none
    ∃ settings s, loadSettings .plain getenv = .ok settings ∧ createMemoryStore settings = .ok s ∧
      ∀ proto : Protobuf,
        (GrpcCacheService.stats proto (CacheApplicationService.app CacheStore.step fun _ => 0)
          ⟨[], "r1"⟩ s).1.status = some (.internal, internalErrorDetails "r1") := by
  intro getenv
  obtain ⟨settings, hload, hitems⟩ : ∃ settings, loadSettings .plain getenv = .ok settings ∧
      settings.maxItems = 2 ^ 31 := by
    have hmap : (loadSettings .plain getenv).map Settings.maxItems = .ok (2 ^ 31) := by decide +kernel
    rcases hload : loadSettings .plain getenv with x | settings
    · rw [hload] at hmap
      cases hmap
    · rw [hload] at hmap
      exact ⟨settings, rfl, Except.ok.inj hmap⟩
  refine ⟨settings, _, hload, createMemoryStore_eq settings, fun proto => ?_⟩
  obtain ⟨t, hp, hstep⟩ := CacheStore.step_stats (CacheStore.init settings.limits) fun _ => 0
  have hnot : ¬ t.snapshot.Fits := fun h => by
    have hmax : t.snapshot.maxItems = 2 ^ 31 := by
      rw [hp.eq]
      exact hitems
    have hfits := h.maxItems.2
    omega
  exact GrpcCacheService.stats_internal proto _ hstep hnot

/-- Looking for a missing key over and over leaves the store empty. -/
theorem CacheStore.exec_misses (limits : CacheStoreLimits) (n : ℕ) :
    exec step (init limits) (List.replicate n ((Op.get "k").atTime 0)) =
      { init limits with misses := n } := by
  induction n with
  | zero => rfl
  | succ n ih =>
    rw [List.replicate_succ', exec_append, ih]
    rfl

theorem stats_fails_eventually (proto : Protobuf) (limits : CacheStoreLimits) (context : RpcContext)
    (clock : ℕ → Time) :
    ∃ events, (GrpcCacheService.stats proto (CacheApplicationService.app CacheStore.step clock) context
      (exec CacheStore.step (CacheStore.init limits) events)).1.status =
        some (.internal, internalErrorDetails context.requestId) := by
  refine ⟨List.replicate (2 ^ 31) ((Op.get "k").atTime 0), ?_⟩
  rw [CacheStore.exec_misses]
  obtain ⟨t, hp, hstep⟩ := CacheStore.step_stats { CacheStore.init limits with misses := 2 ^ 31 } clock
  apply GrpcCacheService.stats_internal proto context hstep
  intro hfits
  have hmisses : t.snapshot.misses = 2 ^ 31 := by
    rw [hp.eq]
    rfl
  have := hfits.misses.2
  omega

end TinyCache
