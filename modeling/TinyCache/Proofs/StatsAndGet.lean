import TinyCache.Proofs.ExpiredIsMissing
import TinyCache.Proofs.StatsMessage

/-! `stats` and `get` agree. A key under which something is stored is one that `get` takes,
so what `get` returns are the live entries, and these are what `stats` leaves and counts. -/

namespace TinyCache

open Machine

def KeysValid (m : Entries) : Prop := ∀ key e, m key = some e → validateKey key = .ok ()

theorem Allowed.keysValid {maxValueBytes : ℤ} {event : Event} {m m' : Entries}
    {reply : Except PyError Reply} (h : Allowed maxValueBytes event.clock m event.action reply m')
    (hm : KeysValid m) : KeysValid m' := by
  intro key e he
  cases h.keyStep key with
  | wrote hw hkey _ =>
    obtain ⟨op, haction, hk⟩ := accepted?_key hw
    rw [haction] at h
    rcases reply with x | reply
    · simp [accepted?] at hw
    · rw [hkey] at hk
      exact h.valid hk
  | kept _ hkept =>
    rw [hkept] at he
    exact hm key e he
  | lost _ _ hnone =>
    rw [hnone] at he
    cases he

theorem CacheStore.exec_keysValid (limits : CacheStoreLimits) (events : List Event) :
    KeysValid (exec step (init limits) events).entries := by
  refine (exec_always (I := fun s : CacheStore => s.Inv ∧ KeysValid s.entries) ?_
    ⟨init_inv limits, ?_⟩ events).2
  · intro s event h
    exact ⟨step_inv h.1 event, (step_outcome h.1.counted event).allowed.keysValid h.2⟩
  · intro key e he
    cases he

/-- What is stored in the file. -/
def World.entries (w : World) : Entries := fun key =>
  (w.connection.table.get? key).map SqliteCacheStore.rowToEntry

theorem World.step_keysValid {db : Engine} {w : World} (hw : w.Sound) (h : KeysValid w.entries)
    (event : SessionEvent) : KeysValid (w.step db event).2.entries := by
  cases event with
  | reopen args =>
    have htable : (w.step db (.reopen args)).2.entries = w.entries := by
      funext key
      change ((w.reopen db args).2.connection.table.get? key).map _ = _
      rw [reopen_table]
      rfl
    rw [htable]
    exact h
  | call event =>
    cases w with
    | closed connection => exact h
    | opened s => exact (SqliteCacheStore.step_allowed db hw event).keysValid h

theorem World.exec_keysValid (db : Engine) (history : List SessionEvent) :
    KeysValid (exec (step db) new history).entries := by
  refine (exec_always (I := fun w : World => w.Sound ∧ KeysValid w.entries) ?_ ⟨?_, ?_⟩ history).2
  · intro w event h
    exact ⟨step_sound h.1 event, step_keysValid h.1 h.2 event⟩
  · intro p hp
    cases hp
  · intro key e he
    cases he

section

variable {σ ρ : Type} {step : σ → Event → Except PyError Reply × σ} {shelf : σ → OrderedDict Key ρ}
  {now : Time} {s t : σ} {snapshot : CacheStatsSnapshot}

theorem get_eq_value {maxValueBytes : ℤ} {m : Entries} (hm : KeysValid m) {key : Key} {value : Bytes}
    (hget : (step s ((Op.get key).atTime now)).1 = (validateKey key).map fun _ =>
      ((Op.get key).onCell maxValueBytes (fun _ => now) (m key)).1) :
    (step s ((Op.get key).atTime now)).1 = .ok (.value (some value)) ↔
      ∃ e, m key = some e ∧ e.isExpired now = false ∧ e.value = value := by
  have hcell : ((Op.get key).onCell maxValueBytes (fun _ => now) (m key)).1 =
      .value (((m key).filter fun e => !e.isExpired now).map CacheEntry.value) := rfl
  rw [hget, hcell]
  constructor
  · intro h
    rcases hv : validateKey key with x | _
    · rw [hv] at h
      cases h
    · rw [hv] at h
      simp only [Except.map, Except.ok.injEq, Reply.value.injEq, Option.map_eq_some_iff,
        Option.filter_eq_some_iff, Bool.not_eq_eq_eq_not, Bool.not_true] at h
      obtain ⟨e, ⟨he, hx⟩, hvalue⟩ := h
      exact ⟨e, he, hx, hvalue⟩
  · rintro ⟨e, he, hx, rfl⟩
    rw [hm key e he, he]
    simp [Except.map, Option.filter, hx]

section

variable {toEntry : ρ → CacheEntry} {maxValueBytes : ℤ}
  (hpurged : (shelf t).items = (shelf s).items.filter fun p => !(toEntry p.2).isExpired now)

include hpurged

theorem get?_purged (key : Key) :
    ((shelf t).get? key).map toEntry = (((shelf s).get? key).map toEntry).filter fun e => !e.isExpired now := by
  rw [OrderedDict.get?_of_filter hpurged, Option.filter_map]
  rfl

theorem get_iff_purged (hvalid : KeysValid fun key => ((shelf s).get? key).map toEntry) {key : Key}
    {value : Bytes} (hget : (step s ((Op.get key).atTime now)).1 = (validateKey key).map fun _ =>
      ((Op.get key).onCell maxValueBytes (fun _ => now) (((shelf s).get? key).map toEntry)).1) :
    (step s ((Op.get key).atTime now)).1 = .ok (.value (some value)) ↔
      ∃ row, (key, row) ∈ (shelf t).items ∧ (toEntry row).value = value := by
  have hleft : ∀ row, (key, row) ∈ (shelf t).items ↔
      (shelf s).get? key = some row ∧ (toEntry row).isExpired now = false := by
    intro row
    rw [← OrderedDict.get?_eq_some, OrderedDict.get?_of_filter hpurged, Option.filter_eq_some_iff]
    simp
  rw [get_eq_value hvalid hget]
  constructor
  · rintro ⟨e, he, hx, hvalue⟩
    obtain ⟨row, hrow, rfl⟩ := Option.map_eq_some_iff.mp he
    exact ⟨row, (hleft row).mpr ⟨hrow, hx⟩, hvalue⟩
  · rintro ⟨row, hrow, hvalue⟩
    obtain ⟨hrow, hx⟩ := (hleft row).mp hrow
    exact ⟨toEntry row, by rw [hrow, Option.map_some], hx, hvalue⟩

end

theorem hits_of_items {toEntry : ρ → CacheEntry} {d : OrderedDict Key ρ}
    (h : ∀ key value, (step s ((Op.get key).atTime now)).1 = .ok (.value (some value)) ↔
      ∃ row, (key, row) ∈ d.items ∧ (toEntry row).value = value) :
    Hits step now s (d.items.map fun p => (p.1, (toEntry p.2).value)) := by
  refine ⟨?_, ?_⟩
  · rw [List.map_map]
    exact d.nodup
  · intro key value
    rw [h, List.mem_map]
    constructor
    · rintro ⟨⟨k, row⟩, hp, he⟩
      rw [Prod.mk.injEq] at he
      obtain ⟨rfl, hvalue⟩ := he
      exact ⟨row, hp, hvalue⟩
    · rintro ⟨row, hrow, rfl⟩
      exact ⟨(key, row), hrow, rfl⟩

/-- A store that answers from its entries, and whose `stats` leaves the live ones and counts
what is left. -/
theorem StatsAgree.of_purged (toEntry : ρ → CacheEntry) (maxValueBytes : ℤ)
    (hvalid : KeysValid fun key => ((shelf s).get? key).map toEntry)
    (hanswer : ∀ u, u = s ∨ u = t → ∀ key, (step u ((Op.get key).atTime now)).1 =
      (validateKey key).map fun _ => ((Op.get key).onCell maxValueBytes (fun _ => now)
        (((shelf u).get? key).map toEntry)).1)
    (hpurged : (shelf t).items = (shelf s).items.filter fun p => !(toEntry p.2).isExpired now)
    (hsize : snapshot.size = (shelf t).length)
    (hbytes : snapshot.memoryUsageBytes = ((shelf t).items.map fun p => (toEntry p.2).sizeBytes).sum)
    (hagain : (step t (Op.stats.atTime now)).1 = .ok (.stats snapshot)) :
    StatsAgree step shelf now s snapshot t := by
  have hget : ∀ key value, (step s ((Op.get key).atTime now)).1 = .ok (.value (some value)) ↔
      ∃ row, (key, row) ∈ (shelf t).items ∧ (toEntry row).value = value :=
    fun key value => get_iff_purged hpurged hvalid (hanswer s (Or.inl rfl) key)
  refine ⟨⟨_, hits_of_items hget, ?_, ?_⟩, hagain, ?_, ?_⟩
  · rw [hsize, List.length_map]
    rfl
  · rw [hbytes, List.map_map]
    rfl
  · intro key
    have hsame := (@Op.onCell_purged maxValueBytes now (.get key) key rfl
      (((shelf s).get? key).map toEntry)).mpr fun h => by cases h.1
    rw [hanswer t (Or.inr rfl), hanswer s (Or.inl rfl), get?_purged hpurged, hsame]
  · intro hits hhits
    apply OrderedDict.filter_keys_of_filter hpurged
    intro key hkey
    obtain ⟨hit, hhit, rfl⟩ := List.mem_map.mp hkey
    obtain ⟨row, hrow, -⟩ := (hget _ _).mp ((hhits.mem hit.1 hit.2).mp hhit)
    exact List.mem_map_of_mem hrow

end

namespace CacheStore

variable {s t : CacheStore} {now : Time}

theorem Purged.live (hp : Purged (expiredKeys (fun _ => now) s.store.items) s t) :
    t.store.items = s.store.items.filter fun p => !p.2.isExpired now := by
  rw [hp.items, expiredKeys_const]
  exact OrderedDict.filter_notMem_filter s.store _

theorem Purged.expiredKeys_eq_nil (hp : Purged (expiredKeys (fun _ => now) s.store.items) s t) :
    expiredKeys (fun _ => now) t.store.items = [] := by
  rw [expiredKeys_const, hp.live, List.filter_filter]
  simp

theorem Purged.snapshot_of_nil (hp : Purged [] s t) : t.snapshot = s.snapshot := by
  have hitems : t.store.items = s.store.items := by
    rw [hp.items]
    simp
  rw [hp.eq]
  simp [snapshot, OrderedDict.length, hitems]

theorem stats_agree (hs : s.Inv) (hvalid : KeysValid s.entries) (now : Time) :
    ∃ snapshot t, step s (Op.stats.atTime now) = (.ok (.stats snapshot), t) ∧
      StatsAgree step store now s snapshot t := by
  obtain ⟨t, hp, hstep⟩ := step_stats s fun _ => now
  have ht : t.Inv := by
    have hinv := step_inv hs (Op.stats.atTime now)
    rwa [show step s (Op.stats.atTime now) = _ from hstep] at hinv
  have hlimits : t.limits = s.limits := by rw [hp.eq]
  refine ⟨t.snapshot, t, hstep, StatsAgree.of_purged id s.limits.maxValueBytes ?_ ?_ hp.live rfl ht.counted ?_⟩
  · intro key e he
    rw [Option.map_id] at he
    exact hvalid key e he
  · intro u hu key
    rw [Option.map_id, id]
    rcases hu with rfl | rfl
    · exact step_answer hs rfl _
    · rw [← hlimits]
      exact step_answer ht rfl _
  · obtain ⟨t', hp', hstep'⟩ := step_stats t fun _ => now
    rw [hp.expiredKeys_eq_nil] at hp'
    rw [show step t (Op.stats.atTime now) = _ from hstep', hp'.snapshot_of_nil]

end CacheStore

namespace SqliteCacheStore

variable {db db' : Engine} {s t : SqliteCacheStore} {now : Time}

theorem Purged.live (hp : Purged (expiredKeys (fun _ => now) 0 s.table.items) s t) :
    t.table.items = s.table.items.filter fun p => !(rowToEntry p.2).isExpired now := by
  rw [hp.items, expiredKeys_const]
  exact OrderedDict.filter_notMem_filter s.table _

theorem Purged.expiredKeys_eq_nil (hp : Purged (expiredKeys (fun _ => now) 0 s.table.items) s t) :
    expiredKeys (fun _ => now) 0 t.table.items = [] := by
  rw [expiredKeys_const, hp.live, List.filter_filter]
  simp

theorem Purged.snapshot_of_nil (hp : Purged [] s t) : t.snapshot = s.snapshot := by
  have hitems : t.table.items = s.table.items := by
    rw [hp.items]
    simp
  rw [hp.eq]
  simp [snapshot, OrderedDict.length, hitems]

theorem step_stats (hdb : db.Reliable) (hs : s.Accounted) (now : Time) :
    ∃ t, Purged (expiredKeys (fun _ => now) 0 s.table.items) s t ∧
      step db s (Op.stats.atTime now) = (.ok (.stats t.snapshot), t) := by
  rcases step_reliable hdb hs (Op.stats.atTime now) with ⟨op, key, x, hop, hk, -⟩ | ⟨reply, t, hstep, h⟩
  · cases hop
    cases hk
  · cases h with
    | stats hp => exact ⟨t, hp, hstep⟩

/-- What a returning `stats` reports, though other statements may have raised. -/
theorem stats_agree (hdb : db.Reliable) (hs : s.Accounted) (hvalid : KeysValid s.entries)
    {snapshot : CacheStatsSnapshot}
    (hstep : step db' s (Op.stats.atTime now) = (.ok (.stats snapshot), t)) :
    StatsAgree (step db) table now s snapshot t := by
  have ht := (step_accounted hs hstep).1
  have hout := step_ok hs hstep
  have hlimits := hout.limits
  cases hout with
  | stats hp =>
    refine StatsAgree.of_purged rowToEntry s.limits.maxValueBytes hvalid ?_ hp.live ht.count ?_ ?_
    · intro u hu key
      rcases hu with rfl | rfl
      · exact step_answer hdb hs rfl _
      · rw [← hlimits]
        exact step_answer hdb ht rfl _
    · rw [show t.snapshot.memoryUsageBytes = _ from ht.memory]
      exact congrArg List.sum (List.map_congr_left ht.sized)
    · obtain ⟨t', hp', hstep'⟩ := step_stats hdb ht now
      rw [hp.expiredKeys_eq_nil] at hp'
      rw [hstep', hp'.snapshot_of_nil]

end SqliteCacheStore

/-- In every reachable state of either backend `stats` counts what `get` returns, and changes
nothing that shows at the same reading. -/
theorem stats_and_get_agree (now : Time) :
    (∀ (limits : CacheStoreLimits) (events : List Event),
      let s := exec CacheStore.step (CacheStore.init limits) events
      ∃ snapshot t, CacheStore.step s (Op.stats.atTime now) = (.ok (.stats snapshot), t) ∧
        StatsAgree CacheStore.step CacheStore.store now s snapshot t) ∧
    ∀ (db₀ db : Engine) (history : List SessionEvent) (s : SqliteCacheStore),
      exec (World.step db₀) World.new history = .opened s → db.Reliable →
      (∃ snapshot t, SqliteCacheStore.step db s (Op.stats.atTime now) = (.ok (.stats snapshot), t)) ∧
      ∀ db' snapshot t,
        SqliteCacheStore.step db' s (Op.stats.atTime now) = (.ok (.stats snapshot), t) →
          StatsAgree (SqliteCacheStore.step db) SqliteCacheStore.table now s snapshot t := by
  constructor
  · intro limits events s
    exact CacheStore.stats_agree (CacheStore.exec_inv limits events).1
      (CacheStore.exec_keysValid limits events) now
  · intro db₀ db history s hopened hdb
    have hs := World.exec_sound db₀ history
    have hvalid := World.exec_keysValid db₀ history
    rw [hopened] at hs hvalid
    constructor
    · obtain ⟨t, -, hstep⟩ := SqliteCacheStore.step_stats hdb hs now
      exact ⟨_, t, hstep⟩
    · intro db' snapshot t hstep
      exact SqliteCacheStore.stats_agree hdb hs hvalid hstep

/-- At the reading 2 the entry of `a` has expired and that of `b` has not. -/
theorem stats_and_get_agree_run :
    let events := [(Op.set "a" [1] (some 1)).atTime 0, (Op.set "b" [2] none).atTime 1]
    ∃ s, exec (World.step ⟨fun _ => false, fun _ => 0⟩) .new
        (.reopen ⟨some 2, some 1, some 10, some 40⟩ :: events.map .call) = .opened s ∧
      ∃ snapshot t, SqliteCacheStore.step ⟨fun _ => false, fun _ => 0⟩ s (Op.stats.atTime 2) =
          (.ok (.stats snapshot), t) ∧
        StatsAgree (SqliteCacheStore.step ⟨fun _ => false, fun _ => 0⟩) SqliteCacheStore.table 2 s
          snapshot t := by
  intro events
  have hopened : exec (World.step ⟨fun _ => false, fun _ => 0⟩) .new
      (.reopen ⟨some 2, some 1, some 10, some 40⟩ :: events.map .call) = .opened _ := rfl
  obtain ⟨⟨snapshot, t, hstep⟩, hagree⟩ := (stats_and_get_agree 2).2 _ ⟨fun _ => false, fun _ => 0⟩ _ _
    hopened fun _ => rfl
  exact ⟨_, hopened, snapshot, t, hstep, hagree _ snapshot t hstep⟩

end TinyCache
