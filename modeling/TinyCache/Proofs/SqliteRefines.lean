import TinyCache.Proofs.SqliteAccounting
import TinyCache.Spec.History

/-! The SQLite store, in one session with an engine that does not raise, is a cache:
its entries move as `Allowed` says. Rows are compared through `rowToEntry`, which
forgets when they were last accessed. -/

namespace TinyCache.SqliteCacheStore

variable {db : Engine} {s t : SqliteCacheStore} {now : Time} {key : Key} {row : Row}

theorem entries_of_none (h : s.table.get? key = none) : s.entries key = none := by
  rw [entries, h, Option.map_none]

theorem entries_of_some (h : s.table.get? key = some row) : s.entries key = some (rowToEntry row) := by
  rw [entries, h, Option.map_some]

theorem without_entries (s : SqliteCacheStore) (key : Key) (row : Row) :
    (s.without key row).entries = Entries.erase s.entries key := by
  funext x
  change ((s.table.erase key).get? x).map rowToEntry = _
  rw [OrderedDict.get?_erase]
  by_cases hx : x = key
  · rw [if_pos hx, hx, Entries.erase_self, Option.map_none]
  · rw [if_neg hx, Entries.erase_of_ne _ hx]
    rfl

theorem inserted_entries_self : (s.inserted key row).entries key = some (rowToEntry row) := by
  change ((s.table.putLast key row).get? key).map rowToEntry = _
  rw [OrderedDict.get?_putLast, if_pos rfl, Option.map_some]

theorem inserted_entries_of_ne {x : Key} (hx : x ≠ key) :
    (s.inserted key row).entries x = s.entries x := by
  change ((s.table.putLast key row).get? x).map rowToEntry = _
  rw [OrderedDict.get?_putLast, if_neg hx]
  rfl

theorem touched_entries : (s.touched key now).entries = s.entries := by
  funext x
  change ((s.table.replace key fun row => { row with lastAccessed := now }).get? x).map rowToEntry = _
  rw [OrderedDict.get?_replace]
  split_ifs with hx
  · rw [hx, Option.map_map]
    rfl
  · rfl

theorem purge_missing (now : Time) (h : s.table.get? key = none) :
    Entries.purge s.entries now key = s.entries := by
  refine Entries.purge_eq_self ?_
  intro e he
  rw [entries_of_none h] at he
  cases he

theorem purge_live (h : s.table.get? key = some row) (hx : (rowToEntry row).isExpired now = false) :
    Entries.purge s.entries now key = s.entries := by
  refine Entries.purge_eq_self ?_
  intro e he
  rw [entries_of_some h, Option.some.injEq] at he
  exact he ▸ hx

theorem purge_expired (h : s.table.get? key = some row)
    (hx : (rowToEntry row).isExpired now = true) :
    Entries.purge s.entries now key = (s.expire key row).entries :=
  (Entries.purge_eq_erase (entries_of_some h) hx).trans (without_entries s key row).symm

theorem purge_some (h : s.table.get? key = some row)
    (hx : (rowToEntry row).isExpired now = false) :
    Entries.purge s.entries now key key = some (rowToEntry row) :=
  Entries.purge_eq_some.mpr ⟨entries_of_some h, hx⟩

theorem rowToEntry_rowOf (e : CacheEntry) (accessed : Time) : rowToEntry (rowOf e accessed) = e :=
  CacheEntry.new_self e

/-- A row that an accepted write left was there before, or is the one written. -/
theorem Stored.get?_of_ne {isNewKey : Bool} {gone rest : List (Key × Row)}
    (h : Stored s isNewKey key row gone t rest) {x : Key} {row' : Row} (hx : x ≠ key)
    (ht : t.table.get? x = some row') : s.table.get? x = some row' := by
  have hm := h.items.mem_iff.mp (OrderedDict.get?_eq_some.mp ht)
  rw [List.mem_append, List.mem_singleton] at hm
  rcases hm with hm | hm
  · exact OrderedDict.get?_eq_some.mpr (h.perm.mem_iff.mpr (List.mem_append_right _ hm))
  · exact absurd (congrArg Prod.fst hm) hx

theorem Stored.get?_self {isNewKey : Bool} {gone rest : List (Key × Row)}
    (h : Stored s isNewKey key row gone t rest) : t.table.get? key = some row :=
  OrderedDict.get?_eq_some.mpr (h.items.mem_iff.mpr (by simp))

theorem Stored.entries_of_ne {isNewKey : Bool} {gone rest : List (Key × Row)}
    (h : Stored s isNewKey key row gone t rest) {x : Key} (hx : x ≠ key) :
    t.entries x = s.entries x ∨ t.entries x = none := by
  cases ht : t.table.get? x with
  | none => exact Or.inr (entries_of_none ht)
  | some row' => exact Or.inl ((entries_of_some ht).trans (entries_of_some (h.get?_of_ne hx ht)).symm)

/-- The write path, from the map `m` that still has the old row. -/
theorem WriteOutcome.written {created accessed : Time} {value : Bytes} {ttl : Option ℤ}
    {old : Option Row} {st : CacheSetStatus} {m : Entries}
    (hw : WriteOutcome s created accessed key value ttl old st t) (hpop : s.table.get? key = none)
    (hold : m key = old.map rowToEntry) (hm : ∀ x, x ≠ key → m x = s.entries x) :
    Written s.limits.maxValueBytes created key value ttl m st t.entries := by
  cases hw with
  | tooLarge h n =>
    have he : (s.restored key old).entries = m := by
      funext x
      by_cases hx : x = key
      · rw [hx, hold]
        cases old with
        | none => exact entries_of_none hpop
        | some row => exact inserted_entries_self
      · rw [hm x hx]
        cases old with
        | none => rfl
        | some row => exact inserted_entries_of_ne hx
    change Written _ _ _ _ _ m .valueTooLarge (s.restored key old).entries
    rw [he]
    exact .tooLarge h
  | stored h hst =>
    refine .stored h ?_ ?_
    · rw [entries_of_some hst.get?_self, rowToEntry_rowOf]
    · intro x hx
      rw [hm x hx]
      exact hst.entries_of_ne hx

theorem Purged.entries {clock : ℕ → Time} (hp : Purged (expiredKeys clock 0 s.table.items) s t)
    (x : Key) : t.entries x = s.entries x ∨ ∃ i, t.entries x = Entries.purge s.entries (clock i) x x := by
  have hget := OrderedDict.get?_of_filter_notMem hp.items x
  by_cases hx : x ∈ expiredKeys clock 0 s.table.items
  · obtain ⟨row, i, hm, he⟩ := mem_expiredKeys hx
    rw [if_pos hx] at hget
    refine Or.inr ⟨i, ?_⟩
    rw [entries_of_none hget, Entries.purge_eq_erase (entries_of_some (OrderedDict.get?_eq_some.mpr hm)) he,
      Entries.erase_self]
  · rw [if_neg hx] at hget
    exact Or.inl (by rw [SqliteCacheStore.entries, hget]; rfl)

theorem Outcome.allowed {clock : ℕ → Time} {action : Action} {reply : Reply}
    (h : Outcome s clock action reply t) :
    Allowed s.limits.maxValueBytes clock s.entries action (.ok reply) t.entries := by
  cases h with
  | getMissing hv h =>
    have hp := purge_missing (clock 0) h
    refine (Allowed.get hv).of_eq ?_ hp
    rw [hp, entries_of_none h, Option.map_none]
  | getExpired hv h hx =>
    have hp := purge_expired h hx
    refine (Allowed.get hv).of_eq ?_ hp
    rw [Entries.purge_eq_erase (entries_of_some h) hx, Entries.erase_self, Option.map_none]
  | getHit hv h hx =>
    refine (Allowed.get hv).of_eq ?_ ((purge_live h hx).trans touched_entries.symm)
    rw [purge_some h hx, Option.map_some]
    rfl
  | @set key value ttl st t hv hw =>
    refine .set hv ?_
    rw [← popped_limits s key (s.table.get? key)]
    refine hw.written (popped_get? rfl) rfl ?_
    intro x hx
    cases s.table.get? key with
    | none => rfl
    | some row =>
      change _ = (s.without key row).entries x
      rw [without_entries, Entries.erase_of_ne _ hx]
  | setIfAbsentExists hv h hx =>
    exact (Allowed.setIfAbsentExists hv (purge_some h hx)).of_eq rfl (purge_live h hx)
  | setIfAbsentMissing hv h hw =>
    have hp := purge_missing (clock 0) h
    refine .setIfAbsent hv (by rw [hp]; exact entries_of_none h) ?_
    rw [hp]
    exact hw.written h (entries_of_none h) fun _ _ => rfl
  | @setIfAbsentExpired key _ _ row _ _ hv h hx hw =>
    have hp := purge_expired h hx
    have hnone : (s.expire key row).table.get? key = none := OrderedDict.get?_erase_self _ _
    refine .setIfAbsent hv (by rw [hp]; exact entries_of_none hnone) ?_
    rw [hp]
    exact hw.written hnone (entries_of_none hnone) fun _ _ => rfl
  | compareAndSetMissing hv h =>
    have hp := purge_missing (clock 0) h
    exact (Allowed.compareAndSetMissing hv (by rw [hp]; exact entries_of_none h)).of_eq rfl hp
  | compareAndSetExpired hv h hx =>
    refine (Allowed.compareAndSetMissing hv ?_).of_eq rfl (purge_expired h hx)
    rw [Entries.purge_eq_erase (entries_of_some h) hx, Entries.erase_self]
  | compareAndSetMismatch hv h hx hne =>
    exact (Allowed.compareAndSetMismatch hv (purge_some h hx) hne).of_eq rfl (purge_live h hx)
  | @compareAndSetMatch key _ _ _ row _ _ hv h hx he hw =>
    refine .compareAndSet hv (purge_some h hx) he ?_
    rw [purge_live h hx]
    refine hw.written (OrderedDict.get?_erase_self _ _) (entries_of_some h) ?_
    intro x hx'
    rw [without_entries, Entries.erase_of_ne _ hx']
  | @deleteMissing key hv h =>
    refine (Allowed.delete hv).of_eq ?_ ?_
    · rw [entries_of_none h, Option.isSome_none]
    · funext x
      by_cases hx : x = key
      · rw [hx, Entries.erase_self]
        exact (entries_of_none h).symm
      · exact Entries.erase_of_ne _ hx
  | @deletePresent key row hv h =>
    refine (Allowed.delete hv).of_eq ?_ (without_entries s key row).symm
    rw [entries_of_some h, Option.isSome_some]
  | stats hp => exact .stats hp.entries
  | clear => exact .clear
  | @cleanerKept key h =>
    refine Allowed.cleaner.of_eq rfl (Entries.purge_eq_self ?_)
    intro e he
    obtain ⟨row, hrow, rfl⟩ := Option.map_eq_some_iff.mp he
    exact h row hrow
  | cleanerRemoved h hx => exact Allowed.cleaner.of_eq rfl (purge_expired h hx)

theorem WriteOutcome.limits {created accessed : Time} {value : Bytes} {ttl : Option ℤ}
    {old : Option Row} {st : CacheSetStatus}
    (h : WriteOutcome s created accessed key value ttl old st t) : t.limits = s.limits := by
  cases h with
  | tooLarge => cases old <;> rfl
  | stored _ hst => rw [hst.eq]

theorem Outcome.limits {clock : ℕ → Time} {action : Action} {reply : Reply}
    (h : Outcome s clock action reply t) : t.limits = s.limits := by
  cases h with
  | set _ hw => exact hw.limits.trans (popped_limits ..)
  | setIfAbsentMissing _ _ hw => exact hw.limits
  | setIfAbsentExpired _ _ _ hw => exact hw.limits
  | compareAndSetMatch _ _ _ _ hw => exact hw.limits
  | stats hp => rw [hp.eq]
  | _ => rfl

theorem call_invalid {clock : ℕ → Time} {op : Op} {x : PyError} (hk : op.key? = some key)
    (hv : validateKey key = .error x) : call db clock op s = (.error x, s) := by
  cases op with
  | stats => cases hk
  | clear => cases hk
  | get | set | setIfAbsent | compareAndSet | delete =>
    cases hk
    simp [call, get, set, setIfAbsent, compareAndSet, delete, Act.bind_apply, hv]

theorem init_new {args : LimitArgs} {c : Connection} (h : init db args .new = (.ok s, c)) :
    s.Accounted ∧ s.entries = Entries.empty := by
  obtain ⟨-, htable, hmem, hcount⟩ := init_ok h
  refine ⟨⟨?_, ?_, ?_⟩, ?_⟩
  · rw [hmem, htable]
  · rw [hcount, htable]
  · rw [htable]
    intro p hp
    cases hp
  · funext key
    rw [SqliteCacheStore.entries, htable]
    rfl

/-- A step that raises may have lost rows, and has changed none. -/
theorem step_shrinks {event : Event} {x : PyError} (h : step db s event = (.error x, t)) :
    t.limits = s.limits ∧ ∀ key, t.entries key = s.entries key ∨ t.entries key = none := by
  have hP : ShrinksAll fun u => u.limits = s.limits ∧
      ∀ key, u.entries key = s.entries key ∨ u.entries key = none := by
    refine ⟨?_, ?_⟩
    · rintro u v ⟨hlimits, hu⟩ hl htable - -
      refine ⟨hl.trans hlimits, fun key => ?_⟩
      rw [SqliteCacheStore.entries, htable]
      exact hu key
    · rintro u key' row - ⟨hlimits, hu⟩ -
      refine ⟨hlimits, fun key => ?_⟩
      rw [without_entries]
      by_cases hk : key = key'
      · rw [hk]
        exact Or.inr (Entries.erase_self _ _)
      · rw [Entries.erase_of_ne _ hk]
        exact hu key
  exact ((hP.maintains.step ⟨rfl, fun _ => Or.inl rfl⟩ h).2 x rfl).1

/-- Every step of a store whose counters are right is one that a cache may take, whichever
statements raise. -/
theorem step_allowed (db : Engine) (hs : s.Accounted) (event : Event) :
    Allowed s.limits.maxValueBytes event.clock s.entries event.action (step db s event).1
      (step db s event).2.entries := by
  rcases hstep : step db s event with ⟨x | reply, t⟩
  · by_cases hvalid : event.action.KeyValid
    · exact .failed hvalid (step_shrinks hstep).2
    · obtain ⟨op, key, y, haction, hk, hv⟩ := exists_of_not_keyValid hvalid
      have hrun : step db s event = (.error y, s) := by
        rw [step, haction]
        exact call_invalid hk hv
      rw [hrun, Prod.mk.injEq, Except.error.injEq] at hstep
      obtain ⟨rfl, rfl⟩ := hstep
      rw [haction]
      exact .invalid hk hv
  · exact (step_ok hs hstep).allowed

theorem step_limits (db : Engine) (hs : s.Accounted) (event : Event) :
    (step db s event).2.limits = s.limits := by
  rcases hstep : step db s event with ⟨x | reply, t⟩
  · exact (step_shrinks hstep).1
  · exact (step_ok hs hstep).limits

theorem trace_accounted (db : Engine) (hs : s.Accounted) (events : List Event) :
    ∀ r ∈ Machine.trace (step db) s events, r.before.Accounted ∧ r.before.limits = s.limits ∧
      r = Machine.record (step db) r.before r.input := by
  intro r hr
  obtain ⟨⟨hacc, hlimits⟩, hrec⟩ := Machine.trace_always
    (I := fun t : SqliteCacheStore => t.Accounted ∧ t.limits = s.limits)
    (fun t event h => ⟨h.1.step db event, (step_limits db h.1 event).trans h.2⟩) ⟨hs, rfl⟩ hr
  exact ⟨hacc, hlimits, hrec⟩

theorem refines (db : Engine) {args : LimitArgs} {s₀ : SqliteCacheStore} {c : Connection}
    (h : init db args .new = (.ok s₀, c)) :
    Refines (step db) entries s₀.limits.maxValueBytes
      (fun s => s.Accounted ∧ s.limits = s₀.limits) s₀ := by
  obtain ⟨hacc, hempty⟩ := init_new h
  refine ⟨hempty, ⟨hacc, rfl⟩, ?_, ?_⟩
  · rintro s event ⟨hs, hlimits⟩
    exact ⟨hs.step db event, (step_limits db hs event).trans hlimits⟩
  · rintro s event ⟨hs, hlimits⟩
    rw [← hlimits]
    exact step_allowed db hs event

/-- With a reliable engine a step stops at an invalid key or returns. -/
theorem step_reliable (hdb : db.Reliable) (hs : s.Accounted) (event : Event) :
    (∃ op key x, event.action = .client op ∧ op.key? = some key ∧ validateKey key = .error x ∧
      step db s event = (.error x, s)) ∨
    ∃ reply t, step db s event = (.ok reply, t) ∧ Outcome s event.clock event.action reply t := by
  rcases hstep : step db s event with ⟨x | reply, t⟩
  · obtain ⟨op, key, y, haction, hk, hv⟩ := (step_accounted hs hstep).2 x rfl hdb
    refine Or.inl ⟨op, key, y, haction, hk, hv, ?_⟩
    rw [← hstep, step, haction]
    exact call_invalid hk hv
  · exact Or.inr ⟨reply, t, rfl, step_ok hs hstep⟩

theorem not_fails (hdb : db.Reliable) (hs : s.Accounted) (event : Event) :
    ¬ (event.action.KeyValid ∧ ∃ x, (step db s event).1 = .error x) := by
  rintro ⟨hvalid, x, hx⟩
  rcases step_reliable hdb hs event with ⟨op, key, y, haction, hk, hv, -⟩ | ⟨reply, t, hstep, -⟩
  · rw [hvalid op key haction hk] at hv
    cases hv
  · rw [hstep] at hx
    cases hx

theorem step_answer (hdb : db.Reliable) (hs : s.Accounted) {op : Op} (hk : op.key? = some key)
    (clock : ℕ → Time) :
    (step db s ⟨.client op, clock⟩).1 =
      (validateKey key).map fun _ => (op.onCell s.limits.maxValueBytes clock (s.entries key)).1 :=
  (step_allowed db hs ⟨.client op, clock⟩).answer (not_fails hdb hs ⟨.client op, clock⟩) hk

theorem trace_not_fails (hdb : db.Reliable) {args : LimitArgs} {s₀ : SqliteCacheStore} {c : Connection}
    (h : init db args .new = (.ok s₀, c)) (events : List Event) :
    ∀ r ∈ Machine.trace (step db) s₀ events, ¬ Obs.Fails r := by
  intro r hr
  obtain ⟨hs, -, hrec⟩ := trace_accounted db (init_new h).1 events r hr
  rw [hrec]
  exact not_fails hdb hs r.input

end TinyCache.SqliteCacheStore
