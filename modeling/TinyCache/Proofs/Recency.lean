import TinyCache.Proofs.SqliteEviction
import TinyCache.Spec.Recency

/-! Evictions take the rows in the order of `last_accessed`, which is the order of their last
uses as long as every use is stamped later than all that is in the table. -/

namespace TinyCache

open Machine

namespace SqliteCacheStore

open Act Connection

variable {db : Engine} {s u t : SqliteCacheStore} {key : Key}

/-- A step that uses `use?` has stamped its row, and has changed no other. -/
structure Stamps (use? : Option Key) (stamp? : Option Time) (s t : SqliteCacheStore) : Prop where
  kept : ∀ x row, use? ≠ some x → t.table.get? x = some row → s.table.get? x = some row
  stamped : ∀ x row, use? = some x → t.table.get? x = some row → stamp? = some row.lastAccessed

theorem Stamps.of_subset {stamp? : Option Time}
    (h : ∀ x row, t.table.get? x = some row → s.table.get? x = some row) : Stamps none stamp? s t :=
  ⟨fun x row _ => h x row, fun _ _ hx => nomatch hx⟩

theorem erase_subset {table : Table} {x : Key} {row : Row} (h : (table.erase key).get? x = some row) :
    table.get? x = some row := by
  rw [OrderedDict.get?_erase] at h
  split_ifs at h
  exact h

theorem Stamps.of_erase {stamp? : Option Time} (h : t.table = s.table.erase key) :
    Stamps none stamp? s t := by
  refine .of_subset ?_
  rw [h]
  exact fun _ _ => erase_subset

theorem popped_subset {old : Option Row} {x : Key} {row : Row}
    (h : (s.popped key old).table.get? x = some row) : s.table.get? x = some row := by
  cases old with
  | none => exact h
  | some _ => exact erase_subset h

/-- The write path from `u`, in which the old row is set aside. -/
theorem WriteOutcome.stamps {created accessed : Time} {value : Bytes} {ttl : Option ℤ}
    {old : Option Row} {st : CacheSetStatus} (h : WriteOutcome u created accessed key value ttl old st t)
    (hu : ∀ x row, u.table.get? x = some row → s.table.get? x = some row)
    (hold : ∀ row, old = some row → s.table.get? key = some row) (hlimits : u.limits = s.limits) :
    Stamps (if st = .ok then some key else none)
      (if getsizeof value > s.limits.maxValueBytes then none else some accessed) s t := by
  cases h with
  | tooLarge _ n =>
    refine .of_subset ?_
    intro x row hx
    cases old with
    | none => exact hu x row hx
    | some row' =>
      change (u.table.putLast key row').get? x = some row at hx
      rw [OrderedDict.get?_putLast] at hx
      split_ifs at hx with hk
      · rw [hk, hold row' rfl, hx]
      · exact hu x row hx
  | @stored gone rest _ hsize hst =>
    rw [if_pos rfl, if_neg (by rw [← hlimits]; exact not_lt.mpr hsize)]
    refine ⟨?_, ?_⟩
    · intro x row hne hx
      exact hu x row (hst.get?_of_ne (fun h => hne (congrArg some h.symm)) hx)
    · intro x row he hx
      cases he
      rw [hst.get?_self, Option.some.injEq] at hx
      rw [← hx]
      rfl

theorem used?_set {clock : ℕ → Time} {value : Bytes} {ttl : Option ℤ} {st : CacheSetStatus} :
    used? ⟨.client (.set key value ttl), clock⟩ (.ok (.status st)) =
      if st = .ok then some key else none := by
  cases st <;> rfl

theorem used?_setIfAbsent {clock : ℕ → Time} {value : Bytes} {ttl : Option ℤ} {st : CacheSetStatus} :
    used? ⟨.client (.setIfAbsent key value ttl), clock⟩
        (.ok (.conditional (conditionalStatusFromSetStatus st))) =
      if st = .ok then some key else none := by
  cases st <;> rfl

theorem used?_compareAndSet {clock : ℕ → Time} {expected value : Bytes} {ttl : Option ℤ}
    {st : CacheSetStatus} :
    used? ⟨.client (.compareAndSet key expected value ttl), clock⟩
        (.ok (.conditional (conditionalStatusFromSetStatus st))) =
      if st = .ok then some key else none := by
  cases st <;> rfl

/-- What a returning step uses, it stamps with the reading that was to be expected. -/
theorem Outcome.stamps {clock : ℕ → Time} {op : Op} {reply : Reply}
    (h : Outcome s clock (.client op) reply t) (hk : op.key? = some key) :
    Stamps (used? ⟨.client op, clock⟩ (.ok reply))
      (op.stamp? s.limits.maxValueBytes clock ((s.table.get? key).map rowToEntry)) s t := by
  cases h with
  | getMissing _ _ n => exact .of_subset fun _ _ h => h
  | @getExpired k => exact @Stamps.of_erase s _ k _ rfl
  | @getHit k row _ hrow hx n =>
    cases hk
    have hget : ∀ x, ((s.touched key (clock 1)).ticked n).table.get? x =
        if x = key then some { row with lastAccessed := clock 1 } else s.table.get? x := by
      intro x
      change (s.table.replace key fun row => { row with lastAccessed := clock 1 }).get? x = _
      rw [OrderedDict.get?_replace, hrow]
      rfl
    refine ⟨?_, ?_⟩
    · intro x row' hne h
      rw [hget, if_neg fun h => hne (congrArg some h.symm)] at h
      exact h
    · intro x row' he h
      cases he
      rw [hget, if_pos rfl, Option.some.injEq] at h
      rw [← h]
      simp [Op.stamp?, hrow, hx]
  | set _ hw =>
    cases hk
    rw [used?_set]
    exact hw.stamps (fun _ _ => popped_subset) (fun _ h => h) (popped_limits s key _)
  | setIfAbsentExists => exact .of_subset fun _ _ h => h
  | setIfAbsentMissing _ hnone hw =>
    cases hk
    rw [used?_setIfAbsent]
    have h := hw.stamps (s := s) (fun _ _ h => h) (fun _ h => by cases h) rfl
    simpa [Op.stamp?, hnone] using h
  | setIfAbsentExpired _ hrow hx hw =>
    cases hk
    rw [used?_setIfAbsent]
    have h := hw.stamps (s := s) (fun _ _ => erase_subset) (fun _ h => by cases h) rfl
    simpa [Op.stamp?, hrow, hx] using h
  | compareAndSetMissing => exact .of_subset fun _ _ h => h
  | @compareAndSetExpired k => exact @Stamps.of_erase s _ k _ rfl
  | compareAndSetMismatch => exact .of_subset fun _ _ h => h
  | @compareAndSetMatch k expected _ _ row _ _ _ hrow hx he hw =>
    cases hk
    rw [used?_compareAndSet]
    have h := hw.stamps (s := s) (fun _ _ => erase_subset) (fun _ h => h ▸ hrow) rfl
    have he : (rowToEntry row).value = expected := he
    simpa [Op.stamp?, hrow, Option.filter_some, hx, he] using h
  | deleteMissing => exact .of_subset fun _ _ h => h
  | @deletePresent k => exact @Stamps.of_erase s _ k _ rfl
  | stats => cases hk
  | clear => cases hk

theorem Outcome.subset {clock : ℕ → Time} {action : Action} {reply : Reply}
    (h : Outcome s clock action reply t)
    (hk : ∀ op key, action = .client op → op.key? ≠ some key) {x : Key} {row : Row}
    (hx : t.table.get? x = some row) : s.table.get? x = some row := by
  cases h with
  | stats hp =>
    rw [OrderedDict.get?_of_filter hp.items, Option.filter_eq_some_iff] at hx
    exact hx.1
  | clear => cases hx
  | cleanerKept => exact hx
  | cleanerRemoved => exact erase_subset hx
  | _ => exact absurd rfl (hk _ _ rfl)

theorem step_subset {event : Event} {x : PyError} (h : step db s event = (.error x, t)) :
    ∀ key row, t.table.get? key = some row → s.table.get? key = some row := by
  have hP : ShrinksAll fun u => ∀ key row, u.table.get? key = some row → s.table.get? key = some row :=
    ⟨fun _ _ hu _ htable _ _ => htable ▸ hu, fun u k _ _ hu _ key row h => hu key row (erase_subset h)⟩
  exact ((hP.maintains.step (fun _ _ h => h) h).2 x rfl).1

end SqliteCacheStore

theorem used?_key {event : Event} {reply : Except PyError Reply} {key : Key}
    (h : used? event reply = some key) : ∃ op, event.action = .client op ∧ op.key? = some key := by
  unfold used? at h
  split at h
  · next haction =>
    cases h
    exact ⟨_, haction, rfl⟩
  · obtain ⟨w, hw, rfl⟩ := Option.map_eq_some_iff.mp h
    exact accepted?_key hw

theorem used?_error (event : Event) (x : PyError) : used? event (.error x) = none := by
  unfold used?
  split
  · next h => cases h
  · rfl

namespace World

variable {db : Engine} {w : World} {history : List SessionObs}

/-- What `last_accessed` says of a key. -/
def stamps (w : World) (key : Key) : Option Time := (w.connection.table.get? key).map Row.lastAccessed

/-- What one step does to the rows: it stamps the one it uses and changes no other. -/
structure Recorded (r : SessionObs) : Prop where
  kept : ∀ x row, r.used? ≠ some x → r.after.connection.table.get? x = some row →
    r.before.connection.table.get? x = some row
  stamped : ∀ x row, r.used? = some x → r.after.connection.table.get? x = some row →
    r.stamp? = some (x, row.lastAccessed)

theorem Recorded.of_subset {r : SessionObs} (hused : r.used? = none)
    (h : ∀ x row, r.after.connection.table.get? x = some row →
      r.before.connection.table.get? x = some row) : Recorded r := by
  refine ⟨fun x row _ => h x row, ?_⟩
  intro x row hx
  rw [hused] at hx
  cases hx

theorem call_recorded {s : SqliteCacheStore} (hs : s.Accounted) (event : Event) :
    Recorded (record (step db) (.opened s) (.call event)) := by
  obtain ⟨action, clock⟩ := event
  rcases hstep : SqliteCacheStore.step db s ⟨action, clock⟩ with ⟨x | reply, t⟩
  · have hrec : record (step db) (.opened s) (.call ⟨action, clock⟩) =
        ⟨.opened s, .call ⟨action, clock⟩, .error x, .opened t⟩ := by
      simp [record, step, call, hstep]
    rw [hrec]
    exact .of_subset (used?_error _ _) (SqliteCacheStore.step_subset hstep)
  · have hrec : record (step db) (.opened s) (.call ⟨action, clock⟩) =
        ⟨.opened s, .call ⟨action, clock⟩, .ok reply, .opened t⟩ := by
      simp [record, step, call, hstep]
    have hout := SqliteCacheStore.step_ok hs hstep
    rw [hrec]
    by_cases hkey : ∃ op key, action = .client op ∧ op.key? = some key
    · obtain ⟨op, key, rfl, hk⟩ := hkey
      have hst := hout.stamps hk
      have hvalid : validateKey key = .ok () := by
        rcases hv : validateKey key with y | _
        · have hrun : SqliteCacheStore.step db s ⟨.client op, clock⟩ = (.error y, s) :=
            SqliteCacheStore.call_invalid hk hv
          rw [hstep] at hrun
          cases hrun
        · rfl
      refine ⟨hst.kept, ?_⟩
      intro x row hx ht
      obtain ⟨op', hop, hk'⟩ := used?_key hx
      cases hop
      obtain rfl := Option.some.inj (hk.symm.trans hk')
      have hstamp := hst.stamped key row hx ht
      simp [SessionObs.stamp?, hk, hvalid, hstamp, Except.toOption]
    · have hnone : ∀ op key, action = .client op → op.key? ≠ some key :=
        fun op key h hk => hkey ⟨op, key, h, hk⟩
      refine .of_subset ?_ fun x row => hout.subset hnone
      rw [Option.eq_none_iff_forall_ne_some]
      intro x hx
      obtain ⟨op, hop, hk⟩ := used?_key hx
      exact hnone op x hop hk

theorem step_recorded (hw : w.Sound) (event : SessionEvent) : Recorded (record (step db) w event) := by
  cases event with
  | reopen args =>
    refine .of_subset rfl fun x row h => ?_
    have h : (w.reopen db args).2.connection.table.get? x = some row := h
    rwa [reopen_table] at h
  | call event =>
    cases w with
    | opened s => exact call_recorded hw event
    | closed c =>
      refine .of_subset ?_ fun _ _ h => h
      change used? event (.ok .done) = none
      unfold used?
      split
      · next h => cases h
      · rfl

/-- The stamps tell the order of the last uses. -/
def Recent (history : List SessionObs) (w : World) : Prop :=
  w.Sound ∧ Recency.StampedByUse SessionObs.used? history w.stamps

theorem step_recent (h : Recent history w) (event : SessionEvent)
    (hlast : SessionObs.StampsLast (record (step db) w event)) :
    Recent (history ++ [record (step db) w event]) (step db w event).2 := by
  have hrec : Recorded (record (step db) w event) := step_recorded h.1 event
  refine ⟨step_sound h.1 event, ?_⟩
  cases hused : SessionObs.used? (record (step db) w event) with
  | none =>
    refine h.2.snoc hused fun a t ha => ?_
    obtain ⟨row, hrow, rfl⟩ := Option.map_eq_some_iff.mp ha
    exact Option.map_eq_some_iff.mpr ⟨row, hrec.kept a row (by simp [hused]) hrow, rfl⟩
  | some k =>
    refine h.2.use hused (fun a t hak ha => ?_) fun now hnow a t hak ha => ?_
    · obtain ⟨row, hrow, rfl⟩ := Option.map_eq_some_iff.mp ha
      exact Option.map_eq_some_iff.mpr ⟨row, hrec.kept a row (by simp [hused, hak.symm]) hrow, rfl⟩
    · obtain ⟨row, hrow, rfl⟩ := Option.map_eq_some_iff.mp hnow
      obtain ⟨row', hrow', rfl⟩ := Option.map_eq_some_iff.mp ha
      exact hlast _ (hrec.stamped k row hused hrow) (a, row') (OrderedDict.get?_eq_some.mp hrow') hak

/-- While the stamps tell the order of the last uses, evictions take the least recently
used. -/
theorem step_evicts_lru (h : Recent history w) (event : SessionEvent) :
    SessionObs.EvictsLeastRecentlyUsed history (record (step db) w event) := by
  rintro op clock key hinput hk
  cases (show event = .call ⟨.client op, clock⟩ from hinput)
  have hevict : ∃ limits, SqliteCacheStore.Evicting limits op.value? key w.connection.table
      (step db w (.call ⟨.client op, clock⟩)).2.connection.table := by
    cases w with
    | closed c => exact ⟨.small 0, .refl _ _ key c.table⟩
    | opened s => exact ⟨s.limits, SqliteCacheStore.step_evicting db h.1 clock hk⟩
  obtain ⟨-, gone, hperm, hsorted, holdest, -⟩ := hevict
  have hstamp : ∀ p ∈ (w.connection.table.erase key).items, w.stamps p.1 = some p.2.lastAccessed := by
    intro p hp
    have hget := OrderedDict.get?_eq_some.mpr (OrderedDict.mem_erase.mp hp).1
    exact Option.map_eq_some_iff.mpr ⟨p.2, hget, rfl⟩
  have hbefore : ∀ p ∈ (w.connection.table.erase key).items,
      ∀ q ∈ (w.connection.table.erase key).items, p.1 ≠ q.1 → p.2.lastAccessed ≤ q.2.lastAccessed →
      Recency.UsedBefore SessionObs.used? history p.1 q.1 :=
    fun p hp q hq hne hle => h.2.ordered p.1 q.1 _ _ hne (hstamp p hp) (hstamp q hq) hle
  have hnodup := (hperm.map Prod.fst).nodup_iff.mp (w.connection.table.erase key).nodup
  rw [List.map_append, List.nodup_append] at hnodup
  have hgone : ∀ p ∈ gone, p ∈ (w.connection.table.erase key).items :=
    fun p hp => hperm.mem_iff.mpr (List.mem_append_left _ hp)
  refine ⟨gone, hperm, ?_, ?_⟩
  · refine (hsorted.and (List.pairwise_map.mp hnodup.1)).imp_of_mem ?_
    intro p q hp hq hpq
    exact hbefore p (hgone p hp) q (hgone q hq) hpq.2 hpq.1
  · intro p hp q hq
    refine hbefore p (hgone p hp) q (hperm.mem_iff.mpr (List.mem_append_right _ hq)) ?_ (holdest p hp q hq)
    exact hnodup.2.2 _ (List.mem_map_of_mem hp) _ (List.mem_map_of_mem hq)

theorem new_recent : Recent [] new := by
  refine ⟨?_, ⟨?_, ?_⟩⟩
  · intro p hp
    cases hp
  · intro a t ha
    cases ha
  · intro a b t u _ ha
    cases ha

/-- In every run on a database file in which each use of an entry is stamped later than
all other rows, every eviction removes the entry whose last use is the earliest. -/
theorem eviction_least_recently_used (db : Engine) (events : List SessionEvent)
    (hlast : ∀ r ∈ trace (step db) new events, SessionObs.StampsLast r)
    {pre post : List SessionObs} {r : SessionObs} (h : trace (step db) new events = pre ++ r :: post) :
    SessionObs.EvictsLeastRecentlyUsed pre r := by
  obtain ⟨js, event, ks, rfl, rfl, rfl⟩ := trace_split h
  have hrecent : Recent ([] ++ trace (step db) new js) (exec (step db) new js) := by
    refine history_invariant (I := Recent)
      (C := fun w event => SessionObs.StampsLast (record (step db) w event))
      (fun _ _ event h hC => step_recent h event hC) new_recent js fun q hq => ?_
    rw [← eq_record_of_mem hq]
    refine hlast q ?_
    rw [trace_append]
    exact List.mem_append_left _ hq
  exact step_evicts_lru hrecent event

/-- With room for two items, `b` is evicted after `a` has been read. -/
theorem eviction_least_recently_used_run :
    ∃ pre r, trace (step ⟨fun _ => false, fun _ => 0⟩) new
        [.reopen ⟨some 2, some 1, some 10, some 40⟩, .call ((Op.set "a" [1] none).atTime 0),
          .call ((Op.set "b" [2] none).atTime 1), .call ((Op.get "a").atTime 2),
          .call ((Op.set "c" [3] none).atTime 3)] = pre ++ [r] ∧
      r.before.connection.table.keys = ["a", "b"] ∧ r.after.connection.table.keys = ["a", "c"] ∧
      SessionObs.EvictsLeastRecentlyUsed pre r := by
  have hsplit : trace (step ⟨fun _ => false, fun _ => 0⟩) new
      [.reopen ⟨some 2, some 1, some 10, some 40⟩, .call ((Op.set "a" [1] none).atTime 0),
        .call ((Op.set "b" [2] none).atTime 1), .call ((Op.get "a").atTime 2),
        .call ((Op.set "c" [3] none).atTime 3)] = _ :: _ :: _ :: _ :: [_] := rfl
  exact ⟨[_, _, _, _], _, hsplit, by decide +kernel, by decide +kernel,
    eviction_least_recently_used _ _ (by decide +kernel) hsplit⟩

/-- The clock of a second session starts lower. It reads `a` at 1, which is then taken for
older than `b`, written at 101. -/
theorem eviction_not_least_recently_used :
    ¬ ∀ (db : Engine) (events : List SessionEvent), (∀ calls ∈ sessions events, ClockOk calls) →
      ∀ pre r post, trace (step db) new events = pre ++ r :: post →
        SessionObs.EvictsLeastRecentlyUsed pre r := by
  intro h
  have hsplit : trace (step ⟨fun _ => false, fun _ => 0⟩) new
      [.reopen ⟨some 2, some 1, some 10, some 40⟩, .call ((Op.set "a" [1] none).atTime 100),
        .call ((Op.set "b" [2] none).atTime 101), .reopen ⟨some 2, some 1, some 10, some 40⟩,
        .call ((Op.get "a").atTime 1), .call ((Op.set "c" [3] none).atTime 2)] =
      _ :: _ :: _ :: _ :: _ :: [_] := rfl
  have hclock : ∀ calls ∈ sessions [.reopen ⟨some 2, some 1, some 10, some 40⟩,
      .call ((Op.set "a" [1] none).atTime 100), .call ((Op.set "b" [2] none).atTime 101),
      .reopen ⟨some 2, some 1, some 10, some 40⟩, .call ((Op.get "a").atTime 1),
      .call ((Op.set "c" [3] none).atTime 2)], ClockOk calls := by
    refine List.forall_mem_cons.mpr ⟨.atTimes (l := []) .nil, List.forall_mem_cons.mpr ⟨?_,
      List.forall_mem_singleton.mpr ?_⟩⟩
    · exact .atTimes (l := [(.set "a" [1] none, 100), (.set "b" [2] none, 101)]) (by decide +kernel)
    · exact .atTimes (l := [(.get "a", 1), (.set "c" [3] none, 2)]) (by decide +kernel)
  obtain ⟨gone, hperm, -, hgone⟩ := h _ _ hclock [_, _, _, _, _] _ [] hsplit _ _ "c" rfl rfl
  have hmem := hperm.mem_iff (a := ("a", ⟨[1], none, 100, 1, 34⟩)) |>.mp (by decide +kernel)
  rcases List.mem_append.mp hmem with hmem | hmem
  · -- the last step before was the reading of `a`
    refine @Recency.not_usedBefore _ _ SessionObs.used? [_, _, _, _] "a" "b" _ ?_
      (hgone _ hmem ("b", ⟨[2], none, 101, 101, 34⟩) (by decide +kernel))
    decide +kernel
  · revert hmem
    decide +kernel

end World

end TinyCache
