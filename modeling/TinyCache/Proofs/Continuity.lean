import TinyCache.Library.TwoRuns
import TinyCache.Proofs.Recency
import TinyCache.Spec.Sessions

/-! Restarts. The table says all that a store knows but its counters: as long as no two rows carry
the same reading, not even the engine decides anything by itself. -/

namespace TinyCache

open Machine

namespace SqliteCacheStore

open Act Connection

/-- The same store, up to the statements that its engine has executed. -/
def Same (s t : SqliteCacheStore) : Prop := ∃ n, t = s.ticked n

/-- No two rows carry the same reading. -/
def DistinctReadings (table : Table) : Prop :=
  ∀ x y row row', table.get? x = some row → table.get? y = some row' →
    row.lastAccessed = row'.lastAccessed → x = y

def Distinct (s : SqliteCacheStore) : Prop := DistinctReadings s.table

/-- The same store, whose next victim is determined. -/
def SameDistinct (s t : SqliteCacheStore) : Prop := s.Same t ∧ s.Distinct

variable {db db' : Engine}

theorem shrinks_distinct : ShrinksAll Distinct where
  of_eq s t hs _ htable _ _ := by
    unfold Distinct
    rwa [htable]
  without s key row _ hs _ := by
    intro x y rowx rowy hx hy
    exact hs x y rowx rowy (erase_subset hx) (erase_subset hy)

/-- There is no more than one oldest row. -/
theorem Distinct.victim {s : SqliteCacheStore} (hs : s.Distinct) (k : ℕ) :
    (oldest s.table)[k % (oldest s.table).length]? = (oldest s.table).head? := by
  have heq : ∀ p ∈ oldest s.table, ∀ q ∈ oldest s.table, p = q := by
    intro p hp q hq
    obtain ⟨hpm, hple⟩ := mem_oldest.mp hp
    obtain ⟨hqm, hqle⟩ := mem_oldest.mp hq
    have hgetp := OrderedDict.get?_eq_some.mpr hpm
    have hgetq := OrderedDict.get?_eq_some.mpr hqm
    have hkey : p.1 = q.1 := hs _ _ _ _ hgetp hgetq (le_antisymm (hple q hqm) (hqle p hpm))
    rw [hkey, hgetq, Option.some.injEq] at hgetp
    exact Prod.ext hkey hgetp.symm
  have hnodup : (oldest s.table).Nodup := (s.table.nodup.of_map).filter _
  cases hold : oldest s.table with
  | nil => rfl
  | cons p rest =>
    cases rest with
    | nil =>
      rw [List.length_singleton, Nat.mod_one]
      rfl
    | cons q rest =>
      rw [hold] at heq hnodup
      have hpq := heq p List.mem_cons_self q (List.mem_cons_of_mem _ List.mem_cons_self)
      rw [hpq, List.nodup_cons] at hnodup
      exact absurd List.mem_cons_self hnodup.1

theorem selectLru_apply {s : SqliteCacheStore} (hdb : db.Reliable) (hs : s.Distinct) :
    sql (selectLru db) s =
      (.ok ((oldest s.table).head?.map Prod.fst), s.ticked (s.connection.statements + 1)) := by
  have hvictim := hs.victim (db.tie s.connection.statements)
  unfold sql Act.zoom selectLru execute
  rw [if_neg (by simp [hdb s.connection.statements]), ← hvictim]
  rfl

section

variable {E : SqliteCacheStore → SqliteCacheStore → Prop} (hdb : db.Reliable) (hdb' : db'.Reliable)

include hdb hdb'

theorem sql_agree {α : Type} (f : Table → α × Table) :
    Agree Same (sql (execute db fun _ => f)) (sql (execute db' fun _ => f)) (fun _ => Same) E := by
  rintro s _ ⟨n, rfl⟩
  simp only [sql, Act.zoom, execute, hdb s.connection.statements, hdb' (s.ticked n).connection.statements,
    Bool.false_eq_true, if_false]
  exact .returned ⟨n + 1, rfl⟩

omit hdb hdb' in
theorem modify_agree {f : SqliteCacheStore → SqliteCacheStore} (h : ∀ s n, f (s.ticked n) = (f s).ticked n) :
    Agree Same (Act.modify f : Act PyError _ _) (Act.modify f) (fun _ => Same) E := by
  refine Agree.modify ?_
  rintro s _ ⟨n, rfl⟩
  exact ⟨n, h s n⟩

theorem selectLru_agree :
    Agree SameDistinct (sql (selectLru db)) (sql (selectLru db')) (fun _ => Same) E := by
  rintro s _ ⟨⟨n, rfl⟩, hs⟩
  rw [selectLru_apply hdb hs, selectLru_apply (s := s.ticked n) hdb' hs]
  exact .returned ⟨n + 1, rfl⟩

theorem getRowLocked_agree (key : Key) :
    Agree Same (getRowLocked db key) (getRowLocked db' key) (fun _ => Same) E :=
  sql_agree hdb hdb' fun table => (table.get? key, table)

theorem insert_agree (key : Key) (row : Row) :
    Agree Same
      (do
        sql (insertOrReplace db key row)
        Act.modify fun self =>
          { self with
            currentMemoryBytes := self.currentMemoryBytes + row.sizeBytes
            entryCount := self.entryCount + 1 })
      (do
        sql (insertOrReplace db' key row)
        Act.modify fun self =>
          { self with
            currentMemoryBytes := self.currentMemoryBytes + row.sizeBytes
            entryCount := self.entryCount + 1 }) (fun _ => Same) E :=
  (sql_agree hdb hdb' fun table => ((), table.putLast key row)).bind fun _ => modify_agree fun _ _ => rfl

theorem removeEntryLocked_agree (key : Key) :
    Agree Same (removeEntryLocked db key) (removeEntryLocked db' key) (fun _ => Same) E := by
  refine (getRowLocked_agree hdb hdb' key).bind fun r => ?_
  cases r with
  | none => exact .pure fun _ _ h => h
  | some row =>
    refine (sql_agree hdb hdb' fun table => ((), table.erase key)).bind fun _ => ?_
    exact (modify_agree fun _ _ => rfl).bind fun _ => .pure fun _ _ h => h

theorem removeExpiredEntryLocked_agree (key : Key) :
    Agree Same (removeExpiredEntryLocked db key) (removeExpiredEntryLocked db' key) (fun _ => Same) E := by
  refine (removeEntryLocked_agree hdb hdb' key).bind fun _ => .ite ?_ (.pure fun _ _ h => h)
  exact (modify_agree fun _ _ => rfl).bind fun _ => .pure fun _ _ h => h

theorem removeExpiredRows_agree (clock : ℕ → Time) (rows : List (Key × Row)) (i : ℕ) :
    Agree Same (removeExpiredRows db clock i rows) (removeExpiredRows db' clock i rows) (fun _ => Same) E := by
  induction rows generalizing i with
  | nil => exact .pure fun _ _ h => h
  | cons p rows ih =>
    refine .ite ?_ (ih (i + 1))
    exact (removeExpiredEntryLocked_agree hdb hdb' p.1).bind fun _ => ih (i + 1)

theorem evictLruLocked_agree :
    Agree SameDistinct (evictLruLocked db) (evictLruLocked db') (fun _ => Same) E := by
  refine (selectLru_agree hdb hdb').bind fun r => ?_
  cases r with
  | none => exact .pure fun _ _ h => h
  | some key =>
    refine (removeEntryLocked_agree hdb hdb' key).bind fun _ => .ite ?_ (.pure fun _ _ h => h)
    exact (modify_agree fun _ _ => rfl).bind fun _ => .pure fun _ _ h => h

theorem evictLruLocked_keeps :
    Agree SameDistinct (evictLruLocked db) (evictLruLocked db') (fun _ => SameDistinct) E :=
  ((evictLruLocked_agree hdb hdb').keeping shrinks_distinct.evictLruLocked).pre fun _ _ h => ⟨h, h.2⟩

theorem evictWhile_agree {cond : SqliteCacheStore → Bool} (hcond : ∀ s n, cond s = cond (s.ticked n)) :
    Agree SameDistinct (evictWhile db cond) (evictWhile db' cond) (fun _ => SameDistinct) E := by
  refine .read ?_
  rintro s₀ _ ⟨⟨n, rfl⟩, hs⟩
  have hloop : Agree SameDistinct (Act.whileDo cond (evictLruLocked db) (s₀.table.length + 1))
      (Act.whileDo cond (evictLruLocked db') (s₀.table.length + 1)) (fun _ => SameDistinct) E := by
    refine .whileDo ?_ (evictLruLocked_keeps hdb hdb') _
    rintro s _ ⟨⟨m, rfl⟩, -⟩
    exact hcond s m
  refine hloop.pre ?_
  rintro s t ⟨rfl, rfl⟩
  exact ⟨⟨n, rfl⟩, hs⟩

theorem makeRoomForBytes_agree (size : ℤ) :
    Agree SameDistinct (makeRoomForBytes db size) (makeRoomForBytes db' size) (fun _ => SameDistinct) E := by
  have hfit : Agree SameDistinct (evictToFitLocked db size) (evictToFitLocked db' size)
      (fun _ => SameDistinct) E := by
    refine (evictWhile_agree hdb hdb' fun _ _ => rfl).bind fun _ => .ite (.read ?_) (.pure fun _ _ h => h)
    rintro s₀ _ ⟨⟨n, rfl⟩, hs⟩
    refine .pure ?_
    rintro s t ⟨rfl, rfl⟩
    exact ⟨⟨n, rfl⟩, hs⟩
  refine .read ?_
  rintro s₀ _ ⟨⟨n, rfl⟩, hs⟩
  refine Agree.pre (.ite hfit (.pure fun _ _ h => h)) ?_
  rintro s t ⟨rfl, rfl⟩
  exact ⟨⟨n, rfl⟩, hs⟩

theorem makeRoomForItem_agree (isNewKey : Bool) :
    Agree SameDistinct (makeRoomForItem db isNewKey) (makeRoomForItem db' isNewKey) (fun _ => SameDistinct) E :=
  .ite (evictWhile_agree hdb hdb' fun _ _ => rfl) (.pure fun _ _ h => h)

theorem writeValueLocked_agree (accessed : Time) (key : Key) (entry : CacheEntry) (old : Option Row) :
    Agree SameDistinct (writeValueLocked db accessed key entry old) (writeValueLocked db' accessed key entry old)
      (fun _ => Same) E := by
  have hrestore : Agree SameDistinct (restore db key old) (restore db' key old) (fun _ => Same) E := by
    cases old with
    | none => exact .pure fun _ _ h => h.1
    | some row => exact (insert_agree hdb hdb' key row).pre fun _ _ h => h.1
  have hreject : Agree Same rejectCapacity rejectCapacity (fun _ => Same) E :=
    (modify_agree fun _ _ => rfl).bind fun _ => .pure fun _ _ h => h
  refine .read ?_
  rintro s₀ _ ⟨⟨n, rfl⟩, hs⟩
  refine Agree.pre (show Agree SameDistinct _ _ _ _ from .ite ?_ ?_) ?_
  · exact hrestore.bind fun _ => (modify_agree fun _ _ => rfl).bind fun _ => .pure fun _ _ h => h
  · refine (makeRoomForBytes_agree hdb hdb' _).bind fun _ => .ite ?_ (hrestore.bind fun _ => hreject)
    refine (makeRoomForItem_agree hdb hdb' _).bind fun _ => .ite ?_ (hreject.pre fun _ _ h => h.1)
    refine Agree.bind ?_ fun _ => .pure fun _ _ h => h
    exact (insert_agree hdb hdb' key (rowOf entry accessed)).pre fun _ _ h => h.1
  · rintro s t ⟨rfl, rfl⟩
    exact ⟨⟨n, rfl⟩, hs⟩

theorem storeValueLocked_agree (created accessed : Time) (key : Key) (value : Bytes) (ttl : Option ℤ)
    (old : Option Row) :
    Agree (fun s t => Same s t ∧ s.Distinct ∧ old = s.table.get? key)
      (storeValueLocked db created accessed key value ttl old)
      (storeValueLocked db' created accessed key value ttl old) (fun _ => Same) E := by
  have hremove : Agree Same (removeOld db key old) (removeOld db' key old) (fun _ => Same) E := by
    cases old with
    | none => exact .pure fun _ _ h => h
    | some row => exact (removeEntryLocked_agree hdb hdb' key).bind fun _ => .pure fun _ _ h => h
  refine (hremove.keeping (shrinks_distinct.removeOld trivial)).bind fun _ => ?_
  exact (writeValueLocked_agree hdb hdb' accessed key _ old).pre fun _ _ h => ⟨h.1, h.2.1⟩

theorem conditionally_agree (created accessed : Time) (key : Key) (value : Bytes) (ttl : Option ℤ)
    (old : Option Row) :
    Agree (fun s t => Same s t ∧ s.Distinct ∧ old = s.table.get? key)
      (do return conditionalStatusFromSetStatus (← storeValueLocked db created accessed key value ttl old))
      (do return conditionalStatusFromSetStatus (← storeValueLocked db' created accessed key value ttl old))
      (fun _ => Same) E :=
  (storeValueLocked_agree hdb hdb' created accessed key value ttl old).bind fun _ => .pure fun _ _ h => h

theorem removeExpiredEntryLocked_keeps (key : Key) :
    Agree SameDistinct (removeExpiredEntryLocked db key) (removeExpiredEntryLocked db' key)
      (fun _ s t => Same s t ∧ s.Distinct ∧ s.table.get? key = none) E :=
  (removeExpiredEntryLocked_agree hdb hdb' key).keeping (shrinks_distinct.removeExpiredEntryLocked trivial)

theorem onRow_agree {α : Type} {key : Key} {f f' : Option Row → Act PyError SqliteCacheStore α}
    (h : ∀ r, Agree (fun s t => Same s t ∧ s.Distinct ∧ r = s.table.get? key) (f r) (f' r) (fun _ => Same) Same) :
    Agree SameDistinct (do .check (validateKey key); f (← getRowLocked db key))
      (do .check (validateKey key); f' (← getRowLocked db' key)) (fun _ => Same) Same :=
  (Agree.check fun _ _ h => h.1).bind fun _ =>
    ((getRowLocked_agree hdb hdb' key).keeping (shrinks_distinct.getRowLocked key)).bind h

variable (clock : ℕ → Time) (key : Key)

theorem get_agree : Agree SameDistinct (get db clock key) (get db' clock key) (fun _ => Same) Same := by
  refine onRow_agree hdb hdb' fun r => Agree.pre (show Agree Same _ _ _ _ from ?_) fun _ _ h => h.1
  cases r with
  | none => exact (modify_agree fun _ _ => rfl).bind fun _ => .pure fun _ _ h => h
  | some row =>
    refine .ite ((modify_agree fun _ _ => rfl).bind fun _ => ?_) ?_
    · exact (removeExpiredEntryLocked_agree hdb hdb' key).bind fun _ => .pure fun _ _ h => h
    · refine (sql_agree hdb hdb' fun table => ((), touch table key (clock 1))).bind fun _ => ?_
      exact (modify_agree fun _ _ => rfl).bind fun _ => .pure fun _ _ h => h

theorem set_agree (value : Bytes) (ttl : Option ℤ) :
    Agree SameDistinct (set db clock key value ttl) (set db' clock key value ttl) (fun _ => Same) Same :=
  onRow_agree hdb hdb' fun r => storeValueLocked_agree hdb hdb' (clock 0) (clock 1) key value ttl r

theorem setIfAbsent_agree (value : Bytes) (ttl : Option ℤ) :
    Agree SameDistinct (setIfAbsent db clock key value ttl) (setIfAbsent db' clock key value ttl)
      (fun _ => Same) Same := by
  refine onRow_agree hdb hdb' fun r => ?_
  cases r with
  | none => exact conditionally_agree hdb hdb' (clock 1) (clock 2) key value ttl none
  | some row =>
    refine .ite ?_ (.pure fun _ _ h => h.1)
    refine ((removeExpiredEntryLocked_keeps hdb hdb' key).pre fun _ _ h => ⟨h.1, h.2.1⟩).bind fun _ => ?_
    exact (conditionally_agree hdb hdb' (clock 1) (clock 2) key value ttl none).pre
      fun _ _ h => ⟨h.1, h.2.1, h.2.2.symm⟩

theorem compareAndSet_agree (expected value : Bytes) (ttl : Option ℤ) :
    Agree SameDistinct (compareAndSet db clock key expected value ttl)
      (compareAndSet db' clock key expected value ttl) (fun _ => Same) Same := by
  refine onRow_agree hdb hdb' fun r => ?_
  cases r with
  | none => exact .pure fun _ _ h => h.1
  | some row =>
    refine .ite ?_ (.ite (.pure fun _ _ h => h.1) ?_)
    · exact ((removeExpiredEntryLocked_agree hdb hdb' key).pre fun _ _ h => h.1).bind fun _ =>
        .pure fun _ _ h => h
    · exact conditionally_agree hdb hdb' (clock 1) (clock 2) key value ttl (some row)

theorem delete_agree : Agree SameDistinct (delete db key) (delete db' key) (fun _ => Same) Same :=
  (Agree.check fun _ _ h => h.1).bind fun _ => (removeEntryLocked_agree hdb hdb' key).pre fun _ _ h => h.1

theorem stats_matched : Agree Same (stats db clock) (stats db' clock) (fun _ => Same) E := by
  have hpurge : Agree Same (removeExpiredEntriesLocked db clock) (removeExpiredEntriesLocked db' clock)
      (fun _ => Same) E :=
    (sql_agree hdb hdb' fun table => (table.items, table)).bind fun rows =>
      removeExpiredRows_agree hdb hdb' clock rows 0
  refine hpurge.bind fun _ => .read ?_
  rintro s₀ _ ⟨n, rfl⟩
  refine .pure ?_
  rintro s t ⟨rfl, rfl⟩
  exact ⟨n, rfl⟩

theorem clear_agree : Agree Same (clear db) (clear db') (fun _ => Same) E :=
  (sql_agree hdb hdb' fun _ => ((), .empty)).bind fun _ => modify_agree fun _ _ => rfl

theorem removeIfExpired_agree :
    Agree Same (removeIfExpired db clock key) (removeIfExpired db' clock key) (fun _ => Same) E := by
  refine (getRowLocked_agree hdb hdb' key).bind fun r => ?_
  cases r with
  | none => exact .pure fun _ _ h => h
  | some row =>
    refine .ite ?_ (.pure fun _ _ h => h)
    exact (removeExpiredEntryLocked_agree hdb hdb' key).bind fun _ => .pure fun _ _ h => h

theorem call_agree (op : Op) :
    Agree SameDistinct (call db clock op) (call db' clock op) (fun _ => Same) Same := by
  cases op with
  | get key => exact (get_agree hdb hdb' clock key).bind fun _ => .pure fun _ _ h => h
  | set key value ttl => exact (set_agree hdb hdb' clock key value ttl).bind fun _ => .pure fun _ _ h => h
  | setIfAbsent key value ttl =>
    exact (setIfAbsent_agree hdb hdb' clock key value ttl).bind fun _ => .pure fun _ _ h => h
  | compareAndSet key expected value ttl =>
    exact (compareAndSet_agree hdb hdb' clock key expected value ttl).bind fun _ => .pure fun _ _ h => h
  | delete key => exact (delete_agree hdb hdb' key).bind fun _ => .pure fun _ _ h => h
  | stats => exact ((stats_matched hdb hdb' clock).pre fun _ _ h => h.1).bind fun _ => .pure fun _ _ h => h
  | clear => exact ((clear_agree hdb hdb').pre fun _ _ h => h.1).bind fun _ => .pure fun _ _ h => h

theorem step_agree {s t : SqliteCacheStore} (h : s.SameDistinct t) (event : Event) :
    (step db s event).1 = (step db' t event).1 ∧ (step db s event).2.Same (step db' t event).2 := by
  obtain ⟨action, clock⟩ := event
  have hmatched : Matched (fun _ => Same) Same (step db s ⟨action, clock⟩) (step db' t ⟨action, clock⟩) := by
    cases action with
    | client op => exact call_agree hdb hdb' clock op s t h
    | cleaner key =>
      exact (removeIfExpired_agree hdb hdb' clock key).bind
        (fun _ => Agree.pure (a := Reply.done) fun _ _ h => h) s t h.1
  generalize step db s ⟨action, clock⟩ = u at hmatched
  generalize step db' t ⟨action, clock⟩ = v at hmatched
  cases hmatched with
  | returned h => exact ⟨rfl, h⟩
  | raised h => exact ⟨rfl, h⟩

omit hdb' in
/-- A reliable engine opens a store on every file, for all limits that are accepted. -/
theorem init_continues {args : LimitArgs} {limits : CacheStoreLimits}
    (h : CacheStoreLimits.resolve args = .ok limits) (c : Connection) : ∃ s d, init db args c = (.ok s, d) := by
  have hexec : ∀ {α : Type} (f : ℕ → Table → α × Table) (c : Connection),
      Connection.execute db f c = (.ok (f c.statements c.table).1,
        ⟨(f c.statements c.table).2, c.statements + 1⟩) := by
    intro α f c
    rw [Connection.execute, hdb]
    rfl
  simp [init, Act.bind_apply, h, Connection.pragma, Connection.createTable,
    Connection.selectTotalBytes, Connection.selectCount, hexec]

end

/-- A store on the file of another one has its entries, and its sizes. -/
theorem Accounted.reopened {u s : SqliteCacheStore} {d : Connection} {args : LimitArgs} (hu : u.Accounted)
    (h : init db args u.connection = (.ok s, d)) :
    CacheStoreLimits.resolve args = .ok s.limits ∧ s.Same (u.resumed s.limits) := by
  obtain ⟨hlimits, n, hs⟩ := init_eq h
  refine ⟨hlimits, u.connection.statements, ?_⟩
  rw [hs, resumed, hu.memory, hu.count]
  rfl

end SqliteCacheStore

namespace World

variable {db db' : Engine} {w : World} {s : SqliteCacheStore}

/-- The readings in the file stay distinct while each is later than those of all other rows. -/
theorem step_distinct (hw : w.Sound) (hdistinct : SqliteCacheStore.DistinctReadings w.connection.table)
    {event : SessionEvent} (hlast : SessionObs.StampsLast (record (step db) w event)) :
    SqliteCacheStore.DistinctReadings (w.step db event).2.connection.table := by
  have hrec : Recorded (record (step db) w event) := step_recorded hw event
  -- a row that is used has got the latest reading
  have hused : ∀ x y row row', (w.step db event).2.connection.table.get? x = some row →
      (w.step db event).2.connection.table.get? y = some row' → x ≠ y →
      SessionObs.used? (record (step db) w event) = some x → row'.lastAccessed < row.lastAccessed := by
    intro x y row row' hx hy hne huse
    have hkept := hrec.kept y row' (by rw [huse]; exact fun h => hne (Option.some.inj h)) hy
    exact hlast _ (hrec.stamped x row huse hx) (y, row') (OrderedDict.get?_eq_some.mp hkept) hne.symm
  intro x y row row' hx hy heq
  by_contra hne
  by_cases hx' : SessionObs.used? (record (step db) w event) = some x
  · exact absurd heq (hused x y row row' hx hy hne hx').ne'
  · by_cases hy' : SessionObs.used? (record (step db) w event) = some y
    · exact absurd heq (hused y x row' row hy hx (Ne.symm hne) hy').ne
    · exact hne (hdistinct x y row row' (hrec.kept x row hx' hx) (hrec.kept y row' hy' hy) heq)

/-- The store that is open is the one that has never been closed. -/
def Tracks (w : World) (s : SqliteCacheStore) : Prop :=
  ∃ u, w = .opened u ∧ u.SameDistinct s ∧ u.Accounted

/-- The limits of a new session are accepted. -/
def Accepts (event : SessionEvent) : Prop :=
  ∀ args, event = .reopen args → ∃ limits, CacheStoreLimits.resolve args = .ok limits

theorem Tracks.step (hdb : db.Reliable) (hdb' : db'.Reliable) (h : w.Tracks s) {event : SessionEvent}
    (haccepts : Accepts event) (hlast : SessionObs.StampsLast (record (step db) w event)) :
    (w.step db event).1 = (s.continued db' event).1 ∧ (w.step db event).2.Tracks (s.continued db' event).2 := by
  obtain ⟨u, rfl, ⟨⟨m, rfl⟩, hu⟩, haccounted⟩ := h
  have hdistinct := step_distinct (w := .opened u) haccounted hu hlast
  have hsound : ((World.opened u).step db event).2.Sound := step_sound (w := .opened u) haccounted event
  cases event with
  | call event =>
    obtain ⟨hout, hsame⟩ := SqliteCacheStore.step_agree hdb hdb' ⟨⟨m, rfl⟩, hu⟩ event
    exact ⟨hout, _, rfl, ⟨hsame, hdistinct⟩, hsound⟩
  | reopen args =>
    obtain ⟨limits, hargs⟩ := haccepts args rfl
    obtain ⟨t, d, hinit⟩ := SqliteCacheStore.init_continues hdb hargs u.connection
    obtain ⟨hlimits, n, hn⟩ := haccounted.reopened hinit
    obtain rfl : limits = t.limits := Except.ok.inj (hargs.symm.trans hlimits)
    have hreopen : (World.opened u).step db (.reopen args) = (.ok .done, .opened t) := by
      rw [World.step, reopen, show World.connection (.opened u) = u.connection from rfl, hinit]
    have hcontinued : (u.ticked m).continued db' (.reopen args) = (.ok .done, (u.resumed t.limits).ticked m) := by
      rw [SqliteCacheStore.continued, hargs]
      rfl
    rw [hreopen] at hdistinct hsound ⊢
    rw [hcontinued, hn]
    exact ⟨rfl, t, rfl, ⟨⟨m, rfl⟩, hdistinct⟩, hsound⟩

/-- A first session on a new file is one that has never been closed. -/
theorem tracks_new (hdb : db.Reliable) (hdb' : db'.Reliable) {args : LimitArgs} {limits : CacheStoreLimits}
    (hargs : CacheStoreLimits.resolve args = .ok limits) :
    ∃ s₀ c u, SqliteCacheStore.init db' args .new = (.ok s₀, c) ∧
      new.step db (.reopen args) = (.ok .done, .opened u) ∧ (World.opened u).Tracks s₀ := by
  obtain ⟨s₀, c, hinit'⟩ := SqliteCacheStore.init_continues hdb' hargs .new
  obtain ⟨u, d, hinit⟩ := SqliteCacheStore.init_continues hdb hargs .new
  obtain ⟨hlimits', n', hs₀⟩ := SqliteCacheStore.init_eq hinit'
  obtain ⟨hlimits, n, hu⟩ := SqliteCacheStore.init_eq hinit
  have hsame : s₀.limits = u.limits := Except.ok.inj (hlimits'.symm.trans hlimits)
  have hstep : new.step db (.reopen args) = (.ok .done, .opened u) := by
    rw [World.step, reopen, show World.connection .new = Connection.new from rfl, hinit]
  have hsound : (new.step db (.reopen args)).2.Sound := exec_sound db [.reopen args]
  rw [hstep] at hsound
  refine ⟨s₀, c, u, hinit', hstep, u, rfl, ⟨⟨n', ?_⟩, ?_⟩, hsound⟩
  · rw [hs₀, hu, hsame]
    rfl
  · intro x y row row' hx
    rw [show u.table = .empty by rw [hu]; rfl] at hx
    cases hx

/-- Whatever the engines make of their choices: over a life of a file in which each use is stamped
later than all other rows, all replies are those of a single store that is never closed, and gets
its new limits and counters from zero where the file is opened anew. -/
theorem restarts_go_unnoticed (hdb : db.Reliable) (hdb' : db'.Reliable) {args : LimitArgs}
    {limits : CacheStoreLimits} (hargs : CacheStoreLimits.resolve args = .ok limits) (events : List SessionEvent)
    (haccepts : ∀ event ∈ events, Accepts event)
    (hlast : ∀ r ∈ trace (step db) new (.reopen args :: events), SessionObs.StampsLast r) :
    ∃ s₀ c, SqliteCacheStore.init db' args .new = (.ok s₀, c) ∧
      outputs (step db) new (.reopen args :: events) =
        .ok .done :: outputs (SqliteCacheStore.continued db') s₀ events := by
  obtain ⟨s₀, c, u, hinit, hstep, htracks⟩ := tracks_new hdb hdb' hargs
  refine ⟨s₀, c, hinit, ?_⟩
  rw [trace, List.forall_mem_cons, hstep] at hlast
  have hrest : outputs (step db) (.opened u) events = outputs (SqliteCacheStore.continued db') s₀ events := by
    refine outputs_eq_of_simulation (R := fun _ => Tracks)
      (C := fun w event => Accepts event ∧ SessionObs.StampsLast (record (step db) w event)) ?_ events htracks ?_
    · exact fun _ _ _ _ h hC => h.step hdb hdb' hC.1 hC.2
    · intro r hr
      refine ⟨haccepts r.input (input_mem hr), ?_⟩
      rw [← eq_record_of_mem hr]
      exact hlast.2 r hr
  rw [← hrest, outputs, trace, List.map_cons, hstep, record, hstep]
  rfl

/-- The engines break ties differently, and the second session may keep one item less. -/
theorem restarts_go_unnoticed_run :
    ∃ s₀ c, SqliteCacheStore.init ⟨fun _ => false, fun n => n + 1⟩ ⟨some 2, some 1, some 10, some 40⟩ .new =
        (.ok s₀, c) ∧
      outputs (step ⟨fun _ => false, fun _ => 0⟩) new
          (.reopen ⟨some 2, some 1, some 10, some 40⟩ :: [.call ((Op.set "a" [1] none).atTime 0),
            .call ((Op.set "b" [2] (some 9)).atTime 1), .call ((Op.get "a").atTime 2),
            .reopen ⟨some 1, some 1, some 10, some 40⟩, .call ((Op.set "c" [3] none).atTime 3),
            .call ((Op.get "a").atTime 4), .call (Op.stats.atTime 5)]) =
        .ok .done :: outputs (SqliteCacheStore.continued ⟨fun _ => false, fun n => n + 1⟩) s₀
          [.call ((Op.set "a" [1] none).atTime 0), .call ((Op.set "b" [2] (some 9)).atTime 1),
            .call ((Op.get "a").atTime 2), .reopen ⟨some 1, some 1, some 10, some 40⟩,
            .call ((Op.set "c" [3] none).atTime 3), .call ((Op.get "a").atTime 4),
            .call (Op.stats.atTime 5)] := by
  refine restarts_go_unnoticed (fun _ => rfl) (fun _ => rfl) rfl _ ?_ (by decide +kernel)
  simp only [List.forall_mem_cons, List.not_mem_nil, false_imp_iff, implies_true, and_true]
  refine ⟨?_, ?_, ?_, ?_, ?_, ?_, ?_⟩
  case refine_4 =>
    intro args h
    cases h
    exact ⟨_, rfl⟩
  all_goals exact fun _ h => by cases h

end World

end TinyCache
