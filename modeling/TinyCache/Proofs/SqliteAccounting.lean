import TinyCache.Library.Machine
import TinyCache.Sanity.SqliteFailure
import TinyCache.Spec.Sessions

/-! The counters of the SQLite store match its table after every operation of every
session, whichever statements have raised. -/

namespace TinyCache

open Machine

namespace Connection

variable {db : Engine} {c d : Connection}

theorem execute_ok {α : Type} {f : ℕ → Table → α × Table} {a : α}
    (h : execute db f c = (.ok a, d)) :
    a = (f c.statements c.table).1 ∧ d = ⟨(f c.statements c.table).2, c.statements + 1⟩ := by
  unfold execute at h
  split_ifs at h with hr
  · cases h
  · cases h
    exact ⟨rfl, rfl⟩

theorem execute_error {α : Type} {f : ℕ → Table → α × Table} {x : PyError}
    (h : execute db f c = (.error x, d)) : d = ⟨c.table, c.statements + 1⟩ := by
  unfold execute at h
  split_ifs at h with hr
  · cases h
    rfl
  · cases h

/-- A statement that only reads leaves the table on both exits. -/
theorem reads {α : Type} {f : ℕ → Table → α} (table : Table) :
    Act.Triple (fun c : Connection => c.table = table) (execute db fun n t => (f n t, t))
      (fun _ c => c.table = table) fun c => c.table = table := by
  intro c hc
  rcases h : execute db (fun n t => (f n t, t)) c with ⟨x | a, d⟩
  · rw [execute_error h]
    exact hc
  · obtain ⟨-, rfl⟩ := execute_ok h
    exact hc

end Connection

namespace SqliteCacheStore

variable {db : Engine} {c d : Connection} {args : LimitArgs} {s : SqliteCacheStore}

theorem init_eq (h : init db args c = (.ok s, d)) :
    CacheStoreLimits.resolve args = .ok s.limits ∧ ∃ n, s = {
      limits := s.limits
      connection := ⟨c.table, n⟩
      currentMemoryBytes := (sizes c.table.items).sum
      entryCount := c.table.length
      hits := 0
      misses := 0
      evictions := 0
      lruEvictions := 0
      expiredRemovals := 0
      rejectedOversize := 0
      rejectedCapacity := 0 } := by
  unfold init Connection.pragma Connection.createTable Connection.selectTotalBytes
    Connection.selectCount at h
  obtain ⟨limits, c₀, h₀, h⟩ := Act.bind_ok h
  rw [Act.check_apply, Prod.mk.injEq] at h₀
  obtain ⟨hlimits, rfl⟩ := h₀
  obtain ⟨_, c₁, h₁, h⟩ := Act.bind_ok h
  obtain ⟨-, rfl⟩ := Connection.execute_ok h₁
  obtain ⟨_, c₂, h₂, h⟩ := Act.bind_ok h
  obtain ⟨-, rfl⟩ := Connection.execute_ok h₂
  obtain ⟨_, c₃, h₃, h⟩ := Act.bind_ok h
  obtain ⟨-, rfl⟩ := Connection.execute_ok h₃
  obtain ⟨_, c₄, h₄, h⟩ := Act.bind_ok h
  obtain ⟨-, rfl⟩ := Connection.execute_ok h₄
  obtain ⟨_, c₅, h₅, h⟩ := Act.bind_ok h
  obtain ⟨rfl, rfl⟩ := Connection.execute_ok h₅
  obtain ⟨_, c₆, h₆, h⟩ := Act.bind_ok h
  obtain ⟨rfl, rfl⟩ := Connection.execute_ok h₆
  cases h
  exact ⟨hlimits, _, rfl⟩

theorem init_ok (h : init db args c = (.ok s, d)) :
    CacheStoreLimits.resolve args = .ok s.limits ∧ s.table = c.table ∧
      s.currentMemoryBytes = (sizes c.table.items).sum ∧ s.entryCount = c.table.length := by
  obtain ⟨hlimits, n, hs⟩ := init_eq h
  refine ⟨hlimits, ?_, ?_, ?_⟩
  · rw [hs]
    rfl
  · rw [hs]
  · rw [hs]

theorem init_error {x : PyError} (h : init db args c = (.error x, d)) : d.table = c.table := by
  have hreads : Act.Triple (fun c' : Connection => c'.table = c.table) (init db args)
      (fun _ _ => True) fun c' => c'.table = c.table := by
    refine Act.Triple.bind (Act.Triple.check (Q := fun _ c' => c'.table = c.table)
      (fun _ _ _ h => h) fun _ h => h) fun _ => ?_
    refine Act.Triple.bind (Connection.reads _) fun _ => ?_
    refine Act.Triple.bind (Connection.reads _) fun _ => ?_
    refine Act.Triple.bind (Connection.reads _) fun _ => ?_
    refine Act.Triple.bind (Connection.reads _) fun _ => ?_
    refine Act.Triple.bind (Connection.reads _) fun _ => ?_
    refine Act.Triple.bind (Connection.reads _) fun _ => ?_
    exact Act.Triple.read fun _ _ => Act.Triple.pure fun _ _ => trivial
  have hd := hreads c rfl
  rw [h] at hd
  exact hd

end SqliteCacheStore

namespace World

variable {db : Engine}

/-- An open store has the right counters; a closed table has the right sizes. -/
def Sound : World → Prop
  | .closed connection => ∀ p ∈ connection.table.items, p.2.sizeBytes = getsizeof p.2.value
  | .opened store => store.Accounted

theorem Sound.sized {w : World} (h : w.Sound) :
    ∀ p ∈ w.connection.table.items, p.2.sizeBytes = getsizeof p.2.value := by
  cases w with
  | closed connection => exact h
  | opened store => exact SqliteCacheStore.Accounted.sized h

/-- A new session finds the table that the last one left, and so does one that fails. -/
theorem reopen_table (db : Engine) (w : World) (args : LimitArgs) :
    (w.reopen db args).2.connection.table = w.connection.table := by
  unfold reopen
  rcases h : SqliteCacheStore.init db args w.connection with ⟨x | s, c⟩
  · exact SqliteCacheStore.init_error h
  · exact (SqliteCacheStore.init_ok h).2.1

theorem call_sound {w : World} (h : w.Sound) (event : Event) : (w.call db event).2.Sound := by
  cases w with
  | closed connection => exact h
  | opened store => exact h.step db event

theorem reopen_sound {w : World} (h : w.Sound) (args : LimitArgs) : (w.reopen db args).2.Sound := by
  have hsized := h.sized
  unfold reopen
  rcases hinit : SqliteCacheStore.init db args w.connection with ⟨x | s, d⟩
  · change ∀ p ∈ d.table.items, _
    rw [SqliteCacheStore.init_error hinit]
    exact hsized
  · obtain ⟨-, htable, hmem, hcount⟩ := SqliteCacheStore.init_ok hinit
    refine ⟨?_, ?_, ?_⟩
    · rw [hmem, htable]
    · rw [hcount, htable]
    · rw [htable]
      exact hsized

theorem step_sound {w : World} (h : w.Sound) (event : SessionEvent) : (w.step db event).2.Sound := by
  cases event with
  | call event => exact call_sound h event
  | reopen args => exact reopen_sound h args

theorem exec_sound (db : Engine) (events : List SessionEvent) :
    (exec (step db) new events).Sound := by
  refine exec_always (I := Sound) (fun _ event h => step_sound h event) ?_ events
  intro p hp
  cases hp

theorem Opens.accounted {s : SqliteCacheStore} (h : Opens db s) : s.Accounted := by
  obtain ⟨db₀, history, args, c, hinit⟩ := h
  have hsound := @reopen_sound db _ (exec_sound db₀ history) args
  rw [reopen, hinit] at hsound
  exact hsound

/-- After every operation of every session of a new database, whichever statements have
raised, the counters of the open store are those of the table. -/
theorem accounting_matches_table (db : Engine) (events : List SessionEvent) {s : SqliteCacheStore}
    (h : exec (step db) new events = .opened s) :
    s.entryCount = s.table.length ∧
      s.currentMemoryBytes = (s.table.items.map fun p => p.2.sizeBytes).sum ∧
      ∀ p ∈ s.table.items, p.2.sizeBytes = getsizeof p.2.value := by
  have hs : s.Accounted := by
    have hsound := exec_sound db events
    rwa [h] at hsound
  exact ⟨hs.count, hs.memory, hs.sized⟩

/-- The insertion that is to replace the row of `a` raises, and the store is opened again. -/
theorem accounting_matches_table_run :
    ∃ s, exec (step ⟨fun n => n == 11, fun _ => 0⟩) new
        [.reopen ⟨some 2, some 1, some 10, some 40⟩, .call ((Op.set "a" [1] none).atTime 0),
          .call ((Op.set "a" [2] none).atTime 1), .reopen ⟨some 9, some 1, some 10, none⟩] =
        .opened s ∧
      s.entryCount = s.table.length ∧
      s.currentMemoryBytes = (s.table.items.map fun p => p.2.sizeBytes).sum ∧
      ∀ p ∈ s.table.items, p.2.sizeBytes = getsizeof p.2.value := by
  have h : exec (step ⟨fun n => n == 11, fun _ => 0⟩) new
      [.reopen ⟨some 2, some 1, some 10, some 40⟩, .call ((Op.set "a" [1] none).atTime 0),
        .call ((Op.set "a" [2] none).atTime 1), .reopen ⟨some 9, some 1, some 10, none⟩] =
      .opened _ := rfl
  exact ⟨_, h, accounting_matches_table _ _ h⟩

end World

end TinyCache
