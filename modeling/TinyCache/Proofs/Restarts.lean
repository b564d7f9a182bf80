import TinyCache.Proofs.History
import TinyCache.Proofs.SqliteRefines
import TinyCache.Spec.Timeline

/-! TTLs across sessions. `created_at` is a reading of the clock of the session that wrote
the row, and is compared with readings of the clock of the session that looks at it. -/

namespace TinyCache

open Machine

namespace SqliteCacheStore

variable {db : Engine} {s t : SqliteCacheStore}

/-- `key` has an entry that is expired at one of the readings. -/
def Expired (s : SqliteCacheStore) (clock : ℕ → Time) (key : Key) : Prop :=
  ∃ e i, s.entries key = some e ∧ e.isExpired (clock i) = true

/-- The entries of `s` that have not expired are still there. -/
def KeepsLive (s : SqliteCacheStore) (clock : ℕ → Time) (t : SqliteCacheStore) : Prop :=
  ∀ key, ¬ s.Expired clock key → t.entries key = s.entries key

theorem shrinks_keepsLive (s : SqliteCacheStore) (clock : ℕ → Time) :
    Shrinks (s.Expired clock) (s.KeepsLive clock) where
  of_eq u v hu _ htable _ _ := by
    intro key hkey
    rw [entries, htable]
    exact hu key hkey
  without u key row hkey hu _ := by
    intro x hx
    have hne : x ≠ key := by
      rintro rfl
      exact hx hkey
    rw [without_entries, Entries.erase_of_ne _ hne]
    exact hu x hx

theorem KeepsLive.expired {clock : ℕ → Time} (h : s.KeepsLive clock t) {key : Key} {row : Row}
    (hrow : t.table.get? key = some row) {i : ℕ}
    (hx : isExpired (clock i) (rowToEntry row) = true) : s.Expired clock key := by
  by_contra hnot
  refine hnot ⟨rowToEntry row, i, ?_, hx⟩
  rw [← h key hnot]
  exact entries_of_some hrow

/-- A purge removes entries that have expired and no others, also when it raises half way. -/
theorem step_keepsLive (db : Engine) (s : SqliteCacheStore) {event : Event}
    (ha : event.action.Purges) : s.KeepsLive event.clock (step db s event).2 := by
  obtain ⟨action, clock⟩ := event
  have hP := shrinks_keepsLive s clock
  have hs : s.KeepsLive clock s := fun _ _ => rfl
  have hexit : ∀ {k : Option Key} {m : Act PyError SqliteCacheStore Reply},
      Act.Triple (s.KeepsLive clock) m (fun _ => s.KeepsLive clock)
        (Refused db (s.KeepsLive clock) k) → s.KeepsLive clock (m s).2 := by
    intro k m hm
    have h := hm s hs
    rcases hrun : m s with ⟨x | a, t⟩
    · rw [hrun] at h
      exact h.1
    · rw [hrun] at h
      exact h
  cases action with
  | client op =>
    cases op with
    | get key =>
      refine hexit (Act.Triple.bind (hP.get clock key hP (fun _ h => h)
        (fun u row hu hrow hx => hu.expired hrow hx) ?_) fun _ => Act.Triple.pure fun _ h => h)
      intro u now hu x hx
      have htouched : (u.touched key now).entries = u.entries := touched_entries
      exact (congrFun htouched x).trans (hu x hx)
    | stats =>
      refine hexit (k := none) (Act.Triple.bind (Act.Triple.bind
        ((hP.removeExpiredEntriesLocked ?_).fail fun _ h => h.refused) fun _ =>
          Act.Triple.read fun u hu => Act.Triple.pure ?_) fun _ => Act.Triple.pure fun _ h => h)
      · exact fun u hu p hp i hx => hu.expired (OrderedDict.get?_eq_some.mpr hp) hx
      · rintro _ rfl
        exact hu
    | set | setIfAbsent | compareAndSet | delete | clear => exact ha.elim
  | cleaner key =>
    refine hexit (k := none) (Act.Triple.bind ((hP.removeIfExpired db clock key ?_).fail
      fun _ h => h.refused) fun _ => Act.Triple.pure fun _ h => h)
    exact fun u row hu hrow hx => hu.expired hrow hx

end SqliteCacheStore

/-- The entry that `w` leaves, by the clock of a session with the given origin. Without a
TTL the reading is of no use to anybody. -/
structure Stamped (origin : Time) (w : Write) (e : CacheEntry) : Prop where
  value : e.value = w.value
  ttl : e.ttl = CacheEntry.normalizeTtl w.ttl
  createdAt : e.ttl ≠ none → e.createdAt = origin + w.time

theorem Stamped.isExpired {origin real : Time} {w : Write} {e : CacheEntry}
    (h : Stamped origin w e) : e.isExpired (origin + real) = w.entry.isExpired real := by
  have httl : e.ttl = w.entry.ttl := h.ttl
  unfold CacheEntry.isExpired
  rw [← httl]
  cases hn : e.ttl with
  | none => rfl
  | some n =>
    have hcreated : e.createdAt = origin + w.time := h.createdAt (by simp [hn])
    have hsub : origin + real - e.createdAt = real - w.entry.createdAt := by
      rw [hcreated, Write.entry, CacheEntry.new_createdAt, add_sub_add_left_eq_sub]
    simp only [hsub]

def Write.shift (origin : Time) (w : Write) : Write := { w with time := origin + w.time }

theorem Stamped.shift (origin : Time) (w : Write) : Stamped origin w (w.shift origin).entry :=
  ⟨rfl, rfl, fun _ => rfl⟩

/-- The clock's origin shows in the reading of an accepted write, and nowhere else. -/
theorem accepted?_shift (action : Action) (origin : Time) (real : ℕ → Time)
    (reply : Except PyError Reply) :
    accepted? ⟨action, fun i => origin + real i⟩ reply =
      (accepted? ⟨action, real⟩ reply).map (Write.shift origin) := by
  unfold accepted?
  cases action with
  | cleaner key => split <;> rfl
  | client op => cases op <;> split <;> rfl

namespace Timeline

variable {db : Engine} {s : Timeline}

/-- A call treats every key as a cache would, by the clock of its session. -/
theorem call_keyStep (hs : s.world.Sound) (action : Action) (real : ℕ → Time) (key : Key) :
    KeyStep key ⟨action, fun i => s.origin + real i⟩ (s.step db (.call action real)).1 s.entries
      (s.step db (.call action real)).2.entries := by
  obtain ⟨world, origin⟩ := s
  cases world with
  | closed connection => exact .of_none rfl (Or.inl rfl)
  | opened store => exact (SqliteCacheStore.step_allowed db hs _).keyStep key

theorem reopen_entries (args : LimitArgs) (origin : Time) :
    (s.step db (.reopen args origin)).2.entries = s.entries := by
  funext key
  change ((s.world.reopen db args).2.connection.table.get? key).map _ = _
  rw [World.reopen_table]
  rfl

theorem step_sound (hs : s.world.Sound) (event : TimedEvent) : (s.step db event).2.world.Sound := by
  cases event with
  | call action real => exact World.call_sound hs _
  | reopen args origin => exact World.reopen_sound hs args

/-- A new session has a clock with the origin of the last one, or finds no entry with a TTL. -/
def Steady (self : Timeline) : TimedEvent → Prop
  | .call _ _ => True
  | .reopen _ origin =>
    origin = self.origin ∨ ∀ p ∈ self.world.connection.table.items, p.2.ttl = none

/-- Every entry in the file is that of the last accepted write to its key. -/
structure Dated (history : List TimedObs) (s : Timeline) : Prop where
  sound : s.world.Sound
  stamped : ∀ key e, s.entries key = some e →
    ∃ w since, LastWriteBy TimedObs.write? key history w since ∧ Stamped s.origin w e

theorem Dated.call {history : List TimedObs} (h : Dated history s) (action : Action)
    (real : ℕ → Time) :
    Dated (history ++ [record (step db) s (.call action real)]) (s.step db (.call action real)).2 := by
  refine ⟨step_sound h.sound _, ?_⟩
  intro key e he
  have hk := @call_keyStep db s h.sound action real key
  have hwrite : TimedObs.write? (record (step db) s (.call action real)) =
      accepted? ⟨action, real⟩ (s.step db (.call action real)).1 := rfl
  cases hk with
  | wrote hw hkey ha =>
    rw [accepted?_shift, Option.map_eq_some_iff] at hw
    obtain ⟨w, hw, rfl⟩ := hw
    obtain rfl : _ = e := Option.some.inj (ha.symm.trans he)
    exact ⟨w, [], .snoc_of_writes (hwrite.trans hw) hkey, .shift _ w⟩
  | kept hw ha =>
    obtain ⟨w, since, hlast, hstamp⟩ := h.stamped key e (ha ▸ he)
    refine ⟨w, since ++ [_], hlast.snoc ?_, hstamp⟩
    rintro ⟨w', hw', hkey⟩
    refine hw (w'.shift s.origin) ?_ hkey
    rw [accepted?_shift, ← hwrite, hw', Option.map_some]
  | lost _ _ ha =>
    rw [ha] at he
    cases he

theorem Dated.reopen {history : List TimedObs} (h : Dated history s) {args : LimitArgs}
    {origin : Time} (hsteady : s.Steady (.reopen args origin)) :
    Dated (history ++ [record (step db) s (.reopen args origin)])
      (s.step db (.reopen args origin)).2 := by
  refine ⟨step_sound h.sound _, ?_⟩
  intro key e he
  rw [reopen_entries] at he
  obtain ⟨w, since, hlast, hstamp⟩ := h.stamped key e he
  refine ⟨w, since ++ [_], hlast.snoc (fun ⟨w', hw', _⟩ => nomatch hw'), hstamp.value, hstamp.ttl, ?_⟩
  intro httl
  rcases hsteady with rfl | hnone
  · exact hstamp.createdAt httl
  · obtain ⟨row, hrow, rfl⟩ := Option.map_eq_some_iff.mp he
    refine absurd ?_ httl
    change CacheEntry.normalizeTtl row.ttl = none
    rw [hnone _ (OrderedDict.get?_eq_some.mp hrow)]
    rfl

theorem exec_dated (db : Engine) (events : List TimedEvent)
    (hsteady : ∀ r ∈ trace (step db) .new events, r.before.Steady r.input) :
    Dated (trace (step db) .new events) (exec (step db) .new events) := by
  have hnew : Dated [] .new := by
    refine ⟨fun p hp => (by cases hp), ?_⟩
    intro key e he
    cases he
  refine history_invariant (I := Dated) (C := Steady) ?_ hnew events hsteady
  intro history s event h hevent
  cases event with
  | call action real => exact h.call action real
  | reopen args origin => exact h.reopen hevent

/-- What a lookup in an open session returns is a live entry of the file. -/
theorem call_get (hs : s.world.Sound) {key : Key} {real : ℕ → Time} {v : Bytes}
    (h : (s.step db (.call (.client (.get key)) real)).1 = .ok (.value (some v))) :
    ∃ e, s.entries key = some e ∧ e.isExpired (s.origin + real 0) = false ∧ e.value = v := by
  obtain ⟨world, origin⟩ := s
  cases world with
  | closed connection => cases h
  | opened store =>
    have hallowed := SqliteCacheStore.step_allowed db hs ⟨.client (.get key), fun i => origin + real i⟩
    rw [show (SqliteCacheStore.step db store ⟨.client (.get key), fun i => origin + real i⟩).1 = _
      from h] at hallowed
    obtain ⟨e, he, hv⟩ := Option.map_eq_some_iff.mp hallowed.get_reply.2.symm
    obtain ⟨he, hx⟩ := Entries.purge_eq_some.mp he
    exact ⟨e, he, hx, hv⟩

/-- What a purge in an open session removes has expired by the clock of that session. -/
theorem call_purge {action : Action} {real : ℕ → Time} (ha : action.Purges) {key : Key}
    (hb : s.entries key ≠ none) (hgone : (s.step db (.call action real)).2.entries key = none) :
    ∃ e i, s.entries key = some e ∧ e.isExpired (s.origin + real i) = true := by
  obtain ⟨world, origin⟩ := s
  cases world with
  | closed connection => exact absurd hgone hb
  | opened store =>
    by_contra hnot
    refine hb (Eq.trans ?_ hgone)
    have hkeeps := @SqliteCacheStore.step_keepsLive db store ⟨action, fun i => origin + real i⟩ ha
    exact (hkeeps key hnot).symm

/-- While the clock keeps its origin, or starts anew on a file without TTLs, TTLs count
real seconds in every session. -/
theorem ttl_honoured (db : Engine) (events : List TimedEvent)
    (hsteady : ∀ r ∈ trace (step db) .new events, r.before.Steady r.input) :
    TtlHonoured (trace (step db) .new events) := by
  have hdated : ∀ pre post r, trace (step db) .new events = pre ++ r :: post →
      Dated pre r.before ∧ r = record (step db) r.before r.input := by
    intro pre post r htrace
    obtain ⟨es, event, es', rfl, rfl, rfl⟩ := trace_split htrace
    refine ⟨exec_dated db es ?_, rfl⟩
    intro q hq
    refine hsteady q ?_
    rw [htrace]
    exact List.mem_append_left _ hq
  refine ⟨?_, ?_⟩
  · intro pre post r key real v htrace hinput hreply
    obtain ⟨hd, hr⟩ := hdated pre post r htrace
    rw [hr, record, hinput] at hreply
    obtain ⟨e, he, hx, hv⟩ := call_get hd.sound hreply
    obtain ⟨w, since, hlast, hstamp⟩ := hd.stamped key e he
    refine ⟨w, since, hlast, hstamp.value.symm.trans hv, (w.live_iff _).mpr ?_⟩
    rw [← hstamp.isExpired]
    exact hx
  · intro pre post r action real key htrace hinput ha hb hgone
    obtain ⟨hd, hr⟩ := hdated pre post r htrace
    rw [hr, record, hinput] at hgone
    obtain ⟨e, i, he, hx⟩ := call_purge ha hb hgone
    obtain ⟨w, since, hlast, hstamp⟩ := hd.stamped key e he
    refine ⟨w, since, hlast, i, ?_⟩
    rw [w.live_iff, ← hstamp.isExpired, hx]
    exact Bool.true_eq_false.mp

def reliable : Engine := ⟨fun _ => false, fun _ => 0⟩

def limitArgs : LimitArgs := ⟨some 2, some 1, some 10, some 40⟩

/-- A TTL of five seconds runs on over a restart, and the clock may start anew once its
entry has gone. -/
theorem ttl_honoured_run :
    TtlHonoured (trace (step reliable) .new
      [.reopen limitArgs 100, .call (.client (.set "a" [1] (some 5))) fun _ => 0,
        .reopen limitArgs 100, .call (.client (.get "a")) fun _ => 3,
        .call (.client (.get "a")) fun _ => 6, .reopen limitArgs 0]) := by
  refine ttl_honoured reliable _ ?_
  simp only [trace, List.forall_mem_cons, List.not_mem_nil, false_imp_iff, implies_true, and_true]
  refine ⟨Or.inr ?_, trivial, Or.inl rfl, trivial, trivial, Or.inr ?_⟩
  · decide
  · decide +kernel

/-- A clock that starts anew at zero keeps an entry of five seconds for a hundred more;
one that starts anew at a hundred drops it at once. -/
theorem ttl_not_honoured :
    ¬ TtlHonoured (trace (step reliable) .new
        [.reopen limitArgs 100, .call (.client (.set "a" [1] (some 5))) fun _ => 0,
          .reopen limitArgs 0, .call (.client (.get "a")) fun _ => 10]) ∧
      ¬ TtlHonoured (trace (step reliable) .new
        [.reopen limitArgs 0, .call (.client (.set "a" [1] (some 5))) fun _ => 0,
          .reopen limitArgs 100, .call (.client (.get "a")) fun _ => 1]) := by
  have hwrite : ∀ {history : List TimedObs} {w : Write} {since : List TimedObs},
      history.filterMap TimedObs.write? = [⟨"a", [1], some 5, 0⟩] →
      LastWriteBy TimedObs.write? "a" history w since → w = ⟨"a", [1], some 5, 0⟩ := by
    intro history w since honly hlast
    obtain ⟨r, hr, hw, -⟩ := hlast.exists_mem
    have hmem : w ∈ history.filterMap TimedObs.write? := List.mem_filterMap.mpr ⟨r, hr, hw⟩
    rwa [honly, List.mem_singleton] at hmem
  refine ⟨fun h => ?_, fun h => ?_⟩
  · obtain ⟨w, since, hlast, -, hlive⟩ :=
      h.returned [_, _, _] [] _ "a" (fun _ => 10) [1] rfl rfl (by decide +kernel)
    rw [hwrite rfl hlast] at hlive
    have hlt := hlive 5 rfl (by decide)
    exact absurd hlt (by decide +kernel)
  · obtain ⟨w, since, hlast, i, hdead⟩ :=
      h.removed [_, _, _] [] _ (.client (.get "a")) (fun _ => 1) "a" rfl rfl trivial (by decide)
        (by decide +kernel)
    rw [hwrite rfl hlast] at hdead
    refine hdead ?_
    intro ttl httl _
    cases httl
    decide +kernel

end Timeline

end TinyCache
