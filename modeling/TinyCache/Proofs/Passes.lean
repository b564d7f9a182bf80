import TinyCache.Proofs.Cleaner
import TinyCache.Proofs.MemoryRefines
import TinyCache.Spec.Passes

/-! A pass of the cleaner is complete: of all that had expired when it began, nothing is left
when it ends, whatever the clients do in between. -/

namespace TinyCache

open Machine

section

variable {maxValueBytes : ℤ} {clock : ℕ → Time} {now : Time} {m m' : Entries}

theorem Written.expired {key x : Key} {value : Bytes} {ttl : Option ℤ} {st : CacheSetStatus} {at_ : Time}
    {e : CacheEntry} (h : Written maxValueBytes at_ key value ttl m st m') (hnow : now ≤ at_)
    (hx : m' x = some e) (he : e.isExpired now = true) : m x = some e := by
  cases h with
  | tooLarge => exact hx
  | stored hsize hkey hrest =>
    by_cases hxk : x = key
    · subst hxk
      rw [hkey] at hx
      cases hx
      obtain ⟨n, -, hn, hle⟩ := CacheEntry.isExpired_new.mp he
      have hpos : (0 : ℚ) < n := by exact_mod_cast hn
      linarith
    · rcases hrest x hxk with h | h
      · exact h ▸ hx
      · rw [h] at hx
        cases hx

theorem Entries.purge_some {key x : Key} {e : CacheEntry} {t : Time} (h : m.purge t key x = some e) :
    m x = some e := by
  by_cases hx : x = key
  · subst hx
    exact (Entries.purge_eq_some.mp h).1
  · rwa [Entries.purge_of_ne m t hx] at h

/-- What had expired by `now` and is there after a step was there before. -/
theorem Allowed.expired {action : Action} {reply : Except PyError Reply} {x : Key} {e : CacheEntry}
    (h : Allowed maxValueBytes clock m action reply m') (hnow : ∀ i, now ≤ clock i) (hx : m' x = some e)
    (he : e.isExpired now = true) : m x = some e := by
  cases h with
  | invalid => exact hx
  | failed _ h =>
    rcases h x with h | h
    · exact h ▸ hx
    · rw [h] at hx
      cases hx
  | get | setIfAbsentExists | compareAndSetMissing | compareAndSetMismatch | cleaner =>
    exact Entries.purge_some hx
  | set _ hw => exact hw.expired (hnow 0) hx he
  | setIfAbsent _ _ hw | compareAndSet _ _ _ hw => exact Entries.purge_some (hw.expired (hnow 1) hx he)
  | @delete key =>
    by_cases hxk : x = key
    · subst hxk
      rw [Entries.erase_self] at hx
      cases hx
    · rwa [Entries.erase_of_ne m hxk] at hx
  | stats h =>
    rcases h x with h | ⟨i, h⟩
    · exact h ▸ hx
    · exact Entries.purge_some (h ▸ hx)
  | clear => cases hx

end

namespace ExpiredEntryCleaner

variable {σ : Type} {cleaner : ExpiredEntryCleaner σ} {call : (ℕ → Time) → Op → Act PyError σ Reply}
  {entries : σ → Entries} {Inv : σ → Prop} {now : Time} {s : Shared σ}

theorem fresh_of_left (hcovers : s.pass.Covers now (entries s.store)) (h : s.pass.left = 0) :
    (entries s.store).Fresh now := by
  obtain ⟨store, pass⟩ := s
  cases pass with
  | waiting =>
    intro key e hkey
    cases he : e.isExpired now with
    | false => rfl
    | true => exact (hcovers key e hkey he).elim
  | checking | removing => simp [CleanerPass.left] at h

theorem client_covers (h : cleaner.Serves call entries Inv) (hs : Inv s.store) {op : Op} {clock : ℕ → Time}
    (hnow : ∀ i, now ≤ clock i) (hcovers : s.pass.Covers now (entries s.store)) :
    s.pass.Covers now (entries (call clock op s.store).2) := by
  obtain ⟨-, maxValueBytes, hallowed⟩ := h.client s.store clock op hs
  intro key e hkey he
  exact hcovers key e (hallowed.expired hnow hkey he) he

/-- Neither does the pass itself leave anything behind, and it comes nearer to its end. -/
theorem advance_covers (h : cleaner.Serves call entries Inv) (hs : Inv s.store) {clock : ℕ → Time}
    (hnow : ∀ i, now ≤ clock i) (hcovers : s.pass.Covers now (entries s.store)) (hleft : 0 < s.pass.left) :
    Inv (cleaner.advance clock s).store ∧
      (cleaner.advance clock s).pass.Covers now (entries (cleaner.advance clock s).store) ∧
      (cleaner.advance clock s).pass.left < s.pass.left := by
  obtain ⟨store, pass⟩ := s
  unfold advance
  cases pass with
  | waiting => simp [CleanerPass.left] at hleft
  | checking items expiredKeys =>
    cases items with
    | nil =>
      refine ⟨hs, ?_, by simp [CleanerPass.left]⟩
      intro key e hkey he
      rcases hcovers key e hkey he with h | h
      · cases h
      · exact h
    | cons p items =>
      obtain ⟨key, entry⟩ := p
      dsimp only
      rw [h.expired]
      split_ifs with hx
      · refine ⟨hs, ?_, by simp [CleanerPass.left]; omega⟩
        intro x e hxe he
        rcases hcovers x e hxe he with h | h
        · rcases List.mem_cons.mp h with h | h
          · cases h
            exact Or.inr (by simp)
          · exact Or.inl h
        · exact Or.inr (List.mem_append_left _ h)
      · refine ⟨hs, ?_, by simp [CleanerPass.left]⟩
        intro x e hxe he
        rcases hcovers x e hxe he with h | h
        · rcases List.mem_cons.mp h with h | h
          · cases h
            exact absurd (CacheEntry.isExpired_mono (hnow 0) he) hx
          · exact Or.inl h
        · exact Or.inr h
  | removing expiredKeys =>
    cases expiredKeys with
    | nil =>
      refine ⟨hs, ?_, by simp [CleanerPass.left]⟩
      intro key e hkey he
      exact absurd (hcovers key e hkey he) List.not_mem_nil
    | cons key expiredKeys =>
      obtain ⟨t, hremove, ht, hentries⟩ := h.remove store clock key hs
      dsimp only
      rw [hremove]
      refine ⟨ht, ?_, by simp [CleanerPass.left]⟩
      intro x e hxe he
      dsimp only at hxe
      rw [hentries] at hxe
      rcases List.mem_cons.mp (hcovers x e (Entries.purge_some hxe) he) with rfl | h
      · have hlive := (Entries.purge_eq_some.mp hxe).2
        rw [CacheEntry.isExpired_mono (hnow 0) he] at hlive
        cases hlive
      · exact h

theorem step_keeps (h : cleaner.Serves call entries Inv) (turn : Turn) (hs : Inv s.store) :
    Inv (cleaner.step call s turn).2.store := by
  cases turn with
  | client op clock => exact (h.client s.store clock op hs).1
  | cleaner clock =>
    apply advance_store hs
    · obtain ⟨items, t, hsnapshot, ht, -, -⟩ := h.snapshot s.store hs
      rwa [hsnapshot]
    · intro key
      obtain ⟨t, hremove, ht, -⟩ := h.remove s.store clock key hs
      rwa [hremove]

theorem step_fresh (h : cleaner.Serves call entries Inv) {turn : Turn} (hs : Inv s.store)
    (hnow : ∀ i, now ≤ turn.clock i) (hfresh : (entries s.store).Fresh now) :
    (entries (cleaner.step call s turn).2.store).Fresh now := by
  cases turn with
  | client op clock =>
    obtain ⟨-, maxValueBytes, hallowed⟩ := h.client s.store clock op hs
    intro key e hkey
    cases he : e.isExpired now with
    | false => rfl
    | true => exact he.symm.trans (hfresh key e (hallowed.expired hnow hkey he))
  | cleaner clock =>
    apply advance_store (P := fun t => (entries t).Fresh now) hfresh
    · obtain ⟨items, t, hsnapshot, -, hentries, -⟩ := h.snapshot s.store hs
      rw [hsnapshot]
      exact hentries ▸ hfresh
    · intro key
      obtain ⟨t, hremove, -, hentries⟩ := h.remove s.store clock key hs
      rw [hremove]
      intro x e hx
      rw [hentries] at hx
      exact hfresh x e (Entries.purge_some hx)

/-- Once nothing is left of what had expired, nothing of it comes back. -/
theorem exec_fresh (h : cleaner.Serves call entries Inv) (turns : List Turn) (hs : Inv s.store)
    (hnow : ∀ turn ∈ turns, ∀ i, now ≤ turn.clock i) (hfresh : (entries s.store).Fresh now) :
    (entries (exec (cleaner.step call) s turns).store).Fresh now := by
  induction turns generalizing s with
  | nil => exact hfresh
  | cons turn turns ih =>
    exact ih (step_keeps h turn hs) (fun t ht => hnow t (List.mem_cons_of_mem _ ht))
      (step_fresh h hs (hnow turn List.mem_cons_self) hfresh)

/-- Whoever has the turns between, the pass has ended when it has had its own. -/
theorem exec_covers (h : cleaner.Serves call entries Inv) (turns : List Turn) (hs : Inv s.store)
    (hnow : ∀ turn ∈ turns, ∀ i, now ≤ turn.clock i) (hcovers : s.pass.Covers now (entries s.store))
    (hleft : s.pass.left ≤ (turns.filter Turn.isCleaner).length) :
    (entries (exec (cleaner.step call) s turns).store).Fresh now := by
  induction turns generalizing s with
  | nil =>
    rw [List.filter_nil, List.length_nil] at hleft
    have hzero : s.pass.left = 0 := by omega
    exact fresh_of_left hcovers hzero
  | cons turn turns ih =>
    have hturn := hnow turn List.mem_cons_self
    have hturns : ∀ t ∈ turns, ∀ i, now ≤ t.clock i := fun t ht => hnow t (List.mem_cons_of_mem _ ht)
    cases turn with
    | client op clock =>
      exact ih (h.client s.store clock op hs).1 hturns (client_covers h hs hturn hcovers) hleft
    | cleaner clock =>
      rcases Nat.eq_zero_or_pos s.pass.left with hzero | hpos
      · exact exec_fresh h _ hs hnow (fresh_of_left hcovers hzero)
      · obtain ⟨hinv, hadvance, hlt⟩ := advance_covers h hs hturn hcovers hpos
        refine ih hinv hturns hadvance ?_
        rw [List.filter_cons_of_pos rfl, List.length_cons] at hleft
        exact Nat.lt_succ_iff.mp (lt_of_lt_of_le hlt hleft)

theorem snapshot_covers (h : cleaner.Serves call entries Inv) (hs : Inv s.store) (hpass : s.pass = .waiting)
    (clock : ℕ → Time) (now : Time) :
    ∃ items, cleaner.snapshotItems s.store = (.ok items, (cleaner.advance clock s).store) ∧
      (cleaner.advance clock s).pass = .checking items [] ∧ Inv (cleaner.advance clock s).store ∧
      (cleaner.advance clock s).pass.Covers now (entries (cleaner.advance clock s).store) := by
  obtain ⟨items, t, hsnapshot, ht, hentries, hitems⟩ := h.snapshot s.store hs
  have hadvance : cleaner.advance clock s = ⟨t, .checking items []⟩ := by
    unfold advance
    rw [hpass]
    dsimp only
    rw [hsnapshot]
  rw [hadvance]
  refine ⟨items, hsnapshot, rfl, ht, ?_⟩
  intro key e hkey he
  dsimp only at hkey
  rw [hentries] at hkey
  exact Or.inl (hitems key e hkey)

/-- A pass that has had its turns leaves nothing of what had expired before it. -/
theorem pass_fresh (h : cleaner.Serves call entries Inv) (hs : Inv s.store) (hpass : s.pass = .waiting)
    (start : ℕ → Time) {turns : List Turn} (hnow : ∀ turn ∈ turns, ∀ i, now ≤ turn.clock i)
    (hleft : ∀ items t, cleaner.snapshotItems s.store = (.ok items, t) →
      2 * items.length + 2 ≤ (turns.filter Turn.isCleaner).length) :
    (entries (exec (cleaner.step call) s (.cleaner start :: turns)).store).Fresh now := by
  obtain ⟨items, hsnapshot, hchecking, hinv, hcovers⟩ := snapshot_covers h hs hpass start now
  apply exec_covers h turns hinv hnow hcovers
  rw [hchecking, CleanerPass.left]
  exact hleft items _ hsnapshot

end ExpiredEntryCleaner

theorem Allowed.purges {maxValueBytes : ℤ} {clock : ℕ → Time} {m m' : Entries} {key : Key}
    (h : Allowed maxValueBytes clock m (.cleaner key) (.ok .done) m') : m' = m.purge (clock 0) key := by
  cases h
  rfl

theorem CacheStore.cleaner_serves : CacheStore.cleaner.Serves CacheStore.call entries Inv where
  expired _ _ := rfl
  snapshot s hs := ⟨s.store.items, s, rfl, hs, rfl, fun _ _ h => OrderedDict.get?_eq_some.mp h⟩
  remove s clock key hs := by
    have hallowed := (step_outcome hs.counted ⟨.cleaner key, clock⟩).allowed
    have hinv := step_inv hs ⟨.cleaner key, clock⟩
    have hout := cleaner_outcome clock s key
    rcases hstep : step s ⟨.cleaner key, clock⟩ with ⟨reply, t⟩
    rw [hstep] at hallowed hinv hout
    have hreply : reply = .ok .done := by cases hout <;> rfl
    rw [hreply] at hstep hallowed
    obtain ⟨a, u, hremove, hpure⟩ := Act.bind_ok hstep
    cases hpure
    exact ⟨t, hremove, hinv, hallowed.purges⟩
  client s clock op hs :=
    ⟨step_inv hs ⟨.client op, clock⟩, _, (step_outcome hs.counted ⟨.client op, clock⟩).allowed⟩

theorem SqliteCacheStore.cleaner_serves {db : Engine} (hdb : db.Reliable) :
    (SqliteCacheStore.cleaner db).Serves (SqliteCacheStore.call db) entries Accounted where
  expired _ _ := rfl
  snapshot s hs := by
    rcases h : snapshotItems db s with ⟨x | items, t⟩
    · rcases Act.bind_error h with h | ⟨rows, u, hu, h⟩
      · have hraises := (sql_error h).1
        rw [hdb] at hraises
        cases hraises
      · cases h
    · obtain ⟨rows, u, hu, h⟩ := Act.bind_ok h
      obtain ⟨-, rfl, rfl⟩ := sql_ok hu
      cases h
      refine ⟨_, _, h, hs.ticked _, rfl, ?_⟩
      intro key e hkey
      obtain ⟨row, hrow, rfl⟩ := Option.map_eq_some_iff.mp hkey
      exact List.mem_map_of_mem (OrderedDict.get?_eq_some.mp hrow)
  remove s clock key hs := by
    have hallowed := step_allowed db hs ⟨.cleaner key, clock⟩
    have hacc := hs.step db ⟨.cleaner key, clock⟩
    rcases step_reliable hdb hs ⟨.cleaner key, clock⟩ with ⟨op, k, x, haction, -⟩ | ⟨reply, t, hstep, hout⟩
    · cases haction
    · rw [hstep] at hallowed hacc
      have hreply : reply = .done := by cases hout <;> rfl
      rw [hreply] at hstep hallowed
      obtain ⟨a, u, hremove, hpure⟩ := Act.bind_ok hstep
      cases hpure
      exact ⟨t, hremove, hacc, hallowed.purges⟩
  client s clock op hs :=
    ⟨hs.step db ⟨.client op, clock⟩, _, step_allowed db hs ⟨.client op, clock⟩⟩

/-- In every interleaving, a pass that has had a turn for its snapshot, one for each item of it, one
for each that had expired, and two more leaves nothing of what had expired when it began; with
SQLite this takes an engine that does not raise, since an exception ends the pass. -/
theorem cleaner_pass_is_complete :
    (∀ (limits : CacheStoreLimits) (before turns : List Turn) (start : ℕ → Time) (now : Time),
      let s := exec (CacheStore.cleaner.step CacheStore.call) ⟨CacheStore.init limits, .waiting⟩ before
      s.pass = .waiting → (∀ turn ∈ turns, ∀ i, now ≤ turn.clock i) →
      2 * s.store.store.length + 2 ≤ (turns.filter Turn.isCleaner).length →
      (exec (CacheStore.cleaner.step CacheStore.call) s (.cleaner start :: turns)).store.entries.Fresh now) ∧
    ∀ (db : Engine), db.Reliable → ∀ (s₀ : SqliteCacheStore), World.Opens db s₀ →
      ∀ (before turns : List Turn) (start : ℕ → Time) (now : Time),
      let s := exec ((SqliteCacheStore.cleaner db).step (SqliteCacheStore.call db)) ⟨s₀, .waiting⟩ before
      s.pass = .waiting → (∀ turn ∈ turns, ∀ i, now ≤ turn.clock i) →
      2 * s.store.table.length + 2 ≤ (turns.filter Turn.isCleaner).length →
      Entries.Fresh (exec ((SqliteCacheStore.cleaner db).step (SqliteCacheStore.call db)) s
        (.cleaner start :: turns)).store.entries now := by
  refine ⟨?_, ?_⟩
  · intro limits before turns start now s hpass hnow hleft
    have hinv : s.store.Inv := exec_always (I := fun s : Shared CacheStore => s.store.Inv)
      (fun _ turn h => ExpiredEntryCleaner.step_keeps CacheStore.cleaner_serves turn h)
      (CacheStore.init_inv limits) before
    refine ExpiredEntryCleaner.pass_fresh CacheStore.cleaner_serves hinv hpass start hnow ?_
    intro items t hsnapshot
    cases hsnapshot
    exact hleft
  · intro db hdb s₀ hopens before turns start now s hpass hnow hleft
    have hacc : s.store.Accounted :=
      exec_always (I := fun s : Shared SqliteCacheStore => s.store.Accounted)
        (fun _ turn h => SqliteCacheStore.turn_accounted h turn) hopens.accounted before
    refine ExpiredEntryCleaner.pass_fresh (SqliteCacheStore.cleaner_serves hdb) hacc hpass start hnow ?_
    intro items t hsnapshot
    obtain ⟨rows, u, hu, h⟩ := Act.bind_ok hsnapshot
    obtain ⟨-, rfl, rfl⟩ := SqliteCacheStore.sql_ok hu
    cases h
    rw [List.length_map]
    exact hleft

/-- An entry has expired before the pass; another is looked up in the middle of it. -/
theorem cleaner_pass_is_complete_run :
    let before : List Turn := [.client (.set "a" [1] (some 1)) fun _ => 0]
    let turns : List Turn := [.cleaner fun _ => 2, .client (.get "b") fun _ => 3, .cleaner fun _ => 3,
      .cleaner fun _ => 3, .cleaner fun _ => 4]
    (exec (CacheStore.cleaner.step CacheStore.call) ⟨CacheStore.init (.small 0), .waiting⟩
        (before ++ .cleaner (fun _ => 2) :: turns)).store.entries.Fresh 2 ∧
      ∃ s₀, World.Opens ⟨fun _ => false, fun _ => 0⟩ s₀ ∧
        Entries.Fresh (exec ((SqliteCacheStore.cleaner ⟨fun _ => false, fun _ => 0⟩).step
          (SqliteCacheStore.call ⟨fun _ => false, fun _ => 0⟩)) ⟨s₀, .waiting⟩
            (before ++ .cleaner (fun _ => 2) :: turns)).store.entries 2 := by
  intro before turns
  have hopens : World.Opens ⟨fun _ => false, fun _ => 0⟩ _ :=
    ⟨⟨fun _ => false, fun _ => 0⟩, [], ⟨some 1, some 1, some 10, some 40⟩, _, rfl⟩
  have hnow : ∀ turn ∈ turns, ∀ i, (2 : Time) ≤ turn.clock i := by
    intro turn hturn i
    simp only [turns, List.mem_cons, List.not_mem_nil, or_false] at hturn
    rcases hturn with rfl | rfl | rfl | rfl | rfl <;> norm_num [Turn.clock]
  rw [exec_append]
  refine ⟨?_, _, hopens, ?_⟩
  · exact cleaner_pass_is_complete.1 (.small 0) before turns (fun _ => 2) 2 (by decide +kernel) hnow
      (by decide +kernel)
  · rw [exec_append]
    exact cleaner_pass_is_complete.2 _ (fun _ => rfl) _ hopens before turns (fun _ => 2) 2
      (by decide +kernel) hnow (by decide +kernel)

end TinyCache
