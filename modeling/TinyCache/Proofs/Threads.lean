import TinyCache.Proofs.MemoryLimits
import TinyCache.Spec.Threads

/-! Threads that call the in-memory store see it as if they had called one after another,
with readings of the clock that never go back: what is proved of its runs holds of them. -/

namespace TinyCache.CacheStore

variable {α : Type} {s : CacheStore} {clock : ℕ → Time} {place : ℕ}

theorem run_andThen (m : Act PyError CacheStore α) (next : α → Locked) :
    (andThen m next).run clock s = match m s with
      | (.ok a, t) => (next a).run clock t
      | (.error e, t) => (.error e, t) := by
  rw [andThen, Lock.Code.run]
  rcases m s with ⟨_ | a, t⟩ <;> rfl

theorem run_andThen_ok {m : Act PyError CacheStore α} {a : α} {t : CacheStore} (h : m s = (.ok a, t))
    (next : α → Locked) : (andThen m next).run clock s = (next a).run clock t := by
  rw [run_andThen, h]

theorem run_finish (m : Act PyError CacheStore α) (reply : α → Reply) :
    (finish m reply).run clock s = ((m s).1.map reply, (m s).2) := by
  rw [finish, run_andThen]
  rcases m s with ⟨_ | a, t⟩ <;> rfl

theorem run_ifExpired (entry : CacheEntry) (next : Bool → Locked) :
    (ifExpired place entry next).run clock s = (next (isExpired (clock place) entry)).run clock s := by
  unfold ifExpired isExpired CacheEntry.isExpired
  cases entry.ttl <;> rfl

theorem run_storeLocked (key : Key) (value : Bytes) (ttl : Option ℤ) (old : Option CacheEntry)
    (reply : CacheSetStatus → Reply) :
    (storeLocked place key value ttl old reply).run clock s =
      ((storeValueLocked (clock place) key value ttl old s).1.map reply,
        (storeValueLocked (clock place) key value ttl old s).2) := by
  rw [storeLocked, Lock.Code.run, run_finish]

theorem run_collectExpired (items : List (Key × CacheEntry)) (next : List Key → Locked) :
    (collectExpired place items next).run clock s =
      (next (((items.zipIdx place).filter fun p => isExpired (clock p.2) p.1.2).map fun p => p.1.1)).run
        clock s := by
  induction items generalizing place next with
  | nil => rfl
  | cons p items ih =>
    rw [collectExpired, run_ifExpired, ih, List.zipIdx_cons, List.filter_cons]
    cases isExpired (clock place) p.2 <;> rfl

variable {key : Key} {value expectedValue : Bytes} {ttl : Option ℤ}

theorem run_getLocked (hv : validateKey key = .ok ()) :
    (getLocked key).run clock s = call clock (.get key) s := by
  rw [getLocked, run_andThen_ok (Act.read_apply s)]
  cases h : s.store.get? key with
  | none =>
    rw [call_get (get_missing hv h), run_finish]
    rfl
  | some e =>
    rw [run_ifExpired]
    cases hx : isExpired (clock 0) e with
    | true =>
      have hrm : removeExpiredEntry key { s with misses := s.misses + 1 } = _ := removeExpiredEntry_apply h
      rw [call_get (get_expired hv h hx), if_pos rfl, run_andThen_ok (Act.modify_apply _ _), run_finish, hrm]
      rfl
    | false =>
      rw [call_get (get_hit hv h hx), if_neg Bool.false_ne_true, run_finish]
      rfl

theorem run_setLocked (hv : validateKey key = .ok ()) :
    (setLocked key value ttl).run clock s = call clock (.set key value ttl) s := by
  rw [setLocked, run_andThen_ok (Act.read_apply s), run_andThen_ok (Act.modify_apply _ _), run_storeLocked,
    call_set (set_valid hv)]
  rfl

theorem map_conditionally (x : Except PyError CacheSetStatus × CacheStore) :
    ((conditionally x).1.map Reply.conditional, (conditionally x).2) =
      (x.1.map fun st => Reply.conditional (conditionalStatusFromSetStatus st), x.2) := by
  rcases x with ⟨_ | st, t⟩ <;> rfl

theorem run_setIfAbsentLocked (hv : validateKey key = .ok ()) :
    (setIfAbsentLocked key value ttl).run clock s = call clock (.setIfAbsent key value ttl) s := by
  rw [setIfAbsentLocked, run_andThen_ok (Act.read_apply s)]
  cases h : s.store.get? key with
  | none => rw [call_setIfAbsent (setIfAbsent_missing hv h), map_conditionally, run_storeLocked]
  | some e =>
    rw [run_ifExpired]
    cases hx : isExpired (clock 0) e with
    | true =>
      rw [call_setIfAbsent (setIfAbsent_expired hv h hx), map_conditionally, if_pos rfl,
        run_andThen_ok (removeExpiredEntry_apply h), run_storeLocked]
    | false =>
      rw [call_setIfAbsent (setIfAbsent_exists hv h hx), if_neg Bool.false_ne_true]
      rfl

theorem run_compareAndSetLocked (hv : validateKey key = .ok ()) :
    (compareAndSetLocked key expectedValue value ttl).run clock s =
      call clock (.compareAndSet key expectedValue value ttl) s := by
  rw [compareAndSetLocked, run_andThen_ok (Act.read_apply s)]
  cases h : s.store.get? key with
  | none =>
    rw [call_compareAndSet (compareAndSet_missing hv h)]
    rfl
  | some e =>
    rw [run_ifExpired]
    cases hx : isExpired (clock 0) e with
    | true =>
      rw [call_compareAndSet (compareAndSet_expired hv h hx), if_pos rfl, run_finish, removeExpiredEntry_apply h]
      rfl
    | false =>
      rw [if_neg Bool.false_ne_true]
      by_cases he : e.value = expectedValue
      · rw [call_compareAndSet (compareAndSet_match hv h hx he), map_conditionally, if_neg (not_not.mpr he),
          run_andThen_ok (Act.modify_apply _ _), run_storeLocked]
        rfl
      · rw [call_compareAndSet (compareAndSet_mismatch hv h hx he), if_pos he]
        rfl

theorem run_deleteLocked (hv : validateKey key = .ok ()) :
    (deleteLocked key).run clock s = call clock (.delete key) s := by
  rw [deleteLocked, run_andThen_ok (Act.read_apply s)]
  cases h : s.store.get? key with
  | none =>
    rw [call_delete (delete_missing hv h), if_neg (by simp [OrderedDict.contains, h])]
    rfl
  | some e =>
    rw [call_delete (delete_present hv h), if_pos (by simp [OrderedDict.contains, h]), run_finish,
      removeEntry_apply h]
    rfl

theorem run_statsLocked : statsLocked.run clock s = call clock .stats s := by
  obtain ⟨t, hrun, -⟩ := removeExpiredEntriesLocked_apply clock s
  have hremove : removeExpiredEntries (expiredKeys clock s.store.items) s = (.ok (), t) := hrun
  have hstats : stats clock s = (.ok t.snapshot, t) := by simp [stats, Act.bind_of_ok hrun]
  rw [call_stats hstats, statsLocked, run_andThen_ok (Act.read_apply s), run_collectExpired]
  exact (run_andThen_ok hremove _).trans (run_finish _ _)

theorem run_removeIfExpiredLocked :
    (removeIfExpiredLocked key).run clock s = step s ⟨.cleaner key, clock⟩ := by
  rw [removeIfExpiredLocked, run_andThen_ok (Act.read_apply s)]
  simp only [step]
  cases h : s.store.get? key with
  | none =>
    have hrun : removeIfExpired clock key s = (.ok (), s) := by simp [removeIfExpired, h]
    rw [Act.bind_of_ok hrun]
    rfl
  | some e =>
    rw [run_ifExpired]
    cases hx : isExpired (clock 0) e with
    | true =>
      have hrun : removeIfExpired clock key s = (.ok (), s.expire key e) := by
        simp [removeIfExpired, h, hx, removeExpiredEntry_apply h]
      rw [Act.bind_of_ok hrun, if_pos rfl, run_finish, removeExpiredEntry_apply h]
      rfl
    | false =>
      have hrun : removeIfExpired clock key s = (.ok (), s) := by simp [removeIfExpired, h, hx]
      rw [Act.bind_of_ok hrun, if_neg Bool.false_ne_true]
      rfl

theorem ordered_andThen {n : ℕ} (m : Act PyError CacheStore α) {next : α → Locked}
    (h : ∀ a, (next a).Ordered n) : (andThen m next).Ordered n := by
  intro s
  dsimp only
  cases (m s).1 with
  | ok a => exact h a
  | error e => trivial

theorem ordered_finish {n : ℕ} (m : Act PyError CacheStore α) (reply : α → Reply) :
    (finish m reply).Ordered n :=
  ordered_andThen m fun _ => trivial

theorem ordered_ifExpired {n : ℕ} (entry : CacheEntry) {next : Bool → Locked} (hn : n ≤ place)
    (h : ∀ b, (next b).Ordered (place + 1)) : (ifExpired place entry next).Ordered n := by
  unfold ifExpired
  cases entry.ttl with
  | none => exact (h false).mono (by omega)
  | some ttl => exact ⟨hn, fun _ => h _⟩

theorem ordered_storeLocked {n : ℕ} (old : Option CacheEntry) (reply : CacheSetStatus → Reply)
    (hn : n ≤ place) : (storeLocked place key value ttl old reply).Ordered n :=
  ⟨hn, fun _ => ordered_finish _ _⟩

theorem ordered_collectExpired {n : ℕ} (items : List (Key × CacheEntry)) {next : List Key → Locked}
    (hn : n ≤ place) (h : ∀ m keys, (next keys).Ordered m) : (collectExpired place items next).Ordered n := by
  induction items generalizing place n next with
  | nil => exact h n []
  | cons p items ih =>
    refine ordered_ifExpired p.2 hn ?_
    intro b
    exact ih (le_refl _) fun m keys => h m _

theorem ordered_locked (op : Op) : (locked op).Ordered 0 := by
  cases op with
  | get key =>
    refine ordered_andThen _ ?_
    intro self
    cases self.store.get? key with
    | none => exact ordered_finish _ _
    | some e =>
      refine ordered_ifExpired e (le_refl 0) ?_
      intro b
      cases b
      · exact ordered_finish _ _
      · exact ordered_andThen _ fun _ => ordered_finish _ _
  | set key value ttl =>
    exact ordered_andThen _ fun _ => ordered_andThen _ fun _ => ordered_storeLocked _ _ (le_refl 0)
  | setIfAbsent key value ttl =>
    refine ordered_andThen _ ?_
    intro self
    cases self.store.get? key with
    | none => exact ordered_storeLocked _ _ (Nat.zero_le 1)
    | some e =>
      refine ordered_ifExpired e (le_refl 0) ?_
      intro b
      cases b
      · trivial
      · exact ordered_andThen _ fun _ => ordered_storeLocked _ _ (le_refl 1)
  | compareAndSet key expectedValue value ttl =>
    refine ordered_andThen _ ?_
    intro self
    cases self.store.get? key with
    | none => trivial
    | some e =>
      refine ordered_ifExpired e (le_refl 0) ?_
      intro b
      cases b
      · rw [if_neg Bool.false_ne_true]
        split_ifs
        · trivial
        · exact ordered_andThen _ fun _ => ordered_storeLocked _ _ (le_refl 1)
      · exact ordered_finish _ _
  | delete key =>
    refine ordered_andThen _ ?_
    intro self
    split_ifs
    · exact ordered_finish _ _
    · trivial
  | stats =>
    refine ordered_andThen _ fun self => ordered_collectExpired _ (le_refl 0) ?_
    exact fun _ _ => ordered_andThen _ fun _ => ordered_finish _ _
  | clear => exact ordered_finish _ _

theorem ordered_removeIfExpiredLocked (key : Key) : (removeIfExpiredLocked key).Ordered 0 := by
  refine ordered_andThen _ ?_
  intro self
  cases self.store.get? key with
  | none => trivial
  | some e =>
    refine ordered_ifExpired e (le_refl 0) ?_
    intro b
    cases b
    · trivial
    · exact ordered_finish _ _

theorem run_locked {op : Op} (hv : ∀ key, op.key? = some key → validateKey key = .ok ()) :
    (locked op).run clock s = call clock op s := by
  cases op with
  | get key => exact run_getLocked (hv key rfl)
  | set key value ttl => exact run_setLocked (hv key rfl)
  | setIfAbsent key value ttl => exact run_setIfAbsentLocked (hv key rfl)
  | compareAndSet key expectedValue value ttl => exact run_compareAndSetLocked (hv key rfl)
  | delete key => exact run_deleteLocked (hv key rfl)
  | stats => exact run_statsLocked
  | clear => exact run_finish _ _

theorem call_refused {op : Op} {x : PyError} (hk : op.key? = some key) (hv : validateKey key = .error x) :
    call clock op s = (.error x, s) := by
  cases op with
  | get => cases hk; exact call_get (get_invalid hv)
  | set => cases hk; exact call_set (set_invalid hv)
  | setIfAbsent => cases hk; exact call_setIfAbsent (setIfAbsent_invalid hv)
  | compareAndSet => cases hk; exact call_compareAndSet (compareAndSet_invalid hv)
  | delete => cases hk; exact call_delete (delete_invalid hv)
  | stats | clear => cases hk

theorem threadCode_computes : Lock.Computes atOnce threadCode where
  refuses action reply h s clock := by
    cases action with
    | cleaner key => cases h
    | client op =>
      simp only [threadCode] at h
      split at h
      · rename_i x hx
        cases h
        obtain ⟨key, hk, hv⟩ := Option.map_eq_some_iff.mp hx
        exact call_refused hk hv
      · cases h
  ordered action code h := by
    cases action with
    | cleaner key => cases h; exact ordered_removeIfExpiredLocked key
    | client op =>
      simp only [threadCode] at h
      split at h
      · cases h
      · cases h
        exact ordered_locked op
  runs action code h s clock := by
    cases action with
    | cleaner key => cases h; exact run_removeIfExpiredLocked
    | client op =>
      simp only [threadCode] at h
      split at h
      · cases h
      · rename_i hx
        cases h
        refine run_locked ?_
        intro key hk
        rcases hv : validateKey key with x | _
        · exact absurd (by rw [hk, Option.map_some, hv]) (hx x)
        · rfl

theorem exec_serial (s : CacheStore) (log : List (Lock.Entry Time Action (Except PyError Reply))) :
    Machine.exec (Lock.serial atOnce) s (log.map Lock.Entry.call) = Machine.exec step s (log.map logEvent) := by
  induction log generalizing s with
  | nil => rfl
  | cons e log ih => exact ih _

theorem outputs_serial (s : CacheStore) (log : List (Lock.Entry Time Action (Except PyError Reply))) :
    Machine.outputs (Lock.serial atOnce) s (log.map Lock.Entry.call) = Machine.outputs step s (log.map logEvent) := by
  induction log generalizing s with
  | nil => rfl
  | cons e log ih => exact congrArg _ (ih _)

/-- Any number of threads, interleaved at will, with time passing at any moment: the calls that
are over form one run of the store, with readings that never go back, and nobody can tell
from what was returned, and when, that it was not that run. An object that nobody holds is in
the state where it ends. -/
theorem threads_see_one_run (limits : CacheStoreLimits) (t : Time) (turns : List (Lock.Turn Time Action)) :
    let y := Lock.run threadCode (Lock.start (init limits) t) turns
    Lock.Linearized atOnce (init limits) y.log y.history ∧
      ClockOk (y.log.map logEvent) ∧
      Machine.outputs step (init limits) (y.log.map logEvent) = y.log.map Lock.Entry.reply ∧
      (y.holder = none → y.object = Machine.exec step (init limits) (y.log.map logEvent)) := by
  obtain ⟨h, hfree⟩ := Lock.run_linearized threadCode_computes (init limits) t turns
  refine ⟨h, ⟨?_, ?_⟩, ?_, ?_⟩
  · intro event hm
    obtain ⟨e, he, rfl⟩ := List.mem_map.mp hm
    exact fun i j hij => h.within e he i j hij
  · rw [List.pairwise_map]
    exact h.across
  · rw [← outputs_serial]
    exact h.legal
  · intro hnone
    rw [← exec_serial]
    exact hfree hnone

end TinyCache.CacheStore
