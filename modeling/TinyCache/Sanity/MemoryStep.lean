import TinyCache.Sanity.Memory

/-! What one step of the in-memory store can do, said once. The invariants, the
refinement and the comparison with SQLite are all case analyses of `Outcome`. -/

namespace TinyCache

namespace CacheStore

theorem mem_expiredKeys {clock : ℕ → Time} {items : List (Key × CacheEntry)} {k : Key} :
    k ∈ expiredKeys clock items ↔
      ∃ (i : ℕ) (e : CacheEntry), items[i]? = some (k, e) ∧ e.isExpired (clock i) = true := by
  unfold expiredKeys
  rw [List.mem_map]
  refine ⟨?_, ?_⟩
  · rintro ⟨⟨⟨k', e⟩, i⟩, hm, rfl⟩
    obtain ⟨hm, hx⟩ := List.mem_filter.mp hm
    exact ⟨i, e, List.mk_mem_zipIdx_iff_getElem?.mp hm, hx⟩
  · rintro ⟨i, e, hi, hx⟩
    exact ⟨((k, e), i), List.mem_filter.mpr ⟨List.mk_mem_zipIdx_iff_getElem?.mpr hi, hx⟩, rfl⟩

theorem expiredKeys_sublist (clock : ℕ → Time) (items : List (Key × CacheEntry)) :
    (expiredKeys clock items).Sublist (items.map Prod.fst) :=
  OrderedDict.keys_zipIdx_sublist items 0 _

/-- With one reading for all, the entries found expired are those that are. -/
theorem expiredKeys_const (now : Time) (items : List (Key × CacheEntry)) :
    expiredKeys (fun _ => now) items = (items.filter fun p => p.2.isExpired now).map Prod.fst :=
  OrderedDict.filter_zipIdx (fun p : Key × CacheEntry => p.2.isExpired now) Prod.fst items 0

/-- The store after the entries under `keys` have been removed as expired. -/
structure Purged (keys : List Key) (s t : CacheStore) : Prop where
  items : t.store.items = s.store.items.filter fun p => p.1 ∉ keys
  eq : t = { s with
    store := t.store
    currentMemoryBytes := s.currentMemoryBytes - bytes s.store.items + bytes t.store.items
    expiredRemovals := s.expiredRemovals + keys.length }

theorem removeExpiredEntries_apply {keys : List Key} {s : CacheStore} (hn : keys.Nodup)
    (hm : ∀ k ∈ keys, k ∈ s.store.keys) :
    ∃ t, removeExpiredEntries keys s = (.ok (), t) ∧ Purged keys s t := by
  induction keys generalizing s with
  | nil =>
    refine ⟨s, rfl, by simp, ?_⟩
    simp
  | cons k keys ih =>
    obtain ⟨hk, hn⟩ := List.nodup_cons.mp hn
    obtain ⟨e, he⟩ := Option.isSome_iff_exists.mp (OrderedDict.mem_keys.mp (hm k (by simp)))
    have hrest : ∀ x ∈ keys, x ∈ (s.expire k e).store.keys := by
      intro x hx
      have hne : x ≠ k := by
        rintro rfl
        exact hk hx
      have hx' := OrderedDict.mem_keys.mp (hm x (by simp [hx]))
      exact OrderedDict.mem_keys.mpr (by rwa [expire, without, OrderedDict.get?_erase_of_ne _ hne])
    obtain ⟨t, ht, hp⟩ := ih hn hrest
    refine ⟨t, ?_, ?_, ?_⟩
    · rw [removeExpiredEntries, Act.bind_of_ok (removeExpiredEntry_apply he), ht]
    · rw [hp.items, expire, without, OrderedDict.erase_items, List.filter_filter]
      refine List.filter_congr ?_
      intro p _
      by_cases h1 : p.1 = k <;> simp [h1]
    · have hb : bytes (s.store.erase k).items = bytes s.store.items - e.sizeBytes := by
        have := bytes_erase he
        omega
      rw [hp.eq]
      simp only [expire, without, hb, List.length_cons]
      congr 1 <;> omega

theorem removeExpiredEntriesLocked_apply (clock : ℕ → Time) (s : CacheStore) :
    ∃ t, removeExpiredEntriesLocked clock s = (.ok (), t) ∧
      Purged (expiredKeys clock s.store.items) s t := by
  have hsub := expiredKeys_sublist clock s.store.items
  exact removeExpiredEntries_apply (s.store.nodup.sublist hsub) fun k hk => hsub.subset hk

/-- What `_store_value_locked` does from the state `s` in which `old` is popped. -/
inductive WriteOutcome (s : CacheStore) (now : Time) (key : Key) (value : Bytes) (ttl : Option ℤ)
    (old : Option CacheEntry) : CacheSetStatus → CacheStore → Prop
  | tooLarge (h : getsizeof value > s.limits.maxValueBytes) :
      WriteOutcome s now key value ttl old .valueTooLarge { s with
        store := (old.map fun e => s.store.set key e).getD s.store
        rejectedOversize := s.rejectedOversize + 1 }
  | stored {gone rest : List (Key × CacheEntry)} {t : CacheStore}
      (h : getsizeof value ≤ s.limits.maxValueBytes)
      (hst : Stored s old.isNone key (CacheEntry.new value ttl now) gone t rest) :
      WriteOutcome s now key value ttl old .ok t

theorem storeValueLocked_outcome {s : CacheStore} (now : Time) {key : Key} (value : Bytes)
    (ttl : Option ℤ) (old : Option CacheEntry) (hkey : s.store.get? key = none)
    (hs : s.currentMemoryBytes = bytes s.store.items + oldBytes old) :
    ∃ st t, storeValueLocked now key value ttl old s = (.ok st, t) ∧
      WriteOutcome s now key value ttl old st t := by
  by_cases h : getsizeof value > s.limits.maxValueBytes
  · exact ⟨_, _, storeValueLocked_tooLarge h, .tooLarge h⟩
  · obtain ⟨t, gone, rest, hrun, hst⟩ := storeValueLocked_stored now ttl
      (not_lt.mp h) hkey hs
    exact ⟨_, _, hrun, .stored (not_lt.mp h) hst⟩

inductive Outcome (s : CacheStore) (clock : ℕ → Time) :
    Action → Except PyError Reply → CacheStore → Prop
  | invalid {op : Op} {key : Key} {x : PyError} (hk : op.key? = some key)
      (hv : validateKey key = .error x) : Outcome s clock (.client op) (.error x) s
  | getMissing {key : Key} (hv : validateKey key = .ok ()) (h : s.store.get? key = none) :
      Outcome s clock (.client (.get key)) (.ok (.value none)) { s with misses := s.misses + 1 }
  | getExpired {key : Key} {e : CacheEntry} (hv : validateKey key = .ok ())
      (h : s.store.get? key = some e) (hx : e.isExpired (clock 0) = true) :
      Outcome s clock (.client (.get key)) (.ok (.value none))
        { s.expire key e with misses := s.misses + 1 }
  | getHit {key : Key} {e : CacheEntry} (hv : validateKey key = .ok ())
      (h : s.store.get? key = some e) (hx : e.isExpired (clock 0) = false) :
      Outcome s clock (.client (.get key)) (.ok (.value (some e.value)))
        { s with store := s.store.moveToEnd key, hits := s.hits + 1 }
  | set {key : Key} {value : Bytes} {ttl : Option ℤ} {st : CacheSetStatus} {t : CacheStore}
      (hv : validateKey key = .ok ())
      (hw : WriteOutcome (s.popped key) (clock 0) key value ttl (s.store.get? key) st t) :
      Outcome s clock (.client (.set key value ttl)) (.ok (.status st)) t
  | setIfAbsentExists {key : Key} {value : Bytes} {ttl : Option ℤ} {e : CacheEntry}
      (hv : validateKey key = .ok ()) (h : s.store.get? key = some e)
      (hx : e.isExpired (clock 0) = false) :
      Outcome s clock (.client (.setIfAbsent key value ttl)) (.ok (.conditional .exists_)) s
  | setIfAbsentMissing {key : Key} {value : Bytes} {ttl : Option ℤ} {st : CacheSetStatus}
      {t : CacheStore} (hv : validateKey key = .ok ()) (h : s.store.get? key = none)
      (hw : WriteOutcome s (clock 1) key value ttl none st t) :
      Outcome s clock (.client (.setIfAbsent key value ttl))
        (.ok (.conditional (conditionalStatusFromSetStatus st))) t
  | setIfAbsentExpired {key : Key} {value : Bytes} {ttl : Option ℤ} {e : CacheEntry}
      {st : CacheSetStatus} {t : CacheStore} (hv : validateKey key = .ok ())
      (h : s.store.get? key = some e) (hx : e.isExpired (clock 0) = true)
      (hw : WriteOutcome (s.expire key e) (clock 1) key value ttl none st t) :
      Outcome s clock (.client (.setIfAbsent key value ttl))
        (.ok (.conditional (conditionalStatusFromSetStatus st))) t
  | compareAndSetMissing {key : Key} {expected value : Bytes} {ttl : Option ℤ}
      (hv : validateKey key = .ok ()) (h : s.store.get? key = none) :
      Outcome s clock (.client (.compareAndSet key expected value ttl))
        (.ok (.conditional .notFound)) s
  | compareAndSetExpired {key : Key} {expected value : Bytes} {ttl : Option ℤ} {e : CacheEntry}
      (hv : validateKey key = .ok ()) (h : s.store.get? key = some e)
      (hx : e.isExpired (clock 0) = true) :
      Outcome s clock (.client (.compareAndSet key expected value ttl))
        (.ok (.conditional .notFound)) (s.expire key e)
  | compareAndSetMismatch {key : Key} {expected value : Bytes} {ttl : Option ℤ} {e : CacheEntry}
      (hv : validateKey key = .ok ()) (h : s.store.get? key = some e)
      (hx : e.isExpired (clock 0) = false) (hne : e.value ≠ expected) :
      Outcome s clock (.client (.compareAndSet key expected value ttl))
        (.ok (.conditional .mismatch)) s
  | compareAndSetMatch {key : Key} {expected value : Bytes} {ttl : Option ℤ} {e : CacheEntry}
      {st : CacheSetStatus} {t : CacheStore} (hv : validateKey key = .ok ())
      (h : s.store.get? key = some e) (hx : e.isExpired (clock 0) = false) (he : e.value = expected)
      (hw : WriteOutcome (s.popped key) (clock 1) key value ttl (some e) st t) :
      Outcome s clock (.client (.compareAndSet key expected value ttl))
        (.ok (.conditional (conditionalStatusFromSetStatus st))) t
  | deleteMissing {key : Key} (hv : validateKey key = .ok ()) (h : s.store.get? key = none) :
      Outcome s clock (.client (.delete key)) (.ok (.deleted false)) s
  | deletePresent {key : Key} {e : CacheEntry} (hv : validateKey key = .ok ())
      (h : s.store.get? key = some e) :
      Outcome s clock (.client (.delete key)) (.ok (.deleted true)) (s.without key e)
  | stats {t : CacheStore} (hp : Purged (expiredKeys clock s.store.items) s t) :
      Outcome s clock (.client .stats) (.ok (.stats t.snapshot)) t
  | clear : Outcome s clock (.client .clear) (.ok .done) (init s.limits)
  | cleanerKept {key : Key} (h : ∀ e, s.store.get? key = some e → e.isExpired (clock 0) = false) :
      Outcome s clock (.cleaner key) (.ok .done) s
  | cleanerRemoved {key : Key} {e : CacheEntry} (h : s.store.get? key = some e)
      (hx : e.isExpired (clock 0) = true) :
      Outcome s clock (.cleaner key) (.ok .done) (s.expire key e)

theorem bind_reply {α : Type} {m : Act PyError CacheStore α} {f : α → Reply} {s : CacheStore}
    {x : Except PyError α × CacheStore} (h : m s = x) :
    (m >>= fun a => pure (f a)) s = (x.1.map f, x.2) := by
  rw [Act.bind_apply, h]
  rcases x with ⟨_ | a, t⟩ <;> rfl

section

variable {s : CacheStore} {clock : ℕ → Time} {key : Key} {expected value : Bytes} {ttl : Option ℤ}

theorem call_get {x : Except PyError (Option Bytes) × CacheStore} (h : get clock key s = x) :
    call clock (.get key) s = (x.1.map .value, x.2) := bind_reply h

theorem call_set {x : Except PyError CacheSetStatus × CacheStore}
    (h : set clock key value ttl s = x) :
    call clock (.set key value ttl) s = (x.1.map .status, x.2) := bind_reply h

theorem call_setIfAbsent {x : Except PyError CacheConditionalSetStatus × CacheStore}
    (h : setIfAbsent clock key value ttl s = x) :
    call clock (.setIfAbsent key value ttl) s = (x.1.map .conditional, x.2) := bind_reply h

theorem call_compareAndSet {x : Except PyError CacheConditionalSetStatus × CacheStore}
    (h : compareAndSet clock key expected value ttl s = x) :
    call clock (.compareAndSet key expected value ttl) s = (x.1.map .conditional, x.2) :=
  bind_reply h

theorem call_delete {x : Except PyError Bool × CacheStore} (h : delete key s = x) :
    call clock (.delete key) s = (x.1.map .deleted, x.2) := bind_reply h

theorem call_stats {x : Except PyError CacheStatsSnapshot × CacheStore} (h : stats clock s = x) :
    call clock .stats s = (x.1.map .stats, x.2) := bind_reply h

end

theorem popped_get? (s : CacheStore) (key : Key) : (s.popped key).store.get? key = none :=
  OrderedDict.get?_erase_self _ _

theorem popped_bytes {s : CacheStore} (hs : s.Accounted) (key : Key) :
    (s.popped key).currentMemoryBytes =
      bytes (s.popped key).store.items + oldBytes (s.store.get? key) := by
  unfold Accounted at hs
  unfold popped oldBytes
  cases h : s.store.get? key with
  | none => simp [OrderedDict.erase_of_none h, hs]
  | some e =>
    have hb := bytes_erase h
    simp only [Option.map_some, Option.getD_some]
    omega

variable {s : CacheStore} (clock : ℕ → Time)

theorem get_outcome (s : CacheStore) (key : Key) :
    Outcome s clock (.client (.get key)) (call clock (.get key) s).1 (call clock (.get key) s).2 := by
  rcases hv : validateKey key with x | _
  · rw [call_get (get_invalid hv)]
    exact .invalid rfl hv
  cases h : s.store.get? key with
  | none =>
    rw [call_get (get_missing hv h)]
    exact .getMissing hv h
  | some e =>
    cases hx : e.isExpired (clock 0) with
    | true =>
      rw [call_get (get_expired hv h hx)]
      exact .getExpired hv h hx
    | false =>
      rw [call_get (get_hit hv h hx)]
      exact .getHit hv h hx

theorem set_outcome (hs : s.Accounted) (key : Key) (value : Bytes) (ttl : Option ℤ) :
    Outcome s clock (.client (.set key value ttl)) (call clock (.set key value ttl) s).1
      (call clock (.set key value ttl) s).2 := by
  rcases hv : validateKey key with x | _
  · rw [call_set (set_invalid hv)]
    exact .invalid rfl hv
  obtain ⟨st, t, hrun, hw⟩ := storeValueLocked_outcome (clock 0) value ttl _ (popped_get? s key)
    (popped_bytes hs key)
  rw [call_set ((set_valid hv).trans hrun)]
  exact .set hv hw

theorem setIfAbsent_outcome (hs : s.Accounted) (key : Key) (value : Bytes) (ttl : Option ℤ) :
    Outcome s clock (.client (.setIfAbsent key value ttl)) (call clock (.setIfAbsent key value ttl) s).1
      (call clock (.setIfAbsent key value ttl) s).2 := by
  rcases hv : validateKey key with x | _
  · rw [call_setIfAbsent (setIfAbsent_invalid hv)]
    exact .invalid rfl hv
  cases h : s.store.get? key with
  | none =>
    obtain ⟨st, t, hrun, hw⟩ := storeValueLocked_outcome (clock 1) value ttl none h
      (by rw [show s.currentMemoryBytes = _ from hs]; simp [oldBytes])
    rw [call_setIfAbsent (setIfAbsent_missing hv h), hrun]
    exact .setIfAbsentMissing hv h hw
  | some e =>
    cases hx : e.isExpired (clock 0) with
    | false =>
      rw [call_setIfAbsent (setIfAbsent_exists hv h hx)]
      exact .setIfAbsentExists hv h hx
    | true =>
      have hacc : (s.expire key e).currentMemoryBytes = bytes (s.expire key e).store.items :=
        without_accounted h hs
      obtain ⟨st, t, hrun, hw⟩ := storeValueLocked_outcome (s := s.expire key e) (clock 1) value ttl
        none (popped_get? s key) (by rw [hacc]; simp [oldBytes])
      rw [call_setIfAbsent (setIfAbsent_expired hv h hx), hrun]
      exact .setIfAbsentExpired hv h hx hw

theorem compareAndSet_outcome (hs : s.Accounted) (key : Key) (expected value : Bytes)
    (ttl : Option ℤ) :
    Outcome s clock (.client (.compareAndSet key expected value ttl))
      (call clock (.compareAndSet key expected value ttl) s).1
      (call clock (.compareAndSet key expected value ttl) s).2 := by
  rcases hv : validateKey key with x | _
  · rw [call_compareAndSet (compareAndSet_invalid hv)]
    exact .invalid rfl hv
  cases h : s.store.get? key with
  | none =>
    rw [call_compareAndSet (compareAndSet_missing hv h)]
    exact .compareAndSetMissing hv h
  | some e =>
    cases hx : e.isExpired (clock 0) with
    | true =>
      rw [call_compareAndSet (compareAndSet_expired hv h hx)]
      exact .compareAndSetExpired hv h hx
    | false =>
      by_cases he : e.value = expected
      · have hb := popped_bytes hs key
        rw [h] at hb
        obtain ⟨st, t, hrun, hw⟩ := storeValueLocked_outcome (clock 1) value ttl _
          (popped_get? s key) hb
        rw [call_compareAndSet (compareAndSet_match hv h hx he), hrun]
        exact .compareAndSetMatch hv h hx he hw
      · rw [call_compareAndSet (compareAndSet_mismatch hv h hx he)]
        exact .compareAndSetMismatch hv h hx he

theorem delete_outcome (s : CacheStore) (key : Key) :
    Outcome s clock (.client (.delete key)) (call clock (.delete key) s).1
      (call clock (.delete key) s).2 := by
  rcases hv : validateKey key with x | _
  · rw [call_delete (delete_invalid hv)]
    exact .invalid rfl hv
  cases h : s.store.get? key with
  | none =>
    rw [call_delete (delete_missing hv h)]
    exact .deleteMissing hv h
  | some e =>
    rw [call_delete (delete_present hv h)]
    exact .deletePresent hv h

theorem stats_outcome (s : CacheStore) :
    Outcome s clock (.client .stats) (call clock .stats s).1 (call clock .stats s).2 := by
  obtain ⟨t, hrun, hp⟩ := removeExpiredEntriesLocked_apply clock s
  have hstats : stats clock s = (.ok t.snapshot, t) := by
    simp [stats, Act.bind_of_ok hrun]
  rw [call_stats hstats]
  exact .stats hp

theorem cleaner_outcome (s : CacheStore) (key : Key) :
    Outcome s clock (.cleaner key) (step s ⟨.cleaner key, clock⟩).1 (step s ⟨.cleaner key, clock⟩).2 := by
  simp only [step]
  cases h : s.store.get? key with
  | none =>
    have hrun : removeIfExpired clock key s = (.ok (), s) := by simp [removeIfExpired, h]
    rw [Act.bind_of_ok hrun]
    exact .cleanerKept (by simp [h])
  | some e =>
    cases hx : e.isExpired (clock 0) with
    | false =>
      have hrun : removeIfExpired clock key s = (.ok (), s) := by
        simp [removeIfExpired, h, isExpired, hx]
      rw [Act.bind_of_ok hrun]
      exact .cleanerKept (by simp [h, hx])
    | true =>
      have hrun : removeIfExpired clock key s = (.ok (), s.expire key e) := by
        simp [removeIfExpired, h, isExpired, hx, removeExpiredEntry_apply h]
      rw [Act.bind_of_ok hrun]
      exact .cleanerRemoved h hx

theorem call_invalid {clock : ℕ → Time} {s : CacheStore} {op : Op} {key : Key} {x : PyError}
    (hk : op.key? = some key) (hv : validateKey key = .error x) : call clock op s = (.error x, s) := by
  cases op with
  | stats | clear => cases hk
  | get | set | setIfAbsent | compareAndSet | delete =>
    cases hk
    simp [call, get, CacheStore.set, setIfAbsent, compareAndSet, delete, Act.bind_apply, hv]

/-- Every step of a store whose byte counter is right is one of the outcomes. -/
theorem step_outcome (hs : s.Accounted) (event : Event) :
    Outcome s event.clock event.action (step s event).1 (step s event).2 := by
  obtain ⟨action, clock⟩ := event
  cases action with
  | cleaner key => exact cleaner_outcome clock s key
  | client op =>
    cases op with
    | get key => exact get_outcome clock s key
    | set key value ttl => exact set_outcome clock hs key value ttl
    | setIfAbsent key value ttl => exact setIfAbsent_outcome clock hs key value ttl
    | compareAndSet key expected value ttl => exact compareAndSet_outcome clock hs key expected value ttl
    | delete key => exact delete_outcome clock s key
    | stats => exact stats_outcome clock s
    | clear => exact .clear

end CacheStore

end TinyCache
