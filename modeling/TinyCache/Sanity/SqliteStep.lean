import TinyCache.Sanity.Sqlite

/-! What one returning step of the SQLite store has done, said once; the counterpart of
`CacheStore.Outcome`. -/

namespace TinyCache.SqliteCacheStore

open Connection

variable {db : Engine} {s t : SqliteCacheStore}

/-- The keys of the rows found expired, the first of them at the `i`-th reading. -/
def expiredKeys (clock : ℕ → Time) (i : ℕ) (rows : List (Key × Row)) : List Key :=
  ((rows.zipIdx i).filter fun p => isExpired (clock p.2) (rowToEntry p.1.2)).map fun p => p.1.1

theorem expiredKeys_cons_of_expired {clock : ℕ → Time} {i : ℕ} {key : Key} {row : Row}
    (rows : List (Key × Row)) (h : isExpired (clock i) (rowToEntry row) = true) :
    expiredKeys clock i ((key, row) :: rows) = key :: expiredKeys clock (i + 1) rows := by
  simp [expiredKeys, List.zipIdx_cons, h]

theorem expiredKeys_cons_of_live {clock : ℕ → Time} {i : ℕ} {key : Key} {row : Row}
    (rows : List (Key × Row)) (h : isExpired (clock i) (rowToEntry row) = false) :
    expiredKeys clock i ((key, row) :: rows) = expiredKeys clock (i + 1) rows := by
  simp [expiredKeys, List.zipIdx_cons, h]

theorem mem_expiredKeys {clock : ℕ → Time} {i : ℕ} {rows : List (Key × Row)} {k : Key}
    (h : k ∈ expiredKeys clock i rows) :
    ∃ row j, (k, row) ∈ rows ∧ (rowToEntry row).isExpired (clock j) = true := by
  obtain ⟨p, hp, rfl⟩ := List.mem_map.mp h
  obtain ⟨hp, hx⟩ := List.mem_filter.mp hp
  exact ⟨p.1.2, p.2, List.fst_mem_of_mem_zipIdx hp, hx⟩

theorem expiredKeys_const (now : Time) (i : ℕ) (rows : List (Key × Row)) :
    expiredKeys (fun _ => now) i rows =
      (rows.filter fun p => (rowToEntry p.2).isExpired now).map Prod.fst :=
  OrderedDict.filter_zipIdx (fun p : Key × Row => (rowToEntry p.2).isExpired now) Prod.fst rows i

/-- The store after the rows under `keys` have been removed as expired. -/
structure Purged (keys : List Key) (s t : SqliteCacheStore) : Prop where
  items : t.table.items = s.table.items.filter fun p => p.1 ∉ keys
  eq : t = { s with
    connection := t.connection
    currentMemoryBytes := s.currentMemoryBytes - (sizes s.table.items).sum + (sizes t.table.items).sum
    entryCount := s.entryCount - s.table.length + t.table.length
    expiredRemovals := s.expiredRemovals + keys.length }

theorem Purged.refl (s : SqliteCacheStore) : Purged [] s s := by
  refine ⟨by simp, ?_⟩
  simp

theorem Purged.cons {key : Key} {row : Row} {keys : List Key} {n : ℕ}
    (hk : s.table.get? key = some row) (h : Purged keys ((s.expire key row).ticked n) t) :
    Purged (key :: keys) s t := by
  have hsum := sum_sizes_perm (OrderedDict.perm_erase hk)
  have hlen := OrderedDict.length_erase hk
  rw [sizes_cons, List.sum_cons] at hsum
  refine ⟨?_, ?_⟩
  · rw [h.items]
    change ((s.table.erase key).items.filter _) = _
    rw [OrderedDict.erase_items, List.filter_filter]
    refine List.filter_congr ?_
    intro p _
    by_cases h1 : p.1 = key <;> simp [h1]
  · rw [h.eq]
    simp only [ticked, expire, without, withTable, table, List.length_cons] at hsum hlen ⊢
    rw [hsum, hlen]
    congr 1 <;> push_cast <;> omega

theorem removeExpiredRows_ok {clock : ℕ → Time} {rows : List (Key × Row)} {a : Unit} {i : ℕ}
    (hn : (rows.map Prod.fst).Nodup) (hm : ∀ p ∈ rows, p ∈ s.table.items)
    (h : removeExpiredRows db clock i rows s = (.ok a, t)) : Purged (expiredKeys clock i rows) s t := by
  induction rows generalizing i s with
  | nil =>
    cases h
    exact Purged.refl _
  | cons p rows ih =>
    obtain ⟨key, row⟩ := p
    rw [List.map_cons, List.nodup_cons] at hn
    rw [List.forall_mem_cons] at hm
    unfold removeExpiredRows at h
    cases hx : isExpired (clock i) (rowToEntry row) with
    | false =>
      rw [hx, if_neg (by simp)] at h
      rw [expiredKeys_cons_of_live rows hx]
      exact ih hn.2 hm.2 h
    | true =>
      rw [hx, if_pos rfl] at h
      obtain ⟨b, u, hu, h⟩ := Act.bind_ok h
      have hk : s.table.get? key = some row := OrderedDict.get?_eq_some.mpr hm.1
      obtain ⟨n, rfl⟩ := removeExpiredEntryLocked_ok hk hu
      rw [expiredKeys_cons_of_expired rows hx]
      refine Purged.cons hk (ih hn.2 ?_ h)
      intro q hq
      refine OrderedDict.mem_erase.mpr ⟨hm.2 q hq, ?_⟩
      intro he
      exact hn.1 (List.mem_map.mpr ⟨q, hq, he⟩)

theorem Purged.of_ticked {keys : List Key} {n : ℕ} (h : Purged keys (s.ticked n) t) :
    Purged keys s t := ⟨h.items, h.eq⟩

theorem removeExpiredEntriesLocked_ok {clock : ℕ → Time} {a : Unit}
    (h : removeExpiredEntriesLocked db clock s = (.ok a, t)) :
    Purged (expiredKeys clock 0 s.table.items) s t := by
  unfold removeExpiredEntriesLocked at h
  obtain ⟨rows, u, hu, h⟩ := Act.bind_ok h
  obtain ⟨-, rfl, rfl⟩ := sql_ok hu
  exact (removeExpiredRows_ok (s := s.ticked (s.connection.statements + 1)) s.table.nodup
    (fun _ hp => hp) h).of_ticked

/-- The store after a hit on `key`. -/
def touched (s : SqliteCacheStore) (key : Key) (now : Time) : SqliteCacheStore :=
  { s.withTable (s.table.replace key fun row => { row with lastAccessed := now }) with
    hits := s.hits + 1 }

/-- The store after `clear`. -/
def cleared (s : SqliteCacheStore) : SqliteCacheStore :=
  { limits := s.limits
    connection := ⟨.empty, 0⟩
    currentMemoryBytes := 0
    entryCount := 0
    hits := 0
    misses := 0
    evictions := 0
    lruEvictions := 0
    expiredRemovals := 0
    rejectedOversize := 0
    rejectedCapacity := 0 }

inductive Outcome (s : SqliteCacheStore) (clock : ℕ → Time) : Action → Reply → SqliteCacheStore → Prop
  | getMissing {key : Key} (hv : validateKey key = .ok ()) (h : s.table.get? key = none) (n : ℕ) :
      Outcome s clock (.client (.get key)) (.value none) (ticked { s with misses := s.misses + 1 } n)
  | getExpired {key : Key} {row : Row} (hv : validateKey key = .ok ())
      (h : s.table.get? key = some row) (hx : (rowToEntry row).isExpired (clock 0) = true) (n : ℕ) :
      Outcome s clock (.client (.get key)) (.value none)
        (ticked { s.expire key row with misses := s.misses + 1 } n)
  | getHit {key : Key} {row : Row} (hv : validateKey key = .ok ())
      (h : s.table.get? key = some row) (hx : (rowToEntry row).isExpired (clock 0) = false) (n : ℕ) :
      Outcome s clock (.client (.get key)) (.value (some row.value))
        ((s.touched key (clock 1)).ticked n)
  | set {key : Key} {value : Bytes} {ttl : Option ℤ} {st : CacheSetStatus} {t : SqliteCacheStore}
      (hv : validateKey key = .ok ())
      (hw : WriteOutcome (s.popped key (s.table.get? key)) (clock 0) (clock 1) key value ttl
        (s.table.get? key) st t) : Outcome s clock (.client (.set key value ttl)) (.status st) t
  | setIfAbsentExists {key : Key} {value : Bytes} {ttl : Option ℤ} {row : Row}
      (hv : validateKey key = .ok ()) (h : s.table.get? key = some row)
      (hx : (rowToEntry row).isExpired (clock 0) = false) (n : ℕ) :
      Outcome s clock (.client (.setIfAbsent key value ttl)) (.conditional .exists_) (s.ticked n)
  | setIfAbsentMissing {key : Key} {value : Bytes} {ttl : Option ℤ} {st : CacheSetStatus}
      {t : SqliteCacheStore} (hv : validateKey key = .ok ()) (h : s.table.get? key = none)
      (hw : WriteOutcome s (clock 1) (clock 2) key value ttl none st t) :
      Outcome s clock (.client (.setIfAbsent key value ttl))
        (.conditional (conditionalStatusFromSetStatus st)) t
  | setIfAbsentExpired {key : Key} {value : Bytes} {ttl : Option ℤ} {row : Row} {st : CacheSetStatus}
      {t : SqliteCacheStore} (hv : validateKey key = .ok ()) (h : s.table.get? key = some row)
      (hx : (rowToEntry row).isExpired (clock 0) = true)
      (hw : WriteOutcome (s.expire key row) (clock 1) (clock 2) key value ttl none st t) :
      Outcome s clock (.client (.setIfAbsent key value ttl))
        (.conditional (conditionalStatusFromSetStatus st)) t
  | compareAndSetMissing {key : Key} {expected value : Bytes} {ttl : Option ℤ}
      (hv : validateKey key = .ok ()) (h : s.table.get? key = none) (n : ℕ) :
      Outcome s clock (.client (.compareAndSet key expected value ttl)) (.conditional .notFound)
        (s.ticked n)
  | compareAndSetExpired {key : Key} {expected value : Bytes} {ttl : Option ℤ} {row : Row}
      (hv : validateKey key = .ok ()) (h : s.table.get? key = some row)
      (hx : (rowToEntry row).isExpired (clock 0) = true) (n : ℕ) :
      Outcome s clock (.client (.compareAndSet key expected value ttl)) (.conditional .notFound)
        ((s.expire key row).ticked n)
  | compareAndSetMismatch {key : Key} {expected value : Bytes} {ttl : Option ℤ} {row : Row}
      (hv : validateKey key = .ok ()) (h : s.table.get? key = some row)
      (hx : (rowToEntry row).isExpired (clock 0) = false) (hne : row.value ≠ expected) (n : ℕ) :
      Outcome s clock (.client (.compareAndSet key expected value ttl)) (.conditional .mismatch)
        (s.ticked n)
  | compareAndSetMatch {key : Key} {expected value : Bytes} {ttl : Option ℤ} {row : Row}
      {st : CacheSetStatus} {t : SqliteCacheStore} (hv : validateKey key = .ok ())
      (h : s.table.get? key = some row) (hx : (rowToEntry row).isExpired (clock 0) = false)
      (he : row.value = expected)
      (hw : WriteOutcome (s.without key row) (clock 1) (clock 2) key value ttl (some row) st t) :
      Outcome s clock (.client (.compareAndSet key expected value ttl))
        (.conditional (conditionalStatusFromSetStatus st)) t
  | deleteMissing {key : Key} (hv : validateKey key = .ok ()) (h : s.table.get? key = none) (n : ℕ) :
      Outcome s clock (.client (.delete key)) (.deleted false) (s.ticked n)
  | deletePresent {key : Key} {row : Row} (hv : validateKey key = .ok ())
      (h : s.table.get? key = some row) (n : ℕ) :
      Outcome s clock (.client (.delete key)) (.deleted true) ((s.without key row).ticked n)
  | stats {t : SqliteCacheStore} (hp : Purged (expiredKeys clock 0 s.table.items) s t) :
      Outcome s clock (.client .stats) (.stats t.snapshot) t
  | clear (n : ℕ) : Outcome s clock (.client .clear) .done (s.cleared.ticked n)
  | cleanerKept {key : Key}
      (h : ∀ row, s.table.get? key = some row → (rowToEntry row).isExpired (clock 0) = false) (n : ℕ) :
      Outcome s clock (.cleaner key) .done (s.ticked n)
  | cleanerRemoved {key : Key} {row : Row} (h : s.table.get? key = some row)
      (hx : (rowToEntry row).isExpired (clock 0) = true) (n : ℕ) :
      Outcome s clock (.cleaner key) .done ((s.expire key row).ticked n)

section

variable {clock : ℕ → Time} {key : Key}

theorem WriteOutcome.of_ticked {created accessed : Time} {value : Bytes} {ttl : Option ℤ}
    {old : Option Row} {st : CacheSetStatus} {n : ℕ}
    (h : WriteOutcome (s.ticked n) created accessed key value ttl old st t) :
    WriteOutcome s created accessed key value ttl old st t := by
  cases h with
  | tooLarge h m =>
    cases old with
    | none => exact .tooLarge (s := s) h m
    | some row => exact .tooLarge (s := s) h m
  | stored h hst => exact .stored h hst.of_ticked

theorem WriteOutcome.of_popped {created accessed : Time} {value : Bytes} {ttl : Option ℤ}
    {old : Option Row} {st : CacheSetStatus} {n : ℕ}
    (h : WriteOutcome ((s.ticked n).popped key old) created accessed key value ttl old st t) :
    WriteOutcome (s.popped key old) created accessed key value ttl old st t := by
  cases old with
  | none => exact h.of_ticked
  | some row => exact WriteOutcome.of_ticked (n := n) h

theorem check_ok {α : Type} {f : Unit → Act PyError SqliteCacheStore α} {a : α}
    (h : (Act.check (validateKey key) >>= f) s = (.ok a, t)) :
    validateKey key = .ok () ∧ f () s = (.ok a, t) := by
  obtain ⟨_, u, hu, h⟩ := Act.bind_ok h
  rw [Act.check_apply, Prod.mk.injEq] at hu
  obtain ⟨hv, rfl⟩ := hu
  exact ⟨hv, h⟩

/-- What follows a lookup that returned was given the row of the table. -/
theorem row_ok {α : Type} {f : Option Row → Act PyError SqliteCacheStore α} {a : α}
    (h : (getRowLocked db key >>= f) s = (.ok a, t)) :
    ∃ n, f (s.table.get? key) (s.ticked n) = (.ok a, t) := by
  obtain ⟨r, u, hu, h⟩ := Act.bind_ok h
  obtain ⟨rfl, n, rfl⟩ := getRowLocked_ok hu
  exact ⟨n, h⟩

theorem get_ok {v : Option Bytes} (h : get db clock key s = (.ok v, t)) :
    Outcome s clock (.client (.get key)) (.value v) t := by
  obtain ⟨hv, h⟩ := check_ok h
  obtain ⟨n, h⟩ := row_ok h
  cases hk : s.table.get? key with
  | none =>
    rw [hk] at h
    cases h
    exact .getMissing hv hk _
  | some row =>
    rw [hk] at h
    cases hx : (rowToEntry row).isExpired (clock 0) with
    | true =>
      simp only [isExpired, hx, if_true, Act.modify_bind] at h
      obtain ⟨b, v, hv', h⟩ := Act.bind_ok h
      obtain ⟨m, rfl⟩ := removeExpiredEntryLocked_ok
        (s := { s.ticked n with misses := s.misses + 1 }) hk hv'
      cases h
      exact .getExpired hv hk hx m
    | false =>
      simp only [isExpired, hx, Bool.false_eq_true, if_false] at h
      obtain ⟨_, w, hw, h⟩ := Act.bind_ok h
      obtain ⟨-, -, rfl⟩ := sql_ok hw
      cases h
      exact .getHit hv hk hx _

theorem set_ok {value : Bytes} {ttl : Option ℤ} {st : CacheSetStatus} (hs : s.Accounted)
    (h : set db clock key value ttl s = (.ok st, t)) :
    Outcome s clock (.client (.set key value ttl)) (.status st) t := by
  obtain ⟨hv, h⟩ := check_ok h
  obtain ⟨n, h⟩ := row_ok h
  exact .set hv (storeValueLocked_ok (hs.ticked n) rfl h).of_popped

theorem setIfAbsent_ok {value : Bytes} {ttl : Option ℤ} {st : CacheConditionalSetStatus}
    (hs : s.Accounted) (h : setIfAbsent db clock key value ttl s = (.ok st, t)) :
    Outcome s clock (.client (.setIfAbsent key value ttl)) (.conditional st) t := by
  obtain ⟨hv, h⟩ := check_ok h
  obtain ⟨n, h⟩ := row_ok h
  cases hk : s.table.get? key with
  | none =>
    rw [hk] at h
    obtain ⟨st', w, hw, h⟩ := Act.bind_ok h
    cases h
    exact .setIfAbsentMissing hv hk (storeValueLocked_ok (hs.ticked n) hk hw).of_popped
  | some row =>
    rw [hk] at h
    cases hx : (rowToEntry row).isExpired (clock 0) with
    | false =>
      simp only [isExpired, hx, Bool.false_eq_true, if_false] at h
      cases h
      exact .setIfAbsentExists hv hk hx _
    | true =>
      simp only [isExpired, hx, if_true] at h
      obtain ⟨b, v, hv', h⟩ := Act.bind_ok h
      obtain ⟨m, rfl⟩ := removeExpiredEntryLocked_ok (s := s.ticked n) hk hv'
      obtain ⟨st', w, hw, h⟩ := Act.bind_ok h
      cases h
      have hacc : ((s.expire key row).ticked m).Accounted :=
        have ha := without_accounted hk hs
        ⟨ha.memory, ha.count, ha.sized⟩
      refine .setIfAbsentExpired hv hk hx ?_
      exact (storeValueLocked_ok hacc (OrderedDict.get?_erase_self _ _) hw).of_ticked

theorem compareAndSet_ok {expected value : Bytes} {ttl : Option ℤ} {st : CacheConditionalSetStatus}
    (hs : s.Accounted) (h : compareAndSet db clock key expected value ttl s = (.ok st, t)) :
    Outcome s clock (.client (.compareAndSet key expected value ttl)) (.conditional st) t := by
  obtain ⟨hv, h⟩ := check_ok h
  obtain ⟨n, h⟩ := row_ok h
  cases hk : s.table.get? key with
  | none =>
    rw [hk] at h
    cases h
    exact .compareAndSetMissing hv hk _
  | some row =>
    rw [hk] at h
    cases hx : (rowToEntry row).isExpired (clock 0) with
    | true =>
      simp only [isExpired, hx, if_true] at h
      obtain ⟨b, v, hv', h⟩ := Act.bind_ok h
      obtain ⟨m, rfl⟩ := removeExpiredEntryLocked_ok (s := s.ticked n) hk hv'
      cases h
      exact .compareAndSetExpired hv hk hx m
    | false =>
      simp only [isExpired, hx, Bool.false_eq_true, if_false] at h
      by_cases he : (rowToEntry row).value = expected
      · rw [if_neg (not_not.mpr he)] at h
        obtain ⟨st', w, hw, h⟩ := Act.bind_ok h
        cases h
        exact .compareAndSetMatch hv hk hx he (storeValueLocked_ok (hs.ticked n) hk hw).of_popped
      · rw [if_pos he] at h
        cases h
        exact .compareAndSetMismatch hv hk hx he _

theorem delete_ok {b : Bool} (h : delete db key s = (.ok b, t)) :
    Outcome s clock (.client (.delete key)) (.deleted b) t := by
  obtain ⟨hv, h⟩ := check_ok h
  rcases removeEntryLocked_ok h with ⟨hk, rfl, n, rfl⟩ | ⟨row, hk, rfl, n, rfl⟩
  · exact .deleteMissing hv hk n
  · exact .deletePresent hv hk n

theorem removeIfExpired_ok {a : Unit} (h : removeIfExpired db clock key s = (.ok a, t)) :
    Outcome s clock (.cleaner key) .done t := by
  obtain ⟨n, h⟩ := row_ok h
  cases hk : s.table.get? key with
  | none =>
    rw [hk] at h
    cases h
    exact .cleanerKept (by simp [hk]) _
  | some row =>
    rw [hk] at h
    cases hx : (rowToEntry row).isExpired (clock 0) with
    | true =>
      simp only [isExpired, hx, if_true] at h
      obtain ⟨b, v, hv', h⟩ := Act.bind_ok h
      obtain ⟨m, rfl⟩ := removeExpiredEntryLocked_ok (s := s.ticked n) hk hv'
      cases h
      exact .cleanerRemoved hk hx m
    | false =>
      simp only [isExpired, hx, Bool.false_eq_true, if_false] at h
      cases h
      exact .cleanerKept (by simp [hk, hx]) _

end

/-- Every returning step of a store whose counters are right is one of the outcomes. -/
theorem step_ok (hs : s.Accounted) {event : Event} {reply : Reply}
    (h : step db s event = (.ok reply, t)) : Outcome s event.clock event.action reply t := by
  obtain ⟨action, clock⟩ := event
  cases action with
  | cleaner key =>
    obtain ⟨_, u, hu, h⟩ := Act.bind_ok h
    cases h
    exact removeIfExpired_ok hu
  | client op =>
    cases op with
    | get key =>
      obtain ⟨v, u, hu, h⟩ := Act.bind_ok h
      cases h
      exact get_ok hu
    | set key value ttl =>
      obtain ⟨st, u, hu, h⟩ := Act.bind_ok h
      cases h
      exact set_ok hs hu
    | setIfAbsent key value ttl =>
      obtain ⟨st, u, hu, h⟩ := Act.bind_ok h
      cases h
      exact setIfAbsent_ok hs hu
    | compareAndSet key expected value ttl =>
      obtain ⟨st, u, hu, h⟩ := Act.bind_ok h
      cases h
      exact compareAndSet_ok hs hu
    | delete key =>
      obtain ⟨b, u, hu, h⟩ := Act.bind_ok h
      cases h
      exact delete_ok hu
    | stats =>
      obtain ⟨x, u, hu, h⟩ := Act.bind_ok h
      cases h
      obtain ⟨_, v, hv, hx⟩ := Act.bind_ok hu
      cases hx
      exact .stats (removeExpiredEntriesLocked_ok hv)
    | clear =>
      obtain ⟨_, u, hu, h⟩ := Act.bind_ok h
      cases h
      obtain ⟨_, v, hv, hx⟩ := Act.bind_ok hu
      obtain ⟨-, -, rfl⟩ := sql_ok hv
      cases hx
      exact .clear _

end TinyCache.SqliteCacheStore
