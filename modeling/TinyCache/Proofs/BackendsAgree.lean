import TinyCache.Proofs.RejectedWrites
import TinyCache.Proofs.SqliteRefines
import TinyCache.Spec.Statistics

/-! The two backends answer alike. Recency is a position in one and a column in the other:
when every operation has a reading of its own, the rows in the order of that column are
the items in their order, and both evict the same prefix. -/

namespace TinyCache

open Machine

/-- The item that a row stands for. -/
def toItem (p : Key × Row) : Key × CacheEntry := (p.1, SqliteCacheStore.rowToEntry p.2)

/-- `l` is the table in the order of its last accesses, no two of which are the same, and
the items of the other store are those of `l`. -/
structure Mirrors (m : CacheStore) (s : SqliteCacheStore) (l : List (Key × Row)) : Prop where
  limits : m.limits = s.limits
  counters : m.counters = s.counters
  rows : s.table.items.Perm l
  sorted : l.Pairwise fun p q => p.2.lastAccessed < q.2.lastAccessed
  items : m.store.items = l.map toItem

/-- No row has been accessed after `now`. -/
def Upto (now : Time) (l : List (Key × Row)) : Prop := ∀ p ∈ l, p.2.lastAccessed ≤ now

def Before (now : Time) (l : List (Key × Row)) : Prop := ∀ p ∈ l, p.2.lastAccessed < now

theorem Before.upto {now : Time} {l : List (Key × Row)} (h : Before now l) : Upto now l :=
  fun p hp => (h p hp).le

theorem Before.filter {now : Time} {l : List (Key × Row)} (h : Before now l) (f : Key × Row → Bool) :
    Before now (l.filter f) := fun p hp => h p (List.mem_of_mem_filter hp)

/-- A list in strict order is the only one in that order with its elements. -/
theorem eq_of_perm_of_sorted {l l' : List (Key × Row)} (hp : l'.Perm l)
    (hl : l.Pairwise fun p q => p.2.lastAccessed < q.2.lastAccessed)
    (hl' : l'.Pairwise fun p q => p.2.lastAccessed ≤ q.2.lastAccessed) : l' = l := by
  have hinj : l.Pairwise fun p q => p.2.lastAccessed = q.2.lastAccessed → p = q :=
    hl.imp fun hlt he => absurd he hlt.ne
  refine hp.eq_of_pairwise ?_ hl' (hl.imp fun h => h.le)
  intro p q hp' hq hpq hqp
  exact List.Pairwise.forall_of_forall_of_flip (fun _ _ _ => rfl) hinj
    (hinj.imp fun h he => (h he.symm).symm) (hp.mem_iff.mp hp') hq (le_antisymm hpq hqp)

namespace Mirrors

variable {m m' : CacheStore} {s t : SqliteCacheStore} {l : List (Key × Row)} {key : Key} {now : Time}

theorem ticked (h : Mirrors m s l) (n : ℕ) : Mirrors m (s.ticked n) l :=
  ⟨h.limits, h.counters, h.rows, h.sorted, h.items⟩

theorem get? (h : Mirrors m s l) (key : Key) : m.store.get? key = s.entries key := by
  ext e
  rw [OrderedDict.get?_eq_some, h.items, List.mem_map, SqliteCacheStore.entries,
    Option.map_eq_some_iff]
  constructor
  · rintro ⟨⟨k, row⟩, hp, hk⟩
    rw [toItem, Prod.mk.injEq] at hk
    obtain ⟨rfl, rfl⟩ := hk
    exact ⟨row, OrderedDict.get?_eq_some.mpr (h.rows.mem_iff.mpr hp), rfl⟩
  · rintro ⟨row, hrow, rfl⟩
    exact ⟨(key, row), h.rows.mem_iff.mp (OrderedDict.get?_eq_some.mp hrow), rfl⟩

theorem get?_none (h : Mirrors m s l) (hk : s.table.get? key = none) : m.store.get? key = none := by
  rw [h.get?, SqliteCacheStore.entries_of_none hk]

theorem get?_some (h : Mirrors m s l) {row : Row} (hk : s.table.get? key = some row) :
    m.store.get? key = some (SqliteCacheStore.rowToEntry row) := by
  rw [h.get?, SqliteCacheStore.entries_of_some hk]

/-- Both stores lose the items whose keys are turned away by `keep`. -/
theorem filter (h : Mirrors m s l) (keep : Key → Bool) (hlm : m'.limits = m.limits)
    (hls : t.limits = s.limits) (hc : m'.counters = t.counters)
    (hm : m'.store.items = m.store.items.filter fun p => keep p.1)
    (ht : t.table.items = s.table.items.filter fun p => keep p.1) :
    Mirrors m' t (l.filter fun p => keep p.1) := by
  refine ⟨by rw [hlm, hls, h.limits], hc, ?_, h.sorted.sublist List.filter_sublist, ?_⟩
  · rw [ht]
    exact h.rows.filter _
  · rw [hm, h.items, List.filter_map]
    rfl

end Mirrors

theorem sizes_toItem {l : List (Key × Row)} (h : ∀ p ∈ l, p.2.sizeBytes = getsizeof p.2.value) :
    CacheStore.sizes (l.map toItem) = SqliteCacheStore.sizes l := by
  unfold CacheStore.sizes SqliteCacheStore.sizes
  rw [List.map_map]
  exact List.map_congr_left fun p hp => (h p hp).symm

namespace Mirrors

variable {m : CacheStore} {s t : SqliteCacheStore} {l : List (Key × Row)} {key : Key} {now : Time}

theorem popped_rows (h : Mirrors m s l) (key : Key) :
    (s.popped key (s.table.get? key)).table.items.Perm (l.filter fun p => p.1 ≠ key) := by
  have hrows : (s.popped key (s.table.get? key)).table.items = (s.table.erase key).items := by
    cases hk : s.table.get? key with
    | none => rw [OrderedDict.erase_of_none hk]; rfl
    | some row => rfl
  rw [hrows, OrderedDict.erase_items]
  exact h.rows.filter _

theorem popped_items (h : Mirrors m s l) (key : Key) :
    (m.popped key).store.items = (l.filter fun p => p.1 ≠ key).map toItem := by
  change (m.store.erase key).items = _
  rw [OrderedDict.erase_items, h.items, List.filter_map]
  rfl

theorem counters_popped (s : SqliteCacheStore) (key : Key) (old : Option Row) :
    (s.popped key old).counters = s.counters := by
  cases old <;> rfl

/-- Both stores accept a value: they evict the same prefix and add the same entry. -/
theorem stored (h : Mirrors m s l) (hs : s.Accounted) (hbefore : Before now l) {entry : CacheEntry}
    {m' : CacheStore} {gone rest : List (Key × CacheEntry)} {gone' rest' : List (Key × Row)}
    (hm : CacheStore.Stored (m.popped key) (m.store.get? key).isNone key entry gone m' rest)
    (ht : SqliteCacheStore.Stored (s.popped key (s.table.get? key)) (s.table.get? key).isNone key
      (SqliteCacheStore.rowOf entry now) gone' t rest') :
    ∃ l', Mirrors m' t l' ∧ Upto now l' := by
  set l₁ := l.filter fun p => p.1 ≠ key with hl₁
  have hsorted : l₁.Pairwise fun p q => p.2.lastAccessed < q.2.lastAccessed :=
    h.sorted.sublist List.filter_sublist
  have hsplit : gone' ++ rest' = l₁ :=
    eq_of_perm_of_sorted (ht.perm.symm.trans (h.popped_rows key)) hsorted ht.sorted
  have hsized : ∀ p ∈ l₁, p.2.sizeBytes = getsizeof p.2.value := fun p hp =>
    hs.sized p (h.rows.mem_iff.mpr (List.mem_of_mem_filter hp))
  have hnew : (s.table.get? key).isNone = (m.store.get? key).isNone := by
    rw [h.get?, SqliteCacheStore.entries, Option.isNone_map]
  have hlimits : (s.popped key (s.table.get? key)).limits = (m.popped key).limits :=
    (SqliteCacheStore.popped_limits ..).trans h.limits.symm
  obtain ⟨hgone, hrest⟩ : gone = gone'.map toItem ∧ rest = rest'.map toItem := by
    refine hm.trimmed.unique ?_
    have htrim := ht.trimmed
    rw [hsplit, hlimits, hnew] at htrim
    rw [h.popped_items key]
    refine Trimmed.map toItem (htrim.congr ?_)
    intro x hx
    rw [sizes_toItem fun p hp => hsized p (hx.subset hp)]
    rfl
  have hlast : ∀ p ∈ rest', p.2.lastAccessed < now := by
    intro p hp
    have hp₁ : p ∈ l₁ := hsplit ▸ List.mem_append_right gone' hp
    exact hbefore p (List.mem_of_mem_filter hp₁)
  refine ⟨rest' ++ [(key, SqliteCacheStore.rowOf entry now)], ⟨?_, ?_, ht.items, ?_, ?_⟩, ?_⟩
  · rw [hm.eq, ht.eq]
    exact hlimits.symm
  · have hc : m.counters = (s.popped key (s.table.get? key)).counters :=
      h.counters.trans (counters_popped ..).symm
    have hlen : gone.length = gone'.length := by rw [hgone, List.length_map]
    rw [hm.eq, ht.eq]
    have hadd := congrArg (fun c : Counters =>
      { c with evictions := c.evictions + gone.length, lruEvictions := c.lruEvictions + gone.length }) hc
    rw [hlen] at hadd ⊢
    exact hadd
  · refine List.pairwise_append.mpr ⟨?_, List.pairwise_singleton _ _, ?_⟩
    · exact hsorted.sublist (hsplit ▸ List.sublist_append_right gone' rest')
    · intro p hp q hq
      rw [List.mem_singleton.mp hq]
      exact hlast p hp
  · rw [hm.items, hrest, List.map_append, List.map_cons, List.map_nil, toItem,
      SqliteCacheStore.rowToEntry_rowOf]
  · intro p hp
    rcases List.mem_append.mp hp with hp | hp
    · exact (hlast p hp).le
    · rw [List.mem_singleton.mp hp]
      exact le_rfl

theorem rejected (h : Mirrors m s l) {m' : CacheStore} (hm : CacheStore.Unchanged m m')
    (ht : SqliteCacheStore.Unchanged s t) (hlm : m'.limits = m.limits) (hlt : t.limits = s.limits)
    (hc : m'.counters = t.counters) : Mirrors m' t l :=
  ⟨by rw [hlm, hlt, h.limits], hc, ht.rows.trans h.rows, h.sorted, by rw [hm.store, h.items]⟩

/-- The write path keeps the stores alike, unless it puts an old item back at another place. -/
theorem write (h : Mirrors m s l) (hm : m.Accounted) (hs : s.Accounted) (hbefore : Before now l)
    {value : Bytes} {ttl : Option ℤ} {st : CacheSetStatus}
    (hw : SqliteCacheStore.WriteOutcome (s.popped key (s.table.get? key)) now now key value ttl
      (s.table.get? key) st t)
    (hend : getsizeof value > m.limits.maxValueBytes → m.AtEnd key) :
    ∃ m', CacheStore.storeValueLocked now key value ttl (m.store.get? key) (m.popped key) =
      (.ok st, m') ∧ ∃ l', Mirrors m' t l' ∧ Upto now l' := by
  obtain ⟨st', m', hrun, hw'⟩ := CacheStore.storeValueLocked_outcome now value ttl _
    (CacheStore.popped_get? m key) (CacheStore.popped_bytes hm key)
  have hlimits : (s.popped key (s.table.get? key)).limits = m.limits :=
    (SqliteCacheStore.popped_limits ..).trans h.limits.symm
  have hpopped : (m.popped key).limits = m.limits := rfl
  cases hw with
  | tooLarge hsize n =>
    rw [hlimits] at hsize
    cases hw' with
    | tooLarge _ =>
      refine ⟨_, hrun, l, h.rejected ((CacheStore.unchanged_iff m key _).mpr (hend hsize))
        (SqliteCacheStore.unchanged s key _ n).1 rfl ?_ ?_, hbefore.upto⟩
      · cases s.table.get? key <;> rfl
      · have hadd := congrArg (fun c : Counters => { c with rejectedOversize := c.rejectedOversize + 1 })
          h.counters
        cases s.table.get? key <;> exact hadd
    | stored hle => exact absurd hsize (not_lt.mpr hle)
  | stored hle hst =>
    rw [hlimits] at hle
    cases hw' with
    | tooLarge hsize => exact absurd hsize (not_lt.mpr hle)
    | stored _ hst' => exact ⟨_, hrun, h.stored hs hbefore hst' hst⟩

end Mirrors

/-- The write is turned away and its key has an item, which is not the last in the order. -/
def CacheStore.Displaces (s : CacheStore) (now : Time) : Op → Prop
  | .set key value _ => getsizeof value > s.limits.maxValueBytes ∧ ¬ s.AtEnd key
  | .compareAndSet key expected value _ => getsizeof value > s.limits.maxValueBytes ∧
      (∃ e, s.store.get? key = some e ∧ e.isExpired now = false ∧ e.value = expected) ∧
      ¬ s.AtEnd key
  | _ => False

/-- The other store answers the operation in the same way, and the two stay alike. -/
def Follows (m : CacheStore) (op : Op) (now : Time) (reply : Reply) (t : SqliteCacheStore) : Prop :=
  ∃ m', CacheStore.call (fun _ => now) op m = (.ok reply, m') ∧ ∃ l', Mirrors m' t l' ∧ Upto now l'

namespace Mirrors

variable {m : CacheStore} {s t : SqliteCacheStore} {l : List (Key × Row)} {key : Key} {now : Time}
  {value : Bytes} {ttl : Option ℤ}

theorem get_hit (h : Mirrors m s l) (hbefore : Before now l) {row : Row}
    (hk : s.table.get? key = some row) (n : ℕ) :
    ∃ l', Mirrors { m with store := m.store.moveToEnd key, hits := m.hits + 1 }
      ((s.touched key now).ticked n) l' ∧ Upto now l' := by
  have hrest : ∀ p ∈ l.filter fun p => p.1 ≠ key, p.2.lastAccessed < now := hbefore.filter _
  refine ⟨(l.filter fun p => p.1 ≠ key) ++ [(key, { row with lastAccessed := now })],
    ⟨h.limits, ?_, ?_, ?_, ?_⟩, ?_⟩
  · exact congrArg (fun c : Counters => { c with hits := c.hits + 1 }) h.counters
  · have hperm := OrderedDict.perm_replace hk fun row => { row with lastAccessed := now }
    exact hperm.trans ((h.rows.filter _).append_right _)
  · refine List.pairwise_append.mpr ⟨h.sorted.sublist List.filter_sublist,
      List.pairwise_singleton _ _, ?_⟩
    intro p hp q hq
    rw [List.mem_singleton.mp hq]
    exact hrest p hp
  · have hmove : m.store.moveToEnd key = m.store.putLast key (SqliteCacheStore.rowToEntry row) := by
      rw [OrderedDict.moveToEnd, h.get?_some hk]
    rw [hmove, OrderedDict.putLast_items, List.map_append]
    congr 1
    exact h.popped_items key
  · intro p hp
    rcases List.mem_append.mp hp with hp | hp
    · exact (hrest p hp).le
    · rw [List.mem_singleton.mp hp]

theorem purged (h : Mirrors m s l) {m' : CacheStore}
    (hm : CacheStore.Purged (CacheStore.expiredKeys (fun _ => now) m.store.items) m m')
    (ht : SqliteCacheStore.Purged (SqliteCacheStore.expiredKeys (fun _ => now) 0 s.table.items) s t) :
    ∃ keys : List Key, Mirrors m' t (l.filter fun p => p.1 ∉ keys) := by
  set keys := CacheStore.expiredKeys (fun _ => now) m.store.items with hkeys
  have hperm : (SqliteCacheStore.expiredKeys (fun _ => now) 0 s.table.items).Perm keys := by
    have hl : keys = (l.filter fun p => (SqliteCacheStore.rowToEntry p.2).isExpired now).map Prod.fst := by
      rw [hkeys, h.items, CacheStore.expiredKeys_const, List.filter_map, List.map_map]
      rfl
    rw [hl, SqliteCacheStore.expiredKeys_const]
    exact (h.rows.filter _).map _
  refine ⟨keys, h.filter (fun k => k ∉ keys) ?_ ?_ ?_ hm.items ?_⟩
  · rw [hm.eq]
  · rw [ht.eq]
  · have hadd := congrArg (fun c : Counters => { c with expiredRemovals := c.expiredRemovals + keys.length })
      h.counters
    rw [hm.eq, ht.eq]
    simp only [hperm.length_eq]
    exact hadd
  · rw [ht.items]
    refine List.filter_congr fun p _ => ?_
    simp [hperm.mem_iff]

theorem snapshot (h : Mirrors m s l) (hm : m.Accounted) (hs : s.Accounted) :
    m.snapshot = s.snapshot := by
  have hlen : m.store.items.length = s.table.items.length := by
    rw [h.items, List.length_map, h.rows.length_eq]
  have hbytes : m.currentMemoryBytes = s.currentMemoryBytes := by
    rw [show m.currentMemoryBytes = _ from hm, hs.memory, SqliteCacheStore.sum_sizes_perm h.rows,
      ← sizes_toItem fun p hp => hs.sized p (h.rows.mem_iff.mpr hp), h.items]
    rfl
  have hc := h.counters
  simp only [CacheStore.counters, SqliteCacheStore.counters, Counters.mk.injEq] at hc
  simp only [CacheStore.snapshot, SqliteCacheStore.snapshot, hc, hbytes, h.limits, hs.count,
    OrderedDict.length, hlen]

theorem erased (h : Mirrors m s l) {m' : CacheStore} (hlm : m'.limits = m.limits)
    (hlt : t.limits = s.limits) (hc : m'.counters = t.counters)
    (hm : m'.store = m.store.erase key) (ht : t.table = s.table.erase key) :
    Mirrors m' t (l.filter fun p => p.1 ≠ key) :=
  h.filter (fun k => k ≠ key) hlm hlt hc (by rw [hm]; rfl) (by rw [ht]; rfl)

theorem expired (h : Mirrors m s l) (key : Key) (row : Row) :
    Mirrors (m.expire key (SqliteCacheStore.rowToEntry row)) (s.expire key row)
      (l.filter fun p => p.1 ≠ key) :=
  h.erased rfl rfl
    (congrArg (fun c : Counters => { c with expiredRemovals := c.expiredRemovals + 1 }) h.counters) rfl rfl

theorem writeAbsent (h : Mirrors m s l) (hm : m.Accounted) (hs : s.Accounted)
    (hbefore : Before now l) (hk : s.table.get? key = none) {st : CacheSetStatus}
    (hw : SqliteCacheStore.WriteOutcome s now now key value ttl none st t) :
    ∃ m', CacheStore.storeValueLocked now key value ttl none m = (.ok st, m') ∧
      ∃ l', Mirrors m' t l' ∧ Upto now l' := by
  have hk' := h.get?_none hk
  have hpopped : m.popped key = m := by rw [CacheStore.popped, OrderedDict.erase_of_none hk']
  have hw' : SqliteCacheStore.WriteOutcome (s.popped key (s.table.get? key)) now now key value ttl
      (s.table.get? key) st t := by
    rw [hk]
    exact hw
  have hwrite := h.write hm hs hbefore hw' fun _ => CacheStore.atEnd_of_none hk'
  rwa [hpopped, hk'] at hwrite

theorem follows_get (h : Mirrors m s l) (hbefore : Before now l) {reply : Reply}
    (hout : SqliteCacheStore.Outcome s (fun _ => now) (.client (.get key)) reply t) :
    Follows m (.get key) now reply t := by
  cases hout with
  | getMissing hv hk n =>
    have hrun : CacheStore.get (fun _ => now) key m = _ := CacheStore.get_missing hv (h.get?_none hk)
    refine ⟨_, CacheStore.call_get hrun, l, ⟨h.limits, ?_, h.rows, h.sorted, h.items⟩, hbefore.upto⟩
    exact congrArg (fun c : Counters => { c with misses := c.misses + 1 }) h.counters
  | @getExpired _ row hv hk hx n =>
    have hrun : CacheStore.get (fun _ => now) key m = _ :=
      CacheStore.get_expired hv (h.get?_some hk) hx
    refine ⟨_, CacheStore.call_get hrun, _, ⟨h.limits, ?_, (h.expired key row).rows,
      (h.expired key row).sorted, (h.expired key row).items⟩, (hbefore.filter _).upto⟩
    exact congrArg (fun c : Counters => { c with misses := c.misses + 1 }) (h.expired key row).counters
  | getHit hv hk hx n =>
    have hrun : CacheStore.get (fun _ => now) key m = _ := CacheStore.get_hit hv (h.get?_some hk) hx
    exact ⟨_, CacheStore.call_get hrun, h.get_hit hbefore hk n⟩

theorem follows_set (h : Mirrors m s l) (hm : m.Accounted) (hs : s.Accounted) (hbefore : Before now l)
    {reply : Reply}
    (hout : SqliteCacheStore.Outcome s (fun _ => now) (.client (.set key value ttl)) reply t)
    (hkeep : ¬ m.Displaces now (.set key value ttl)) : Follows m (.set key value ttl) now reply t := by
  cases hout with
  | @set _ _ _ st _ hv hw =>
    have hend : getsizeof value > m.limits.maxValueBytes → m.AtEnd key := by
      intro hsize
      by_contra hend
      exact hkeep ⟨hsize, hend⟩
    obtain ⟨m', hstore, hrest⟩ := h.write hm hs hbefore hw hend
    have hrun : CacheStore.set (fun _ => now) key value ttl m = (.ok st, m') := by
      rw [CacheStore.set_valid hv, hstore]
    exact ⟨m', CacheStore.call_set hrun, hrest⟩

theorem follows_setIfAbsent (h : Mirrors m s l) (hm : m.Accounted) (hs : s.Accounted)
    (hbefore : Before now l) {reply : Reply}
    (hout : SqliteCacheStore.Outcome s (fun _ => now) (.client (.setIfAbsent key value ttl)) reply t) :
    Follows m (.setIfAbsent key value ttl) now reply t := by
  cases hout with
  | setIfAbsentExists hv hk hx n =>
    have hrun : CacheStore.setIfAbsent (fun _ => now) key value ttl m = (.ok .exists_, m) :=
      CacheStore.setIfAbsent_exists hv (h.get?_some hk) hx
    exact ⟨m, CacheStore.call_setIfAbsent hrun, l, h.ticked n, hbefore.upto⟩
  | @setIfAbsentMissing _ _ _ st _ hv hk hw =>
    obtain ⟨m', hstore, hrest⟩ := h.writeAbsent hm hs hbefore hk hw
    have hrun : CacheStore.setIfAbsent (fun _ => now) key value ttl m =
        CacheStore.conditionally (.ok st, m') := by
      rw [CacheStore.setIfAbsent_missing hv (h.get?_none hk), hstore]
    exact ⟨m', CacheStore.call_setIfAbsent hrun, hrest⟩
  | @setIfAbsentExpired _ _ _ row st _ hv hk hx hw =>
    have hgone := SqliteCacheStore.without_accounted hk hs
    have hacc : (s.expire key row).Accounted := ⟨hgone.memory, hgone.count, hgone.sized⟩
    obtain ⟨m', hstore, hrest⟩ := (h.expired key row).writeAbsent
      (CacheStore.without_accounted (h.get?_some hk) hm) hacc (hbefore.filter _)
      (OrderedDict.get?_erase_self _ _) hw
    have hrun : CacheStore.setIfAbsent (fun _ => now) key value ttl m =
        CacheStore.conditionally (.ok st, m') := by
      rw [← hstore]
      exact CacheStore.setIfAbsent_expired hv (h.get?_some hk) hx
    exact ⟨m', CacheStore.call_setIfAbsent hrun, hrest⟩

theorem follows_compareAndSet (h : Mirrors m s l) (hm : m.Accounted) (hs : s.Accounted)
    (hbefore : Before now l) {expected : Bytes} {reply : Reply}
    (hout : SqliteCacheStore.Outcome s (fun _ => now) (.client (.compareAndSet key expected value ttl))
      reply t)
    (hkeep : ¬ m.Displaces now (.compareAndSet key expected value ttl)) :
    Follows m (.compareAndSet key expected value ttl) now reply t := by
  cases hout with
  | compareAndSetMissing hv hk n =>
    have hrun : CacheStore.compareAndSet (fun _ => now) key expected value ttl m = (.ok .notFound, m) :=
      CacheStore.compareAndSet_missing hv (h.get?_none hk)
    exact ⟨m, CacheStore.call_compareAndSet hrun, l, h.ticked n, hbefore.upto⟩
  | @compareAndSetExpired _ _ _ _ row hv hk hx n =>
    have hrun : CacheStore.compareAndSet (fun _ => now) key expected value ttl m = (.ok .notFound, _) :=
      CacheStore.compareAndSet_expired hv (h.get?_some hk) hx
    exact ⟨_, CacheStore.call_compareAndSet hrun, _, (h.expired key row).ticked n, (hbefore.filter _).upto⟩
  | compareAndSetMismatch hv hk hx hne n =>
    have hrun : CacheStore.compareAndSet (fun _ => now) key expected value ttl m = (.ok .mismatch, m) :=
      CacheStore.compareAndSet_mismatch hv (h.get?_some hk) hx hne
    exact ⟨m, CacheStore.call_compareAndSet hrun, l, h.ticked n, hbefore.upto⟩
  | @compareAndSetMatch _ _ _ _ row st _ hv hk hx he hw =>
    have hk' := h.get?_some hk
    have hw' : SqliteCacheStore.WriteOutcome (s.popped key (s.table.get? key)) now now key value ttl
        (s.table.get? key) st t := by
      rw [hk]
      exact hw
    have hend : getsizeof value > m.limits.maxValueBytes → m.AtEnd key := by
      intro hsize
      by_contra hend
      exact hkeep ⟨hsize, ⟨_, hk', hx, he⟩, hend⟩
    obtain ⟨m', hstore, hrest⟩ := h.write hm hs hbefore hw' hend
    rw [hk'] at hstore
    have hrun : CacheStore.compareAndSet (fun _ => now) key expected value ttl m =
        CacheStore.conditionally (.ok st, m') := by
      rw [← hstore]
      exact CacheStore.compareAndSet_match hv hk' hx he
    exact ⟨m', CacheStore.call_compareAndSet hrun, hrest⟩

theorem follows_delete (h : Mirrors m s l) (hbefore : Before now l) {reply : Reply}
    (hout : SqliteCacheStore.Outcome s (fun _ => now) (.client (.delete key)) reply t) :
    Follows m (.delete key) now reply t := by
  cases hout with
  | deleteMissing hv hk n =>
    exact ⟨m, CacheStore.call_delete (CacheStore.delete_missing hv (h.get?_none hk)), l, h.ticked n,
      hbefore.upto⟩
  | @deletePresent _ row hv hk n =>
    have hrun := CacheStore.delete_present hv (h.get?_some hk)
    exact ⟨_, CacheStore.call_delete hrun, _, ⟨h.limits, h.counters, (h.expired key row).rows,
      (h.expired key row).sorted, (h.expired key row).items⟩, (hbefore.filter _).upto⟩

theorem follows_stats (h : Mirrors m s l) (hm : m.Inv) (ht : t.Accounted) (hbefore : Before now l)
    {reply : Reply} (hout : SqliteCacheStore.Outcome s (fun _ => now) (.client .stats) reply t) :
    Follows m .stats now reply t := by
  cases hout with
  | stats hp =>
    obtain ⟨m', hpurge, hp'⟩ := CacheStore.removeExpiredEntriesLocked_apply (fun _ => now) m
    have hrun : CacheStore.stats (fun _ => now) m = (.ok m'.snapshot, m') := by
      simp [CacheStore.stats, Act.bind_of_ok hpurge]
    have hcall := CacheStore.call_stats hrun
    have hacc : m'.Accounted := by
      have hinv := CacheStore.step_inv hm ⟨.client .stats, fun _ => now⟩
      rw [show CacheStore.step m ⟨.client .stats, fun _ => now⟩ = _ from hcall] at hinv
      exact hinv.counted
    obtain ⟨keys, hmirrors⟩ := h.purged hp' hp
    rw [← hmirrors.snapshot hacc ht]
    exact ⟨m', hcall, _, hmirrors, (hbefore.filter _).upto⟩

/-- One operation, at one reading that is later than all before it. -/
theorem follows (h : Mirrors m s l) (hm : m.Inv) (hs : s.Accounted) (ht : t.Accounted)
    (hbefore : Before now l) {op : Op} {reply : Reply}
    (hout : SqliteCacheStore.Outcome s (fun _ => now) (.client op) reply t)
    (hkeep : ¬ m.Displaces now op) : Follows m op now reply t := by
  have hacc : m.Accounted := hm.counted
  cases op with
  | get key => exact h.follows_get hbefore hout
  | set key value ttl => exact h.follows_set hacc hs hbefore hout hkeep
  | setIfAbsent key value ttl => exact h.follows_setIfAbsent hacc hs hbefore hout
  | compareAndSet key expected value ttl => exact h.follows_compareAndSet hacc hs hbefore hout hkeep
  | delete key => exact h.follows_delete hbefore hout
  | stats => exact h.follows_stats hm ht hbefore hout
  | clear =>
    cases hout with
    | clear n =>
      refine ⟨_, rfl, [], ⟨h.limits, rfl, List.Perm.refl _, .nil, rfl⟩, ?_⟩
      intro p hp
      cases hp

end Mirrors

/-- An operation of the port at a single reading. -/
def CacheStore.perform (self : CacheStore) (p : Op × Time) : Except PyError Reply × CacheStore :=
  step self (p.1.atTime p.2)

def SqliteCacheStore.perform (db : Engine) (self : SqliteCacheStore) (p : Op × Time) :
    Except PyError Reply × SqliteCacheStore :=
  step db self (p.1.atTime p.2)

/-- The stores are alike, and what is still to come is later than what they have seen. -/
def Alike (rest : List (Op × Time)) (m : CacheStore) (s : SqliteCacheStore) : Prop :=
  m.Inv ∧ s.Accounted ∧ rest.Pairwise (fun p q => p.2 < q.2) ∧
    ∃ l, Mirrors m s l ∧ ∀ p ∈ rest, Before p.2 l

theorem Alike.step {db : Engine} (hdb : db.Reliable) {p : Op × Time} {rest : List (Op × Time)}
    {m : CacheStore} {s : SqliteCacheStore} (h : Alike (p :: rest) m s)
    (hkeep : ¬ m.Displaces p.2 p.1) :
    (m.perform p).1 = (s.perform db p).1 ∧ Alike rest (m.perform p).2 (s.perform db p).2 := by
  obtain ⟨op, now⟩ := p
  obtain ⟨hm, hs, htimes, l, hmirrors, hbefore⟩ := h
  rw [List.pairwise_cons] at htimes
  rw [List.forall_mem_cons] at hbefore
  have hm' := CacheStore.step_inv hm (op.atTime now)
  rcases hstep : SqliteCacheStore.step db s (op.atTime now) with ⟨x | reply, t⟩
  · obtain ⟨op', key, y, haction, hk, hv⟩ := (SqliteCacheStore.step_accounted hs hstep).2 x rfl hdb
    obtain rfl : op = op' := Action.client.inj haction
    have hrun : SqliteCacheStore.step db s (op.atTime now) = (.error y, s) :=
      SqliteCacheStore.call_invalid hk hv
    have hrun' : m.perform (op, now) = (.error y, m) := CacheStore.call_invalid hk hv
    rw [hrun', SqliteCacheStore.perform, hrun]
    exact ⟨rfl, hm, hs, htimes.2, l, hmirrors, hbefore.2⟩
  · have hacc := (SqliteCacheStore.step_accounted hs hstep).1
    obtain ⟨m', hcall, l', hmirrors', hupto⟩ := hmirrors.follows hm hs hacc hbefore.1
      (SqliteCacheStore.step_ok hs hstep) hkeep
    have hrun : m.perform (op, now) = (.ok reply, m') := hcall
    rw [hrun, SqliteCacheStore.perform, hstep]
    refine ⟨rfl, ?_, hacc, htimes.2, l', hmirrors', ?_⟩
    · rw [show CacheStore.step m (op.atTime now) = (.ok reply, m') from hcall] at hm'
      exact hm'
    · intro q hq p hp
      exact (hupto p hp).trans_lt (htimes.1 q hq)

/-- A reliable engine opens a store for all limits that are accepted. -/
theorem SqliteCacheStore.init_returns {db : Engine} (hdb : db.Reliable) {args : LimitArgs}
    {limits : CacheStoreLimits} (h : CacheStoreLimits.resolve args = .ok limits) :
    ∃ s c, init db args .new = (.ok s, c) ∧ s.limits = limits ∧ s.counters = ⟨0, 0, 0, 0, 0, 0, 0⟩ := by
  have hexec : ∀ {α : Type} (f : ℕ → Table → α × Table) (c : Connection),
      Connection.execute db f c = (.ok (f c.statements c.table).1,
        ⟨(f c.statements c.table).2, c.statements + 1⟩) := by
    intro α f c
    rw [Connection.execute, hdb]
    rfl
  simp [init, Act.bind_apply, h, Connection.pragma, Connection.createTable,
    Connection.selectTotalBytes, Connection.selectCount, hexec, counters]

/-- On the same operations, each at a reading of its own that is later than those before,
the backends give the same replies, as long as memory puts no old item back at another
place in the order than it had. -/
theorem backends_agree {db : Engine} (hdb : db.Reliable) {args : LimitArgs} {m₀ : CacheStore}
    (hargs : CacheStore.new args = .ok m₀) {l : List (Op × Time)}
    (htimes : l.Pairwise fun p q => p.2 < q.2)
    (hkeep : ∀ r ∈ trace CacheStore.perform m₀ l, ¬ r.before.Displaces r.input.2 r.input.1) :
    ∃ s₀ c, SqliteCacheStore.init db args .new = (.ok s₀, c) ∧
      outputs CacheStore.perform m₀ l = outputs (SqliteCacheStore.perform db) s₀ l := by
  obtain ⟨hlimits, hm₀⟩ := CacheStore.new_ok hargs
  obtain ⟨s₀, c, hinit, hs₀, hcounters⟩ := SqliteCacheStore.init_returns hdb hlimits
  obtain ⟨-, htable, -⟩ := SqliteCacheStore.init_ok hinit
  refine ⟨s₀, c, hinit, ?_⟩
  have halike : Alike l m₀ s₀ := by
    refine ⟨?_, (SqliteCacheStore.init_new hinit).1, htimes, [], ⟨hs₀.symm, ?_, ?_, .nil, ?_⟩, ?_⟩
    · rw [hm₀]
      exact CacheStore.init_inv _
    · rw [hcounters, hm₀]
      rfl
    · rw [htable]
      exact List.Perm.refl _
    · rw [hm₀]
      rfl
    · intro p _ q hq
      cases hq
  exact outputs_eq_of_simulation (C := fun m p => ¬ m.Displaces p.2 p.1)
    (fun _ _ _ _ h hc => h.step hdb hc) l halike hkeep

/-- The write for `b` is turned away while `b` is the last in the order. -/
theorem backends_agree_run :
    ∃ s₀ c, SqliteCacheStore.init ⟨fun _ => false, fun _ => 0⟩ ⟨some 2, some 1, some 10, some 40⟩ .new =
        (.ok s₀, c) ∧
      outputs CacheStore.perform (.init (.small 1))
          [(.set "a" [1] none, 0), (.set "b" [2] (some 2), 1),
            (.set "b" [0, 0, 0, 0, 0, 0, 0, 0] none, 2), (.set "c" [3] none, 3), (.stats, 4)] =
        outputs (SqliteCacheStore.perform ⟨fun _ => false, fun _ => 0⟩) s₀
          [(.set "a" [1] none, 0), (.set "b" [2] (some 2), 1),
            (.set "b" [0, 0, 0, 0, 0, 0, 0, 0] none, 2), (.set "c" [3] none, 3), (.stats, 4)] := by
  have hkeep : ∀ r ∈ trace CacheStore.perform (.init (.small 1))
      [(.set "a" [1] none, 0), (.set "b" [2] (some 2), 1),
        (.set "b" [0, 0, 0, 0, 0, 0, 0, 0] none, 2), (.set "c" [3] none, 3), (.stats, 4)],
      ¬ r.before.Displaces r.input.2 r.input.1 := by
    simp only [trace, List.forall_mem_cons]
    refine ⟨?_, ?_, ?_, ?_, ?_, List.forall_mem_nil _⟩
    · exact fun h => absurd h.1 (by decide)
    · exact fun h => absurd h.1 (by decide)
    · exact fun h => h.2 fun _ => rfl
    · exact fun h => absurd h.1 (by decide)
    · exact fun h => h
  exact backends_agree (fun _ => rfl) rfl (by norm_num) hkeep

/-- The write for `a` is turned away, `a` moves behind `b` in memory only, and `c` then
evicts another key in memory than in SQLite. -/
theorem backends_disagree :
    ¬ ∀ (db : Engine) (args : LimitArgs) (m₀ : CacheStore) (s₀ : SqliteCacheStore) (c : Connection)
      (l : List (Op × Time)), db.Reliable → CacheStore.new args = .ok m₀ →
        SqliteCacheStore.init db args .new = (.ok s₀, c) → l.Pairwise (fun p q => p.2 < q.2) →
        outputs CacheStore.perform m₀ l = outputs (SqliteCacheStore.perform db) s₀ l := by
  intro h
  have hsame := h ⟨fun _ => false, fun _ => 0⟩ ⟨some 2, some 1, some 10, some 40⟩ _ _ _
    [(.set "a" [1] none, 0), (.set "b" [2] none, 1), (.set "a" [0, 0, 0, 0, 0, 0, 0, 0] none, 2),
      (.set "c" [3] none, 3), (.get "a", 4)] (fun _ => rfl) rfl rfl (by norm_num)
  exact absurd (congrArg (fun l => l[4]?) hsame) (by decide)

end TinyCache
