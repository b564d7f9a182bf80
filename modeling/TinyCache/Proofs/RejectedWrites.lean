import TinyCache.Proofs.MemoryLimits
import TinyCache.Proofs.SqliteAccounting

/-! What a rejected write leaves behind. The old entry is taken out before the size of the
new value is looked at, and put back by hand: in the dictionary at its end, in the table
with all its columns, under a new rowid. -/

namespace TinyCache

open Machine

theorem ne_ok_of_rejects {st : CacheSetStatus} (h : (Reply.status st).Rejects) : st ≠ .ok := by
  rintro rfl
  rcases h with h | h <;> cases h

theorem ne_ok_of_conditional_rejects {st : CacheSetStatus}
    (h : (Reply.conditional (conditionalStatusFromSetStatus st)).Rejects) : st ≠ .ok := by
  rintro rfl
  rcases h with h | h <;> cases h

theorem forall_key? {op : Op} {k : Key} (hk : op.key? = some k) (P : Key → Prop) :
    P k ↔ ∀ key, op.key? = some key → P key := by
  simp [hk]

namespace CacheStore

variable {s t : CacheStore} {key : Key}

/-- Nothing but the counters of rejections differs; the store is compared with its order. -/
structure Unchanged (s t : CacheStore) : Prop where
  store : t.store = s.store
  bytes : t.currentMemoryBytes = s.currentMemoryBytes
  hits : t.hits = s.hits
  misses : t.misses = s.misses
  evictions : t.evictions = s.evictions
  lruEvictions : t.lruEvictions = s.lruEvictions
  expiredRemovals : t.expiredRemovals = s.expiredRemovals

/-- The key is the last in the order, if it is in the store at all. -/
def AtEnd (s : CacheStore) (key : Key) : Prop :=
  key ∈ s.store.keys → s.store.keys.getLast? = some key

theorem atEnd_of_none (h : s.store.get? key = none) : s.AtEnd key :=
  fun hm => absurd hm (OrderedDict.get?_eq_none.mp h)

theorem unchanged_iff (s : CacheStore) (key : Key) (rejected : ℕ) :
    Unchanged s { s.popped key with
      store := ((s.store.get? key).map fun e => (s.popped key).store.set key e).getD
        (s.popped key).store
      rejectedOversize := rejected } ↔ s.AtEnd key := by
  cases hk : s.store.get? key with
  | none =>
    refine iff_of_true ⟨OrderedDict.erase_of_none hk, rfl, rfl, rfl, rfl, rfl, rfl⟩ ?_
    exact atEnd_of_none hk
  | some e =>
    have hput : (s.popped key).store.set key e = s.store.putLast key e := by
      have hnone : (s.store.erase key).get? key = none := OrderedDict.get?_erase_self _ _
      change (s.store.erase key).set key e = _
      rw [OrderedDict.set_of_none hnone]
      apply OrderedDict.ext
      rw [OrderedDict.putLast_of_none hnone, OrderedDict.putLast_items]
    have hmem : key ∈ s.store.keys := OrderedDict.mem_keys.mpr (by rw [hk]; rfl)
    rw [Option.map_some, Option.getD_some, hput]
    constructor
    · exact fun h _ => (OrderedDict.putLast_eq_self hk).mp h.store
    · exact fun h => ⟨(OrderedDict.putLast_eq_self hk).mpr (h hmem), rfl, rfl, rfl, rfl, rfl, rfl⟩

theorem WriteOutcome.unchanged {now : Time} {value : Bytes} {ttl : Option ℤ} {st : CacheSetStatus}
    (h : WriteOutcome (s.popped key) now key value ttl (s.store.get? key) st t) (hst : st ≠ .ok) :
    Unchanged s t ↔ s.AtEnd key := by
  cases h with
  | tooLarge => exact unchanged_iff s key _
  | stored => exact absurd rfl hst

/-- A rejected write changes nothing exactly if its key is absent or the last in the order. -/
theorem Outcome.unchanged {clock : ℕ → Time} {op : Op} {reply : Reply}
    (h : Outcome s clock (.client op) (.ok reply) t) (hrej : reply.Rejects)
    (habsent : ∀ key value ttl, op = .setIfAbsent key value ttl → s.store.get? key = none) :
    Unchanged s t ↔ ∀ key, op.key? = some key → s.AtEnd key := by
  cases h with
  | set hv hw => exact (hw.unchanged (ne_ok_of_rejects hrej)).trans (forall_key? rfl _)
  | @setIfAbsentMissing key value ttl st _ hv hk hw =>
    have hpopped : s.popped key = s := by rw [popped, OrderedDict.erase_of_none hk]
    have hw' : WriteOutcome (s.popped key) (clock 1) key value ttl (s.store.get? key) st t := by
      rw [hpopped, hk]
      exact hw
    exact (hw'.unchanged (ne_ok_of_conditional_rejects hrej)).trans (forall_key? rfl _)
  | setIfAbsentExpired hv hk hx hw =>
    rw [habsent _ _ _ rfl] at hk
    cases hk
  | compareAndSetMatch hv hk hx he hw =>
    rw [← hk] at hw
    exact (hw.unchanged (ne_ok_of_conditional_rejects hrej)).trans (forall_key? rfl _)
  | _ => simp [Reply.Rejects] at hrej

end CacheStore

namespace SqliteCacheStore

variable {s t : SqliteCacheStore} {key : Key}

/-- Nothing but the counters of rejections and the rowids differs. -/
structure Unchanged (s t : SqliteCacheStore) : Prop where
  rows : t.table.items.Perm s.table.items
  bytes : t.currentMemoryBytes = s.currentMemoryBytes
  count : t.entryCount = s.entryCount
  hits : t.hits = s.hits
  misses : t.misses = s.misses
  evictions : t.evictions = s.evictions
  lruEvictions : t.lruEvictions = s.lruEvictions
  expiredRemovals : t.expiredRemovals = s.expiredRemovals

/-- An order in which evictions may take the rows, one of the oldest each time. -/
def EvictionOrder (s : SqliteCacheStore) (l : List (Key × Row)) : Prop :=
  s.table.items.Perm l ∧ l.Pairwise fun p q => p.2.lastAccessed ≤ q.2.lastAccessed

/-- `p` is evicted before `q` if rows of the same last access go by their rowids, of which
the statement says nothing. -/
def GoesBefore (s : SqliteCacheStore) (p q : Key × Row) : Prop :=
  p.2.lastAccessed < q.2.lastAccessed ∨
    p.2.lastAccessed = q.2.lastAccessed ∧ [p, q].Sublist s.table.items

/-- No row with a larger rowid than that of the key has the same last access. -/
def NoTie (s : SqliteCacheStore) (key : Key) : Prop :=
  ∀ row, s.table.get? key = some row → ∀ q, [(key, row), q].Sublist s.table.items →
    q.2.lastAccessed ≠ row.lastAccessed

theorem Unchanged.evictionOrder (h : Unchanged s t) (l : List (Key × Row)) :
    t.EvictionOrder l ↔ s.EvictionOrder l :=
  and_congr_left' ⟨fun hl => h.rows.symm.trans hl, fun hl => h.rows.trans hl⟩

/-- The row is put back behind the others, so it loses its place exactly to those it is tied with. -/
theorem goesBefore_iff {row : Row} (hk : s.table.get? key = some row)
    (ht : t.table.items = (s.table.putLast key row).items) :
    (∀ p q, t.GoesBefore p q ↔ s.GoesBefore p q) ↔ s.NoTie key := by
  have hmem : (key, row) ∈ s.table.items := OrderedDict.get?_eq_some.mp hk
  have hkey : ∀ p ∈ s.table.items, p.1 = key → p = (key, row) := fun p hp he =>
    List.inj_on_of_nodup_map s.table.nodup hp hmem he
  unfold GoesBefore
  rw [ht]
  constructor
  · intro h row' hrow q hq he
    obtain rfl : row = row' := Option.some.inj (hk.symm.trans hrow)
    rcases (h (key, row) q).mpr (Or.inr ⟨he.symm, hq⟩) with hlt | ⟨-, hsub⟩
    · exact absurd he.symm hlt.ne
    · rcases OrderedDict.pair_sublist_putLast.mp hsub with ⟨-, hne, -⟩ | ⟨-, hne, -⟩
      · exact hne rfl
      · exact hne rfl
  · intro h p q
    refine or_congr_right (and_congr_right fun he => ?_)
    rw [OrderedDict.pair_sublist_putLast]
    constructor
    · rintro (⟨hsub, -⟩ | ⟨hp, hne, rfl⟩)
      · exact hsub
      · have hpq : p ≠ (key, row) := fun hpq => hne (congrArg Prod.fst hpq)
        rcases OrderedDict.pair_sublist_total hp hmem hpq with hsub | hsub
        · exact hsub
        · exact absurd he (h row hk p hsub)
    · intro hsub
      have hp : p ∈ s.table.items := hsub.subset (by simp)
      have hq : q ∈ s.table.items := hsub.subset (by simp)
      by_cases hpk : p.1 = key
      · obtain rfl := hkey p hp hpk
        exact absurd he.symm (h row hk q hsub)
      · by_cases hqk : q.1 = key
        · exact Or.inr ⟨hp, hpk, hkey q hq hqk⟩
        · exact Or.inl ⟨hsub, hpk, hqk⟩

theorem unchanged (s : SqliteCacheStore) (key : Key) (rejected n : ℕ) :
    let t := ticked { (s.popped key (s.table.get? key)).restored key (s.table.get? key) with
      rejectedOversize := rejected } n
    Unchanged s t ∧ ((∀ p q, t.GoesBefore p q ↔ s.GoesBefore p q) ↔ s.NoTie key) := by
  cases hk : s.table.get? key with
  | none =>
    refine ⟨⟨List.Perm.refl _, rfl, rfl, rfl, rfl, rfl, rfl, rfl⟩, iff_of_true (fun _ _ => Iff.rfl) ?_⟩
    intro row hrow
    rw [hk] at hrow
    cases hrow
  | some row =>
    have hput : ((s.table.erase key).putLast key row).items = (s.table.putLast key row).items := by
      rw [OrderedDict.putLast_of_none (OrderedDict.get?_erase_self _ _), OrderedDict.putLast_items]
    refine ⟨⟨?_, ?_, ?_, rfl, rfl, rfl, rfl, rfl⟩, goesBefore_iff hk hput⟩
    · change ((s.table.erase key).putLast key row).items.Perm _
      rw [hput, OrderedDict.putLast_items]
      exact (List.perm_append_singleton _ _).trans (OrderedDict.perm_erase hk).symm
    · exact sub_add_cancel _ _
    · exact sub_add_cancel _ _

theorem WriteOutcome.unchanged {created accessed : Time} {value : Bytes} {ttl : Option ℤ}
    {st : CacheSetStatus}
    (h : WriteOutcome (s.popped key (s.table.get? key)) created accessed key value ttl
      (s.table.get? key) st t) (hst : st ≠ .ok) :
    Unchanged s t ∧ ((∀ p q, t.GoesBefore p q ↔ s.GoesBefore p q) ↔ s.NoTie key) := by
  cases h with
  | tooLarge => exact SqliteCacheStore.unchanged s key _ _
  | stored => exact absurd rfl hst

/-- A rejected write changes no row but the rowid of the one it puts back. -/
theorem Outcome.unchanged {clock : ℕ → Time} {op : Op} {reply : Reply}
    (h : Outcome s clock (.client op) reply t) (hrej : reply.Rejects)
    (habsent : ∀ key value ttl, op = .setIfAbsent key value ttl → s.table.get? key = none) :
    Unchanged s t ∧ ((∀ p q, t.GoesBefore p q ↔ s.GoesBefore p q) ↔
      ∀ key, op.key? = some key → s.NoTie key) := by
  cases h with
  | @set key _ _ _ _ hv hw =>
    rw [← forall_key? rfl s.NoTie]
    exact hw.unchanged (ne_ok_of_rejects hrej)
  | @setIfAbsentMissing key value ttl st _ hv hk hw =>
    have hw' : WriteOutcome (s.popped key (s.table.get? key)) (clock 1) (clock 2) key value ttl
        (s.table.get? key) st t := by
      rw [hk]
      exact hw
    rw [← forall_key? rfl s.NoTie]
    exact hw'.unchanged (ne_ok_of_conditional_rejects hrej)
  | setIfAbsentExpired hv hk =>
    rw [habsent _ _ _ rfl] at hk
    cases hk
  | @compareAndSetMatch key _ value ttl row st _ hv hk hx he hw =>
    have hw' : WriteOutcome (s.popped key (s.table.get? key)) (clock 1) (clock 2) key value ttl
        (s.table.get? key) st t := by
      rw [hk]
      exact hw
    rw [← forall_key? rfl s.NoTie]
    exact hw'.unchanged (ne_ok_of_conditional_rejects hrej)
  | _ => simp [Reply.Rejects] at hrej

end SqliteCacheStore

/-- A write that either backend rejects, in any state it can reach. In memory it changes
nothing but its counter exactly if the key is absent or the last in the order; in SQLite it
changes no column of any row and so no eviction order, unless ties go by rowid and the key
was tied. -/
theorem rejected_write_changes_nothing (op : Op) (clock : ℕ → Time) {reply : Reply}
    (hrej : reply.Rejects) :
    (∀ limits events s t, exec CacheStore.step (.init limits) events = s →
      CacheStore.step s ⟨.client op, clock⟩ = (.ok reply, t) →
      (∀ key value ttl, op = .setIfAbsent key value ttl → s.store.get? key = none) →
      (CacheStore.Unchanged s t ↔ ∀ key, op.key? = some key → s.AtEnd key)) ∧
    ∀ db events s t, exec (World.step db) World.new events = .opened s →
      SqliteCacheStore.step db s ⟨.client op, clock⟩ = (.ok reply, t) →
      (∀ key value ttl, op = .setIfAbsent key value ttl → s.table.get? key = none) →
      SqliteCacheStore.Unchanged s t ∧ (∀ l, t.EvictionOrder l ↔ s.EvictionOrder l) ∧
        ((∀ p q, t.GoesBefore p q ↔ s.GoesBefore p q) ↔ ∀ key, op.key? = some key → s.NoTie key) := by
  refine ⟨?_, ?_⟩
  · intro limits events s t hs hstep habsent
    have hinv := (CacheStore.exec_inv limits events).1
    rw [hs] at hinv
    have hout := CacheStore.step_outcome hinv.counted ⟨.client op, clock⟩
    rw [hstep] at hout
    exact hout.unchanged hrej habsent
  · intro db events s t hs hstep habsent
    have hsound := World.exec_sound db events
    rw [hs] at hsound
    obtain ⟨hunchanged, hties⟩ :=
      (SqliteCacheStore.step_ok hsound hstep).unchanged hrej habsent
    exact ⟨hunchanged, hunchanged.evictionOrder, hties⟩

/-- The value for `b`, the last in the order, is too large; so is the one for the only row. -/
theorem rejected_write_changes_nothing_run :
    (∃ s t, exec CacheStore.step (.init (.small 1))
        [(Op.set "a" [1] none).atTime 0, (Op.set "b" [2] none).atTime 1] = s ∧
      CacheStore.step s ((Op.set "b" [0, 0, 0, 0, 0, 0, 0, 0] none).atTime 2) =
        (.ok (.status .valueTooLarge), t) ∧
      (CacheStore.Unchanged s t ↔
        ∀ key, (Op.set "b" [0, 0, 0, 0, 0, 0, 0, 0] none).key? = some key → s.AtEnd key)) ∧
    ∃ s t, exec (World.step ⟨fun _ => false, fun _ => 0⟩) World.new
        [.reopen ⟨some 2, some 1, some 10, some 40⟩, .call ((Op.set "a" [1] none).atTime 0)] =
        .opened s ∧
      SqliteCacheStore.step ⟨fun _ => false, fun _ => 0⟩ s
        ((Op.set "a" [0, 0, 0, 0, 0, 0, 0, 0] none).atTime 2) = (.ok (.status .valueTooLarge), t) ∧
      SqliteCacheStore.Unchanged s t := by
  have hrej : (Reply.status .valueTooLarge).Rejects := Or.inl rfl
  refine ⟨⟨_, _, rfl, rfl, ?_⟩, ?_⟩
  · exact (rejected_write_changes_nothing _ (fun _ => 2) hrej).1 (.small 1) _ _ _ rfl rfl (by simp)
  · have hs : exec (World.step ⟨fun _ => false, fun _ => 0⟩) World.new
        [.reopen ⟨some 2, some 1, some 10, some 40⟩, .call ((Op.set "a" [1] none).atTime 0)] =
        .opened _ := rfl
    refine ⟨_, _, hs, rfl, ?_⟩
    exact ((rejected_write_changes_nothing (.set "a" [0, 0, 0, 0, 0, 0, 0, 0] none) (fun _ => 2) hrej).2
      _ _ _ _ hs rfl (by simp)).1

/-- The value for `a` is too large, and `a` moves behind `b`. -/
theorem rejected_write_changes_order :
    ¬ ∀ limits events op clock reply t,
      CacheStore.step (exec CacheStore.step (.init limits) events) ⟨.client op, clock⟩ =
        (.ok reply, t) → reply.Rejects → (∀ key value ttl, op ≠ .setIfAbsent key value ttl) →
      CacheStore.Unchanged (exec CacheStore.step (.init limits) events) t := by
  intro h
  have hsame := h (.small 1) [(Op.set "a" [1] none).atTime 0, (Op.set "b" [2] none).atTime 1]
    (.set "a" [0, 0, 0, 0, 0, 0, 0, 0] none) (fun _ => 2) (.status .valueTooLarge) _ rfl (Or.inl rfl)
    (by simp)
  exact absurd (congrArg OrderedDict.keys hsame.store) (by decide)

end TinyCache
