import Mathlib.Data.Finset.Max
import Mathlib.Algebra.Order.BigOperators.Group.List
import TinyCache.Library.Trim
import TinyCache.Spec.SqliteStore

/-! What each method of the SQLite store has done when it returns. Nothing here assumes
that the engine does not raise, or that equal rows are told apart in some way. -/

namespace TinyCache.SqliteCacheStore

open Connection

def sizes (items : List (Key × Row)) : List ℤ := items.map fun p => p.2.sizeBytes

@[simp] theorem sizes_nil : sizes [] = [] := rfl

@[simp] theorem sizes_cons (p : Key × Row) (l : List (Key × Row)) :
    sizes (p :: l) = p.2.sizeBytes :: sizes l := rfl

@[simp] theorem length_sizes (l : List (Key × Row)) : (sizes l).length = l.length := List.length_map _

@[simp] theorem sizes_append (l l' : List (Key × Row)) : sizes (l ++ l') = sizes l ++ sizes l' :=
  List.map_append

theorem sum_sizes_perm {l l' : List (Key × Row)} (h : l.Perm l') : (sizes l).sum = (sizes l').sum :=
  (h.map _).sum_eq

/-- The counters are those of the table, and the table's sizes those of its values. -/
structure Accounted (s : SqliteCacheStore) : Prop where
  memory : s.currentMemoryBytes = (sizes s.table.items).sum
  count : s.entryCount = s.table.length
  sized : ∀ p ∈ s.table.items, p.2.sizeBytes = getsizeof p.2.value

/-- The store after other statements that changed nothing: the count of statements
drives only the engine, so what a method does is said up to it. -/
def ticked (s : SqliteCacheStore) (n : ℕ) : SqliteCacheStore := { s with connection := ⟨s.table, n⟩ }

def withTable (s : SqliteCacheStore) (table : Table) : SqliteCacheStore :=
  { s with connection := { s.connection with table := table } }

/-- What a client can find in the table. -/
def entries (s : SqliteCacheStore) (key : Key) : Option CacheEntry :=
  (s.table.get? key).map rowToEntry

theorem Accounted.ticked {s : SqliteCacheStore} (h : s.Accounted) (n : ℕ) : (s.ticked n).Accounted :=
  ⟨h.memory, h.count, h.sized⟩

variable {db : Engine} {s t : SqliteCacheStore}

theorem sql_ok {α : Type} {f : ℕ → Table → α × Table} {a : α} (h : sql (execute db f) s = (.ok a, t)) :
    db.raises s.connection.statements = false ∧ a = (f s.connection.statements s.table).1 ∧
      t = (s.withTable (f s.connection.statements s.table).2).ticked (s.connection.statements + 1) := by
  unfold sql Act.zoom execute at h
  cases hr : db.raises s.connection.statements with
  | true => simp [hr] at h
  | false =>
    simp only [hr, Bool.false_eq_true, if_false, Prod.mk.injEq, Except.ok.injEq] at h
    exact ⟨rfl, h.1.symm, h.2.symm⟩

theorem sql_error {α : Type} {f : ℕ → Table → α × Table} {x : PyError}
    (h : sql (execute db f) s = (.error x, t)) :
    db.raises s.connection.statements = true ∧ x = .sqliteError ∧
      t = s.ticked (s.connection.statements + 1) := by
  unfold sql Act.zoom execute at h
  cases hr : db.raises s.connection.statements with
  | false => simp [hr] at h
  | true =>
    simp only [hr, if_true, Prod.mk.injEq, Except.error.injEq] at h
    exact ⟨rfl, h.1.symm, h.2.symm⟩

theorem getRowLocked_ok {key : Key} {r : Option Row} (h : getRowLocked db key s = (.ok r, t)) :
    r = s.table.get? key ∧ ∃ n, t = s.ticked n := by
  obtain ⟨-, hr, ht⟩ := sql_ok h
  exact ⟨hr, _, ht⟩

/-- The store after `_remove_entry_locked` of a present row. -/
def without (s : SqliteCacheStore) (key : Key) (row : Row) : SqliteCacheStore :=
  { s.withTable (s.table.erase key) with
    currentMemoryBytes := s.currentMemoryBytes - row.sizeBytes
    entryCount := s.entryCount - 1 }

/-- The store after `_remove_expired_entry_locked` of a present row. -/
def expire (s : SqliteCacheStore) (key : Key) (row : Row) : SqliteCacheStore :=
  { s.without key row with expiredRemovals := s.expiredRemovals + 1 }

theorem without_accounted {key : Key} {row : Row} (h : s.table.get? key = some row)
    (hs : s.Accounted) : (s.without key row).Accounted := by
  have hsum := sum_sizes_perm (OrderedDict.perm_erase h)
  have hlen := OrderedDict.length_erase h
  have hm := hs.memory
  have hc := hs.count
  rw [sizes_cons, List.sum_cons] at hsum
  refine ⟨?_, ?_, ?_⟩
  · change s.currentMemoryBytes - row.sizeBytes = (sizes (s.table.erase key).items).sum
    rw [hm, hsum]
    exact add_sub_cancel_left _ _
  · change s.entryCount - 1 = (s.table.erase key).length
    rw [hc, hlen]
    push_cast
    exact add_sub_cancel_right _ _
  · intro p hp
    exact hs.sized p (OrderedDict.mem_erase.mp hp).1

theorem removeEntryLocked_ok {key : Key} {b : Bool} (h : removeEntryLocked db key s = (.ok b, t)) :
    (s.table.get? key = none ∧ b = false ∧ ∃ n, t = s.ticked n) ∨
      ∃ row, s.table.get? key = some row ∧ b = true ∧ ∃ n, t = (s.without key row).ticked n := by
  unfold removeEntryLocked at h
  obtain ⟨r, u, hu, h⟩ := Act.bind_ok h
  obtain ⟨hr, m, rfl⟩ := getRowLocked_ok hu
  cases hk : s.table.get? key with
  | none =>
    rw [hr, hk] at h
    cases h
    exact Or.inl ⟨rfl, rfl, _, rfl⟩
  | some row =>
    rw [hr, hk] at h
    obtain ⟨_, v, hv, h⟩ := Act.bind_ok h
    obtain ⟨-, -, rfl⟩ := sql_ok hv
    cases h
    exact Or.inr ⟨row, rfl, rfl, _, rfl⟩

theorem removeEntryLocked_error {key : Key} {x : PyError}
    (h : removeEntryLocked db key s = (.error x, t)) : ∃ n, t = s.ticked n := by
  rcases Act.bind_error h with h | ⟨r, u, hu, h⟩
  · exact ⟨_, (sql_error h).2.2⟩
  · obtain ⟨-, n, rfl⟩ := getRowLocked_ok hu
    cases r with
    | none => cases h
    | some row =>
      rcases Act.bind_error h with h | ⟨_, v, hv, h⟩
      · exact ⟨_, (sql_error h).2.2⟩
      · cases h

theorem removeExpiredEntryLocked_ok {key : Key} {row : Row} {b : Bool}
    (hk : s.table.get? key = some row) (h : removeExpiredEntryLocked db key s = (.ok b, t)) :
    ∃ n, t = (s.expire key row).ticked n := by
  unfold removeExpiredEntryLocked at h
  obtain ⟨r, u, hu, h⟩ := Act.bind_ok h
  rcases removeEntryLocked_ok hu with ⟨hnone, -⟩ | ⟨row', hrow, rfl, n, rfl⟩
  · rw [hk] at hnone
    cases hnone
  · obtain rfl : row = row' := Option.some.inj (hk.symm.trans hrow)
    cases h
    exact ⟨_, rfl⟩

/-- The store after a row that no other is older than is evicted. -/
structure Evicted (item : Key × Row) (s t : SqliteCacheStore) : Prop where
  mem : item ∈ s.table.items
  least : ∀ p ∈ s.table.items, item.2.lastAccessed ≤ p.2.lastAccessed
  eq : ∃ n, t = ticked { s.without item.1 item.2 with
    evictions := s.evictions + 1
    lruEvictions := s.lruEvictions + 1 } n

theorem mem_oldest {table : Table} {p : Key × Row} :
    p ∈ oldest table ↔ p ∈ table.items ∧ ∀ q ∈ table.items, p.2.lastAccessed ≤ q.2.lastAccessed := by
  simp [oldest]

theorem oldest_ne_nil {table : Table} (h : table.items ≠ []) : oldest table ≠ [] := by
  obtain ⟨p, hp, hleast⟩ := table.items.toFinset.exists_min_image (fun p => p.2.lastAccessed)
    (List.toFinset_nonempty_iff _ |>.mpr h)
  refine List.ne_nil_of_mem (mem_oldest.mpr ⟨List.mem_toFinset.mp hp, ?_⟩)
  exact fun q hq => hleast q (List.mem_toFinset.mpr hq)

theorem evictLruLocked_ok {b : Bool} (h : evictLruLocked db s = (.ok b, t)) :
    (b = false ∧ s.table.items = [] ∧ ∃ n, t = s.ticked n) ∨ (b = true ∧ ∃ item, Evicted item s t) := by
  unfold evictLruLocked at h
  obtain ⟨r, u, hu, h⟩ := Act.bind_ok h
  obtain ⟨-, hr, rfl⟩ := sql_ok hu
  by_cases hnil : s.table.items = []
  · have hold : oldest s.table = [] := by simp [oldest, hnil]
    rw [hold] at hr
    simp only [List.getElem?_nil, Option.map_none] at hr
    subst hr
    cases h
    exact Or.inl ⟨rfl, hnil, _, rfl⟩
  · have hlen := List.length_pos_of_ne_nil (oldest_ne_nil hnil)
    have hlt := Nat.mod_lt (db.tie s.connection.statements) hlen
    simp only [List.getElem?_eq_getElem hlt, Option.map_some] at hr
    have hmem := List.getElem_mem hlt
    set p := (oldest s.table)[db.tie s.connection.statements % (oldest s.table).length] with hp
    obtain ⟨hmem, hleast⟩ := mem_oldest.mp hmem
    subst hr
    obtain ⟨b', v, hv, h⟩ := Act.bind_ok h
    have hget : s.table.get? p.1 = some p.2 := OrderedDict.get?_eq_some.mpr hmem
    rcases removeEntryLocked_ok hv with ⟨hnone, -⟩ | ⟨row, hrow, rfl, n, rfl⟩
    · rw [show s.table.get? p.1 = none from hnone] at hget
      cases hget
    · obtain rfl : p.2 = row := Option.some.inj (hget.symm.trans hrow)
      cases h
      exact Or.inr ⟨rfl, p, hmem, hleast, _, rfl⟩

theorem evictLruLocked_error {x : PyError} (h : evictLruLocked db s = (.error x, t)) :
    ∃ n, t = s.ticked n := by
  rcases Act.bind_error h with h | ⟨r, u, hu, h⟩
  · exact ⟨_, (sql_error h).2.2⟩
  · obtain ⟨-, -, rfl⟩ := sql_ok hu
    cases r with
    | none => cases h
    | some key =>
      rcases Act.bind_error h with h | ⟨b, v, hv, h⟩
      · obtain ⟨n, rfl⟩ := removeEntryLocked_error h
        exact ⟨n, rfl⟩
      · cases b <;> cases h

/-- The store after the rows `gone` are evicted one after another. -/
structure Lost (gone : List (Key × Row)) (s t : SqliteCacheStore) : Prop where
  perm : s.table.items.Perm (gone ++ t.table.items)
  sorted : gone.Pairwise fun p q => p.2.lastAccessed ≤ q.2.lastAccessed
  oldest : ∀ p ∈ gone, ∀ q ∈ t.table.items, p.2.lastAccessed ≤ q.2.lastAccessed
  eq : t = { s with
    connection := t.connection
    currentMemoryBytes := s.currentMemoryBytes - (sizes gone).sum
    entryCount := s.entryCount - gone.length
    evictions := s.evictions + gone.length
    lruEvictions := s.lruEvictions + gone.length }

theorem Lost.ticked (s : SqliteCacheStore) (n : ℕ) : Lost [] s (s.ticked n) := by
  refine ⟨List.Perm.refl _, .nil, by simp, ?_⟩
  simp [SqliteCacheStore.ticked]

theorem Lost.refl (s : SqliteCacheStore) : Lost [] s s := Lost.ticked s s.connection.statements

theorem Evicted.perm {item : Key × Row} (h : Evicted item s t) :
    s.table.items.Perm (item :: t.table.items) := by
  obtain ⟨hmem, -, n, rfl⟩ := h
  exact OrderedDict.perm_erase (OrderedDict.get?_eq_some.mpr hmem)

theorem evictLruLocked_shrinks (h : evictLruLocked db s = (.ok true, t)) :
    ∃ item, Evicted item s t ∧ t.table.length < s.table.length := by
  rcases evictLruLocked_ok h with ⟨hb, -⟩ | ⟨-, item, he⟩
  · cases hb
  · have hlen := he.perm.length_eq
    rw [List.length_cons] at hlen
    refine ⟨item, he, ?_⟩
    rw [OrderedDict.length, OrderedDict.length]
    omega

theorem Evicted.cons {item : Key × Row} {gone : List (Key × Row)} {u : SqliteCacheStore}
    (h : Evicted item s t) (h' : Lost gone t u) : Lost (item :: gone) s u := by
  have hperm : s.table.items.Perm (item :: gone ++ u.table.items) :=
    h.perm.trans (h'.perm.cons item)
  refine ⟨hperm, List.pairwise_cons.mpr ⟨?_, h'.sorted⟩, ?_, ?_⟩
  · intro q hq
    refine h.least q (hperm.mem_iff.mpr ?_)
    exact List.mem_append_left _ (List.mem_cons_of_mem _ hq)
  · intro p hp q hq
    rcases List.mem_cons.mp hp with rfl | hp
    · exact h.least q (hperm.mem_iff.mpr (List.mem_append_right _ hq))
    · exact h'.oldest p hp q hq
  · obtain ⟨-, -, n, rfl⟩ := h
    rw [h'.eq]
    simp only [SqliteCacheStore.ticked, without, withTable, sizes_cons, List.sum_cons,
      List.length_cons]
    congr 1 <;> push_cast <;> omega

theorem Lost.trans {gone gone' : List (Key × Row)} {u : SqliteCacheStore} (h : Lost gone s t)
    (h' : Lost gone' t u) : Lost (gone ++ gone') s u := by
  refine ⟨?_, List.pairwise_append.mpr ⟨h.sorted, h'.sorted, ?_⟩, ?_, ?_⟩
  · rw [List.append_assoc]
    exact h.perm.trans (h'.perm.append_left gone)
  · intro p hp q hq
    exact h.oldest p hp q (h'.perm.mem_iff.mpr (List.mem_append_left _ hq))
  · intro p hp q hq
    rcases List.mem_append.mp hp with hp | hp
    · exact h.oldest p hp q (h'.perm.mem_iff.mpr (List.mem_append_right _ hq))
    · exact h'.oldest p hp q hq
  · rw [h'.eq, h.eq]
    simp only [sizes_append, List.sum_append, List.length_append]
    congr 1 <;> push_cast <;> omega

theorem Lost.of_pops {cond : SqliteCacheStore → Bool} {gone : List (Key × Row)}
    (h : Act.PopsWhile cond Evicted gone s t) : Lost gone s t := by
  induction h with
  | nil s => exact Lost.refl s
  | cons _ hp _ ih => exact hp.cons ih

theorem Lost.limits {gone : List (Key × Row)} (h : Lost gone s t) : t.limits = s.limits := by
  rw [h.eq]

theorem Lost.accounted {gone : List (Key × Row)} (h : Lost gone s t) (hs : s.Accounted) :
    t.Accounted := by
  have hsum := sum_sizes_perm h.perm
  have hlen := h.perm.length_eq
  have hmem : t.currentMemoryBytes = s.currentMemoryBytes - (sizes gone).sum := by rw [h.eq]
  have hcount : t.entryCount = s.entryCount - gone.length := by rw [h.eq]
  rw [sizes_append, List.sum_append] at hsum
  rw [List.length_append] at hlen
  refine ⟨?_, ?_, ?_⟩
  · rw [hmem, hs.memory, hsum]
    exact add_sub_cancel_left _ _
  · rw [hcount, hs.count, OrderedDict.length, OrderedDict.length, hlen]
    push_cast
    exact add_sub_cancel_left _ _
  · intro p hp
    exact hs.sized p (h.perm.mem_iff.mpr (List.mem_append_right _ hp))

/-- A returning eviction loop stopped at the first store without `cond`, or ran the table
empty with `cond` still holding. -/
theorem evictWhile_ok {cond : SqliteCacheStore → Bool} {r : Bool}
    (hcond : ∀ (u : SqliteCacheStore) (n : ℕ), cond (u.ticked n) = cond u)
    (h : evictWhile db cond s = (.ok r, t)) :
    ∃ gone, Lost gone s t ∧
      ((r = true ∧ cond t = false) ∨ (r = false ∧ t.table.items = [] ∧ cond t = true)) ∧
      ∀ pre post, gone = pre ++ post → post ≠ [] → ∃ v, Lost pre s v ∧ cond v = true := by
  have hbody : ∀ s t : SqliteCacheStore, True → evictLruLocked db s = (.ok true, t) →
      ∃ item, Evicted item s t ∧ True ∧ t.table.length < s.table.length := by
    intro s t _ h
    obtain ⟨item, he, hlt⟩ := evictLruLocked_shrinks h
    exact ⟨item, he, trivial, hlt⟩
  obtain ⟨gone, u, hpops, -, hend⟩ := Act.whileDo_pops hbody _ s t r trivial (Nat.lt_succ_self _) h
  have hleast : ∀ pre post, gone = pre ++ post → post ≠ [] → ∃ v, Lost pre s v ∧ cond v = true := by
    rintro pre post rfl hne
    obtain ⟨v, hv, hc⟩ := hpops.cond_of_append hne
    exact ⟨v, Lost.of_pops hv, hc⟩
  rcases hend with ⟨hr, rfl, hc⟩ | ⟨hr, hfalse, hc⟩
  · exact ⟨gone, Lost.of_pops hpops, Or.inl ⟨hr, hc⟩, hleast⟩
  · rcases evictLruLocked_ok hfalse with ⟨-, hnil, n, rfl⟩ | ⟨hb, -⟩
    · refine ⟨gone, ?_, Or.inr ⟨hr, hnil, (hcond u n).trans hc⟩, hleast⟩
      have hl := (Lost.of_pops hpops).trans (Lost.ticked u n)
      rwa [List.append_nil] at hl
    · cases hb

theorem Lost.rest {pre post : List (Key × Row)} {v : SqliteCacheStore} (hv : Lost pre s v)
    (h : Lost (pre ++ post) s t) : v.table.items.Perm (post ++ t.table.items) := by
  have hp := hv.perm.symm.trans h.perm
  rw [List.append_assoc] at hp
  exact (List.perm_append_left_iff pre).mp hp

/-- The first loop evicts the fewest oldest rows that leave `size` bytes free, and succeeds. -/
theorem makeRoomForBytes_ok (hs : s.Accounted) {size : ℤ} {r : Bool}
    (hsize : size ≤ s.limits.maxMemoryBytes) (h : makeRoomForBytes db size s = (.ok r, t)) :
    r = true ∧ ∃ gone, Lost gone s t ∧
      Trimmed (fun l => FitsMemory s.limits size (sizes l)) (gone ++ t.table.items) gone
        t.table.items := by
  by_cases hover : s.currentMemoryBytes + size > s.limits.maxMemoryBytes
  · simp only [makeRoomForBytes, Act.read_bind, if_pos hover] at h
    unfold evictToFitLocked at h
    obtain ⟨b, u, hu, h⟩ := Act.bind_ok h
    obtain ⟨gone, hlost, hend, hleast⟩ := evictWhile_ok (fun _ _ => rfl) hu
    have hacc := hlost.accounted hs
    have hlim := hlost.limits
    have hroom : b = true ∧ (sizes u.table.items).sum + size ≤ s.limits.maxMemoryBytes := by
      have hempty : u.entryCount ≤ 0 → (sizes u.table.items).sum = 0 := by
        intro h0
        have hnil : u.table.items = [] := by
          rw [← List.length_eq_zero_iff]
          have := hacc.count
          rw [OrderedDict.length] at this
          omega
        rw [hnil, sizes_nil, List.sum_nil]
      rcases hend with ⟨hb, hc⟩ | ⟨-, hnil, hc⟩
      · refine ⟨hb, ?_⟩
        rcases Bool.and_eq_false_iff.mp hc with hc | hc
        · simp only [hlim, hacc.memory, gt_iff_lt, decide_eq_false_iff_not, not_lt] at hc
          exact hc
        · simp only [gt_iff_lt, decide_eq_false_iff_not, not_lt] at hc
          have := hempty hc
          omega
      · -- a table run empty leaves no count to go on with
        have hcount := hacc.count
        rw [OrderedDict.length, hnil, List.length_nil] at hcount
        simp [hcount] at hc
    obtain ⟨rfl, hroom⟩ := hroom
    have hfits : u.currentMemoryBytes + size ≤ u.limits.maxMemoryBytes := by
      rw [hacc.memory, hlim]
      exact hroom
    simp only [if_true, Act.read_bind, Act.pure_apply, hfits, decide_true, Prod.mk.injEq,
      Except.ok.injEq] at h
    obtain ⟨rfl, rfl⟩ := h
    refine ⟨rfl, gone, hlost, rfl, hroom, ?_⟩
    intro pre post he hne hfit
    obtain ⟨v, hv, hc⟩ := hleast pre post he hne
    have hsum := sum_sizes_perm (hv.rest (he ▸ hlost))
    simp only [Bool.and_eq_true, gt_iff_lt, decide_eq_true_eq, (hv.accounted hs).memory, hsum,
      hv.limits] at hc
    exact absurd hfit (not_le.mpr hc.1)
  · simp only [makeRoomForBytes, Act.read_bind, if_neg hover, Act.pure_apply, Prod.mk.injEq,
      Except.ok.injEq] at h
    obtain ⟨rfl, rfl⟩ := h
    refine ⟨rfl, [], Lost.refl s, Trimmed.nil ?_⟩
    unfold FitsMemory
    rw [List.nil_append, ← hs.memory]
    exact not_lt.mp hover

/-- The second loop, made for a new key only, evicts the fewest oldest rows that leave a
free item, and succeeds. -/
theorem makeRoomForItem_ok (hs : s.Accounted) {isNewKey r : Bool}
    (h : makeRoomForItem db isNewKey s = (.ok r, t)) :
    r = true ∧ ∃ gone, Lost gone s t ∧
      Trimmed (fun l => isNewKey = true → FitsItems s.limits (sizes l)) (gone ++ t.table.items) gone
        t.table.items := by
  cases isNewKey with
  | false =>
    cases h
    exact ⟨rfl, [], Lost.refl s, Trimmed.nil (by simp)⟩
  | true =>
    simp only [makeRoomForItem, if_true] at h
    obtain ⟨gone, hlost, hend, hleast⟩ := evictWhile_ok (fun _ _ => rfl) h
    have hcount := (hlost.accounted hs).count
    have hlim := hlost.limits
    have hroom : r = true ∧ (t.table.items.length : ℤ) < s.limits.maxItems := by
      rcases hend with ⟨hr, hc⟩ | ⟨-, hnil, hc⟩
      · simp only [ge_iff_le, decide_eq_false_iff_not, not_le, hlim, hcount, OrderedDict.length] at hc
        exact ⟨hr, hc⟩
      · have hpos := s.limits.maxItems_pos
        simp only [hcount, OrderedDict.length, hnil, hlim, List.length_nil, ge_iff_le,
          decide_eq_true_eq] at hc
        omega
    refine ⟨hroom.1, gone, hlost, rfl, fun _ => ?_, ?_⟩
    · unfold FitsItems
      rw [length_sizes]
      exact hroom.2
    · intro pre post he hne hfit
      obtain ⟨v, hv, hc⟩ := hleast pre post he hne
      have hlt := hfit rfl
      have hlen := (hv.rest (he ▸ hlost)).length_eq
      unfold FitsItems at hlt
      rw [length_sizes, ← hlen] at hlt
      simp only [ge_iff_le, decide_eq_true_eq, (hv.accounted hs).count, OrderedDict.length,
        hv.limits] at hc
      omega

/-- The row that `_insert_row_locked` writes. -/
def rowOf (entry : CacheEntry) (accessed : Time) : Row where
  value := entry.value
  ttl := entry.ttl
  createdAt := entry.createdAt
  lastAccessed := accessed
  sizeBytes := entry.sizeBytes

/-- The store after an accepted write: the rows that were there, in some order of their
last access, are `gone`, which were evicted, and `rest`, to which the new row was added. -/
structure Stored (s : SqliteCacheStore) (isNewKey : Bool) (key : Key) (row : Row)
    (gone : List (Key × Row)) (t : SqliteCacheStore) (rest : List (Key × Row)) : Prop where
  perm : s.table.items.Perm (gone ++ rest)
  sorted : (gone ++ rest).Pairwise fun p q => p.2.lastAccessed ≤ q.2.lastAccessed
  trimmed : Trimmed (fun l => Fits s.limits isNewKey row.sizeBytes (sizes l)) (gone ++ rest) gone rest
  items : t.table.items.Perm (rest ++ [(key, row)])
  eq : t = { s with
    connection := t.connection
    currentMemoryBytes := (sizes rest).sum + row.sizeBytes
    entryCount := rest.length + 1
    evictions := s.evictions + gone.length
    lruEvictions := s.lruEvictions + gone.length }

theorem fits_perm (limits : CacheStoreLimits) (isNewKey : Bool) (size : ℤ) (l l' : List (Key × Row))
    (h : l.Perm l') : Fits limits isNewKey size (sizes l) ↔ Fits limits isNewKey size (sizes l') := by
  unfold Fits
  rw [sum_sizes_perm h, length_sizes, length_sizes, h.length_eq]

/-- The rows of a table in an order in which evictions may take them. -/
theorem exists_sorted (l : List (Key × Row)) : ∃ l' : List (Key × Row), l.Perm l' ∧
    l'.Pairwise fun p q => p.2.lastAccessed ≤ q.2.lastAccessed := by
  refine ⟨l.mergeSort fun p q => decide (p.2.lastAccessed ≤ q.2.lastAccessed),
    (List.mergeSort_perm _ _).symm, ?_⟩
  refine (List.pairwise_mergeSort ?_ ?_ l).imp fun h => of_decide_eq_true h
  · intro a b c hab hbc
    exact decide_eq_true ((of_decide_eq_true hab).trans (of_decide_eq_true hbc))
  · intro a b
    simpa using le_total a.2.lastAccessed b.2.lastAccessed

/-- The store with a row added by an insertion of an absent key. -/
def inserted (s : SqliteCacheStore) (key : Key) (row : Row) : SqliteCacheStore :=
  { s.withTable (s.table.putLast key row) with
    currentMemoryBytes := s.currentMemoryBytes + row.sizeBytes
    entryCount := s.entryCount + 1 }

theorem insertRowLocked_ok {now : Time} {key : Key} {entry : CacheEntry} {a : Unit}
    (h : insertRowLocked db now key entry s = (.ok a, t)) :
    ∃ n, t = (s.inserted key (rowOf entry now)).ticked n := by
  unfold insertRowLocked at h
  obtain ⟨_, u, hu, h⟩ := Act.bind_ok h
  obtain ⟨-, -, rfl⟩ := sql_ok hu
  cases h
  exact ⟨_, rfl⟩

theorem restoreRowLocked_ok {key : Key} {row : Row} {a : Unit}
    (h : restoreRowLocked db key row s = (.ok a, t)) : ∃ n, t = (s.inserted key row).ticked n := by
  unfold restoreRowLocked at h
  obtain ⟨_, u, hu, h⟩ := Act.bind_ok h
  obtain ⟨-, -, rfl⟩ := sql_ok hu
  cases h
  exact ⟨_, rfl⟩

/-- The store without the old row, if there is one. -/
def popped (s : SqliteCacheStore) (key : Key) : Option Row → SqliteCacheStore
  | some row => s.without key row
  | none => s

/-- The store with the old row put back, if there is one. -/
def restored (s : SqliteCacheStore) (key : Key) : Option Row → SqliteCacheStore
  | some row => s.inserted key row
  | none => s

theorem popped_accounted {key : Key} {old : Option Row} (hold : s.table.get? key = old)
    (hs : s.Accounted) : (s.popped key old).Accounted := by
  cases old with
  | none => exact hs
  | some row => exact without_accounted hold hs

theorem popped_get? {key : Key} {old : Option Row} (hold : s.table.get? key = old) :
    (s.popped key old).table.get? key = none := by
  cases old with
  | none => exact hold
  | some row => exact OrderedDict.get?_erase_self _ _

theorem popped_limits (s : SqliteCacheStore) (key : Key) (old : Option Row) :
    (s.popped key old).limits = s.limits := by
  cases old <;> rfl

theorem removeOld_ok {key : Key} {old : Option Row} {a : Unit} (hold : s.table.get? key = old)
    (h : removeOld db key old s = (.ok a, t)) : ∃ n, t = (s.popped key old).ticked n := by
  cases old with
  | none =>
    cases h
    exact ⟨_, rfl⟩
  | some row =>
    unfold removeOld at h
    obtain ⟨b, u, hu, h⟩ := Act.bind_ok h
    cases h
    rcases removeEntryLocked_ok hu with ⟨hnone, -⟩ | ⟨row', hrow, -, hn⟩
    · rw [hold] at hnone
      cases hnone
    · obtain rfl : row = row' := Option.some.inj (hold.symm.trans hrow)
      exact hn

theorem restore_ok {key : Key} {old : Option Row} {a : Unit} (h : restore db key old s = (.ok a, t)) :
    ∃ n, t = (s.restored key old).ticked n := by
  cases old with
  | none =>
    cases h
    exact ⟨_, rfl⟩
  | some row => exact restoreRowLocked_ok h

/-- Making room from the store without the old row, and then inserting. -/
theorem Stored.of_room {isNewKey : Bool} {key : Key} (row : Row) {gone₁ gone₂ : List (Key × Row)}
    {u v : SqliteCacheStore} (n : ℕ) (hs : s.Accounted) (hkey : s.table.get? key = none) (hlost₁ : Lost gone₁ s u)
    (htrim₁ : Trimmed (fun l => FitsMemory s.limits row.sizeBytes (sizes l)) (gone₁ ++ u.table.items)
      gone₁ u.table.items)
    (hlost₂ : Lost gone₂ u v)
    (htrim₂ : Trimmed (fun l => isNewKey = true → FitsItems u.limits (sizes l))
      (gone₂ ++ v.table.items) gone₂ v.table.items) :
    ∃ gone rest, Stored s isNewKey key row gone ((v.inserted key row).ticked n) rest := by
  have hlost := hlost₁.trans hlost₂
  have hacc := hlost.accounted hs
  obtain ⟨rest, hperm, hsorted⟩ := exists_sorted v.table.items
  have hvkey : v.table.get? key = none := by
    rw [OrderedDict.get?_eq_none] at hkey ⊢
    intro hm
    obtain ⟨p, hp, rfl⟩ := List.mem_map.mp hm
    exact hkey (List.mem_map_of_mem (hlost.perm.mem_iff.mpr (List.mem_append_right _ hp)))
  have htrim : Trimmed (fun l => Fits s.limits isNewKey row.sizeBytes (sizes l))
      (gone₁ ++ gone₂ ++ v.table.items) (gone₁ ++ gone₂) v.table.items := by
    have hmid := htrim₁.of_perm (fun l l' h => by unfold FitsMemory; rw [sum_sizes_perm h]) hlost₂.perm
    rw [hlost₁.limits] at htrim₂
    have happ := hmid.append htrim₂ ?_
    · rw [← List.append_assoc] at happ
      exact happ
    · intro hfits
      have hgone : 0 ≤ (sizes gone₂).sum := by
        refine List.sum_nonneg ?_
        intro n hn
        obtain ⟨p, hp, rfl⟩ := List.mem_map.mp hn
        have hmem : p ∈ s.table.items := by
          rw [hlost.perm.mem_iff]
          simp [hp]
        rw [hs.sized p hmem]
        exact (CacheEntry.getsizeof_pos p.2.value).le
      rw [FitsMemory, sizes_append, List.sum_append] at hfits
      rw [FitsMemory]
      omega
  refine ⟨gone₁ ++ gone₂, rest, hlost.perm.trans (hperm.append_left _), ?_,
    htrim.of_perm (fits_perm _ _ _) hperm, ?_, ?_⟩
  · refine List.pairwise_append.mpr ⟨hlost.sorted, hsorted, ?_⟩
    exact fun p hp q hq => hlost.oldest p hp q (hperm.mem_iff.mpr hq)
  · change (v.table.putLast key row).items.Perm _
    rw [OrderedDict.putLast_of_none hvkey]
    exact hperm.append_right _
  · have hcount := hacc.count
    have hmem := hacc.memory
    rw [sum_sizes_perm hperm] at hmem
    rw [OrderedDict.length, hperm.length_eq] at hcount
    rw [← hmem, ← hcount, hlost.eq]
    rfl

theorem Stored.of_ticked {isNewKey : Bool} {key : Key} {row : Row} {gone rest : List (Key × Row)}
    {n : ℕ} (h : Stored (s.ticked n) isNewKey key row gone t rest) : Stored s isNewKey key row gone t rest :=
  ⟨h.perm, h.sorted, h.trimmed, h.items, h.eq⟩

/-- What `_store_value_locked` has done, from the store `s` without the old row. -/
inductive WriteOutcome (s : SqliteCacheStore) (created accessed : Time) (key : Key) (value : Bytes)
    (ttl : Option ℤ) (old : Option Row) : CacheSetStatus → SqliteCacheStore → Prop
  | tooLarge (h : getsizeof value > s.limits.maxValueBytes) (n : ℕ) :
      WriteOutcome s created accessed key value ttl old .valueTooLarge
        (ticked { s.restored key old with rejectedOversize := s.rejectedOversize + 1 } n)
  | stored {gone rest : List (Key × Row)} {t : SqliteCacheStore}
      (h : getsizeof value ≤ s.limits.maxValueBytes)
      (hst : Stored s old.isNone key (rowOf (.new value ttl created) accessed) gone t rest) :
      WriteOutcome s created accessed key value ttl old .ok t

/-- `CAPACITY_EXHAUSTED` is not among the results when the counters are right. -/
theorem storeValueLocked_ok {created accessed : Time} {key : Key} {value : Bytes} {ttl : Option ℤ}
    {old : Option Row} {st : CacheSetStatus} (hs : s.Accounted) (hold : s.table.get? key = old)
    (h : storeValueLocked db created accessed key value ttl old s = (.ok st, t)) :
    WriteOutcome (s.popped key old) created accessed key value ttl old st t := by
  unfold storeValueLocked writeValueLocked at h
  obtain ⟨_, u, hu, h⟩ := Act.bind_ok h
  obtain ⟨n, rfl⟩ := removeOld_ok hold hu
  have hacc := popped_accounted hold hs
  have hkey := popped_get? hold
  rw [Act.read_bind] at h
  by_cases hsize : getsizeof value > (s.popped key old).limits.maxValueBytes
  · rw [if_pos (show (CacheEntry.new value ttl created).sizeBytes >
      ((s.popped key old).ticked n).limits.maxValueBytes from hsize)] at h
    obtain ⟨_, v, hv, h⟩ := Act.bind_ok h
    obtain ⟨m, rfl⟩ := restore_ok hv
    cases h
    cases old with
    | none => exact .tooLarge hsize m
    | some row => exact .tooLarge hsize m
  · rw [if_neg (show ¬ (CacheEntry.new value ttl created).sizeBytes >
      ((s.popped key old).ticked n).limits.maxValueBytes from hsize)] at h
    have hle := not_lt.mp hsize
    obtain ⟨b₁, v, hv, h⟩ := Act.bind_ok h
    obtain ⟨rfl, gone₁, hlost₁, htrim₁⟩ := makeRoomForBytes_ok (hacc.ticked n)
      (hle.trans (s.popped key old).limits.value_le_memory) hv
    obtain ⟨b₂, w, hw, h⟩ := Act.bind_ok h
    obtain ⟨rfl, gone₂, hlost₂, htrim₂⟩ := makeRoomForItem_ok (hlost₁.accounted (hacc.ticked n)) hw
    obtain ⟨_, x, hx, h⟩ := Act.bind_ok h
    obtain ⟨m, rfl⟩ := insertRowLocked_ok hx
    cases h
    obtain ⟨gone, rest, hst⟩ := Stored.of_room (rowOf (.new value ttl created) accessed) m
      (hacc.ticked n) hkey hlost₁ htrim₁ hlost₂ htrim₂
    exact .stored hle hst.of_ticked

end TinyCache.SqliteCacheStore
