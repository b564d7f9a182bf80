import TinyCache.Proofs.SqliteRefines

/-! What an operation takes from the rows of other keys, on both of its exits: the oldest of
them, one after another, and each only as long as there was no room for the new value. -/

namespace TinyCache

/-- The value that an operation comes to store. -/
def Op.value? : Op → Option Bytes
  | .set _ value _ | .setIfAbsent _ value _ | .compareAndSet _ _ value _ => some value
  | .get _ | .delete _ | .stats | .clear => none

namespace SqliteCacheStore

open Act Connection

variable {db : Engine} {s u t : SqliteCacheStore}

/-- The table has become `rest`: of the rows under other keys than `key` those in `gone` have
been evicted, the oldest first, to make room for the value. -/
structure EvictedFor (limits : CacheStoreLimits) (value? : Option Bytes) (key : Key) (table : Table)
    (gone : List (Key × Row)) (rest : Table) : Prop where
  perm : (table.erase key).items.Perm (gone ++ (rest.erase key).items)
  sorted : gone.Pairwise fun p q => p.2.lastAccessed ≤ q.2.lastAccessed
  oldest : ∀ p ∈ gone, ∀ q ∈ (rest.erase key).items, p.2.lastAccessed ≤ q.2.lastAccessed
  needed : ∀ pre post, gone = pre ++ post → post ≠ [] →
    ∃ value, value? = some value ∧ ¬ Fits limits true (getsizeof value) (sizes (post ++ (rest.erase key).items))

theorem EvictedFor.mem_gone {limits : CacheStoreLimits} {value? : Option Bytes} {key x : Key}
    {table rest : Table} {gone : List (Key × Row)} (h : EvictedFor limits value? key table gone rest)
    (hne : x ≠ key) {row : Row} (hb : table.get? x = some row) (ha : rest.get? x = none) :
    x ∈ gone.map Prod.fst := by
  have hmem : (x, row) ∈ gone ++ (rest.erase key).items := by
    rw [← h.perm.mem_iff, OrderedDict.mem_erase]
    exact ⟨OrderedDict.get?_eq_some.mp hb, hne⟩
  rcases List.mem_append.mp hmem with hm | hm
  · exact List.mem_map_of_mem hm
  · have hget := OrderedDict.get?_eq_some.mpr (OrderedDict.mem_erase.mp hm).1
    rw [ha] at hget
    cases hget

def Evicting (limits : CacheStoreLimits) (value? : Option Bytes) (key : Key) (table rest : Table) : Prop :=
  ∃ gone, EvictedFor limits value? key table gone rest

variable {limits : CacheStoreLimits} {value? : Option Bytes} {key : Key} {table rest rest' : Table}

theorem Evicting.refl (limits : CacheStoreLimits) (value? : Option Bytes) (key : Key) (table : Table) :
    Evicting limits value? key table table := by
  refine ⟨[], List.Perm.refl _, .nil, fun _ hp => absurd hp List.not_mem_nil, ?_⟩
  intro pre post he hne
  exact absurd (List.append_eq_nil_iff.mp he.symm).2 hne

theorem Evicting.of_erase (h : Evicting limits value? key table rest) (he : rest'.erase key = rest.erase key) :
    Evicting limits value? key table rest' := by
  obtain ⟨gone, hperm, hsorted, holdest, hneeded⟩ := h
  refine ⟨gone, ?_, hsorted, ?_, ?_⟩
  · rwa [he]
  · rwa [he]
  · rwa [he]

/-- The store on its way, with the counters right and the key in the hole out of the table. -/
structure Storing (limits : CacheStoreLimits) (value? : Option Bytes) (key : Key) (table : Table)
    (hole : Option Key) (u : SqliteCacheStore) : Prop where
  holds : Holds hole u
  evicting : Evicting limits value? key table u.table
  limits : u.limits = limits

variable {value : Bytes} {hole : Option Key}

theorem Storing.erase_table (h : Storing limits value? key table (some key) u) : u.table.erase key = u.table :=
  OrderedDict.erase_of_none (h.holds.absent key rfl)

theorem shrinks_storing (limits : CacheStoreLimits) (value? : Option Bytes) (key : Key) (table : Table)
    (hole : Option Key) : Shrinks (· = key) (Storing limits value? key table hole) where
  of_eq s t h hlimits htable hmemory hcount :=
    ⟨(shrinks_holds _).of_eq s t h.holds hlimits htable hmemory hcount, htable ▸ h.evicting,
      hlimits.trans h.limits⟩
  without s k row hk h hrow := by
    subst hk
    exact ⟨(shrinks_holds _).without s k row trivial h.holds hrow,
      h.evicting.of_erase (s.table.erase_erase k), h.limits⟩

theorem Crowded.not_fits {isNewKey : Bool} {size : ℤ} (h : Crowded isNewKey size u) (hu : u.Accounted) :
    ¬ Fits u.limits true size (sizes u.table.items) := by
  rintro ⟨hmemory, hitems⟩
  have hcount := hu.count
  have hbytes := hu.memory
  have hlt := hitems rfl
  rw [length_sizes] at hlt
  unfold OrderedDict.length at hcount
  rcases h with h | ⟨-, h⟩
  · omega
  · omega

theorem Evicted.storing {item : Key × Row} {isNewKey : Bool} (hitem : Evicted item s t)
    (h : Storing limits (some value) key table (some key) s) (hcrowded : Crowded isNewKey (getsizeof value) s) :
    Storing limits (some value) key table (some key) t := by
  have hfits := hcrowded.not_fits h.holds.accounted
  have herase := h.erase_table
  have hpop := hitem.perm
  obtain ⟨hmem, hleast, n, rfl⟩ := hitem
  set t := ticked { s.without item.1 item.2 with
    evictions := s.evictions + 1
    lruEvictions := s.lruEvictions + 1 } n with ht
  have hget : s.table.get? item.1 = some item.2 := OrderedDict.get?_eq_some.mpr hmem
  have hholds : Holds (some key) t :=
    (shrinks_holds _).of_eq _ t ((shrinks_holds _).without s item.1 item.2 trivial h.holds hget) rfl rfl rfl rfl
  refine ⟨hholds, ?_, h.limits⟩
  have herase' : t.table.erase key = t.table := OrderedDict.erase_of_none (hholds.absent key rfl)
  obtain ⟨gone, hperm, hsorted, holdest, hneeded⟩ := h.evicting
  rw [herase] at hperm holdest hneeded
  refine ⟨gone ++ [item], ?_, List.pairwise_append.mpr ⟨hsorted, List.pairwise_singleton _ _, ?_⟩, ?_, ?_⟩
  · rw [herase', List.append_assoc]
    exact hperm.trans (hpop.append_left gone)
  · intro p hp q hq
    rw [List.mem_singleton.mp hq]
    exact holdest p hp item hmem
  · intro p hp q hq
    rw [herase'] at hq
    have hq : q ∈ s.table.items := hpop.mem_iff.mpr (List.mem_cons_of_mem _ hq)
    rcases List.mem_append.mp hp with hp | hp
    · exact holdest p hp q hq
    · rw [List.mem_singleton.mp hp]
      exact hleast q hq
  · intro pre post he hne
    rw [herase']
    obtain ⟨post, last, rfl⟩ := (List.eq_nil_or_concat' post).resolve_left hne
    rw [← List.append_assoc] at he
    obtain ⟨rfl, hlast⟩ := List.append_inj' he rfl
    rw [List.singleton_inj.mp hlast.symm, List.append_assoc, List.singleton_append]
    have hrest := fits_perm limits true (getsizeof value) _ _ (hpop.append_left post)
    refine ⟨value, rfl, fun hfit => ?_⟩
    cases post with
    | nil => exact hfits (h.limits ▸ hrest.mpr hfit)
    | cons p post =>
      obtain ⟨_, ⟨⟩, hnot⟩ := hneeded pre (p :: post) rfl (List.cons_ne_nil _ _)
      exact hnot (hrest.mpr hfit)

theorem evictLruLocked_storing {isNewKey : Bool} :
    Triple (fun u => Storing limits (some value) key table (some key) u ∧ Crowded isNewKey (getsizeof value) u)
      (evictLruLocked db) (fun _ => Storing limits (some value) key table (some key))
      (Failed db (Storing limits (some value) key table (some key))) := by
  rintro s ⟨hs, hcrowded⟩
  have hfails : Triple (fun _ => True) (evictLruLocked db) _ _ := shrinks_true.evictLruLocked
  have hfails := hfails s trivial
  rcases h : evictLruLocked db s with ⟨x | b, t⟩
  · rw [h] at hfails
    obtain ⟨n, rfl⟩ := evictLruLocked_error h
    exact ⟨(shrinks_storing _ _ _ _ _).of_eq s _ hs rfl rfl rfl rfl, hfails.2⟩
  · rcases evictLruLocked_ok h with ⟨-, -, n, rfl⟩ | ⟨-, item, hitem⟩
    · exact (shrinks_storing _ _ _ _ _).of_eq s _ hs rfl rfl rfl rfl
    · exact hitem.storing hs hcrowded

/-- With the new row, or the old one put back, the hole is filled. -/
theorem Storing.inserted {row : Row} (h : Storing limits value? key table (some key) u)
    (hsized : row.sizeBytes = getsizeof row.value) :
    Storing limits value? key table none (u.inserted key row) :=
  ⟨inserted_holds h.holds hsized, h.evicting.of_erase (u.table.erase_putLast key row), h.limits⟩

theorem Storing.fill (h : Storing limits value? key table hole u) : Storing limits value? key table none u :=
  ⟨h.holds.fill, h.evicting, h.limits⟩

theorem storeValueLocked_storing {created accessed : Time} {ttl : Option ℤ} {old : Option Row} :
    Triple (fun u => Storing limits (some value) key table none u ∧ old = u.table.get? key)
      (storeValueLocked db created accessed key value ttl old)
      (fun _ => Storing limits (some value) key table none)
      (Failed db (Storing limits (some value) key table none)) := by
  intro s hs
  have hold : ∀ row, old = some row → ∀ u, Storing limits (some value) key table (some key) u →
      Storing limits (some value) key table none (u.inserted key row) := by
    rintro row rfl u h
    exact h.inserted (hs.1.holds.accounted.sized (key, row) (OrderedDict.get?_eq_some.mp hs.2.symm))
  have hwrite : Triple (Storing limits (some value) key table (some key))
      (writeValueLocked db accessed key (.new value ttl created) old)
      (fun _ => Storing limits (some value) key table none)
      (Failed db (Storing limits (some value) key table (some key))) :=
    (shrinks_storing _ _ _ _ _).writeValueLocked (shrinks_storing _ _ _ _ _) evictLruLocked_storing
      (fun _ h => h.fill) (fun _ h => h.inserted rfl) hold
  refine Triple.bind ((shrinks_storing limits (some value) key table none).removeOld rfl)
    (fun _ => (hwrite.pre ?_).fail ?_) s hs
  · rintro u ⟨hu, hkey⟩
    exact ⟨hu.holds.dig hkey, hu.evicting, hu.limits⟩
  · exact fun u h => h.imp fun _ h => h.fill

/-- An operation on a key takes nothing from the others but by eviction. -/
theorem call_evicting (clock : ℕ → Time) {op : Op} (hk : op.key? = some key) :
    Triple (Storing limits op.value? key table none) (call db clock op)
      (fun _ => Storing limits op.value? key table none)
      (Refused db (Storing limits op.value? key table none) (some key)) := by
  have hP := shrinks_storing limits op.value? key table none
  cases op with
  | get k =>
    cases hk
    refine reply_triple _ (hP.get clock key hP (fun _ h => h) (fun _ _ _ _ _ => rfl) fun s now h => ?_)
    exact ⟨touch_holds h.holds key now,
      h.evicting.of_erase (s.table.erase_replace key fun row => { row with lastAccessed := now }), h.limits⟩
  | set k value ttl =>
    cases hk
    exact reply_triple _ (hP.set clock key fun _ _ _ => storeValueLocked_storing)
  | setIfAbsent k value ttl =>
    cases hk
    exact reply_triple _ (hP.setIfAbsent clock key (fun _ _ _ => storeValueLocked_storing)
      (fun _ h => h) rfl)
  | compareAndSet k expected value ttl =>
    cases hk
    exact reply_triple _ (hP.compareAndSet clock key (fun _ _ _ => storeValueLocked_storing)
      (fun _ h => h) rfl expected)
  | delete k =>
    cases hk
    exact reply_triple _ (hP.delete key rfl fun _ h => h)
  | stats => cases hk
  | clear => cases hk

theorem step_evicting (db : Engine) (hs : s.Accounted) (clock : ℕ → Time) {op : Op} (hk : op.key? = some key) :
    Evicting s.limits op.value? key s.table (step db s ⟨.client op, clock⟩).2.table := by
  have hcall := @call_evicting db s.limits key s.table clock op hk s
    ⟨⟨hs, fun key hkey => by cases hkey⟩, .refl _ _ _ _, rfl⟩
  change Evicting s.limits op.value? key s.table (call db clock op s).2.table
  rcases h : call db clock op s with ⟨x | reply, t⟩
  · rw [h] at hcall
    exact hcall.1.evicting
  · rw [h] at hcall
    exact hcall.evicting

end SqliteCacheStore

end TinyCache
