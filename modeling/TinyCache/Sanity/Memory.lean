import Mathlib.Algebra.Order.BigOperators.Group.List
import TinyCache.Library.Trim
import TinyCache.Spec.MemoryStore

/-! What each method of the in-memory store does, in closed form. Later files cite
these and unfold no method again. -/

namespace TinyCache.CacheStore

def bytes (items : List (Key × CacheEntry)) : ℤ := (items.map fun p => p.2.sizeBytes).sum

def sizes (items : List (Key × CacheEntry)) : List ℤ := items.map fun p => p.2.sizeBytes

theorem sizes_nonneg (items : List (Key × CacheEntry)) : ∀ n ∈ sizes items, 0 ≤ n := by
  intro n hn
  obtain ⟨p, -, rfl⟩ := List.mem_map.mp hn
  exact (CacheEntry.sizeBytes_pos p.2).le

@[simp] theorem bytes_nil : bytes [] = 0 := rfl

@[simp] theorem bytes_cons (p : Key × CacheEntry) (l : List (Key × CacheEntry)) :
    bytes (p :: l) = p.2.sizeBytes + bytes l := by
  simp [bytes]

@[simp] theorem bytes_append (l l' : List (Key × CacheEntry)) : bytes (l ++ l') = bytes l + bytes l' := by
  simp [bytes]

theorem bytes_perm {l l' : List (Key × CacheEntry)} (h : l.Perm l') : bytes l = bytes l' :=
  (h.map _).sum_eq

theorem bytes_subperm {l l' : List (Key × CacheEntry)} (h : l'.Subperm l) : bytes l' ≤ bytes l := by
  obtain ⟨m, hperm, hsub⟩ := h
  rw [← bytes_perm hperm]
  exact (hsub.map _).sum_le_sum (sizes_nonneg l)

theorem bytes_nonneg (l : List (Key × CacheEntry)) : 0 ≤ bytes l := List.sum_nonneg (sizes_nonneg l)

/-- The byte counter is the sum of the sizes of the entries. -/
def Accounted (s : CacheStore) : Prop := s.currentMemoryBytes = bytes s.store.items

theorem bytes_erase {d : OrderedDict Key CacheEntry} {k : Key} {e : CacheEntry} (h : d.get? k = some e) :
    bytes d.items = e.sizeBytes + bytes (d.erase k).items := by
  rw [bytes_perm (OrderedDict.perm_erase h), bytes_cons]

/-- The store after `_remove_entry` of a present key. -/
def without (s : CacheStore) (key : Key) (entry : CacheEntry) : CacheStore :=
  { s with
    store := s.store.erase key
    currentMemoryBytes := s.currentMemoryBytes - entry.sizeBytes }

theorem removeEntry_apply {s : CacheStore} {key : Key} {entry : CacheEntry}
    (h : s.store.get? key = some entry) : removeEntry key s = (.ok (), s.without key entry) := by
  simp [removeEntry, h, without]

/-- The store after `_remove_expired_entry` of a present key. -/
def expire (s : CacheStore) (key : Key) (entry : CacheEntry) : CacheStore :=
  { s.without key entry with expiredRemovals := s.expiredRemovals + 1 }

theorem removeExpiredEntry_apply {s : CacheStore} {key : Key} {entry : CacheEntry}
    (h : s.store.get? key = some entry) :
    removeExpiredEntry key s = (.ok (), s.expire key entry) := by
  have hc : s.store.contains key = true := by simp [OrderedDict.contains, h]
  simp [removeExpiredEntry, hc, Act.bind_of_ok (removeEntry_apply h), expire, without]

theorem without_accounted {s : CacheStore} {key : Key} {entry : CacheEntry}
    (h : s.store.get? key = some entry) (hs : s.Accounted) : (s.without key entry).Accounted := by
  unfold Accounted without at *
  have hb := bytes_erase h
  simp only
  omega

/-- The store after the first of its entries is evicted. -/
structure Evicted (item : Key × CacheEntry) (s t : CacheStore) : Prop where
  items : s.store.items = item :: t.store.items
  eq : t = { s with
    store := t.store
    currentMemoryBytes := s.currentMemoryBytes - item.2.sizeBytes
    evictions := s.evictions + 1
    lruEvictions := s.lruEvictions + 1 }

theorem evictLru_nil {s : CacheStore} (h : s.store.items = []) : evictLru s = (.ok false, s) := by
  simp [evictLru, OrderedDict.first?, h]

theorem evictLru_cons {s : CacheStore} {item : Key × CacheEntry} {l : List (Key × CacheEntry)}
    (h : s.store.items = item :: l) : ∃ t, evictLru s = (.ok true, t) ∧ Evicted item s t := by
  obtain ⟨k, e⟩ := item
  have hget : s.store.get? k = some e := OrderedDict.get?_eq_some.mpr (by simp [h])
  refine ⟨{ s.without k e with evictions := s.evictions + 1, lruEvictions := s.lruEvictions + 1 },
    ?_, ?_, rfl⟩
  · simp [evictLru, OrderedDict.first?, h, Act.bind_of_ok (removeEntry_apply hget), without]
  · simp only [without, h, OrderedDict.erase_first h]

theorem evictLru_returns (s : CacheStore) : ∃ b t, evictLru s = (.ok b, t) := by
  cases h : s.store.items with
  | nil => exact ⟨_, _, evictLru_nil h⟩
  | cons item l =>
    obtain ⟨t, ht, -⟩ := evictLru_cons h
    exact ⟨_, _, ht⟩

/-- The store after the entries `gone` are evicted from its front. -/
structure Lost (gone : List (Key × CacheEntry)) (s t : CacheStore) : Prop where
  items : s.store.items = gone ++ t.store.items
  eq : t = { s with
    store := t.store
    currentMemoryBytes := s.currentMemoryBytes - bytes gone
    evictions := s.evictions + gone.length
    lruEvictions := s.lruEvictions + gone.length }

theorem Lost.refl (s : CacheStore) : Lost [] s s := by
  refine ⟨rfl, ?_⟩
  simp

theorem Lost.trans {gone gone' : List (Key × CacheEntry)} {s t u : CacheStore}
    (h : Lost gone s t) (h' : Lost gone' t u) : Lost (gone ++ gone') s u := by
  refine ⟨by rw [h.items, h'.items, List.append_assoc], ?_⟩
  rw [h'.eq, h.eq]
  simp [sub_sub, Nat.add_assoc]

theorem Lost.rest {pre post : List (Key × CacheEntry)} {s t v : CacheStore} (hv : Lost pre s v)
    (h : Lost (pre ++ post) s t) : v.store.items = post ++ t.store.items := by
  have he := hv.items.symm.trans h.items
  rw [List.append_assoc] at he
  exact List.append_cancel_left he

theorem Lost.limits {gone : List (Key × CacheEntry)} {s t : CacheStore} (h : Lost gone s t) :
    t.limits = s.limits := by
  rw [h.eq]

theorem Evicted.lost {item : Key × CacheEntry} {s t : CacheStore} (h : Evicted item s t) :
    Lost [item] s t := by
  refine ⟨h.items, ?_⟩
  simpa using h.eq

theorem Lost.of_pops {cond : CacheStore → Bool} {gone : List (Key × CacheEntry)} {s t : CacheStore}
    (h : Act.PopsWhile cond Evicted gone s t) : Lost gone s t := by
  induction h with
  | nil s => exact Lost.refl s
  | cons _ hp _ ih => exact hp.lost.trans ih

theorem Lost.accounted {gone : List (Key × CacheEntry)} {s t : CacheStore} (h : Lost gone s t)
    (hs : s.Accounted) : t.Accounted := by
  unfold Accounted at *
  rw [h.eq]
  simp only
  rw [hs, h.items, bytes_append]
  omega

theorem evictLru_ok {s t : CacheStore} {b : Bool} (h : evictLru s = (.ok b, t)) :
    (b = false ∧ s.store.items = [] ∧ t = s) ∨ (b = true ∧ ∃ item, Evicted item s t) := by
  cases hi : s.store.items with
  | nil =>
    rw [evictLru_nil hi] at h
    cases h
    exact Or.inl ⟨rfl, rfl, rfl⟩
  | cons item l =>
    obtain ⟨t', ht', he⟩ := evictLru_cons hi
    rw [ht'] at h
    cases h
    exact Or.inr ⟨rfl, item, he⟩

theorem evictLru_shrinks {s t : CacheStore} (h : evictLru s = (.ok true, t)) :
    ∃ item, Evicted item s t ∧ t.store.length < s.store.length := by
  rcases evictLru_ok h with ⟨hb, -⟩ | ⟨-, item, he⟩
  · cases hb
  · refine ⟨item, he, ?_⟩
    rw [OrderedDict.length, OrderedDict.length, he.items]
    simp

/-- What an eviction loop leaves: it stopped at the first state without `cond`,
or it ran the store empty with `cond` still holding. -/
theorem evictWhile_apply (cond : CacheStore → Bool) (s : CacheStore) :
    ∃ r t gone, evictWhile cond s = (.ok r, t) ∧ Lost gone s t ∧
      ((r = true ∧ cond t = false) ∨ (r = false ∧ t.store.items = [] ∧ cond t = true)) ∧
      ∀ pre post, gone = pre ++ post → post ≠ [] → ∃ v, Lost pre s v ∧ cond v = true := by
  have hreturns : Act.Triple (fun s => True ∧ cond s = true) evictLru (fun _ _ => True) fun _ => False := by
    intro s _
    obtain ⟨b, t, h⟩ := evictLru_returns s
    rw [h]
    trivial
  have hbody : ∀ s t : CacheStore, True → evictLru s = (.ok true, t) →
      ∃ item, Evicted item s t ∧ True ∧ t.store.length < s.store.length := by
    intro s t _ h
    obtain ⟨item, he, hlt⟩ := evictLru_shrinks h
    exact ⟨item, he, trivial, hlt⟩
  have hloop := hreturns.whileDo (s.store.length + 1) s trivial
  rcases hrun : Act.whileDo cond evictLru (s.store.length + 1) s with ⟨e | r, t⟩
  · simp [hrun] at hloop
  obtain ⟨gone, u, hpops, -, hend⟩ := Act.whileDo_pops hbody _ s t r trivial
    (Nat.lt_succ_self _) hrun
  have hstop : u = t ∧ ((r = true ∧ cond u = false) ∨ (r = false ∧ u.store.items = [] ∧ cond u = true)) := by
    rcases hend with ⟨hr, rfl, hc⟩ | ⟨hr, hfalse, hc⟩
    · exact ⟨rfl, Or.inl ⟨hr, hc⟩⟩
    · rcases evictLru_ok hfalse with ⟨-, hnil, rfl⟩ | ⟨hb, -⟩
      · exact ⟨rfl, Or.inr ⟨hr, hnil, hc⟩⟩
      · cases hb
  obtain ⟨rfl, hstop⟩ := hstop
  refine ⟨r, u, gone, hrun, Lost.of_pops hpops, hstop, ?_⟩
  · rintro pre post rfl hne
    obtain ⟨v, hv, hc⟩ := hpops.cond_of_append hne
    exact ⟨v, Lost.of_pops hv, hc⟩

/-- With the byte counter right, the first loop evicts the shortest prefix that
leaves `size` bytes free, and succeeds. -/
theorem makeRoomForBytes_apply {s : CacheStore} (hs : s.Accounted) {size : ℤ}
    (hsize : size ≤ s.limits.maxMemoryBytes) :
    ∃ t gone, makeRoomForBytes size s = (.ok true, t) ∧ Lost gone s t ∧
      Trimmed (fun l => FitsMemory s.limits size (sizes l)) s.store.items gone t.store.items := by
  have hfits : ∀ l, FitsMemory s.limits size (sizes l) ↔ bytes l + size ≤ s.limits.maxMemoryBytes :=
    fun l => Iff.rfl
  by_cases hover : s.currentMemoryBytes + size > s.limits.maxMemoryBytes
  · obtain ⟨r, t, gone, hrun, hlost, hend, hleast⟩ := evictWhile_apply (fun self =>
      self.currentMemoryBytes + size > self.limits.maxMemoryBytes && !self.store.isEmpty) s
    have hacc : t.currentMemoryBytes = bytes t.store.items := hlost.accounted hs
    have hlim := hlost.limits
    have hroom : r = true ∧ bytes t.store.items + size ≤ s.limits.maxMemoryBytes := by
      rcases hend with ⟨hr, hc⟩ | ⟨-, hnil, hc⟩
      · refine ⟨hr, ?_⟩
        rcases Bool.and_eq_false_iff.mp hc with h | h
        · simp only [hlim, hacc, gt_iff_lt, decide_eq_false_iff_not, not_lt] at h
          exact h
        · have hnil : t.store.items = [] := by simpa [OrderedDict.isEmpty] using h
          rw [hnil, bytes_nil]
          omega
      · simp [OrderedDict.isEmpty, hnil] at hc
    obtain ⟨rfl, hroom⟩ := hroom
    refine ⟨t, gone, ?_, hlost, hlost.items, (hfits _).mpr hroom, ?_⟩
    · simp [makeRoomForBytes, hover, evictToFit, Act.bind_of_ok hrun, hlim, hacc, hroom]
    · intro pre post he hne hfit
      obtain ⟨v, hv, hc⟩ := hleast pre post he hne
      have hvacc : v.currentMemoryBytes = bytes v.store.items := hv.accounted hs
      simp only [Bool.and_eq_true, gt_iff_lt, decide_eq_true_eq, hvacc, hv.rest (he ▸ hlost),
        hv.limits] at hc
      have := (hfits _).mp hfit
      omega
  · refine ⟨s, [], ?_, Lost.refl s, Trimmed.nil ((hfits _).mpr ?_)⟩
    · simp [makeRoomForBytes, hover]
    · rw [← show s.currentMemoryBytes = bytes s.store.items from hs]
      omega

/-- The second loop, made for a new key only, evicts the shortest prefix that
leaves a free item, and succeeds. -/
theorem makeRoomForItem_apply (isNewKey : Bool) (s : CacheStore) :
    ∃ t gone, makeRoomForItem isNewKey s = (.ok true, t) ∧ Lost gone s t ∧
      Trimmed (fun l => isNewKey = true → FitsItems s.limits (sizes l))
        s.store.items gone t.store.items := by
  have hfits : ∀ l, FitsItems s.limits (sizes l) ↔ (l.length : ℤ) < s.limits.maxItems := by
    intro l
    simp [FitsItems, sizes]
  cases isNewKey with
  | false => exact ⟨s, [], by simp [makeRoomForItem], Lost.refl s, Trimmed.nil (by simp)⟩
  | true =>
    obtain ⟨r, t, gone, hrun, hlost, hend, hleast⟩ := evictWhile_apply (fun self =>
      decide ((self.store.length : ℤ) ≥ self.limits.maxItems)) s
    have hlim := hlost.limits
    have hroom : r = true ∧ (t.store.items.length : ℤ) < s.limits.maxItems := by
      rcases hend with ⟨hr, hc⟩ | ⟨-, hnil, hc⟩
      · simp only [ge_iff_le, decide_eq_false_iff_not, not_le, hlim, OrderedDict.length] at hc
        exact ⟨hr, hc⟩
      · -- an empty store is below every accepted `max_items`
        have hpos := s.limits.maxItems_pos
        simp only [OrderedDict.length, hnil, hlim, List.length_nil, ge_iff_le, decide_eq_true_eq] at hc
        omega
    obtain ⟨rfl, hroom⟩ := hroom
    refine ⟨t, gone, by simpa [makeRoomForItem] using hrun, hlost, hlost.items,
      fun _ => (hfits _).mpr hroom, ?_⟩
    intro pre post he hne hfit
    obtain ⟨v, hv, hc⟩ := hleast pre post he hne
    have hlt := (hfits _).mp (hfit rfl)
    simp only [ge_iff_le, decide_eq_true_eq, OrderedDict.length, hv.rest (he ▸ hlost), hv.limits] at hc
    omega

/-- A value over `max_value_bytes` is turned away; an old entry is put back, at the end. -/
theorem storeValueLocked_tooLarge {s : CacheStore} {now : Time} {key : Key} {value : Bytes}
    {ttl : Option ℤ} {old : Option CacheEntry} (h : getsizeof value > s.limits.maxValueBytes) :
    storeValueLocked now key value ttl old s =
      (.ok .valueTooLarge, { s with
        store := (old.map fun e => s.store.set key e).getD s.store
        rejectedOversize := s.rejectedOversize + 1 }) := by
  cases old with
  | none => simp [storeValueLocked, Act.bind_apply, h, restore, oldBytes]
  | some e => simp [storeValueLocked, Act.bind_apply, h, restore, oldBytes]

/-- The store after an accepted write: `gone` was evicted from its front and the new
entry put behind the rest. -/
structure Stored (s : CacheStore) (isNewKey : Bool) (key : Key) (entry : CacheEntry)
    (gone : List (Key × CacheEntry)) (t : CacheStore) (rest : List (Key × CacheEntry)) : Prop where
  trimmed : Trimmed (fun l => Fits s.limits isNewKey entry.sizeBytes (sizes l)) s.store.items gone rest
  items : t.store.items = rest ++ [(key, entry)]
  eq : t = { s with
    store := t.store
    currentMemoryBytes := bytes rest + entry.sizeBytes
    evictions := s.evictions + gone.length
    lruEvictions := s.lruEvictions + gone.length }

/-- Every other value is stored: `CAPACITY_EXHAUSTED` is never returned when the byte
counter is right. -/
theorem storeValueLocked_stored {s : CacheStore} (now : Time) {key : Key} {value : Bytes}
    (ttl : Option ℤ) {old : Option CacheEntry} (h : getsizeof value ≤ s.limits.maxValueBytes)
    (hkey : s.store.get? key = none)
    (hs : s.currentMemoryBytes = bytes s.store.items + oldBytes old) :
    ∃ t gone rest, storeValueLocked now key value ttl old s = (.ok .ok, t) ∧
      Stored s old.isNone key (CacheEntry.new value ttl now) gone t rest := by
  set s₁ : CacheStore := { s with currentMemoryBytes := s.currentMemoryBytes - oldBytes old } with hs₁
  have hacc : s₁.Accounted := by
    unfold Accounted
    simp only [hs₁, hs]
    omega
  obtain ⟨s₂, gone₁, hrun₁, hlost₁, htrim₁⟩ :=
    makeRoomForBytes_apply hacc (h.trans s₁.limits.value_le_memory)
  obtain ⟨s₃, gone₂, hrun₂, hlost₂, htrim₂⟩ := makeRoomForItem_apply old.isNone s₂
  have hlost := hlost₁.trans hlost₂
  have hacc₃ : s₃.currentMemoryBytes = bytes s₃.store.items := hlost.accounted hacc
  have hkey₃ : s₃.store.get? key = none := by
    rw [OrderedDict.get?_eq_none] at hkey ⊢
    have hitems : s.store.items = (gone₁ ++ gone₂) ++ s₃.store.items := hlost.items
    rw [OrderedDict.keys, hitems, List.map_append, List.mem_append] at hkey
    exact fun hm => hkey (Or.inr hm)
  have htrim : Trimmed (fun l => Fits s.limits old.isNone (getsizeof value) (sizes l))
      s.store.items (gone₁ ++ gone₂) s₃.store.items := by
    have hlim : s₂.limits = s.limits := hlost₁.limits
    rw [hlim] at htrim₂
    refine htrim₁.append htrim₂ ?_
    intro hfits
    have hgone := bytes_nonneg gone₂
    have hmid : sizes s₂.store.items = sizes gone₂ ++ sizes s₃.store.items := by
      rw [hlost₂.items]
      exact List.map_append
    rw [FitsMemory, hmid, List.sum_append] at hfits
    rw [FitsMemory]
    have : bytes gone₂ = (sizes gone₂).sum := rfl
    omega
  refine ⟨{ s₃ with
      store := s₃.store.putLast key (CacheEntry.new value ttl now)
      currentMemoryBytes := s₃.currentMemoryBytes + getsizeof value },
    gone₁ ++ gone₂, s₃.store.items, ?_, htrim, OrderedDict.putLast_of_none hkey₃ _, ?_⟩
  · have hle : ¬ s₁.limits.maxValueBytes < getsizeof value := not_lt.mpr h
    simp [storeValueLocked, ← hs₁, hle, Act.bind_of_ok hrun₁, Act.bind_of_ok hrun₂,
      OrderedDict.set_of_none hkey₃]
  · rw [hacc₃, hlost.eq]
    rfl

variable {s : CacheStore} {clock : ℕ → Time} {key : Key} {value : Bytes} {ttl : Option ℤ}
  {entry : CacheEntry}

theorem get_invalid {x : PyError} (h : validateKey key = .error x) :
    get clock key s = (.error x, s) := by
  simp [get, Act.bind_apply, h]

theorem get_missing (hv : validateKey key = .ok ()) (h : s.store.get? key = none) :
    get clock key s = (.ok none, { s with misses := s.misses + 1 }) := by
  simp [get, Act.bind_apply, hv, h]

theorem get_expired (hv : validateKey key = .ok ()) (h : s.store.get? key = some entry)
    (hx : entry.isExpired (clock 0) = true) :
    get clock key s = (.ok none, { s.expire key entry with misses := s.misses + 1 }) := by
  have hrm : removeExpiredEntry key { s with misses := s.misses + 1 } = _ :=
    removeExpiredEntry_apply h
  simp [get, Act.bind_apply, hv, h, isExpired, hx, hrm, expire, without]

theorem get_hit (hv : validateKey key = .ok ()) (h : s.store.get? key = some entry)
    (hx : entry.isExpired (clock 0) = false) :
    get clock key s = (.ok (some entry.value),
      { s with store := s.store.moveToEnd key, hits := s.hits + 1 }) := by
  simp [get, Act.bind_apply, hv, h, isExpired, hx]

/-- The store without the entry that `pop` has taken, its bytes still counted. -/
def popped (s : CacheStore) (key : Key) : CacheStore := { s with store := s.store.erase key }

theorem set_invalid {x : PyError} (h : validateKey key = .error x) :
    set clock key value ttl s = (.error x, s) := by
  simp [set, Act.bind_apply, h]

theorem set_valid (hv : validateKey key = .ok ()) :
    set clock key value ttl s =
      storeValueLocked (clock 0) key value ttl (s.store.get? key) (s.popped key) := by
  simp [set, Act.bind_apply, hv, popped]

theorem setIfAbsent_invalid {x : PyError} (h : validateKey key = .error x) :
    setIfAbsent clock key value ttl s = (.error x, s) := by
  simp [setIfAbsent, Act.bind_apply, h]

/-- The conditional status of what `_store_value_locked` did. -/
def conditionally (x : Except PyError CacheSetStatus × CacheStore) :
    Except PyError CacheConditionalSetStatus × CacheStore :=
  (x.1.map conditionalStatusFromSetStatus, x.2)

theorem bind_conditionally (m : Act PyError CacheStore CacheSetStatus) (s : CacheStore) :
    (m >>= fun st => pure (conditionalStatusFromSetStatus st)) s = conditionally (m s) := by
  rw [Act.bind_apply, conditionally]
  rcases m s with ⟨_ | st, t⟩ <;> rfl

theorem setIfAbsent_missing (hv : validateKey key = .ok ()) (h : s.store.get? key = none) :
    setIfAbsent clock key value ttl s =
      conditionally (storeValueLocked (clock 1) key value ttl none s) := by
  rw [← bind_conditionally]
  simp [setIfAbsent, Act.bind_apply, hv, h]

theorem setIfAbsent_expired (hv : validateKey key = .ok ()) (h : s.store.get? key = some entry)
    (hx : entry.isExpired (clock 0) = true) :
    setIfAbsent clock key value ttl s =
      conditionally (storeValueLocked (clock 1) key value ttl none (s.expire key entry)) := by
  rw [← bind_conditionally]
  simp [setIfAbsent, Act.bind_apply, hv, h, isExpired, hx, removeExpiredEntry_apply h]

theorem setIfAbsent_exists (hv : validateKey key = .ok ()) (h : s.store.get? key = some entry)
    (hx : entry.isExpired (clock 0) = false) :
    setIfAbsent clock key value ttl s = (.ok .exists_, s) := by
  simp [setIfAbsent, Act.bind_apply, hv, h, isExpired, hx]

variable {expectedValue : Bytes}

theorem compareAndSet_invalid {x : PyError} (h : validateKey key = .error x) :
    compareAndSet clock key expectedValue value ttl s = (.error x, s) := by
  simp [compareAndSet, Act.bind_apply, h]

theorem compareAndSet_missing (hv : validateKey key = .ok ()) (h : s.store.get? key = none) :
    compareAndSet clock key expectedValue value ttl s = (.ok .notFound, s) := by
  simp [compareAndSet, Act.bind_apply, hv, h]

theorem compareAndSet_expired (hv : validateKey key = .ok ()) (h : s.store.get? key = some entry)
    (hx : entry.isExpired (clock 0) = true) :
    compareAndSet clock key expectedValue value ttl s = (.ok .notFound, s.expire key entry) := by
  simp [compareAndSet, Act.bind_apply, hv, h, isExpired, hx, removeExpiredEntry_apply h]

theorem compareAndSet_mismatch (hv : validateKey key = .ok ()) (h : s.store.get? key = some entry)
    (hx : entry.isExpired (clock 0) = false) (hne : entry.value ≠ expectedValue) :
    compareAndSet clock key expectedValue value ttl s = (.ok .mismatch, s) := by
  simp [compareAndSet, Act.bind_apply, hv, h, isExpired, hx, hne]

theorem compareAndSet_match (hv : validateKey key = .ok ()) (h : s.store.get? key = some entry)
    (hx : entry.isExpired (clock 0) = false) (he : entry.value = expectedValue) :
    compareAndSet clock key expectedValue value ttl s =
      conditionally (storeValueLocked (clock 1) key value ttl (some entry) (s.popped key)) := by
  rw [← bind_conditionally]
  simp [compareAndSet, Act.bind_apply, hv, h, isExpired, hx, he, popped]

theorem delete_invalid {x : PyError} (h : validateKey key = .error x) :
    delete key s = (.error x, s) := by
  simp [delete, Act.bind_apply, h]

theorem delete_missing (hv : validateKey key = .ok ()) (h : s.store.get? key = none) :
    delete key s = (.ok false, s) := by
  simp [delete, Act.bind_apply, hv, OrderedDict.contains, h]

theorem delete_present (hv : validateKey key = .ok ()) (h : s.store.get? key = some entry) :
    delete key s = (.ok true, s.without key entry) := by
  simp [delete, Act.bind_apply, hv, OrderedDict.contains, h, removeEntry_apply h]

end TinyCache.CacheStore
