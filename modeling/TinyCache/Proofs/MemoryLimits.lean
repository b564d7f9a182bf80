import TinyCache.Library.Machine
import TinyCache.Sanity.MemoryStep

/-! The byte counter and the limits of the in-memory store along every run. A write
breaks the invariant half way, while the old entry is popped and still counted;
`Within` is stated on the items with the popped entry added back, so that it
holds on both sides of the write. -/

namespace TinyCache.CacheStore

open Machine

/-- `memory` counts the bytes of `items`, and both are inside the limits. -/
structure Within (limits : CacheStoreLimits) (memory : ℤ) (items : List (Key × CacheEntry)) : Prop where
  counted : memory = bytes items
  memory_le : memory ≤ limits.maxMemoryBytes
  items_le : (items.length : ℤ) ≤ limits.maxItems
  values_le : ∀ p ∈ items, p.2.sizeBytes ≤ limits.maxValueBytes

def Inv (s : CacheStore) : Prop := Within s.limits s.currentMemoryBytes s.store.items

theorem Within.subperm {limits : CacheStoreLimits} {memory : ℤ} {items items' : List (Key × CacheEntry)}
    (h : Within limits memory items) (hsub : items'.Subperm items) :
    Within limits (bytes items') items' := by
  have hle := bytes_subperm hsub
  have hmem := h.memory_le
  have hbytes := h.counted
  have hlen := hsub.length_le
  have hitems := h.items_le
  refine ⟨rfl, by omega, by omega, ?_⟩
  intro p hp
  exact h.values_le p (hsub.subset hp)

theorem Inv.shrink {s t : CacheStore} (h : s.Inv) (hlim : t.limits = s.limits)
    (hacc : t.Accounted) (hsub : t.store.items.Subperm s.store.items) : t.Inv := by
  have hw := Within.subperm h hsub
  rw [← hlim, ← show t.currentMemoryBytes = bytes t.store.items from hacc] at hw
  exact hw

theorem init_inv (limits : CacheStoreLimits) : (init limits).Inv := by
  have h1 := limits.maxValueBytes_pos
  have h2 := limits.value_le_memory
  have h3 := limits.maxItems_pos
  refine ⟨rfl, ?_, ?_, ?_⟩
  · simp only [init]
    omega
  · simp only [init, OrderedDict.empty, List.length_nil, Nat.cast_zero]
    omega
  · simp [init, OrderedDict.empty]

theorem expire_inv {s : CacheStore} {key : Key} {e : CacheEntry} (h : s.Inv)
    (hk : s.store.get? key = some e) : (s.expire key e).Inv :=
  h.shrink rfl (without_accounted hk h.counted) List.filter_sublist.subperm

/-- The items with the popped entry added back. -/
def whole (s : CacheStore) (key : Key) (old : Option CacheEntry) : List (Key × CacheEntry) :=
  s.store.items ++ (old.map fun e => (key, e)).toList

theorem popped_whole (s : CacheStore) (key : Key) :
    ((s.popped key).whole key (s.store.get? key)).Perm s.store.items := by
  unfold whole popped
  cases h : s.store.get? key with
  | none => simp [OrderedDict.erase_of_none h]
  | some e => exact (List.perm_append_singleton _ _).trans (OrderedDict.perm_erase h).symm

theorem popped_within {s : CacheStore} (h : s.Inv) (key : Key) :
    Within (s.popped key).limits (s.popped key).currentMemoryBytes
      ((s.popped key).whole key (s.store.get? key)) := by
  have hw := Within.subperm h (popped_whole s key).subperm
  rwa [bytes_perm (popped_whole s key), ← h.counted] at hw

/-- Every way out of `_store_value_locked` restores the invariant. -/
theorem write_inv {s t : CacheStore} {now : Time} {key : Key} {value : Bytes} {ttl : Option ℤ}
    {old : Option CacheEntry} {st : CacheSetStatus} (hkey : s.store.get? key = none)
    (h : Within s.limits s.currentMemoryBytes (s.whole key old))
    (hw : WriteOutcome s now key value ttl old st t) : t.Inv := by
  cases hw with
  | tooLarge hsize =>
    have hitems : ((old.map fun e => s.store.set key e).getD s.store).items = s.whole key old := by
      cases old with
      | none => simp [whole]
      | some e => simp [whole, OrderedDict.set_of_none hkey, OrderedDict.putLast_of_none hkey]
    unfold Inv
    simp only [hitems]
    exact h
  | stored hsize hst =>
    rename_i gone rest
    have hfits := hst.trimmed.fits
    have hsplit := hst.trimmed.split
    have hlim : t.limits = s.limits := by rw [hst.eq]
    have hmem : t.currentMemoryBytes = bytes rest + getsizeof value := by rw [hst.eq]; rfl
    have hcount : ((rest ++ [(key, CacheEntry.new value ttl now)]).length : ℤ) ≤ s.limits.maxItems := by
      rw [List.length_append, List.length_singleton]
      cases old with
      | none =>
        have := hfits.2 rfl
        simp only [sizes, List.length_map] at this
        push_cast
        omega
      | some e =>
        -- the popped entry has left one item free
        have := h.items_le
        simp only [whole, hsplit, List.length_append, Option.map_some, Option.toList_some,
          List.length_singleton] at this
        push_cast at this ⊢
        omega
    unfold Inv
    rw [hlim, hmem, hst.items]
    refine ⟨by simp, hfits.1, hcount, ?_⟩
    intro p hp
    rcases List.mem_append.mp hp with hp | hp
    · exact h.values_le p (List.mem_append_left _ (hsplit ▸ List.mem_append_right _ hp))
    · rw [List.mem_singleton.mp hp]
      exact hsize

/-- One step keeps the counter right and the store inside its limits. -/
theorem step_inv {s : CacheStore} (h : s.Inv) (event : Event) : (step s event).2.Inv := by
  obtain ⟨action, clock⟩ := event
  have hout := step_outcome h.counted ⟨action, clock⟩
  revert hout
  generalize (step s ⟨action, clock⟩).1 = reply
  generalize (step s ⟨action, clock⟩).2 = t
  intro hout
  cases hout with
  | invalid => exact h
  | getMissing => exact h
  | getExpired _ hk => exact expire_inv h hk
  | getHit =>
    refine h.shrink rfl ?_ (OrderedDict.perm_moveToEnd _ _).subperm
    exact h.counted.trans (bytes_perm (OrderedDict.perm_moveToEnd _ _)).symm
  | @set key _ _ _ _ _ hw => exact write_inv (popped_get? s key) (popped_within h key) hw
  | setIfAbsentExists => exact h
  | setIfAbsentMissing _ hk hw => exact write_inv hk (by simpa [whole, Inv] using h) hw
  | @setIfAbsentExpired key _ _ e _ _ _ hk _ hw =>
    refine write_inv (s := s.expire key e) (popped_get? s key) ?_ hw
    simpa [whole, Inv] using expire_inv h hk
  | compareAndSetMissing => exact h
  | compareAndSetExpired _ hk => exact expire_inv h hk
  | compareAndSetMismatch => exact h
  | @compareAndSetMatch key _ _ _ _ _ _ _ hk _ _ hw =>
    have hpop := popped_within h key
    rw [hk] at hpop
    exact write_inv (popped_get? s key) hpop hw
  | deleteMissing => exact h
  | deletePresent _ hk => exact h.shrink rfl (without_accounted hk h.counted) List.filter_sublist.subperm
  | stats hp =>
    refine h.shrink (by rw [hp.eq]) ?_ (by rw [hp.items]; exact List.filter_sublist.subperm)
    unfold Accounted
    rw [hp.eq]
    simp only [← show s.currentMemoryBytes = bytes s.store.items from h.counted]
    omega
  | clear => exact init_inv s.limits
  | cleanerKept => exact h
  | cleanerRemoved hk => exact expire_inv h hk

theorem WriteOutcome.limits {s t : CacheStore} {now : Time} {key : Key} {value : Bytes}
    {ttl : Option ℤ} {old : Option CacheEntry} {st : CacheSetStatus}
    (hw : WriteOutcome s now key value ttl old st t) : t.limits = s.limits := by
  cases hw with
  | tooLarge => rfl
  | stored _ hst => rw [hst.eq]

theorem Outcome.limits {s t : CacheStore} {clock : ℕ → Time} {action : Action}
    {reply : Except PyError Reply} (h : Outcome s clock action reply t) : t.limits = s.limits := by
  cases h with
  | set _ hw => exact hw.limits
  | setIfAbsentMissing _ _ hw => exact hw.limits
  | setIfAbsentExpired _ _ _ hw => exact hw.limits
  | compareAndSetMatch _ _ _ _ hw => exact hw.limits
  | stats hp => rw [hp.eq]
  | _ => rfl

theorem exec_inv (limits : CacheStoreLimits) (events : List Event) :
    (exec step (init limits) events).Inv ∧ (exec step (init limits) events).limits = limits := by
  refine exec_always (I := fun s : CacheStore => s.Inv ∧ s.limits = limits) ?_
    ⟨init_inv limits, rfl⟩ events
  intro s event hs
  refine ⟨step_inv hs.1 event, ?_⟩
  rw [(step_outcome hs.1.counted event).limits, hs.2]

/-- Every step of a run from empty starts within the limits and is one of the outcomes. -/
theorem trace_outcome (limits : CacheStoreLimits) (events : List Event) :
    ∀ r ∈ trace step (init limits) events, r.before.Inv ∧
      Outcome r.before r.input.clock r.input.action r.output r.after := by
  intro r hr
  obtain ⟨hinv, hrec⟩ := trace_always (I := Inv) (fun _ event hs => step_inv hs event) (init_inv limits) hr
  refine ⟨hinv, ?_⟩
  rw [hrec]
  exact step_outcome hinv.counted _

theorem trace_limits (limits : CacheStoreLimits) (events : List Event) :
    ∀ r ∈ trace step (init limits) events, r.before.limits = limits := by
  intro r hr
  obtain ⟨es, e, es', -, -, rfl⟩ := trace_split (List.append_of_mem hr).choose_spec.choose_spec
  exact (exec_inv limits es).2

theorem new_ok {args : LimitArgs} {s : CacheStore} (h : new args = .ok s) :
    CacheStoreLimits.resolve args = .ok s.limits ∧ s = init s.limits := by
  unfold new at h
  cases hr : CacheStoreLimits.resolve args with
  | error e => simp [hr, Except.map] at h
  | ok limits =>
    simp only [hr, Except.map, Except.ok.injEq] at h
    subst h
    exact ⟨rfl, rfl⟩

/-- In every state reached from an empty store the byte counter is the sum of the
sizes, and the store is inside the limits it was built with. -/
theorem memory_within_limits {args : LimitArgs} {limits : CacheStoreLimits} {s₀ : CacheStore}
    (hl : CacheStoreLimits.resolve args = .ok limits) (h : new args = .ok s₀) (events : List Event) :
    let s := exec step s₀ events
    s.currentMemoryBytes = (s.store.items.map fun p => p.2.sizeBytes).sum ∧
      s.currentMemoryBytes ≤ limits.maxMemoryBytes ∧
      (s.store.length : ℤ) ≤ limits.maxItems ∧
      ∀ p ∈ s.store.items, p.2.sizeBytes ≤ limits.maxValueBytes := by
  obtain ⟨hr, hinit⟩ := new_ok h
  have hlim : s₀.limits = limits := Except.ok.inj (hr.symm.trans hl)
  rw [hinit, hlim]
  obtain ⟨hinv, hlimits⟩ := exec_inv limits events
  rw [Inv, hlimits] at hinv
  exact ⟨hinv.counted, hinv.memory_le, hinv.items_le, hinv.values_le⟩

/-- One item at most: the second key evicts the first, and the oversize value is turned away. -/
theorem memory_within_limits_run :
    let s := exec step (init (.small 0)) [(Op.set "a" [1] none).atTime 0,
      (Op.set "b" [2, 3] (some 5)).atTime 0, (Op.set "b" [1, 2, 3, 4, 5, 6, 7, 8] none).atTime 1]
    s.currentMemoryBytes = (s.store.items.map fun p => p.2.sizeBytes).sum ∧
      s.currentMemoryBytes ≤ 1048576 ∧ (s.store.length : ℤ) ≤ 1 ∧
      ∀ p ∈ s.store.items, p.2.sizeBytes ≤ 40 :=
  @memory_within_limits ⟨some 1, some 1, some 10, some 40⟩ (.small 0) (init (.small 0)) rfl rfl _

end TinyCache.CacheStore
