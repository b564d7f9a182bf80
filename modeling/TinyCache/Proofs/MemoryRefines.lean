import TinyCache.Proofs.MemoryLimits
import TinyCache.Spec.Cache

/-! The in-memory store is a cache: its entries, looked up by key, move as `Allowed`
says. The write path pops the old entry first, so its case is stated from the map
in which that entry is still there. -/

namespace TinyCache.CacheStore

def entries (s : CacheStore) : Entries := s.store.get?

theorem expire_entries {s : CacheStore} {key : Key} {e : CacheEntry} :
    (s.expire key e).entries = s.entries.erase key := by
  funext x
  by_cases hx : x = key
  · subst hx
    simp [entries, expire, without]
  · rw [Entries.erase_of_ne _ hx]
    exact OrderedDict.get?_erase_of_ne _ hx

/-- An entry that an accepted write left was there before, or is the one written. -/
theorem Stored.entries_of_ne {s t : CacheStore} {isNewKey : Bool} {key : Key} {entry : CacheEntry}
    {gone rest : List (Key × CacheEntry)} (h : Stored s isNewKey key entry gone t rest) {x : Key}
    (hx : x ≠ key) : t.entries x = s.entries x ∨ t.entries x = none := by
  cases ht : t.entries x with
  | none => exact Or.inr rfl
  | some e =>
    have hm := OrderedDict.get?_eq_some.mp ht
    rw [h.items, List.mem_append, List.mem_singleton] at hm
    rcases hm with hm | hm
    · exact Or.inl (OrderedDict.get?_eq_some.mpr (h.trimmed.suffix.subset hm)).symm
    · exact absurd (congrArg Prod.fst hm) hx

theorem Stored.entries_self {s t : CacheStore} {isNewKey : Bool} {key : Key} {entry : CacheEntry}
    {gone rest : List (Key × CacheEntry)} (h : Stored s isNewKey key entry gone t rest) :
    t.entries key = some entry := by
  refine OrderedDict.get?_eq_some.mpr ?_
  rw [h.items]
  simp

/-- The write path, from the map `m` that still has the popped entry. -/
theorem WriteOutcome.written {s t : CacheStore} {now : Time} {key : Key} {value : Bytes}
    {ttl : Option ℤ} {old : Option CacheEntry} {st : CacheSetStatus} {m : Entries}
    (hw : WriteOutcome s now key value ttl old st t) (hpop : s.store.get? key = none)
    (hold : m key = old) (hm : ∀ x, x ≠ key → m x = s.entries x) :
    Written s.limits.maxValueBytes now key value ttl m st t.entries := by
  cases hw with
  | tooLarge h =>
    have he : entries { s with
        store := (old.map fun e => s.store.set key e).getD s.store
        rejectedOversize := s.rejectedOversize + 1 } = m := by
      funext x
      by_cases hx : x = key
      · subst hx
        cases old with
        | none => exact hpop.trans hold.symm
        | some e => simp [entries, OrderedDict.set_of_none hpop, OrderedDict.get?_putLast, hold]
      · rw [hm x hx]
        cases old with
        | none => rfl
        | some e => simp [entries, OrderedDict.set_of_none hpop, OrderedDict.get?_putLast, hx]
    rw [he]
    exact .tooLarge h
  | stored h hst =>
    refine .stored h hst.entries_self ?_
    intro x hx
    rw [hm x hx]
    exact hst.entries_of_ne hx

theorem Purged.entries {clock : ℕ → Time} {s t : CacheStore}
    (hp : Purged (expiredKeys clock s.store.items) s t) (x : Key) :
    t.entries x = s.entries x ∨ ∃ i, t.entries x = s.entries.purge (clock i) x x := by
  have ht : t.entries x = if x ∈ expiredKeys clock s.store.items then none else s.entries x :=
    OrderedDict.get?_of_filter_notMem hp.items x
  by_cases hx : x ∈ expiredKeys clock s.store.items
  · obtain ⟨i, e, hi, he⟩ := mem_expiredKeys.mp hx
    have hs : s.entries x = some e := OrderedDict.get?_eq_some.mpr (List.mem_of_getElem? hi)
    refine Or.inr ⟨i, ?_⟩
    rw [ht, if_pos hx, Entries.purge_eq_erase hs he, Entries.erase_self]
  · exact Or.inl (ht.trans (if_neg hx))

section

variable {s : CacheStore} {now : Time} {key : Key} {e : CacheEntry}

theorem purge_missing (now : Time) (h : s.store.get? key = none) : s.entries.purge now key = s.entries := by
  refine Entries.purge_eq_self ?_
  intro e he
  rw [show s.entries key = none from h] at he
  cases he

theorem purge_live (h : s.store.get? key = some e) (hx : e.isExpired now = false) :
    s.entries.purge now key = s.entries := by
  refine Entries.purge_eq_self ?_
  intro e' he
  rw [show s.entries key = some e from h, Option.some.injEq] at he
  exact he ▸ hx

theorem purge_expired (h : s.store.get? key = some e) (hx : e.isExpired now = true) :
    s.entries.purge now key = (s.expire key e).entries := by
  rw [expire_entries]
  exact Entries.purge_eq_erase h hx

end

theorem Outcome.allowed {s t : CacheStore} {clock : ℕ → Time} {action : Action}
    {reply : Except PyError Reply} (h : Outcome s clock action reply t) :
    Allowed s.limits.maxValueBytes clock s.entries action reply t.entries := by
  cases h with
  | invalid hk hv => exact .invalid hk hv
  | @getMissing key hv h =>
    have hp := purge_missing (clock 0) h
    refine (Allowed.get hv).of_eq ?_ hp
    rw [hp, show s.entries key = none from h, Option.map_none]
  | @getExpired key e hv h hx =>
    have hp := purge_expired h hx
    refine (Allowed.get hv).of_eq ?_ hp
    rw [hp, expire_entries, Entries.erase_self, Option.map_none]
  | @getHit key e hv h hx =>
    have hp := purge_live h hx
    refine (Allowed.get hv).of_eq ?_ (hp.trans ?_)
    · rw [hp, show s.entries key = some e from h, Option.map_some]
    · exact funext fun x => (OrderedDict.get?_moveToEnd _ _ x).symm
  | @set key _ _ _ _ hv hw =>
    refine .set hv (hw.written (popped_get? s key) rfl ?_)
    exact fun x hx => (OrderedDict.get?_erase_of_ne _ hx).symm
  | setIfAbsentExists hv h hx =>
    exact (Allowed.setIfAbsentExists hv (Entries.purge_eq_some.mpr ⟨h, hx⟩)).of_eq rfl (purge_live h hx)
  | @setIfAbsentMissing key _ _ _ _ hv h hw =>
    have hp := purge_missing (clock 0) h
    refine .setIfAbsent hv (by rw [hp]; exact h) ?_
    rw [hp]
    exact hw.written h h fun _ _ => rfl
  | @setIfAbsentExpired key _ _ e _ _ hv h hx hw =>
    have hp := purge_expired h hx
    have hnone : (s.expire key e).store.get? key = none := popped_get? s key
    refine .setIfAbsent hv (by rw [hp]; exact hnone) ?_
    rw [hp]
    exact hw.written hnone hnone fun _ _ => rfl
  | compareAndSetMissing hv h =>
    have hp := purge_missing (clock 0) h
    exact (Allowed.compareAndSetMissing hv (by rw [hp]; exact h)).of_eq rfl hp
  | compareAndSetExpired hv h hx =>
    have hp := purge_expired h hx
    refine (Allowed.compareAndSetMissing hv ?_).of_eq rfl hp
    rw [hp, expire_entries, Entries.erase_self]
  | compareAndSetMismatch hv h hx hne =>
    exact (Allowed.compareAndSetMismatch hv (Entries.purge_eq_some.mpr ⟨h, hx⟩) hne).of_eq rfl
      (purge_live h hx)
  | @compareAndSetMatch key _ _ _ _ _ _ hv h hx he hw =>
    refine .compareAndSet hv (Entries.purge_eq_some.mpr ⟨h, hx⟩) he ?_
    rw [purge_live h hx]
    exact hw.written (popped_get? s key) h fun x hx => (OrderedDict.get?_erase_of_ne _ hx).symm
  | @deleteMissing key hv h =>
    refine (Allowed.delete hv).of_eq ?_ ?_
    · rw [show s.entries key = none from h, Option.isSome_none]
    · funext x
      by_cases hx : x = key
      · rw [hx, Entries.erase_self]
        exact h.symm
      · exact Entries.erase_of_ne _ hx
  | @deletePresent key e hv h =>
    refine (Allowed.delete hv).of_eq ?_ (expire_entries (s := s) (e := e)).symm
    rw [show s.entries key = some e from h, Option.isSome_some]
  | stats hp => exact .stats hp.entries
  | clear => exact .clear
  | cleanerKept h => exact Allowed.cleaner.of_eq rfl (Entries.purge_eq_self h)
  | cleanerRemoved h hx => exact Allowed.cleaner.of_eq rfl (purge_expired h hx)

theorem refines (limits : CacheStoreLimits) :
    Refines step entries limits.maxValueBytes (fun s => s.Inv ∧ s.limits = limits) (init limits) where
  empty := rfl
  init := ⟨init_inv limits, rfl⟩
  keeps s event h := ⟨step_inv h.1 event, by rw [(step_outcome h.1.counted event).limits, h.2]⟩
  allowed s event h := h.2 ▸ (step_outcome h.1.counted event).allowed

end TinyCache.CacheStore
