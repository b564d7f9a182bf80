import TinyCache.Proofs.MemoryHistory

/-! What an accepted write evicts: the shortest prefix of the order of the other keys that
makes room for the new entry. The two loops of the source, the second for new keys only,
come to one condition, since a present key leaves its own place. -/

namespace TinyCache.CacheStore

open Machine

/-- The items leave room for one more of `size` bytes. -/
def Room (limits : CacheStoreLimits) (size : ℤ) (items : List (Key × CacheEntry)) : Prop :=
  bytes items + size ≤ limits.maxMemoryBytes ∧ (items.length : ℤ) + 1 ≤ limits.maxItems

theorem room_iff {limits : CacheStoreLimits} {size : ℤ} {items : List (Key × CacheEntry)} :
    Room limits size items ↔ Fits limits true size (sizes items) := by
  unfold Room Fits bytes sizes
  rw [List.length_map]
  simp only [true_imp_iff, Int.add_one_le_iff]

theorem Room.subperm {limits : CacheStoreLimits} {size : ℤ} {items items' : List (Key × CacheEntry)}
    (h : Room limits size items) (hsub : items'.Subperm items) : Room limits size items' := by
  have hbytes := bytes_subperm hsub
  have hlen := hsub.length_le
  have hmem := h.1
  have hitems := h.2
  exact ⟨by omega, by omega⟩

/-- `gone` was evicted, and nothing more, to make room for the new entry behind the rest. -/
structure Replaced (s t : CacheStore) (w : Write) (gone rest : List (Key × CacheEntry)) : Prop where
  trimmed : Trimmed (Room s.limits w.entry.sizeBytes) (s.store.erase w.key).items gone rest
  items : t.store.items = rest ++ [(w.key, w.entry)]
  evicted : t.lruEvictions = s.lruEvictions + gone.length

theorem Stored.replaced {s s' t : CacheStore} {isNewKey : Bool} {w : Write}
    {gone rest : List (Key × CacheEntry)} (h : Stored s' isNewKey w.key w.entry gone t rest)
    (hstore : s'.store = s.store.erase w.key) (hlimits : s'.limits = s.limits)
    (hevicted : s'.lruEvictions = s.lruEvictions)
    (hnew : isNewKey = false → ((s.store.erase w.key).items.length : ℤ) + 1 ≤ s.limits.maxItems) :
    Replaced s t w gone rest := by
  refine ⟨?_, h.items, by rw [h.eq, hevicted]⟩
  have htrim := h.trimmed
  rw [hstore, hlimits] at htrim
  refine htrim.congr ?_
  intro m hm
  rw [room_iff]
  cases isNewKey with
  | true => exact Iff.rfl
  | false =>
    have hlen : m.length ≤ (s.store.erase w.key).items.length := hm.length_le
    have hspace := hnew rfl
    unfold Fits sizes
    rw [List.length_map]
    refine and_congr_right fun _ => ⟨fun _ _ => by omega, fun _ hf => nomatch hf⟩

theorem Inv.erase_length {s : CacheStore} (h : s.Inv) {key : Key} {e : CacheEntry}
    (hk : s.store.get? key = some e) :
    ((s.store.erase key).items.length : ℤ) + 1 ≤ s.limits.maxItems := by
  have hlen := OrderedDict.length_erase hk
  have hitems := h.items_le
  unfold OrderedDict.length at hlen
  omega

theorem Outcome.replaced {s t : CacheStore} (hs : s.Inv) {event : Event} {reply : Except PyError Reply}
    (h : Outcome s event.clock event.action reply t) {w : Write}
    (hw : accepted? event reply = some w) : ∃ gone rest, Replaced s t w gone rest := by
  obtain ⟨action, clock⟩ := event
  cases h with
  | @set key value ttl st t _ hwrite =>
    cases hwrite with
    | tooLarge => cases hw
    | stored _ hst =>
      cases hw
      refine ⟨_, _, Stored.replaced (w := ⟨key, value, ttl, clock 0⟩) hst rfl rfl rfl fun hnew => ?_⟩
      rw [Option.isNone_eq_false_iff, Option.isSome_iff_exists] at hnew
      obtain ⟨e, he⟩ := hnew
      exact hs.erase_length he
  | @setIfAbsentMissing key value ttl st t _ hk hwrite =>
    cases hwrite with
    | tooLarge => cases hw
    | stored _ hst =>
      cases hw
      exact ⟨_, _, Stored.replaced (w := ⟨key, value, ttl, clock 1⟩) hst
        (OrderedDict.erase_of_none hk).symm rfl rfl fun hnew => nomatch hnew⟩
  | @setIfAbsentExpired key value ttl e st t _ hk _ hwrite =>
    cases hwrite with
    | tooLarge => cases hw
    | stored _ hst =>
      cases hw
      exact ⟨_, _, Stored.replaced (w := ⟨key, value, ttl, clock 1⟩) hst rfl rfl rfl
        fun hnew => nomatch hnew⟩
  | @compareAndSetMatch key _ value ttl e st t _ hk _ _ hwrite =>
    cases hwrite with
    | tooLarge => cases hw
    | stored _ hst =>
      cases hw
      exact ⟨_, _, Stored.replaced (w := ⟨key, value, ttl, clock 1⟩) hst rfl rfl rfl
        fun _ => hs.erase_length hk⟩
  | _ => cases hw

theorem Replaced.key_notMem {s t : CacheStore} {w : Write} {gone rest : List (Key × CacheEntry)}
    (h : Replaced s t w gone rest) : w.key ∉ gone.map Prod.fst := by
  intro hmem
  obtain ⟨p, hp, hkey⟩ := List.mem_map.mp hmem
  have hp' : p ∈ (s.store.erase w.key).items := by
    rw [h.trimmed.split]
    exact List.mem_append_left _ hp
  exact (OrderedDict.mem_erase.mp hp').2 hkey

theorem Replaced.mem_gone {s t : CacheStore} {w : Write} {gone rest : List (Key × CacheEntry)}
    (h : Replaced s t w gone rest) {key : Key} (hne : key ≠ w.key) {e : CacheEntry}
    (hb : s.entries key = some e) (ha : t.entries key = none) : key ∈ gone.map Prod.fst := by
  have hmem : (key, e) ∈ gone ++ rest := by
    rw [← h.trimmed.split, OrderedDict.mem_erase]
    exact ⟨OrderedDict.get?_eq_some.mp hb, hne⟩
  rcases List.mem_append.mp hmem with hm | hm
  · exact List.mem_map_of_mem hm
  · refine absurd ?_ (OrderedDict.get?_eq_none.mp ha)
    rw [OrderedDict.keys, h.items, List.map_append, List.mem_append]
    exact Or.inl (List.mem_map_of_mem hm)

theorem Replaced.gone_eq_nil {s t : CacheStore} (hs : s.Inv) {w : Write}
    {gone rest : List (Key × CacheEntry)} (h : Replaced s t w gone rest) {e : CacheEntry}
    (hk : s.store.get? w.key = some e) (hsize : w.entry.sizeBytes ≤ e.sizeBytes) : gone = [] := by
  refine h.trimmed.gone_eq_nil ⟨?_, hs.erase_length hk⟩
  have hbytes := bytes_erase hk
  have hcounted := hs.counted
  have hmem := hs.memory_le
  omega

/-- An accepted write moves the order of the other keys up by the shortest prefix that
makes room, puts its entry last, and evicts nothing when it writes over an entry that is
not smaller. -/
theorem eviction_minimal (limits : CacheStoreLimits) (events : List Event) {r : Obs CacheStore}
    (hr : r ∈ trace step (init limits) events) {w : Write} (hw : r.write? = some w) :
    ∃ gone rest,
      Trimmed (fun l => bytes l + w.entry.sizeBytes ≤ limits.maxMemoryBytes ∧
        (l.length : ℤ) + 1 ≤ limits.maxItems) (r.before.store.erase w.key).items gone rest ∧
      r.after.store.items = rest ++ [(w.key, w.entry)] ∧
      r.after.lruEvictions = r.before.lruEvictions + gone.length ∧
      (∀ e, r.before.store.get? w.key = some e → w.entry.sizeBytes ≤ e.sizeBytes → gone = []) ∧
      w.key ∉ gone.map Prod.fst := by
  obtain ⟨hinv, hout⟩ := trace_outcome limits events r hr
  have hlimits : r.before.limits = limits := trace_limits limits events r hr
  obtain ⟨gone, rest, h⟩ := hout.replaced hinv hw
  refine ⟨gone, rest, ?_, h.items, h.evicted, fun e hk => h.gone_eq_nil hinv hk, h.key_notMem⟩
  have htrim := h.trimmed
  rw [hlimits] at htrim
  exact htrim

/-- With room for one item, the write of `b` evicts `a`. -/
theorem eviction_minimal_run :
    ∃ r ∈ trace step (init (.small 0)) [(Op.set "a" [1] none).atTime 0, (Op.set "b" [2] none).atTime 1],
      ∃ gone rest, gone ++ rest = [("a", CacheEntry.new [1] none 0)] ∧
        r.after.store.items = rest ++ [("b", CacheEntry.new [2] none 1)] ∧
        r.after.lruEvictions = r.before.lruEvictions + gone.length := by
  refine ⟨_, List.mem_cons_of_mem _ List.mem_cons_self, ?_⟩
  obtain ⟨gone, rest, htrim, hitems, hevicted, -⟩ := eviction_minimal (.small 0)
    [(Op.set "a" [1] none).atTime 0, (Op.set "b" [2] none).atTime 1]
    (List.mem_cons_of_mem _ List.mem_cons_self) (w := ⟨"b", [2], none, 1⟩) rfl
  exact ⟨gone, rest, htrim.split.symm, hitems, hevicted⟩

end TinyCache.CacheStore
