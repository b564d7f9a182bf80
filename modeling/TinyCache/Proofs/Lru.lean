import TinyCache.Proofs.MemoryRefines
import TinyCache.Spec.Lru

/-! The in-memory store is the least-recently-used cache of its limits, item by item and in
order. One with more items to give holds whatever one with fewer does. -/

namespace TinyCache

open Machine

section

variable {d : OrderedDict Key CacheEntry} {room : CacheEntry → List (Key × CacheEntry) → Bool}
  {now : Time} {key : Key} {e : CacheEntry}

theorem dropExpired_items (d : OrderedDict Key CacheEntry) (now : Time) (key : Key) :
    (Lru.step room d (dropExpired now key)).items =
      d.items.filter fun p => !(decide (p.1 = key) && p.2.isExpired now) :=
  Lru.sweep_items_of_const (fun _ => rfl) d

theorem dropExpired_kept (h : ∀ e, d.get? key = some e → e.isExpired now = false) :
    Lru.step room d (dropExpired now key) = d := by
  apply OrderedDict.ext
  rw [dropExpired_items, List.filter_eq_self]
  intro p hp
  by_cases hk : p.1 = key
  · subst hk
    simp [h p.2 (OrderedDict.get?_eq_some.mpr hp)]
  · simp [hk]

theorem dropExpired_gone (h : d.get? key = some e) (hx : e.isExpired now = true) :
    Lru.step room d (dropExpired now key) = d.erase key := by
  apply OrderedDict.ext
  rw [dropExpired_items, OrderedDict.erase_items]
  apply List.filter_congr
  intro p hp
  by_cases hk : p.1 = key
  · subst hk
    have he := (OrderedDict.get?_eq_some.mpr hp).symm.trans h
    rw [Option.some.injEq] at he
    simp [he, hx]
  · simp [hk]

theorem drop_key (d : OrderedDict Key CacheEntry) (key : Key) :
    Lru.run room d [.sweep fun _ p => decide (p.1 = key)] = d.erase key := by
  apply OrderedDict.ext
  have hsweep := @Lru.sweep_items_of_const Key CacheEntry (fun _ p => decide (p.1 = key)) (fun _ => rfl) d
  refine hsweep.trans ?_
  simp [OrderedDict.erase_items]

theorem put_erase (d : OrderedDict Key CacheEntry) (key : Key) (e : CacheEntry) :
    Lru.put room (d.erase key) key e = Lru.put room d key e := by
  rw [Lru.put, Lru.put, OrderedDict.erase_erase]

theorem put_of_room (h : room e (d.erase key).items = true) :
    Lru.put room d key e = d.putLast key e := by
  apply OrderedDict.ext
  rw [Lru.put_items, trim_of_ok h, OrderedDict.putLast_items]

end

namespace CacheStore

variable {s t : CacheStore} {clock : ℕ → Time} {now : Time} {key : Key} {value : Bytes} {ttl : Option ℤ}
  {old : Option CacheEntry} {st : CacheSetStatus} {entry : CacheEntry}

/-- The way to room is the same whichever check asks for it, if an item that was popped
leaves its place. -/
theorem Stored.store {gone rest : List (Key × CacheEntry)} {isNewKey : Bool}
    (h : Stored s isNewKey key entry gone t rest) (hnone : s.store.get? key = none)
    (hplace : isNewKey = false → (s.store.length : ℤ) < s.limits.maxItems) :
    t.store = Lru.put s.limits.room s.store key entry := by
  have htrim : Trimmed (fun m => s.limits.room entry m = true) s.store.items gone rest := by
    refine h.trimmed.congr ?_
    intro m hm
    have hlen := hm.length_le
    simp only [CacheStoreLimits.room, Bool.and_eq_true, decide_eq_true_eq, Fits]
    refine and_congr Iff.rfl ?_
    simp only [sizes, List.length_map]
    cases isNewKey with
    | true => simp
    | false =>
      have := hplace rfl
      simp only [OrderedDict.length] at this
      simp only [Bool.false_eq_true, false_imp_iff, true_iff]
      omega
  apply OrderedDict.ext
  rw [Lru.put_items, OrderedDict.erase_of_none hnone, htrim.trim_eq, h.items]

theorem WriteOutcome.store (h : WriteOutcome s now key value ttl old st t) (hnone : s.store.get? key = none)
    (hs : Within s.limits s.currentMemoryBytes (s.whole key old)) :
    t.store = if getsizeof value > s.limits.maxValueBytes
      then (old.map fun e => s.store.putLast key e).getD s.store
      else Lru.put s.limits.room s.store key (.new value ttl now) := by
  cases h with
  | tooLarge hsize =>
    rw [if_pos hsize]
    cases old with
    | none => rfl
    | some e => exact OrderedDict.set_of_none hnone e
  | stored hsize hst =>
    rw [if_neg (not_lt.mpr hsize)]
    refine hst.store hnone ?_
    intro hold
    cases old with
    | none => cases hold
    | some e =>
      have hlen := hs.items_le
      simp only [whole, Option.map_some, Option.toList_some, List.length_append,
        List.length_singleton] at hlen
      push_cast at hlen
      simp only [OrderedDict.length]
      omega

theorem moveToEnd_of_none {d : OrderedDict Key CacheEntry} (h : d.get? key = none) :
    d.moveToEnd key = d := by
  rw [OrderedDict.moveToEnd, h]

theorem moveToEnd_of_some {d : OrderedDict Key CacheEntry} (h : d.get? key = some entry) :
    d.moveToEnd key = d.putLast key entry := by
  rw [OrderedDict.moveToEnd, h]

theorem WriteOutcome.popped_store (hs : s.Inv) (hold : s.store.get? key = old)
    (h : WriteOutcome (s.popped key) now key value ttl old st t) :
    t.store = if getsizeof value > s.limits.maxValueBytes then s.store.moveToEnd key
      else Lru.put s.limits.room s.store key (.new value ttl now) := by
  subst hold
  have hstore := h.store (popped_get? s key) (popped_within hs key)
  rw [hstore]
  refine if_congr Iff.rfl ?_ (put_erase _ _ _)
  cases hk : s.store.get? key with
  | none => simp [popped, OrderedDict.erase_of_none hk, moveToEnd_of_none hk]
  | some e =>
    rw [moveToEnd_of_some hk]
    apply OrderedDict.ext
    simp [popped, OrderedDict.putLast_items]

theorem requests_of_valid {op : Op} (hk : op.key? = some key) (hv : validateKey key = .ok ())
    (maxValueBytes : ℤ) : Event.requests maxValueBytes ⟨.client op, clock⟩ = op.requests maxValueBytes clock := by
  simp [Event.requests, hk, hv]

theorem room_of_erase (hs : s.Inv) (hk : s.store.get? key = some entry) :
    s.limits.room entry (s.store.erase key).items = true := by
  have hbytes := bytes_erase hk
  have hlen := OrderedDict.length_erase hk
  have hmem := hs.memory_le
  have hitems := hs.items_le
  have hcount := hs.counted
  simp only [OrderedDict.length] at hlen
  simp only [CacheStoreLimits.room, Bool.and_eq_true, decide_eq_true_eq]
  omega

section

variable {reply : Except PyError Reply}

theorem Outcome.get_store (hv : validateKey key = .ok ()) (h : Outcome s clock (.client (.get key)) reply t) :
    t.store = Lru.run s.limits.room s.store ((Op.get key).requests s.limits.maxValueBytes clock) := by
  simp only [Op.requests, Lru.run, List.foldl_cons, List.foldl_nil]
  cases h with
  | invalid hk hv' =>
    cases hk
    rw [hv] at hv'
    cases hv'
  | getMissing _ h => rw [dropExpired_kept (by simp [h]), Lru.step, moveToEnd_of_none h]
  | getExpired _ h hx =>
    rw [dropExpired_gone h hx, Lru.step, moveToEnd_of_none (OrderedDict.get?_erase_self _ _)]
    rfl
  | getHit _ h hx =>
    rw [dropExpired_kept (by simpa [h] using hx)]
    rfl

theorem Outcome.set_store (hs : s.Inv) (hv : validateKey key = .ok ())
    (h : Outcome s clock (.client (.set key value ttl)) reply t) :
    t.store = Lru.run s.limits.room s.store ((Op.set key value ttl).requests s.limits.maxValueBytes clock) := by
  simp only [Op.requests, Lru.run, List.foldl_cons, List.foldl_nil]
  cases h with
  | invalid hk hv' =>
    cases hk
    rw [hv] at hv'
    cases hv'
  | set _ hw =>
    rw [hw.popped_store hs rfl]
    split_ifs <;> rfl

theorem Outcome.setIfAbsent_store (hs : s.Inv) (hv : validateKey key = .ok ())
    (h : Outcome s clock (.client (.setIfAbsent key value ttl)) reply t) :
    t.store = Lru.run s.limits.room s.store
      ((Op.setIfAbsent key value ttl).requests s.limits.maxValueBytes clock) := by
  simp only [Op.requests, Lru.run, List.foldl_cons]
  cases h with
  | invalid hk hv' =>
    cases hk
    rw [hv] at hv'
    cases hv'
  | setIfAbsentExists _ h hx =>
    rw [dropExpired_kept (by simpa [h] using hx)]
    split_ifs <;> simp [Lru.step, OrderedDict.contains, h]
  | setIfAbsentMissing _ h hw =>
    rw [dropExpired_kept (by simp [h]), hw.store h (by simpa [whole, Inv] using hs)]
    split_ifs <;> simp [Lru.step, OrderedDict.contains, h]
  | setIfAbsentExpired _ h hx hw =>
    have hstore : t.store = if getsizeof value > s.limits.maxValueBytes then s.store.erase key
        else Lru.put s.limits.room (s.store.erase key) key (.new value ttl (clock 1)) :=
      hw.store (popped_get? s key) (by simpa [whole, Inv] using expire_inv hs h)
    rw [dropExpired_gone h hx, hstore]
    split_ifs <;> simp [Lru.step, OrderedDict.contains]

theorem Outcome.compareAndSet_store {expected : Bytes} (hs : s.Inv) (hv : validateKey key = .ok ())
    (h : Outcome s clock (.client (.compareAndSet key expected value ttl)) reply t) :
    t.store = Lru.run s.limits.room s.store
      ((Op.compareAndSet key expected value ttl).requests s.limits.maxValueBytes clock) := by
  simp only [Op.requests, Lru.run, List.foldl_cons, List.foldl_nil]
  cases h with
  | invalid hk hv' =>
    cases hk
    rw [hv] at hv'
    cases hv'
  | compareAndSetMissing _ h =>
    rw [dropExpired_kept (by simp [h])]
    simp [Lru.step, h]
  | compareAndSetExpired _ h hx =>
    rw [dropExpired_gone h hx]
    simp [Lru.step, expire, without]
  | compareAndSetMismatch _ h hx hne =>
    rw [dropExpired_kept (by simpa [h] using hx)]
    simp [Lru.step, h, hne]
  | compareAndSetMatch _ h hx he hw =>
    rw [dropExpired_kept (by simpa [h] using hx), hw.popped_store hs h, Lru.step, h, Option.bind_some,
      if_neg (not_not.mpr he)]
    split_ifs
    · -- the entry put back is the one that was popped
      rw [moveToEnd_of_some h]
      exact (put_of_room (room_of_erase hs h)).symm
    · rfl

theorem Outcome.delete_store (hv : validateKey key = .ok ())
    (h : Outcome s clock (.client (.delete key)) reply t) :
    t.store = Lru.run s.limits.room s.store ((Op.delete key).requests s.limits.maxValueBytes clock) := by
  rw [Op.requests, drop_key]
  cases h with
  | invalid hk hv' =>
    cases hk
    rw [hv] at hv'
    cases hv'
  | deleteMissing _ h => rw [OrderedDict.erase_of_none h]
  | deletePresent => rfl

theorem Outcome.stats_store (h : Outcome s clock (.client .stats) reply t) :
    t.store = Lru.run s.limits.room s.store (Op.stats.requests s.limits.maxValueBytes clock) := by
  apply OrderedDict.ext
  cases h with
  | invalid hk => cases hk
  | stats hp =>
    rw [hp.items]
    exact (Lru.sweep_items (fun i p => p.2.isExpired (clock i)) s.store).symm

theorem Outcome.clear_store (h : Outcome s clock (.client .clear) reply t) :
    t.store = Lru.run s.limits.room s.store (Op.clear.requests s.limits.maxValueBytes clock) := by
  apply OrderedDict.ext
  cases h with
  | invalid hk => cases hk
  | clear =>
    have hsweep := @Lru.sweep_items_of_const Key CacheEntry (fun _ _ => true) (fun _ => rfl) s.store
    refine Eq.trans ?_ hsweep.symm
    simp [init, OrderedDict.empty]

theorem Outcome.cleaner_store (h : Outcome s clock (.cleaner key) reply t) :
    t.store = Lru.step s.limits.room s.store (dropExpired (clock 0) key) := by
  cases h with
  | cleanerKept h => rw [dropExpired_kept h]
  | cleanerRemoved h hx =>
    rw [dropExpired_gone h hx]
    rfl

end

theorem step_store (hs : s.Inv) (event : Event) :
    (step s event).2.store = Lru.run s.limits.room s.store (event.requests s.limits.maxValueBytes) := by
  obtain ⟨action, clock⟩ := event
  have hout := step_outcome hs.counted ⟨action, clock⟩
  cases action with
  | cleaner key => exact hout.cleaner_store
  | client op =>
    cases hk : op.key? with
    | none =>
      have hrequests : Event.requests s.limits.maxValueBytes ⟨.client op, clock⟩ =
          op.requests s.limits.maxValueBytes clock := by simp [Event.requests, hk]
      rw [hrequests]
      cases op with
      | stats => exact hout.stats_store
      | clear => exact hout.clear_store
      | _ => cases hk
    | some key =>
      cases hv : validateKey key with
      | error x =>
        have hstep : step s ⟨.client op, clock⟩ = (.error x, s) := call_invalid hk hv
        simp [hstep, Event.requests, hk, hv, Lru.run]
      | ok =>
        rw [requests_of_valid hk hv]
        cases op with
        | stats | clear => cases hk
        | get =>
          cases hk
          exact hout.get_store hv
        | set =>
          cases hk
          exact hout.set_store hs hv
        | setIfAbsent =>
          cases hk
          exact hout.setIfAbsent_store hs hv
        | compareAndSet =>
          cases hk
          exact hout.compareAndSet_store hs hv
        | delete =>
          cases hk
          exact hout.delete_store hv

/-- An operation on a key does not report statistics. -/
theorem onCell_quiet {op : Op} (hk : op.key? = some key) (maxValueBytes : ℤ) (old : Option CacheEntry) :
    (op.onCell maxValueBytes clock old).1.quiet = (op.onCell maxValueBytes clock old).1 := by
  cases op with
  | get | set | delete => rfl
  | setIfAbsent =>
    simp only [Op.onCell]
    split_ifs <;> rfl
  | compareAndSet =>
    simp only [Op.onCell]
    split
    · rfl
    · split_ifs <;> rfl
  | stats | clear => cases hk

theorem step_reply (hs : s.Inv) (event : Event) :
    (step s event).1.map Reply.quiet = event.reply s.limits.maxValueBytes s.store.get? := by
  obtain ⟨action, clock⟩ := event
  have hout := step_outcome hs.counted ⟨action, clock⟩
  revert hout
  generalize (step s ⟨action, clock⟩).1 = reply
  generalize (step s ⟨action, clock⟩).2 = t
  intro hout
  cases action with
  | cleaner key => cases hout <;> rfl
  | client op =>
    cases hk : op.key? with
    | none =>
      cases hout with
      | stats | clear => rfl
      | invalid hk' =>
        rw [hk] at hk'
        cases hk'
      | _ => cases hk
    | some key =>
      simp only [Event.reply, hk]
      rcases reply with x | reply
      · cases hout with
        | invalid hk' hv =>
          rw [hk, Option.some.injEq] at hk'
          rw [hk', hv]
          rfl
      · have hcell := hout.allowed.onCell hk
        rw [hout.allowed.valid hk, Except.map, Except.map, ← onCell_quiet hk]
        exact congrArg (fun x => Except.ok x.1.quiet) hcell

theorem lru_of_inv (events : List Event) {limits : CacheStoreLimits} (hs : s.Inv) (hl : s.limits = limits) :
    (outputs step s events).map (Except.map Reply.quiet) = outputs (lruStep limits) s.store events ∧
      (exec step s events).store = exec (lruStep limits) s.store events := by
  induction events generalizing s with
  | nil => exact ⟨rfl, rfl⟩
  | cons event events ih =>
    have hstore := step_store hs event
    have hreply := step_reply hs event
    have hlim := (step_outcome hs.counted event).limits
    obtain ⟨hout, hexec⟩ := ih (step_inv hs event) (hlim.trans hl)
    rw [hl] at hstore hreply
    rw [hstore] at hout hexec
    refine ⟨?_, hexec⟩
    simp only [outputs, trace, List.map_cons, record] at hout ⊢
    rw [hout, hreply]
    rfl

theorem exec_lruStep (limits : CacheStoreLimits) (d : OrderedDict Key CacheEntry) (events : List Event) :
    exec (lruStep limits) d events =
      Lru.run limits.room d (events.flatMap (Event.requests limits.maxValueBytes)) := by
  induction events generalizing d with
  | nil => rfl
  | cons event events ih =>
    rw [exec, ih, List.flatMap_cons, Lru.run, Lru.run, List.foldl_append]
    rfl

/-- Over every run, the in-memory store answers as the cache does and holds what it holds, in
the same order. -/
theorem memory_store_is_lru (limits : CacheStoreLimits) (events : List Event) :
    (outputs step (init limits) events).map (Except.map Reply.quiet) =
        outputs (lruStep limits) .empty events ∧
      (exec step (init limits) events).store = exec (lruStep limits) .empty events :=
  lru_of_inv events (init_inv limits) rfl

theorem exec_store (limits : CacheStoreLimits) (events : List Event) :
    (exec step (init limits) events).store =
      Lru.run limits.room .empty (events.flatMap (Event.requests limits.maxValueBytes)) := by
  rw [← exec_lruStep]
  exact (lru_of_inv events (init_inv limits) rfl).2

/-- No item is larger than a value may be. -/
def Sized (limits : CacheStoreLimits) (d : OrderedDict Key CacheEntry) : Prop :=
  ∀ p ∈ d.items, p.2.sizeBytes ≤ limits.maxValueBytes

/-- The request keeps to that size. -/
def Modest (maxValueBytes : ℤ) : Lru.Request Key CacheEntry → Prop
  | .put _ e | .fill _ e => e.sizeBytes ≤ maxValueBytes
  | .rewrite _ f => ∀ e e', e.sizeBytes ≤ maxValueBytes → f e = some e' → e'.sizeBytes ≤ maxValueBytes
  | .sweep _ | .touch _ => True

/-- As many items as there may be. -/
def capacity (limits : CacheStoreLimits) : ℕ := limits.maxItems.toNat

theorem capacity_cast (limits : CacheStoreLimits) : (capacity limits : ℤ) = limits.maxItems := by
  have := limits.maxItems_pos
  simp only [capacity]
  omega

theorem bytes_le {n : ℤ} {l : List (Key × CacheEntry)} (h : ∀ p ∈ l, p.2.sizeBytes ≤ n) :
    bytes l ≤ l.length * n := by
  have hsum := List.sum_le_card_nsmul (sizes l) n ?_
  · simpa [bytes, sizes] using hsum
  · intro x hx
    obtain ⟨p, hp, rfl⟩ := List.mem_map.mp hx
    exact h p hp

theorem room_eq {limits : CacheStoreLimits} (hroom : limits.Roomy) {l : List (Key × CacheEntry)}
    (hl : ∀ p ∈ l, p.2.sizeBytes ≤ limits.maxValueBytes) (he : entry.sizeBytes ≤ limits.maxValueBytes) :
    limits.room entry l = Lru.fewer (capacity limits) entry l := by
  have hbytes := bytes_le hl
  have hpos := limits.maxValueBytes_pos
  have hcap := capacity_cast limits
  have hiff : (l.length : ℤ) < limits.maxItems ↔ l.length < capacity limits := by omega
  rw [CacheStoreLimits.room, Lru.fewer, decide_eq_decide.mpr hiff]
  by_cases hlen : l.length < capacity limits
  · have hmem : bytes l + entry.sizeBytes ≤ limits.maxMemoryBytes := by
      unfold CacheStoreLimits.Roomy at hroom
      have hmul : ((l.length : ℤ) + 1) * limits.maxValueBytes ≤ limits.maxItems * limits.maxValueBytes :=
        mul_le_mul_of_nonneg_right (by omega) (by omega)
      linarith
    rw [decide_eq_true hmem, Bool.true_and]
  · -- the number alone makes for an eviction
    rw [decide_eq_false hlen, Bool.and_false]

section

variable {limits : CacheStoreLimits} {d : OrderedDict Key CacheEntry}

theorem put_eq (hroom : limits.Roomy) (hd : Sized limits d) (he : entry.sizeBytes ≤ limits.maxValueBytes) :
    Lru.put limits.room d key entry = Lru.put (Lru.fewer (capacity limits)) d key entry := by
  apply OrderedDict.ext
  rw [Lru.put_items, Lru.put_items, trim_congr]
  intro m hm
  refine room_eq hroom ?_ he
  intro p hp
  exact hd p (OrderedDict.mem_erase.mp (hm.subset hp)).1

theorem put_sized (hd : Sized limits d) (he : entry.sizeBytes ≤ limits.maxValueBytes) :
    Sized limits (Lru.put (Lru.fewer (capacity limits)) d key entry) := by
  intro p hp
  rw [Lru.put_items, List.mem_append, List.mem_singleton] at hp
  rcases hp with hp | rfl
  · exact hd p (OrderedDict.mem_erase.mp ((trim_suffix _ _).subset hp)).1
  · exact he

theorem Sized.subset {d' : OrderedDict Key CacheEntry} (hd : Sized limits d)
    (h : d'.items ⊆ d.items) : Sized limits d' := fun p hp => hd p (h hp)

theorem request_eq (hroom : limits.Roomy) (hd : Sized limits d) {request : Lru.Request Key CacheEntry}
    (hr : Modest limits.maxValueBytes request) :
    Lru.step limits.room d request = Lru.step (Lru.fewer (capacity limits)) d request ∧
      Sized limits (Lru.step (Lru.fewer (capacity limits)) d request) := by
  cases request with
  | sweep gone =>
    refine ⟨rfl, hd.subset ?_⟩
    rw [Lru.step, Lru.sweep_items]
    exact List.filter_sublist.subset
  | touch k => exact ⟨rfl, hd.subset (OrderedDict.perm_moveToEnd _ _).subset⟩
  | put k e => exact ⟨put_eq hroom hd hr, put_sized hd hr⟩
  | fill k e =>
    simp only [Lru.step]
    split_ifs
    · exact ⟨rfl, hd⟩
    · exact ⟨put_eq hroom hd hr, put_sized hd hr⟩
  | rewrite k f =>
    simp only [Lru.step]
    cases hk : d.get? k with
    | none => exact ⟨rfl, hd⟩
    | some e =>
      rw [Option.bind_some]
      cases hf : f e with
      | none => exact ⟨rfl, hd⟩
      | some e' =>
        have he := hr e e' (hd _ (OrderedDict.get?_eq_some.mp hk)) hf
        exact ⟨put_eq hroom hd he, put_sized hd he⟩

theorem run_eq (hroom : limits.Roomy) (requests : List (Lru.Request Key CacheEntry))
    (hr : ∀ request ∈ requests, Modest limits.maxValueBytes request) (hd : Sized limits d) :
    Lru.run limits.room d requests = Lru.run (Lru.fewer (capacity limits)) d requests := by
  induction requests generalizing d with
  | nil => rfl
  | cons request requests ih =>
    obtain ⟨heq, hsized⟩ := request_eq hroom hd (hr request List.mem_cons_self)
    simp only [Lru.run, List.foldl_cons] at ih ⊢
    rw [heq]
    exact ih (fun r hm => hr r (List.mem_cons_of_mem _ hm)) hsized

end

theorem requests_modest (maxValueBytes : ℤ) (event : Event) :
    ∀ request ∈ event.requests maxValueBytes, Modest maxValueBytes request := by
  obtain ⟨action, clock⟩ := event
  have hwrite : ∀ (value : Bytes) (ttl : Option ℤ) (now : Time), ¬ getsizeof value > maxValueBytes →
      (CacheEntry.new value ttl now).sizeBytes ≤ maxValueBytes := by
    intro value ttl now h
    exact not_lt.mp h
  intro request hm
  cases action with
  | cleaner key =>
    rw [List.mem_singleton.mp hm]
    trivial
  | client op =>
    simp only [Event.requests] at hm
    split at hm
    · cases hm
    · cases op with
      | get | delete | stats | clear =>
        simp only [Op.requests, List.mem_cons, List.not_mem_nil, or_false] at hm
        rcases hm with rfl | rfl <;> trivial
      | set key value ttl =>
        rw [List.mem_singleton.mp hm]
        split_ifs with hsize
        · trivial
        · exact hwrite value ttl _ hsize
      | setIfAbsent key value ttl =>
        simp only [Op.requests, List.mem_cons] at hm
        rcases hm with rfl | hm
        · trivial
        · split_ifs at hm with hsize
          · cases hm
          · rw [List.mem_singleton.mp hm]
            exact hwrite value ttl _ hsize
      | compareAndSet key expected value ttl =>
        simp only [Op.requests, List.mem_cons, List.not_mem_nil, or_false] at hm
        rcases hm with rfl | rfl
        · trivial
        · intro e e' he hf
          simp only at hf
          split_ifs at hf with hne hsize
          · cases hf
            exact he
          · cases hf
            exact hwrite value ttl _ hsize

theorem requests_steady (maxValueBytes : ℤ) {event : Event} (h : event.Steady) :
    ∀ request ∈ event.requests maxValueBytes, request.Steady := by
  obtain ⟨action, clock⟩ := event
  intro request hm
  cases action with
  | cleaner key =>
    rw [List.mem_singleton.mp hm]
    exact fun _ => rfl
  | client op =>
    simp only [Event.requests] at hm
    split at hm
    · cases hm
    · cases op with
      | setIfAbsent => exact h.elim
      | stats =>
        rw [List.mem_singleton.mp hm]
        intro i
        have hi : clock i = clock 0 := h i
        simp only [hi]
      | set =>
        rw [List.mem_singleton.mp hm]
        split_ifs <;> trivial
      | _ =>
        simp only [Op.requests, List.mem_cons, List.not_mem_nil, or_false] at hm
        rcases hm with rfl | rfl <;> first | trivial | exact fun _ => rfl

theorem WriteOutcome.lookups (h : WriteOutcome s now key value ttl old st t) :
    t.hits = s.hits ∧ t.misses = s.misses := by
  cases h with
  | tooLarge => exact ⟨rfl, rfl⟩
  | stored _ hst =>
    rw [hst.eq]
    exact ⟨rfl, rfl⟩

theorem step_lookups (hs : s.Inv) (event : Event) (hclear : event.action ≠ .client .clear) :
    (step s event).2.hits = s.hits + foundBy (step s event).1 ∧
      (step s event).2.misses = s.misses + missedBy (step s event).1 := by
  obtain ⟨action, clock⟩ := event
  have hout := step_outcome hs.counted ⟨action, clock⟩
  revert hout
  generalize (step s ⟨action, clock⟩).1 = reply
  generalize (step s ⟨action, clock⟩).2 = t
  intro hout
  cases hout with
  | set _ hw => exact hw.lookups
  | setIfAbsentMissing _ _ hw => exact hw.lookups
  | setIfAbsentExpired _ _ _ hw => exact hw.lookups
  | compareAndSetMatch _ _ _ _ hw => exact hw.lookups
  | stats hp =>
    rw [hp.eq]
    exact ⟨rfl, rfl⟩
  | clear => exact absurd rfl hclear
  | _ => exact ⟨rfl, rfl⟩

theorem foundBy_quiet (reply : Except PyError Reply) :
    foundBy (reply.map Reply.quiet) = foundBy reply ∧ missedBy (reply.map Reply.quiet) = missedBy reply := by
  rcases reply with x | reply
  · exact ⟨rfl, rfl⟩
  · cases reply <;> exact ⟨rfl, rfl⟩

theorem onCell_lookups {op : Op} (h : ∀ key, op ≠ .get key) (maxValueBytes : ℤ) (old : Option CacheEntry) :
    foundBy (.ok (op.onCell maxValueBytes clock old).1) = 0 ∧
      missedBy (.ok (op.onCell maxValueBytes clock old).1) = 0 := by
  cases op with
  | get key => exact absurd rfl (h key)
  | set | delete | stats | clear => exact ⟨rfl, rfl⟩
  | setIfAbsent =>
    simp only [Op.onCell]
    split_ifs <;> exact ⟨rfl, rfl⟩
  | compareAndSet =>
    simp only [Op.onCell]
    split
    · exact ⟨rfl, rfl⟩
    · split_ifs <;> exact ⟨rfl, rfl⟩

theorem reply_lookups {find find' : Key → Option CacheEntry}
    (h : ∀ key e, find key = some e → find' key = some e) (maxValueBytes maxValueBytes' : ℤ) (event : Event) :
    foundBy (event.reply maxValueBytes find) ≤ foundBy (event.reply maxValueBytes' find') ∧
      missedBy (event.reply maxValueBytes' find') ≤ missedBy (event.reply maxValueBytes find) := by
  obtain ⟨action, clock⟩ := event
  cases action with
  | cleaner key => exact ⟨le_refl _, le_refl _⟩
  | client op =>
    cases hk : op.key? with
    | none => simp only [Event.reply, hk, le_refl, and_self]
    | some key =>
      simp only [Event.reply, hk]
      rcases hv : validateKey key with x | _
      · exact ⟨le_refl _, le_refl _⟩
      · by_cases hget : ∀ key', op ≠ .get key'
        · simp only [Except.map, onCell_lookups hget, le_refl, and_self]
        · push Not at hget
          obtain ⟨key', rfl⟩ := hget
          simp only [Except.map, Op.onCell]
          cases hf : find key with
          | some e => rw [h key e hf]; exact ⟨le_refl _, le_refl _⟩
          | none =>
            refine ⟨Nat.zero_le _, ?_⟩
            cases ((find' key).filter fun e => !e.isExpired (clock 0)).map CacheEntry.value with
            | none => exact le_refl _
            | some v => exact Nat.zero_le _

theorem step_foundBy (hs : s.Inv) (event : Event) :
    foundBy (step s event).1 = foundBy (event.reply s.limits.maxValueBytes s.store.get?) ∧
      missedBy (step s event).1 = missedBy (event.reply s.limits.maxValueBytes s.store.get?) := by
  rw [← step_reply hs event]
  obtain ⟨h1, h2⟩ := foundBy_quiet (step s event).1
  exact ⟨h1.symm, h2.symm⟩

section

variable {small large : CacheStoreLimits}

/-- After the same steady events, the smaller dictionary is behind the larger one. -/
theorem exec_behind (hitems : small.maxItems ≤ large.maxItems)
    (hvalue : small.maxValueBytes = large.maxValueBytes) (hs : small.Roomy) (hl : large.Roomy)
    {events : List Event} (hsteady : ∀ event ∈ events, event.Steady) :
    Lru.Behind (capacity small) (capacity large) (exec step (init small) events).store
      (exec step (init large) events).store := by
  have hsmall := capacity_cast small
  have hlarge := capacity_cast large
  have hpos := small.maxItems_pos
  have hempty : ∀ limits : CacheStoreLimits, Sized limits .empty := fun limits p hp => absurd hp List.not_mem_nil
  have hmodest : ∀ limits : CacheStoreLimits,
      ∀ request ∈ events.flatMap (Event.requests limits.maxValueBytes), Modest limits.maxValueBytes request := by
    intro limits request hm
    obtain ⟨event, -, hm⟩ := List.mem_flatMap.mp hm
    exact requests_modest _ event request hm
  rw [exec_store, exec_store, run_eq hs _ (hmodest small) (hempty small), run_eq hl _ (hmodest large) (hempty large), hvalue]
  refine Lru.Behind.run (by omega) (by omega) _ ?_ (Lru.Behind.empty (by omega))
  intro request hm
  obtain ⟨event, he, hm⟩ := List.mem_flatMap.mp hm
  exact requests_steady _ (hsteady event he) request hm

/-- At the smaller of two stores no more is found and no less missed. -/
theorem exec_lookups (hitems : small.maxItems ≤ large.maxItems)
    (hvalue : small.maxValueBytes = large.maxValueBytes) (hs : small.Roomy) (hl : large.Roomy)
    (events : List Event) (hsteady : ∀ event ∈ events, event.Steady) :
    (exec step (init small) events).hits ≤ (exec step (init large) events).hits ∧
      (exec step (init large) events).misses ≤ (exec step (init small) events).misses := by
  induction events using List.reverseRecOn with
  | nil => exact ⟨le_refl _, le_refl _⟩
  | append_singleton events event ih =>
    have hpre : ∀ event ∈ events, event.Steady := fun e he => hsteady e (List.mem_append_left _ he)
    obtain ⟨hhits, hmisses⟩ := ih hpre
    have hbehind := exec_behind hitems hvalue hs hl hpre
    obtain ⟨hsinv, hslim⟩ := exec_inv small events
    obtain ⟨hlinv, hllim⟩ := exec_inv large events
    simp only [exec_append, exec]
    by_cases hclear : event.action = .client .clear
    · obtain ⟨action, clock⟩ := event
      cases hclear
      exact ⟨le_refl _, le_refl _⟩
    · have hget : ∀ key e, (exec step (init small) events).store.get? key = some e →
          (exec step (init large) events).store.get? key = some e := fun _ _ => hbehind.get?
      obtain ⟨hfound, hmissed⟩ := reply_lookups hget small.maxValueBytes large.maxValueBytes event
      rw [(step_lookups hsinv event hclear).1, (step_lookups hsinv event hclear).2,
        (step_lookups hlinv event hclear).1, (step_lookups hlinv event hclear).2,
        (step_foundBy hsinv event).1, (step_foundBy hsinv event).2,
        (step_foundBy hlinv event).1, (step_foundBy hlinv event).2, hslim, hllim]
      omega

/-- No entry and no hit is lost by giving a store more items. -/
theorem more_items_lose_nothing (hitems : small.maxItems ≤ large.maxItems)
    (hvalue : small.maxValueBytes = large.maxValueBytes) (hs : small.Roomy) (hl : large.Roomy)
    (events : List Event) (hsteady : ∀ event ∈ events, event.Steady) :
    let s := exec step (init small) events
    let l := exec step (init large) events
    s.store.items.Sublist l.store.items ∧ s.hits ≤ l.hits ∧ l.misses ≤ s.misses := by
  obtain ⟨hhits, hmisses⟩ := exec_lookups hitems hvalue hs hl events hsteady
  exact ⟨(exec_behind hitems hvalue hs hl hsteady).sublist, hhits, hmisses⟩

/-- The entry that one item has no room for is found among two. -/
theorem more_items_lose_nothing_run :
    let events := [(Op.set "a" [1] none).atTime 0, (Op.set "b" [2] (some 9)).atTime 0,
      (Op.get "a").atTime 1, (Op.compareAndSet "b" [2] [3] none).atTime 2, Op.stats.atTime 3]
    let s := exec step (init (.small 0)) events
    let l := exec step (init (.small 1)) events
    s.store.items.Sublist l.store.items ∧ s.hits ≤ l.hits ∧ l.misses ≤ s.misses :=
  @more_items_lose_nothing (.small 0) (.small 1) (by decide) rfl
    (by simp [CacheStoreLimits.Roomy, CacheStoreLimits.small])
    (by simp [CacheStoreLimits.Roomy, CacheStoreLimits.small]) _
    (by simp [Event.Steady, Op.atTime])

end

end CacheStore

end TinyCache
