import TinyCache.Proofs.MemoryHistory
import TinyCache.Proofs.SqliteRefines
import TinyCache.Spec.Statistics

/-! What one step books, for either backend, and from it the balance of every run. -/

namespace TinyCache

open Machine

/-- What a step other than `clear` changes in the statistics. -/
structure Booked {σ : Type} (count : σ → ℕ) (counters : σ → Counters) (entries : σ → Entries)
    (r : Obs σ) : Prop where
  entries : count r.before + (counters r.before).lruEvictions + (counters r.before).expiredRemovals +
      (if Obs.adds entries r = true then 1 else 0) =
    count r.after + (counters r.after).lruEvictions + (counters r.after).expiredRemovals +
      (if Obs.deletes r = true then 1 else 0)
  lookups : (counters r.after).hits + (counters r.after).misses =
    (counters r.before).hits + (counters r.before).misses + (if Obs.looksUp r = true then 1 else 0)
  evictions : (counters r.after).evictions + (counters r.before).lruEvictions =
    (counters r.before).evictions + (counters r.after).lruEvictions
  oversize : (counters r.after).rejectedOversize =
    (counters r.before).rejectedOversize + (if Obs.oversize r = true then 1 else 0)
  capacity : (counters r.after).rejectedCapacity = (counters r.before).rejectedCapacity

/-- What `_store_value_locked` changes, from the state in which the old entry is popped. -/
structure WriteBooked (n : ℕ) (c : Counters) (popped : Bool) (st : CacheSetStatus) (n' : ℕ)
    (c' : Counters) : Prop where
  admitted : st = .ok ∨ st = .valueTooLarge
  entries : n' + c'.lruEvictions =
    n + c.lruEvictions + (if st = .ok ∨ popped = true then 1 else 0)
  evictions : c'.evictions + c.lruEvictions = c.evictions + c'.lruEvictions
  eq : c' = { c with
    evictions := c'.evictions
    lruEvictions := c'.lruEvictions
    rejectedOversize := c.rejectedOversize + (if st = .valueTooLarge then 1 else 0) }

theorem booked_of_counts {σ : Type} {count : σ → ℕ} {counters : σ → Counters}
    {entries : σ → Entries} {r : Obs σ} (hit miss expired deleted : ℕ)
    (hadds : Obs.adds entries r = false) (hoversize : Obs.oversize r = false)
    (hdeletes : (if Obs.deletes r = true then 1 else 0) = deleted)
    (hlooksUp : (if Obs.looksUp r = true then 1 else 0) = hit + miss)
    (hcount : count r.before = count r.after + expired + deleted)
    (hc : counters r.after = { counters r.before with
      hits := (counters r.before).hits + hit
      misses := (counters r.before).misses + miss
      expiredRemovals := (counters r.before).expiredRemovals + expired }) :
    Booked count counters entries r := by
  refine ⟨?_, ?_, ?_, ?_, ?_⟩
  · rw [hadds, hdeletes, hc, if_neg Bool.false_ne_true]
    dsimp only
    omega
  · rw [hlooksUp, hc]
    dsimp only
    omega
  · rw [hc, Nat.add_comm]
  · rw [hoversize, hc]
    rfl
  · rw [hc]

theorem booked_of_invalid {σ : Type} {count : σ → ℕ} {counters : σ → Counters}
    {entries : σ → Entries} {s : σ} {clock : ℕ → Time} {op : Op} {key : Key} {x : PyError}
    (hk : op.key? = some key) (hv : validateKey key = .error x) :
    Booked count counters entries ⟨s, ⟨.client op, clock⟩, .error x, s⟩ := by
  refine booked_of_counts 0 0 0 0 rfl rfl ?_ ?_ rfl rfl
  · cases op <;> rfl
  · cases op with
    | get => simp [Obs.looksUp, Option.some.inj hk, hv]
    | _ => rfl

/-- The bookings of a write are those of its step, once the removal of the old entry is
added to them. -/
theorem WriteBooked.booked {σ : Type} {count : σ → ℕ} {counters : σ → Counters}
    {entries : σ → Entries} {r : Obs σ} {n : ℕ} {c : Counters} {popped : Bool} {st : CacheSetStatus}
    (h : WriteBooked n c popped st (count r.after) (counters r.after))
    (hbefore : count r.before + (counters r.before).expiredRemovals =
      n + (if popped = true then 1 else 0) + c.expiredRemovals)
    (hc : c = { counters r.before with expiredRemovals := c.expiredRemovals })
    (hadds : Obs.adds entries r = (decide (st = .ok) && !popped)) (hdeletes : Obs.deletes r = false)
    (hlooksUp : Obs.looksUp r = false) (hoversize : Obs.oversize r = decide (st = .valueTooLarge)) :
    Booked count counters entries r := by
  have hentries := h.entries
  have hevictions := h.evictions
  have hexpired : (counters r.after).expiredRemovals = c.expiredRemovals := by rw [h.eq]
  rw [hc] at hevictions
  refine ⟨?_, ?_, hevictions, ?_, ?_⟩
  · have hlru : c.lruEvictions = (counters r.before).lruEvictions := by rw [hc]
    have hflags : (if (decide (st = .ok) && !popped) = true then 1 else 0) +
        (if popped = true then 1 else 0) = if st = .ok ∨ popped = true then 1 else 0 := by
      cases popped <;> rcases h.admitted with rfl | rfl <;> rfl
    rw [hadds, hdeletes, if_neg Bool.false_ne_true, hexpired]
    omega
  · rw [hlooksUp, h.eq, hc]
    rfl
  · rw [hoversize, h.eq, hc]
    rcases h.admitted with rfl | rfl <;> rfl
  · rw [h.eq, hc]

section

variable {σ : Type} {entries : σ → Entries} {s t : σ} {clock : ℕ → Time} {key : Key}
  {expected value : Bytes} {ttl : Option ℤ} {st : CacheSetStatus}

theorem Obs.adds_set :
    Obs.adds entries ⟨s, ⟨.client (.set key value ttl), clock⟩, .ok (.status st), t⟩ =
      (decide (st = .ok) && !(entries s key).isSome) := by
  cases st <;> simp [Obs.adds, Obs.write?, accepted?]

theorem Obs.adds_setIfAbsent (h : Entries.purge (entries s) (clock 0) key key = none) :
    Obs.adds entries ⟨s, ⟨.client (.setIfAbsent key value ttl), clock⟩,
      .ok (.conditional (conditionalStatusFromSetStatus st)), t⟩ = (decide (st = .ok) && true) := by
  cases st <;> simp [Obs.adds, Obs.write?, accepted?, conditionalStatusFromSetStatus,
    cacheWriteFailureFromSetStatus, conditionalStatusFromFailure, h]

theorem Obs.adds_compareAndSet {e : CacheEntry} (h : entries s key = some e) :
    Obs.adds entries ⟨s, ⟨.client (.compareAndSet key expected value ttl), clock⟩,
      .ok (.conditional (conditionalStatusFromSetStatus st)), t⟩ = (decide (st = .ok) && false) := by
  cases st <;> simp [Obs.adds, Obs.write?, accepted?, conditionalStatusFromSetStatus,
    cacheWriteFailureFromSetStatus, conditionalStatusFromFailure, h]

theorem Obs.oversize_set :
    Obs.oversize ⟨s, ⟨.client (.set key value ttl), clock⟩, .ok (.status st), t⟩ =
      decide (st = .valueTooLarge) := by
  cases st <;> rfl

theorem Obs.oversize_conditional {op : Op} :
    Obs.oversize ⟨s, ⟨.client op, clock⟩, .ok (.conditional (conditionalStatusFromSetStatus st)), t⟩ =
      decide (st = .valueTooLarge) := by
  cases st <;> rfl

end

section

variable {σ : Type} {step : σ → Event → Except PyError Reply × σ} {count : σ → ℕ}
  {counters : σ → Counters} {entries : σ → Entries} {I : σ → Prop}

theorem Balance.nil {s : σ} (h : counters s = .zero) :
    Balance entries (count s) [] (count s) (counters s) := by
  refine ⟨?_, ?_, ?_, ?_⟩ <;> simp [h, Counters.zero]

theorem Balance.snoc {start : ℕ} {history : List (Obs σ)} {r : Obs σ}
    (h : Balance entries start history (count r.before) (counters r.before))
    (hr : Booked count counters entries r) :
    Balance entries start (history ++ [r]) (count r.after) (counters r.after) := by
  have h1 := h.entries
  have h2 := h.lookups
  have h3 := h.evictions
  have h4 := h.oversize
  have h5 := hr.entries
  have h6 := hr.lookups
  have h7 := hr.evictions
  have h8 := hr.oversize
  refine ⟨?_, ?_, ?_, ?_⟩
  · rw [List.countP_append, List.countP_append, List.countP_singleton, List.countP_singleton]
    omega
  · rw [List.countP_append, List.countP_singleton]
    omega
  · omega
  · rw [List.countP_append, List.countP_singleton]
    omega

/-- The steps book what they do, `clear` starts afresh, and `stats` reports what is booked. -/
structure Books (step : σ → Event → Except PyError Reply × σ) (count : σ → ℕ) (counters : σ → Counters)
    (entries : σ → Entries) (I : σ → Prop) : Prop where
  keeps : ∀ s event, I s → I (step s event).2
  booked : ∀ s event, I s → event.action ≠ .client .clear →
    Booked count counters entries (record step s event)
  cleared : ∀ s event, I s → event.action = .client .clear → counters (step s event).2 = .zero
  reported : ∀ s event snapshot, I s → (step s event).1 = .ok (.stats snapshot) →
    snapshot.size = count (step s event).2 ∧ snapshot.counters = counters (step s event).2

/-- All evictions are by recency, and no write was turned away for want of capacity. -/
def Counters.Settled (c : Counters) : Prop := c.evictions = c.lruEvictions ∧ c.rejectedCapacity = 0

theorem Books.settled_step (h : Books step count counters entries I) (s : σ) (event : Event)
    (hs : I s ∧ (counters s).Settled) : I (step s event).2 ∧ (counters (step s event).2).Settled := by
  obtain ⟨hs, hevictions, hcapacity⟩ := hs
  refine ⟨h.keeps s event hs, ?_⟩
  by_cases hclear : event.action = .client .clear
  · rw [h.cleared s event hs hclear]
    exact ⟨rfl, rfl⟩
  · have hbooked := h.booked s event hs hclear
    have hevicted : (counters (step s event).2).evictions + (counters s).lruEvictions =
        (counters s).evictions + (counters (step s event).2).lruEvictions := hbooked.evictions
    have hrejected : (counters (step s event).2).rejectedCapacity = (counters s).rejectedCapacity :=
      hbooked.capacity
    exact ⟨by omega, by omega⟩

theorem Books.exec_settled (h : Books step count counters entries I) {s : σ} (hs : I s)
    (hfresh : counters s = .zero) (events : List Event) : (counters (exec step s events)).Settled := by
  refine (exec_always h.settled_step ⟨hs, ?_⟩ events).2
  rw [hfresh]
  exact ⟨rfl, rfl⟩

theorem Books.trace_settled (h : Books step count counters entries I) {s : σ} (hs : I s)
    (hfresh : counters s = .zero) {events : List Event} {r : Obs σ} (hr : r ∈ trace step s events) :
    (counters r.after).Settled := by
  have hsettled : I s ∧ (counters s).Settled := by
    rw [hfresh]
    exact ⟨hs, rfl, rfl⟩
  obtain ⟨hbefore, hrec⟩ :=
    trace_always (I := fun s => I s ∧ (counters s).Settled) h.settled_step hsettled hr
  rw [hrec]
  exact (h.settled_step _ _ hbefore).2

theorem Books.balance (h : Books step count counters entries I) {s : σ} (hs : I s)
    (hzero : counters s = .zero) {events : List Event}
    (hevents : ∀ event ∈ events, event.action ≠ .client .clear) :
    Balance entries (count s) (trace step s events) (count (exec step s events))
      (counters (exec step s events)) := by
  have hrun : I (exec step s events) ∧ Balance entries (count s) ([] ++ trace step s events)
      (count (exec step s events)) (counters (exec step s events)) := by
    refine history_invariant (I := fun history t =>
        I t ∧ Balance entries (count s) history (count t) (counters t))
      (C := fun _ event => event.action ≠ .client .clear) ?_ ⟨hs, .nil hzero⟩ events ?_
    · rintro history t event ⟨ht, hc⟩ hevent
      exact ⟨h.keeps t event ht, hc.snoc (h.booked t event ht hevent)⟩
    · intro r hr
      exact hevents r.input (input_mem hr)
  exact hrun.2

/-- Where the counters are fresh at the start, they balance from each later fresh start on. -/
theorem Books.conserved (h : Books step count counters entries I) {s : σ} (hs : I s)
    (hfresh : counters s = .zero) {pre events : List Event} (hpre : Fresh pre)
    (hevents : ∀ event ∈ events, event.action ≠ .client .clear) :
    Conserved count counters entries (exec step s pre) (trace step (exec step s pre) events)
      (exec step (exec step s pre) events) := by
  have hat : ∀ es, I (exec step s es) := exec_always h.keeps hs
  have hzero : counters (exec step s pre) = .zero := by
    rcases List.eq_nil_or_concat pre with rfl | ⟨before, last, rfl⟩
    · exact hfresh
    · rw [List.concat_eq_append] at hpre ⊢
      rw [exec_append]
      exact h.cleared _ last (hat before) (hpre last (by simp))
  refine ⟨h.balance (hat pre) hzero hevents, ?_⟩
  -- up to the `stats` the run is a shorter run, which ends in what the reply reports
  intro before r after snapshot hsplit hr
  obtain ⟨earlier, event, later, rfl, rfl, rfl⟩ := trace_split hsplit
  have hbefore := exec_always h.keeps (hat pre) earlier
  have hclear : ∀ e ∈ earlier ++ [event], e.action ≠ .client .clear := by
    intro e he
    refine hevents e ?_
    simp only [List.mem_append, List.mem_cons] at he ⊢
    tauto
  have hbalance := h.balance (hat pre) hzero hclear
  obtain ⟨hsize, hcounters⟩ := h.reported _ event snapshot hbefore hr
  rw [trace_append, exec_append] at hbalance
  rw [hsize, hcounters]
  exact hbalance

end

namespace CacheStore

variable {s t : CacheStore}

theorem popped_length (s : CacheStore) (key : Key) :
    s.store.length = (s.popped key).store.length + (if (s.store.get? key).isSome = true then 1 else 0) := by
  unfold popped
  cases h : s.store.get? key with
  | none => simp [OrderedDict.erase_of_none h]
  | some e => simp [OrderedDict.length_erase h]

theorem WriteOutcome.booked {now : Time} {key : Key} {value : Bytes} {ttl : Option ℤ}
    {old : Option CacheEntry} {st : CacheSetStatus} (hpop : s.store.get? key = none)
    (h : WriteOutcome s now key value ttl old st t) :
    WriteBooked s.store.length s.counters old.isSome st t.store.length t.counters := by
  cases h with
  | tooLarge =>
    refine ⟨Or.inr rfl, ?_, rfl, rfl⟩
    cases old with
    | none => rfl
    | some e =>
      simp [OrderedDict.set_of_none hpop, OrderedDict.length, OrderedDict.putLast_of_none hpop, counters]
      omega
  | @stored gone _ _ _ hst =>
    have hlen := congrArg List.length hst.trimmed.split
    have hlen' := congrArg List.length hst.items
    rw [List.length_append] at hlen
    rw [List.length_append, List.length_singleton] at hlen'
    rw [hst.eq]
    refine ⟨Or.inl rfl, ?_, ?_, rfl⟩
    · change t.store.items.length + (s.lruEvictions + gone.length) =
        s.store.items.length + s.lruEvictions + 1
      omega
    · change s.evictions + gone.length + s.lruEvictions = s.evictions + (s.lruEvictions + gone.length)
      omega

theorem Purged.length {keys : List Key} (h : Purged keys s t) (hsub : keys.Sublist s.store.keys) :
    t.store.length + keys.length = s.store.length := by
  rw [OrderedDict.length, h.items]
  exact OrderedDict.length_filter_notMem _ hsub

theorem Outcome.booked {clock : ℕ → Time} {action : Action} {reply : Except PyError Reply}
    (h : Outcome s clock action reply t) (hclear : action ≠ .client .clear) :
    Booked (fun s => s.store.length) counters entries ⟨s, ⟨action, clock⟩, reply, t⟩ := by
  cases h with
  | invalid hk hv => exact booked_of_invalid hk hv
  | getMissing hv h => exact booked_of_counts 0 1 0 0 rfl rfl rfl (by simp [Obs.looksUp, hv]) rfl rfl
  | getExpired hv h hx =>
    exact booked_of_counts 0 1 1 0 rfl rfl rfl (by simp [Obs.looksUp, hv])
      (OrderedDict.length_erase h) rfl
  | getHit hv h hx =>
    exact booked_of_counts 1 0 0 0 rfl rfl rfl (by simp [Obs.looksUp, hv])
      (OrderedDict.perm_moveToEnd _ _).length_eq.symm rfl
  | @set key value ttl st t hv hw =>
    refine (hw.booked (popped_get? s _)).booked ?_ rfl Obs.adds_set rfl rfl Obs.oversize_set
    change s.store.length + s.expiredRemovals = _
    rw [popped_length s key]
    rfl
  | setIfAbsentExists hv h hx => exact booked_of_counts 0 0 0 0 rfl rfl rfl rfl rfl rfl
  | @setIfAbsentMissing key value ttl st t hv h hw =>
    have hgone : Entries.purge s.entries (clock 0) key key = none := by
      rw [purge_missing _ h]
      exact h
    exact (hw.booked h).booked rfl rfl (Obs.adds_setIfAbsent hgone) rfl rfl Obs.oversize_conditional
  | @setIfAbsentExpired key value ttl e st t hv h hx hw =>
    have hgone : Entries.purge s.entries (clock 0) key key = none := by
      rw [purge_expired h hx]
      exact popped_get? s key
    refine (hw.booked (s := s.expire key e) (popped_get? s key)).booked ?_ rfl
      (Obs.adds_setIfAbsent hgone) rfl rfl Obs.oversize_conditional
    change s.store.length + s.expiredRemovals = (s.store.erase key).length + 0 + (s.expiredRemovals + 1)
    rw [OrderedDict.length_erase h]
    omega
  | compareAndSetMissing hv h => exact booked_of_counts 0 0 0 0 rfl rfl rfl rfl rfl rfl
  | compareAndSetExpired hv h hx =>
    exact booked_of_counts 0 0 1 0 rfl rfl rfl rfl (OrderedDict.length_erase h) rfl
  | compareAndSetMismatch hv h hx hne => exact booked_of_counts 0 0 0 0 rfl rfl rfl rfl rfl rfl
  | @compareAndSetMatch key expected value ttl e st t hv h hx he hw =>
    have hfound : s.entries key = some e := h
    refine (hw.booked (popped_get? s _)).booked ?_ rfl (Obs.adds_compareAndSet hfound) rfl rfl
      Obs.oversize_conditional
    change s.store.length + s.expiredRemovals = _
    rw [popped_length s key, h]
    rfl
  | deleteMissing hv h => exact booked_of_counts 0 0 0 0 rfl rfl rfl rfl rfl rfl
  | deletePresent hv h =>
    exact booked_of_counts 0 0 0 1 rfl rfl rfl rfl (OrderedDict.length_erase h) rfl
  | stats hp =>
    refine booked_of_counts 0 0 _ 0 rfl rfl rfl rfl (hp.length ?_).symm ?_
    · exact expiredKeys_sublist clock s.store.items
    · change t.counters = _
      rw [hp.eq]
      rfl
  | clear => exact absurd rfl hclear
  | cleanerKept h => exact booked_of_counts 0 0 0 0 rfl rfl rfl rfl rfl rfl
  | cleanerRemoved h hx =>
    exact booked_of_counts 0 0 1 0 rfl rfl rfl rfl (OrderedDict.length_erase h) rfl

theorem step_booked (hs : s.Inv) {event : Event} (hclear : event.action ≠ .client .clear) :
    Booked (fun s => s.store.length) counters entries (record step s event) :=
  (step_outcome hs.counted event).booked hclear

theorem step_cleared {event : Event} (h : event.action = .client .clear) :
    (step s event).2.counters = .zero := by
  obtain ⟨action, clock⟩ := event
  cases h
  rfl

theorem step_reported (hs : s.Inv) {event : Event} {snapshot : CacheStatsSnapshot}
    (h : (step s event).1 = .ok (.stats snapshot)) :
    snapshot.size = (step s event).2.store.length ∧ snapshot.counters = (step s event).2.counters := by
  obtain ⟨action, clock⟩ := event
  have hout := step_outcome hs.counted ⟨action, clock⟩
  rw [h] at hout
  cases hout with
  | stats => exact ⟨rfl, rfl⟩

theorem books : Books step (fun s => s.store.length) counters entries Inv :=
  ⟨fun _ event hs => step_inv hs event, fun _ _ hs => step_booked hs, fun _ _ _ => step_cleared,
    fun _ _ _ hs => step_reported hs⟩

end CacheStore

namespace SqliteCacheStore

variable {s t : SqliteCacheStore}

theorem expiredKeys_sublist (clock : ℕ → Time) (i : ℕ) (rows : List (Key × Row)) :
    (expiredKeys clock i rows).Sublist (rows.map Prod.fst) :=
  OrderedDict.keys_zipIdx_sublist rows i _

theorem Purged.length {keys : List Key} (h : Purged keys s t) (hsub : keys.Sublist s.table.keys) :
    t.table.length + keys.length = s.table.length := by
  rw [OrderedDict.length, h.items]
  exact OrderedDict.length_filter_notMem _ hsub

theorem popped_length (s : SqliteCacheStore) (key : Key) :
    s.table.length = (s.popped key (s.table.get? key)).table.length +
      (if (s.table.get? key).isSome = true then 1 else 0) := by
  cases h : s.table.get? key with
  | none => rfl
  | some row => exact OrderedDict.length_erase h

theorem WriteOutcome.booked {created accessed : Time} {key : Key} {value : Bytes} {ttl : Option ℤ}
    {old : Option Row} {st : CacheSetStatus} (hpop : s.table.get? key = none)
    (h : WriteOutcome s created accessed key value ttl old st t) :
    WriteBooked s.table.length s.counters old.isSome st t.table.length t.counters := by
  cases h with
  | tooLarge =>
    cases old with
    | none => exact ⟨Or.inr rfl, rfl, rfl, rfl⟩
    | some row =>
      refine ⟨Or.inr rfl, ?_, rfl, rfl⟩
      change (s.table.putLast key row).length + s.lruEvictions = s.table.length + s.lruEvictions + 1
      rw [OrderedDict.length, OrderedDict.putLast_of_none hpop, List.length_append, List.length_singleton,
        OrderedDict.length]
      omega
  | @stored gone _ _ _ hst =>
    have hlen := hst.perm.length_eq
    have hlen' := hst.items.length_eq
    rw [List.length_append] at hlen
    rw [List.length_append, List.length_singleton] at hlen'
    rw [hst.eq]
    refine ⟨Or.inl rfl, ?_, ?_, rfl⟩
    · change t.table.items.length + (s.lruEvictions + gone.length) =
        s.table.items.length + s.lruEvictions + 1
      omega
    · change s.evictions + gone.length + s.lruEvictions = s.evictions + (s.lruEvictions + gone.length)
      omega

theorem Outcome.booked {clock : ℕ → Time} {action : Action} {reply : Reply}
    (h : Outcome s clock action reply t) (hclear : action ≠ .client .clear) :
    Booked (fun s => s.table.length) counters entries ⟨s, ⟨action, clock⟩, .ok reply, t⟩ := by
  cases h with
  | getMissing hv h => exact booked_of_counts 0 1 0 0 rfl rfl rfl (by simp [Obs.looksUp, hv]) rfl rfl
  | getExpired hv h hx =>
    exact booked_of_counts 0 1 1 0 rfl rfl rfl (by simp [Obs.looksUp, hv])
      (OrderedDict.length_erase h) rfl
  | getHit hv h hx =>
    exact booked_of_counts 1 0 0 0 rfl rfl rfl (by simp [Obs.looksUp, hv])
      (List.length_map _).symm rfl
  | @set key value ttl st t hv hw =>
    have hc : (s.popped key (s.table.get? key)).counters = s.counters := by
      cases s.table.get? key <;> rfl
    refine (hw.booked (popped_get? rfl)).booked ?_ (by rw [hc]) ?_ rfl rfl Obs.oversize_set
    · rw [hc]
      change s.table.length + s.expiredRemovals = _
      rw [popped_length s key]
      rfl
    · refine Obs.adds_set.trans ?_
      rw [SqliteCacheStore.entries, Option.isSome_map]
  | setIfAbsentExists hv h hx => exact booked_of_counts 0 0 0 0 rfl rfl rfl rfl rfl rfl
  | @setIfAbsentMissing key value ttl st t hv h hw =>
    have hgone : Entries.purge s.entries (clock 0) key key = none := by
      rw [purge_missing _ h]
      exact entries_of_none h
    exact (hw.booked h).booked rfl rfl (Obs.adds_setIfAbsent hgone) rfl rfl Obs.oversize_conditional
  | @setIfAbsentExpired key value ttl row st t hv h hx hw =>
    have hpop : (s.expire key row).table.get? key = none := OrderedDict.get?_erase_self _ _
    have hgone : Entries.purge s.entries (clock 0) key key = none := by
      rw [purge_expired h hx]
      exact entries_of_none hpop
    refine (hw.booked hpop).booked ?_ rfl
      (Obs.adds_setIfAbsent hgone) rfl rfl Obs.oversize_conditional
    change s.table.length + s.expiredRemovals = (s.table.erase key).length + 0 + (s.expiredRemovals + 1)
    rw [OrderedDict.length_erase h]
    omega
  | compareAndSetMissing hv h => exact booked_of_counts 0 0 0 0 rfl rfl rfl rfl rfl rfl
  | compareAndSetExpired hv h hx =>
    exact booked_of_counts 0 0 1 0 rfl rfl rfl rfl (OrderedDict.length_erase h) rfl
  | compareAndSetMismatch hv h hx hne => exact booked_of_counts 0 0 0 0 rfl rfl rfl rfl rfl rfl
  | @compareAndSetMatch key expected value ttl row st t hv h hx he hw =>
    have hpop : (s.without key row).table.get? key = none := OrderedDict.get?_erase_self _ _
    refine (hw.booked hpop).booked ?_ rfl (Obs.adds_compareAndSet (entries_of_some h)) rfl rfl
      Obs.oversize_conditional
    change s.table.length + s.expiredRemovals = (s.table.erase key).length + 1 + s.expiredRemovals
    rw [OrderedDict.length_erase h]
  | deleteMissing hv h => exact booked_of_counts 0 0 0 0 rfl rfl rfl rfl rfl rfl
  | deletePresent hv h =>
    exact booked_of_counts 0 0 0 1 rfl rfl rfl rfl (OrderedDict.length_erase h) rfl
  | stats hp =>
    refine booked_of_counts 0 0 _ 0 rfl rfl rfl rfl (hp.length ?_).symm ?_
    · exact expiredKeys_sublist clock 0 s.table.items
    · change t.counters = _
      rw [hp.eq]
      rfl
  | clear => exact absurd rfl hclear
  | cleanerKept h => exact booked_of_counts 0 0 0 0 rfl rfl rfl rfl rfl rfl
  | cleanerRemoved h hx =>
    exact booked_of_counts 0 0 1 0 rfl rfl rfl rfl (OrderedDict.length_erase h) rfl

theorem step_booked {db : Engine} (hdb : db.Reliable) (hs : s.Accounted) {event : Event}
    (hclear : event.action ≠ .client .clear) :
    Booked (fun s => s.table.length) counters entries (record (step db) s event) := by
  obtain ⟨action, clock⟩ := event
  rcases step_reliable hdb hs ⟨action, clock⟩ with
    ⟨op, key, x, rfl, hk, hv, hstep⟩ | ⟨reply, t, hstep, h⟩
  · rw [record, hstep]
    exact booked_of_invalid hk hv
  · rw [record, hstep]
    exact h.booked hclear

theorem step_cleared {db : Engine} (hdb : db.Reliable) (hs : s.Accounted) {event : Event}
    (h : event.action = .client .clear) : (step db s event).2.counters = .zero := by
  obtain ⟨action, clock⟩ := event
  cases h
  rcases step_reliable hdb hs ⟨.client .clear, clock⟩ with
    ⟨op, key, x, hop, hk, -⟩ | ⟨reply, t, hstep, h⟩
  · cases hop
    cases hk
  · rw [hstep]
    cases h
    rfl

theorem step_reported {db : Engine} (hdb : db.Reliable) (hs : s.Accounted) {event : Event}
    {snapshot : CacheStatsSnapshot} (h : (step db s event).1 = .ok (.stats snapshot)) :
    snapshot.size = (step db s event).2.table.length ∧
      snapshot.counters = (step db s event).2.counters := by
  obtain ⟨action, clock⟩ := event
  have hafter := hs.step db ⟨action, clock⟩
  rcases step_reliable hdb hs ⟨action, clock⟩ with
    ⟨op, key, x, -, -, -, hstep⟩ | ⟨reply, t, hstep, hout⟩
  · rw [hstep] at h
    cases h
  · rw [hstep] at h hafter ⊢
    cases h
    cases hout with
    | stats => exact ⟨hafter.count, rfl⟩

theorem books {db : Engine} (hdb : db.Reliable) :
    Books (step db) (fun s => s.table.length) counters entries Accounted :=
  ⟨fun _ event hs => hs.step db event, fun _ _ hs => step_booked hdb hs,
    fun _ _ hs => step_cleared hdb hs, fun _ _ _ hs => step_reported hdb hs⟩

end SqliteCacheStore

theorem World.Opens.counters {db : Engine} {s : SqliteCacheStore} (h : World.Opens db s) :
    s.counters = .zero := by
  obtain ⟨db₀, history, args, c, hinit⟩ := h
  obtain ⟨-, n, hs⟩ := SqliteCacheStore.init_eq hinit
  rw [hs]
  rfl

/-- From its opening or from its last `clear` on, either backend keeps the balance. -/
theorem statistics_balance :
    (∀ (limits : CacheStoreLimits) (pre events : List Event), Fresh pre →
      (∀ event ∈ events, event.action ≠ .client .clear) →
      let s := exec CacheStore.step (CacheStore.init limits) pre
      Conserved (fun s => s.store.length) CacheStore.counters CacheStore.entries s
        (trace CacheStore.step s events) (exec CacheStore.step s events)) ∧
    ∀ (db : Engine) (s₀ : SqliteCacheStore) (pre events : List Event), db.Reliable →
      World.Opens db s₀ → Fresh pre → (∀ event ∈ events, event.action ≠ .client .clear) →
      let s := exec (SqliteCacheStore.step db) s₀ pre
      Conserved (fun s => s.table.length) SqliteCacheStore.counters SqliteCacheStore.entries s
        (trace (SqliteCacheStore.step db) s events) (exec (SqliteCacheStore.step db) s events) := by
  refine ⟨?_, ?_⟩
  · intro limits pre events hpre hevents
    exact CacheStore.books.conserved (CacheStore.init_inv limits) rfl hpre hevents
  · intro db s₀ pre events hdb hopens hpre hevents
    exact (SqliteCacheStore.books hdb).conserved hopens.accounted hopens.counters hpre hevents

/-- After the `clear`, `b` displaces `a`, expires and is written anew before a `stats`. -/
theorem statistics_balance_run :
    let pre := [(Op.set "z" [7] none).atTime 0, Op.clear.atTime 1]
    let events := [(Op.set "a" [1] none).atTime 1, (Op.set "b" [2] (some 2)).atTime 2,
      (Op.setIfAbsent "b" [3] none).atTime 4, (Op.get "a").atTime 5, Op.stats.atTime 5,
      (Op.delete "b").atTime 6]
    let m := exec CacheStore.step (.init (.small 0)) pre
    Conserved (fun s => s.store.length) CacheStore.counters CacheStore.entries m
      (trace CacheStore.step m events) (exec CacheStore.step m events) ∧
    ∃ s₀, World.Opens ⟨fun _ => false, fun _ => 0⟩ s₀ ∧
      let s := exec (SqliteCacheStore.step ⟨fun _ => false, fun _ => 0⟩) s₀ pre
      Conserved (fun s => s.table.length) SqliteCacheStore.counters SqliteCacheStore.entries s
        (trace (SqliteCacheStore.step ⟨fun _ => false, fun _ => 0⟩) s events)
        (exec (SqliteCacheStore.step ⟨fun _ => false, fun _ => 0⟩) s events) := by
  intro pre events
  have hpre : Fresh pre := by
    rintro last hlast
    rw [← Option.mem_some.mp hlast]
    rfl
  have hevents : ∀ event ∈ events, event.action ≠ .client .clear := by
    simp [events, Op.atTime]
  refine ⟨statistics_balance.1 _ pre events hpre hevents, ?_⟩
  have hopens : World.Opens ⟨fun _ => false, fun _ => 0⟩ _ :=
    ⟨⟨fun _ => false, fun _ => 0⟩, [], ⟨some 1, some 1, some 10, some 40⟩, _, rfl⟩
  exact ⟨_, hopens, statistics_balance.2 _ _ pre events (fun _ => rfl) hopens hpre hevents⟩

end TinyCache
