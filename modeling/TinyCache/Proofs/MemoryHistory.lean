import TinyCache.Proofs.History
import TinyCache.Proofs.MemoryRefines

/-! Lookups in the in-memory store, over every run. What the general statement about
caches leaves open is which entries an accepted write evicts: those at the front of
the order. -/

namespace TinyCache.CacheStore

open Machine

/-- An accepted write evicts a prefix of the order of the other keys and goes to its end. -/
theorem Outcome.order {s t : CacheStore} {event : Event} {reply : Except PyError Reply}
    (h : Outcome s event.clock event.action reply t) {w : Write}
    (hw : accepted? event reply = some w) :
    ∃ gone rest, (s.store.erase w.key).items = gone ++ rest ∧
      t.store.items = rest ++ [(w.key, w.entry)] := by
  obtain ⟨action, clock⟩ := event
  cases h with
  | @set key value ttl st t _ hwrite =>
    cases hwrite with
    | tooLarge => cases hw
    | stored _ hst =>
      cases hw
      exact ⟨_, _, hst.trimmed.split, hst.items⟩
  | @setIfAbsentMissing key value ttl st t _ hk hwrite =>
    cases hwrite with
    | tooLarge => cases hw
    | stored _ hst =>
      cases hw
      rw [OrderedDict.erase_of_none hk]
      exact ⟨_, _, hst.trimmed.split, hst.items⟩
  | @setIfAbsentExpired key value ttl e st t _ hk _ hwrite =>
    cases hwrite with
    | tooLarge => cases hw
    | stored _ hst =>
      cases hw
      exact ⟨_, _, hst.trimmed.split, hst.items⟩
  | @compareAndSetMatch key _ value ttl e st t _ hk _ _ hwrite =>
    cases hwrite with
    | tooLarge => cases hw
    | stored _ hst =>
      cases hw
      exact ⟨_, _, hst.trimmed.split, hst.items⟩
  | _ => cases hw

/-- In the order of the other keys, everything before `key` was evicted by the write
and then, `key` being at the front, `key` itself; what follows was kept or evicted later. -/
def EvictedAtFront (key : Key) (w : Write) (s t : CacheStore) : Prop :=
  ∃ front behind kept, (s.store.erase w.key).keys = front ++ key :: behind ∧
    t.store.keys = kept ++ [w.key] ∧ kept <:+ behind

theorem evictedAtFront {s t : CacheStore} {event : Event} {reply : Except PyError Reply}
    (h : Outcome s event.clock event.action reply t) {w : Write} {key : Key}
    (hw : accepted? event reply = some w) (hne : w.key ≠ key) {e : CacheEntry}
    (hb : s.entries key = some e) (ha : t.entries key = none) : EvictedAtFront key w s t := by
  obtain ⟨gone, rest, hsplit, hitems⟩ := h.order hw
  have hmem : (key, e) ∈ gone ++ rest := by
    rw [← hsplit, OrderedDict.mem_erase]
    exact ⟨OrderedDict.get?_eq_some.mp hb, Ne.symm hne⟩
  have hnot : key ∉ t.store.keys := OrderedDict.get?_eq_none.mp ha
  have hgone : key ∈ gone.map Prod.fst := by
    rcases List.mem_append.mp hmem with hm | hm
    · exact List.mem_map_of_mem hm
    · refine absurd ?_ hnot
      rw [OrderedDict.keys, hitems, List.map_append, List.mem_append]
      exact Or.inl (List.mem_map_of_mem hm)
  obtain ⟨front, behind, hfront⟩ := List.append_of_mem hgone
  refine ⟨front, behind ++ rest.map Prod.fst, rest.map Prod.fst, ?_, ?_, List.suffix_append _ _⟩
  · rw [OrderedDict.keys, hsplit, List.map_append, hfront, List.append_assoc, List.cons_append]
  · rw [OrderedDict.keys, hitems, List.map_append, List.map_cons, List.map_nil]

theorem Outcome.not_fails {s t : CacheStore} {clock : ℕ → Time} {action : Action}
    {reply : Except PyError Reply} (h : Outcome s clock action reply t) :
    ¬ (action.KeyValid ∧ ∃ x, reply = .error x) := by
  rintro ⟨hvalid, x, hx⟩
  cases h with
  | invalid hk hv =>
    rw [hvalid _ _ rfl hk] at hv
    cases hv
  | _ => cases hx

theorem Outcome.eq_of_error {s t : CacheStore} {clock : ℕ → Time} {action : Action} {x : PyError}
    (h : Outcome s clock action (.error x) t) : t = s := by
  cases h
  rfl

theorem step_answer {s : CacheStore} (hs : s.Inv) {op : Op} {key : Key} (hk : op.key? = some key)
    (clock : ℕ → Time) :
    (step s ⟨.client op, clock⟩).1 =
      (validateKey key).map fun _ => (op.onCell s.limits.maxValueBytes clock (s.entries key)).1 :=
  have h := step_outcome hs.counted ⟨.client op, clock⟩
  h.allowed.answer h.not_fails hk

theorem trace_not_fails (limits : CacheStoreLimits) (events : List Event) :
    ∀ r ∈ trace step (init limits) events, ¬ Obs.Fails r :=
  fun r hr => (trace_outcome limits events r hr).2.not_fails

/-- A lookup returns exactly what the last accepted write left, unless that was removed,
has expired, or was evicted from the front of the order by a write to another key. -/
theorem get_returns_last_write (limits : CacheStoreLimits) {events : List Event}
    (hclock : ClockOk events) {pre post : List (Obs CacheStore)} {r : Obs CacheStore} {key : Key}
    (htrace : trace step (init limits) events = pre ++ r :: post)
    (haction : r.input.action = .client (.get key)) :
    (∀ v, r.output = .ok (.value (some v)) →
      ∃ w since, LastWrite key pre w since ∧ w.value = v ∧ w.Live (r.input.clock 0) ∧
        ∀ q ∈ since, q.input.action ≠ .client (.delete key) ∧ q.input.action ≠ .client .clear) ∧
    (r.output = .ok (.value none) →
      ∀ w since, LastWrite key pre w since → w.Live (r.input.clock 0) →
        (∀ q ∈ since, ¬ q.Removes key) →
        ∃ q ∈ since, ∃ w', q.write? = some w' ∧ w'.key ≠ key ∧
          EvictedAtFront key w' q.before q.after) := by
  have hok : ∀ q ∈ pre, ¬ q.Fails := by
    intro q hq
    refine trace_not_fails limits events q ?_
    rw [htrace]
    exact List.mem_append_left _ hq
  refine ⟨fun v hv => (refines limits).get_some hclock htrace haction hv hok, ?_⟩
  intro hnone w since hlast hlive hkept
  obtain ⟨q, hq, w', hw', hne, hb, ha⟩ :=
    (refines limits).get_none hclock htrace haction hnone hlast hlive hkept hok
  refine ⟨q, hq, w', hw', hne, ?_⟩
  have hmem : q ∈ trace step (init limits) events := by
    rw [htrace]
    exact List.mem_append_left _ (hlast.mem q hq)
  exact evictedAtFront (trace_outcome limits events q hmem).2 hw' hne hb ha

/-- With room for one item, a miss on `a` is due to the write of `b`. -/
theorem get_returns_last_write_run :
    ∃ (q : Obs CacheStore) (w : Write), q ∈ trace step (init (.small 0))
        [(Op.set "a" [1] none).atTime 0, (Op.set "b" [2] none).atTime 1, (Op.get "a").atTime 2] ∧
      q.write? = some w ∧ w.key ≠ "a" ∧ EvictedAtFront "a" w q.before q.after := by
  have hclock : ClockOk
      [(Op.set "a" [1] none).atTime 0, (Op.set "b" [2] none).atTime 1, (Op.get "a").atTime 2] :=
    ClockOk.atTimes (l := [(Op.set "a" [1] none, 0), (Op.set "b" [2] none, 1), (Op.get "a", 2)])
      (by simp)
  obtain ⟨q, hq, w, hw⟩ := (get_returns_last_write (.small 0) hclock
    (show trace step (init (.small 0)) _ = [_, _] ++ _ :: [] from rfl) rfl).2 rfl
    ⟨"a", [1], none, 0⟩ [_]
    ⟨[], _, rfl, rfl, rfl, List.forall_mem_singleton.mpr (by
      rintro ⟨w, hw, hkey⟩
      cases hw
      exact absurd hkey (by decide))⟩
    (by
      intro ttl h
      cases h)
    (List.forall_mem_singleton.mpr (by
      intro h
      rcases h with ⟨h, -⟩ | h <;> cases h))
  refine ⟨q, w, ?_, hw⟩
  rw [List.mem_singleton.mp hq]
  exact List.mem_cons_of_mem _ List.mem_cons_self

end TinyCache.CacheStore
