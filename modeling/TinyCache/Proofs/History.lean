import TinyCache.Spec.History

/-! What a run of a cache says about one key: the entry of a key is the one its last
accepted write left, and it goes only in the ways `Loss` names. The induction is on
the run; the step from one state to the next is `KeyStep`. -/

namespace TinyCache

/-- What one step can do to `key`. -/
inductive KeyStep (key : Key) (event : Event) (reply : Except PyError Reply) (m m' : Entries) : Prop
  | wrote {w : Write} (hw : accepted? event reply = some w) (hkey : w.key = key)
      (h : m' key = some w.entry)
  | kept (hw : ∀ w, accepted? event reply = some w → w.key ≠ key) (h : m' key = m key)
  | lost {e : CacheEntry} (hw : ∀ w, accepted? event reply = some w → w.key ≠ key)
      (hb : m key = some e) (ha : m' key = none)
      (h : Loss key event reply m m' ∨ event.action.KeyValid ∧ ∃ x, reply = .error x)

theorem Entries.purge_cases (m : Entries) (now : Time) (key : Key) :
    m.purge now key = m ∨
      ∃ e, m key = some e ∧ e.isExpired now = true ∧ m.purge now key = m.erase key := by
  by_cases h : ∀ e, m key = some e → e.isExpired now = false
  · exact Or.inl (purge_eq_self h)
  · push Not at h
    obtain ⟨e, he, hx⟩ := h
    rw [ne_eq, Bool.not_eq_false] at hx
    exact Or.inr ⟨e, he, hx, purge_eq_erase he hx⟩

section

variable {event : Event} {reply : Except PyError Reply} {m m' : Entries}

theorem KeyStep.of_none (hacc : accepted? event reply = none) {key : Key}
    (h : m' key = m key ∨ ∃ e, m key = some e ∧ m' key = none ∧
      (Loss key event reply m m' ∨ event.action.KeyValid ∧ ∃ x, reply = .error x)) :
    KeyStep key event reply m m' := by
  have hw : ∀ w, accepted? event reply = some w → w.key ≠ key := by
    intro w hw
    rw [hacc] at hw
    cases hw
  rcases h with h | ⟨e, hb, ha, hl⟩
  · exact .kept hw h
  · exact .lost hw hb ha hl

theorem KeyStep.of_purge (hacc : accepted? event reply = none) (k : Key)
    (hm : m' = m.purge (event.clock 0) k) (key : Key) : KeyStep key event reply m m' := by
  refine .of_none hacc ?_
  by_cases hk : key = k
  · subst hk
    rcases m.purge_cases (event.clock 0) key with h | ⟨e, he, hx, h⟩
    · exact Or.inl (by rw [hm, h])
    · exact Or.inr ⟨e, he, by rw [hm, h, Entries.erase_self], Or.inl (.expired he (Or.inl rfl) hx)⟩
  · exact Or.inl (by rw [hm, Entries.purge_of_ne m _ hk])

/-- A write, made from the map `m₁` in which an expired entry of its key may be gone. -/
theorem Written.keyStep {maxValueBytes : ℤ} {now : Time} {k : Key} {value : Bytes} {ttl : Option ℤ}
    {m₁ : Entries} {st : CacheSetStatus} (hw : Written maxValueBytes now k value ttl m₁ st m')
    (hacc : accepted? event reply = if st = .ok then some ⟨k, value, ttl, now⟩ else none)
    (hm : m₁ = m ∨ m₁ = m.purge (event.clock 0) k) (key : Key) : KeyStep key event reply m m' := by
  have hother : ∀ x, x ≠ k → m₁ x = m x := by
    intro x hx
    rcases hm with rfl | rfl
    · rfl
    · exact m.purge_of_ne _ hx
  cases hw with
  | tooLarge h =>
    rw [if_neg (by decide)] at hacc
    rcases hm with rfl | rfl
    · exact .of_none hacc (Or.inl rfl)
    · exact .of_purge hacc k rfl key
  | stored h hkey hrest =>
    rw [if_pos rfl] at hacc
    by_cases hk : key = k
    · subst hk
      exact .wrote hacc rfl hkey
    · have hne : ∀ w, accepted? event reply = some w → w.key ≠ key := by
        intro w hw
        rw [hacc, Option.some.injEq] at hw
        rw [← hw]
        exact Ne.symm hk
      rcases hrest key hk with h' | h'
      · exact .kept hne (h'.trans (hother key hk))
      · cases hb : m key with
        | none => exact .kept hne (h'.trans hb.symm)
        | some e => exact .lost hne hb h' (Or.inl (.evicted hacc (hne _ hacc) (by rw [hb]; rfl) h'))

theorem accepted?_set {clock : ℕ → Time} {key : Key} {value : Bytes} {ttl : Option ℤ}
    {st : CacheSetStatus} :
    accepted? ⟨.client (.set key value ttl), clock⟩ (.ok (.status st)) =
      if st = .ok then some ⟨key, value, ttl, clock 0⟩ else none := by
  cases st <;> rfl

theorem accepted?_setIfAbsent {clock : ℕ → Time} {key : Key} {value : Bytes} {ttl : Option ℤ}
    {st : CacheSetStatus} :
    accepted? ⟨.client (.setIfAbsent key value ttl), clock⟩
        (.ok (.conditional (conditionalStatusFromSetStatus st))) =
      if st = .ok then some ⟨key, value, ttl, clock 1⟩ else none := by
  cases st <;> rfl

theorem accepted?_compareAndSet {clock : ℕ → Time} {key : Key} {expected value : Bytes}
    {ttl : Option ℤ} {st : CacheSetStatus} :
    accepted? ⟨.client (.compareAndSet key expected value ttl), clock⟩
        (.ok (.conditional (conditionalStatusFromSetStatus st))) =
      if st = .ok then some ⟨key, value, ttl, clock 1⟩ else none := by
  cases st <;> rfl

theorem Allowed.keyStep {maxValueBytes : ℤ}
    (h : Allowed maxValueBytes event.clock m event.action reply m') (key : Key) :
    KeyStep key event reply m m' := by
  obtain ⟨action, clock⟩ := event
  cases h with
  | invalid => exact .of_none rfl (Or.inl rfl)
  | failed hv h =>
    refine .of_none rfl ?_
    rcases h key with h | h
    · exact Or.inl h
    · cases hb : m key with
      | none => exact Or.inl h
      | some e => exact Or.inr ⟨e, rfl, h, Or.inr ⟨hv, _, rfl⟩⟩
  | @get k => exact .of_purge rfl k rfl key
  | set hv hw => exact hw.keyStep accepted?_set (Or.inl rfl) key
  | @setIfAbsentExists k => exact .of_purge rfl k rfl key
  | setIfAbsent hv h hw => exact hw.keyStep accepted?_setIfAbsent (Or.inr rfl) key
  | @compareAndSetMissing k => exact .of_purge rfl k rfl key
  | @compareAndSetMismatch k => exact .of_purge rfl k rfl key
  | compareAndSet hv h he hw => exact hw.keyStep accepted?_compareAndSet (Or.inr rfl) key
  | @delete k =>
    refine .of_none rfl ?_
    by_cases hk : key = k
    · subst hk
      cases hb : m key with
      | none => exact Or.inl (m.erase_self key)
      | some e => exact Or.inr ⟨e, rfl, m.erase_self key, Or.inl (.deleted rfl rfl)⟩
    · exact Or.inl (m.erase_of_ne hk)
  | stats h =>
    refine .of_none rfl ?_
    rcases h key with h | ⟨i, h⟩
    · exact Or.inl h
    · rcases m.purge_cases (clock i) key with hp | ⟨e, he, hx, hp⟩
      · exact Or.inl (by rw [h, hp])
      · exact Or.inr ⟨e, he, by rw [h, hp, Entries.erase_self], Or.inl (.expired he (Or.inr rfl) hx)⟩
  | clear =>
    refine .of_none rfl ?_
    cases hb : m key with
    | none => exact Or.inl rfl
    | some e => exact Or.inr ⟨e, rfl, rfl, Or.inl (.cleared rfl rfl)⟩
  | @cleaner k => exact .of_purge rfl k rfl key

end

/-- An operation on one key leaves the others, or is a write that loses them. -/
theorem Allowed.other {maxValueBytes : ℤ} {clock : ℕ → Time} {m m' : Entries} {op : Op}
    {reply : Except PyError Reply} (h : Allowed maxValueBytes clock m (.client op) reply m') {K x : Key}
    (hk : op.key? = some K) (hx : x ≠ K) :
    m' x = m x ∨ m' x = none ∧ (accepted? ⟨.client op, clock⟩ reply ≠ none ∨ ∃ y, reply = .error y) := by
  have hpurge : m.purge (clock 0) K x = m x := m.purge_of_ne _ hx
  have hwritten : ∀ {now : Time} {value : Bytes} {ttl : Option ℤ} {m₁ : Entries} {st : CacheSetStatus},
      Written maxValueBytes now K value ttl m₁ st m' → m₁ x = m x →
        accepted? ⟨.client op, clock⟩ reply = (if st = .ok then some ⟨K, value, ttl, now⟩ else none) →
        m' x = m x ∨ m' x = none ∧
          (accepted? ⟨.client op, clock⟩ reply ≠ none ∨ ∃ y, reply = .error y) := by
    intro now value ttl m₁ st hw hm₁ hacc
    cases hw with
    | tooLarge => exact Or.inl hm₁
    | stored _ _ hrest =>
      refine (hrest x hx).imp (fun h => h.trans hm₁) fun h => ⟨h, Or.inl ?_⟩
      rw [hacc, if_pos rfl]
      exact Option.some_ne_none _
  cases h with
  | invalid => exact Or.inl rfl
  | failed _ hm => exact (hm x).imp id fun h => ⟨h, Or.inr ⟨_, rfl⟩⟩
  | get | setIfAbsentExists | compareAndSetMissing | compareAndSetMismatch =>
    cases hk
    exact Or.inl hpurge
  | set _ hw =>
    cases hk
    exact hwritten hw rfl accepted?_set
  | setIfAbsent _ _ hw =>
    cases hk
    exact hwritten hw hpurge accepted?_setIfAbsent
  | compareAndSet _ _ _ hw =>
    cases hk
    exact hwritten hw hpurge accepted?_compareAndSet
  | delete =>
    cases hk
    exact Or.inl (m.erase_of_ne hx)
  | stats | clear => cases hk

namespace LastWriteBy

variable {α : Type} {write? : α → Option Write} {key : Key} {history since : List α} {r : α} {w : Write}

theorem snoc_of_writes (hw : write? r = some w) (hkey : w.key = key) :
    LastWriteBy write? key (history ++ [r]) w [] :=
  ⟨history, r, rfl, hw, hkey, by simp⟩

theorem snoc (h : LastWriteBy write? key history w since)
    (hr : ¬ ∃ w', write? r = some w' ∧ w'.key = key) :
    LastWriteBy write? key (history ++ [r]) w (since ++ [r]) := by
  obtain ⟨before, q, rfl, hw, hkey, hsince⟩ := h
  refine ⟨before, q, by simp, hw, hkey, ?_⟩
  intro p hp
  rcases List.mem_append.mp hp with hp | hp
  · exact hsince p hp
  · rw [List.mem_singleton.mp hp]
    exact hr

/-- The last write of a longer history is its last step, or was the last write before. -/
theorem unsnoc (h : LastWriteBy write? key (history ++ [r]) w since) :
    (since = [] ∧ write? r = some w ∧ w.key = key) ∨
      ((¬ ∃ w', write? r = some w' ∧ w'.key = key) ∧
        ∃ since', since = since' ++ [r] ∧ LastWriteBy write? key history w since') := by
  obtain ⟨before, q, he, hw, hkey, hsince⟩ := h
  rcases List.eq_nil_or_concat' since with rfl | ⟨since', p, rfl⟩
  · obtain ⟨-, hq⟩ := List.append_inj' he rfl
    rw [List.singleton_inj.mp hq]
    exact Or.inl ⟨rfl, hw, hkey⟩
  · rw [← List.cons_append, ← List.append_assoc] at he
    obtain ⟨hh, hp⟩ := List.append_inj' he rfl
    rw [List.singleton_inj] at hp
    subst hp
    refine Or.inr ⟨hsince r (by simp), since', rfl, before, q, hh, hw, hkey, ?_⟩
    exact fun x hx => hsince x (List.mem_append_left _ hx)

theorem nil : ¬ LastWriteBy write? key [] w since := by
  rintro ⟨before, r, he, -⟩
  simp at he

theorem mem (h : LastWriteBy write? key history w since) : ∀ q ∈ since, q ∈ history := by
  obtain ⟨before, r, rfl, -⟩ := h
  intro q hq
  simp [hq]

theorem exists_mem (h : LastWriteBy write? key history w since) :
    ∃ r ∈ history, write? r = some w ∧ w.key = key := by
  obtain ⟨before, r, rfl, hw, hkey, -⟩ := h
  exact ⟨r, by simp, hw, hkey⟩

/-- After a write there is a last write, at that place or later. -/
theorem exists_after (hq : ∃ w', write? r = some w' ∧ w'.key = key) (mid : List α) :
    ∃ w since, LastWriteBy write? key (history ++ r :: mid) w since ∧ ∀ q ∈ since, q ∈ mid := by
  induction mid using List.reverseRecOn with
  | nil =>
    obtain ⟨w, hw, hkey⟩ := hq
    exact ⟨w, [], snoc_of_writes hw hkey, by simp⟩
  | append_singleton mid q ih =>
    rw [← List.cons_append, ← List.append_assoc]
    by_cases hq : ∃ w', write? q = some w' ∧ w'.key = key
    · obtain ⟨w, hw, hkey⟩ := hq
      exact ⟨w, [], snoc_of_writes hw hkey, by simp⟩
    · obtain ⟨w, since, hlast, hmem⟩ := ih
      refine ⟨w, since ++ [q], hlast.snoc hq, ?_⟩
      intro p hp
      rcases List.mem_append.mp hp with hp | hp
      · exact List.mem_append_left _ (hmem p hp)
      · exact List.mem_append_right _ hp

end LastWriteBy

section

open Machine

variable {σ : Type} {step : σ → Event → Except PyError Reply × σ} {entries : σ → Entries}
  {maxValueBytes : ℤ} {Inv : σ → Prop} {s₀ : σ}

/-- The invariant of the induction. A present entry has a last write; after the last
write its entry is there throughout, or it has gone and nothing has come in its place. -/
structure Tracked (entries : σ → Entries) (key : Key) (history : List (Obs σ)) (s : σ) : Prop where
  written : ∀ e, entries s key = some e → ∃ w since, LastWrite key history w since
  since : ∀ w since, LastWrite key history w since →
    (entries s key = some w.entry ∧
      ∀ r ∈ since, entries r.before key = some w.entry ∧ entries r.after key = some w.entry) ∨
    (entries s key = none ∧ ∃ r ∈ since, entries r.before key = some w.entry ∧
      entries r.after key = none ∧ (r.Loses entries key ∨ r.Fails))

theorem Tracked.next {key : Key} {history : List (Obs σ)} {r : Obs σ}
    (h : Tracked entries key history r.before)
    (hk : KeyStep key r.input r.output (entries r.before) (entries r.after)) :
    Tracked entries key (history ++ [r]) r.after := by
  cases hk with
  | @wrote w hw hkey ha =>
    refine ⟨fun e _ => ⟨w, [], .snoc_of_writes hw hkey⟩, ?_⟩
    intro w' since hlast
    rcases hlast.unsnoc with ⟨rfl, hw', -⟩ | ⟨hnot, -⟩
    · obtain rfl : w = w' := Option.some.inj (hw.symm.trans hw')
      exact Or.inl ⟨ha, by simp⟩
    · exact absurd ⟨w, hw, hkey⟩ hnot
  | kept hw ha =>
    have hnot : ¬ r.Writes key := fun ⟨w, h1, h2⟩ => hw w h1 h2
    refine ⟨?_, ?_⟩
    · intro e he
      obtain ⟨w, since, hlast⟩ := h.written e (ha ▸ he)
      exact ⟨w, since ++ [r], hlast.snoc hnot⟩
    · intro w since hlast
      rcases hlast.unsnoc with ⟨-, hw', hkey⟩ | ⟨-, since', rfl, hlast'⟩
      · exact absurd ⟨w, hw', hkey⟩ hnot
      · rcases h.since w since' hlast' with ⟨hb, hall⟩ | ⟨hb, q, hq, hloss⟩
        · refine Or.inl ⟨ha.trans hb, ?_⟩
          intro q hq
          rcases List.mem_append.mp hq with hq | hq
          · exact hall q hq
          · rw [List.mem_singleton.mp hq]
            exact ⟨hb, ha.trans hb⟩
        · exact Or.inr ⟨ha.trans hb, q, List.mem_append_left _ hq, hloss⟩
  | lost hw hb ha hl =>
    have hnot : ¬ r.Writes key := fun ⟨w, h1, h2⟩ => hw w h1 h2
    refine ⟨?_, ?_⟩
    · intro e he
      rw [ha] at he
      cases he
    · intro w since hlast
      rcases hlast.unsnoc with ⟨-, hw', hkey⟩ | ⟨-, since', rfl, hlast'⟩
      · exact absurd ⟨w, hw', hkey⟩ hnot
      · rcases h.since w since' hlast' with ⟨hb', -⟩ | ⟨hb', -⟩
        · exact Or.inr ⟨ha, r, by simp, hb', ha, hl⟩
        · rw [hb'] at hb
          cases hb

theorem Refines.tracked (h : Refines step entries maxValueBytes Inv s₀) (key : Key)
    (events : List Event) : Tracked entries key (trace step s₀ events) (exec step s₀ events) := by
  refine (history_always (I := fun history s => Inv s ∧ Tracked entries key history s) ?_ ?_ events).2
  · rintro history s event ⟨hinv, ht⟩
    exact ⟨h.keeps s event hinv, ht.next ((h.allowed s event hinv).keyStep key)⟩
  · refine ⟨h.init, ?_, fun w since hlast => absurd hlast LastWriteBy.nil⟩
    intro e he
    rw [h.empty] at he
    cases he

theorem Refines.allowed_of_mem (h : Refines step entries maxValueBytes Inv s₀) (events : List Event) :
    ∀ r ∈ trace step s₀ events, Allowed maxValueBytes r.input.clock (entries r.before) r.input.action
      r.output (entries r.after) := by
  intro r hr
  obtain ⟨hinv, hrec⟩ := trace_always h.keeps h.init hr
  rw [hrec]
  exact h.allowed _ _ hinv

/-- What came before one place of a run, and the readings there. -/
theorem Refines.tracked_at (h : Refines step entries maxValueBytes Inv s₀) {events : List Event}
    (hclock : ClockOk events) {pre post : List (Obs σ)} {r : Obs σ}
    (htrace : trace step s₀ events = pre ++ r :: post) (key : Key) :
    Tracked entries key pre r.before ∧
      (∀ q ∈ pre ++ [r], Allowed maxValueBytes q.input.clock (entries q.before) q.input.action q.output
        (entries q.after)) ∧
      ∀ q ∈ pre, ∀ i j, q.input.clock i ≤ r.input.clock j := by
  have hall := h.allowed_of_mem events
  obtain ⟨es, e, es', rfl, rfl, hr⟩ := trace_split htrace
  refine ⟨?_, ?_, ?_⟩
  · rw [hr]
    exact h.tracked key es
  · intro q hq
    refine hall q ?_
    rw [htrace]
    rcases List.mem_append.mp hq with hq | hq
    · exact List.mem_append_left _ hq
    · rw [List.mem_singleton.mp hq]
      simp
  · intro q hq i j
    have hmem : q.input ∈ es := input_mem hq
    rw [hr]
    exact (List.pairwise_append.mp hclock.across).2.2 _ hmem e (by simp) i j

theorem Allowed.get_reply {clock : ℕ → Time} {m m' : Entries} {key : Key} {v : Option Bytes}
    (h : Allowed maxValueBytes clock m (.client (.get key)) (.ok (.value v)) m') :
    validateKey key = .ok () ∧ v = (m.purge (clock 0) key key).map CacheEntry.value := by
  cases h with
  | get hv => exact ⟨hv, rfl⟩

/-- A present entry is not one that a `delete` of its key or a `clear` has left. -/
theorem Allowed.not_removing {clock : ℕ → Time} {m m' : Entries} {action : Action}
    {reply : Except PyError Reply} (h : Allowed maxValueBytes clock m action reply m') {key : Key}
    (hv : validateKey key = .ok ()) {e : CacheEntry} (he : m' key = some e)
    (hok : ¬ (action.KeyValid ∧ ∃ x, reply = .error x)) :
    action ≠ .client (.delete key) ∧ action ≠ .client .clear := by
  refine ⟨?_, ?_⟩
  · rintro rfl
    cases h with
    | invalid hk hx =>
      simp only [Op.key?, Option.some.injEq] at hk
      rw [← hk, hv] at hx
      cases hx
    | failed hv => exact hok ⟨hv, _, rfl⟩
    | delete _ =>
      rw [Entries.erase_self] at he
      cases he
  · rintro rfl
    cases h with
    | invalid hk => cases hk
    | failed hv => exact hok ⟨hv, _, rfl⟩
    | clear => cases he

/-- An entry that a step has left, and that has not expired at its readings, was not lost. -/
theorem Allowed.not_loss {event : Event} {m m' : Entries} {reply : Except PyError Reply}
    (h : Allowed maxValueBytes event.clock m event.action reply m') {key : Key} {e : CacheEntry}
    (hb : m key = some e) (ha : m' key = some e) (hx : ∀ i, e.isExpired (event.clock i) = false) :
    ¬ Loss key event reply m m' := by
  obtain ⟨action, clock⟩ := event
  intro hloss
  cases hloss with
  | deleted haction hreply =>
    obtain rfl : action = _ := haction
    cases h with
    | invalid => cases hreply
    | failed => cases hreply
    | delete _ =>
      rw [Entries.erase_self] at ha
      cases ha
  | cleared haction hreply =>
    obtain rfl : action = _ := haction
    cases h with
    | invalid => cases hreply
    | failed => cases hreply
    | clear => cases ha
  | evicted _ _ _ hnone =>
    rw [ha] at hnone
    cases hnone
  | @expired e' i hb' _ hx' =>
    obtain rfl : e = e' := Option.some.inj (hb.symm.trans hb')
    rw [hx i] at hx'
    cases hx'

variable {events : List Event} {pre post : List (Obs σ)} {r : Obs σ} {key : Key}

/-- A live entry is the one of the last accepted write, and has not been lost since. -/
theorem Refines.present (h : Refines step entries maxValueBytes Inv s₀) (hclock : ClockOk events)
    (htrace : trace step s₀ events = pre ++ r :: post) {e : CacheEntry}
    (he : entries r.before key = some e) (hx : e.isExpired (r.input.clock 0) = false) :
    ∃ w since, LastWrite key pre w since ∧ w.entry = e ∧
      ∀ q ∈ since, entries q.after key = some e ∧ ¬ q.Loses entries key := by
  obtain ⟨ht, hall, htime⟩ := h.tracked_at hclock htrace key
  obtain ⟨w, since, hlast⟩ := ht.written e he
  rcases ht.since w since hlast with ⟨hw, hsince⟩ | ⟨hnone, -⟩
  · obtain rfl : w.entry = e := Option.some.inj (hw.symm.trans he)
    refine ⟨w, since, hlast, rfl, ?_⟩
    intro q hq
    obtain ⟨hb, ha⟩ := hsince q hq
    refine ⟨ha, (hall q (List.mem_append_left _ (hlast.mem q hq))).not_loss hb ha ?_⟩
    intro i
    by_contra hx'
    rw [Bool.not_eq_false] at hx'
    rw [CacheEntry.isExpired_mono (htime q (hlast.mem q hq) i 0) hx'] at hx
    cases hx
  · rw [hnone] at he
    cases he

/-- What a lookup returns is the live value of the last accepted write. -/
theorem Refines.get_some (h : Refines step entries maxValueBytes Inv s₀) (hclock : ClockOk events)
    (htrace : trace step s₀ events = pre ++ r :: post) (haction : r.input.action = .client (.get key))
    {v : Bytes} (hreply : r.output = .ok (.value (some v))) (hok : ∀ q ∈ pre, ¬ q.Fails) :
    ∃ w since, LastWrite key pre w since ∧ w.value = v ∧ w.Live (r.input.clock 0) ∧
      ∀ q ∈ since, q.input.action ≠ .client (.delete key) ∧ q.input.action ≠ .client .clear := by
  obtain ⟨-, hall, -⟩ := h.tracked_at hclock htrace key
  have hr := hall r (by simp)
  rw [haction, hreply] at hr
  obtain ⟨hv, hval⟩ := hr.get_reply
  obtain ⟨e, he, rfl⟩ := Option.map_eq_some_iff.mp hval.symm
  obtain ⟨he, hx⟩ := Entries.purge_eq_some.mp he
  obtain ⟨w, since, hlast, rfl, hsince⟩ := h.present hclock htrace he hx
  refine ⟨w, since, hlast, rfl, (w.live_iff _).mpr hx, ?_⟩
  intro q hq
  have hmem := hlast.mem q hq
  exact (hall q (List.mem_append_left [r] hmem)).not_removing hv (hsince q hq).1 (hok q hmem)

/-- A lookup that misses the live value of the last accepted write, neither deleted nor
cleared since, misses it because a write to another key evicted it. -/
theorem Refines.get_none (h : Refines step entries maxValueBytes Inv s₀) (hclock : ClockOk events)
    (htrace : trace step s₀ events = pre ++ r :: post) (haction : r.input.action = .client (.get key))
    (hreply : r.output = .ok (.value none)) {w : Write} {since : List (Obs σ)}
    (hlast : LastWrite key pre w since) (hlive : w.Live (r.input.clock 0))
    (hkept : ∀ q ∈ since, ¬ q.Removes key) (hok : ∀ q ∈ pre, ¬ q.Fails) :
    ∃ q ∈ since, ∃ w', q.write? = some w' ∧ w'.key ≠ key ∧ entries q.before key = some w.entry ∧
      entries q.after key = none := by
  obtain ⟨ht, hall, htime⟩ := h.tracked_at hclock htrace key
  have hr := hall r (by simp)
  rw [haction, hreply] at hr
  obtain ⟨-, hval⟩ := hr.get_reply
  have hx := (w.live_iff _).mp hlive
  rcases ht.since w since hlast with ⟨hw, -⟩ | ⟨-, q, hq, hb, ha, hloss | hfail⟩
  · rw [Entries.purge_eq_some.mpr ⟨hw, hx⟩] at hval
    cases hval
  · refine ⟨q, hq, ?_⟩
    cases hloss with
    | deleted hact hrep => exact absurd (Or.inl ⟨hact, hrep⟩) (hkept q hq)
    | cleared hact => exact absurd (Or.inr hact) (hkept q hq)
    | evicted hw' hne => exact ⟨_, hw', hne, hb, ha⟩
    | expired hb' _ hx' =>
      rw [hb, Option.some.injEq] at hb'
      rw [← hb'] at hx'
      rw [CacheEntry.isExpired_mono (htime q (hlast.mem q hq) _ 0) hx'] at hx
      cases hx
  · exact absurd hfail (hok q (hlast.mem q hq))

end

end TinyCache
