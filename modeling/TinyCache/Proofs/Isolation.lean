import TinyCache.Proofs.Eviction
import TinyCache.Proofs.SqliteEviction
import TinyCache.Sanity.Service

/-! The shared keys and those of the namespaces, in every run of the service over a cache:
they are apart as long as no shared key in use looks like a namespaced one. -/

namespace TinyCache

open Machine

/-- No call of the event has a shared key that looks namespaced. -/
def ServiceEvent.Plain (event : ServiceEvent) : Prop := ∀ a, event.address? = some a → a.Plain

section

variable {σ : Type} {store : σ → Event → Except PyError Reply × σ} {entries : σ → Entries}
  {maxValueBytes : ℤ} {Inv : σ → Prop} {s₀ : σ}

/-- Every entry is the one that the last accepted write to its place left. -/
structure Filed (entries : σ → Entries) (history : List (ServiceObs σ)) (s : σ) : Prop where
  written : ∀ K e, entries s K = some e →
    ∃ w since, LastWriteBy ServiceObs.write? K history w since ∧ w.entry = e

theorem ServiceObs.write?_of_event {r : ServiceObs σ} {e : Event} (h : r.input.storeEvent = .ok e) :
    r.write? = accepted? e r.output := by
  rw [ServiceObs.write?, h]

theorem ServiceObs.write?_of_error {r : ServiceObs σ} {x : PyError} (h : r.input.storeEvent = .error x) :
    r.write? = none := by
  rw [ServiceObs.write?, h]

theorem Filed.next (h : Refines store entries maxValueBytes Inv s₀) {history : List (ServiceObs σ)}
    {s : σ} (hs : Inv s) (hf : Filed entries history s) (event : ServiceEvent) :
    Inv (CacheApplicationService.step store s event).2 ∧
      Filed entries (history ++ [record (CacheApplicationService.step store) s event])
        (CacheApplicationService.step store s event).2 := by
  have hkept : ∀ {r : ServiceObs σ} {K : Key} {e : CacheEntry},
      (∀ w, r.write? = some w → w.key ≠ K) → entries s K = some e →
        ∃ w since, LastWriteBy ServiceObs.write? K (history ++ [r]) w since ∧ w.entry = e := by
    intro r K e hw he
    obtain ⟨w, since, hlast, hentry⟩ := hf.written K e he
    exact ⟨w, since ++ [r], hlast.snoc fun ⟨w', hw', hkey⟩ => hw w' hw' hkey, hentry⟩
  set r : ServiceObs σ := record (CacheApplicationService.step store) s event with hr
  have hafter : r.after = (CacheApplicationService.step store s event).2 := rfl
  have houtput : r.output = (CacheApplicationService.step store s event).1 := rfl
  rw [CacheApplicationService.step_eq] at hafter houtput ⊢
  rcases hevent : event.storeEvent with x | e
  · refine ⟨hs, ⟨fun K e he => hkept ?_ he⟩⟩
    intro w hw
    rw [ServiceObs.write?_of_error (r := r) hevent] at hw
    cases hw
  · have hwrite := ServiceObs.write?_of_event (r := r) hevent
    rw [hevent] at houtput
    rw [houtput] at hwrite
    refine ⟨h.keeps s e hs, ⟨fun K e' he' => ?_⟩⟩
    cases (h.allowed s e hs).keyStep K with
    | wrote hw hkey ha =>
      obtain rfl : _ = e' := Option.some.inj (ha.symm.trans he')
      exact ⟨_, [], .snoc_of_writes (hwrite.trans hw) hkey, rfl⟩
    | kept hw ha => exact hkept (fun w hw' => hw w (hwrite.symm.trans hw')) (ha.symm.trans he')
    | lost _ _ ha =>
      rw [ha] at he'
      cases he'

theorem exec_filed (h : Refines store entries maxValueBytes Inv s₀) (events : List ServiceEvent) :
    Inv (exec (CacheApplicationService.step store) s₀ events) ∧
      Filed entries (trace (CacheApplicationService.step store) s₀ events)
        (exec (CacheApplicationService.step store) s₀ events) := by
  refine history_always (I := fun history s => Inv s ∧ Filed entries history s) ?_ ?_ events
  · rintro history s event ⟨hs, hf⟩
    exact hf.next h hs event
  · refine ⟨h.init, ⟨fun K e he => ?_⟩⟩
    rw [h.empty] at he
    cases he

theorem filed_at (h : Refines store entries maxValueBytes Inv s₀) {events : List ServiceEvent}
    {pre post : List (ServiceObs σ)} {r : ServiceObs σ}
    (htrace : trace (CacheApplicationService.step store) s₀ events = pre ++ r :: post) :
    Inv r.before ∧ Filed entries pre r.before ∧
      r = record (CacheApplicationService.step store) r.before r.input := by
  obtain ⟨es, event, es', rfl, rfl, rfl⟩ := trace_split htrace
  exact ⟨(exec_filed h es).1, (exec_filed h es).2, rfl⟩

theorem plain_upto {events : List ServiceEvent} (hplain : ∀ e ∈ events, e.Plain)
    {pre post : List (ServiceObs σ)} {r : ServiceObs σ}
    (htrace : trace (CacheApplicationService.step store) s₀ events = pre ++ r :: post) :
    ∀ q ∈ pre ++ [r], q.input.Plain := by
  intro q hq
  refine hplain _ (input_mem (?_ : q ∈ trace (CacheApplicationService.step store) s₀ events))
  rw [htrace]
  rcases List.mem_append.mp hq with hq | hq
  · exact List.mem_append_left _ hq
  · rw [List.mem_singleton.mp hq]
    simp

/-- What a plain call finds at its place was written under its address. -/
theorem found_own (h : Refines store entries maxValueBytes Inv s₀) {events : List ServiceEvent}
    (hplain : ∀ e ∈ events, e.Plain) {pre post : List (ServiceObs σ)} {r : ServiceObs σ}
    (htrace : trace (CacheApplicationService.step store) s₀ events = pre ++ r :: post) {a : Address}
    {e : CacheEntry} (ha : r.input.address? = some a) (he : entries r.before a.storageKey = some e) :
    ∃ w since, LastWriteBy ServiceObs.write? a.storageKey pre w since ∧ w.entry = e ∧
      ∃ q ∈ pre, q.write? = some w ∧ q.input.address? = some a := by
  have hpl := plain_upto hplain htrace
  obtain ⟨-, hf, -⟩ := filed_at h htrace
  obtain ⟨w, since, hlast, hentry⟩ := hf.written _ e he
  refine ⟨w, since, hlast, hentry, ?_⟩
  obtain ⟨q, hq, hw, hkey⟩ := hlast.exists_mem
  obtain ⟨b, hb, hbkey⟩ := ServiceObs.write_address hw
  have hab : b = a := Address.storageKey_inj (ServiceEvent.address_accepted hb)
    (ServiceEvent.address_accepted ha) (hpl q (List.mem_append_left _ hq) b hb)
    (hpl r (by simp) a ha) (hbkey.trans hkey)
  exact ⟨q, hq, hw, hab ▸ hb⟩

/-- The step of the store that a call with an address comes down to. -/
theorem step_of_address {s : σ} {r : ServiceObs σ}
    (hr : r = record (CacheApplicationService.step store) s r.input) {a : Address}
    (ha : r.input.address? = some a) :
    ∃ op clock, r.input.storeEvent = .ok ⟨.client op, clock⟩ ∧ op.key? = some a.storageKey ∧
      r.output = (store s ⟨.client op, clock⟩).1 ∧ r.after = (store s ⟨.client op, clock⟩).2 := by
  obtain ⟨op, clock, hevent, hk⟩ := ServiceEvent.storeEvent_of_address ha
  have hstep : CacheApplicationService.step store s r.input = store s ⟨.client op, clock⟩ := by
    rw [CacheApplicationService.step_eq, hevent]
  exact ⟨op, clock, hevent, hk, (congrArg Step.output hr).trans (congrArg Prod.fst hstep),
    (congrArg Step.after hr).trans (congrArg Prod.snd hstep)⟩

/-- A call leaves the places of other plain addresses, unless it evicts. -/
theorem kept_other (h : Refines store entries maxValueBytes Inv s₀) {s : σ} (hs : Inv s)
    {r : ServiceObs σ} (hr : r = record (CacheApplicationService.step store) s r.input) {a : Address}
    {K : Key} (ha : r.input.address? = some a) (hplace : K ≠ a.storageKey) :
    entries r.after K = entries s K ∨
      entries r.after K = none ∧ (r.write? ≠ none ∨ ∃ x, r.output = .error x) := by
  obtain ⟨op, clock, hevent, hk, houtput, hafter⟩ := step_of_address hr ha
  have hallowed := h.allowed s ⟨.client op, clock⟩ hs
  rw [ServiceObs.write?_of_event hevent, hafter, houtput]
  exact hallowed.other hk hplace

/-- What a call with an address takes from the places of others, it evicts. -/
def OnlyEvicts (store : σ → Event → Except PyError Reply × σ) (entries : σ → Entries) (Inv : σ → Prop)
    (evicted : ServiceObs σ → Key → Prop) : Prop :=
  ∀ (r : ServiceObs σ) (a : Address) (K : Key), Inv r.before →
    r = record (CacheApplicationService.step store) r.before r.input → r.input.address? = some a →
    K ≠ a.storageKey → entries r.before K ≠ none → entries r.after K = none →
    (r.write? ≠ none ∨ ∃ x, r.output = .error x) → evicted r K

theorem isolated (h : Refines store entries maxValueBytes Inv s₀) {evicted : ServiceObs σ → Key → Prop}
    (hevicts : OnlyEvicts store entries Inv evicted) (events : List ServiceEvent)
    (hplain : ∀ e ∈ events, e.Plain) :
    Isolated entries evicted (trace (CacheApplicationService.step store) s₀ events) := by
  refine ⟨fun pre post r a e htrace => found_own h hplain htrace, ?_, ?_⟩
  · intro pre post r a key ns clock v htrace hinput ha hreply
    obtain ⟨hs, -, hr⟩ := filed_at h htrace
    have hevent : r.input.storeEvent = .ok ⟨.client (.get a.storageKey), clock⟩ := by
      rw [hinput] at ha ⊢
      obtain ⟨hK, -, -⟩ := Address.of?_eq_some.mp ha
      simp only [ServiceEvent.storeEvent, Request.op, hK]
      rfl
    have hallowed := h.allowed r.before ⟨.client (.get a.storageKey), clock⟩ hs
    rw [hr, record, CacheApplicationService.step_eq, hevent] at hreply
    rw [show (store r.before ⟨.client (.get a.storageKey), clock⟩).1 = _ from hreply] at hallowed
    obtain ⟨e, he, rfl⟩ := Option.map_eq_some_iff.mp hallowed.get_reply.2.symm
    obtain ⟨w, -, -, hentry, q, hq, hw, hqa⟩ :=
      found_own h hplain htrace ha (Entries.purge_eq_some.mp he).1
    exact ⟨q, hq, hqa, w, hw, congrArg CacheEntry.value hentry⟩
  · intro r hr a b ha hne hb hbp
    obtain ⟨pre, post, htrace⟩ := List.append_of_mem hr
    obtain ⟨hs, -, hrec⟩ := filed_at h htrace
    have hplace : b.storageKey ≠ a.storageKey := fun he => hne
      (Address.storageKey_inj hb (ServiceEvent.address_accepted ha) hbp
        (plain_upto hplain htrace r (by simp) a ha) he)
    rcases kept_other h hs hrec ha hplace with hkept | ⟨hgone, hwhy⟩
    · exact Or.inl hkept
    · by_cases hbefore : entries r.before b.storageKey = none
      · exact Or.inl (hgone.trans hbefore.symm)
      · exact Or.inr ⟨hgone, hevicts r a _ hs hrec ha hplace hbefore hgone hwhy⟩

end

/-- An accepted write has evicted the key with a shortest prefix of the order of the others. -/
def CacheStore.EvictedBy (r : ServiceObs CacheStore) (key : Key) : Prop :=
  ∃ w gone rest, r.write? = some w ∧ Replaced r.before r.after w gone rest ∧ key ∈ gone.map Prod.fst

theorem CacheStore.onlyEvicts (limits : CacheStoreLimits) :
    OnlyEvicts step entries (fun s => s.Inv ∧ s.limits = limits) EvictedBy := by
  intro r a K hs hr ha hplace hbefore hgone hwhy
  obtain ⟨op, clock, hevent, hk, houtput, hafter⟩ := step_of_address hr ha
  have hout := step_outcome hs.1.counted ⟨.client op, clock⟩
  rw [← houtput, ← hafter] at hout
  have hwritten : ∃ w, accepted? ⟨.client op, clock⟩ r.output = some w := by
    rcases hwhy with hwrite | ⟨x, hx⟩
    · rw [ServiceObs.write?_of_event hevent] at hwrite
      exact Option.ne_none_iff_exists'.mp hwrite
    · rw [hx] at hout
      rw [hout.eq_of_error] at hgone
      exact absurd hgone hbefore
  obtain ⟨w, hw⟩ := hwritten
  obtain ⟨gone, rest, hreplaced⟩ := @Outcome.replaced _ _ hs.1 ⟨.client op, clock⟩ _ hout _ hw
  refine ⟨w, gone, rest, (ServiceObs.write?_of_event hevent).trans hw, hreplaced, ?_⟩
  have hkey : w.key = a.storageKey := by
    obtain ⟨op', hop, hk'⟩ := accepted?_key hw
    cases hop
    exact Option.some.inj (hk'.symm.trans hk)
  obtain ⟨e, he⟩ := Option.ne_none_iff_exists'.mp hbefore
  exact hreplaced.mem_gone (hkey ▸ hplace) he hgone

/-- A write, accepted or failed half way, has evicted the key with the oldest of the rows of others,
each of them for want of room. -/
def SqliteCacheStore.EvictedBy (r : ServiceObs SqliteCacheStore) (key : Key) : Prop :=
  ∃ op clock own gone, r.input.storeEvent = .ok ⟨.client op, clock⟩ ∧ op.key? = some own ∧
    (r.write? ≠ none ∨ ∃ x, r.output = .error x) ∧
    EvictedFor r.before.limits op.value? own r.before.table gone r.after.table ∧ key ∈ gone.map Prod.fst

theorem SqliteCacheStore.onlyEvicts (db : Engine) (limits : CacheStoreLimits) :
    OnlyEvicts (step db) entries (fun s => s.Accounted ∧ s.limits = limits) EvictedBy := by
  intro r a K hs hr ha hplace hbefore hgone hwhy
  obtain ⟨op, clock, hevent, hk, -, hafter⟩ := step_of_address hr ha
  obtain ⟨gone, hevicted⟩ := step_evicting db hs.1 clock hk
  rw [← hafter] at hevicted
  refine ⟨op, clock, a.storageKey, gone, hevent, hk, hwhy, hevicted, ?_⟩
  cases hrow : r.before.table.get? K with
  | none => exact absurd (entries_of_none hrow) hbefore
  | some row => exact hevicted.mem_gone hplace hrow (Option.map_eq_none_iff.mp hgone)

/-- The only key that the calls use without a namespace is `k`. -/
def SharedOnly (k : Key) (events : List ServiceEvent) : Prop :=
  ∀ event ∈ events, ∀ a, event.address? = some a → a.space = none → a.key = k

theorem SharedOnly.plain {k : Key} {events : List ServiceEvent} (h : SharedOnly k events)
    (hk : looksNamespaced k = false) : ∀ event ∈ events, event.Plain := by
  intro event hevent a ha hspace
  rw [h event hevent a ha hspace]
  exact hk

/-- A shared key that looks namespaced is that of an entry in the namespace. -/
theorem not_isolated_of_looksNamespaced {k : Key} (hk : validateKey k = .ok ())
    (hlooks : looksNamespaced k = true) :
    ∃ limits events, SharedOnly k events ∧ ¬ Isolated CacheStore.entries CacheStore.EvictedBy
      (trace (CacheApplicationService.step CacheStore.step) (CacheStore.init limits) events) := by
  obtain ⟨n, rest, hn, hrest, heq⟩ := looksNamespaced_iff.mp hlooks
  have hlen := (validateKey_ok.mp hk).2
  have hnamed : Address.of? rest (some n) = some ⟨some n, rest⟩ := by
    refine Address.of?_eq_some.mpr ⟨CacheApplicationService.storageKey_ok.mpr ?_, hn, rfl⟩
    refine ⟨validateKey_ok.mpr ⟨hrest, ?_⟩, some n, hn, rfl, heq ▸ hlen⟩
    exact (length_le_storageKey n rest).trans (heq ▸ hlen)
  have hshared : Address.of? k none = some ⟨none, k⟩ :=
    Address.of?_eq_some.mpr ⟨CacheApplicationService.storageKey_ok.mpr ⟨hk, none, rfl, rfl, hlen⟩, rfl, rfl⟩
  set put : ServiceEvent := .request (.set rest [] 0 (some n)) fun _ => 0 with hput
  set look : ServiceEvent := .request (.get k none) fun _ => 0 with hlook
  have hput_address : put.address? = some ⟨some n, rest⟩ := hnamed
  have hlook_address : look.address? = some ⟨none, k⟩ := hshared
  refine ⟨.small 0, [put, look], ?_, fun h => ?_⟩
  · intro event hevent a ha hspace
    simp only [List.mem_cons, List.not_mem_nil, or_false] at hevent
    rcases hevent with rfl | rfl
    · rw [hput_address, Option.some.injEq] at ha
      rw [← ha] at hspace
      cases hspace
    · rw [hlook_address, Option.some.injEq] at ha
      rw [← ha]
  · -- the value of the namespace lies where the shared key looks for its own
    have hstored : ∃ e, CacheStore.entries (CacheApplicationService.step CacheStore.step
        (CacheStore.init (.small 0)) put).2 k = some e := by
      have hevent : put.storeEvent = .ok ⟨.client (.set k [] none), fun _ => 0⟩ := by
        simp only [hput, ServiceEvent.storeEvent, Request.op, (Address.of?_eq_some.mp hnamed).1, heq]
        rfl
      rw [CacheApplicationService.step_eq, hevent]
      change ∃ e, CacheStore.entries
        (CacheStore.step (CacheStore.init (.small 0)) ⟨.client (.set k [] none), fun _ => 0⟩).2 k = some e
      have houtcome : CacheStore.Outcome (CacheStore.init (.small 0)) (fun _ => 0) (.client (.set k [] none))
          (CacheStore.step (CacheStore.init (.small 0)) ⟨.client (.set k [] none), fun _ => 0⟩).1
          (CacheStore.step (CacheStore.init (.small 0)) ⟨.client (.set k [] none), fun _ => 0⟩).2 :=
        CacheStore.step_outcome (CacheStore.init_inv _).counted ⟨.client (.set k [] none), fun _ => 0⟩
      revert houtcome
      rcases CacheStore.step (CacheStore.init (.small 0)) ⟨.client (.set k [] none), fun _ => 0⟩ with ⟨r, t⟩
      intro houtcome
      cases houtcome with
      | invalid hk' hv =>
        cases hk'
        rw [hk] at hv
        cases hv
      | set _ hw =>
        cases hw with
        | tooLarge h => exact absurd h (show ¬ getsizeof [] > 40 from by decide)
        | stored _ hst => exact ⟨_, hst.entries_self⟩
    obtain ⟨e, he⟩ := hstored
    obtain ⟨-, -, -, -, q, hq, -, hqa⟩ := h.found [_] [] _ ⟨none, k⟩ e rfl hlook_address he
    rw [List.mem_singleton.mp hq] at hqa
    rw [show (record (CacheApplicationService.step CacheStore.step) (CacheStore.init (.small 0)) put).input.address? = _ from hput_address] at hqa
    cases hqa

/-- A shared key meets no key of a namespace, and stays isolated in every run where it is
the only shared key, exactly when it does not look namespaced. Runs with no such key are
isolated over both backends. -/
theorem namespaces_isolated (db : Engine) :
    (∀ k₁, validateKey k₁ = .ok () →
      ((∀ blank ns n k₂ K, validateNamespace blank = .ok none → validateNamespace ns = .ok (some n) →
        CacheApplicationService.storageKey k₂ ns = .ok K →
        CacheApplicationService.storageKey k₁ blank ≠ .ok K) ↔ looksNamespaced k₁ = false) ∧
      ((∀ limits events, SharedOnly k₁ events → Isolated CacheStore.entries CacheStore.EvictedBy
        (trace (CacheApplicationService.step CacheStore.step) (CacheStore.init limits) events)) ↔
          looksNamespaced k₁ = false)) ∧
    (∀ limits events, (∀ event ∈ events, event.Plain) → Isolated CacheStore.entries CacheStore.EvictedBy
      (trace (CacheApplicationService.step CacheStore.step) (CacheStore.init limits) events)) ∧
    ∀ args s₀ c events, SqliteCacheStore.init db args .new = (.ok s₀, c) →
      (∀ event ∈ events, event.Plain) → Isolated SqliteCacheStore.entries SqliteCacheStore.EvictedBy
        (trace (CacheApplicationService.step (SqliteCacheStore.step db)) s₀ events) := by
  refine ⟨fun k₁ hk₁ => ⟨shared_key_apart hk₁, ?_, ?_⟩, ?_, ?_⟩
  · intro h
    rw [← Bool.not_eq_true]
    intro hlooks
    obtain ⟨limits, events, hshared, hnot⟩ := not_isolated_of_looksNamespaced hk₁ hlooks
    exact hnot (h limits events hshared)
  · exact fun hplain limits events hshared =>
      isolated (CacheStore.refines limits) (CacheStore.onlyEvicts limits) events (hshared.plain hplain)
  · exact fun limits events hplain => isolated (CacheStore.refines limits) (CacheStore.onlyEvicts limits) events hplain
  · exact fun args s₀ c events hinit hplain =>
      isolated (SqliteCacheStore.refines db hinit) (SqliteCacheStore.onlyEvicts db s₀.limits) events hplain

/-- Two clients, one of them without a namespace, use the key `shared`. -/
theorem namespaces_isolated_run :
    Isolated CacheStore.entries CacheStore.EvictedBy (trace (CacheApplicationService.step CacheStore.step)
      (CacheStore.init (.small 1))
      [.request (.set "shared" [1] 0 (some "team-a")) fun _ => 0,
        .request (.get "shared" none) fun _ => 1]) := by
  refine (namespaces_isolated ⟨fun _ => false, fun _ => 0⟩).2.1 _ _ ?_
  simp only [List.forall_mem_cons, List.not_mem_nil, false_imp_iff, implies_true, and_true]
  refine ⟨?_, ?_⟩
  · intro a ha hspace
    have haddress : a = ⟨some "team-a", "shared"⟩ := by
      rw [← Option.some.injEq, ← ha]
      decide
    rw [haddress] at hspace
    cases hspace
  · intro a ha _
    have haddress : a = ⟨none, "shared"⟩ := by
      rw [← Option.some.injEq, ← ha]
      decide
    rw [haddress]
    decide

/-- The key `6:team-a:shared` without a namespace is the key `shared` of `team-a`. -/
theorem namespaces_not_isolated :
    CacheApplicationService.storageKey "6:team-a:shared" none =
        CacheApplicationService.storageKey "shared" (some "team-a") ∧
      ¬ Isolated CacheStore.entries CacheStore.EvictedBy (trace (CacheApplicationService.step CacheStore.step)
        (CacheStore.init (.small 1))
        [.request (.set "shared" [1] 0 (some "team-a")) fun _ => 0,
          .request (.get "6:team-a:shared" none) fun _ => 1]) := by
  refine ⟨by decide, fun h => ?_⟩
  obtain ⟨q, hq, hqa, -⟩ := h.returned [_] [] _ ⟨none, "6:team-a:shared"⟩ "6:team-a:shared" none
    (fun _ => 1) [1] rfl rfl (by decide) (by decide)
  rw [List.mem_singleton.mp hq] at hqa
  exact absurd hqa (by decide)

end TinyCache
