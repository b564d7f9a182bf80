import TinyCache.Proofs.StatsMessage
import TinyCache.Spec.Health

/-! The HTTP endpoints: what a scrape reads, and what a request gets back. -/

namespace TinyCache

open Machine

structure Counters.Behind (c d : Counters) : Prop where
  hits : c.hits ≤ d.hits
  misses : c.misses ≤ d.misses
  evictions : c.evictions ≤ d.evictions
  lruEvictions : c.lruEvictions ≤ d.lruEvictions
  expiredRemovals : c.expiredRemovals ≤ d.expiredRemovals
  rejectedOversize : c.rejectedOversize ≤ d.rejectedOversize
  rejectedCapacity : c.rejectedCapacity ≤ d.rejectedCapacity

theorem Counters.Behind.refl (c : Counters) : c.Behind c :=
  ⟨le_rfl, le_rfl, le_rfl, le_rfl, le_rfl, le_rfl, le_rfl⟩

theorem Counters.Behind.trans {b c d : Counters} (h1 : b.Behind c) (h2 : c.Behind d) : b.Behind d :=
  ⟨h1.hits.trans h2.hits, h1.misses.trans h2.misses, h1.evictions.trans h2.evictions,
    h1.lruEvictions.trans h2.lruEvictions, h1.expiredRemovals.trans h2.expiredRemovals,
    h1.rejectedOversize.trans h2.rejectedOversize, h1.rejectedCapacity.trans h2.rejectedCapacity⟩

theorem Counters.behind_add (c : Counters) (hit miss evicted expired oversize : ℕ) :
    c.Behind ⟨c.hits + hit, c.misses + miss, c.evictions + evicted, c.lruEvictions + evicted,
      c.expiredRemovals + expired, c.rejectedOversize + oversize, c.rejectedCapacity⟩ :=
  ⟨Nat.le_add_right _ _, Nat.le_add_right _ _, Nat.le_add_right _ _, Nat.le_add_right _ _,
    Nat.le_add_right _ _, Nat.le_add_right _ _, le_rfl⟩

/-- A backend whose counters go up until a `clear`, and that reports them. -/
structure Reports {σ : Type} (step : σ → Event → Except PyError Reply × σ) (counters : σ → Counters)
    (I : σ → Prop) : Prop where
  keeps : ∀ s event, I s → I (step s event).2
  behind : ∀ s event, I s → event.action ≠ .client .clear → (counters s).Behind (counters (step s event).2)
  stats : ∀ s clock, I s → ∃ snapshot t, step s ⟨.client .stats, clock⟩ = (.ok (.stats snapshot), t) ∧
    snapshot.counters = counters t

theorem Reports.exec_behind {σ : Type} {step : σ → Event → Except PyError Reply × σ} {counters : σ → Counters}
    {I : σ → Prop} (h : Reports step counters I) {s : σ} (hs : I s) {events : List Event}
    (hclear : ∀ event ∈ events, event.action ≠ .client .clear) :
    (counters s).Behind (counters (exec step s events)) := by
  induction events generalizing s with
  | nil => exact .refl _
  | cons event events ih =>
    exact (h.behind s event hs (hclear event List.mem_cons_self)).trans
      (ih (h.keeps s event hs) fun e he => hclear e (List.mem_cons_of_mem _ he))

namespace CacheStore

variable {s t : CacheStore}

theorem WriteOutcome.behind {now : Time} {key : Key} {value : Bytes} {ttl : Option ℤ} {old : Option CacheEntry}
    {st : CacheSetStatus} (h : WriteOutcome s now key value ttl old st t) : s.counters.Behind t.counters := by
  cases h with
  | tooLarge => exact s.counters.behind_add 0 0 0 0 1
  | @stored gone _ _ _ hst =>
    rw [hst.eq]
    exact s.counters.behind_add 0 0 gone.length 0 0

theorem Outcome.behind {clock : ℕ → Time} {action : Action} {reply : Except PyError Reply}
    (h : Outcome s clock action reply t) (hclear : action ≠ .client .clear) : s.counters.Behind t.counters := by
  cases h with
  | invalid | setIfAbsentExists | compareAndSetMissing | compareAndSetMismatch | deleteMissing | deletePresent
  | cleanerKept => exact .refl _
  | getMissing => exact s.counters.behind_add 0 1 0 0 0
  | getExpired => exact s.counters.behind_add 0 1 0 1 0
  | getHit => exact s.counters.behind_add 1 0 0 0 0
  | compareAndSetExpired | cleanerRemoved => exact s.counters.behind_add 0 0 0 1 0
  | set _ hw | setIfAbsentMissing _ _ hw | compareAndSetMatch _ _ _ _ hw => exact hw.behind
  | setIfAbsentExpired _ _ _ hw => exact (s.counters.behind_add 0 0 0 1 0).trans hw.behind
  | stats hp =>
    rw [hp.eq]
    exact s.counters.behind_add 0 0 0 (expiredKeys clock s.store.items).length 0
  | clear => exact absurd rfl hclear

theorem reports : Reports step counters Inv where
  keeps _ event hs := step_inv hs event
  behind _ event hs hclear := (step_outcome hs.counted event).behind hclear
  stats s clock _ := by
    obtain ⟨t, -, hstep⟩ := step_stats s clock
    exact ⟨t.snapshot, t, hstep, rfl⟩

end CacheStore

namespace SqliteCacheStore

variable {s t : SqliteCacheStore}

theorem WriteOutcome.behind {created accessed : Time} {key : Key} {value : Bytes} {ttl : Option ℤ}
    {old : Option Row} {st : CacheSetStatus} (h : WriteOutcome s created accessed key value ttl old st t) :
    s.counters.Behind t.counters := by
  cases h with
  | tooLarge => cases old <;> exact s.counters.behind_add 0 0 0 0 1
  | @stored gone _ _ _ hst =>
    rw [hst.eq]
    exact s.counters.behind_add 0 0 gone.length 0 0

theorem Outcome.behind {clock : ℕ → Time} {action : Action} {reply : Reply} (h : Outcome s clock action reply t)
    (hclear : action ≠ .client .clear) : s.counters.Behind t.counters := by
  cases h with
  | setIfAbsentExists | compareAndSetMissing | compareAndSetMismatch | deleteMissing | deletePresent
  | cleanerKept => exact .refl _
  | getMissing => exact s.counters.behind_add 0 1 0 0 0
  | getExpired => exact s.counters.behind_add 0 1 0 1 0
  | getHit => exact s.counters.behind_add 1 0 0 0 0
  | compareAndSetExpired | cleanerRemoved => exact s.counters.behind_add 0 0 0 1 0
  | @set key _ _ _ _ _ hw =>
    have hc : (s.popped key (s.table.get? key)).counters = s.counters := by
      cases s.table.get? key <;> rfl
    exact hc ▸ hw.behind
  | setIfAbsentMissing _ _ hw | compareAndSetMatch _ _ _ _ hw => exact hw.behind
  | setIfAbsentExpired _ _ _ hw => exact (s.counters.behind_add 0 0 0 1 0).trans hw.behind
  | stats hp =>
    rw [hp.eq]
    exact s.counters.behind_add 0 0 0 (expiredKeys clock 0 s.table.items).length 0
  | clear => exact absurd rfl hclear

theorem reports {db : Engine} (hdb : db.Reliable) : Reports (step db) counters Accounted where
  keeps _ event hs := hs.step db event
  behind s event hs hclear := by
    rcases step_reliable hdb hs event with ⟨op, key, x, -, -, -, hstep⟩ | ⟨reply, t, hstep, h⟩
    · rw [hstep]
      exact .refl _
    · rw [hstep]
      exact h.behind hclear
  stats s clock hs := by
    rcases step_reliable hdb hs ⟨.client .stats, clock⟩ with ⟨op, key, x, haction, hk, -⟩ | ⟨reply, t, hstep, h⟩
    · cases haction
      cases hk
    · cases h
      exact ⟨t.snapshot, t, hstep, rfl⟩

end SqliteCacheStore

namespace Health

variable {floats : Floats} {handler : HealthCheckHandler} {activeRequests : ℕ} {now : Readings}

theorem newline_notMem_numeral (n : ℤ) : Lines.newline ∉ Codec.Decimal.encode n := by
  intro hmem
  rcases Codec.Decimal.mem_encode hmem with h | h <;> exact absurd h (by decide)

theorem newline_notMem_number (x : Json.Number) : Lines.newline ∉ x.text := fun hmem =>
  absurd (x.digits _ hmem) (by decide)

/-- The name and the help text of a family are fixed. -/
def Plain (name help : String) : Prop :=
  ' ' ∉ name.toList ∧ Lines.newline ∉ name.toList ∧ Lines.newline ∉ help.toList

instance (name help : String) : Decidable (Plain name help) := inferInstanceAs (Decidable (_ ∧ _ ∧ _))

theorem counter_wellFormed {name help : String} (h : Plain name help) (value : ℕ) :
    (counter name help value).WellFormed := ⟨h.1, h.2.1, h.2.2, newline_notMem_numeral _⟩

theorem gauge_wellFormed {name help : String} (h : Plain name help) {value : List Char}
    (hvalue : Lines.newline ∉ value) : (gauge name help value).WellFormed := ⟨h.1, h.2.1, h.2.2, hvalue⟩

theorem families_wellFormed (stats : CacheStatsSnapshot) (activeRequests : ℕ) (uptimeSeconds : ℚ) :
    ∀ f ∈ families floats stats activeRequests uptimeSeconds, f.WellFormed := by
  simp only [families, List.forall_mem_cons]
  refine ⟨counter_wellFormed (by decide +kernel) _, counter_wellFormed (by decide +kernel) _,
    counter_wellFormed (by decide +kernel) _, counter_wellFormed (by decide +kernel) _,
    counter_wellFormed (by decide +kernel) _, counter_wellFormed (by decide +kernel) _,
    counter_wellFormed (by decide +kernel) _, ?_⟩
  refine ⟨gauge_wellFormed (by decide +kernel) (newline_notMem_numeral _),
    gauge_wellFormed (by decide +kernel) (newline_notMem_numeral _),
    gauge_wellFormed (by decide +kernel) (newline_notMem_numeral _),
    gauge_wellFormed (by decide +kernel) (newline_notMem_numeral _),
    gauge_wellFormed (by decide +kernel) (newline_notMem_numeral _),
    gauge_wellFormed (by decide +kernel) (newline_notMem_number _),
    gauge_wellFormed (by decide +kernel) (newline_notMem_number _),
    gauge_wellFormed (by decide +kernel) (newline_notMem_numeral _),
    gauge_wellFormed (by decide +kernel) (newline_notMem_number _), ?_⟩
  exact fun f hf => absurd hf List.not_mem_nil

/-- The same family, and if it is a counter not a smaller number. -/
structure GoesUp (f g : Exposition.Family) : Prop where
  name : g.name = f.name
  kind : g.kind = f.kind
  value : f.kind = .counter → ∃ m n : ℕ, Codec.Decimal.decode f.value = some (m : ℤ) ∧
    Codec.Decimal.decode g.value = some (n : ℤ) ∧ m ≤ n

theorem goesUp_counter (name help : String) {m n : ℕ} (h : m ≤ n) :
    GoesUp (counter name help m) (counter name help n) :=
  ⟨rfl, rfl, fun _ => ⟨m, n, Codec.Decimal.decode_encode _, Codec.Decimal.decode_encode _, h⟩⟩

theorem goesUp_gauge (name help : String) (value value' : List Char) :
    GoesUp (gauge name help value) (gauge name help value') :=
  ⟨rfl, rfl, fun h => by cases h⟩

theorem families_goUp {stats stats' : CacheStatsSnapshot} {active active' : ℕ} {up up' : ℚ}
    (h : stats.counters.Behind stats'.counters) :
    List.Forall₂ GoesUp (families floats stats active up) (families floats stats' active' up') := by
  unfold families
  refine .cons (goesUp_counter _ _ h.hits) (.cons (goesUp_counter _ _ h.misses)
    (.cons (goesUp_counter _ _ h.evictions) (.cons (goesUp_counter _ _ h.lruEvictions)
    (.cons (goesUp_counter _ _ h.expiredRemovals) (.cons (goesUp_counter _ _ h.rejectedOversize)
    (.cons (goesUp_counter _ _ h.rejectedCapacity) ?_))))))
  refine .cons (goesUp_gauge _ _ _ _) (.cons (goesUp_gauge _ _ _ _) (.cons (goesUp_gauge _ _ _ _)
    (.cons (goesUp_gauge _ _ _ _) (.cons (goesUp_gauge _ _ _ _) (.cons (goesUp_gauge _ _ _ _)
    (.cons (goesUp_gauge _ _ _ _) (.cons (goesUp_gauge _ _ _ _) (.cons (goesUp_gauge _ _ _ _) .nil))))))))

theorem answering_of_ok {σ : Type} {app : CacheApp σ} {s t : σ} {snapshot : CacheStatsSnapshot}
    (h : app.stats s = (.ok snapshot, t)) (respond : CacheStatsSnapshot → HttpResponse) (failed : HttpResponse) :
    answering app respond failed s = (respond snapshot, t) := by
  rw [answering, Act.handle, Act.bind_of_ok h]
  rfl

section

variable {σ : Type} {store : σ → Event → Except PyError Reply × σ}

theorem app_stats {clock : ℕ → Time} {s t : σ} {snapshot : CacheStatsSnapshot}
    (h : store s ⟨.client .stats, clock⟩ = (.ok (.stats snapshot), t)) :
    (CacheApplicationService.app store clock).stats s = (.ok snapshot, t) := by
  simp only [CacheApplicationService.app, CacheApplicationService.stats, CacheApplicationService.port, Act.mapError,
    Act.bind_apply, h]
  rfl

/-- A scrape of a store. -/
def scrape (store : σ → Event → Except PyError Reply × σ) (floats : Floats) (handler : HealthCheckHandler)
    (clock : ℕ → Time) (activeRequests : ℕ) (now : Readings) : σ → HttpResponse × σ :=
  HealthCheckHandler.metrics floats (CacheApplicationService.app store clock) handler activeRequests now

/-- The first scrape reads back, and after some events the second reads back as the same families,
no counter of which has gone down. -/
def CountersKept (store : σ → Event → Except PyError Reply × σ) (s : σ) (between : List Event) : Prop :=
  ∀ (floats : Floats) (handler : HealthCheckHandler) (clock clock' : ℕ → Time) (active active' : ℕ)
    (now now' : Readings),
    let first := scrape store floats handler clock active now s
    let second := scrape store floats handler clock' active' now' (exec store first.2 between)
    first.1.status = 200 ∧ second.1.status = 200 ∧ ∃ fs gs, Exposition.parse first.1.text = some fs ∧
      Exposition.parse second.1.text = some gs ∧ List.Forall₂ GoesUp fs gs

theorem countersKept {counters : σ → Counters} {I : σ → Prop} (h : Reports store counters I) {s : σ} (hs : I s)
    {between : List Event} (hclear : ∀ event ∈ between, event.action ≠ .client .clear) :
    CountersKept store s between := by
  intro floats handler clock clock' active active' now now' first second
  obtain ⟨snapshot, t, hstep, hcounters⟩ := h.stats s clock hs
  have hfirst : first = (⟨200, PROMETHEUS_CONTENT_TYPE,
      Exposition.render (families floats snapshot active (handler.uptime now)), []⟩, t) :=
    answering_of_ok (app_stats hstep) _ _
  have ht : I t := by
    have hkept := h.keeps s ⟨.client .stats, clock⟩ hs
    rwa [hstep] at hkept
  have hlater : I (exec store t between) := exec_always h.keeps ht between
  obtain ⟨snapshot', u, hstep', hcounters'⟩ := h.stats (exec store t between) clock' hlater
  have hsecond : second = (⟨200, PROMETHEUS_CONTENT_TYPE,
      Exposition.render (families floats snapshot' active' (handler.uptime now')), []⟩, u) := by
    change scrape store floats handler clock' active' now' (exec store first.2 between) = _
    rw [hfirst]
    exact answering_of_ok (app_stats hstep') _ _
  have hup : snapshot.counters.Behind snapshot'.counters := by
    have hbehind := h.behind _ ⟨.client .stats, clock'⟩ hlater (by simp)
    rw [hstep'] at hbehind
    rw [hcounters, hcounters']
    exact (h.exec_behind ht hclear).trans hbehind
  rw [hfirst, hsecond]
  exact ⟨rfl, rfl, _, _, Exposition.parse_render (families_wellFormed snapshot active (handler.uptime now)),
    Exposition.parse_render (families_wellFormed snapshot' active' (handler.uptime now')), families_goUp hup⟩

end

/-- With either backend, and whatever is done between two scrapes short of a `clear`. -/
theorem counters_never_go_down (before between : List Event)
    (hclear : ∀ event ∈ between, event.action ≠ .client .clear) :
    (∀ limits : CacheStoreLimits,
      CountersKept CacheStore.step (exec CacheStore.step (.init limits) before) between) ∧
    ∀ (db : Engine) (s₀ : SqliteCacheStore), db.Reliable → World.Opens db s₀ →
      CountersKept (SqliteCacheStore.step db) (exec (SqliteCacheStore.step db) s₀ before) between := by
  refine ⟨fun limits => ?_, fun db s₀ hdb hopens => ?_⟩
  · exact countersKept CacheStore.reports (CacheStore.exec_inv limits before).1 hclear
  · exact countersKept (SqliteCacheStore.reports hdb)
      (exec_always (SqliteCacheStore.reports hdb).keeps hopens.accounted before) hclear

/-- A missed `get` between the scrapes, once in memory and once in SQLite. -/
theorem counters_never_go_down_run :
    CountersKept CacheStore.step (CacheStore.init (.small 0)) [(Op.get "k").atTime 1] ∧
    ∃ s₀, World.Opens ⟨fun _ => false, fun _ => 0⟩ s₀ ∧
      CountersKept (SqliteCacheStore.step ⟨fun _ => false, fun _ => 0⟩) s₀ [(Op.get "k").atTime 1] := by
  have hclear : ∀ event ∈ [(Op.get "k").atTime 1], event.action ≠ .client .clear := by
    intro event h
    rw [List.mem_singleton.mp h]
    exact fun h => by cases h
  have hopens : World.Opens ⟨fun _ => false, fun _ => 0⟩ _ :=
    ⟨⟨fun _ => false, fun _ => 0⟩, [], ⟨some 1, some 1, some 10, some 40⟩, _, rfl⟩
  have hkept := counters_never_go_down [] _ hclear
  exact ⟨hkept.1 (.small 0), _, hopens, hkept.2 _ _ (fun _ => rfl) hopens⟩

section

variable {σ : Type} (uuid4 : ℕ → Uuid) (app : CacheApp σ) (request : HttpRequest)

variable (floats : Floats) (handler : HealthCheckHandler) (activeRequests : ℕ) (now : Readings)

theorem Answers.sent {id : String} {endpoint : Endpoint} {s : σ} {response : HttpResponse}
    (h : Answers floats app handler activeRequests now id .get endpoint s response) (method : Method)
    (hmethod : ∀ name, method ≠ .other name) :
    Answers floats app handler activeRequests now id method endpoint s (response.sent method) := by
  cases method with
  | get => exact h
  | head => exact ⟨h.id, h.status, h.unavailable, nofun, nofun, fun _ => rfl⟩
  | other name => exact absurd rfl (hmethod name)

variable {waiting : Waiting} {scope : RpcScope σ}

end

end Health

end TinyCache
