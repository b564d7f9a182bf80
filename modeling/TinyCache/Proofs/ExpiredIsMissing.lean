import TinyCache.Proofs.MemoryHistory
import TinyCache.Proofs.SqliteRefines
import TinyCache.Spec.Cleaner

/-! Whether an expired entry has been purged or is still there shows in the answer of
`delete` only. Each call answers from the cell of its key, and a purge does to a cell
what every other call does to it first. -/

namespace TinyCache

open Machine

/-- A cell answers alike with its expired entry and without, except to `delete`. -/
theorem Op.onCell_purged {maxValueBytes : ℤ} {now : Time} {op : Op} {key : Key}
    (hk : op.key? = some key) (old : Option CacheEntry) :
    (op.onCell maxValueBytes (fun _ => now) (old.filter fun e => !e.isExpired now)).1 =
        (op.onCell maxValueBytes (fun _ => now) old).1 ↔
      ¬ (op = .delete key ∧ ∃ e, old = some e ∧ e.isExpired now = true) := by
  rcases old with _ | e
  · simp
  cases hx : e.isExpired now with
  | false => simp [Option.filter, hx]
  | true =>
    cases op with
    | stats | clear => cases hk
    | get | set | setIfAbsent | compareAndSet | delete =>
      cases hk
      simp [Op.onCell, Option.filter, hx]

section

variable {σ : Type} {step : σ → Event → Except PyError Reply × σ} {entries : σ → Entries}
  {I : σ → Prop} {now : Time}

theorem exec_purges (hinv : ∀ s event, I s → I (step s event).2)
    (hclean : ∀ s key, I s →
      entries (step s ⟨.cleaner key, fun _ => now⟩).2 = (entries s).purge now key)
    {s : σ} (hs : I s) (keys : List Key) (x : Key) :
    entries (exec step s (purges now keys)) x =
      if x ∈ keys then (entries s x).filter fun e => !e.isExpired now else entries s x := by
  induction keys generalizing s with
  | nil => rfl
  | cons key keys ih =>
    have htail := ih (hinv s ⟨.cleaner key, fun _ => now⟩ hs)
    rw [hclean s key hs] at htail
    refine htail.trans ?_
    by_cases hx : x = key
    · rw [hx, Entries.purge_self, if_pos List.mem_cons_self, Option.filter_filter]
      simp
    · rw [Entries.purge_of_ne _ _ hx]
      simp [hx]

/-- In a machine that answers from cells, a purge changes the answer to a `delete` of an
expired entry, and to nothing else. -/
theorem answer_purged_iff (maxValueBytes : ℤ) (hinv : ∀ s event, I s → I (step s event).2)
    (hclean : ∀ s key, I s →
      entries (step s ⟨.cleaner key, fun _ => now⟩).2 = (entries s).purge now key)
    {op : Op} {key : Key} (hk : op.key? = some key)
    (hanswer : ∀ s, I s → (step s (op.atTime now)).1 =
      (validateKey key).map fun _ => (op.onCell maxValueBytes (fun _ => now) (entries s key)).1)
    {s : σ} (hs : I s) (keys : List Key) :
    (step (exec step s (purges now keys)) (op.atTime now)).1 = (step s (op.atTime now)).1 ↔
      ¬ op.DeletesExpired (entries s) now keys := by
  have hpurged : I (exec step s (purges now keys)) :=
    exec_always hinv hs _
  rw [hanswer _ hs, hanswer _ hpurged, exec_purges hinv hclean hs]
  have hdelete : ∀ x, op = .delete x → x = key := by
    rintro x rfl
    exact Option.some.inj hk
  rcases hv : validateKey key with x | _
  · refine iff_of_true rfl ?_
    rintro ⟨x, -, hop, hx, -⟩
    rw [hdelete x hop, hv] at hx
    cases hx
  by_cases hmem : key ∈ keys
  · rw [if_pos hmem]
    change (Except.ok _ : Except PyError Reply) = Except.ok _ ↔ _
    rw [Except.ok.injEq, Op.onCell_purged hk]
    refine not_congr ⟨?_, ?_⟩
    · rintro ⟨hop, he⟩
      exact ⟨key, hmem, hop, hv, he⟩
    · rintro ⟨x, -, hop, -, he⟩
      obtain rfl := hdelete x hop
      exact ⟨hop, he⟩
  · rw [if_neg hmem]
    refine iff_of_true rfl ?_
    rintro ⟨x, hx, hop, -⟩
    rw [hdelete x hop] at hx
    exact hmem hx

end

theorem SqliteCacheStore.cleaner_purges {db : Engine} (hdb : db.Reliable) {s : SqliteCacheStore}
    (hs : s.Accounted) (clock : ℕ → Time) (key : Key) :
    (step db s ⟨.cleaner key, clock⟩).2.entries = Entries.purge s.entries (clock 0) key := by
  rcases step_reliable hdb hs ⟨.cleaner key, clock⟩ with ⟨op, k, x, hop, -⟩ | ⟨reply, t, hstep, h⟩
  · cases hop
  · rw [hstep]
    have hallowed := h.allowed
    generalize t.entries = m at hallowed
    cases hallowed with
    | cleaner => rfl

theorem CacheStore.cleaner_purges {s : CacheStore} (hs : s.Inv) (clock : ℕ → Time) (key : Key) :
    (step s ⟨.cleaner key, clock⟩).2.entries = Entries.purge s.entries (clock 0) key := by
  have hout := step_outcome hs.counted ⟨.cleaner key, clock⟩
  have hallowed := hout.allowed
  have hok := hout.not_fails
  generalize (step s ⟨.cleaner key, clock⟩).1 = reply at hallowed hok
  generalize (step s ⟨.cleaner key, clock⟩).2.entries = m at hallowed
  cases hallowed with
  | cleaner => rfl
  | failed hv => exact absurd ⟨hv, _, rfl⟩ hok

/-- An operation answers as if expired entries had been purged, unless it is the `delete`
of one of them. -/
theorem expired_as_missing (now : Time) (keys : List Key) (op : Op) (hk : op.key? ≠ none) :
    (∀ (limits : CacheStoreLimits) (events : List Event),
      let s := exec CacheStore.step (CacheStore.init limits) events
      (CacheStore.step (exec CacheStore.step s (purges now keys)) (op.atTime now)).1 =
          (CacheStore.step s (op.atTime now)).1 ↔
        ¬ op.DeletesExpired s.entries now keys) ∧
    ∀ (db₀ db : Engine) (history : List SessionEvent) (s : SqliteCacheStore),
      exec (World.step db₀) World.new history = .opened s → db.Reliable →
      ((SqliteCacheStore.step db (exec (SqliteCacheStore.step db) s (purges now keys)) (op.atTime now)).1 =
          (SqliteCacheStore.step db s (op.atTime now)).1 ↔
        ¬ op.DeletesExpired s.entries now keys) := by
  obtain ⟨key, hk⟩ := Option.ne_none_iff_exists'.mp hk
  refine ⟨?_, ?_⟩
  · intro limits events s
    obtain ⟨hs, hlimits⟩ := CacheStore.exec_inv limits events
    refine answer_purged_iff (I := fun t : CacheStore => t.Inv ∧ t.limits = limits)
      limits.maxValueBytes ?_ ?_ hk ?_ ⟨hs, hlimits⟩ keys
    · rintro t event ⟨ht, hlimits⟩
      exact ⟨CacheStore.step_inv ht event, (CacheStore.step_outcome ht.counted event).limits.trans hlimits⟩
    · exact fun t key h => CacheStore.cleaner_purges h.1 _ key
    · rintro t ⟨ht, hlimits⟩
      rw [← hlimits]
      exact CacheStore.step_answer ht hk _
  · intro db₀ db history s hopened hdb
    have hacc := World.exec_sound db₀ history
    rw [hopened] at hacc
    refine answer_purged_iff (I := fun t : SqliteCacheStore => t.Accounted ∧ t.limits = s.limits)
      s.limits.maxValueBytes ?_ ?_ hk ?_ ⟨hacc, rfl⟩ keys
    · exact fun t event h => ⟨h.1.step db event, (SqliteCacheStore.step_limits db h.1 event).trans h.2⟩
    · exact fun t key h => SqliteCacheStore.cleaner_purges hdb h.1 _ key
    · rintro t ⟨ht, hlimits⟩
      rw [← hlimits]
      exact SqliteCacheStore.step_answer hdb ht hk _

/-- The expired entry of another key makes no difference to a `get`. -/
theorem expired_as_missing_run :
    let events := [(Op.set "a" [1] (some 1)).atTime 0, (Op.set "b" [2] none).atTime 1]
    let s := exec CacheStore.step (.init (.small 1)) events
    (CacheStore.step (exec CacheStore.step s (purges 2 ["a"])) ((Op.get "b").atTime 2)).1 =
        (CacheStore.step s ((Op.get "b").atTime 2)).1 ∧
    ∃ t, exec (World.step ⟨fun _ => false, fun _ => 0⟩) .new
        (.reopen ⟨some 2, some 1, some 10, some 40⟩ :: events.map .call) = .opened t ∧
      (SqliteCacheStore.step ⟨fun _ => false, fun _ => 0⟩
          (exec (SqliteCacheStore.step ⟨fun _ => false, fun _ => 0⟩) t (purges 2 ["a"]))
          ((Op.get "b").atTime 2)).1 =
        (SqliteCacheStore.step ⟨fun _ => false, fun _ => 0⟩ t ((Op.get "b").atTime 2)).1 := by
  intro events s
  have hop : ∀ m : Entries, ¬ (Op.get "b").DeletesExpired m 2 ["a"] := by
    rintro m ⟨key, -, hget, -⟩
    cases hget
  have hopened : exec (World.step ⟨fun _ => false, fun _ => 0⟩) .new
      (.reopen ⟨some 2, some 1, some 10, some 40⟩ :: events.map .call) = .opened _ := rfl
  have hmissing := expired_as_missing 2 ["a"] (.get "b") (by simp [Op.key?])
  refine ⟨(hmissing.1 (.small 1) events).mpr (hop _), _, hopened, ?_⟩
  exact (hmissing.2 _ ⟨fun _ => false, fun _ => 0⟩ _ _ hopened (fun _ => rfl)).mpr (hop _)

/-- The `delete` of an expired entry finds it, unless the cleaner came first. -/
theorem delete_finds_expired :
    ¬ ∀ (limits : CacheStoreLimits) (events : List Event) (now : Time) (keys : List Key) (op : Op),
      op.key? ≠ none →
      let s := exec CacheStore.step (CacheStore.init limits) events
      (CacheStore.step (exec CacheStore.step s (purges now keys)) (op.atTime now)).1 =
        (CacheStore.step s (op.atTime now)).1 := by
  intro h
  have hrun := h (.small 0) [(Op.set "a" [1] (some 1)).atTime 0] 1 ["a"] (.delete "a") (by simp [Op.key?])
  revert hrun
  decide +kernel

end TinyCache
