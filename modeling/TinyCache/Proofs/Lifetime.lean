import TinyCache.Proofs.History
import TinyCache.Proofs.Passes
import TinyCache.Proofs.SqliteLimits
import TinyCache.Spec.Lifetime

/-! Stopping a store: the thread of the cleaner ends, and a closed file stays as it is. -/

namespace TinyCache

open Machine

/-- The turns that the thread still takes once the event is set, with snapshots of at most `most` items. -/
def CleanerThread.owes (most : ℕ) : CleanerThread → ℕ
  | .ended => 0
  | .waiting => 1
  | .working .waiting => 2 * most + 4
  | .working pass => pass.left + 1

namespace Lifetime

variable {σ : Type} {backend : Backend σ} {Inv : σ → Prop} {most : ℕ} {s : Lifetime σ}

/-- What the threads keep of a store of at most `most` items. -/
structure Keeps (backend : Backend σ) (Inv : σ → Prop) (most : ℕ) : Prop where
  client : ∀ s clock op, Inv s → Inv (backend.call clock op s).2
  snapshot : ∀ s, Inv s → Inv (backend.cleaner.snapshotItems s).2 ∧
    ∀ items, (backend.cleaner.snapshotItems s).1 = .ok items → items.length ≤ most
  remove : ∀ s clock key, Inv s → Inv (backend.cleaner.removeIfExpired clock key s).2
  close : ∀ s, Inv s → Inv (backend.close s)

theorem advance_left (cleaner : ExpiredEntryCleaner σ) (clock : ℕ → Time) (shared : Shared σ)
    (h : shared.pass ≠ .waiting) : (cleaner.advance clock shared).pass.left < shared.pass.left := by
  obtain ⟨store, pass⟩ := shared
  unfold ExpiredEntryCleaner.advance
  cases pass with
  | waiting => exact absurd rfl h
  | checking items keys =>
    cases items with
    | nil => simp [CleanerPass.left]
    | cons p items =>
      dsimp only
      split_ifs
      · simp [CleanerPass.left]
        omega
      · simp [CleanerPass.left]
  | removing keys =>
    cases keys with
    | nil => simp [CleanerPass.left]
    | cons key keys =>
      dsimp only
      split <;> simp [CleanerPass.left]

theorem owes_of_left {pass : CleanerPass} {n : ℕ} (h : pass.left < n) :
    (if pass = .waiting then CleanerThread.waiting else .working pass).owes most ≤ n := by
  split_ifs with hp
  · change 1 ≤ n
    omega
  · cases pass with
    | waiting => exact absurd rfl hp
    | checking | removing => exact h

/-- A pass that begins has no more than its snapshot before it. -/
theorem advance_snapshot (h : Keeps backend Inv most) {store : σ} (hs : Inv store) (clock : ℕ → Time) :
    (backend.cleaner.advance clock ⟨store, .waiting⟩).pass.left < 2 * most + 3 := by
  unfold ExpiredEntryCleaner.advance
  obtain ⟨-, hitems⟩ := h.snapshot store hs
  rcases hrun : backend.cleaner.snapshotItems store with ⟨x | items, t⟩
  · exact Nat.succ_pos _
  · have hle := hitems items (by rw [hrun])
    simp only [CleanerPass.left, List.length_nil]
    omega

/-- Each turn of its own takes the thread on, as long as no pass begins. -/
theorem advance_owes (h : Keeps backend Inv most) (hs : Inv s.store) (clock : ℕ → Time)
    (hwaiting : s.thread = .waiting → s.stopEvent = true) (hended : s.thread ≠ .ended) :
    (s.advance backend clock).thread.owes most < s.thread.owes most := by
  obtain ⟨store, thread, stopEvent, stop⟩ := s
  cases thread with
  | ended => exact absurd rfl hended
  | waiting =>
    obtain rfl : stopEvent = true := hwaiting rfl
    exact Nat.zero_lt_one
  | working pass =>
    by_cases hpass : pass = .waiting
    · subst hpass
      exact Nat.lt_succ_of_le (owes_of_left (advance_snapshot h hs clock))
    · have hleft := advance_left backend.cleaner clock ⟨store, pass⟩ hpass
      have howes : (CleanerThread.working pass).owes most = pass.left + 1 := by
        cases pass with
        | waiting => exact absurd rfl hpass
        | checking | removing => rfl
      rw [howes]
      exact Nat.lt_succ_of_le (owes_of_left hleft)

/-- The store is as the threads keep it, `stop` has set the event before all else, and the thread
never has more ahead of it than a whole pass. -/
structure Running (Inv : σ → Prop) (most : ℕ) (s : Lifetime σ) : Prop where
  store : Inv s.store
  told : s.stop ≠ .notCalled → s.stopEvent = true
  bounded : s.thread.owes most ≤ 2 * most + 4

theorem Running.start {store : σ} (h : Inv store) (startCleaner : Bool) :
    Running Inv most (.start store startCleaner) := by
  refine ⟨h, fun hcalled => absurd rfl hcalled, ?_⟩
  cases startCleaner with
  | true =>
    change 1 ≤ 2 * most + 4
    omega
  | false => exact Nat.zero_le _

theorem advance_stopEvent (backend : Backend σ) (clock : ℕ → Time) (s : Lifetime σ) :
    (s.advance backend clock).stopEvent = s.stopEvent ∧ (s.advance backend clock).stop = s.stop := by
  unfold advance
  split <;> exact ⟨rfl, rfl⟩

theorem advance_ended (h : s.thread = .ended) (clock : ℕ → Time) : s.advance backend clock = s := by
  rw [advance, h]

theorem advance_store (h : Keeps backend Inv most) (hs : Inv s.store) (clock : ℕ → Time) :
    Inv (s.advance backend clock).store := by
  obtain ⟨store, thread, stopEvent, stop⟩ := s
  cases thread with
  | waiting | ended => exact hs
  | working pass =>
    exact ExpiredEntryCleaner.advance_store (s := ⟨store, pass⟩) hs (h.snapshot store hs).1
      fun key => h.remove store clock key hs

/-- What a step of `stop` does: it sets the event if it had not, and closes the store when it returns. -/
theorem advanceStop_cases (backend : Backend σ) (timedOut : Bool) (s : Lifetime σ) :
    (s.advanceStop backend timedOut).thread = s.thread ∧
    (s.stop = .returned ∧ s.advanceStop backend timedOut = s ∨
      (s.advanceStop backend timedOut).stop = .joining ∧
        (s.advanceStop backend timedOut).stopEvent = (s.stopEvent || decide (s.stop = .notCalled)) ∧
        (s.advanceStop backend timedOut).store = s.store ∨
      (s.advanceStop backend timedOut).stop = .returned ∧
        (s.advanceStop backend timedOut).stopEvent = (s.stopEvent || decide (s.stop = .notCalled)) ∧
        (s.advanceStop backend timedOut).store = backend.close s.store) := by
  obtain ⟨store, thread, stopEvent, stop⟩ := s
  unfold advanceStop finish
  cases stop with
  | notCalled => dsimp only; split_ifs <;> simp
  | joining => dsimp only; split_ifs <;> simp
  | returned => exact ⟨rfl, Or.inl ⟨rfl, rfl⟩⟩

theorem Running.step (h : Keeps backend Inv most) (hs : Running Inv most s) (turn : LifeTurn) :
    Running Inv most (s.step backend turn).2 := by
  cases turn with
  | client op clock => exact ⟨h.client s.store clock op hs.store, hs.told, hs.bounded⟩
  | cleaner clock =>
    obtain ⟨hevent, hstop⟩ := advance_stopEvent backend clock s
    refine ⟨advance_store h hs.store clock, ?_, ?_⟩
    · change (s.advance backend clock).stop ≠ _ → (s.advance backend clock).stopEvent = true
      rw [hevent, hstop]
      exact hs.told
    · by_cases hended : s.thread = .ended
      · rw [show (s.step backend (.cleaner clock)).2 = s from advance_ended hended clock]
        exact hs.bounded
      · by_cases hwaiting : s.thread = .waiting → s.stopEvent = true
        · exact (advance_owes h hs.store clock hwaiting hended).le.trans hs.bounded
        · rw [Classical.not_imp, Bool.not_eq_true] at hwaiting
          change (s.advance backend clock).thread.owes most ≤ _
          rw [advance, hwaiting.1, hwaiting.2]
          exact le_rfl
  | stop timedOut =>
    obtain ⟨hthread, hcases⟩ := advanceStop_cases backend timedOut s
    have hbounded : (s.advanceStop backend timedOut).thread.owes most ≤ 2 * most + 4 := hthread ▸ hs.bounded
    have htold : (s.stopEvent || decide (s.stop = .notCalled)) = true := by
      by_cases hcalled : s.stop = .notCalled
      · simp [hcalled]
      · simp [hs.told hcalled]
    rcases hcases with ⟨-, hself⟩ | ⟨-, hevent, hstore⟩ | ⟨-, hevent, hstore⟩
    · rw [show (s.step backend (.stop timedOut)).2 = s from hself]
      exact hs
    · exact ⟨hstore ▸ hs.store, fun _ => hevent.trans htold, hbounded⟩
    · exact ⟨hstore ▸ h.close _ hs.store, fun _ => hevent.trans htold, hbounded⟩

theorem step_stopEvent (hs : s.stopEvent = true) (turn : LifeTurn) :
    (s.step backend turn).2.stopEvent = true := by
  cases turn with
  | client op clock => exact hs
  | cleaner clock => exact (advance_stopEvent backend clock s).1.trans hs
  | stop timedOut =>
    rcases (advanceStop_cases backend timedOut s).2 with ⟨-, hself⟩ | ⟨-, hevent, -⟩ | ⟨-, hevent, -⟩
    · exact (congrArg Lifetime.stopEvent hself).trans hs
    · exact hevent.trans (by rw [hs, Bool.true_or])
    · exact hevent.trans (by rw [hs, Bool.true_or])

theorem step_thread (s : Lifetime σ) {turn : LifeTurn} (h : turn.isCleaner = false) :
    (s.step backend turn).2.thread = s.thread := by
  cases turn with
  | client op clock => rfl
  | cleaner clock => cases h
  | stop timedOut => exact (advanceStop_cases backend timedOut s).1

/-- Once the event is set the thread has ended when it has had the turns that it owes. -/
theorem exec_ends (h : Keeps backend Inv most) (hs : Running Inv most s) (hevent : s.stopEvent = true)
    (later : List LifeTurn) (howes : s.thread.owes most ≤ (later.filter LifeTurn.isCleaner).length) :
    (exec (step backend) s later).thread = .ended := by
  induction later generalizing s with
  | nil =>
    have hzero : s.thread.owes most = 0 := Nat.le_zero.mp howes
    obtain ⟨store, thread, stopEvent, stop⟩ := s
    cases thread with
    | ended => rfl
    | waiting => cases hzero
    | working pass => cases pass <;> cases hzero
  | cons turn later ih =>
    refine ih (hs.step h turn) (step_stopEvent hevent turn) ?_
    cases hturn : turn.isCleaner with
    | false =>
      rw [step_thread s hturn]
      rwa [List.filter_cons_of_neg (by simp [hturn])] at howes
    | true =>
      rw [List.filter_cons_of_pos hturn, List.length_cons] at howes
      obtain ⟨clock, rfl⟩ : ∃ clock, turn = .cleaner clock := by
        cases turn with
        | cleaner clock => exact ⟨clock, rfl⟩
        | client | stop => cases hturn
      by_cases hended : s.thread = .ended
      · rw [show (s.step backend (.cleaner clock)).2 = s from advance_ended hended clock, hended]
        exact Nat.zero_le _
      · exact Nat.le_of_lt_succ ((advance_owes h hs.store clock (fun _ => hevent) hended).trans_le howes)

theorem Running.exec (h : Keeps backend Inv most) (hs : Running Inv most s) (turns : List LifeTurn) :
    Running Inv most (Machine.exec (Lifetime.step backend) s turns) :=
  exec_always (fun _ turn hs => hs.step h turn) hs turns

theorem Running.stops (h : Keeps backend Inv most) (hs : Running Inv most s) : s.Stops backend most := by
  refine ⟨fun hevent later hlater => exec_ends h hs hevent later (hs.bounded.trans hlater), hs.told, ?_⟩
  intro hjoining timedOut
  change (s.advanceStop backend timedOut).stop = .returned ↔ _
  unfold advanceStop
  rw [hjoining]
  dsimp only
  split_ifs with hwaits
  · exact ⟨fun _ => hwaits, fun _ => rfl⟩
  · rw [hjoining]
    exact ⟨fun h => absurd h (by decide), fun h => absurd h hwaits⟩

end Lifetime

theorem CacheStore.keeps (limits : CacheStoreLimits) :
    Lifetime.Keeps CacheStore.backend (fun s => s.Inv ∧ s.limits = limits) limits.maxItems.toNat where
  client s clock op hs := ⟨step_inv hs.1 ⟨.client op, clock⟩,
    (step_outcome hs.1.counted ⟨.client op, clock⟩).limits.trans hs.2⟩
  snapshot s hs := by
    refine ⟨hs, ?_⟩
    rintro items ⟨⟩
    have hitems := hs.1.items_le
    rw [hs.2] at hitems
    omega
  remove s clock key hs := by
    change CacheStore.Inv (removeIfExpired clock key s).2 ∧ (removeIfExpired clock key s).2.limits = limits
    rw [← step_cleaner]
    exact ⟨step_inv hs.1 ⟨.cleaner key, clock⟩,
      (step_outcome hs.1.counted ⟨.cleaner key, clock⟩).limits.trans hs.2⟩
  close s hs := hs

namespace SqliteCacheStore

variable {db : Engine} {s : SqliteCacheStore}

/-- No step leaves more rows than there were, or than the limit allows. -/
theorem step_rows (db : Engine) (hs : s.Accounted) (event : Event) :
    (step db s event).2.table.length ≤ max s.table.length s.limits.maxItems.toNat := by
  have hallowed := step_allowed db hs event
  cases haccepted : accepted? event (step db s event).1 with
  | none =>
    refine (OrderedDict.length_le_of_get? fun key hkey => ?_).trans (Nat.le_max_left _ _)
    have hentry : (step db s event).2.entries key ≠ none := fun h => hkey (Option.map_eq_none_iff.mp h)
    have hbefore : s.entries key ≠ none := by
      cases hallowed.keyStep key with
      | wrote hw =>
        rw [haccepted] at hw
        cases hw
      | kept _ h => exact h ▸ hentry
      | lost _ _ h => exact absurd h hentry
    exact fun h => hbefore (entries_of_none h)
  | some w =>
    rcases hstep : step db s event with ⟨x | reply, t⟩
    · rw [hstep] at haccepted
      exact absurd haccepted (by simp [accepted?])
    · rw [hstep] at haccepted
      have hout := step_ok hs hstep
      rcases (hout.bounded haccepted).items with h | ⟨-, h⟩
      · exact le_max_of_le_right (Int.le_toNat (by omega) |>.mpr h)
      · exact le_max_of_le_left h

/-- What a call on a closed connection raises, having changed nothing. -/
def Refuses {α : Type} (key? : Option Key) (m : Act PyError SqliteCacheStore α) : Prop :=
  ∀ s, ∃ x n, m s = (.error x, s.ticked n) ∧
    (x = .sqliteError ∨ ∃ key, key? = some key ∧ validateKey key = .error x)

theorem sql_refuses {α : Type} (f : ℕ → Table → α × Table) :
    Refuses none (sql (Connection.execute .closed f)) :=
  fun _ => ⟨_, _, rfl, Or.inl rfl⟩

theorem Refuses.bind {α β : Type} {key? : Option Key} {m : Act PyError SqliteCacheStore α} (h : Refuses key? m)
    (f : α → Act PyError SqliteCacheStore β) : Refuses key? (m >>= f) := by
  intro s
  obtain ⟨x, n, hrun, hx⟩ := h s
  exact ⟨x, n, Act.bind_of_error hrun, hx⟩

theorem Refuses.check {α : Type} {key : Key} {m : Act PyError SqliteCacheStore α} (h : Refuses none m) :
    Refuses (some key) (do .check (validateKey key); m) := by
  intro s
  rcases hv : validateKey key with x | _
  · exact ⟨x, s.connection.statements, rfl, Or.inr ⟨key, rfl, hv⟩⟩
  · obtain ⟨x, n, hrun, hx⟩ := h s
    refine ⟨x, n, hrun, hx.imp_right ?_⟩
    rintro ⟨_, hnone, -⟩
    cases hnone

theorem call_refuses (clock : ℕ → Time) (op : Op) : Refuses op.key? (call .closed clock op) := by
  cases op with
  | get | set | setIfAbsent | compareAndSet | delete =>
    exact Refuses.bind (Refuses.check ((sql_refuses _).bind _)) _
  | stats => exact (Refuses.bind ((sql_refuses _).bind _) _).bind _
  | clear => exact (Refuses.bind (sql_refuses _) _).bind _

theorem removeIfExpired_refuses (clock : ℕ → Time) (key : Key) :
    Refuses none (removeIfExpired .closed clock key) := (sql_refuses _).bind _

end SqliteCacheStore

namespace SqliteSession

variable {db : Engine} {s : Lifetime SqliteSession}

/-- An open store whose rows are within `most`. -/
def Within (limits : CacheStoreLimits) (most : ℕ) (self : SqliteSession) : Prop :=
  self.store.Accounted ∧ self.store.limits = limits ∧ self.store.table.length ≤ most

theorem Within.step {limits : CacheStoreLimits} {most : ℕ} {self : SqliteSession} (h : self.Within limits most)
    (hmost : limits.maxItems.toNat ≤ most) (db : Engine) (event : Event) (closed : Bool) :
    Within limits most ⟨(SqliteCacheStore.step db self.store event).2, closed⟩ := by
  obtain ⟨hacc, hlimits, hrows⟩ := h
  refine ⟨hacc.step db event, (SqliteCacheStore.step_limits db hacc event).trans hlimits, ?_⟩
  refine (SqliteCacheStore.step_rows db hacc event).trans (max_le hrows ?_)
  rwa [hlimits]

theorem keeps (db : Engine) {limits : CacheStoreLimits} {most : ℕ} (hmost : limits.maxItems.toNat ≤ most) :
    Lifetime.Keeps (backend db) (Within limits most) most where
  client s clock op hs := hs.step hmost (s.engine db) ⟨.client op, clock⟩ s.closed
  snapshot s hs := by
    refine ⟨?_, ?_⟩
    · obtain ⟨n, hn⟩ := SqliteCacheStore.snapshotItems_ticked (s.engine db) s.store
      change Within limits most ⟨(SqliteCacheStore.snapshotItems (s.engine db) s.store).2, s.closed⟩
      rw [hn]
      exact ⟨hs.1.ticked n, hs.2.1, hs.2.2⟩
    · intro items hitems
      change (SqliteCacheStore.snapshotItems (s.engine db) s.store).1 = .ok items at hitems
      rcases hrun : SqliteCacheStore.snapshotItems (s.engine db) s.store with ⟨x | items', t⟩
      · rw [hrun] at hitems
        cases hitems
      · rw [hrun] at hitems
        cases hitems
        obtain ⟨rows, u, hu, hpure⟩ := Act.bind_ok hrun
        obtain ⟨-, rfl, rfl⟩ := SqliteCacheStore.sql_ok hu
        cases hpure
        rw [List.length_map]
        exact hs.2.2
  remove s clock key hs := by
    change Within limits most ⟨(SqliteCacheStore.removeIfExpired (s.engine db) clock key s.store).2, s.closed⟩
    rw [← SqliteCacheStore.step_cleaner]
    exact hs.step hmost (s.engine db) ⟨.cleaner key, clock⟩ s.closed
  close s hs := hs

/-- The cleaner does not close the connection, nor does it open it. -/
theorem advance_closed (clock : ℕ → Time) (s : Lifetime SqliteSession) :
    (s.advance (backend db) clock).store.closed = s.store.closed := by
  obtain ⟨store, thread, stopEvent, stop⟩ := s
  cases thread with
  | waiting | ended => rfl
  | working pass =>
    exact ExpiredEntryCleaner.advance_store (s := ⟨store, pass⟩)
      (P := fun u : SqliteSession => u.closed = store.closed) rfl rfl fun _ => rfl

theorem step_closes (h : s.stop = .returned → s.store.closed = true) (turn : LifeTurn) :
    (s.step (backend db) turn).2.stop = .returned → (s.step (backend db) turn).2.store.closed = true := by
  cases turn with
  | client op clock => exact h
  | cleaner clock =>
    change (s.advance (backend db) clock).stop = _ → (s.advance (backend db) clock).store.closed = true
    rw [advance_closed, (Lifetime.advance_stopEvent (backend db) clock s).2]
    exact h
  | stop timedOut =>
    change (s.advanceStop (backend db) timedOut).stop = _ →
      (s.advanceStop (backend db) timedOut).store.closed = true
    rcases (Lifetime.advanceStop_cases (backend db) timedOut s).2 with
      ⟨-, hself⟩ | ⟨hjoining, -⟩ | ⟨-, -, hstore⟩
    · rwa [hself]
    · rw [hjoining]
      exact fun h => by cases h
    · exact fun _ => congrArg closed hstore

theorem exec_closes (h : s.stop = .returned → s.store.closed = true) (turns : List LifeTurn) :
    (exec (Lifetime.step (backend db)) s turns).stop = .returned →
      (exec (Lifetime.step (backend db)) s turns).store.closed = true :=
  exec_always (I := fun u : Lifetime SqliteSession => u.stop = .returned → u.store.closed = true)
    (fun _ turn h => step_closes h turn) h turns

theorem call_of_closed (db : Engine) (h : s.store.closed = true) (op : Op) (clock : ℕ → Time) :
    ∃ x n, SqliteCacheStore.call (s.store.engine db) clock op s.store.store = (.error x, s.store.store.ticked n) ∧
      (x = .sqliteError ∨ ∃ key, op.key? = some key ∧ validateKey key = .error x) := by
  rw [engine, if_pos h]
  exact SqliteCacheStore.call_refuses clock op s.store.store

theorem advance_table_of_closed (h : s.store.closed = true) (clock : ℕ → Time) :
    (s.advance (backend db) clock).store.store.table = s.store.store.table := by
  have hengine : s.store.engine db = .closed := if_pos h
  obtain ⟨store, thread, stopEvent, stop⟩ := s
  cases thread with
  | waiting | ended => rfl
  | working pass =>
    refine ExpiredEntryCleaner.advance_store (s := ⟨store, pass⟩)
      (P := fun u : SqliteSession => u.store.table = store.store.table) rfl ?_ fun key => ?_
    · obtain ⟨n, hn⟩ := SqliteCacheStore.snapshotItems_ticked (store.engine db) store.store
      exact (congrArg SqliteCacheStore.table hn).trans rfl
    · obtain ⟨x, n, hrun, -⟩ := SqliteCacheStore.removeIfExpired_refuses clock key store.store
      rw [← hengine] at hrun
      exact congrArg (fun r => r.2.table) hrun

theorem step_of_closed (h : s.store.closed = true) (turn : LifeTurn) :
    (s.step (backend db) turn).2.store.closed = true ∧
      (s.step (backend db) turn).2.store.store.table = s.store.store.table := by
  cases turn with
  | client op clock =>
    obtain ⟨x, n, hrun, -⟩ := call_of_closed db h op clock
    exact ⟨h, congrArg (fun r => r.2.table) hrun⟩
  | cleaner clock => exact ⟨(advance_closed clock s).trans h, advance_table_of_closed h clock⟩
  | stop timedOut =>
    change (s.advanceStop (backend db) timedOut).store.closed = true ∧
      (s.advanceStop (backend db) timedOut).store.store.table = s.store.store.table
    rcases (Lifetime.advanceStop_cases (backend db) timedOut s).2 with
      ⟨-, hself⟩ | ⟨-, -, hstore⟩ | ⟨-, -, hstore⟩
    · rw [hself]
      exact ⟨h, rfl⟩
    · rw [hstore]
      exact ⟨h, rfl⟩
    · rw [hstore]
      exact ⟨rfl, rfl⟩

theorem atRest_of_closed (h : s.store.closed = true) : AtRest db s := by
  have hkept : ∀ (u : Lifetime SqliteSession) (turn : LifeTurn),
      (u.store.closed = true ∧ u.store.store.table = s.store.store.table) →
      (u.step (backend db) turn).2.store.closed = true ∧
        (u.step (backend db) turn).2.store.store.table = s.store.store.table := by
    intro u turn hu
    exact ⟨(step_of_closed hu.1 turn).1, (step_of_closed hu.1 turn).2.trans hu.2⟩
  refine ⟨fun later => (exec_always hkept ⟨h, rfl⟩ later).2, ?_⟩
  intro later r hr op clock hinput
  obtain ⟨hbefore, hrec⟩ := trace_always hkept ⟨h, rfl⟩ hr
  obtain ⟨x, n, hrun, hx⟩ := call_of_closed db hbefore.1 op clock
  refine ⟨x, ?_, hx⟩
  rw [hrec]
  change (r.before.step (backend db) r.input).1 = .error x
  rw [hinput]
  exact congrArg Prod.fst hrun

end SqliteSession

/-- For any interleaving of clients, the cleaner and `stop`, with any engine: once the event is set the
cleaner's thread ends within turns of its own that a whole pass would take, and once `stop` has returned
the file is at rest, also for a thread that has outlived the wait. -/
theorem stop_brings_to_rest :
    (∀ (limits : CacheStoreLimits) (startCleaner : Bool) (turns : List LifeTurn),
      (exec (Lifetime.step CacheStore.backend) (.start (.init limits) startCleaner) turns).Stops
        CacheStore.backend limits.maxItems.toNat) ∧
    ∀ (db : Engine) (s₀ : SqliteCacheStore), World.Opens db s₀ → ∀ (startCleaner : Bool) (turns : List LifeTurn),
      let s := exec (Lifetime.step (SqliteSession.backend db)) (.start ⟨s₀, false⟩ startCleaner) turns
      s.Stops (SqliteSession.backend db) (max s₀.table.length s₀.limits.maxItems.toNat) ∧
        (s.stop = .returned → SqliteSession.AtRest db s) := by
  refine ⟨fun limits startCleaner turns => ?_, ?_⟩
  · have hkeeps := CacheStore.keeps limits
    exact ((Lifetime.Running.start ⟨CacheStore.init_inv limits, rfl⟩ startCleaner).exec hkeeps turns).stops
      hkeeps
  intro db s₀ hopens startCleaner turns s
  refine ⟨?_, fun hreturned => SqliteSession.atRest_of_closed ?_⟩
  · have hkeeps := SqliteSession.keeps db (le_max_right s₀.table.length s₀.limits.maxItems.toNat)
    have hwithin : SqliteSession.Within s₀.limits (max s₀.table.length s₀.limits.maxItems.toNat) ⟨s₀, false⟩ :=
      ⟨hopens.accounted, rfl, le_max_left _ _⟩
    exact ((Lifetime.Running.start hwithin startCleaner).exec hkeeps turns).stops hkeeps
  · exact SqliteSession.exec_closes (fun h => by cases h) turns hreturned

theorem stop_brings_to_rest_run :
    let db : Engine := ⟨fun _ => false, fun _ => 0⟩
    let turns : List LifeTurn := [.client (.set "a" [1] (some 1)) fun _ => 0, .cleaner fun _ => 2,
      .stop false, .cleaner fun _ => 2, .stop true]
    (exec (Lifetime.step CacheStore.backend) (.start (.init (.small 0)) true) turns).Stops CacheStore.backend
        (CacheStoreLimits.small 0).maxItems.toNat ∧
      ∃ s₀, World.Opens db s₀ ∧ SqliteSession.AtRest db
        (exec (Lifetime.step (SqliteSession.backend db)) (.start ⟨s₀, false⟩ true) turns) := by
  intro db turns
  have hopens : World.Opens db _ := ⟨db, [], ⟨some 1, some 1, some 10, some 40⟩, _, rfl⟩
  exact ⟨stop_brings_to_rest.1 (.small 0) true turns, _, hopens,
    (stop_brings_to_rest.2 db _ hopens true turns).2 (by decide +kernel)⟩

end TinyCache
