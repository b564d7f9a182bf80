import TinyCache.Sanity.SqliteStep

/-! What holds of the SQLite store on both exits of every method, returned or raised. A
reliable engine never takes the second exit. The rules are for any property that
removing rows keeps; that of the counters has a hole while a row is being rewritten,
since its key is then absent from the table. -/

namespace TinyCache.SqliteCacheStore

open Connection Act

/-- What removing rows of keys in `K` keeps. -/
structure Shrinks (K : Key → Prop) (P : SqliteCacheStore → Prop) : Prop where
  of_eq : ∀ s t, P s → t.limits = s.limits → t.table = s.table →
    t.currentMemoryBytes = s.currentMemoryBytes → t.entryCount = s.entryCount → P t
  without : ∀ s key row, K key → P s → s.table.get? key = some row → P (s.without key row)

/-- A statement raised in a store with `P`. -/
def Failed (db : Engine) (P : SqliteCacheStore → Prop) (s : SqliteCacheStore) : Prop :=
  P s ∧ ¬ db.Reliable

/-- Any row may go. -/
abbrev ShrinksAll (P : SqliteCacheStore → Prop) : Prop := Shrinks (fun _ => True) P

variable {db : Engine} {K : Key → Prop} {P : SqliteCacheStore → Prop}

theorem Failed.imp {Q : SqliteCacheStore → Prop} {s : SqliteCacheStore} (h : Failed db P s)
    (hPQ : ∀ s, P s → Q s) : Failed db Q s := ⟨hPQ s h.1, h.2⟩

/-- A statement leaves the table as it was, or does what it says. -/
theorem sql_triple {α : Type} {f : ℕ → Table → α × Table} {Q : α → SqliteCacheStore → Prop}
    {E : SqliteCacheStore → Prop}
    (hok : ∀ s n, P s → Q (f s.connection.statements s.table).1
      ((s.withTable (f s.connection.statements s.table).2).ticked n))
    (herr : ∀ s n, P s → ¬ db.Reliable → E (s.ticked n)) : Triple P (sql (execute db f)) Q E := by
  intro s hs
  rcases h : sql (execute db f) s with ⟨x | a, t⟩
  · obtain ⟨hr, -, rfl⟩ := sql_error h
    refine herr s _ hs ?_
    intro hdb
    rw [hdb] at hr
    cases hr
  · obtain ⟨-, rfl, rfl⟩ := sql_ok h
    exact hok s _ hs

theorem Shrinks.select (hP : Shrinks K P) {α : Type} {f : ℕ → Table → α} :
    Triple P (sql (execute db fun n table => (f n table, table))) (fun _ => P) (Failed db P) :=
  sql_triple (fun s _ h => hP.of_eq s _ h rfl rfl rfl rfl) fun s _ h hdb => ⟨hP.of_eq s _ h rfl rfl rfl rfl, hdb⟩

theorem Shrinks.getRowLocked (hP : Shrinks K P) (key : Key) :
    Triple P (getRowLocked db key) (fun r s => P s ∧ r = s.table.get? key) (Failed db P) :=
  sql_triple (fun s _ h => ⟨hP.of_eq s _ h rfl rfl rfl rfl, rfl⟩)
    fun s _ h hdb => ⟨hP.of_eq s _ h rfl rfl rfl rfl, hdb⟩

theorem Shrinks.removeEntryLocked (hP : Shrinks K P) {key : Key} (hK : K key) :
    Triple P (removeEntryLocked db key) (fun _ s => P s ∧ s.table.get? key = none) (Failed db P) := by
  refine Triple.bind (hP.getRowLocked key) ?_
  intro r
  cases r with
  | none => exact Triple.pure fun _ h => ⟨h.1, h.2.symm⟩
  | some row =>
    -- the row and its size leave the table and the counters one after the other
    have hdelete : Triple (fun s => P s ∧ some row = s.table.get? key) (sql (deleteRow db key))
        (fun _ s => ∃ u n, P u ∧ u.table.get? key = some row ∧
          s = (u.withTable (u.table.erase key)).ticked n) (Failed db P) :=
      sql_triple (fun s n h => ⟨s, n, h.1, h.2.symm, rfl⟩)
        fun s _ h hdb => ⟨hP.of_eq s _ h.1 rfl rfl rfl rfl, hdb⟩
    refine Triple.bind hdelete fun _ => Triple.bind (R := fun _ s => P s ∧
      s.table.get? key = none) (Triple.modify ?_) fun _ => Triple.pure fun _ h => h
    rintro s ⟨u, n, hu, hk, rfl⟩
    exact ⟨hP.of_eq _ _ (hP.without u key row hK hu hk) rfl rfl rfl rfl, OrderedDict.get?_erase_self _ _⟩

theorem Shrinks.removeExpiredEntryLocked (hP : Shrinks K P) {key : Key} (hK : K key) :
    Triple P (removeExpiredEntryLocked db key) (fun _ s => P s ∧ s.table.get? key = none)
      (Failed db P) := by
  refine Triple.bind (hP.removeEntryLocked hK) fun b => Triple.ite (fun _ => ?_) fun _ =>
    Triple.pure fun _ h => h
  refine Triple.bind (Q := fun _ s => P s ∧ s.table.get? key = none) (Triple.modify ?_)
    fun _ => Triple.pure fun _ h => h
  exact fun s h => ⟨hP.of_eq s _ h.1 rfl rfl rfl rfl, h.2⟩

theorem Shrinks.removeExpiredRows (hP : Shrinks K P) {clock : ℕ → Time} {rows : List (Key × Row)}
    (hK : ∀ p ∈ rows, ∀ i, isExpired (clock i) (rowToEntry p.2) = true → K p.1) (i : ℕ) :
    Triple P (removeExpiredRows db clock i rows) (fun _ => P) (Failed db P) := by
  induction rows generalizing i with
  | nil => exact Triple.pure fun _ h => h
  | cons p rows ih =>
    rw [List.forall_mem_cons] at hK
    refine Triple.ite (fun hx => Triple.bind (hP.removeExpiredEntryLocked (hK.1 i hx)) fun _ => ?_)
      fun _ => ih hK.2 (i + 1)
    exact (ih hK.2 (i + 1)).pre fun _ h => h.1

theorem Shrinks.removeExpiredEntriesLocked (hP : Shrinks K P) {clock : ℕ → Time}
    (hK : ∀ s, P s → ∀ p ∈ s.table.items, ∀ i, isExpired (clock i) (rowToEntry p.2) = true → K p.1) :
    Triple P (removeExpiredEntriesLocked db clock) (fun _ => P) (Failed db P) := by
  have hselect : Triple P (sql (selectAll db)) (fun rows s => P s ∧ rows = s.table.items)
      (Failed db P) :=
    sql_triple (fun s _ h => ⟨hP.of_eq s _ h rfl rfl rfl rfl, rfl⟩)
      fun s _ h hdb => ⟨hP.of_eq s _ h rfl rfl rfl rfl, hdb⟩
  refine Triple.bind hselect fun rows s hs => ?_
  refine hP.removeExpiredRows ?_ 0 s hs.1
  rw [hs.2]
  exact hK s hs.1

theorem Shrinks.removeIfExpired (hP : Shrinks K P) (db : Engine) (clock : ℕ → Time) (key : Key)
    (hK : ∀ s row, P s → s.table.get? key = some row →
      isExpired (clock 0) (rowToEntry row) = true → K key) :
    Triple P (removeIfExpired db clock key) (fun _ => P) (Failed db P) := by
  refine Triple.bind (hP.getRowLocked key) ?_
  intro r
  cases r with
  | none => exact Triple.pure fun _ h => h.1
  | some row =>
    refine Triple.ite (fun hx => ?_) fun _ => Triple.pure fun _ h => h.1
    refine Triple.know (fun s h => hK s row h.1 h.2.symm hx) fun hkey => ?_
    exact Triple.bind ((hP.removeExpiredEntryLocked hkey).pre fun _ h => h.1) fun _ =>
      Triple.pure fun _ h => h.1

theorem ShrinksAll.evictLruLocked (hP : ShrinksAll P) :
    Triple P (evictLruLocked db) (fun _ => P) (Failed db P) := by
  refine Triple.bind hP.select ?_
  intro r
  cases r with
  | none => exact Triple.pure fun _ h => h
  | some key =>
    refine Triple.bind (hP.removeEntryLocked trivial) fun b => Triple.ite (fun _ => ?_) fun _ =>
      Triple.pure fun _ h => h.1
    refine Triple.bind (Q := fun _ => P) (Triple.modify ?_) fun _ => Triple.pure fun _ h => h
    exact fun s h => hP.of_eq s _ h.1 rfl rfl rfl rfl

/-- The table has no room for `size` bytes more, or, if the key is new, for one more row. -/
def Crowded (isNewKey : Bool) (size : ℤ) (s : SqliteCacheStore) : Prop :=
  s.currentMemoryBytes + size > s.limits.maxMemoryBytes ∨ isNewKey = true ∧ s.entryCount ≥ s.limits.maxItems

section

variable {E : SqliteCacheStore → Prop}

theorem evictWhile_triple {cond : SqliteCacheStore → Bool}
    (hevict : Triple (fun s => P s ∧ cond s = true) (SqliteCacheStore.evictLruLocked db) (fun _ => P) E) :
    Triple P (evictWhile db cond) (fun _ => P) E := by
  refine Triple.read fun s₀ hs₀ => ?_
  refine (Triple.whileDo hevict (s₀.table.length + 1)).pre ?_
  rintro s rfl
  exact hs₀

variable {isNewKey : Bool} {size : ℤ}
  (hevict : Triple (fun s => P s ∧ Crowded isNewKey size s) (SqliteCacheStore.evictLruLocked db) (fun _ => P) E)

include hevict

theorem makeRoomForBytes_triple : Triple P (makeRoomForBytes db size) (fun _ => P) E := by
  refine Triple.read fun s₀ hs₀ => Triple.ite (fun _ => ?_) fun _ => Triple.pure ?_
  · have hloop : Triple P (evictToFitLocked db size) (fun _ => P) E := by
      refine Triple.bind (evictWhile_triple (hevict.pre ?_)) fun b => Triple.ite (fun _ => ?_) fun _ =>
        Triple.pure fun _ h => h
      · rintro s ⟨hs, hc⟩
        exact ⟨hs, Or.inl (of_decide_eq_true (Bool.and_eq_true _ _ ▸ hc).1)⟩
      refine Triple.read fun s₁ hs₁ => Triple.pure ?_
      rintro s rfl
      exact hs₁
    refine hloop.pre ?_
    rintro s rfl
    exact hs₀
  · rintro s rfl
    exact hs₀

theorem makeRoomForItem_triple : Triple P (makeRoomForItem db isNewKey) (fun _ => P) E := by
  refine Triple.ite (fun hnew => evictWhile_triple (hevict.pre ?_)) fun _ => Triple.pure fun _ h => h
  rintro s ⟨hs, hc⟩
  exact ⟨hs, Or.inr ⟨hnew, of_decide_eq_true hc⟩⟩

end

/-- Inserting a row takes a store with `P` to one with `Q`, or leaves it as it was. -/
theorem Shrinks.insert (hP : Shrinks K P) {K' : Key → Prop} {Q : SqliteCacheStore → Prop}
    (hQ : Shrinks K' Q) {key : Key}
    {row : Row} (hinsert : ∀ s, P s → Q (s.inserted key row)) :
    Triple P
      (do
        sql (insertOrReplace db key row)
        Act.modify fun self =>
          { self with
            currentMemoryBytes := self.currentMemoryBytes + row.sizeBytes
            entryCount := self.entryCount + 1 })
      (fun _ => Q) (Failed db P) := by
  have hsql : Triple P (sql (insertOrReplace db key row))
      (fun _ s => ∃ u n, P u ∧ s = (u.withTable (u.table.putLast key row)).ticked n) (Failed db P) :=
    sql_triple (fun s n h => ⟨s, n, h, rfl⟩) fun s _ h hdb => ⟨hP.of_eq s _ h rfl rfl rfl rfl, hdb⟩
  refine Triple.bind hsql fun _ => Triple.modify ?_
  rintro s ⟨u, n, hu, rfl⟩
  exact hQ.of_eq _ _ (hinsert u hu) rfl rfl rfl rfl

/-- The write path from a store with `P`: with one of the two rows inserted it ends in
`Q`, and when a statement raises none has been. -/
theorem Shrinks.writeValueLocked (hP : Shrinks K P) {K' : Key → Prop} {Q : SqliteCacheStore → Prop}
    (hQ : Shrinks K' Q) {accessed : Time} {key : Key} {entry : CacheEntry} {old : Option Row}
    (hevict : Triple (fun s => P s ∧ Crowded old.isNone entry.sizeBytes s) (evictLruLocked db)
      (fun _ => P) (Failed db P)) (hPQ : ∀ s, P s → Q s)
    (hnew : ∀ s, P s → Q (s.inserted key (rowOf entry accessed)))
    (hold : ∀ row, old = some row → ∀ s, P s → Q (s.inserted key row)) :
    Triple P (writeValueLocked db accessed key entry old) (fun _ => Q) (Failed db P) := by
  have hrestore : Triple P (restore db key old) (fun _ => Q) (Failed db P) := by
    cases old with
    | none => exact Triple.pure fun s h => hPQ s h
    | some row => exact hP.insert hQ (hold row rfl)
  have hreject : Triple Q rejectCapacity (fun _ => Q) (Failed db P) := by
    refine Triple.bind (Q := fun _ => Q) (Triple.modify ?_) fun _ => Triple.pure fun _ h => h
    exact fun s h => hQ.of_eq s _ h rfl rfl rfl rfl
  refine Triple.read fun s₀ hs₀ => ?_
  refine Triple.pre (show Triple P _ _ _ from ?_) ?_
  · refine Triple.ite (fun _ => Triple.bind hrestore fun _ => ?_) fun _ => ?_
    · refine Triple.bind (Q := fun _ => Q) (Triple.modify ?_) fun _ => Triple.pure fun _ h => h
      exact fun s h => hQ.of_eq s _ h rfl rfl rfl rfl
    · refine Triple.bind (makeRoomForBytes_triple hevict) fun _ => Triple.ite (fun _ => ?_) fun _ =>
        Triple.bind hrestore fun _ => hreject
      refine Triple.bind (makeRoomForItem_triple hevict) fun _ => Triple.ite (fun _ => ?_) fun _ =>
        hreject.pre hPQ
      exact Triple.bind (hP.insert hQ hnew) fun _ => Triple.pure fun _ h => h
  · rintro s rfl
    exact hs₀

theorem Shrinks.removeOld (hP : Shrinks K P) {key : Key} (hK : K key) {old : Option Row} :
    Triple (fun s => P s ∧ old = s.table.get? key) (removeOld db key old)
      (fun _ s => P s ∧ s.table.get? key = none) (Failed db P) := by
  cases old with
  | none => exact Triple.pure fun _ h => ⟨h.1, h.2.symm⟩
  | some row =>
    refine Triple.bind (Q := fun _ s => P s ∧ s.table.get? key = none) ?_
      fun _ => Triple.pure fun _ h => h
    exact (hP.removeEntryLocked hK).pre fun _ h => h.1

/-- A row once it has been read at `now`. -/
def touch (table : Table) (key : Key) (now : Time) : Table :=
  table.replace key fun row => { row with lastAccessed := now }

/-- An operation raised: a statement of it did, or its key is not valid. -/
def Refused (db : Engine) (P : SqliteCacheStore → Prop) (key? : Option Key)
    (s : SqliteCacheStore) : Prop :=
  P s ∧ (db.Reliable → ∃ key x, key? = some key ∧ validateKey key = .error x)

theorem Failed.refused {key? : Option Key} {s : SqliteCacheStore} (h : Failed db P s) :
    Refused db P key? s := ⟨h.1, fun hdb => absurd hdb h.2⟩

theorem check_triple {α : Type} {key : Key} {m : Act PyError SqliteCacheStore α}
    {Q : α → SqliteCacheStore → Prop} (hm : Triple P m Q (Failed db P)) :
    Triple P (do check (validateKey key); m) Q (Refused db P (some key)) := by
  refine Triple.bind (Q := fun _ => P) ?_ fun _ => hm.fail fun _ h => h.refused
  intro s hs
  rcases hv : validateKey key with x | _
  · exact ⟨hs, fun _ => ⟨key, x, rfl, hv⟩⟩
  · exact hs

/-- What the operations need of a property of the store before them and one after them. -/
structure Maintains (db : Engine) (P Q : SqliteCacheStore → Prop) : Prop where
  before : ShrinksAll P
  after : ShrinksAll Q
  imp : ∀ s, P s → Q s
  touch : ∀ s key now, P s → Q (s.withTable (touch s.table key now))
  clear : ∀ (s : SqliteCacheStore) (n : ℕ), Q (s.cleared.ticked n)
  store : ∀ created accessed key value ttl old,
    Triple (fun s => P s ∧ old = s.table.get? key)
      (storeValueLocked db created accessed key value ttl old) (fun _ => Q) (Failed db P)

variable {Q : SqliteCacheStore → Prop} (clock : ℕ → Time) (key : Key)

theorem Shrinks.get (hP : Shrinks K P) {K' : Key → Prop} (hQ : Shrinks K' Q) (hPQ : ∀ s, P s → Q s)
    (hK : ∀ s row, P s → s.table.get? key = some row →
      isExpired (clock 0) (rowToEntry row) = true → K key)
    (htouch : ∀ s now, P s → Q (s.withTable (touch s.table key now))) :
    Triple P (get db clock key) (fun _ => Q) (Refused db P (some key)) := by
  refine check_triple (Triple.bind (hP.getRowLocked key) ?_)
  intro r
  cases r with
  | none =>
    refine Triple.bind (Q := fun _ => Q) (Triple.modify ?_) fun _ => Triple.pure fun _ h => h
    exact fun s h => hQ.of_eq s _ (hPQ s h.1) rfl rfl rfl rfl
  | some row =>
    refine Triple.ite (fun hx => ?_) fun _ => ?_
    · refine Triple.know (fun s h => hK s row h.1 h.2.symm hx) fun hkey => ?_
      refine Triple.bind (Q := fun _ => P) (Triple.modify ?_) fun _ => ?_
      · exact fun s h => hP.of_eq s _ h.1 rfl rfl rfl rfl
      · exact Triple.bind (hP.removeExpiredEntryLocked hkey) fun _ => Triple.pure fun s h => hPQ s h.1
    · refine Triple.bind (Q := fun _ => Q) (sql_triple ?_ ?_) fun _ => ?_
      · exact fun s n h => hQ.of_eq _ _ (htouch s (clock 1) h.1) rfl rfl rfl rfl
      · exact fun s n h hdb => ⟨hP.of_eq s _ h.1 rfl rfl rfl rfl, hdb⟩
      · refine Triple.bind (Q := fun _ => Q) (Triple.modify ?_) fun _ => Triple.pure fun _ h => h
        exact fun s h => hQ.of_eq s _ h rfl rfl rfl rfl

theorem conditionally_triple {P' : SqliteCacheStore → Prop}
    {m : Act PyError SqliteCacheStore CacheSetStatus} (hm : Triple P' m (fun _ => Q) (Failed db P)) :
    Triple P' (do return conditionalStatusFromSetStatus (← m)) (fun _ => Q) (Failed db P) :=
  Triple.bind hm fun _ => Triple.pure fun _ h => h

section

variable {value : Bytes} {ttl : Option ℤ} (hP : Shrinks K P)
  (hstore : ∀ created accessed old, Triple (fun s => P s ∧ old = s.table.get? key)
    (storeValueLocked db created accessed key value ttl old) (fun _ => Q) (Failed db P))

include hP hstore

theorem Shrinks.set : Triple P (set db clock key value ttl) (fun _ => Q) (Refused db P (some key)) :=
  check_triple (Triple.bind (hP.getRowLocked key) fun _ => hstore _ _ _)

variable (hPQ : ∀ s, P s → Q s) (hK : K key)

include hPQ hK

theorem Shrinks.setIfAbsent :
    Triple P (setIfAbsent db clock key value ttl) (fun _ => Q) (Refused db P (some key)) := by
  refine check_triple (Triple.bind (hP.getRowLocked key) ?_)
  intro r
  cases r with
  | none => exact conditionally_triple (hstore _ _ _)
  | some row =>
    refine Triple.ite (fun _ => ?_) fun _ => Triple.pure fun s hs => hPQ s hs.1
    exact Triple.bind ((hP.removeExpiredEntryLocked hK).pre fun _ hs => hs.1) fun _ =>
      (conditionally_triple (hstore _ _ _)).pre fun _ hs => ⟨hs.1, hs.2.symm⟩

theorem Shrinks.compareAndSet (expected : Bytes) :
    Triple P (compareAndSet db clock key expected value ttl) (fun _ => Q)
      (Refused db P (some key)) := by
  refine check_triple (Triple.bind (hP.getRowLocked key) ?_)
  intro r
  cases r with
  | none => exact Triple.pure fun s hs => hPQ s hs.1
  | some row =>
    refine Triple.ite (fun _ => ?_) fun _ => Triple.ite (fun _ => ?_) fun _ => ?_
    · exact Triple.bind ((hP.removeExpiredEntryLocked hK).pre fun _ hs => hs.1) fun _ =>
        Triple.pure fun s hs => hPQ s hs.1
    · exact Triple.pure fun s hs => hPQ s hs.1
    · exact conditionally_triple (hstore _ _ _)

end

theorem Shrinks.delete (hP : Shrinks K P) (hK : K key) (hPQ : ∀ s, P s → Q s) :
    Triple P (delete db key) (fun _ => Q) (Refused db P (some key)) :=
  check_triple ((hP.removeEntryLocked hK).post fun _ s hs => hPQ s hs.1)

theorem reply_triple {α : Type} {m : Act PyError SqliteCacheStore α} (f : α → Reply)
    {R : SqliteCacheStore → Prop} (hm : Triple P m (fun _ => Q) R) :
    Triple P (do return f (← m)) (fun _ => Q) R :=
  Triple.bind hm fun _ => Triple.pure fun _ hs => hs

variable (h : Maintains db P Q)

include h

theorem Maintains.clearAll : Triple P (SqliteCacheStore.clear db) (fun _ => Q) (Failed db P) := by
  have hdelete : Triple P (sql (deleteAll db))
      (fun _ s => ∃ u n, s = (SqliteCacheStore.withTable u .empty).ticked n) (Failed db P) :=
    sql_triple (fun s n _ => ⟨s, n, rfl⟩) fun s _ hs hdb => ⟨h.before.of_eq s _ hs rfl rfl rfl rfl, hdb⟩
  refine Triple.bind hdelete fun _ => Triple.modify ?_
  rintro s ⟨u, n, rfl⟩
  exact h.clear u n

/-- With a reliable engine only an invalid key makes an operation raise. -/
theorem Maintains.call (op : Op) :
    Triple P (call db clock op) (fun _ => Q) (Refused db P op.key?) := by
  cases op with
  | get key =>
    exact reply_triple _ (h.before.get clock key h.after h.imp (fun _ _ _ _ _ => trivial)
      fun s now hs => h.touch s key now hs)
  | set key value ttl =>
    exact reply_triple _ (h.before.set clock key fun _ _ _ => h.store _ _ _ _ _ _)
  | setIfAbsent key value ttl =>
    exact reply_triple _ (h.before.setIfAbsent clock key (fun _ _ _ => h.store _ _ _ _ _ _) h.imp trivial)
  | compareAndSet key expected value ttl =>
    exact reply_triple _ (h.before.compareAndSet clock key (fun _ _ _ => h.store _ _ _ _ _ _) h.imp
      trivial expected)
  | delete key => exact reply_triple _ (h.before.delete key trivial h.imp)
  | stats =>
    refine reply_triple _ (Triple.bind ((h.before.removeExpiredEntriesLocked
      (fun _ _ _ _ _ _ => trivial)).fail fun _ hs => hs.refused) fun _ =>
        Triple.read fun s₀ hs₀ => Triple.pure ?_)
    rintro s rfl
    exact h.imp s hs₀
  | clear =>
    exact Triple.bind (h.clearAll.fail fun _ hs => hs.refused) fun _ => Triple.pure fun _ hs => hs

theorem Maintains.step {s t : SqliteCacheStore} {event : Event} {reply : Except PyError Reply}
    (hs : P s) (hstep : step db s event = (reply, t)) :
    (∀ r, reply = .ok r → Q t) ∧ ∀ x, reply = .error x → P t ∧
      (db.Reliable → ∃ op key y, event.action = .client op ∧ op.key? = some key ∧
        validateKey key = .error y) := by
  obtain ⟨action, clock⟩ := event
  cases action with
  | client op =>
    have hcall := h.call clock op s hs
    rw [show SqliteCacheStore.call db clock op s = (reply, t) from hstep] at hcall
    cases reply with
    | ok r => exact ⟨fun _ _ => hcall, fun x hx => by cases hx⟩
    | error y =>
      refine ⟨fun r hr => (nomatch hr), fun x _ => ⟨hcall.1, fun hdb => ?_⟩⟩
      obtain ⟨key, z, hk, hv⟩ := hcall.2 hdb
      exact ⟨op, key, z, rfl, hk, hv⟩
  | cleaner key =>
    have hclean := Triple.bind (R := fun _ => P) (h.before.removeIfExpired db clock key
      (fun _ _ _ _ _ => trivial)) (fun _ => Triple.pure (a := Reply.done) fun _ hs => hs) s hs
    rw [show (removeIfExpired db clock key >>= fun _ => pure Reply.done) s = (reply, t) from hstep]
      at hclean
    cases reply with
    | ok r => exact ⟨fun _ _ => h.imp t hclean, fun x hx => by cases hx⟩
    | error y =>
      exact ⟨fun r hr => (nomatch hr), fun x _ => ⟨hclean.1, fun hdb => absurd hdb hclean.2⟩⟩

omit h

theorem shrinks_true : ShrinksAll fun _ => True := ⟨fun _ _ _ _ _ _ _ => trivial, fun _ _ _ _ _ _ => trivial⟩

/-- What removing rows keeps is kept by every step that raises: whatever such a step was
going to insert, it has not. -/
theorem ShrinksAll.maintains (hP : ShrinksAll P) : Maintains db P fun _ => True where
  before := hP
  after := shrinks_true
  imp _ _ := trivial
  touch _ _ _ _ := trivial
  clear _ _ := trivial
  store _ _ _ _ _ _ :=
    Triple.bind (hP.removeOld trivial) fun _ =>
      (hP.writeValueLocked shrinks_true (hP.evictLruLocked.pre fun _ h => h.1) (fun _ _ => trivial) (fun _ _ => trivial)
        fun _ _ _ _ => trivial).pre fun _ h => h.1

/-- The counters are right, and the key in the hole, if there is one, has no row. -/
structure Holds (hole : Option Key) (s : SqliteCacheStore) : Prop where
  accounted : s.Accounted
  absent : ∀ key, hole = some key → s.table.get? key = none

variable {hole : Option Key}

theorem Holds.fill {s : SqliteCacheStore} (h : Holds hole s) : Holds none s :=
  ⟨h.accounted, fun key hkey => by cases hkey⟩

theorem Holds.dig {s : SqliteCacheStore} {key : Key} (h : Holds none s)
    (hkey : s.table.get? key = none) : Holds (some key) s := by
  refine ⟨h.accounted, ?_⟩
  intro key' he
  rwa [← Option.some.inj he]

theorem shrinks_holds (hole : Option Key) : ShrinksAll (Holds hole) where
  of_eq s t h _ htable hmem hcount := by
    refine ⟨⟨?_, ?_, ?_⟩, ?_⟩
    · rw [hmem, htable]
      exact h.accounted.memory
    · rw [hcount, htable]
      exact h.accounted.count
    · rw [htable]
      exact h.accounted.sized
    · rw [htable]
      exact h.absent
  without s key row _ h hk := by
    refine ⟨without_accounted hk h.accounted, ?_⟩
    intro x hx
    have ha := h.absent x hx
    change (s.table.erase key).get? x = none
    rw [OrderedDict.get?_erase, ha]
    exact ite_self none

theorem inserted_holds {s : SqliteCacheStore} {key : Key} {row : Row} (h : Holds (some key) s)
    (hsized : row.sizeBytes = getsizeof row.value) : Holds none (s.inserted key row) := by
  have hitems : (s.inserted key row).table.items = s.table.items ++ [(key, row)] :=
    OrderedDict.putLast_of_none (h.absent key rfl) row
  refine ⟨⟨?_, ?_, ?_⟩, fun key hkey => by cases hkey⟩
  · rw [hitems, sizes_append, List.sum_append, ← h.accounted.memory]
    simp [inserted]
  · rw [OrderedDict.length, hitems, List.length_append]
    have hcount := h.accounted.count
    rw [OrderedDict.length] at hcount
    simp [inserted, withTable, hcount]
  · intro p hp
    rw [hitems] at hp
    rcases List.mem_append.mp hp with hp | hp
    · exact h.accounted.sized p hp
    · rw [List.mem_singleton.mp hp]
      exact hsized

theorem storeValueLocked_holds {created accessed : Time} {key : Key} {value : Bytes} {ttl : Option ℤ}
    {old : Option Row} :
    Triple (fun s => Holds none s ∧ old = s.table.get? key)
      (storeValueLocked db created accessed key value ttl old) (fun _ => Holds none)
      (Failed db (Holds none)) := by
  intro s hs
  have hold : ∀ row, old = some row → ∀ s, Holds (some key) s → Holds none (s.inserted key row) := by
    rintro row rfl s' h
    exact inserted_holds h (hs.1.accounted.sized (key, row) (OrderedDict.get?_eq_some.mp hs.2.symm))
  have hwrite : Triple (Holds (some key)) (writeValueLocked db accessed key (.new value ttl created) old)
      (fun _ => Holds none) (Failed db (Holds (some key))) :=
    (shrinks_holds _).writeValueLocked (shrinks_holds _) ((shrinks_holds _).evictLruLocked.pre fun _ h => h.1)
      (fun _ h => h.fill) (fun _ h => inserted_holds h rfl) hold
  exact Triple.bind ((shrinks_holds none).removeOld trivial)
    (fun _ => (hwrite.pre fun _ h => h.1.dig h.2).fail fun _ h => h.imp fun _ h => h.fill) s hs

theorem touch_holds {s : SqliteCacheStore} (h : Holds none s) (key : Key) (now : Time) :
    Holds none (s.withTable (touch s.table key now)) := by
  have hsizes : sizes (touch s.table key now).items = sizes s.table.items := by
    unfold sizes touch OrderedDict.replace
    rw [List.map_map]
    refine List.map_congr_left ?_
    intro p _
    by_cases hp : p.1 = key <;> simp [hp]
  refine ⟨⟨?_, ?_, ?_⟩, fun key hkey => by cases hkey⟩
  · exact h.accounted.memory.trans (congrArg List.sum hsizes.symm)
  · refine h.accounted.count.trans ?_
    rw [OrderedDict.length, ← length_sizes, ← hsizes, length_sizes]
    rfl
  · intro p hp
    obtain ⟨q, hq, rfl⟩ := List.mem_map.mp hp
    have hsized := h.accounted.sized q hq
    by_cases hk : q.1 = key <;> simp [hk, hsized]

theorem maintains_holds (db : Engine) : Maintains db (Holds none) (Holds none) where
  before := shrinks_holds none
  after := shrinks_holds none
  imp _ h := h
  touch s key now h := touch_holds h key now
  clear s n := ⟨⟨rfl, rfl, by simp [cleared, ticked, table, OrderedDict.empty]⟩,
    fun key hkey => by cases hkey⟩
  store _ _ _ _ _ _ := storeValueLocked_holds

/-- On both exits of a step the counters are right; with a reliable engine only an
invalid key makes it raise. -/
theorem step_accounted {s t : SqliteCacheStore} {event : Event} {reply : Except PyError Reply}
    (hs : s.Accounted) (h : step db s event = (reply, t)) :
    t.Accounted ∧ ∀ x, reply = .error x → db.Reliable →
      ∃ op key y, event.action = .client op ∧ op.key? = some key ∧ validateKey key = .error y := by
  obtain ⟨hok, herr⟩ := (maintains_holds db).step ⟨hs, fun key hkey => by cases hkey⟩ h
  cases reply with
  | ok r => exact ⟨(hok r rfl).accounted, fun x hx => by cases hx⟩
  | error y => exact ⟨(herr y rfl).1.accounted, fun x hx hdb => (herr x hx).2 hdb⟩

theorem Accounted.step {s : SqliteCacheStore} (db : Engine) (hs : s.Accounted) (event : Event) :
    (step db s event).2.Accounted :=
  (step_accounted (t := (SqliteCacheStore.step db s event).2) hs rfl).1

end TinyCache.SqliteCacheStore
