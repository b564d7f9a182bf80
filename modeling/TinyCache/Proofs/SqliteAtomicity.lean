import TinyCache.Proofs.SqliteAccounting

/-! What a failing statement does to the entry that a write replaces. The old row is
deleted in a transaction of its own, the third statement of the call, and from then
until the last statement the key has no row. -/

namespace TinyCache

/-- A `set` or `compare_and_set` of `key`. -/
inductive Op.Writes (key : Key) : Op → Prop
  | set (value : Bytes) (ttl : Option ℤ) : Op.Writes key (.set key value ttl)
  | compareAndSet (expected value : Bytes) (ttl : Option ℤ) :
      Op.Writes key (.compareAndSet key expected value ttl)

namespace SqliteCacheStore

open Act Connection

/-- The call goes on to replace the row: a `set`, or a `compare_and_set` that finds the row
live and equal to what it expects. -/
def Replaces (clock : ℕ → Time) (row : Row) : Op → Prop
  | .set key _ _ => validateKey key = .ok ()
  | .compareAndSet key expected _ _ => validateKey key = .ok () ∧
      (rowToEntry row).isExpired (clock 0) = false ∧ row.value = expected
  | _ => False

variable {db : Engine} {s t : SqliteCacheStore} {key : Key} {row : Row}

theorem Replaces.valid {clock : ℕ → Time} {op : Op} (h : Replaces clock row op)
    (hop : op.Writes key) : validateKey key = .ok () := by
  cases hop with
  | set => exact h
  | compareAndSet => exact h.1

theorem sql_apply {α : Type} (f : ℕ → Table → α × Table) (s : SqliteCacheStore) :
    sql (execute db f) s =
      if db.raises s.connection.statements then
        (.error .sqliteError, s.ticked (s.connection.statements + 1))
      else (.ok (f s.connection.statements s.table).1,
        (s.withTable (f s.connection.statements s.table).2).ticked (s.connection.statements + 1)) := by
  unfold sql Act.zoom execute
  split_ifs <;> rfl

theorem getRowLocked_apply (db : Engine) (key : Key) (s : SqliteCacheStore) :
    getRowLocked db key s =
      if db.raises s.connection.statements then
        (.error .sqliteError, s.ticked (s.connection.statements + 1))
      else (.ok (s.table.get? key), s.ticked (s.connection.statements + 1)) :=
  sql_apply _ s

theorem removeEntryLocked_apply (hk : s.table.get? key = some row) :
    removeEntryLocked db key s =
      if db.raises s.connection.statements then
        (.error .sqliteError, s.ticked (s.connection.statements + 1))
      else if db.raises (s.connection.statements + 1) then
        (.error .sqliteError, s.ticked (s.connection.statements + 2))
      else (.ok true, (s.without key row).ticked (s.connection.statements + 2)) := by
  have hdelete : sql (deleteRow db key) (s.ticked (s.connection.statements + 1)) =
      if db.raises (s.connection.statements + 1) then
        (.error .sqliteError, s.ticked (s.connection.statements + 2))
      else (.ok (), (s.withTable (s.table.erase key)).ticked (s.connection.statements + 2)) :=
    sql_apply _ _
  have hget := getRowLocked_apply db key s
  by_cases h₁ : db.raises s.connection.statements = true
  · rw [if_pos h₁] at hget ⊢
    rw [removeEntryLocked, bind_of_error hget]
  · rw [if_neg h₁, hk] at hget
    rw [if_neg h₁, removeEntryLocked, bind_of_ok hget]
    by_cases h₂ : db.raises (s.connection.statements + 1) = true
    · rw [if_pos h₂] at hdelete ⊢
      exact bind_of_error hdelete
    · rw [if_neg h₂] at hdelete ⊢
      exact bind_of_ok hdelete

theorem absent_shrinks (key : Key) : ShrinksAll fun s => s.table.get? key = none where
  of_eq s t h _ htable _ _ := htable ▸ h
  without s key' row _ h _ := by
    change (s.table.erase key').get? key = none
    rw [OrderedDict.get?_erase, h]
    exact ite_self none

theorem writeValueLocked_error {accessed : Time} {entry : CacheEntry} {old : Option Row} {x : PyError}
    (hs : s.table.get? key = none) (h : writeValueLocked db accessed key entry old s = (.error x, t)) :
    t.table.get? key = none := by
  have hw : Triple (fun s => s.table.get? key = none) (writeValueLocked db accessed key entry old)
      (fun _ _ => True) (Failed db fun s => s.table.get? key = none) :=
    (absent_shrinks key).writeValueLocked shrinks_true ((absent_shrinks key).evictLruLocked.pre fun _ h => h.1)
      (fun _ _ => trivial) (fun _ _ => trivial) fun _ _ _ _ => trivial
  have ht := hw s hs
  rw [h] at ht
  exact ht.1

/-- Where every statement from the `n`-th on raises, a write in place of a row does not return. -/
theorem writeValueLocked_dead {n : ℕ} (hdb : ∀ m, n ≤ m → db.raises m = true) (key : Key) (row : Row)
    (accessed : Time) (entry : CacheEntry) :
    Triple (fun s : SqliteCacheStore => n ≤ s.connection.statements)
      (writeValueLocked db accessed key entry (some row)) (fun _ _ => False) fun _ => True := by
  set P : SqliteCacheStore → Prop := fun s => n ≤ s.connection.statements with hP
  have hsql : ∀ {α : Type} {f : ℕ → Table → α × Table},
      Triple P (sql (execute db f)) (fun _ _ => False) fun _ => True := by
    intro α f s hs
    rw [sql_apply, if_pos (hdb _ hs)]
    trivial
  refine Triple.read fun s₀ hs₀ => Triple.pre (show Triple P _ _ _ from Triple.ite (fun _ => ?_) fun _ => ?_) ?_
  · exact Triple.stop (Triple.stop hsql)
  · have hevict : Triple (fun s => P s ∧ Crowded false entry.sizeBytes s) (evictLruLocked db) (fun _ => P)
        fun _ => True := (Triple.stop hsql).pre fun _ h => h.1
    refine Triple.bind (makeRoomForBytes_triple hevict) fun b =>
      Triple.ite (fun _ => ?_) fun _ => Triple.stop (Triple.stop hsql)
    -- with an old row the number of items is not looked at
    refine Triple.bind (Q := fun b s => b = true ∧ P s) (Triple.pure fun _ h => ⟨rfl, h⟩) fun b => ?_
    refine Triple.know (fun _ h => h.1) fun hb => ?_
    rw [if_pos hb]
    exact (Triple.stop (Triple.stop hsql)).pre fun _ h => h.2
  · rintro s rfl
    exact hs₀

/-- One of the first three statements that a call makes raises. -/
def RaisesEarly (db : Engine) (s : SqliteCacheStore) : Prop :=
  db.raises s.connection.statements = true ∨ db.raises (s.connection.statements + 1) = true ∨
    db.raises (s.connection.statements + 2) = true

/-- Where a call that writes over a row goes: its key is not valid, or one of its first three
statements raises, or it returns without writing, or it goes on without the old row. -/
inductive Path (db : Engine) (s : SqliteCacheStore) (clock : ℕ → Time) (key : Key) (row : Row) (op : Op) :
    Except PyError Reply × SqliteCacheStore → Prop
  | invalid {x : PyError} (hv : validateKey key = .error x) : Path db s clock key row op (.error x, s)
  | early (n : ℕ) (hv : validateKey key = .ok ()) (h : RaisesEarly db s) :
      Path db s clock key row op (.error .sqliteError, s.ticked n)
  | returned {r : Reply} {t : SqliteCacheStore} (hr : ¬ Replaces clock row op) :
      Path db s clock key row op (.ok r, t)
  | replacing {accessed : Time} {entry : CacheEntry} {f : CacheSetStatus → Reply}
      (hr : Replaces clock row op) (h : ¬ RaisesEarly db s) :
      Path db s clock key row op ((do return f (← writeValueLocked db accessed key entry (some row)))
        ((s.without key row).ticked (s.connection.statements + 3)))

theorem removeEntryLocked_early (db : Engine) (n : ℕ) (hk : s.table.get? key = some row) :
    removeEntryLocked db key (s.ticked n) =
      if db.raises n then (.error .sqliteError, s.ticked (n + 1))
      else if db.raises (n + 1) then (.error .sqliteError, s.ticked (n + 2))
      else (.ok true, (s.without key row).ticked (n + 2)) :=
  removeEntryLocked_apply (s := s.ticked n) hk

theorem storeValueLocked_path {clock : ℕ → Time} {op : Op} {created accessed : Time} {value : Bytes}
    {ttl : Option ℤ} (f : CacheSetStatus → Reply) (hv : validateKey key = .ok ())
    (hk : s.table.get? key = some row) (h₀ : ¬ db.raises s.connection.statements = true)
    (hr : Replaces clock row op) :
    Path db s clock key row op
      ((do return f (← storeValueLocked db created accessed key value ttl (some row)))
        (s.ticked (s.connection.statements + 1))) := by
  have hremove := removeEntryLocked_early db (s.connection.statements + 1) hk
  by_cases h₁ : db.raises (s.connection.statements + 1) = true
  · rw [if_pos h₁] at hremove
    rw [bind_apply, storeValueLocked, bind_apply, removeOld, bind_of_error hremove]
    exact .early _ hv (Or.inr (Or.inl h₁))
  by_cases h₂ : db.raises (s.connection.statements + 1 + 1) = true
  · rw [if_neg h₁, if_pos h₂] at hremove
    rw [bind_apply, storeValueLocked, bind_apply, removeOld, bind_of_error hremove]
    exact .early _ hv (Or.inr (Or.inr h₂))
  · rw [if_neg h₁, if_neg h₂] at hremove
    rw [bind_apply, storeValueLocked, bind_apply, removeOld, bind_of_ok hremove]
    refine .replacing hr ?_
    rintro (h | h | h)
    · exact h₀ h
    · exact h₁ h
    · exact h₂ h

theorem compareAndSet_expired_path {clock : ℕ → Time} {expected value : Bytes} {ttl : Option ℤ}
    (hv : validateKey key = .ok ()) (hk : s.table.get? key = some row)
    (h₀ : ¬ db.raises s.connection.statements = true) (hx : (rowToEntry row).isExpired (clock 0) = true) :
    Path db s clock key row (.compareAndSet key expected value ttl)
      (call db clock (.compareAndSet key expected value ttl) s) := by
  have hget := getRowLocked_apply db key s
  have hremove := removeEntryLocked_early db (s.connection.statements + 1) hk
  rw [if_neg h₀, hk] at hget
  have hnot : ¬ Replaces clock row (.compareAndSet key expected value ttl) := by
    simp [Replaces, hx]
  by_cases h₁ : db.raises (s.connection.statements + 1) = true
  · rw [if_pos h₁] at hremove
    have hrun : call db clock (.compareAndSet key expected value ttl) s =
        (.error .sqliteError, s.ticked (s.connection.statements + 1 + 1)) := by
      simp [call, compareAndSet, bind_apply, hv, hget, isExpired, hx, removeExpiredEntryLocked, hremove]
    rw [hrun]
    exact .early _ hv (Or.inr (Or.inl h₁))
  by_cases h₂ : db.raises (s.connection.statements + 1 + 1) = true
  · rw [if_neg h₁, if_pos h₂] at hremove
    have hrun : call db clock (.compareAndSet key expected value ttl) s =
        (.error .sqliteError, s.ticked (s.connection.statements + 1 + 2)) := by
      simp [call, compareAndSet, bind_apply, hv, hget, isExpired, hx, removeExpiredEntryLocked, hremove]
    rw [hrun]
    exact .early _ hv (Or.inr (Or.inr h₂))
  · rw [if_neg h₁, if_neg h₂] at hremove
    obtain ⟨t, hrun⟩ : ∃ t, call db clock (.compareAndSet key expected value ttl) s =
        (.ok (.conditional .notFound), t) := by
      simp [call, compareAndSet, bind_apply, hv, hget, isExpired, hx, removeExpiredEntryLocked, hremove]
    rw [hrun]
    exact .returned hnot

/-- A call that raises did so early, or after it had deleted the old row. -/
theorem call_path (db : Engine) (clock : ℕ → Time) {op : Op} (hop : op.Writes key)
    (hk : s.table.get? key = some row) : Path db s clock key row op (call db clock op s) := by
  have hget := getRowLocked_apply db key s
  rcases hv : validateKey key with x | _
  · have hrun : call db clock op s = (.error x, s) := by
      cases hop with
      | set value ttl => simp [call, set, bind_apply, hv]
      | compareAndSet expected value ttl => simp [call, compareAndSet, bind_apply, hv]
    rw [hrun]
    exact .invalid hv
  by_cases h₀ : db.raises s.connection.statements = true
  · rw [if_pos h₀] at hget
    have hrun : call db clock op s =
        (.error .sqliteError, s.ticked (s.connection.statements + 1)) := by
      cases hop with
      | set value ttl => simp [call, set, bind_apply, hv, hget]
      | compareAndSet expected value ttl => simp [call, compareAndSet, bind_apply, hv, hget]
    rw [hrun]
    exact .early _ hv (Or.inl h₀)
  rw [if_neg h₀, hk] at hget
  cases hop with
  | set value ttl =>
    have hrun : call db clock (.set key value ttl) s =
        (do return Reply.status (← storeValueLocked db (clock 0) (clock 1) key value ttl (some row)))
          (s.ticked (s.connection.statements + 1)) := by
      simp [call, set, bind_apply, hv, hget]
    rw [hrun]
    exact storeValueLocked_path _ hv hk h₀ hv
  | compareAndSet expected value ttl =>
    cases hx : (rowToEntry row).isExpired (clock 0) with
    | true => exact compareAndSet_expired_path hv hk h₀ hx
    | false =>
      by_cases he : (rowToEntry row).value = expected
      · have hrun : call db clock (.compareAndSet key expected value ttl) s =
            (do return Reply.conditional (conditionalStatusFromSetStatus
              (← storeValueLocked db (clock 1) (clock 2) key value ttl (some row))))
              (s.ticked (s.connection.statements + 1)) := by
          simp [call, compareAndSet, bind_apply, hv, hget, isExpired, hx, he]
          rcases storeValueLocked db (clock 1) (clock 2) key value ttl (some row)
            (s.ticked (s.connection.statements + 1)) with ⟨_ | st, t⟩ <;> rfl
        rw [hrun]
        exact storeValueLocked_path _ hv hk h₀ ⟨hv, hx, he⟩
      · have hrun : call db clock (.compareAndSet key expected value ttl) s =
            (.ok (.conditional .mismatch), s.ticked (s.connection.statements + 1)) := by
          simp [call, compareAndSet, bind_apply, hv, hget, isExpired, hx, he]
        rw [hrun]
        exact .returned fun h => he h.2.2

/-- Where a call raised decides whether the entry is still there. -/
theorem Path.kept_iff {db : Engine} {clock : ℕ → Time} {op : Op} (hop : op.Writes key)
    (hk : s.table.get? key = some row) {x : PyError} {t : SqliteCacheStore}
    (h : Path db s clock key row op (.error x, t)) :
    t.entries key = s.entries key ↔ validateKey key ≠ .ok () ∨ RaisesEarly db s := by
  generalize hy : ((.error x, t) : Except PyError Reply × SqliteCacheStore) = y at h
  cases h with
  | invalid hv =>
    cases hy
    exact iff_of_true rfl (Or.inl (by rw [hv]; simp))
  | early n hv hearly =>
    cases hy
    exact iff_of_true rfl (Or.inr hearly)
  | returned => cases hy
  | replacing hr hlate =>
    have habsent : t.table.get? key = none := by
      rcases bind_error hy.symm with hw | ⟨st, u, -, hpure⟩
      · exact writeValueLocked_error (s := (s.without key row).ticked (s.connection.statements + 3))
          (OrderedDict.get?_erase_self _ _) hw
      · cases hpure
    refine iff_of_false ?_ ?_
    · rw [entries, entries, habsent, hk]
      simp
    · rintro (hv | hearly)
      · exact hv (hr.valid hop)
      · exact hlate hearly

/-- A call that does not go on to replace the row raises early or not at all. -/
theorem Path.raises_early {db : Engine} {clock : ℕ → Time} {op : Op} {x : PyError} {t : SqliteCacheStore}
    (h : Path db s clock key row op (.error x, t)) (hnot : ¬ Replaces clock row op) :
    validateKey key ≠ .ok () ∨ RaisesEarly db s := by
  generalize hy : ((.error x, t) : Except PyError Reply × SqliteCacheStore) = y at h
  cases h with
  | invalid hv => exact Or.inl (by rw [hv]; simp)
  | early n hv hearly => exact Or.inr hearly
  | returned => cases hy
  | replacing hr => exact absurd hr hnot

/-- A call that goes on to replace the row does not return where every later statement raises. -/
theorem Path.not_returned {db : Engine} {clock : ℕ → Time} {op : Op} {r : Reply} {t : SqliteCacheStore}
    (h : Path db s clock key row op (.ok r, t)) (hr : Replaces clock row op)
    (hall : ∀ m, s.connection.statements + 3 ≤ m → db.raises m = true) : False := by
  generalize hy : ((.ok r, t) : Except PyError Reply × SqliteCacheStore) = y at h
  cases h with
  | invalid => cases hy
  | early => cases hy
  | returned hnot => exact hnot hr
  | @replacing accessed entry _ _ _ =>
    obtain ⟨st, u, hw, -⟩ := bind_ok hy.symm
    have hdead := writeValueLocked_dead hall key row accessed entry
      ((s.without key row).ticked (s.connection.statements + 3)) le_rfl
    rw [hw] at hdead
    exact hdead

/-- When a call that writes over an entry raises, the entry is still there exactly if the
failure came before its row was deleted; and only calls that do not go on to replace it
are safe wherever a statement raises. -/
theorem failed_write_keeps_entry {clock : ℕ → Time} {op : Op} (hop : op.Writes key)
    (hk : s.table.get? key = some row) :
    (∀ db x t, call db clock op s = (.error x, t) →
      (t.entries key = s.entries key ↔ validateKey key ≠ .ok () ∨ RaisesEarly db s)) ∧
    ((∀ db x t, call db clock op s = (.error x, t) → t.entries key = s.entries key) ↔
      ¬ Replaces clock row op) := by
  have hpath : ∀ db x t, call db clock op s = (.error x, t) →
      Path db s clock key row op (.error x, t) := fun db x t h => h ▸ call_path db clock hop hk
  refine ⟨fun db x t h => (hpath db x t h).kept_iff hop hk, ?_, ?_⟩
  · intro hkept hr
    -- every statement after the deletion raises
    set db : Engine := ⟨fun m => decide (s.connection.statements + 3 ≤ m), fun _ => 0⟩ with hdb
    have hlate : ¬ RaisesEarly db s := by
      simp [RaisesEarly, hdb]
    rcases hcall : call db clock op s with ⟨x | r, t⟩
    · rcases ((hpath db x t hcall).kept_iff hop hk).mp (hkept db x t hcall) with hv | hearly
      · exact hv (hr.valid hop)
      · exact hlate hearly
    · have hreturned : Path db s clock key row op (.ok r, t) := hcall ▸ call_path db clock hop hk
      exact hreturned.not_returned hr fun m hm => decide_eq_true hm
  · intro hnot db x t h
    exact ((hpath db x t h).kept_iff hop hk).mpr ((hpath db x t h).raises_early hnot)

/-- The store after a first session on a new database has written `a`. -/
theorem failed_write_keeps_entry_run :
    ∃ s row, Machine.exec (World.step ⟨fun _ => false, fun _ => 0⟩) World.new
        [.reopen ⟨some 2, some 1, some 10, some 40⟩, .call ((Op.set "a" [1] none).atTime 0)] =
        .opened s ∧ s.table.get? "a" = some row ∧
      (∀ db x t, call db (fun _ => 1) (.compareAndSet "a" [9] [2] none) s = (.error x, t) →
        (t.entries "a" = s.entries "a" ↔ validateKey "a" ≠ .ok () ∨ RaisesEarly db s)) ∧
      ((∀ db x t, call db (fun _ => 1) (.compareAndSet "a" [9] [2] none) s = (.error x, t) →
        t.entries "a" = s.entries "a") ↔
          ¬ Replaces (fun _ => 1) row (.compareAndSet "a" [9] [2] none)) := by
  have hrun : Machine.exec (World.step ⟨fun _ => false, fun _ => 0⟩) World.new
      [.reopen ⟨some 2, some 1, some 10, some 40⟩, .call ((Op.set "a" [1] none).atTime 0)] =
      .opened _ := rfl
  exact ⟨_, _, hrun, rfl, failed_write_keeps_entry (.compareAndSet [9] [2] none) rfl⟩

/-- The insertion that is to replace the row of `a` raises: the call raises and `a` is gone. -/
theorem failed_write_loses_entry :
    ¬ ∀ (db : Engine) (events : List SessionEvent) (s : SqliteCacheStore),
      Machine.exec (World.step db) World.new events = .opened s →
        ∀ (clock : ℕ → Time) (op : Op) (key : Key), op.Writes key → (s.table.get? key).isSome →
          ∀ x t, call db clock op s = (.error x, t) → t.entries key = s.entries key := by
  intro h
  have hrun : Machine.exec (World.step ⟨fun n => n == 11, fun _ => 0⟩) World.new
      [.reopen ⟨some 2, some 1, some 10, some 40⟩, .call ((Op.set "a" [1] none).atTime 0)] =
      .opened _ := rfl
  have hkept := h _ _ _ hrun (fun _ => 1) (.set "a" [2] none) "a" (.set [2] none) rfl .sqliteError _ rfl
  cases hkept

end SqliteCacheStore

end TinyCache
