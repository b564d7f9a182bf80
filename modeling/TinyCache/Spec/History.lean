import TinyCache.Spec.Cache

/-! The history of a run: which writes were accepted, which of them was the last to a
key, and the ways in which an entry can go. -/

namespace TinyCache

/-- An accepted write, with the reading it was stamped with. -/
structure Write where
  key : Key
  value : Bytes
  ttl : Option ℤ
  time : Time

def Write.entry (w : Write) : CacheEntry := .new w.value w.ttl w.time

/-- The write has no TTL, a TTL that is not positive, or one that has not run out. -/
def Write.Live (w : Write) (now : Time) : Prop :=
  ∀ ttl, w.ttl = some ttl → 0 < ttl → now - w.time < ttl

theorem Write.live_iff (w : Write) (now : Time) : w.Live now ↔ w.entry.isExpired now = false := by
  rw [← Bool.not_eq_true, Write.entry, CacheEntry.isExpired_new]
  unfold Write.Live
  push Not
  exact Iff.rfl

/-- The write that `OK` or `STORED` reports. `set` stamps its entry with its first
reading; the conditional writes have by then used one to look for an expired entry. -/
def accepted? (event : Event) : Except PyError Reply → Option Write
  | .ok (.status .ok) =>
    match event.action with
    | .client (.set key value ttl) => some ⟨key, value, ttl, event.clock 0⟩
    | _ => none
  | .ok (.conditional .stored) =>
    match event.action with
    | .client (.setIfAbsent key value ttl) => some ⟨key, value, ttl, event.clock 1⟩
    | .client (.compareAndSet key _ value ttl) => some ⟨key, value, ttl, event.clock 1⟩
    | _ => none
  | _ => none

theorem accepted?_key {event : Event} {reply : Except PyError Reply} {w : Write}
    (h : accepted? event reply = some w) :
    ∃ op, event.action = .client op ∧ op.key? = some w.key := by
  unfold accepted? at h
  split at h
  · split at h
    · next haction =>
      cases h
      exact ⟨_, haction, rfl⟩
    · cases h
  · split at h
    · next haction =>
      cases h
      exact ⟨_, haction, rfl⟩
    · next haction =>
      cases h
      exact ⟨_, haction, rfl⟩
    · cases h
  · cases h

/-- `w` is the last write to `key` in the history, and `since` what came after it. -/
def LastWriteBy {α : Type} (write? : α → Option Write) (key : Key) (history : List α) (w : Write)
    (since : List α) : Prop :=
  ∃ before r, history = before ++ r :: since ∧ write? r = some w ∧ w.key = key ∧
    ∀ q ∈ since, ¬ ∃ w', write? q = some w' ∧ w'.key = key

abbrev Obs (σ : Type) := Machine.Step σ Event (Except PyError Reply)

section

variable {σ : Type}

def Obs.write? (r : Obs σ) : Option Write := accepted? r.input r.output

def Obs.Writes (r : Obs σ) (key : Key) : Prop := ∃ w, r.write? = some w ∧ w.key = key

/-- The last accepted write of a run. -/
abbrev LastWrite (key : Key) (history : List (Obs σ)) (w : Write) (since : List (Obs σ)) : Prop :=
  LastWriteBy Obs.write? key history w since

/-- The step is a `delete` of `key` that found it, or a `clear`. -/
def Obs.Removes (r : Obs σ) (key : Key) : Prop :=
  (r.input.action = .client (.delete key) ∧ r.output = .ok (.deleted true)) ∨
    r.input.action = .client .clear

/-- The step raised half way. -/
def Obs.Fails (r : Obs σ) : Prop := r.input.action.KeyValid ∧ ∃ x, r.output = .error x

end

/-- The ways in which the entry of `key` goes without being written over. -/
inductive Loss (key : Key) (event : Event) (reply : Except PyError Reply) (m m' : Entries) : Prop
  | deleted (ha : event.action = .client (.delete key)) (hr : reply = .ok (.deleted true))
  | cleared (ha : event.action = .client .clear) (hr : reply = .ok .done)
  | evicted {w : Write} (hw : accepted? event reply = some w) (hne : w.key ≠ key)
      (hb : (m key).isSome) (ha : m' key = none)
  | expired {e : CacheEntry} {i : ℕ} (hb : m key = some e) (hi : i = 0 ∨ event.action = .client .stats)
      (hx : e.isExpired (event.clock i) = true)

/-- The entry of `key` goes in this step. -/
def Obs.Loses {σ : Type} (r : Obs σ) (entries : σ → Entries) (key : Key) : Prop :=
  Loss key r.input r.output (entries r.before) (entries r.after)

/-- What conditional writes are for. Between two `set_if_absent` that stored, the entry of
the key went, or was found expired by the second; a `compare_and_set` that stored found
the entry of the last accepted write, live and there ever since; and one that did neither
left what is live as it was. -/
structure NoLostUpdates {σ : Type} (entries : σ → Entries) (history : List (Obs σ)) : Prop where
  setIfAbsent : ∀ pre mid post q₁ q₂ key v₁ ttl₁ v₂ ttl₂,
    history = pre ++ q₁ :: mid ++ q₂ :: post →
    q₁.input.action = .client (.setIfAbsent key v₁ ttl₁) → q₁.output = .ok (.conditional .stored) →
    q₂.input.action = .client (.setIfAbsent key v₂ ttl₂) → q₂.output = .ok (.conditional .stored) →
    (∃ r ∈ mid, entries r.before key ≠ none ∧ entries r.after key = none ∧
      (r.Loses entries key ∨ r.Fails)) ∨
    ∃ e, entries q₂.before key = some e ∧ e.isExpired (q₂.input.clock 0) = true
  compareAndSet : ∀ pre post q key expected value ttl, history = pre ++ q :: post →
    q.input.action = .client (.compareAndSet key expected value ttl) →
    q.output = .ok (.conditional .stored) →
    ∃ w since, LastWrite key pre w since ∧ w.value = expected ∧ w.Live (q.input.clock 0) ∧
      entries q.before key = some w.entry ∧
      ∀ r ∈ since, entries r.after key = some w.entry ∧ ¬ r.Loses entries key
  unchanged : ∀ q ∈ history,
    ((∃ key value ttl, q.input.action = .client (.setIfAbsent key value ttl)) ∧
        q.output = .ok (.conditional .exists_) ∨
      (∃ key expected value ttl, q.input.action = .client (.compareAndSet key expected value ttl)) ∧
        (q.output = .ok (.conditional .mismatch) ∨ q.output = .ok (.conditional .notFound))) →
    ∀ x, (∀ e, entries q.before x = some e → e.isExpired (q.input.clock 0) = false) →
      entries q.after x = entries q.before x

end TinyCache
