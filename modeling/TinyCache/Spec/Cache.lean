import Mathlib.Logic.Function.Basic
import TinyCache.Library.Machine
import TinyCache.Spec.Models

/-! What a cache is for, independent of how it is stored: a map from keys to entries
that answers from the live entry of a key, and may lose the entries of other keys
when it accepts a write. -/

namespace TinyCache

abbrev Entries := Key → Option CacheEntry

namespace Entries

def empty : Entries := fun _ => none

def erase (m : Entries) (key : Key) : Entries := Function.update m key none

/-- The map once an expired entry of `key` is removed. -/
def purge (m : Entries) (now : Time) (key : Key) : Entries :=
  if (m key).any (CacheEntry.isExpired now) then m.erase key else m

@[simp] theorem erase_self (m : Entries) (key : Key) : m.erase key key = none := by
  simp [erase]

theorem erase_of_ne (m : Entries) {key x : Key} (h : x ≠ key) : m.erase key x = m x := by
  simp [erase, h]

theorem purge_self (m : Entries) (now : Time) (key : Key) :
    m.purge now key key = (m key).filter fun e => !e.isExpired now := by
  unfold purge
  cases h : m key with
  | none => simp [h]
  | some e => cases hx : e.isExpired now <;> simp [h, hx, Option.filter]

theorem purge_of_ne (m : Entries) (now : Time) {key x : Key} (h : x ≠ key) :
    m.purge now key x = m x := by
  unfold purge
  split_ifs
  · exact m.erase_of_ne h
  · rfl

/-- What is left of `key` is there and live. -/
theorem purge_eq_some {m : Entries} {now : Time} {key : Key} {e : CacheEntry} :
    m.purge now key key = some e ↔ m key = some e ∧ e.isExpired now = false := by
  rw [purge_self, Option.filter_eq_some_iff]
  simp

theorem purge_eq_none {m : Entries} {now : Time} {key : Key} :
    m.purge now key key = none ↔ ∀ e, m key = some e → e.isExpired now = true := by
  rw [purge_self, Option.filter_eq_none_iff]
  simp

/-- Nothing is removed while `key` has no expired entry. -/
theorem purge_eq_self {m : Entries} {now : Time} {key : Key}
    (h : ∀ e, m key = some e → e.isExpired now = false) : m.purge now key = m := by
  unfold purge
  cases hk : m key with
  | none => simp
  | some e => simp [h e hk]

theorem purge_eq_erase {m : Entries} {now : Time} {key : Key} {e : CacheEntry} (h : m key = some e)
    (hx : e.isExpired now = true) : m.purge now key = m.erase key := by
  simp [purge, h, hx]

end Entries

/-- A write of a value at the reading `now`: turned away if the value is too large,
else stored, at the price of some other entries. -/
inductive Written (maxValueBytes : ℤ) (now : Time) (key : Key) (value : Bytes) (ttl : Option ℤ)
    (m : Entries) : CacheSetStatus → Entries → Prop
  | tooLarge (h : getsizeof value > maxValueBytes) :
      Written maxValueBytes now key value ttl m .valueTooLarge m
  | stored {m' : Entries} (h : getsizeof value ≤ maxValueBytes)
      (hkey : m' key = some (CacheEntry.new value ttl now))
      (hrest : ∀ x, x ≠ key → m' x = m x ∨ m' x = none) :
      Written maxValueBytes now key value ttl m .ok m'

/-- The steps a cache may take. One that fails half way may have lost entries. -/
inductive Allowed (maxValueBytes : ℤ) (clock : ℕ → Time) (m : Entries) :
    Action → Except PyError Reply → Entries → Prop
  | invalid {op : Op} {key : Key} {x : PyError} (hk : op.key? = some key)
      (hv : validateKey key = .error x) : Allowed maxValueBytes clock m (.client op) (.error x) m
  | failed {action : Action} {x : PyError} {m' : Entries} (hv : action.KeyValid)
      (h : ∀ key, m' key = m key ∨ m' key = none) : Allowed maxValueBytes clock m action (.error x) m'
  | get {key : Key} (hv : validateKey key = .ok ()) :
      Allowed maxValueBytes clock m (.client (.get key))
        (.ok (.value ((m.purge (clock 0) key key).map CacheEntry.value))) (m.purge (clock 0) key)
  | set {key : Key} {value : Bytes} {ttl : Option ℤ} {st : CacheSetStatus} {m' : Entries}
      (hv : validateKey key = .ok ()) (hw : Written maxValueBytes (clock 0) key value ttl m st m') :
      Allowed maxValueBytes clock m (.client (.set key value ttl)) (.ok (.status st)) m'
  | setIfAbsentExists {key : Key} {value : Bytes} {ttl : Option ℤ} {e : CacheEntry}
      (hv : validateKey key = .ok ()) (h : m.purge (clock 0) key key = some e) :
      Allowed maxValueBytes clock m (.client (.setIfAbsent key value ttl))
        (.ok (.conditional .exists_)) (m.purge (clock 0) key)
  | setIfAbsent {key : Key} {value : Bytes} {ttl : Option ℤ} {st : CacheSetStatus} {m' : Entries}
      (hv : validateKey key = .ok ()) (h : m.purge (clock 0) key key = none)
      (hw : Written maxValueBytes (clock 1) key value ttl (m.purge (clock 0) key) st m') :
      Allowed maxValueBytes clock m (.client (.setIfAbsent key value ttl))
        (.ok (.conditional (conditionalStatusFromSetStatus st))) m'
  | compareAndSetMissing {key : Key} {expected value : Bytes} {ttl : Option ℤ}
      (hv : validateKey key = .ok ()) (h : m.purge (clock 0) key key = none) :
      Allowed maxValueBytes clock m (.client (.compareAndSet key expected value ttl))
        (.ok (.conditional .notFound)) (m.purge (clock 0) key)
  | compareAndSetMismatch {key : Key} {expected value : Bytes} {ttl : Option ℤ} {e : CacheEntry}
      (hv : validateKey key = .ok ()) (h : m.purge (clock 0) key key = some e)
      (hne : e.value ≠ expected) :
      Allowed maxValueBytes clock m (.client (.compareAndSet key expected value ttl))
        (.ok (.conditional .mismatch)) (m.purge (clock 0) key)
  | compareAndSet {key : Key} {expected value : Bytes} {ttl : Option ℤ} {e : CacheEntry}
      {st : CacheSetStatus} {m' : Entries} (hv : validateKey key = .ok ())
      (h : m.purge (clock 0) key key = some e) (he : e.value = expected)
      (hw : Written maxValueBytes (clock 1) key value ttl (m.purge (clock 0) key) st m') :
      Allowed maxValueBytes clock m (.client (.compareAndSet key expected value ttl))
        (.ok (.conditional (conditionalStatusFromSetStatus st))) m'
  | delete {key : Key} (hv : validateKey key = .ok ()) :
      Allowed maxValueBytes clock m (.client (.delete key)) (.ok (.deleted (m key).isSome))
        (m.erase key)
  | stats {snapshot : CacheStatsSnapshot} {m' : Entries}
      (h : ∀ x, m' x = m x ∨ ∃ i, m' x = m.purge (clock i) x x) :
      Allowed maxValueBytes clock m (.client .stats) (.ok (.stats snapshot)) m'
  | clear : Allowed maxValueBytes clock m (.client .clear) (.ok .done) .empty
  | cleaner {key : Key} :
      Allowed maxValueBytes clock m (.cleaner key) (.ok .done) (m.purge (clock 0) key)

theorem Allowed.of_eq {maxValueBytes : ℤ} {clock : ℕ → Time} {m m₁ m₂ : Entries} {action : Action}
    {r₁ r₂ : Except PyError Reply} (h : Allowed maxValueBytes clock m action r₁ m₁) (hr : r₁ = r₂)
    (hm : m₁ = m₂) : Allowed maxValueBytes clock m action r₂ m₂ := by
  subst hr hm
  exact h

/-- Whether a value is admitted, which no other entry has a say in. -/
def admission (maxValueBytes : ℤ) (value : Bytes) : CacheSetStatus :=
  if getsizeof value > maxValueBytes then .valueTooLarge else .ok

/-- What an operation answers, and what it leaves of its own key: neither depends on
anything else in the cache. -/
def Op.onCell (maxValueBytes : ℤ) (clock : ℕ → Time) (old : Option CacheEntry) :
    Op → Reply × Option CacheEntry :=
  let live := old.filter fun e => !e.isExpired (clock 0)
  let write value ttl (now : Time) (kept : Option CacheEntry) :=
    if getsizeof value > maxValueBytes then kept else some (.new value ttl now)
  fun
  | .get _ => (.value (live.map CacheEntry.value), live)
  | .set _ value ttl => (.status (admission maxValueBytes value), write value ttl (clock 0) old)
  | .setIfAbsent _ value ttl =>
    if live.isSome then (.conditional .exists_, live)
    else (.conditional (conditionalStatusFromSetStatus (admission maxValueBytes value)),
      write value ttl (clock 1) none)
  | .compareAndSet _ expectedValue value ttl =>
    match live with
    | none => (.conditional .notFound, none)
    | some e =>
      if e.value ≠ expectedValue then (.conditional .mismatch, live)
      else (.conditional (conditionalStatusFromSetStatus (admission maxValueBytes value)),
        write value ttl (clock 1) live)
  | .delete _ => (.deleted old.isSome, none)
  | .stats | .clear => (.done, old)

theorem Written.onCell {maxValueBytes : ℤ} {now : Time} {key : Key} {value : Bytes} {ttl : Option ℤ}
    {m m' : Entries} {st : CacheSetStatus} (h : Written maxValueBytes now key value ttl m st m') :
    st = admission maxValueBytes value ∧
      m' key = if getsizeof value > maxValueBytes then m key else some (.new value ttl now) := by
  cases h with
  | tooLarge h => exact ⟨(if_pos h).symm, (if_pos h).symm⟩
  | stored h hkey => exact ⟨(if_neg (not_lt.mpr h)).symm, hkey.trans (if_neg (not_lt.mpr h)).symm⟩

/-- A cache treats the key of an operation as a cell of its own. -/
theorem Allowed.onCell {maxValueBytes : ℤ} {clock : ℕ → Time} {m m' : Entries} {op : Op}
    {reply : Reply} (h : Allowed maxValueBytes clock m (.client op) (.ok reply) m') {key : Key}
    (hk : op.key? = some key) : (reply, m' key) = op.onCell maxValueBytes clock (m key) := by
  cases h with
  | get =>
    cases hk
    rw [Op.onCell, Entries.purge_self]
  | set _ hw =>
    cases hk
    obtain ⟨rfl, hkey⟩ := hw.onCell
    rw [hkey, Op.onCell]
  | setIfAbsentExists _ he =>
    cases hk
    rw [Entries.purge_self] at he ⊢
    simp [Op.onCell, he]
  | setIfAbsent _ he hw =>
    cases hk
    obtain ⟨rfl, hkey⟩ := hw.onCell
    rw [he] at hkey
    rw [Entries.purge_self] at he
    simp [Op.onCell, he, hkey]
  | compareAndSetMissing _ he =>
    cases hk
    rw [Entries.purge_self] at he ⊢
    simp [Op.onCell, he]
  | compareAndSetMismatch _ he hne =>
    cases hk
    rw [Entries.purge_self] at he ⊢
    simp [Op.onCell, he, hne]
  | compareAndSet _ he heq hw =>
    cases hk
    obtain ⟨rfl, hkey⟩ := hw.onCell
    rw [he] at hkey
    rw [Entries.purge_self] at he
    simp [Op.onCell, he, heq, hkey]
  | delete =>
    cases hk
    rw [Entries.erase_self, Op.onCell]
  | stats | clear => cases hk

/-- A call that answers had a valid key. -/
theorem Allowed.valid {maxValueBytes : ℤ} {clock : ℕ → Time} {m m' : Entries} {op : Op} {reply : Reply}
    (h : Allowed maxValueBytes clock m (.client op) (.ok reply) m') {key : Key}
    (hk : op.key? = some key) : validateKey key = .ok () := by
  cases h with
  | stats | clear => cases hk
  | _ =>
    cases hk
    assumption

/-- A call stops at its key, or fails half way, or answers from its own cell. -/
theorem Allowed.answer {maxValueBytes : ℤ} {clock : ℕ → Time} {m m' : Entries} {op : Op}
    {out : Except PyError Reply} (h : Allowed maxValueBytes clock m (.client op) out m')
    (hok : ¬ ((Action.client op).KeyValid ∧ ∃ x, out = .error x)) {key : Key} (hk : op.key? = some key) :
    out = (validateKey key).map fun _ => (op.onCell maxValueBytes clock (m key)).1 := by
  rcases out with x | reply
  · cases h with
    | invalid hk' hv =>
      rw [hk, Option.some.injEq] at hk'
      rw [hk', hv]
      rfl
    | failed hv => exact absurd ⟨hv, x, rfl⟩ hok
  · rw [h.valid hk, ← h.onCell hk]
    rfl

/-- A machine whose entries, from the empty map on, move as a cache's may. -/
structure Refines {σ : Type} (step : σ → Event → Except PyError Reply × σ) (entries : σ → Entries)
    (maxValueBytes : ℤ) (Inv : σ → Prop) (s₀ : σ) : Prop where
  empty : entries s₀ = .empty
  init : Inv s₀
  keeps : ∀ s e, Inv s → Inv (step s e).2
  allowed : ∀ s e, Inv s →
    Allowed maxValueBytes e.clock (entries s) e.action (step s e).1 (entries (step s e).2)

end TinyCache
