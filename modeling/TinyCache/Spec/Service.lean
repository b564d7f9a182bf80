import TinyCache.Library.Act
import TinyCache.Library.Framing
import TinyCache.Spec.History

/-! The application service: it checks keys and namespaces, makes one storage key of
both and hands the operation to a store, about which it knows nothing. -/

namespace TinyCache

/-- A call of the service. -/
inductive Request
  | get (key : Key) (namespace_ : Option String)
  | set (key : Key) (value : Bytes) (ttlSeconds : ℤ) (namespace_ : Option String)
  | setIfAbsent (key : Key) (value : Bytes) (ttlSeconds : ℤ) (namespace_ : Option String)
  | compareAndSet (key : Key) (expectedValue value : Bytes) (ttlSeconds : ℤ)
      (namespace_ : Option String)
  | delete (key : Key) (namespace_ : Option String)
  | stats

/-- A call, or one removal by the cleaner of the store behind the service. -/
inductive ServiceEvent
  | request (request : Request) (clock : ℕ → Time)
  | cleaner (key : Key) (clock : ℕ → Time)

namespace CacheApplicationService

def storageKey (key : Key) (namespace_ : Option String) : Except PyError Key := do
  validateKey key
  match ← validateNamespace namespace_ with
  | none => return key
  | some normalizedNamespace =>
    let length := normalizedNamespace.length
    let storageKey := s!"{length}:{normalizedNamespace}:{key}"
    let added := storageKey.length - key.length
    if storageKey.length > MAX_KEY_LENGTH then
      .error (.valueError ("Namespaced key is too long " ++
        s!"(max storage key length {MAX_KEY_LENGTH}; " ++
        s!"namespace prefix adds {added} characters)"))
    else return storageKey

variable {σ : Type} (store : σ → Event → Except PyError Reply × σ)

/-- `self.store.op(..)` -/
def port (clock : ℕ → Time) (op : Op) : Act PyError σ Reply := fun s => store s ⟨.client op, clock⟩

def get (clock : ℕ → Time) (key : Key) (namespace_ : Option String) : Act PyError σ Reply := do
  port store clock (.get (← .check (storageKey key namespace_)))

def set (clock : ℕ → Time) (key : Key) (value : Bytes) (ttlSeconds : ℤ)
    (namespace_ : Option String) : Act PyError σ Reply := do
  let ttl := if ttlSeconds > 0 then some ttlSeconds else none
  port store clock (.set (← .check (storageKey key namespace_)) value ttl)

def setIfAbsent (clock : ℕ → Time) (key : Key) (value : Bytes) (ttlSeconds : ℤ)
    (namespace_ : Option String) : Act PyError σ Reply := do
  let ttl := if ttlSeconds > 0 then some ttlSeconds else none
  port store clock (.setIfAbsent (← .check (storageKey key namespace_)) value ttl)

def compareAndSet (clock : ℕ → Time) (key : Key) (expectedValue value : Bytes) (ttlSeconds : ℤ)
    (namespace_ : Option String) : Act PyError σ Reply := do
  let ttl := if ttlSeconds > 0 then some ttlSeconds else none
  port store clock (.compareAndSet (← .check (storageKey key namespace_)) expectedValue value ttl)

def delete (clock : ℕ → Time) (key : Key) (namespace_ : Option String) : Act PyError σ Reply := do
  port store clock (.delete (← .check (storageKey key namespace_)))

def stats (clock : ℕ → Time) : Act PyError σ Reply := port store clock .stats

def step (self : σ) : ServiceEvent → Except PyError Reply × σ
  | .request (.get key namespace_) clock => get store clock key namespace_ self
  | .request (.set key value ttlSeconds namespace_) clock =>
    set store clock key value ttlSeconds namespace_ self
  | .request (.setIfAbsent key value ttlSeconds namespace_) clock =>
    setIfAbsent store clock key value ttlSeconds namespace_ self
  | .request (.compareAndSet key expectedValue value ttlSeconds namespace_) clock =>
    compareAndSet store clock key expectedValue value ttlSeconds namespace_ self
  | .request (.delete key namespace_) clock => delete store clock key namespace_ self
  | .request .stats clock => stats store clock self
  | .cleaner key clock => store self ⟨.cleaner key, clock⟩

end CacheApplicationService

/-- The operation of the store that a call comes down to. -/
def Request.op : Request → Except PyError Op
  | .get key namespace_ => return .get (← CacheApplicationService.storageKey key namespace_)
  | .set key value ttlSeconds namespace_ => do
    let ttl := if ttlSeconds > 0 then some ttlSeconds else none
    return .set (← CacheApplicationService.storageKey key namespace_) value ttl
  | .setIfAbsent key value ttlSeconds namespace_ => do
    let ttl := if ttlSeconds > 0 then some ttlSeconds else none
    return .setIfAbsent (← CacheApplicationService.storageKey key namespace_) value ttl
  | .compareAndSet key expectedValue value ttlSeconds namespace_ => do
    let ttl := if ttlSeconds > 0 then some ttlSeconds else none
    return .compareAndSet (← CacheApplicationService.storageKey key namespace_) expectedValue value ttl
  | .delete key namespace_ => return .delete (← CacheApplicationService.storageKey key namespace_)
  | .stats => return .stats

def ServiceEvent.storeEvent : ServiceEvent → Except PyError Event
  | .request r clock => do return ⟨.client (← r.op), clock⟩
  | .cleaner key clock => return ⟨.cleaner key, clock⟩

/-- The key and the namespace that a call names. -/
def Request.target? : Request → Option (Key × Option String)
  | .get key namespace_ | .set key _ _ namespace_ | .setIfAbsent key _ _ namespace_
  | .compareAndSet key _ _ _ namespace_ | .delete key namespace_ => some (key, namespace_)
  | .stats => none

def ServiceEvent.target? : ServiceEvent → Option (Key × Option String)
  | .request r _ => r.target?
  | .cleaner _ _ => none

/-- The namespace of a call, if it carries one that is accepted. -/
def ServiceEvent.space? (event : ServiceEvent) : Option String :=
  event.target?.bind fun p =>
    match validateNamespace p.2 with
    | .ok space => space
    | .error _ => none

/-- What a client means by a key: a shared one, or one of a namespace. -/
structure Address where
  space : Option String
  key : Key
  deriving DecidableEq

namespace Address

/-- The address of a key that is accepted in a namespace. -/
def of? (key : Key) (namespace_ : Option String) : Option Address :=
  match CacheApplicationService.storageKey key namespace_, validateNamespace namespace_ with
  | .ok _, .ok space => some ⟨space, key⟩
  | _, _ => none

/-- The place of an address in the store. -/
def storageKey : Address → Key
  | ⟨none, key⟩ => key
  | ⟨some normalizedNamespace, key⟩ =>
    let length := normalizedNamespace.length
    s!"{length}:{normalizedNamespace}:{key}"

/-- Some call can have this address. -/
def Accepted (a : Address) : Prop := ∃ key namespace_, of? key namespace_ = some a

end Address

def ServiceEvent.address? (event : ServiceEvent) : Option Address :=
  event.target?.bind fun p => Address.of? p.1 p.2

/-- The key reads `len:name:rest` with a decimal length of at most 64, a name of that length
that could be a namespace, and something after the second colon. -/
def looksNamespaced (key : Key) : Bool :=
  (List.range (MAX_NAMESPACE_LENGTH + 1)).any fun n =>
    match (@decimal ':' rfl).unframe? n key.toList with
    | some (name, rest) => matchesNamespacePattern (.ofList name) && !rest.isEmpty
    | none => false

/-- Not a shared key that looks like one of a namespace. -/
def Address.Plain (a : Address) : Prop := a.space = none → looksNamespaced a.key = false

abbrev ServiceObs (σ : Type) := Machine.Step σ ServiceEvent (Except PyError Reply)

section

variable {σ : Type}

def ServiceObs.write? (r : ServiceObs σ) : Option Write :=
  match r.input.storeEvent with
  | .ok event => accepted? event r.output
  | .error _ => none

/-- No call touches what belongs to another address. Whatever it finds at its place was
written under its own address, last of all writes to that place; and what is at the place of
another address stays there, unless the call evicts it. -/
structure Isolated (entries : σ → Entries) (evicted : ServiceObs σ → Key → Prop)
    (history : List (ServiceObs σ)) : Prop where
  found : ∀ pre post r a e, history = pre ++ r :: post → r.input.address? = some a →
    entries r.before a.storageKey = some e →
    ∃ w since, LastWriteBy ServiceObs.write? a.storageKey pre w since ∧ w.entry = e ∧
      ∃ q ∈ pre, q.write? = some w ∧ q.input.address? = some a
  returned : ∀ pre post r a key namespace_ clock v, history = pre ++ r :: post →
    r.input = .request (.get key namespace_) clock → r.input.address? = some a →
    r.output = .ok (.value (some v)) →
    ∃ q ∈ pre, q.input.address? = some a ∧ ∃ w, q.write? = some w ∧ w.value = v
  kept : ∀ r ∈ history, ∀ a b, r.input.address? = some a → b ≠ a → b.Accepted → b.Plain →
    entries r.after b.storageKey = entries r.before b.storageKey ∨
      entries r.after b.storageKey = none ∧ evicted r b.storageKey

end

end TinyCache
