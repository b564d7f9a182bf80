import TinyCache.Spec.Service

/-! The gRPC service: a handler takes a namespace off the metadata, calls the application,
and turns what that returns or raises into a message and a status. What is only logged is
left out, and a handler is one step, since the application is called on a thread of its
own. -/

namespace TinyCache

/-- Exceptions as the service tells them apart: a `ValueError`, or any other. -/
inductive Exn
  | valueError (message : String)
  | other

def PyError.toExn : PyError → Exn
  | .valueError message => .valueError message
  | .sqliteError => .other

inductive CacheStatus
  | unspecified
  | ok
  | error
  deriving DecidableEq

inductive ConditionalCacheStatus
  | unspecified
  | stored
  | exists_
  | notFound
  | mismatch
  deriving DecidableEq

structure CacheItem where
  key : Key
  value : Bytes
  ttl : ℤ

structure CompareAndSetRequest where
  key : Key
  expectedValue : Bytes
  value : Bytes
  ttl : ℤ

structure CacheValue where
  found : Bool := false
  value : Bytes := []
  deriving DecidableEq

structure CacheResponse where
  status : CacheStatus := .unspecified
  deriving DecidableEq

structure ConditionalCacheResponse where
  status : ConditionalCacheStatus := .unspecified
  deriving DecidableEq

structure CacheLookup where
  key : Key
  found : Bool := false
  value : Bytes := []
  error : String := ""
  deriving DecidableEq

structure CacheOperationResult where
  key : Key
  status : CacheStatus := .unspecified
  error : String := ""
  deriving DecidableEq

/-- What a lookup of the application returns; only bytes can be sent. -/
inductive Lookup
  | missing
  | bytes (value : Bytes)
  | other

/-- An application, as a machine over its own state. -/
structure CacheApp (σ : Type) where
  get : Key → Option String → Act Exn σ Lookup
  set : Key → Bytes → ℤ → Option String → Act Exn σ CacheSetStatus
  setIfAbsent : Key → Bytes → ℤ → Option String → Act Exn σ CacheConditionalSetStatus
  compareAndSet : Key → Bytes → Bytes → ℤ → Option String → Act Exn σ CacheConditionalSetStatus
  delete : Key → Option String → Act Exn σ Bool
  stats : Act Exn σ CacheStatsSnapshot

/-- The application service of the repository over a store, with the readings that the next
call gets. -/
def CacheApplicationService.app {σ : Type} (store : σ → Event → Except PyError Reply × σ)
    (clock : ℕ → Time) : CacheApp σ where
  get key namespace_ := do
    match ← (get store clock key namespace_).mapError PyError.toExn with
    | .value none => return .missing
    | .value (some value) => return .bytes value
    | _ => return .other
  set key value ttlSeconds namespace_ := do
    match ← (set store clock key value ttlSeconds namespace_).mapError PyError.toExn with
    | .status status => return status
    | _ => .raise .other
  setIfAbsent key value ttlSeconds namespace_ := do
    match ← (setIfAbsent store clock key value ttlSeconds namespace_).mapError PyError.toExn with
    | .conditional status => return status
    | _ => .raise .other
  compareAndSet key expectedValue value ttlSeconds namespace_ := do
    match ← (compareAndSet store clock key expectedValue value ttlSeconds namespace_).mapError
      PyError.toExn with
    | .conditional status => return status
    | _ => .raise .other
  delete key namespace_ := do
    match ← (delete store clock key namespace_).mapError PyError.toExn with
    | .deleted removed => return removed
    | _ => .raise .other
  stats := do
    match ← (stats store clock).mapError PyError.toExn with
    | .stats snapshot => return snapshot
    | _ => .raise .other

inductive StatusCode
  | invalidArgument
  | resourceExhausted
  | internal
  deriving DecidableEq

/-- What a handler is given besides the message: the metadata, and the id that
`begin_request` has found or made. -/
structure RpcContext where
  metadata : List (String × String)
  requestId : String

/-- The message a handler returns, and the code and details it has set, if any. -/
structure Answer (β : Type) where
  message : β
  status : Option (StatusCode × String)

def NAMESPACE_HEADER : String := "x-cache-namespace"

/-- No letter outside ASCII is in lower case one of the header's. -/
def isNamespaceHeader (key : String) : Bool := key.toLower == NAMESPACE_HEADER

def namespaceFromContext : List (String × String) → Except PyError (Option String)
  | [] => return none
  | (key, value) :: metadata =>
    if isNamespaceHeader key && !value.isEmpty then validateNamespace (some value)
    else namespaceFromContext metadata

def internalErrorDetails (requestId : String) : String :=
  s!"Internal server error (request_id={requestId})"

def VALUE_TOO_LARGE_MESSAGE : String := "Value exceeds maximum allowed cache entry size"

def CAPACITY_EXHAUSTED_MESSAGE : String := "Cache capacity exhausted and cannot accommodate new entry"

/-- The error of `map_set_status`. -/
def mapSetStatus (setStatus : CacheSetStatus) : Option String :=
  match cacheWriteFailureFromSetStatus setStatus with
  | none => none
  | some .valueTooLarge => some VALUE_TOO_LARGE_MESSAGE
  | some .capacityExhausted => some CAPACITY_EXHAUSTED_MESSAGE

structure ConditionalStatusMapping where
  protoStatus : ConditionalCacheStatus
  error : Option String

def mapConditionalStatus : CacheConditionalSetStatus → ConditionalStatusMapping
  | .stored => ⟨.stored, none⟩
  | .exists_ => ⟨.exists_, none⟩
  | .notFound => ⟨.notFound, none⟩
  | .mismatch => ⟨.mismatch, none⟩
  | .valueTooLarge => ⟨.unspecified, some VALUE_TOO_LARGE_MESSAGE⟩
  | .capacityExhausted => ⟨.unspecified, some CAPACITY_EXHAUSTED_MESSAGE⟩

namespace GrpcCacheService

variable {σ β : Type}

/-- `try .. except ValueError .. except Exception ..` around a handler, which answers with
an empty message when it raises. -/
def respond (context : RpcContext) (empty : β) (handler : Act Exn σ (Answer β)) : σ → Answer β × σ :=
  handler.handle fun
    | .valueError message => ⟨empty, some (.invalidArgument, message)⟩
    | .other => ⟨empty, some (.internal, internalErrorDetails context.requestId)⟩

def namespace_ (context : RpcContext) : Act Exn σ (Option String) :=
  .check ((namespaceFromContext context.metadata).mapError PyError.toExn)

variable (app : CacheApp σ) (context : RpcContext)

def get (key : Key) : σ → Answer CacheValue × σ :=
  respond context {} do
    let namespace_ ← namespace_ context
    match ← app.get key namespace_ with
    | .missing => return ⟨{ found := false }, none⟩
    | .bytes value => return ⟨{ found := true, value := value }, none⟩
    | .other => .raise .other

def set (request : CacheItem) : σ → Answer CacheResponse × σ :=
  respond context {} do
    let namespace_ ← namespace_ context
    match mapSetStatus (← app.set request.key request.value request.ttl namespace_) with
    | none => return ⟨{ status := .ok }, none⟩
    | some error => return ⟨{}, some (.resourceExhausted, error)⟩

/-- What `SetIfAbsent` and `CompareAndSet` make of the status they get. -/
def conditionalResponse (status : CacheConditionalSetStatus) : Answer ConditionalCacheResponse :=
  let mappedStatus := mapConditionalStatus status
  match mappedStatus.error with
  | some error => ⟨{}, some (.resourceExhausted, error)⟩
  | none => ⟨{ status := mappedStatus.protoStatus }, none⟩

def setIfAbsent (request : CacheItem) : σ → Answer ConditionalCacheResponse × σ :=
  respond context {} do
    let namespace_ ← namespace_ context
    return conditionalResponse (← app.setIfAbsent request.key request.value request.ttl namespace_)

def compareAndSet (request : CompareAndSetRequest) : σ → Answer ConditionalCacheResponse × σ :=
  respond context {} do
    let namespace_ ← namespace_ context
    return conditionalResponse
      (← app.compareAndSet request.key request.expectedValue request.value request.ttl namespace_)

def delete (key : Key) : σ → Answer CacheResponse × σ :=
  respond context {} do
    let namespace_ ← namespace_ context
    let _ ← app.delete key namespace_
    return ⟨{ status := .ok }, none⟩

/-- `for element in elements: results.append(..)` -/
def forEach {ι ρ : Type} (result : ι → σ → ρ × σ) : List ι → σ → List ρ × σ
  | [], s => ([], s)
  | i :: is, s =>
    let (r, s) := result i s
    let (rs, s) := forEach result is s
    (r :: rs, s)

/-- The `error` of an element that raised. -/
def itemError (requestId : String) : Exn → String
  | .valueError message => message
  | .other => internalErrorDetails requestId

/-- The body of the loop in `build_multi_get_items`. -/
def multiGetItem (requestId : String) (namespace_ : Option String) (key : Key) :
    σ → CacheLookup × σ :=
  Act.handle
    (do
      match ← app.get key namespace_ with
      | .missing => return { key := key, found := false }
      | .bytes value => return { key := key, found := true, value := value }
      | .other => .raise .other)
    fun exc => { key := key, found := false, error := itemError requestId exc }

def buildMultiGetItems (keys : List Key) (requestId : String) (namespace_ : Option String) :
    σ → List CacheLookup × σ :=
  forEach (multiGetItem app requestId namespace_) keys

/-- The body of the loop in `build_multi_set_results`. -/
def multiSetItem (requestId : String) (namespace_ : Option String) (item : CacheItem) :
    σ → CacheOperationResult × σ :=
  Act.handle
    (do
      match mapSetStatus (← app.set item.key item.value item.ttl namespace_) with
      | none => return { key := item.key, status := .ok }
      | some error => return { key := item.key, status := .error, error := error })
    fun exc => { key := item.key, status := .error, error := itemError requestId exc }

def buildMultiSetResults (items : List CacheItem) (requestId : String)
    (namespace_ : Option String) : σ → List CacheOperationResult × σ :=
  forEach (multiSetItem app requestId namespace_) items

/-- The body of the loop in `build_multi_delete_results`. -/
def multiDeleteItem (requestId : String) (namespace_ : Option String) (key : Key) :
    σ → CacheOperationResult × σ :=
  Act.handle
    (do
      let _ ← app.delete key namespace_
      return { key := key, status := .ok })
    fun exc => { key := key, status := .error, error := itemError requestId exc }

def buildMultiDeleteResults (keys : List Key) (requestId : String) (namespace_ : Option String) :
    σ → List CacheOperationResult × σ :=
  forEach (multiDeleteItem app requestId namespace_) keys

def multiGet (keys : List Key) : σ → Answer (List CacheLookup) × σ :=
  respond context [] do
    let namespace_ ← namespace_ context
    return ⟨← .total (buildMultiGetItems app keys context.requestId namespace_), none⟩

def multiSet (items : List CacheItem) : σ → Answer (List CacheOperationResult) × σ :=
  respond context [] do
    let namespace_ ← namespace_ context
    return ⟨← .total (buildMultiSetResults app items context.requestId namespace_), none⟩

def multiDelete (keys : List Key) : σ → Answer (List CacheOperationResult) × σ :=
  respond context [] do
    let namespace_ ← namespace_ context
    return ⟨← .total (buildMultiDeleteResults app keys context.requestId namespace_), none⟩

/-- What a batch reports of an element, told from the answer to the single call. -/
def lookupOf (key : Key) (answer : Answer CacheValue) : CacheLookup where
  key := key
  found := answer.message.found
  value := answer.message.value
  error := (answer.status.map Prod.snd).getD ""

def resultOf (key : Key) (answer : Answer CacheResponse) : CacheOperationResult :=
  match answer.status with
  | none => { key := key, status := answer.message.status }
  | some (_, details) => { key := key, status := .error, error := details }

/-- A batch reports of each element, in order, what the single call answers in the state
left by the elements before it, and leaves the state that the single calls leave. An element
that does not change the state has no bearing on the others. -/
structure SequenceOfSingles {ι ο ρ : Type} (single : σ → ι → ο × σ) (result : ι → ο → ρ)
    (batch : List ι → σ → Answer (List ρ) × σ) : Prop where
  completes : ∀ is s, (batch is s).1.status = none
  length : ∀ is s, (batch is s).1.message.length = is.length
  element : ∀ pre i post s, (batch (pre ++ i :: post) s).1.message[pre.length]? =
    some (result i (single (Machine.exec single s pre) i).1)
  state : ∀ is s, (batch is s).2 = Machine.exec single s is
  apart : ∀ pre i post s, (single (Machine.exec single s pre) i).2 = Machine.exec single s pre →
    (batch (pre ++ i :: post) s).1.message.eraseIdx pre.length = (batch (pre ++ post) s).1.message ∧
      (batch (pre ++ i :: post) s).2 = (batch (pre ++ post) s).2

end GrpcCacheService

end TinyCache
