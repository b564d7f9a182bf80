import TinyCache.Spec.Calls
import TinyCache.Spec.StatsMessage

/-! The id of a request. An interceptor takes it off the metadata or makes one, sends it
back, and binds `request_id_var` to it while the handler runs. The handler finds it there, or
makes one of its own when it finds the default of the variable. -/

namespace TinyCache

/-- `uuid.uuid4()`, of which only `hex` is used. -/
structure Uuid where
  hex : String
  length_hex : hex.length = 32

/-- What no `except Exception` catches. -/
inductive Interruption
  | cancelled
  deriving DecidableEq

/-- What an RPC runs over, with the number of UUIDs made so far. -/
structure RpcScope (σ : Type) where
  app : σ
  requestIdVar : String
  initialMetadata : Option (List (String × String))
  uuids : ℕ

/-- Before an RPC nothing has been sent to its client. -/
def RpcScope.start {σ : Type} (app : σ) (requestIdVar : String) (uuids : ℕ) : RpcScope σ :=
  ⟨app, requestIdVar, none, uuids⟩

/-- What `ContextVar.set` returns for `ContextVar.reset`. -/
structure Token where
  oldValue : String

section

variable {ε σ α : Type}

def RequestIdVar.get : Act ε (RpcScope σ) String := do return (← .read).requestIdVar

def RequestIdVar.set (value : String) : Act ε (RpcScope σ) Token := do
  let oldValue := (← .read).requestIdVar
  .modify fun self => { self with requestIdVar := value }
  return ⟨oldValue⟩

def RequestIdVar.reset (token : Token) (self : RpcScope σ) : RpcScope σ :=
  { self with requestIdVar := token.oldValue }

variable (uuid4 : ℕ → Uuid)

def newRequestId : Act ε (RpcScope σ) String := do
  let made := (← .read).uuids
  .modify fun self => { self with uuids := made + 1 }
  return (uuid4 made).hex

def REQUEST_ID_HEADER : String := "x-request-id"

/-- No letter outside ASCII is in lower case one of the header's. -/
def isRequestIdHeader (key : String) : Bool := key.toLower == REQUEST_ID_HEADER

def getRequestIdFromMetadata : List (String × String) → Option String
  | [] => none
  | (key, value) :: metadata =>
    if isRequestIdHeader key && !value.isEmpty then some value else getRequestIdFromMetadata metadata

/-- How `send_initial_metadata` ends. -/
inductive Sending
  | sent
  | raised
  | cancelled
  deriving DecidableEq

namespace RequestIdInterceptor

/-- An exception of the call is caught. -/
def sendInitialMetadata (initialMetadata : List (String × String)) :
    Sending → Act Interruption (RpcScope σ) Unit
  | .sent => .modify fun self => { self with initialMetadata := some initialMetadata }
  | .raised => pure ()
  | .cancelled => .raise .cancelled

def requestIdScope (metadata : List (String × String)) (sending : Sending)
    (behavior : Act Interruption (RpcScope σ) α) : Act Interruption (RpcScope σ) α := do
  let requestId ← match getRequestIdFromMetadata metadata with
    | some requestId => pure requestId
    | none => newRequestId uuid4
  let token ← RequestIdVar.set requestId
  Act.ensuring
    (do
      sendInitialMetadata [(REQUEST_ID_HEADER, requestId)] sending
      behavior)
    (RequestIdVar.reset token)

end RequestIdInterceptor

structure RpcRequestState where
  requestId : String
  token : Option Token

namespace GrpcRequestLifecycle

def ensureRequestId : Act ε (RpcScope σ) (String × Option Token) := do
  let requestId ← RequestIdVar.get
  if requestId ≠ "-" then return (requestId, none)
  else
    let requestId ← newRequestId uuid4
    return (requestId, some (← RequestIdVar.set requestId))

def beginRequest : Act ε (RpcScope σ) RpcRequestState := do
  let (requestId, token) ← ensureRequestId uuid4
  return ⟨requestId, token⟩

def finishRequest (state : RpcRequestState) (self : RpcScope σ) : RpcScope σ :=
  match state.token with
  | some token => RequestIdVar.reset token self
  | none => self

end GrpcRequestLifecycle

end

inductive Call
  | keyed (call : KeyCall)
  | stats

namespace Call

variable {σ : Type} (proto : Protobuf) (app : CacheApp σ) (metadata : List (String × String))

/-- The `try` block of a handler with its two `except` clauses. -/
def serve (requestId : String) : Call → σ → Answer (Response ⊕ CacheStats) × σ
  | .keyed call => fun s => (call.serve app ⟨metadata, requestId⟩ s).map (.map .inl) id
  | .stats => fun s => (GrpcCacheService.stats proto app ⟨metadata, requestId⟩ s).map (.map .inr) id

/-- Whether the handler gets as far as waiting for the application. -/
def awaits : Call → Bool
  | .keyed _ => (namespaceFromContext metadata).toBool
  | .stats => true

variable (uuid4 : ℕ → Uuid)

/-- A handler, which may be cancelled while it waits; the application goes on by itself. -/
def handler (call : Call) (cancelled : Bool) :
    Act Interruption (RpcScope σ) (Answer (Response ⊕ CacheStats)) := do
  let state ← GrpcRequestLifecycle.beginRequest uuid4
  Act.ensuring
    (do
      let answer ← Act.zoom RpcScope.app (fun app self => { self with app := app })
        (.total (call.serve proto app metadata state.requestId))
      if cancelled && call.awaits metadata then .raise .cancelled else return answer)
    (GrpcRequestLifecycle.finishRequest state)

/-- A handler behind the interceptor. -/
def intercepted (call : Call) (sending : Sending) (cancelled : Bool) :
    Act Interruption (RpcScope σ) (Answer (Response ⊕ CacheStats)) :=
  RequestIdInterceptor.requestIdScope uuid4 metadata sending
    (call.handler proto app metadata uuid4 cancelled)

end Call

/-- The first id of the client that is not empty. -/
def clientRequestId? (metadata : List (String × String)) : Option String :=
  ((metadata.filter fun p => isRequestIdHeader p.1).map Prod.snd).find? fun value => !value.isEmpty

/-- What a call asks of the application; a lookup that is not bytes is as good as an exception. -/
def Rpc.ask {σ : Type} (app : CacheApp σ) (namespace_ : Option String) : Rpc → Act Exn σ Unit
  | .get key => do
    match ← app.get key namespace_ with
    | .missing | .bytes _ => return ()
    | .other => .raise .other
  | .set request => do let _ ← app.set request.key request.value request.ttl namespace_
  | .setIfAbsent request => do
    let _ ← app.setIfAbsent request.key request.value request.ttl namespace_
  | .compareAndSet request => do
    let _ ← app.compareAndSet request.key request.expectedValue request.value request.ttl namespace_
  | .delete key => do let _ ← app.delete key namespace_

/-- What a sequence of calls asks of the application, with what comes of it. -/
def Rpc.asked {σ : Type} (app : CacheApp σ) (namespace_ : Option String) (rpcs : List Rpc) (s : σ) :
    List (Machine.Step σ Rpc (Except Exn Unit)) :=
  Machine.trace (fun s rpc => rpc.ask app namespace_ s) s rpcs

/-- The elements of a batch. -/
def KeyCall.elements : KeyCall → List Rpc
  | .single _ => []
  | .multiGet keys => keys.map .get
  | .multiSet items => items.map .set
  | .multiDelete keys => keys.map .delete

/-- The texts that a batch reports, element by element. -/
def Response.errors : Response → List String
  | .single _ => []
  | .lookups items => items.map CacheLookup.error
  | .results items => items.map CacheOperationResult.error

section

variable {σ : Type} (app : CacheApp σ) (metadata : List (String × String))

/-- The application raises something other than a `ValueError`; for `Stats`, it returns no
numbers that the message holds. -/
def Call.Fails (proto : Protobuf) (s : σ) : Call → Prop
  | .keyed call => ∃ namespace_, namespaceFromContext metadata = .ok namespace_ ∧
      ∃ r ∈ Rpc.asked app namespace_ call.rpcs s, r.output = .error .other
  | .stats => ∀ snapshot, (app.stats s).1 = .ok snapshot →
      ∃ x, cacheStatsResponse proto snapshot = .error x

/-- The RPC ends without an answer. -/
def Call.Cancelled (sending : Sending) (cancelled : Bool) (call : Call) : Prop :=
  sending = .cancelled ∨ cancelled = true ∧ call.awaits metadata = true

/-- Every place of an RPC that shows an id shows `id`: what is sent ahead of the answer, the
details of an internal error, and the text of each element of a batch that met with one. -/
structure ShowsId (call : Call) (s : σ)
    (served : Except Interruption (Answer (Response ⊕ CacheStats)) × RpcScope σ) (id : String) : Prop where
  sent : ∀ initialMetadata, served.2.initialMetadata = some initialMetadata →
    initialMetadata = [(REQUEST_ID_HEADER, id)]
  details : ∀ answer details, served.1 = .ok answer → answer.status = some (.internal, details) →
    details = internalErrorDetails id
  elements : ∀ answer response keyed namespace_ (i : ℕ) (r : Machine.Step σ Rpc (Except Exn Unit)),
    served.1 = .ok answer → answer.message = .inl response → call = .keyed keyed →
    namespaceFromContext metadata = .ok namespace_ →
    (Rpc.asked app namespace_ keyed.elements s)[i]? = some r → r.output = .error .other →
    response.errors[i]? = some (internalErrorDetails id)

/-- One id for an RPC, which is that of the client if it has sent one; and the variable is left
as it was found. -/
structure OneRequestId (call : Call) (s : σ) (requestIdVar : String)
    (served : Except Interruption (Answer (Response ⊕ CacheStats)) × RpcScope σ) : Prop where
  restored : served.2.requestIdVar = requestIdVar
  shown : ∃ id, ShowsId app metadata call s served id ∧
    ∀ value, clientRequestId? metadata = some value → id = value

end

end TinyCache
