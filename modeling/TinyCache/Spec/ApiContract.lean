import TinyCache.Spec.MemoryStore
import TinyCache.Spec.Servicer

/-! What the API promises of the calls on a single key: which of them are invalid, which
are turned away for their size, and what all others send. -/

namespace TinyCache

inductive Rpc
  | get (key : Key)
  | set (request : CacheItem)
  | setIfAbsent (request : CacheItem)
  | compareAndSet (request : CompareAndSetRequest)
  | delete (key : Key)

inductive Message
  | value (message : CacheValue)
  | response (message : CacheResponse)
  | conditional (message : ConditionalCacheResponse)
  deriving DecidableEq

def Answer.map {β γ : Type} (f : β → γ) (answer : Answer β) : Answer γ := ⟨f answer.message, answer.status⟩

def Answer.code {β : Type} (answer : Answer β) : Option StatusCode := answer.status.map Prod.fst

namespace Rpc

def key : Rpc → Key
  | .get key | .delete key => key
  | .set request | .setIfAbsent request => request.key
  | .compareAndSet request => request.key

/-- The handler of a call. -/
def serve {σ : Type} (app : CacheApp σ) (context : RpcContext) (rpc : Rpc) (s : σ) : Answer Message × σ :=
  match rpc with
  | .get key => (GrpcCacheService.get app context key s).map (.map .value) id
  | .set request => (GrpcCacheService.set app context request s).map (.map .response) id
  | .setIfAbsent request =>
    (GrpcCacheService.setIfAbsent app context request s).map (.map .conditional) id
  | .compareAndSet request =>
    (GrpcCacheService.compareAndSet app context request s).map (.map .conditional) id
  | .delete key => (GrpcCacheService.delete app context key s).map (.map .response) id

/-- The operation of the store under a storage key. -/
def op (K : Key) : Rpc → Op
  | .get _ => .get K
  | .set request => .set K request.value (if request.ttl > 0 then some request.ttl else none)
  | .setIfAbsent request =>
    .setIfAbsent K request.value (if request.ttl > 0 then some request.ttl else none)
  | .compareAndSet request =>
    .compareAndSet K request.expectedValue request.value
      (if request.ttl > 0 then some request.ttl else none)
  | .delete _ => .delete K

/-- The value of a write that gets as far as storing it, given what is under its key: `Set`
always does, `SetIfAbsent` if that is missing or expired, `CompareAndSet` if it is live and as
expected. -/
def stores? (now : Time) (old : Option CacheEntry) : Rpc → Option Bytes
  | .set request => some request.value
  | .setIfAbsent request => if (old.filter fun e => !e.isExpired now).isSome then none else some request.value
  | .compareAndSet request =>
    match old.filter fun e => !e.isExpired now with
    | some e => if e.value = request.expectedValue then some request.value else none
    | none => none
  | .get _ | .delete _ => none

end Rpc

/-- The values of the namespace headers. -/
def namespaceHeaders (metadata : List (String × String)) : List String :=
  (metadata.filter fun p => isNamespaceHeader p.1).map Prod.snd

/-- The first of them that is not empty. -/
def firstNamespace? (metadata : List (String × String)) : Option String :=
  (namespaceHeaders metadata).find? fun value => !value.isEmpty

/-- The first of them, trimmed, unless it is blank. -/
def namespace? (metadata : List (String × String)) : Option String :=
  ((namespaceHeaders metadata).head?.map strip).filter fun n => !n.isEmpty

/-- The place of a key in the store. -/
def storagePlace (metadata : List (String × String)) (key : Key) : Key :=
  Address.storageKey ⟨namespace? metadata, key⟩

/-- A malformed namespace, an empty key, or one that is too long by itself or with its
namespace. -/
def Malformed (metadata : List (String × String)) (key : Key) : Prop :=
  (∃ n, namespace? metadata = some n ∧
      (n.length > MAX_NAMESPACE_LENGTH ∨ matchesNamespacePattern n = false)) ∨
    key = "" ∨ key.length > MAX_KEY_LENGTH ∨ (storagePlace metadata key).length > MAX_KEY_LENGTH

/-- The message that says what the store has returned. -/
inductive SentAs : Reply → Message → Prop
  | miss : SentAs (.value none) (.value { found := false })
  | hit (value : Bytes) : SentAs (.value (some value)) (.value { found := true, value := value })
  | set : SentAs (.status .ok) (.response { status := .ok })
  | stored : SentAs (.conditional .stored) (.conditional { status := .stored })
  | exists_ : SentAs (.conditional .exists_) (.conditional { status := .exists_ })
  | notFound : SentAs (.conditional .notFound) (.conditional { status := .notFound })
  | mismatch : SentAs (.conditional .mismatch) (.conditional { status := .mismatch })
  | deleted (removed : Bool) : SentAs (.deleted removed) (.response { status := .ok })

/-- The error contract of a call that finds the store `s` and leaves `t`. -/
structure ErrorContract (context : RpcContext) (clock : ℕ → Time) (rpc : Rpc) (s : CacheStore)
    (answer : Answer Message) (t : CacheStore) : Prop where
  invalid : answer.code = some .invalidArgument ↔ Malformed context.metadata rpc.key
  untouched : Malformed context.metadata rpc.key → t = s
  exhausted : ¬ Malformed context.metadata rpc.key →
    (answer.code = some .resourceExhausted ↔
      ∃ value, rpc.stores? (clock 0) (s.store.get? (storagePlace context.metadata rpc.key)) = some value ∧
        getsizeof value > s.limits.maxValueBytes)
  notInternal : answer.code ≠ some .internal
  mirrored : ¬ Malformed context.metadata rpc.key → answer.code ≠ some .resourceExhausted →
    answer.status = none ∧ ∃ reply,
      CacheStore.step s ⟨.client (rpc.op (storagePlace context.metadata rpc.key)), clock⟩ =
        (.ok reply, t) ∧ SentAs reply answer.message

end TinyCache
