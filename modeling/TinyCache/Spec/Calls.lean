import TinyCache.Spec.ApiContract

/-! The calls that name keys, single ones and batches, and what they reach in a store. -/

namespace TinyCache

inductive KeyCall
  | single (rpc : Rpc)
  | multiGet (keys : List Key)
  | multiSet (items : List CacheItem)
  | multiDelete (keys : List Key)

inductive Response
  | single (message : Message)
  | lookups (items : List CacheLookup)
  | results (items : List CacheOperationResult)
  deriving DecidableEq

namespace KeyCall

/-- The single calls that a call stands for. -/
def rpcs : KeyCall → List Rpc
  | .single rpc => [rpc]
  | .multiGet keys => keys.map .get
  | .multiSet items => items.map .set
  | .multiDelete keys => keys.map .delete

def keys (call : KeyCall) : List Key := call.rpcs.map Rpc.key

/-- The handler of a call. -/
def serve {σ : Type} (app : CacheApp σ) (context : RpcContext) (call : KeyCall) (s : σ) :
    Answer Response × σ :=
  match call with
  | .single rpc => (rpc.serve app context s).map (.map .single) id
  | .multiGet keys => (GrpcCacheService.multiGet app context keys s).map (.map .lookups) id
  | .multiSet items => (GrpcCacheService.multiSet app context items s).map (.map .results) id
  | .multiDelete keys => (GrpcCacheService.multiDelete app context keys s).map (.map .results) id

end KeyCall

/-- The namespaces that a client has supplied. -/
def suppliedNamespaces (metadata : List (String × String)) : List String :=
  ((namespaceHeaders metadata).map strip).filter fun n => !n.isEmpty

/-- The store is not touched and the code says so, or every key that it is asked for is built
from one of the call and a namespace that was supplied, and is not a shared one, unless that
reads like a key with a namespace. -/
def FailsClosed {σ : Type} (store : σ → Event → Except PyError Reply × σ) (clock : ℕ → Time)
    (context : RpcContext) (call : KeyCall) (s : σ) : Prop :=
  let served := call.serve (CacheApplicationService.app (Machine.logged store) clock) context (s, [])
  (served.1.code = some .invalidArgument ∧ served.2 = (s, [])) ∨
    ∀ event ∈ served.2.2, ∃ op K, event.action = .client op ∧ op.key? = some K ∧
      looksNamespaced K = true ∧
      ∃ n ∈ suppliedNamespaces context.metadata, ∃ key ∈ call.keys,
        CacheApplicationService.storageKey key (some n) = .ok K

end TinyCache
