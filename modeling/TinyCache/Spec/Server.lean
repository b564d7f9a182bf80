import TinyCache.Library.Pool
import TinyCache.Spec.RequestIds

/-! The server with many RPCs at once. The tasks of the event loop take turns where they
wait: for the initial metadata to be sent, and for the thread that does their work. That
work is a list of elements, one operation of the store each, which goes on when the task
that waits for it is cancelled. -/

namespace TinyCache

/-- `ActiveRequests`. -/
structure ActiveRequests where
  value : ℤ

namespace ActiveRequests

def increment (self : ActiveRequests) : ActiveRequests := ⟨self.value + 1⟩

def decrement (self : ActiveRequests) : ActiveRequests := ⟨max (self.value - 1) 0⟩

end ActiveRequests

/-- An RPC, with what its handler knows of the request. -/
structure RpcTask where
  call : Call
  metadata : List (String × String)
  requestId : String

/-- One operation of the store on the way to an answer: all that a call on a single key does,
or the body of the loop of a batch. -/
inductive Element
  | single (rpc : Rpc)
  | multiGet (key : Key)
  | multiSet (item : CacheItem)
  | multiDelete (key : Key)
  | stats

inductive Part
  | single (answer : Answer Message)
  | lookup (item : CacheLookup)
  | result (item : CacheOperationResult)
  | stats (answer : Answer CacheStats)

/-- The elements of what `asyncio.to_thread` is given. -/
def Call.work : Call → List Element
  | .keyed (.single rpc) => [.single rpc]
  | .keyed (.multiGet keys) => keys.map .multiGet
  | .keyed (.multiSet items) => items.map .multiSet
  | .keyed (.multiDelete keys) => keys.map .multiDelete
  | .stats => [.stats]

def Part.lookup? : Part → Option CacheLookup
  | .lookup item => some item
  | _ => none

def Part.result? : Part → Option CacheOperationResult
  | .result item => some item
  | _ => none

/-- What a handler returns once the thread is done; the error of a call on a single key is
raised in the thread and mapped by the handler. -/
def Call.answer (requestId : String) (call : Call) (parts : List Part) : Answer (Response ⊕ CacheStats) :=
  match call, parts with
  | .keyed (.single _), [.single answer] => answer.map fun message => .inl (.single message)
  | .keyed (.multiGet _), parts => ⟨.inl (.lookups (parts.filterMap Part.lookup?)), none⟩
  | .keyed (.multiSet _), parts | .keyed (.multiDelete _), parts =>
    ⟨.inl (.results (parts.filterMap Part.result?)), none⟩
  | .stats, [.stats answer] => answer.map .inr
  | _, _ => ⟨.inr {}, some (.internal, internalErrorDetails requestId)⟩

section

variable {σ : Type} (proto : Protobuf) (store : σ → Event → Except PyError Reply × σ)

/-- An action that gets the readings that come next. -/
def withClock {α : Type} (act : (ℕ → Time) → Act Exn σ α) : Act Exn (σ × List (ℕ → Time)) α := fun s =>
  let (result, store) := act (s.2.headD fun _ => 0) s.1
  (result, store, s.2.tail)

/-- The application over a store while time goes on: each call of the store has readings of its own. -/
def CacheApplicationService.clockedApp : CacheApp (σ × List (ℕ → Time)) where
  get key namespace_ := withClock fun clock => (app store clock).get key namespace_
  set key value ttlSeconds namespace_ := withClock fun clock => (app store clock).set key value ttlSeconds namespace_
  setIfAbsent key value ttlSeconds namespace_ :=
    withClock fun clock => (app store clock).setIfAbsent key value ttlSeconds namespace_
  compareAndSet key expectedValue value ttlSeconds namespace_ :=
    withClock fun clock => (app store clock).compareAndSet key expectedValue value ttlSeconds namespace_
  delete key namespace_ := withClock fun clock => (app store clock).delete key namespace_
  stats := withClock fun clock => (app store clock).stats

/-- What the threads do on the store: an element of a task, or what the cleaner and the pages of
the health server ask for. -/
inductive Work
  | element (task : RpcTask) (element : Element)
  | other (action : Action)

/-- What a task has a thread do. -/
def RpcTask.work (task : RpcTask) : List Work := task.call.work.map (.element task)

/-- One element, with the readings that its operation gets. -/
def Element.run (task : RpcTask) (clock : ℕ → Time) (element : Element) (s : σ) : Part × σ :=
  let app := CacheApplicationService.app store clock
  let context : RpcContext := ⟨task.metadata, task.requestId⟩
  let namespace_ := (namespaceFromContext task.metadata).toOption.join
  match element with
  | .single rpc => (rpc.serve app context s).map .single id
  | .multiGet key => (GrpcCacheService.multiGetItem app task.requestId namespace_ key s).map .lookup id
  | .multiSet item => (GrpcCacheService.multiSetItem app task.requestId namespace_ item s).map .result id
  | .multiDelete key => (GrpcCacheService.multiDeleteItem app task.requestId namespace_ key s).map .result id
  | .stats => (GrpcCacheService.stats proto app context s).map .stats id

def Work.run (s : σ) (work : Work) (clock : ℕ → Time) : Option Part × σ :=
  match work with
  | .element task e => (e.run proto store task clock s).map some id
  | .other action => (none, (store s ⟨action, clock⟩).2)

/-- Where the task of an RPC stands. -/
inductive RpcPhase
  | sending
  | waiting
  | answered (answer : Answer (Response ⊕ CacheStats))
  | cancelled

structure Server (σ : Type) where
  pool : Pool.State σ Work (ℕ → Time) (Option Part)
  active : ActiveRequests
  arrivals : ℕ
  tasks : ℕ → Option (RpcTask × RpcPhase)

/-- Who gets on: the client that calls, a task that is no longer waiting, a thread of the pool,
another thread; or a task is cancelled where it waits. -/
inductive ServerTurn
  | arrive (task : RpcTask)
  | enter (id : ℕ)
  | take (id : ℕ)
  | work (id : ℕ) (clock : ℕ → Time)
  | resume (id : ℕ)
  | cancel (id : ℕ)
  | other (action : Action) (clock : ℕ → Time)

namespace Server

def start (s : σ) : Server σ := ⟨Pool.start s, ⟨0⟩, 0, fun _ => none⟩

def setPhase (self : Server σ) (id : ℕ) (task : RpcTask) (phase : RpcPhase) : Server σ :=
  { self with tasks := Function.update self.tasks id (some (task, phase)) }

/-- `_active_request_scope` is left. -/
def leave (self : Server σ) : Server σ := { self with active := self.active.decrement }

def arrive (self : Server σ) (task : RpcTask) : Server σ :=
  { self.setPhase self.arrivals task .sending with arrivals := self.arrivals + 1 }

/-- The metadata has been sent, or that has failed: the scope is entered, and the handler runs
until it waits for its thread or returns. -/
def enter (self : Server σ) (id : ℕ) : Server σ :=
  match self.tasks id with
  | some (task, .sending) =>
    let entered := { self with active := self.active.increment }
    if task.call.awaits task.metadata then
      { entered.setPhase id task .waiting with
        pool := Pool.submit entered.pool id task.work }
    else
      (entered.setPhase id task (.answered (task.call.serve proto
        (CacheApplicationService.app store fun _ => 0) task.metadata task.requestId self.pool.object).1)).leave
  | _ => self

/-- The thread is done, and the handler answers. -/
def resume (self : Server σ) (id : ℕ) : Server σ :=
  match self.tasks id, Pool.results? self.pool id with
  | some (task, .waiting), some parts =>
    (self.setPhase id task (.answered (task.call.answer task.requestId (parts.filterMap fun part => part)))).leave
  | _, _ => self

/-- `CancelledError` is raised where the task waits. Work that no thread has taken up is
withdrawn with it. -/
def cancel (self : Server σ) (id : ℕ) : Server σ :=
  match self.tasks id with
  | some (task, .sending) => self.setPhase id task .cancelled
  | some (task, .waiting) =>
    { (self.setPhase id task .cancelled).leave with pool := Pool.withdraw self.pool id }
  | _ => self

def step (self : Server σ) : ServerTurn → Server σ
  | .arrive task => self.arrive task
  | .enter id => self.enter proto store id
  | .take id => { self with pool := Pool.take self.pool id }
  | .work id clock => { self with pool := Pool.work (Work.run proto store) self.pool id clock }
  | .resume id => self.resume id
  | .cancel id => self.cancel id
  | .other action clock =>
    { self with pool := Pool.act (Work.run proto store) self.pool none (.other action) clock }

def run (self : Server σ) (turns : List ServerTurn) : Server σ := turns.foldl (step proto store) self

/-- The handler has begun and has not ended. -/
def waits : Option (RpcTask × RpcPhase) → Bool
  | some (_, .waiting) => true
  | _ => false

def inFlight (self : Server σ) : List ℕ := (List.range self.arrivals).filter fun id => waits (self.tasks id)

end Server

/-- The store after what the threads have done. -/
def replay (s₀ : σ) (log : List (Pool.Done Work (ℕ → Time) (Option Part))) : σ :=
  Machine.exec (Pool.serial (Work.run proto store)) s₀ (log.map Pool.Done.call)

/-- What has been done on the store for an RPC: nothing before its handler runs, then its
elements in order, each of them once, and all of them when it is answered with what came of
them. An RPC whose namespace is malformed is answered without the store, as it would be at any
time; one that is cancelled may stop anywhere. -/
inductive Served (task : RpcTask) : List (Pool.Done Work (ℕ → Time) (Option Part)) → RpcPhase → Prop
  | sending : Served task [] .sending
  | waiting (done : List (Pool.Done Work (ℕ → Time) (Option Part)))
      (hawaits : task.call.awaits task.metadata = true)
      (h : done.map Pool.Done.input <+: task.work) : Served task done .waiting
  | answered (done : List (Pool.Done Work (ℕ → Time) (Option Part)))
      (hawaits : task.call.awaits task.metadata = true) (h : done.map Pool.Done.input = task.work) :
      Served task done (.answered (task.call.answer task.requestId (done.filterMap Pool.Done.output)))
  | refused (answer : Answer (Response ⊕ CacheStats)) (hawaits : task.call.awaits task.metadata = false)
      (h : ∀ clock s, task.call.serve proto (CacheApplicationService.app store clock) task.metadata
        task.requestId s = (answer, s)) : Served task [] (.answered answer)
  | cancelled (done : List (Pool.Done Work (ℕ → Time) (Option Part)))
      (h : done.map Pool.Done.input <+: task.work) : Served task done .cancelled

/-- What the threads have done is one run of the store, in which each RPC has its part; and what
comes `later` comes after all of the RPCs that are answered by now, which stay as they are. -/
structure OneRun (s₀ : σ) (server later : Server σ) : Prop where
  legal : Machine.outputs (Pool.serial (Work.run proto store)) s₀ (server.pool.log.map Pool.Done.call) =
    server.pool.log.map Pool.Done.output
  state : server.pool.object = replay proto store s₀ server.pool.log
  served : ∀ id task phase, server.tasks id = some (task, phase) →
    Served proto store task (Pool.own server.pool.log id) phase
  unknown : ∀ id, server.tasks id = none → Pool.own server.pool.log id = []
  order : ∃ more, later.pool.log = server.pool.log ++ more ∧
    ∀ id task answer, server.tasks id = some (task, .answered answer) →
      later.tasks id = some (task, .answered answer) ∧ Pool.own more id = []

/-- An RPC between whose elements no other thread came is answered as by the handler that has the
store for itself, each element with the readings that it got; one of a single element always is. -/
structure ServedAlone (s₀ : σ) (log : List (Pool.Done Work (ℕ → Time) (Option Part))) (id : ℕ)
    (task : RpcTask) (answer : Answer (Response ⊕ CacheStats)) : Prop where
  alone : ∀ pre post, log = pre ++ Pool.own log id ++ post →
    task.call.serve proto (CacheApplicationService.clockedApp store) task.metadata task.requestId
        (replay proto store s₀ pre, (Pool.own log id).map Pool.Done.extra) =
      (answer, replay proto store s₀ (pre ++ Pool.own log id), [])
  single : task.call.work.length ≤ 1 → ∃ pre post, log = pre ++ Pool.own log id ++ post

end

end TinyCache
