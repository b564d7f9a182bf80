import TinyCache.Library.Exposition
import TinyCache.Library.Json
import TinyCache.Spec.RequestIds

/-! The HTTP endpoints: they answer from a snapshot of the statistics, as JSON or as metrics,
behind a middleware that gives each request an id. -/

namespace TinyCache.Health

/-- What a `float` does here. -/
structure Floats where
  round2 : ℚ → ℚ
  repr : ℚ → Json.Number

/-- `add_get` stands for both of the first two. -/
inductive Method
  | get
  | head
  | other (name : String)
  deriving DecidableEq

structure HttpRequest where
  method : Method
  path : String
  headers : List (String × String)

structure HttpResponse where
  status : ℕ
  contentType : String
  text : List Char
  headers : List (String × String) := []

/-- What leaves a handler in place of a response; the first two are `HTTPNotFound` and
`HTTPMethodNotAllowed`, of which aiohttp makes the answer. -/
inductive HttpRaise
  | notFound
  | methodNotAllowed
  | cancelled
  deriving DecidableEq

/-- The readings of `time.monotonic` and `time.time` while a request is handled. -/
structure Readings where
  monotonic : Time
  time : Time

def SERVICE_UNAVAILABLE_MESSAGE : String := "Service unavailable"

def PROMETHEUS_CONTENT_TYPE : String := "text/plain; version=0.0.4"

def BYTES_PER_MEGABYTE : ℤ := 1024 * 1024

/-- All texts in the payloads are ASCII, of which `json.dumps` escapes no more than `Json.dumps`. -/
def jsonResponse (payload : Json.Value) (status : ℕ) : HttpResponse where
  status := status
  contentType := "application/json"
  text := Json.dumps payload

def serviceUnavailableResponse : HttpResponse :=
  jsonResponse (.obj [("status", .str "error"), ("message", .str SERVICE_UNAVAILABLE_MESSAGE)]) 503

def int (n : ℤ) : Json.Value := .num (.ofInt n)

section

variable (floats : Floats)

def float (x : ℚ) : Json.Value := .num (floats.repr x)

def number : PyNumber → Json.Value
  | .int n => int n
  | .float x => float floats x

def megabytes (valueBytes : ℤ) : ℚ := floats.round2 (valueBytes / BYTES_PER_MEGABYTE)

variable (stats : CacheStatsSnapshot) (activeRequests : ℕ) (uptimeSeconds time : ℚ)

def statsPayload : Json.Value :=
  .obj [("size", int stats.size), ("hits", int stats.hits), ("misses", int stats.misses),
    ("evictions", int stats.evictions), ("lru_evictions", int stats.lruEvictions),
    ("expired_removals", int stats.expiredRemovals), ("rejected_oversize", int stats.rejectedOversize),
    ("rejected_capacity", int stats.rejectedCapacity), ("hit_rate", number floats stats.hitRate),
    ("memory_usage_bytes", int stats.memoryUsageBytes),
    ("memory_usage_mb", float floats (megabytes floats stats.memoryUsageBytes)),
    ("max_memory_bytes", int stats.maxMemoryBytes),
    ("max_memory_mb", float floats (megabytes floats stats.maxMemoryBytes)),
    ("max_value_bytes", int stats.maxValueBytes), ("max_items", int stats.maxItems),
    ("uptime_seconds", float floats (floats.round2 uptimeSeconds)), ("active_requests", int activeRequests),
    ("timestamp", float floats time)]

def healthPayload : Json.Value :=
  .obj [("status", .str "healthy"), ("uptime_seconds", float floats (floats.round2 uptimeSeconds)),
    ("cache_size", int stats.size), ("cache_hits", int stats.hits), ("cache_misses", int stats.misses),
    ("active_requests", int activeRequests), ("timestamp", float floats time)]

def alivePayload : Json.Value :=
  .obj [("status", .str "alive"), ("uptime_seconds", float floats (floats.round2 uptimeSeconds)),
    ("timestamp", float floats time)]

def rootPayload (grpcPort : ℤ) : Json.Value :=
  .obj [("service", .str "tiny-cache"),
    ("endpoints", .arr [.str "/health", .str "/ready", .str "/live", .str "/metrics", .str "/stats"]),
    ("grpc_port", int grpcPort)]

def itemSaturationRatio : ℚ := if stats.maxItems > 0 then stats.size / stats.maxItems else 0

def memorySaturationRatio : ℚ :=
  if stats.maxMemoryBytes > 0 then stats.memoryUsageBytes / stats.maxMemoryBytes else 0

def counter (name help : String) (value : ℕ) : Exposition.Family :=
  ⟨name.toList, help.toList, .counter, Codec.Decimal.encode value⟩

def gauge (name help : String) (value : List Char) : Exposition.Family := ⟨name.toList, help.toList, .gauge, value⟩

def families : List Exposition.Family :=
  [counter "tiny_cache_hits_total" "Total cache hits" stats.hits,
    counter "tiny_cache_misses_total" "Total cache misses" stats.misses,
    counter "tiny_cache_evictions_total" "Total cache evictions" stats.evictions,
    counter "tiny_cache_lru_evictions_total" "Total LRU evictions" stats.lruEvictions,
    counter "tiny_cache_expired_removals_total" "Total expired entries removed" stats.expiredRemovals,
    counter "tiny_cache_rejected_oversize_total" "Total write rejections due to oversized values"
      stats.rejectedOversize,
    counter "tiny_cache_rejected_capacity_total" "Total write rejections due to exhausted capacity"
      stats.rejectedCapacity,
    gauge "tiny_cache_entries" "Current number of entries" (Codec.Decimal.encode stats.size),
    gauge "tiny_cache_memory_usage_bytes" "Current memory usage in bytes (best-effort)"
      (Codec.Decimal.encode stats.memoryUsageBytes),
    gauge "tiny_cache_capacity_max_items" "Configured cache item capacity" (Codec.Decimal.encode stats.maxItems),
    gauge "tiny_cache_capacity_max_memory_bytes" "Configured cache memory capacity in bytes"
      (Codec.Decimal.encode stats.maxMemoryBytes),
    gauge "tiny_cache_capacity_max_value_bytes" "Configured maximum value size in bytes"
      (Codec.Decimal.encode stats.maxValueBytes),
    gauge "tiny_cache_capacity_item_saturation_ratio" "Entry count divided by max_items"
      (floats.repr (itemSaturationRatio stats)).text,
    gauge "tiny_cache_capacity_memory_saturation_ratio" "Memory usage divided by max_memory_bytes"
      (floats.repr (memorySaturationRatio stats)).text,
    gauge "tiny_cache_active_requests" "Current in-flight gRPC requests" (Codec.Decimal.encode activeRequests),
    gauge "tiny_cache_uptime_seconds" "Process uptime in seconds" (floats.repr uptimeSeconds).text]

end

structure HealthCheckHandler where
  startTime : Time
  grpcPort : ℤ

inductive Endpoint
  | health
  | ready
  | live
  | metrics
  | stats
  | root
  deriving DecidableEq

/-- The handler asks for the statistics, on another thread. -/
def Endpoint.asks : Endpoint → Bool
  | .health | .ready | .metrics | .stats => true
  | .live | .root => false

def route (path : String) : Option Endpoint :=
  [("/health", Endpoint.health), ("/ready", .ready), ("/live", .live), ("/metrics", .metrics),
    ("/stats", .stats), ("/", .root)].lookup path

def resolve (request : HttpRequest) : Except HttpRaise Endpoint :=
  match route request.path, request.method with
  | none, _ => .error .notFound
  | some _, .other _ => .error .methodNotAllowed
  | some endpoint, .get | some endpoint, .head => .ok endpoint

/-- How a handler waits for its thread: until that is done, or until the request is cancelled; the thread
goes on without it then, or has not yet taken up the job, which is withdrawn. -/
inductive Waiting
  | done
  | abandoned
  | withdrawn
  deriving DecidableEq

section

variable {σ : Type} (floats : Floats) (app : CacheApp σ) (handler : HealthCheckHandler) (activeRequests : ℕ)
  (now : Readings)

/-- `try .. except Exception ..` around what is made of the statistics. -/
def answering (respond : CacheStatsSnapshot → HttpResponse) (failed : HttpResponse) : σ → HttpResponse × σ :=
  Act.handle (do return respond (← app.stats)) fun _ => failed

namespace HealthCheckHandler

def uptime : ℚ := now.monotonic - handler.startTime

def healthCheck : σ → HttpResponse × σ :=
  answering app (fun stats => jsonResponse (healthPayload floats stats activeRequests (uptime handler now) now.time) 200)
    serviceUnavailableResponse

def readinessCheck : σ → HttpResponse × σ := healthCheck floats app handler activeRequests now

def livenessCheck (s : σ) : HttpResponse × σ :=
  (jsonResponse (alivePayload floats (uptime handler now) now.time) 200, s)

protected def metrics : σ → HttpResponse × σ :=
  answering app (fun stats => {
    status := 200
    contentType := PROMETHEUS_CONTENT_TYPE
    text := Exposition.render (families floats stats activeRequests (uptime handler now)) })
    { status := 503, contentType := PROMETHEUS_CONTENT_TYPE, text := [] }

protected def stats : σ → HttpResponse × σ :=
  answering app (fun stats => jsonResponse (statsPayload floats stats activeRequests (uptime handler now) now.time) 200)
    serviceUnavailableResponse

end HealthCheckHandler

open HealthCheckHandler

def rootHandler (s : σ) : HttpResponse × σ := (jsonResponse (rootPayload handler.grpcPort) 200, s)

def Endpoint.serve : Endpoint → σ → HttpResponse × σ
  | .health => healthCheck floats app handler activeRequests now
  | .ready => readinessCheck floats app handler activeRequests now
  | .live => livenessCheck floats handler now
  | .metrics => HealthCheckHandler.metrics floats app handler activeRequests now
  | .stats => HealthCheckHandler.stats floats app handler activeRequests now
  | .root => rootHandler handler

/-- A handler that asks for the statistics may be cancelled meanwhile. -/
def Endpoint.handle (endpoint : Endpoint) (waiting : Waiting) : Act HttpRaise (RpcScope σ) HttpResponse :=
  let served := Act.zoom RpcScope.app (fun app self => { self with app := app })
    (.total (endpoint.serve floats app handler activeRequests now))
  match endpoint.asks, waiting with
  | false, _ | true, .done => served
  | true, .abandoned => do
    let _ ← served
    .raise .cancelled
  | true, .withdrawn => .raise .cancelled

end

section

variable {σ : Type} (uuid4 : ℕ → Uuid)

/-- What is sent of a response: no body in answer to `HEAD`. -/
def HttpResponse.sent (self : HttpResponse) (method : Method) : HttpResponse :=
  { self with text := if method = .head then [] else self.text }

variable (floats : Floats) (app : CacheApp σ) (handler : HealthCheckHandler) (activeRequests : ℕ) (now : Readings)
  (request : HttpRequest) (waiting : Waiting)

end

section

variable {σ : Type} (floats : Floats) (app : CacheApp σ) (handler : HealthCheckHandler) (activeRequests : ℕ)
  (now : Readings)

/-- What an endpoint says, of the statistics if it asks for them; metrics are not JSON. -/
def Endpoint.payload (stats : CacheStatsSnapshot) : Endpoint → Option Json.Value
  | .health | .ready => some (healthPayload floats stats activeRequests (handler.uptime now) now.time)
  | .live => some (alivePayload floats (handler.uptime now) now.time)
  | .metrics => none
  | .stats => some (statsPayload floats stats activeRequests (handler.uptime now) now.time)
  | .root => some (rootPayload handler.grpcPort)

/-- An endpoint is unavailable exactly if it asks for the statistics in vain. Otherwise its answer
reads back as what it is to say, unless only its head is asked for, and either way it carries the id of
the request. -/
structure Answers (id : String) (method : Method) (endpoint : Endpoint) (s : σ) (response : HttpResponse) :
    Prop where
  id : response.headers = [(REQUEST_ID_HEADER, id)]
  status : response.status = 200 ∨ response.status = 503
  unavailable : response.status = 503 ↔ endpoint.asks = true ∧ ∃ exc, (app.stats s).1 = .error exc
  json : method = .get → ∀ snapshot payload, (endpoint.asks = true → (app.stats s).1 = .ok snapshot) →
    endpoint.payload floats handler activeRequests now snapshot = some payload →
    Json.loads response.text = some payload
  metrics : method = .get → ∀ snapshot, endpoint = .metrics → (app.stats s).1 = .ok snapshot →
    Exposition.parse response.text = some (families floats snapshot activeRequests (handler.uptime now))
  head : method = .head → response.text = []

end

end TinyCache.Health
