import TinyCache.Library.Act
import TinyCache.Spec.Process

/-! The life of the process: what `serve` starts, and how it is shut down. Shutting down is a
task of its own, which a signal or the end of `serve` begins, and which `serve` waits for. -/

namespace TinyCache

inductive StartError
  | valueError (message : String)
  | runtimeError (message : String)
  | other
  deriving DecidableEq

structure ServerCredentials where
  privateKey : Bytes
  certificateChain : Bytes
  rootCertificates : Option Bytes
  requireClientAuth : Bool
  deriving DecidableEq

/-- What is done to the world outside. -/
inductive Effect
  | createStore
  | serving (service : String)
  | insecurePort (addr : String)
  | securePort (addr : String) (credentials : ServerCredentials)
  | startGrpc
  | startHealth (host : String) (port : ℤ)
  | notServing (service : String)
  | stopGrpc (grace : ℕ)
  | cleanupHealth
  | stopStore
  deriving DecidableEq

/-- How that ends, and what is in the files. -/
structure Outside where
  readBytes : String → Except StartError Bytes
  loadProtobuf : Except StartError Unit
  createStore : Except StartError Unit
  addPort : Effect → Except StartError ℤ
  startGrpc : Except StartError Unit
  setupHealth : Except StartError Unit
  startHealth : Except StartError Unit

def emit (effect : Effect) : Act StartError (List Effect) Unit := .modify (· ++ [effect])

def buildTlsServerCredentials (readBytes : String → Except StartError Bytes) (certPath keyPath : String)
    (clientCaPath : Option String) (requireClientAuth : Bool) : Except StartError ServerCredentials := do
  let certificateChain ← readBytes certPath
  let privateKey ← readBytes keyPath
  if requireClientAuth then
    match clientCaPath with
    | none => .error (.valueError "CACHE_TLS_CLIENT_CA_PATH must be set when client auth is required")
    | some clientCaPath =>
      let rootCertificates ← readBytes clientCaPath
      return ⟨privateKey, certificateChain, some rootCertificates, true⟩
  else return ⟨privateKey, certificateChain, none, false⟩

/-- A path that is given and not empty. -/
def givenPath (path : Option String) : Option String := path.filter fun path => !path.isEmpty

/-- The port that is asked for. -/
def listenPort (readBytes : String → Except StartError Bytes) (listenAddr : String)
    (settings : Process.Settings) : Except StartError Effect :=
  if settings.tlsEnabled then
    match givenPath settings.tlsCertPath, givenPath settings.tlsKeyPath with
    | some certPath, some keyPath => do
      let credentials ← buildTlsServerCredentials readBytes certPath keyPath settings.tlsClientCaPath
        settings.tlsRequireClientAuth
      return .securePort listenAddr credentials
    | _, _ => .error
        (.valueError "CACHE_TLS_CERT_PATH and CACHE_TLS_KEY_PATH must be set when TLS is enabled")
  else return .insecurePort listenAddr

def addGrpcListenPort (outside : Outside) (listenAddr : String) (settings : Process.Settings) :
    Act StartError (List Effect) ℤ := do
  let port ← .check (listenPort outside.readBytes listenAddr settings)
  emit port
  .check (outside.addPort port)

def addGrpcHealthService : Act StartError (List Effect) Unit := do
  emit (.serving "")
  emit (.serving "cache.CacheService")

def listenAddr (settings : Process.Settings) : String := s!"{settings.host}:{settings.port}"

/-- `serve` as far as the signal handlers. -/
def startup (outside : Outside) (settings : Process.Settings) : Act StartError (List Effect) Unit := do
  .check outside.loadProtobuf
  .check outside.createStore
  emit .createStore
  addGrpcHealthService
  let boundPort ← addGrpcListenPort outside (listenAddr settings) settings
  if boundPort = 0 then
    emit .stopStore
    .raise (.runtimeError s!"Failed to bind gRPC server to {listenAddr settings}")
  else
    .check outside.startGrpc
    emit .startGrpc
    .check outside.setupHealth
    emit (.startHealth settings.healthHost settings.healthPort)
    .check outside.startHealth

/-- Where `_shutdown_started_service` stands. -/
inductive ShutdownPhase
  | created
  | drainingGrpc
  | cleaningHealth
  | finished
  | abandoned
  deriving DecidableEq

inductive MainPhase
  | failed (error : StartError)
  | serving
  | awaiting
  | ended
  deriving DecidableEq

structure Serve where
  effects : List Effect
  main : MainPhase
  shutdown : Option ShutdownPhase

/-- A signal comes; `wait_for_termination` returns or raises; the shutdown task goes on, whether
what it has waited for has raised or not; `serve` is cancelled where it waits for that task, and
the task with it; the task is over. -/
inductive ServeTurn
  | signal
  | wake
  | shutdown (raised : Bool)
  | cancel
  | resume
  deriving DecidableEq

namespace Serve

def start (outside : Outside) (settings : Process.Settings) : Serve :=
  match startup outside settings [] with
  | (.ok _, effects) => ⟨effects, .serving, none⟩
  | (.error x, effects) => ⟨effects, .failed x, none⟩

/-- `_begin_shutdown`, and the same at the end of `serve`. -/
def beginShutdown (self : Serve) : Serve :=
  match self.shutdown with
  | some _ => self
  | none => { self with shutdown := some .created }

def markGrpcNotServing : List Effect := [.notServing "", .notServing "cache.CacheService"]

/-- An exception of either wait is logged, and what comes next is the same. -/
def continueShutdown (self : Serve) (_raised : Bool) : Serve :=
  match self.shutdown with
  | some .created =>
    { self with
      effects := self.effects ++ markGrpcNotServing ++ [.stopGrpc 5], shutdown := some .drainingGrpc }
  | some .drainingGrpc =>
    { self with effects := self.effects ++ [.cleanupHealth], shutdown := some .cleaningHealth }
  | some .cleaningHealth => { self with effects := self.effects ++ [.stopStore], shutdown := some .finished }
  | _ => self

/-- `CancelledError` is not an `Exception`: only the `finally` clause is still run. -/
def cancelShutdown (self : Serve) : Serve :=
  match self.shutdown with
  | some .created | some .drainingGrpc => { self with shutdown := some .abandoned }
  | some .cleaningHealth => { self with effects := self.effects ++ [.stopStore], shutdown := some .finished }
  | _ => self

def step (self : Serve) (turn : ServeTurn) : Serve :=
  match turn, self.main with
  | .signal, .serving | .signal, .awaiting => self.beginShutdown
  | .wake, .serving => { self.beginShutdown with main := .awaiting }
  | .shutdown raised, .serving | .shutdown raised, .awaiting => self.continueShutdown raised
  | .cancel, .awaiting => self.cancelShutdown
  | .resume, .awaiting =>
    match self.shutdown with
    | some .finished | some .abandoned => { self with main := .ended }
    | _ => self
  | _, _ => self

def run (self : Serve) (turns : List ServeTurn) : Serve := turns.foldl step self

/-- All that a shutdown does: nothing new is let in, what is under way is drained, and only then
does the store stop. -/
def shutdownEffects : List Effect :=
  [.notServing "", .notServing "cache.CacheService", .stopGrpc 5, .cleanupHealth, .stopStore]

end Serve

/-- The port is of the kind that is set, and with it what the settings say of the clients. -/
inductive PortFollows (readBytes : String → Except StartError Bytes) (settings : Process.Settings) :
    Effect → Prop
  | insecure (h : settings.tlsEnabled = false) :
      PortFollows readBytes settings (.insecurePort (listenAddr settings))
  | secure {certPath keyPath : String} {credentials : ServerCredentials} (h : settings.tlsEnabled = true)
      (hcert : settings.tlsCertPath = some certPath) (hkey : settings.tlsKeyPath = some keyPath)
      (hchain : readBytes certPath = .ok credentials.certificateChain)
      (hprivate : readBytes keyPath = .ok credentials.privateKey)
      (hclients : credentials.requireClientAuth = settings.tlsRequireClientAuth)
      (hroot : settings.tlsRequireClientAuth = true → ∃ caPath root, settings.tlsClientCaPath = some caPath ∧
        readBytes caPath = .ok root ∧ credentials.rootCertificates = some root) :
      PortFollows readBytes settings (.securePort (listenAddr settings) credentials)

/-- Something is listened on: gRPC's port, or the one of HTTP. -/
def Effect.isPort : Effect → Bool
  | .insecurePort _ | .securePort _ _ | .startHealth _ _ => true
  | _ => false

/-- What a process that has had these effects has listened on. -/
structure Listens (outside : Outside) (settings : Process.Settings) (effects : List Effect) : Prop where
  /-- One port for gRPC, as it is set, and then the one for health, which is plain text whatever is set. -/
  ports : effects.filter Effect.isPort = [] ∨ ∃ port, PortFollows outside.readBytes settings port ∧
    (effects.filter Effect.isPort = [port] ∨
      effects.filter Effect.isPort = [port, .startHealth settings.healthHost settings.healthPort])
  /-- When gRPC is started, its port is there and no other. -/
  bound : ∀ before later, effects = before ++ .startGrpc :: later → ∃ port n,
    PortFollows outside.readBytes settings port ∧ before.filter Effect.isPort = [port] ∧
      outside.addPort port = .ok n ∧ n ≠ 0

end TinyCache
