import TinyCache.Library.Codec
import TinyCache.Spec.RequestIds

/-! The command line client: it makes one request, prints what comes back, and says with its
exit code how that went. It begins here behind the parser of the arguments; of these, the ones that
choose the channel are left out. -/

namespace TinyCache.Cli

inductive Format
  | base64
  | hex
  | utf8
  deriving DecidableEq

/-- The options of a value, of which the parser takes at most one. -/
inductive ValueOption
  | base64 (text : String)
  | hex (text : String)
  | file (path : String)

def ValueOption.argument : ValueOption → String
  | .base64 text | .hex text | .file text => text

structure ValueInput where
  positional : Option String := none
  option : Option ValueOption := none

inductive Command
  | get (key : Key) (format : Format) (output : Option String)
  | set (key : Key) (value : ValueInput) (ttl : ℤ)
  | setIfAbsent (key : Key) (value : ValueInput) (ttl : ℤ)
  | compareAndSet (key : Key) (expectedValue value : ValueInput) (ttl : ℤ)
  | delete (key : Key)
  | stats

structure Args where
  command : Command
  requestId : Option String := none
  showRequestId : Bool := false
  namespace_ : Option String := none

/-- The files, and the text of the statistics. -/
structure Environment where
  readBytes : String → Except Exn Bytes
  writeBytes : String → Bytes → Except Exn Unit
  uuid4 : Uuid
  proto : Protobuf
  statsText : CacheStats → String

/-- What an `AioRpcError` says, by the name of its code; or another exception. -/
inductive Failure
  | rpc (code details : String)
  | exception (exc : Exn)

/-- A call of a stub, which returns a message along with the initial metadata of the response. -/
abbrev Stubbed (σ β : Type) : Type := Act Failure σ (β × List (String × String))

/-- The calls that the client makes, with the metadata it sends. -/
structure CacheServiceStub (σ : Type) where
  get : List (String × String) → Key → Stubbed σ CacheValue
  set : List (String × String) → CacheItem → Stubbed σ CacheResponse
  setIfAbsent : List (String × String) → CacheItem → Stubbed σ ConditionalCacheResponse
  compareAndSet : List (String × String) → CompareAndSetRequest → Stubbed σ ConditionalCacheResponse
  delete : List (String × String) → Key → Stubbed σ CacheResponse
  stats : List (String × String) → Stubbed σ CacheStats

/-- A line on the standard error. -/
inductive Diagnostic
  | usage (message : String)
  | requestId (value : String)
  | rpcFailed (code details : String)
  | error (exc : Exn)
  | notOk

structure Outcome where
  exitCode : ℕ
  stdout : List String := []
  stderr : List Diagnostic := []

def encodeOutput (value : Bytes) : Format → Except Exn String
  | .base64 => .ok (String.ofList (Codec.Base64.encode value))
  | .hex => .ok (String.ofList (Codec.Hex.encode value))
  | .utf8 =>
    match Codec.Utf8.decode value with
    | some text => .ok text
    | none => .error .other

def decoded (value : Option Bytes) : Except Exn Bytes :=
  match value with
  | some value => .ok value
  | none => .error .other

def parseValueInput (env : Environment) (input : ValueInput) (label command : String) : Except Exn Bytes :=
  match input.option.filter fun option => !(option matches .file "") with
  | some (.file path) => env.readBytes path
  | some (.base64 text) => decoded (Codec.Base64.decode text.toList)
  | some (.hex text) => decoded (Codec.Hex.decode text.toList)
  | none =>
    match input.positional with
    | some text => .ok (Codec.Utf8.encode text)
    | none => .error (.valueError (s!"{command} requires {label} (positional, --{label}-file, " ++
        s!"--{label}-base64, or --{label}-hex)"))

/-- `parser.error` for one of the values; an empty option counts for nothing here. -/
def clashes (command label : String) (input : ValueInput) : Option String :=
  if input.positional.isSome && input.option.any fun option => !option.argument.isEmpty then
    some s!"{command}: positional {label} cannot be combined with --{label}-*"
  else none

def validateValueArgs : Command → Option String
  | .set _ value _ => clashes "set" "value" value
  | .setIfAbsent _ value _ => clashes "set-if-absent" "value" value
  | .compareAndSet _ expectedValue value _ =>
    (clashes "compare-and-set" "expected-value" expectedValue).or (clashes "compare-and-set" "value" value)
  | .get _ _ _ | .delete _ | .stats => none

def metadata (requestId : String) (namespace_ : Option String) : List (String × String) :=
  (REQUEST_ID_HEADER, requestId) ::
    ((namespace_.filter fun ns => !ns.isEmpty).toList.map fun ns => (NAMESPACE_HEADER, ns))

def getResponseRequestId (metadata : List (String × String)) : Option String :=
  getRequestIdFromMetadata metadata

def emitResponseRequestId (args : Args) (initialMetadata : List (String × String)) : List Diagnostic :=
  match getResponseRequestId initialMetadata with
  | some value => if args.showRequestId then [.requestId value] else []
  | none => []

/-- `ConditionalCacheStatus.Name` -/
def statusName : ConditionalCacheStatus → String
  | .unspecified => "CONDITIONAL_CACHE_STATUS_UNSPECIFIED"
  | .stored => "STORED"
  | .exists_ => "EXISTS"
  | .notFound => "NOT_FOUND"
  | .mismatch => "MISMATCH"

def conditionalExitCode (status : ConditionalCacheStatus) : ℕ := if status = .stored then 0 else 1

section

variable {σ : Type} (env : Environment) (stub : CacheServiceStub σ) (args : Args)

def raising {α : Type} (x : Except Exn α) : Act Failure σ α := .check (x.mapError .exception)

/-- The field of the message holds an `int32`. -/
def ttlField (ttl : ℤ) : Except Exn ℤ := ((env.proto.assign 32 ttl).mapError PyError.toExn).map Subtype.val

def requestId : String := (args.requestId.filter fun value => !value.isEmpty).getD env.uuid4.hex

/-- What `Set` and `Delete` print. -/
def printResponse (shown : List Diagnostic) (response : CacheResponse) : Outcome :=
  if response.status ≠ .ok then { exitCode := 2, stderr := shown ++ [.notOk] }
  else { exitCode := 0, stdout := ["OK"], stderr := shown }

def printConditional (shown : List Diagnostic) (response : ConditionalCacheResponse) : Outcome :=
  { exitCode := conditionalExitCode response.status, stdout := [statusName response.status], stderr := shown }

/-- What `Get` prints, or writes to a file. -/
def printValue (shown : List Diagnostic) (format : Format) (output : Option String) (response : CacheValue) :
    Outcome :=
  if response.found then
    match output.filter fun path => !path.isEmpty with
    | some path =>
      match env.writeBytes path response.value with
      | .ok _ => { exitCode := 0, stderr := shown }
      | .error exc => { exitCode := 2, stderr := shown ++ [.error exc] }
    | none =>
      match encodeOutput response.value format with
      | .ok text => { exitCode := 0, stdout := [text], stderr := shown }
      | .error exc => { exitCode := 2, stderr := shown ++ [.error exc] }
  else { exitCode := 1, stderr := shown }

/-- The `try` block of `run`. -/
def request : Act Failure σ Outcome := do
  let metadata := metadata (requestId env args) args.namespace_
  match args.command with
  | .get key format output =>
    let (response, initialMetadata) ← stub.get metadata key
    return printValue env (emitResponseRequestId args initialMetadata) format output response
  | .set key value ttl =>
    let value ← raising (parseValueInput env value "value" "set")
    let ttl ← raising (ttlField env ttl)
    let (response, initialMetadata) ← stub.set metadata ⟨key, value, ttl⟩
    return printResponse (emitResponseRequestId args initialMetadata) response
  | .setIfAbsent key value ttl =>
    let value ← raising (parseValueInput env value "value" "set-if-absent")
    let ttl ← raising (ttlField env ttl)
    let (response, initialMetadata) ← stub.setIfAbsent metadata ⟨key, value, ttl⟩
    return printConditional (emitResponseRequestId args initialMetadata) response
  | .compareAndSet key expectedValue value ttl =>
    let expectedValue ← raising (parseValueInput env expectedValue "expected-value" "compare-and-set")
    let value ← raising (parseValueInput env value "value" "compare-and-set")
    let ttl ← raising (ttlField env ttl)
    let (response, initialMetadata) ← stub.compareAndSet metadata ⟨key, expectedValue, value, ttl⟩
    return printConditional (emitResponseRequestId args initialMetadata) response
  | .delete key =>
    let (response, initialMetadata) ← stub.delete metadata key
    return printResponse (emitResponseRequestId args initialMetadata) response
  | .stats =>
    let (response, initialMetadata) ← stub.stats metadata
    return {
      exitCode := 0
      stdout := [env.statsText response]
      stderr := emitResponseRequestId args initialMetadata }

/-- The two `except` clauses. -/
def failed : Failure → Outcome
  | .rpc code details => { exitCode := 2, stderr := [.rpcFailed code details] }
  | .exception exc => { exitCode := 2, stderr := [.error exc] }

def run : σ → Outcome × σ :=
  match validateValueArgs args.command with
  | some message => fun s => ({ exitCode := 2, stderr := [.usage message] }, s)
  | none => (request env stub args).handle failed

end

/-- How a call goes: its answer comes back, or the client is left without, for want of time or of a
connection, or because gRPC does not send or take in a message of that size; and then the service has
carried it out or not. -/
inductive Delivery
  | answered
  | lost (served : Bool) (failure : Failure)

/-- `code().name` -/
def codeName : StatusCode → String
  | .invalidArgument => "INVALID_ARGUMENT"
  | .resourceExhausted => "RESOURCE_EXHAUSTED"
  | .internal => "INTERNAL"

/-- An answer with a status reaches the client as an exception; the interceptor has sent the id of
the request back. -/
def delivered {σ β : Type} (delivery : Delivery) (metadata : List (String × String))
    (serve : RpcContext → σ → Answer β × σ) : Stubbed σ β := fun s =>
  let requestId := (getRequestIdFromMetadata metadata).getD "-"
  let (answer, s') := serve ⟨metadata, requestId⟩ s
  match delivery, answer.status with
  | .lost served failure, _ => (.error failure, if served then s' else s)
  | .answered, some (code, details) => (.error (.rpc (codeName code) details), s')
  | .answered, none => (.ok (answer.message, [(REQUEST_ID_HEADER, requestId)]), s')

/-- A client that is connected to the service. -/
def CacheServiceStub.of {σ : Type} (proto : Protobuf) (app : CacheApp σ) (delivery : Delivery) :
    CacheServiceStub σ where
  get metadata key := delivered delivery metadata fun context => GrpcCacheService.get app context key
  set metadata item := delivered delivery metadata fun context => GrpcCacheService.set app context item
  setIfAbsent metadata item :=
    delivered delivery metadata fun context => GrpcCacheService.setIfAbsent app context item
  compareAndSet metadata request :=
    delivered delivery metadata fun context => GrpcCacheService.compareAndSet app context request
  delete metadata key := delivered delivery metadata fun context => GrpcCacheService.delete app context key
  stats metadata := delivered delivery metadata fun context => GrpcCacheService.stats proto app context

/-- The call that a command makes, unless it asks for the statistics. -/
def Command.rpc? (env : Environment) : Command → Except Exn (Option Rpc)
  | .get key _ _ => return some (.get key)
  | .set key value ttl => do
    return some (.set ⟨key, ← parseValueInput env value "value" "set", ← ttlField env ttl⟩)
  | .setIfAbsent key value ttl => do
    return some (.setIfAbsent ⟨key, ← parseValueInput env value "value" "set-if-absent", ← ttlField env ttl⟩)
  | .compareAndSet key expectedValue value ttl => do
    let expectedValue ← parseValueInput env expectedValue "expected-value" "compare-and-set"
    return some (.compareAndSet
      ⟨key, expectedValue, ← parseValueInput env value "value" "compare-and-set", ← ttlField env ttl⟩)
  | .delete key => return some (.delete key)
  | .stats => return none

section

variable (env : Environment) (args : Args)

/-- What the client says of an answer, which comes with the id that it has sent. -/
def report (answer : Answer Message) : Outcome :=
  let shown := emitResponseRequestId args [(REQUEST_ID_HEADER, requestId env args)]
  match answer.status, answer.message with
  | some (code, details), _ => failed (.rpc (codeName code) details)
  | none, .value response =>
    match args.command with
    | .get _ format output => printValue env shown format output response
    | _ => { exitCode := 0 }
  | none, .response response => printResponse shown response
  | none, .conditional response => printConditional shown response

end

/-- A printed text, given as a value in the same format. A plain text that begins with a hyphen may be
an option to the parser, and no argument has a NUL in it. -/
def Format.input : Format → String → Option ValueInput
  | .base64, text => some { option := some (.base64 text) }
  | .hex, text => some { option := some (.hex text) }
  | .utf8, text =>
    if text.toList.head? = some '-' ∨ Char.ofNat 0 ∈ text.toList then none else some { positional := some text }

end TinyCache.Cli
