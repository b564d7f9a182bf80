import TinyCache.Proofs.ApiContract
import TinyCache.Spec.Cli

/-! What the client prints is what the service holds: a value comes out as it went in, and the
exit code says what became of it. -/

namespace TinyCache.Cli

open Machine

variable {σ : Type} {env : Environment} {args : Args} {proto : Protobuf} {app : CacheApp σ} {delivery : Delivery}

theorem requestId_ne_empty (env : Environment) (args : Args) : (requestId env args).isEmpty = false := by
  unfold requestId
  cases h : args.requestId.filter fun value => !value.isEmpty with
  | none =>
    have hlength := env.uuid4.length_hex
    rw [Option.getD_none, ← Bool.not_eq_true, String.isEmpty_iff]
    intro hempty
    rw [hempty] at hlength
    cases hlength
  | some value => simpa using (Option.filter_eq_some_iff.mp h).2

theorem getRequestIdFromMetadata_header {requestId : String} (h : requestId.isEmpty = false)
    (metadata : List (String × String)) :
    getRequestIdFromMetadata ((REQUEST_ID_HEADER, requestId) :: metadata) = some requestId := by
  have hheader : isRequestIdHeader REQUEST_ID_HEADER = true := by decide +kernel
  rw [getRequestIdFromMetadata, hheader, h]
  rfl

/-- What the handler is given of a request of the client. -/
def context (env : Environment) (args : Args) : RpcContext :=
  ⟨metadata (requestId env args) args.namespace_, requestId env args⟩

/-- The answer of a handler, as the stub passes it on. -/
def sent {β : Type} (env : Environment) (args : Args) (delivery : Delivery) (answer : Answer β) :
    Except Failure (β × List (String × String)) :=
  match delivery, answer.status with
  | .lost _ failure, _ => .error failure
  | .answered, some (code, details) => .error (.rpc (codeName code) details)
  | .answered, none => .ok (answer.message, [(REQUEST_ID_HEADER, requestId env args)])

/-- Where a call leaves the service that would go from `s` to `s'`. -/
def Delivery.leaves (delivery : Delivery) (s s' : σ) : σ :=
  match delivery with
  | .answered => s'
  | .lost served _ => if served then s' else s

/-- What the client says of a call. -/
def told (env : Environment) (args : Args) (delivery : Delivery) (answer : Answer Message) : Outcome :=
  match delivery with
  | .answered => report env args answer
  | .lost _ failure => failed failure

theorem delivered_metadata {β : Type} (serve : RpcContext → σ → Answer β × σ) (s : σ) :
    delivered delivery (metadata (requestId env args) args.namespace_) serve s =
      (sent env args delivery (serve (context env args) s).1, delivery.leaves s (serve (context env args) s).2) := by
  have hid : getRequestIdFromMetadata (metadata (requestId env args) args.namespace_) =
      some (requestId env args) := getRequestIdFromMetadata_header (requestId_ne_empty env args) _
  unfold delivered sent context
  rw [hid]
  dsimp only [Option.getD_some]
  rcases serve _ s with ⟨⟨message, _ | ⟨code, details⟩⟩, t⟩ <;> cases delivery <;> rfl

/-- A parsed value and a checked TTL, in the order in which the client asks for them. -/
theorem parsed_item {value : ValueInput} {ttl : ℤ} {label command : String} {f : Bytes → ℤ → Rpc}
    {rpc : Option Rpc}
    (h : (do return some (f (← parseValueInput env value label command) (← ttlField env ttl)) :
      Except Exn (Option Rpc)) = .ok rpc) :
    ∃ bytes n, parseValueInput env value label command = .ok bytes ∧ ttlField env ttl = .ok n ∧
      rpc = some (f bytes n) := by
  rcases hvalue : parseValueInput env value label command with _ | bytes
  · rw [hvalue] at h
    cases h
  rcases httl : ttlField env ttl with _ | n
  · rw [hvalue, httl] at h
    cases h
  · rw [hvalue, httl] at h
    cases h
    exact ⟨bytes, n, rfl, rfl, rfl⟩

theorem raising_apply {α : Type} {x : Except Exn α} {a : α} (h : x = .ok a) (s : σ) :
    (raising x : Act Failure σ α) s = (.ok a, s) := by
  rw [h]
  rfl

theorem run_eq (hclash : validateValueArgs args.command = none) {rpc : Rpc}
    (hrpc : args.command.rpc? env = .ok (some rpc)) (s : σ) :
    run env (CacheServiceStub.of proto app delivery) args s =
      (told env args delivery (rpc.serve app (context env args) s).1,
        delivery.leaves s (rpc.serve app (context env args) s).2) := by
  rw [run, hclash]
  simp only [Act.handle, request]
  cases hcommand : args.command with
  | get key format output =>
    rw [hcommand] at hrpc
    cases hrpc
    simp only [CacheServiceStub.of, Act.bind_apply, delivered_metadata, Rpc.serve, Prod.map, Answer.map,
      told, report, hcommand]
    rcases GrpcCacheService.get app _ key s with ⟨⟨message, _ | ⟨code, details⟩⟩, t⟩ <;> cases delivery <;> rfl
  | set key value ttl =>
    rw [hcommand] at hrpc
    obtain ⟨bytes, n, hvalue, httl, ⟨⟩⟩ := @parsed_item _ _ _ _ _ (fun bytes n => .set ⟨key, bytes, n⟩) _ hrpc
    simp only [CacheServiceStub.of, Act.bind_apply, raising_apply hvalue, raising_apply httl, delivered_metadata,
      Rpc.serve, Prod.map, Answer.map, told, report]
    rcases GrpcCacheService.set app _ _ s with ⟨⟨message, _ | ⟨code, details⟩⟩, t⟩ <;> cases delivery <;> rfl
  | setIfAbsent key value ttl =>
    rw [hcommand] at hrpc
    obtain ⟨bytes, n, hvalue, httl, ⟨⟩⟩ :=
      @parsed_item _ _ _ _ _ (fun bytes n => .setIfAbsent ⟨key, bytes, n⟩) _ hrpc
    simp only [CacheServiceStub.of, Act.bind_apply, raising_apply hvalue, raising_apply httl, delivered_metadata,
      Rpc.serve, Prod.map, Answer.map, told, report]
    rcases GrpcCacheService.setIfAbsent app _ _ s with ⟨⟨message, _ | ⟨code, details⟩⟩, t⟩ <;> cases delivery <;> rfl
  | compareAndSet key expectedValue value ttl =>
    rw [hcommand, Command.rpc?] at hrpc
    rcases hexpected : parseValueInput env expectedValue "expected-value" "compare-and-set" with _ | expected
    · rw [hexpected] at hrpc
      cases hrpc
    rw [hexpected] at hrpc
    obtain ⟨bytes, n, hvalue, httl, ⟨⟩⟩ :=
      @parsed_item _ _ _ _ _ (fun bytes n => .compareAndSet ⟨key, expected, bytes, n⟩) _ hrpc
    simp only [CacheServiceStub.of, Act.bind_apply, raising_apply hexpected, raising_apply hvalue,
      raising_apply httl, delivered_metadata, Rpc.serve, Prod.map, Answer.map, told, report]
    rcases GrpcCacheService.compareAndSet app _ _ s with ⟨⟨message, _ | ⟨code, details⟩⟩, t⟩ <;> cases delivery <;> rfl
  | delete key =>
    rw [hcommand] at hrpc
    cases hrpc
    simp only [CacheServiceStub.of, Act.bind_apply, delivered_metadata, Rpc.serve, Prod.map, Answer.map, told, report]
    rcases GrpcCacheService.delete app _ key s with ⟨⟨message, _ | ⟨code, details⟩⟩, t⟩ <;> cases delivery <;> rfl
  | stats =>
    rw [hcommand] at hrpc
    cases hrpc

theorem raising_error {α : Type} {x : Except Exn α} {exc : Exn} (h : x = .error exc) (s : σ) :
    (raising x : Act Failure σ α) s = (.error (.exception exc), s) := by
  rw [h]
  rfl

theorem unparsed_item {value : ValueInput} {ttl : ℤ} {label command : String} {f : Bytes → ℤ → Rpc}
    {exc : Exn} {call : Bytes → ℤ → Act Failure σ Outcome}
    (h : (do return some (f (← parseValueInput env value label command) (← ttlField env ttl)) :
      Except Exn (Option Rpc)) = .error exc) (s : σ) :
    (do
      let value ← raising (parseValueInput env value label command)
      let ttl ← raising (ttlField env ttl)
      call value ttl : Act Failure σ Outcome) s = (.error (.exception exc), s) := by
  rcases hvalue : parseValueInput env value label command with _ | bytes
  · rw [hvalue] at h
    cases h
    exact Act.bind_of_error (raising_error rfl s)
  rw [Act.bind_of_ok (raising_apply rfl s)]
  rcases httl : ttlField env ttl with _ | n
  · rw [hvalue, httl] at h
    cases h
    exact Act.bind_of_error (raising_error rfl s)
  · rw [hvalue, httl] at h
    cases h

theorem run_error {stub : CacheServiceStub σ} (hclash : validateValueArgs args.command = none) {exc : Exn}
    (hrpc : args.command.rpc? env = .error exc) (s : σ) :
    run env stub args s = (failed (.exception exc), s) := by
  rw [run, hclash]
  simp only [Act.handle, request]
  cases hcommand : args.command with
  | get | delete | stats =>
    rw [hcommand] at hrpc
    cases hrpc
  | set key value ttl =>
    rw [hcommand] at hrpc
    simp only [@unparsed_item σ _ _ _ _ _ (fun bytes n => .set ⟨key, bytes, n⟩) _ _ hrpc]
  | setIfAbsent key value ttl =>
    rw [hcommand] at hrpc
    simp only [@unparsed_item σ _ _ _ _ _ (fun bytes n => .setIfAbsent ⟨key, bytes, n⟩) _ _ hrpc]
  | compareAndSet key expectedValue value ttl =>
    rw [hcommand, Command.rpc?] at hrpc
    rcases hexpected : parseValueInput env expectedValue "expected-value" "compare-and-set" with _ | expected
    · rw [hexpected] at hrpc
      cases hrpc
      simp only [Act.bind_of_error (raising_error hexpected s)]
    rw [hexpected] at hrpc
    simp only [Act.bind_of_ok (raising_apply hexpected s),
      @unparsed_item σ _ _ _ _ _ (fun bytes n => .compareAndSet ⟨key, expected, bytes, n⟩) _ _ hrpc]

theorem namespaceHeaders_metadata (requestId : String) (ns : Option String) :
    (namespaceHeaders (metadata requestId ns)).length ≤ 1 := by
  have hheader : isNamespaceHeader REQUEST_ID_HEADER = false := by decide +kernel
  unfold namespaceHeaders metadata
  rw [List.length_map, List.filter_cons, hheader, if_neg Bool.false_ne_true]
  refine (List.length_filter_le _ _).trans ?_
  rw [List.length_map]
  cases ns.filter fun ns => !ns.isEmpty <;> simp

theorem place_valid {K key : Key} (h : place (context env args).metadata key = .ok K) :
    validateKey K = .ok () := by
  obtain ⟨hformed, rfl⟩ := (place_ok (namespaceHeaders_metadata _ _)).mp h
  exact validateKey_storagePlace hformed

section

variable {clock : ℕ → Time} {s : CacheStore} {rpc : Rpc}

/-- The client at the in-memory store. -/
abbrev atStore (env : Environment) (proto : Protobuf) (clock : ℕ → Time) (args : Args) (delivery : Delivery) :
    CacheStore → Outcome × CacheStore :=
  run env (CacheServiceStub.of proto (CacheApplicationService.app CacheStore.step clock) delivery) args

theorem atStore_refused (hclash : validateValueArgs args.command = none)
    (hrpc : args.command.rpc? env = .ok (some rpc)) {x : PyError}
    (hplace : place (context env args).metadata rpc.key = .error x) :
    ∃ message, atStore env proto clock args .answered s =
      (failed (.rpc "INVALID_ARGUMENT" message), s) := by
  obtain ⟨message, rfl⟩ := place_error hplace
  refine ⟨message, ?_⟩
  rw [atStore, run_eq hclash hrpc, Rpc.serve_eq, hplace]
  cases rpc <;> rfl

theorem atStore_eq (hs : s.Inv) (hclash : validateValueArgs args.command = none)
    (hrpc : args.command.rpc? env = .ok (some rpc)) {K : Key}
    (hplace : place (context env args).metadata rpc.key = .ok K) :
    atStore env proto clock args .answered s =
      (report env args (rpc.answer (requestId env args)
          (.ok ((rpc.op K).onCell s.limits.maxValueBytes clock (s.entries K)).1)),
        (CacheStore.step s ⟨.client (rpc.op K), clock⟩).2) := by
  have hkey : (rpc.op K).key? = some K := by cases rpc <;> rfl
  have hstep := CacheStore.step_answer hs hkey clock
  rw [place_valid hplace] at hstep
  rw [atStore, run_eq hclash hrpc, Rpc.serve_eq, hplace]
  dsimp only
  rw [hstep]
  rfl

theorem atStore_lost (hclash : validateValueArgs args.command = none)
    (hrpc : args.command.rpc? env = .ok (some rpc)) (served : Bool) (failure : Failure) :
    atStore env proto clock args (.lost served failure) s =
      (failed failure, if served then (atStore env proto clock args .answered s).2 else s) := by
  rw [atStore, atStore, run_eq hclash hrpc, run_eq hclash hrpc]
  rfl

theorem failed_exitCode (failure : Failure) : (failed failure).exitCode = 2 ∧ (failed failure).stdout = [] := by
  cases failure <;> exact ⟨rfl, rfl⟩

end

theorem step_cell {clock : ℕ → Time} {s : CacheStore} (hs : s.Inv) {op : Op} {K : Key} (hkey : op.key? = some K)
    (hvalid : validateKey K = .ok ()) :
    (CacheStore.step s ⟨.client op, clock⟩).2.entries K =
      (op.onCell s.limits.maxValueBytes clock (s.entries K)).2 := by
  have hallowed := (CacheStore.step_outcome hs.counted ⟨.client op, clock⟩).allowed
  have hanswer := CacheStore.step_answer hs hkey clock
  rw [hvalid] at hanswer
  rw [hanswer] at hallowed
  exact congrArg Prod.snd (hallowed.onCell hkey)

theorem ttlField_ok {ttl n : ℤ} (h : ttlField env ttl = .ok n) : n = ttl := by
  unfold ttlField at h
  by_cases hfits : FitsBits 32 ttl
  · rw [env.proto.assign_fits 32 ttl hfits] at h
    cases h
    rfl
  · obtain ⟨message, hmessage⟩ := env.proto.assign_not_fits 32 ttl hfits
    rw [hmessage] at h
    cases h

theorem atStore_get {clock : ℕ → Time} {s : CacheStore} (hs : s.Inv) {key : Key} {format : Format}
    (hget : args.command = .get key format none) {K : Key}
    (hplace : place (context env args).metadata key = .ok K) :
    (atStore env proto clock args .answered s).1 =
      match (s.entries K).filter fun e => !e.isExpired (clock 0) with
      | some e => printValue env (emitResponseRequestId args [(REQUEST_ID_HEADER, requestId env args)]) format none
          { found := true, value := e.value }
      | none => printValue env (emitResponseRequestId args [(REQUEST_ID_HEADER, requestId env args)]) format none
          { found := false } := by
  have hclash : validateValueArgs args.command = none := by rw [hget]; rfl
  have hrpc : args.command.rpc? env = .ok (some (.get key)) := by rw [hget]; rfl
  rw [atStore_eq hs hclash hrpc hplace]
  simp only [Rpc.op, Op.onCell]
  cases (s.entries K).filter fun e => !e.isExpired (clock 0) with
  | none => simp only [Option.map_none, Rpc.answer, report, hget]
  | some e => simp only [Option.map_some, Rpc.answer, report, hget]

/-- `Set` says that all is well when it has left an entry with the value. -/
theorem atStore_set {clock : ℕ → Time} {s : CacheStore} (hs : s.Inv) {key : Key} {value : ValueInput} {ttl : ℤ}
    (hset : args.command = .set key value ttl) (hok : (atStore env proto clock args delivery s).1.exitCode = 0) :
    ∃ bytes K, parseValueInput env value "value" "set" = .ok bytes ∧
      place (context env args).metadata key = .ok K ∧ (atStore env proto clock args delivery s).2.Inv ∧
      (atStore env proto clock args delivery s).2.entries K =
        some (.new bytes (if ttl > 0 then some ttl else none) (clock 0)) := by
  rcases hclash : validateValueArgs args.command with _ | message
  swap
  · rw [atStore, run, hclash] at hok
    cases hok
  rcases hrpc : args.command.rpc? env with exc | rpc
  · rw [atStore, run_error hclash hrpc] at hok
    cases hok
  have hparsed := hrpc
  rw [hset] at hparsed
  obtain ⟨bytes, n, hvalue, httl, rfl⟩ := @parsed_item _ _ _ _ _ (fun bytes n => .set ⟨key, bytes, n⟩) _ hparsed
  obtain rfl : n = ttl := ttlField_ok httl
  cases delivery with
  | lost served failure =>
    rw [atStore_lost hclash hrpc, (failed_exitCode failure).1] at hok
    cases hok
  | answered =>
    rcases hplace : place (context env args).metadata key with x | K
    · obtain ⟨message, hrun⟩ := @atStore_refused _ _ proto clock s _ hclash hrpc x hplace
      rw [hrun] at hok
      cases hok
    have hrun := @atStore_eq _ _ proto clock s _ hs hclash hrpc K hplace
    rw [hrun] at hok ⊢
    refine ⟨bytes, K, hvalue, rfl, CacheStore.step_inv hs _, ?_⟩
    rw [step_cell hs rfl (place_valid hplace)]
    by_cases hsize : getsizeof bytes > s.limits.maxValueBytes
    · simp only [Rpc.op, Op.onCell, admission, if_pos hsize, Rpc.answer, report] at hok
      cases hok
    · simp only [Rpc.op, Op.onCell, if_neg hsize]

def noFiles : Environment where
  readBytes _ := .error .other
  writeBytes _ _ := .error .other
  uuid4 := ⟨"0123456789abcdef0123456789abcdef", rfl⟩
  proto := .upb
  statsText _ := ""

theorem parse_printed {value : Bytes} {format : Format} {text : String} {input : ValueInput}
    (h : encodeOutput value format = .ok text) (hinput : format.input text = some input) (label command : String) :
    parseValueInput env input label command = .ok value := by
  cases format with
  | base64 =>
    cases h
    cases hinput
    change decoded (Codec.Base64.decode (String.ofList (Codec.Base64.encode value)).toList) = _
    rw [String.toList_ofList, Codec.Base64.decode_encode]
    rfl
  | hex =>
    cases h
    cases hinput
    change decoded (Codec.Hex.decode (String.ofList (Codec.Hex.encode value)).toList) = _
    rw [String.toList_ofList, Codec.Hex.decode_encode]
    rfl
  | utf8 =>
    rw [encodeOutput] at h
    split at h
    · next hdecode =>
      cases h
      rw [Format.input] at hinput
      split_ifs at hinput
      cases hinput
      exact congrArg Except.ok (Codec.Utf8.encode_decode hdecode)
    · cases h

theorem atStore_printed {clock : ℕ → Time} {s : CacheStore} (hs : s.Inv) {key : Key} {format : Format}
    (hget : args.command = .get key format none) {text : String}
    (hprinted : (atStore env proto clock args delivery s).1.stdout = [text]) :
    ∃ K e, place (context env args).metadata key = .ok K ∧ s.entries K = some e ∧
      encodeOutput e.value format = .ok text ∧ (atStore env proto clock args delivery s).2.Inv := by
  have hclash : validateValueArgs args.command = none := by rw [hget]; rfl
  have hrpc : args.command.rpc? env = .ok (some (.get key)) := by rw [hget]; rfl
  cases delivery with
  | lost served failure =>
    rw [atStore_lost hclash hrpc, (failed_exitCode failure).2] at hprinted
    cases hprinted
  | answered =>
    rcases hplace : place (context env args).metadata key with x | K
    · obtain ⟨message, hrun⟩ := @atStore_refused _ _ proto clock s _ hclash hrpc x hplace
      rw [hrun] at hprinted
      cases hprinted
    have hinv : (atStore env proto clock args .answered s).2.Inv := by
      rw [atStore_eq hs hclash hrpc hplace]
      exact CacheStore.step_inv hs _
    rw [atStore_get hs hget hplace] at hprinted
    cases hlive : (s.entries K).filter fun e => !e.isExpired (clock 0) with
    | none =>
      rw [hlive] at hprinted
      cases hprinted
    | some e =>
      refine ⟨K, e, rfl, (Option.filter_eq_some_iff.mp hlive).1, ?_, hinv⟩
      simp only [hlive, printValue, if_true, Option.filter_none] at hprinted
      split at hprinted
      · next hencode =>
        cases hprinted
        exact hencode
      · cases hprinted

/-- What `get` has printed at one key, given to `set` at another in the same format, leaves the
same bytes there. -/
theorem copied_text_stores_same_bytes (limits : CacheStoreLimits) (before between : List Event)
    (proto : Protobuf) {env env' : Environment} {getArgs setArgs : Args} {key key' : Key} {format : Format}
    {text : String} {input : ValueInput} {ttl : ℤ} (hget : getArgs.command = .get key format none)
    (hset : setArgs.command = .set key' input ttl) (hinput : format.input text = some input)
    (clock clock' : ℕ → Time) (delivery delivery' : Delivery)
    (hprinted : (atStore env proto clock getArgs delivery
      (exec CacheStore.step (.init limits) before)).1.stdout = [text])
    (hok : (atStore env' proto clock' setArgs delivery' (exec CacheStore.step
      (atStore env proto clock getArgs delivery (exec CacheStore.step (.init limits) before)).2 between)).1.exitCode =
        0) :
    let read := atStore env proto clock getArgs delivery (exec CacheStore.step (.init limits) before)
    let written := atStore env' proto clock' setArgs delivery' (exec CacheStore.step read.2 between)
    ∃ K K' e e', place (context env getArgs).metadata key = .ok K ∧
      place (context env' setArgs).metadata key' = .ok K' ∧
      (exec CacheStore.step (.init limits) before).entries K = some e ∧ written.2.entries K' = some e' ∧
      e'.value = e.value := by
  intro read written
  obtain ⟨K, e, hplace, hfound, hencode, hread⟩ :=
    atStore_printed (CacheStore.exec_inv limits before).1 hget hprinted
  have hlater : (exec CacheStore.step read.2 between).Inv :=
    exec_always (I := CacheStore.Inv) (fun _ event h => CacheStore.step_inv h event) hread between
  obtain ⟨bytes, K', hvalue, hplace', -, hentry⟩ := atStore_set hlater hset hok
  rw [parse_printed hencode hinput] at hvalue
  cases hvalue
  exact ⟨K, K', e, _, hplace, hplace', hfound, hentry, rfl⟩

/-- The value is written over before its copy is stored. -/
theorem copied_text_stores_same_bytes_run :
    let stored := [⟨.client (.set "k" [255] none), fun _ => 0⟩]
    let written := atStore noFiles .upb (fun _ => 2)
      { command := .set "copy" { option := some (.base64 "/w==") } 0, namespace_ := some "n" } .answered
      (exec CacheStore.step (atStore noFiles .upb (fun _ => 1) { command := .get "k" .base64 none } .answered
        (exec CacheStore.step (.init (.small 0)) stored)).2 [⟨.client (.set "k" [] none), fun _ => 1⟩])
    ∃ K' e', written.2.entries K' = some e' ∧ e'.value = [255] := by
  intro stored written
  obtain ⟨K, K', e, e', hplace, -, he, he', hvalue⟩ :=
    @copied_text_stores_same_bytes (.small 0) stored [⟨.client (.set "k" [] none), fun _ => 1⟩] .upb noFiles noFiles
      { command := .get "k" .base64 none }
      { command := .set "copy" { option := some (.base64 "/w==") } 0, namespace_ := some "n" } "k" "copy" .base64
      "/w==" { option := some (.base64 "/w==") } 0 rfl rfl rfl (fun _ => 1) (fun _ => 2) .answered .answered
      (by decide +kernel) (by decide +kernel)
  have hK : (place (context noFiles { command := .get "k" .base64 none }).metadata "k").toOption = some "k" := by
    decide +kernel
  have hentry : ((exec CacheStore.step (.init (.small 0)) stored).entries "k").map CacheEntry.value = some [255] := by
    decide +kernel
  rw [hplace] at hK
  cases hK
  rw [he] at hentry
  exact ⟨K', e', he', hvalue.trans (Option.some.inj hentry)⟩

end TinyCache.Cli
