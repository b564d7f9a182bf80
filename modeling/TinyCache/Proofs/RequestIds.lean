import TinyCache.Proofs.NamespaceSelection
import TinyCache.Spec.RequestIds

/-! One id for each RPC. The interceptor and the handler both take `request_id_var` for unset
when it reads `-`, which a client may send: then the handler shows an id of its own. -/

namespace TinyCache

open Machine

variable {σ : Type}

theorem getRequestIdFromMetadata_eq (metadata : List (String × String)) :
    getRequestIdFromMetadata metadata = clientRequestId? metadata := by
  induction metadata with
  | nil => rfl
  | cons p metadata ih =>
    obtain ⟨name, value⟩ := p
    rw [getRequestIdFromMetadata, clientRequestId?, find?_header_cons, ih]
    rfl

theorem internalErrorDetails_inj {x y : String} (h : internalErrorDetails x = internalErrorDetails y) :
    x = y := by
  have hlist := congrArg String.toList h
  change ("Internal server error (request_id=" ++ x ++ ")").toList =
    ("Internal server error (request_id=" ++ y ++ ")").toList at hlist
  rw [String.toList_append, String.toList_append, String.toList_append, String.toList_append] at hlist
  exact String.toList_inj.mp (List.append_cancel_left (List.append_cancel_right hlist))

section

variable {α : Type} (uuid4 : ℕ → Uuid) (metadata : List (String × String))

/-- The id that the interceptor binds. -/
def boundId (uuids : ℕ) : String := (clientRequestId? metadata).getD (uuid4 uuids).hex

/-- The id that a handler goes by. -/
def handlerId (requestIdVar : String) (uuids : ℕ) : String :=
  if requestIdVar ≠ "-" then requestIdVar else (uuid4 uuids).hex

namespace RequestIdInterceptor

variable (sending : Sending) (behavior : Act Interruption (RpcScope σ) α) (self : RpcScope σ)

theorem requestIdScope_apply :
    ∃ made, requestIdScope uuid4 metadata sending behavior self =
      Act.ensuring
        (do
          sendInitialMetadata [(REQUEST_ID_HEADER, boundId uuid4 metadata self.uuids)] sending
          behavior)
        (RequestIdVar.reset ⟨self.requestIdVar⟩)
        { self with requestIdVar := boundId uuid4 metadata self.uuids, uuids := made } := by
  unfold requestIdScope boundId
  rw [getRequestIdFromMetadata_eq]
  cases clientRequestId? metadata with
  | none => exact ⟨self.uuids + 1, rfl⟩
  | some value => exact ⟨self.uuids, rfl⟩

/-- Unless it is cancelled while it sends, the scope goes on to the behavior. -/
theorem requestIdScope_cases :
    (sending = .cancelled ∧
      ∃ t, requestIdScope uuid4 metadata sending behavior self = (.error .cancelled, t) ∧
        t.initialMetadata = self.initialMetadata) ∨
    (sending ≠ .cancelled ∧ ∃ sent made,
      (sent = self.initialMetadata ∨ sent = some [(REQUEST_ID_HEADER, boundId uuid4 metadata self.uuids)]) ∧
      requestIdScope uuid4 metadata sending behavior self =
        Act.ensuring behavior (RequestIdVar.reset ⟨self.requestIdVar⟩)
          ⟨self.app, boundId uuid4 metadata self.uuids, sent, made⟩) := by
  obtain ⟨made, hscope⟩ := requestIdScope_apply uuid4 metadata sending behavior self
  rw [hscope]
  cases sending with
  | sent => exact Or.inr ⟨by decide, _, made, Or.inr rfl, rfl⟩
  | raised => exact Or.inr ⟨by decide, _, made, Or.inl rfl, rfl⟩
  | cancelled => exact Or.inl ⟨rfl, _, rfl, rfl⟩

/-- Whatever the behavior does to the variable and however it ends, the scope puts the old
value back. -/
theorem requestIdScope_restores :
    (requestIdScope uuid4 metadata sending behavior self).2.requestIdVar = self.requestIdVar := by
  obtain ⟨made, hscope⟩ := requestIdScope_apply uuid4 metadata sending behavior self
  rw [hscope]
  rfl

end RequestIdInterceptor

theorem Uuid.hex_ne (uuid : Uuid) : uuid.hex ≠ "-" := by
  intro h
  have hlen := uuid.length_hex
  rw [h] at hlen
  exact absurd hlen (by decide)

end

/-- A handler takes over the id that is bound, unless that reads like none. -/
theorem GrpcRequestLifecycle.beginRequest_apply {ε : Type} (uuid4 : ℕ → Uuid) (self : RpcScope σ) :
    ∃ state t, (beginRequest uuid4 self : Except ε _ × _) = (.ok state, t) ∧
      state.requestId = handlerId uuid4 self.requestIdVar self.uuids ∧
      t.app = self.app ∧ t.initialMetadata = self.initialMetadata := by
  unfold beginRequest ensureRequestId handlerId
  by_cases hvar : self.requestIdVar ≠ "-"
  · simp only [RequestIdVar.get, Act.bind_apply, Act.read_apply, Act.pure_apply, if_pos hvar]
    exact ⟨_, _, rfl, rfl, rfl, rfl⟩
  · simp only [RequestIdVar.get, Act.bind_apply, Act.read_apply, Act.pure_apply, if_neg hvar]
    exact ⟨_, _, rfl, rfl, rfl, rfl⟩

theorem GrpcRequestLifecycle.finishRequest_initialMetadata (state : RpcRequestState) (self : RpcScope σ) :
    (finishRequest state self).initialMetadata = self.initialMetadata := by
  unfold finishRequest
  cases state.token <;> rfl

namespace Call

variable {proto : Protobuf} {app : CacheApp σ} {metadata : List (String × String)} {uuid4 : ℕ → Uuid}

theorem handler_apply (call : Call) (cancelled : Bool) (self : RpcScope σ) :
    (call.handler proto app metadata uuid4 cancelled self).1 =
        (if cancelled = true ∧ call.awaits metadata = true then .error .cancelled
          else .ok (call.serve proto app metadata (handlerId uuid4 self.requestIdVar self.uuids) self.app).1) ∧
      (call.handler proto app metadata uuid4 cancelled self).2.initialMetadata = self.initialMetadata := by
  obtain ⟨state, t, hbegin, hid, happ, hsent⟩ := GrpcRequestLifecycle.beginRequest_apply uuid4 self
  rw [handler, Act.bind_of_ok hbegin, Act.ensuring_apply, GrpcRequestLifecycle.finishRequest_initialMetadata,
    Act.bind_apply, Act.zoom, Act.total, ← hid, ← happ, ← hsent]
  cases cancelled <;> cases call.awaits metadata <;> exact ⟨rfl, rfl⟩

theorem intercepted_apply (call : Call) (sending : Sending) (cancelled : Bool) (a : σ)
    (requestIdVar : String) (uuids : ℕ) :
    let served := call.intercepted proto app metadata uuid4 sending cancelled (.start a requestIdVar uuids)
    (∀ initialMetadata, served.2.initialMetadata = some initialMetadata →
      initialMetadata = [(REQUEST_ID_HEADER, boundId uuid4 metadata uuids)]) ∧
    (call.Cancelled metadata sending cancelled ∧ served.1 = .error .cancelled ∨
      ¬ call.Cancelled metadata sending cancelled ∧ ∃ made, served.1 = .ok
        (call.serve proto app metadata (handlerId uuid4 (boundId uuid4 metadata uuids) made) a).1) := by
  intro served
  unfold Cancelled
  rcases RequestIdInterceptor.requestIdScope_cases uuid4 metadata sending
      (call.handler proto app metadata uuid4 cancelled) (.start a requestIdVar uuids) with
    ⟨hsending, t, hserved, hnone⟩ | ⟨hsending, sent, made, hsent, hserved⟩
  · rw [show served = _ from hserved]
    refine ⟨?_, Or.inl ⟨Or.inl hsending, rfl⟩⟩
    intro initialMetadata h
    cases hnone.symm.trans h
  · obtain ⟨hend, hkept⟩ := @handler_apply _ proto app metadata uuid4 call cancelled
      ⟨a, boundId uuid4 metadata uuids, sent, made⟩
    rw [show served = _ from hserved, Act.ensuring_apply, or_iff_right hsending]
    refine ⟨?_, ?_⟩
    · intro initialMetadata h
      rcases hsent with rfl | rfl
      · cases hkept.symm.trans h
      · cases hkept.symm.trans h
        rfl
    · by_cases hcancelled : cancelled = true ∧ call.awaits metadata = true
      · rw [if_pos hcancelled] at hend
        exact Or.inl ⟨hcancelled, hend⟩
      · rw [if_neg hcancelled] at hend
        exact Or.inr ⟨hcancelled, made, hend⟩

end Call

section

variable {app : CacheApp σ} {context : RpcContext} {namespace_ : Option String}

namespace Rpc

/-- A handler leaves what it asks the application for, and answers with an internal error if
that raises something other than a `ValueError`. -/
theorem serve_ask (app : CacheApp σ) (h : namespaceFromContext context.metadata = .ok namespace_)
    (rpc : Rpc) (s : σ) :
    (rpc.serve app context s).2 = (rpc.ask app namespace_ s).2 ∧
      ∀ details, (rpc.serve app context s).1.status = some (.internal, details) ↔
        (rpc.ask app namespace_ s).1 = .error .other ∧ internalErrorDetails context.requestId = details := by
  cases rpc
  all_goals
    simp only [serve, ask, GrpcCacheService.get, GrpcCacheService.set, GrpcCacheService.setIfAbsent,
      GrpcCacheService.compareAndSet, GrpcCacheService.delete, GrpcCacheService.respond_namespace h]
    simp only [GrpcCacheService.respond, GrpcCacheService.conditionalResponse, Act.handle, Act.bind_apply]
  case get key =>
    rcases app.get key namespace_ s with ⟨(_ | _) | _ | _ | _, t⟩ <;> exact ⟨rfl, by simp [Answer.map]⟩
  case set request =>
    rcases app.set request.key request.value request.ttl namespace_ s with ⟨(_ | _) | status, t⟩
    · exact ⟨rfl, by simp [Answer.map]⟩
    · exact ⟨rfl, by simp [Answer.map]⟩
    · dsimp only
      cases mapSetStatus status <;> exact ⟨rfl, by simp [Answer.map]⟩
  case setIfAbsent request =>
    rcases app.setIfAbsent request.key request.value request.ttl namespace_ s with ⟨(_ | _) | status, t⟩
    · exact ⟨rfl, by simp [Answer.map]⟩
    · exact ⟨rfl, by simp [Answer.map]⟩
    · dsimp only
      cases (mapConditionalStatus status).error <;> exact ⟨rfl, by simp [Answer.map]⟩
  case compareAndSet request =>
    rcases app.compareAndSet request.key request.expectedValue request.value request.ttl namespace_ s with
      ⟨(_ | _) | status, t⟩
    · exact ⟨rfl, by simp [Answer.map]⟩
    · exact ⟨rfl, by simp [Answer.map]⟩
    · dsimp only
      cases (mapConditionalStatus status).error <;> exact ⟨rfl, by simp [Answer.map]⟩
  case delete key =>
    rcases app.delete key namespace_ s with ⟨(_ | _) | _, t⟩ <;> exact ⟨rfl, by simp [Answer.map]⟩

end Rpc

/-- A batch that tells of each element what its single call answers shows the id in the texts of
those that meet with an internal error. -/
theorem asked_errors (h : namespaceFromContext context.metadata = .ok namespace_) {ι β ρ : Type}
    {single : σ → ι → Answer β × σ} {error : ρ → String} (rpc : ι → Rpc) (result : ι → Answer β → ρ)
    (hsingle : ∀ s x, (single s x).2 = ((rpc x).serve app context s).2 ∧
      (single s x).1.status = ((rpc x).serve app context s).1.status)
    (herror : ∀ x (answer : Answer β) details, answer.status = some (.internal, details) →
      error (result x answer) = details)
    {is : List ι} {s : σ} {i : ℕ} {r : Step σ Rpc (Except Exn Unit)}
    (hr : (Rpc.asked app namespace_ (is.map rpc) s)[i]? = some r) (hother : r.output = .error .other) :
    (((trace single s is).map fun q => result q.input q.output).map error)[i]? =
      some (internalErrorDetails context.requestId) := by
  induction is generalizing s i with
  | nil => simp [Rpc.asked, trace] at hr
  | cons x is ih =>
    obtain ⟨hstate, hstatus⟩ := hsingle s x
    obtain ⟨hasked, hinternal⟩ := Rpc.serve_ask app h (rpc x) s
    cases i with
    | zero =>
      obtain rfl : record _ s (rpc x) = r := Option.some.inj hr
      have hdetails := hstatus.trans ((hinternal _).mpr ⟨hother, rfl⟩)
      exact congrArg some (herror x _ _ hdetails)
    | succ i =>
      apply ih
      rw [hstate, hasked]
      exact hr

namespace KeyCall

theorem single_or_batch (call : KeyCall) : (∃ rpc, call = .single rpc) ∨ call.elements = call.rpcs := by
  cases call with
  | single rpc => exact Or.inl ⟨rpc, rfl⟩
  | multiGet | multiSet | multiDelete => exact Or.inr rfl

theorem serve_errors (h : namespaceFromContext context.metadata = .ok namespace_) (call : KeyCall) {s : σ}
    {i : ℕ} {r : Step σ Rpc (Except Exn Unit)}
    (hr : (Rpc.asked app namespace_ call.elements s)[i]? = some r) (hother : r.output = .error .other) :
    (call.serve app context s).1.message.errors[i]? = some (internalErrorDetails context.requestId) := by
  cases call with
  | single rpc => simp [elements, Rpc.asked, trace] at hr
  | multiGet keys =>
    rw [serve, GrpcCacheService.multiGet_eq app h]
    refine asked_errors h .get GrpcCacheService.lookupOf (fun _ _ => ⟨?_, ?_⟩) ?_ hr hother
    · rfl
    · rfl
    intro key answer details hdetails
    simp [GrpcCacheService.lookupOf, hdetails]
  | multiSet items =>
    rw [serve, GrpcCacheService.multiSet_eq app h]
    refine asked_errors h .set (fun item => GrpcCacheService.resultOf item.key) (fun _ _ => ⟨?_, ?_⟩) ?_
      hr hother
    · rfl
    · rfl
    intro item answer details hdetails
    simp [GrpcCacheService.resultOf, hdetails]
  | multiDelete keys =>
    rw [serve, GrpcCacheService.multiDelete_eq app h]
    refine asked_errors h .delete GrpcCacheService.resultOf (fun _ _ => ⟨?_, ?_⟩) ?_ hr hother
    · rfl
    · rfl
    intro key answer details hdetails
    simp [GrpcCacheService.resultOf, hdetails]

theorem serve_details {call : KeyCall} {s : σ} {details : String} :
    (call.serve app context s).1.status = some (.internal, details) ↔
      (∃ rpc namespace_, call = .single rpc ∧ namespaceFromContext context.metadata = .ok namespace_ ∧
        (rpc.ask app namespace_ s).1 = .error .other) ∧ internalErrorDetails context.requestId = details := by
  rcases hns : namespaceFromContext context.metadata with x | namespace_
  · obtain ⟨message, rfl⟩ := namespaceFromContext_error hns
    have hcode := (@serve_of_malformed _ app _ _ hns call s).1
    refine iff_of_false ?_ ?_
    · intro hinternal
      rw [Answer.code, hinternal] at hcode
      cases hcode
    · rintro ⟨⟨rpc, namespace_, -, h, -⟩, -⟩
      cases h
  · cases call with
    | single rpc =>
      rw [serve]
      refine ((Rpc.serve_ask app hns rpc s).2 details).trans (and_congr_left fun _ => ?_)
      simp
    | multiGet keys => simp [serve, GrpcCacheService.multiGet_eq app hns, Answer.map]
    | multiSet items => simp [serve, GrpcCacheService.multiSet_eq app hns, Answer.map]
    | multiDelete keys => simp [serve, GrpcCacheService.multiDelete_eq app hns, Answer.map]

end KeyCall

end

namespace Call

variable {proto : Protobuf} {app : CacheApp σ} {metadata : List (String × String)}

theorem stats_details {requestId details : String} {a : σ} :
    (Call.stats.serve proto app metadata requestId a).1.status = some (.internal, details) ↔
      Call.stats.Fails app metadata proto a ∧ internalErrorDetails requestId = details := by
  simp only [serve, Fails, GrpcCacheService.stats, Act.handle, Act.bind_apply, Act.check_apply]
  rcases app.stats a with ⟨x | snapshot, t⟩
  · simp [Answer.map]
  · rcases hmessage : cacheStatsResponse proto snapshot with x | message <;>
      simp [Answer.map, Except.mapError, hmessage]

/-- Who reads an internal error knows that the application has failed. -/
theorem fails_of_details {call : Call} {requestId details : String} {a : σ}
    (h : (call.serve proto app metadata requestId a).1.status = some (.internal, details)) :
    call.Fails app metadata proto a ∧ internalErrorDetails requestId = details := by
  cases call with
  | stats => exact stats_details.mp h
  | keyed call =>
    obtain ⟨⟨rpc, namespace_, rfl, hns, hother⟩, hdetails⟩ := KeyCall.serve_details.mp h
    exact ⟨⟨namespace_, hns, _, record_mem a rpc [], hother⟩, hdetails⟩

theorem fails_of_asked {call : KeyCall} {namespace_ : Option String} {a : σ} {i : ℕ}
    {r : Step σ Rpc (Except Exn Unit)} (hns : namespaceFromContext metadata = .ok namespace_)
    (hr : (Rpc.asked app namespace_ call.elements a)[i]? = some r) (hother : r.output = .error .other) :
    (Call.keyed call).Fails app metadata proto a := by
  rcases call.single_or_batch with ⟨rpc, rfl⟩ | hbatch
  · cases hr
  · rw [hbatch] at hr
    exact ⟨namespace_, hns, r, List.mem_of_getElem? hr, hother⟩

/-- A failure of the application shows in the details or in the text of an element. -/
theorem shown_of_fails {call : Call} {a : σ} (requestId : String) (h : call.Fails app metadata proto a) :
    (call.serve proto app metadata requestId a).1.status = some (.internal, internalErrorDetails requestId) ∨
      ∃ (keyed : KeyCall) (namespace_ : Option String) (i : ℕ) (r : Step σ Rpc (Except Exn Unit)),
        call = .keyed keyed ∧ namespaceFromContext metadata = .ok namespace_ ∧
        (Rpc.asked app namespace_ keyed.elements a)[i]? = some r ∧ r.output = .error .other := by
  cases call with
  | stats => exact Or.inl (stats_details.mpr ⟨h, rfl⟩)
  | keyed call =>
    obtain ⟨namespace_, hns, r, hr, hother⟩ := h
    rcases call.single_or_batch with ⟨rpc, rfl⟩ | hbatch
    · obtain rfl : r = record _ a rpc := List.mem_singleton.mp hr
      have hinternal : (KeyCall.serve app ⟨metadata, requestId⟩ (.single rpc) a).1.status = _ :=
        KeyCall.serve_details.mpr ⟨⟨rpc, namespace_, rfl, hns, hother⟩, rfl⟩
      exact Or.inl hinternal
    · rw [← hbatch] at hr
      obtain ⟨i, hi⟩ := List.getElem?_of_mem hr
      exact Or.inr ⟨call, namespace_, i, r, rfl, hns, hi, hother⟩

/-- The handler shows its id if the application fails, and no other. -/
theorem shows_iff {call : Call} {a : σ} {requestId id : String}
    {served : Except Interruption (Answer (Response ⊕ CacheStats)) × RpcScope σ}
    (hserved : served.1 = .ok (call.serve proto app metadata requestId a).1)
    (hsent : ∀ initialMetadata, served.2.initialMetadata = some initialMetadata →
      initialMetadata = [(REQUEST_ID_HEADER, id)]) :
    ShowsId app metadata call a served id ↔ (call.Fails app metadata proto a → requestId = id) := by
  constructor
  · intro hshows hfails
    rcases shown_of_fails requestId hfails with hinternal | ⟨keyed, namespace_, i, r, rfl, hns, hr, hother⟩
    · exact internalErrorDetails_inj (hshows.details _ _ hserved hinternal)
    · have hown : (KeyCall.serve app ⟨metadata, requestId⟩ keyed a).1.message.errors[i]? = _ :=
        KeyCall.serve_errors hns keyed hr hother
      have hshown := hshows.elements _ _ keyed namespace_ i r hserved rfl rfl hns hr hother
      exact internalErrorDetails_inj (Option.some.inj (hown.symm.trans hshown))
  · intro hid
    refine ⟨hsent, ?_, ?_⟩
    · intro answer details hanswer hinternal
      rw [hserved, Except.ok.injEq] at hanswer
      rw [← hanswer] at hinternal
      obtain ⟨hfails, hdetails⟩ := fails_of_details hinternal
      rw [← hdetails, hid hfails]
    · intro answer response keyed namespace_ i r hanswer hmessage hcall hns hr hother
      subst hcall
      rw [hserved, Except.ok.injEq] at hanswer
      rw [← hanswer] at hmessage
      obtain rfl : _ = response := Sum.inl.inj hmessage
      rw [← hid (fails_of_asked hns hr hother)]
      exact KeyCall.serve_errors hns keyed hr hother

end Call

section

variable {uuid4 : ℕ → Uuid} {metadata : List (String × String)} {uuids : ℕ}

theorem boundId_of_client {value : String} (h : clientRequestId? metadata = some value) :
    boundId uuid4 metadata uuids = value := by
  rw [boundId, h, Option.getD_some]

theorem boundId_ne (h : clientRequestId? metadata ≠ some "-") : boundId uuid4 metadata uuids ≠ "-" := by
  unfold boundId
  cases hclient : clientRequestId? metadata with
  | none => exact Uuid.hex_ne _
  | some value =>
    rw [hclient] at h
    exact fun hvalue => h (congrArg some hvalue)

/-- The handler takes the id of the client for none, makes one and shows that. -/
theorem not_oneRequestId {proto : Protobuf} {app : CacheApp σ} {call : Call} {sending : Sending}
    {cancelled : Bool} {a : σ} {requestIdVar : String} (hdash : clientRequestId? metadata = some "-")
    (hcancelled : ¬ call.Cancelled metadata sending cancelled) (hfails : call.Fails app metadata proto a) :
    ¬ OneRequestId app metadata call a requestIdVar
      (call.intercepted proto app metadata uuid4 sending cancelled (.start a requestIdVar uuids)) := by
  rintro ⟨-, id, hshows, hid⟩
  obtain ⟨-, hend⟩ := @Call.intercepted_apply _ proto app metadata uuid4 call sending cancelled a
    requestIdVar uuids
  obtain ⟨-, made, hserved⟩ := hend.resolve_left fun h => hcancelled h.1
  have hhandler := (Call.shows_iff hserved hshows.sent).mp hshows hfails
  rw [boundId_of_client hdash, handlerId, if_neg (not_not.mpr rfl), hid _ hdash] at hhandler
  exact Uuid.hex_ne _ hhandler

theorem oneRequestId_of_bound {proto : Protobuf} {app : CacheApp σ} {call : Call} {sending : Sending}
    {cancelled : Bool} {a : σ} {requestIdVar : String}
    (h : clientRequestId? metadata ≠ some "-" ∨ call.Cancelled metadata sending cancelled ∨
      ¬ call.Fails app metadata proto a) :
    OneRequestId app metadata call a requestIdVar
      (call.intercepted proto app metadata uuid4 sending cancelled (.start a requestIdVar uuids)) := by
  obtain ⟨hsent, hend⟩ := @Call.intercepted_apply _ proto app metadata uuid4 call sending cancelled a
    requestIdVar uuids
  refine ⟨RequestIdInterceptor.requestIdScope_restores uuid4 metadata sending _ _,
    boundId uuid4 metadata uuids, ?_, fun _ => boundId_of_client⟩
  rcases hend with ⟨-, hserved⟩ | ⟨hcancelled, made, hserved⟩
  · -- nothing is answered, and what has been sent shows the id that is bound
    refine ⟨hsent, ?_, ?_⟩
    · intro answer details hanswer
      cases hserved.symm.trans hanswer
    · intro answer response keyed namespace_ i r hanswer
      cases hserved.symm.trans hanswer
  · rw [or_iff_right hcancelled] at h
    refine (Call.shows_iff hserved hsent).mpr ?_
    intro hfails
    rw [handlerId, if_pos (boundId_ne (h.resolve_right (not_not.mpr hfails)))]

end

/-- An RPC has one id unless the client has sent `-` for it, the application fails and the RPC is
not cancelled before it says so. -/
theorem request_ids_agree (uuid4 : ℕ → Uuid) (proto : Protobuf) (app : CacheApp σ)
    (metadata : List (String × String)) (call : Call) (sending : Sending) (cancelled : Bool) (a : σ)
    (requestIdVar : String) (uuids : ℕ) :
    OneRequestId app metadata call a requestIdVar
        (call.intercepted proto app metadata uuid4 sending cancelled (.start a requestIdVar uuids)) ↔
      clientRequestId? metadata ≠ some "-" ∨ call.Cancelled metadata sending cancelled ∨
        ¬ call.Fails app metadata proto a := by
  constructor
  · intro hone
    by_contra hnot
    rw [not_or, not_or, not_not, not_not] at hnot
    obtain ⟨hdash, hcancelled, hfails⟩ := hnot
    exact not_oneRequestId hdash hcancelled hfails hone
  · exact oneRequestId_of_bound

/-- The statement that looks up a row raises, and the client has sent `-` as its id. -/
theorem request_ids_differ :
    ¬ ∀ (uuid4 : ℕ → Uuid) (db : Engine) (args : LimitArgs) (s : SqliteCacheStore) (c : Connection)
      (metadata : List (String × String)) (call : Call),
      SqliteCacheStore.init db args .new = (.ok s, c) →
        OneRequestId (CacheApplicationService.app (SqliteCacheStore.step db) fun _ => 0) metadata call s "-"
          (call.intercepted .upb (CacheApplicationService.app (SqliteCacheStore.step db) fun _ => 0) metadata
            uuid4 .sent false (.start s "-" 0)) := by
  intro h
  have hinit : SqliteCacheStore.init ⟨fun n => n == 6, fun _ => 0⟩ ⟨none, none, none, none⟩ .new =
      (.ok _, _) := rfl
  have hone := h (fun _ => ⟨"0123456789abcdef0123456789abcdef", rfl⟩) _ _ _ _ [("x-request-id", "-")]
    (.keyed (.single (.get "k"))) hinit
  have hplace : CacheApplicationService.storageKey "k" none = .ok "k" := by decide +kernel
  refine not_oneRequestId (by decide +kernel) (by simp [Call.Cancelled]) ?_ hone
  refine ⟨none, by decide +kernel, _, record_mem _ _ [], ?_⟩
  simp only [record, Rpc.ask, CacheApplicationService.app, CacheApplicationService.get,
    CacheApplicationService.port, Act.mapError, Act.bind_apply, Act.check_apply, hplace]
  rfl

end TinyCache
