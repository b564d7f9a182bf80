import TinyCache.Proofs.MemoryHistory
import TinyCache.Sanity.Service
import TinyCache.Spec.ApiContract

/-! The error contract of the single-key calls. A call first finds its place in the store,
and every exception on that way is a `ValueError`; from there on the in-memory store raises
nothing. -/

namespace TinyCache

open CacheApplicationService

variable {metadata : List (String × String)} {key : Key}

/-- Looking through the pairs for the first value of a header that is not empty. -/
theorem find?_header_cons (isHeader : String → Bool) (name value : String)
    (metadata : List (String × String)) :
    (((((name, value) :: metadata).filter fun p => isHeader p.1).map Prod.snd).find? fun v => !v.isEmpty) =
      if isHeader name && !value.isEmpty then some value
      else ((metadata.filter fun p => isHeader p.1).map Prod.snd).find? fun v => !v.isEmpty := by
  rw [List.filter_cons]
  by_cases hname : isHeader name = true
  · rw [if_pos hname, List.map_cons, List.find?_cons, hname, Bool.true_and]
    by_cases hvalue : value.isEmpty = true
    · simp [hvalue]
    · simp [hvalue]
  · simp [hname]

theorem namespaceFromContext_eq (metadata : List (String × String)) :
    namespaceFromContext metadata = validateNamespace (firstNamespace? metadata) := by
  induction metadata with
  | nil => rfl
  | cons p metadata ih =>
    obtain ⟨name, value⟩ := p
    rw [namespaceFromContext, firstNamespace?, namespaceHeaders, find?_header_cons, ih]
    split_ifs <;> rfl

/-- With one header at most, an empty value is no better than none. -/
theorem namespaceFromContext_single (h : (namespaceHeaders metadata).length ≤ 1) :
    namespaceFromContext metadata = validateNamespace (namespaceHeaders metadata).head? := by
  rw [namespaceFromContext_eq, firstNamespace?]
  rcases hheaders : namespaceHeaders metadata with _ | ⟨value, values⟩
  · rfl
  · obtain rfl : values = [] := by
      rw [hheaders, List.length_cons] at h
      exact List.eq_nil_of_length_eq_zero (by omega)
    by_cases hvalue : value.isEmpty = true
    · rw [String.isEmpty_iff.mp hvalue]
      rfl
    · simp [hvalue]

/-- What a namespace is once it is trimmed; a blank one is none. -/
def trimmed? (ns : Option String) : Option String := (ns.map strip).filter fun n => !n.isEmpty

theorem trimmed?_eq_some {ns : Option String} {n : String} (h : trimmed? ns = some n) :
    ∃ value, ns = some value ∧ strip value = n ∧ n.isEmpty = false := by
  obtain ⟨hn, hne⟩ := Option.filter_eq_some_iff.mp h
  obtain ⟨value, rfl, rfl⟩ := Option.map_eq_some_iff.mp hn
  exact ⟨value, rfl, rfl, by simpa using hne⟩

theorem validateNamespace_of_blank {ns : Option String} (h : trimmed? ns = none) :
    validateNamespace ns = .ok none := by
  cases ns with
  | none => rfl
  | some value =>
    have hblank : (strip value).isEmpty = true := by simpa [trimmed?, Option.filter] using h
    simp [validateNamespace, hblank]

theorem validateNamespace_of_formed {ns : Option String} {n : String} (h : trimmed? ns = some n)
    (hlen : n.length ≤ MAX_NAMESPACE_LENGTH) (hm : matchesNamespacePattern n = true) :
    validateNamespace ns = .ok (some n) := by
  obtain ⟨value, rfl, rfl, hne⟩ := trimmed?_eq_some h
  simp [validateNamespace, hne, not_lt.mpr hlen, hm]

theorem validateNamespace_of_malformed {ns : Option String} {n : String} (h : trimmed? ns = some n)
    (hm : n.length > MAX_NAMESPACE_LENGTH ∨ matchesNamespacePattern n = false) :
    ∃ message, validateNamespace ns = .error (.valueError message) := by
  obtain ⟨value, rfl, rfl, hne⟩ := trimmed?_eq_some h
  simp only [validateNamespace, hne, Bool.false_eq_true, if_false]
  by_cases hlong : (strip value).length > MAX_NAMESPACE_LENGTH
  · rw [if_pos hlong]
    exact ⟨_, rfl⟩
  · rw [if_neg hlong, hm.resolve_left hlong, if_neg Bool.false_ne_true]
    exact ⟨_, rfl⟩

theorem validateNamespace_error {ns : Option String} {x : PyError} (h : validateNamespace ns = .error x) :
    ∃ message, x = .valueError message := by
  cases ns with
  | none => cases h
  | some value =>
    simp only [validateNamespace] at h
    split_ifs at h
    · cases h
      exact ⟨_, rfl⟩
    · cases h
      exact ⟨_, rfl⟩

theorem validateKey_error {key : Key} {x : PyError} (h : validateKey key = .error x) :
    ∃ message, x = .valueError message := by
  unfold validateKey at h
  split_ifs at h
  · cases h
    exact ⟨_, rfl⟩
  · cases h
    exact ⟨_, rfl⟩

theorem storageKey_error {ns : Option String} {x : PyError} (h : storageKey key ns = .error x) :
    ∃ message, x = .valueError message := by
  rcases hkey : validateKey key with y | _
  · rw [storageKey, hkey] at h
    cases h
    exact validateKey_error hkey
  rcases hns : validateNamespace ns with y | _ | n
  · rw [storageKey, hkey, hns] at h
    cases h
    exact validateNamespace_error hns
  · rw [storageKey, hkey, hns] at h
    cases h
  · rw [storageKey_some hkey hns] at h
    split_ifs at h
    cases h
    exact ⟨_, rfl⟩

/-- Where a call finds its place: in the metadata first, then in the application. -/
def place (metadata : List (String × String)) (key : Key) : Except PyError Key := do
  storageKey key (← namespaceFromContext metadata)

theorem namespaceFromContext_error {x : PyError} (h : namespaceFromContext metadata = .error x) :
    ∃ message, x = .valueError message := by
  induction metadata with
  | nil => cases h
  | cons p metadata ih =>
    rw [namespaceFromContext] at h
    split_ifs at h
    · exact validateNamespace_error h
    · exact ih h

theorem place_error {x : PyError} (h : place metadata key = .error x) :
    ∃ message, x = .valueError message := by
  unfold place at h
  rcases hns : namespaceFromContext metadata with y | ns
  · rw [hns] at h
    cases h
    exact namespaceFromContext_error hns
  · rw [hns] at h
    exact storageKey_error h

theorem namespaceFromContext_ok (h : (namespaceHeaders metadata).length ≤ 1)
    (hformed : ∀ n, namespace? metadata = some n →
      n.length ≤ MAX_NAMESPACE_LENGTH ∧ matchesNamespacePattern n = true) :
    namespaceFromContext metadata = .ok (namespace? metadata) ∧
      validateNamespace (namespace? metadata) = .ok (namespace? metadata) := by
  rw [namespaceFromContext_single h]
  cases hn : namespace? metadata with
  | none => exact ⟨validateNamespace_of_blank hn, rfl⟩
  | some n =>
    obtain ⟨hlen, hm⟩ := hformed n hn
    exact ⟨validateNamespace_of_formed hn hlen hm, validateNamespace_of_matches hm hlen⟩

/-- A call has a place unless it is malformed. -/
theorem place_ok (h : (namespaceHeaders metadata).length ≤ 1) {K : Key} :
    place metadata key = .ok K ↔ ¬ Malformed metadata key ∧ K = storagePlace metadata key := by
  unfold place
  by_cases hformed : ∃ n, namespace? metadata = some n ∧
      (n.length > MAX_NAMESPACE_LENGTH ∨ matchesNamespacePattern n = false)
  · obtain ⟨n, hn, hm⟩ := hformed
    obtain ⟨message, herr⟩ := validateNamespace_of_malformed hn hm
    rw [namespaceFromContext_single h, herr]
    exact ⟨fun h => (nomatch h), fun h => absurd (Or.inl ⟨n, hn, hm⟩) h.1⟩
  · have hspace := namespaceFromContext_ok h fun n hn => by
      simpa [hn] using hformed
    rw [hspace.1]
    change storageKey key (namespace? metadata) = .ok K ↔ _
    rw [storageKey_ok, hspace.2, validateKey_ok, Malformed, or_iff_right hformed]
    constructor
    · rintro ⟨⟨hne, hlen⟩, _, ⟨⟩, rfl, hK⟩
      exact ⟨by simp [hne, not_lt.mpr hlen, storagePlace, not_lt.mpr hK], rfl⟩
    · rintro ⟨hok, rfl⟩
      rw [not_or, not_or, not_lt, not_lt] at hok
      exact ⟨⟨hok.1, hok.2.1⟩, _, rfl, rfl, hok.2.2⟩

namespace Rpc

/-- What a handler makes of what the store has returned or raised. -/
def answer (requestId : String) (rpc : Rpc) (out : Except PyError Reply) : Answer Message :=
  let empty : Message := match rpc with
    | .get _ => .value {}
    | .set _ | .delete _ => .response {}
    | .setIfAbsent _ | .compareAndSet _ => .conditional {}
  match rpc, out with
  | _, .error (.valueError message) => ⟨empty, some (.invalidArgument, message)⟩
  | .get _, .ok (.value none) => ⟨.value { found := false }, none⟩
  | .get _, .ok (.value (some value)) => ⟨.value { found := true, value := value }, none⟩
  | .set _, .ok (.status status) =>
    match mapSetStatus status with
    | none => ⟨.response { status := .ok }, none⟩
    | some error => ⟨empty, some (.resourceExhausted, error)⟩
  | .setIfAbsent _, .ok (.conditional status) | .compareAndSet _, .ok (.conditional status) =>
    (GrpcCacheService.conditionalResponse status).map .conditional
  | .delete _, .ok (.deleted _) => ⟨.response { status := .ok }, none⟩
  | _, _ => ⟨empty, some (.internal, internalErrorDetails requestId)⟩

theorem serve_eq {σ : Type} (store : σ → Event → Except PyError Reply × σ) (clock : ℕ → Time)
    (context : RpcContext) (rpc : Rpc) (s : σ) :
    rpc.serve (CacheApplicationService.app store clock) context s =
      match place context.metadata rpc.key with
      | .error x => (rpc.answer context.requestId (.error x), s)
      | .ok K => (rpc.answer context.requestId (store s ⟨.client (rpc.op K), clock⟩).1,
          (store s ⟨.client (rpc.op K), clock⟩).2) := by
  unfold place
  cases rpc
  all_goals
    simp only [serve, key, op, GrpcCacheService.get, GrpcCacheService.set, GrpcCacheService.setIfAbsent,
      GrpcCacheService.compareAndSet, GrpcCacheService.delete, GrpcCacheService.respond,
      GrpcCacheService.namespace_, CacheApplicationService.app, CacheApplicationService.get,
      CacheApplicationService.set, CacheApplicationService.setIfAbsent,
      CacheApplicationService.compareAndSet, CacheApplicationService.delete, port, Act.handle,
      Act.mapError, Act.bind_apply, Act.check_apply]
    rcases namespaceFromContext context.metadata with (message | _) | ns
    · rfl
    · rfl
    simp only [Except.mapError, bind, Except.bind]
    rcases storageKey _ ns with (message | _) | K
    · rfl
    · rfl
    simp only
    rcases store s _ with ⟨(_ | _) | ((_ | _) | (_ | _ | _) | _ | _ | _ | _), t⟩ <;> rfl

/-- The write gets as far as storing a value that is too large. -/
def Oversize (maxValueBytes : ℤ) (now : Time) (old : Option CacheEntry) (rpc : Rpc) : Prop :=
  ∃ value, rpc.stores? now old = some value ∧ getsizeof value > maxValueBytes

variable {maxValueBytes : ℤ} {clock : ℕ → Time} {old : Option CacheEntry} (requestId : String)
  (K : Key) (rpc : Rpc)

theorem answer_oversize (h : rpc.Oversize maxValueBytes (clock 0) old) :
    (rpc.answer requestId (.ok ((rpc.op K).onCell maxValueBytes clock old).1)).code =
      some .resourceExhausted := by
  obtain ⟨value, hstores, hsize⟩ := h
  have hadmission : admission maxValueBytes value = .valueTooLarge := if_pos hsize
  cases rpc with
  | get | delete => cases hstores
  | set request =>
    cases hstores
    simp only [op, Op.onCell, hadmission]
    rfl
  | setIfAbsent request =>
    simp only [stores?] at hstores
    split_ifs at hstores with hlive
    cases hstores
    simp only [op, Op.onCell, if_neg hlive, hadmission]
    rfl
  | compareAndSet request =>
    simp only [stores?] at hstores
    split at hstores
    · next e hlive =>
      split_ifs at hstores with he
      cases hstores
      simp only [op, Op.onCell, hlive, ne_eq, he, not_true_eq_false, if_false, hadmission]
      rfl
    · cases hstores

theorem answer_sent (h : ¬ rpc.Oversize maxValueBytes (clock 0) old) :
    (rpc.answer requestId (.ok ((rpc.op K).onCell maxValueBytes clock old).1)).status = none ∧
      SentAs ((rpc.op K).onCell maxValueBytes clock old).1
        (rpc.answer requestId (.ok ((rpc.op K).onCell maxValueBytes clock old).1)).message := by
  have hadmission : ∀ value, rpc.stores? (clock 0) old = some value →
      admission maxValueBytes value = .ok :=
    fun value hstores => if_neg fun hsize => h ⟨value, hstores, hsize⟩
  cases rpc with
  | get key =>
    simp only [op, Op.onCell]
    generalize Option.filter _ old = live
    cases live with
    | none => exact ⟨rfl, .miss⟩
    | some e => exact ⟨rfl, .hit e.value⟩
  | set request =>
    simp only [op, Op.onCell, hadmission request.value rfl]
    exact ⟨rfl, .set⟩
  | setIfAbsent request =>
    simp only [stores?] at hadmission
    simp only [op, Op.onCell]
    generalize Option.filter _ old = live at hadmission ⊢
    cases live with
    | none =>
      simp only [hadmission request.value rfl]
      exact ⟨rfl, .stored⟩
    | some e => exact ⟨rfl, .exists_⟩
  | compareAndSet request =>
    simp only [stores?] at hadmission
    simp only [op, Op.onCell]
    generalize Option.filter _ old = live at hadmission ⊢
    cases live with
    | none => exact ⟨rfl, .notFound⟩
    | some e =>
      by_cases he : e.value = request.expectedValue
      · simp only [he, ne_eq, not_true_eq_false, if_false, hadmission request.value (if_pos he)]
        exact ⟨rfl, .stored⟩
      · simp only [ne_eq, he, not_false_eq_true, if_true]
        exact ⟨rfl, .mismatch⟩
  | delete key => exact ⟨rfl, .deleted _⟩

end Rpc

theorem validateKey_storagePlace (h : ¬ Malformed metadata key) :
    validateKey (storagePlace metadata key) = .ok () := by
  unfold Malformed at h
  rw [not_or, not_or, not_or, not_lt, not_lt] at h
  refine validateKey_ok.mpr ⟨?_, h.2.2.2⟩
  unfold storagePlace
  cases namespace? metadata with
  | none => exact h.2.1
  | some n =>
    intro he
    have hle := length_le_storageKey n key
    rw [he] at hle
    exact h.2.1 (String.length_eq_zero_iff.mp (Nat.le_zero.mp hle))

open Machine in
/-- In every state that the in-memory store can reach, a single-key call that carries at
most one namespace header keeps the error contract. -/
theorem error_contract (limits : CacheStoreLimits) (events : List Event) (clock : ℕ → Time)
    (context : RpcContext) (hheader : (namespaceHeaders context.metadata).length ≤ 1) (rpc : Rpc) :
    let s := exec CacheStore.step (CacheStore.init limits) events
    let served := rpc.serve (CacheApplicationService.app CacheStore.step clock) context s
    ErrorContract context clock rpc s served.1 served.2 := by
  intro s served
  have hserved : served = _ := Rpc.serve_eq CacheStore.step clock context rpc s
  by_cases hmal : Malformed context.metadata rpc.key
  · obtain ⟨message, hplace⟩ : ∃ message, place context.metadata rpc.key = .error (.valueError message) := by
      rcases hplace : place context.metadata rpc.key with x | K
      · obtain ⟨message, rfl⟩ := place_error hplace
        exact ⟨message, rfl⟩
      · exact absurd hmal ((place_ok hheader).mp hplace).1
    rw [hplace] at hserved
    rw [hserved]
    have hcode : (rpc.answer context.requestId (.error (.valueError message))).code =
        some .invalidArgument := by
      cases rpc <;> rfl
    exact ⟨iff_of_true hcode hmal, fun _ => rfl, fun h => absurd hmal h, by simp [hcode],
      fun h => absurd hmal h⟩
  · obtain ⟨hinv, hlimits⟩ := CacheStore.exec_inv limits events
    have hkey : (rpc.op (storagePlace context.metadata rpc.key)).key? =
        some (storagePlace context.metadata rpc.key) := by
      cases rpc <;> rfl
    have hanswer := CacheStore.step_answer hinv hkey clock
    rw [validateKey_storagePlace hmal] at hanswer
    rw [(place_ok hheader).mpr ⟨hmal, rfl⟩] at hserved
    rw [hserved]
    set K := storagePlace context.metadata rpc.key with hK
    have hout : (CacheStore.step s ⟨.client (rpc.op K), clock⟩).1 =
        .ok ((rpc.op K).onCell s.limits.maxValueBytes clock (s.store.get? K)).1 := hanswer
    have hstep : CacheStore.step s ⟨.client (rpc.op K), clock⟩ =
        (.ok ((rpc.op K).onCell s.limits.maxValueBytes clock (s.store.get? K)).1,
          (CacheStore.step s ⟨.client (rpc.op K), clock⟩).2) :=
      Prod.ext hout rfl
    simp only [hout]
    by_cases hover : rpc.Oversize s.limits.maxValueBytes (clock 0) (s.store.get? K)
    · have hcode := Rpc.answer_oversize context.requestId K rpc hover
      exact ⟨iff_of_false (by simp [hcode]) hmal, fun h => absurd h hmal,
        fun _ => iff_of_true hcode hover, by simp [hcode], fun _ h => absurd hcode h⟩
    · obtain ⟨hstatus, hsent⟩ := Rpc.answer_sent context.requestId K rpc hover
      have hcode := congrArg (Option.map Prod.fst) hstatus
      exact ⟨iff_of_false (by simp [Answer.code, hstatus]) hmal, fun h => absurd h hmal,
        fun _ => iff_of_false (by simp [Answer.code, hstatus]) hover, by simp [Answer.code, hstatus],
        fun _ _ => ⟨hstatus, _, hstep, hsent⟩⟩

open Machine in
/-- In a namespace with a live entry and one whose TTL has run out, a value too large for the
first is turned away, and the second is missing. -/
theorem error_contract_namespaced :
    let s := exec CacheStore.step (CacheStore.init (.small 3))
      [(Op.set "4:team:k" [1] none).atTime 0, (Op.set "4:team:x" [2] (some 5)).atTime 1]
    let context : RpcContext := ⟨[("X-Cache-Namespace", " team ")], "r1"⟩
    let swap : Rpc := .compareAndSet ⟨"k", [1], [1, 2, 3, 4, 5, 6, 7, 8], 5⟩
    let served (rpc : Rpc) := rpc.serve (CacheApplicationService.app CacheStore.step fun _ => 7) context s
    (ErrorContract context (fun _ => 7) swap s (served swap).1 (served swap).2 ∧
      (served swap).1.code = some .resourceExhausted) ∧
    ErrorContract context (fun _ => 7) (.get "x") s (served (.get "x")).1 (served (.get "x")).2 ∧
      (served (.get "x")).1.message = .value {} := by
  intro s context swap served
  have hcontract := error_contract (.small 3)
    [(Op.set "4:team:k" [1] none).atTime 0, (Op.set "4:team:x" [2] (some 5)).atTime 1] (fun _ => 7)
    context (by decide +kernel)
  exact ⟨⟨hcontract swap, by decide +kernel⟩, hcontract (.get "x"), by decide +kernel⟩

end TinyCache
