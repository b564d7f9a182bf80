import TinyCache.Proofs.ApiContract
import TinyCache.Proofs.Batches
import TinyCache.Spec.Calls

/-! Which namespace a call ends up in when it carries several headers. The first value that
is not empty decides, and a blank one decides for the shared keyspace. -/

namespace TinyCache

open CacheApplicationService Machine

namespace KeyCall

variable {σ : Type} {app : CacheApp σ} {context : RpcContext} {namespace_ : Option String}

/-- A call with a malformed namespace is turned away before it reaches the application. -/
theorem serve_of_malformed {message : String}
    (h : namespaceFromContext context.metadata = .error (.valueError message)) (call : KeyCall) (s : σ) :
    (call.serve app context s).1.code = some .invalidArgument ∧ (call.serve app context s).2 = s := by
  have hns : GrpcCacheService.namespace_ (σ := σ) context = .raise (.valueError message) := by
    unfold GrpcCacheService.namespace_
    rw [h]
    rfl
  cases call with
  | single rpc =>
    cases rpc <;>
      simp only [serve, Rpc.serve, GrpcCacheService.get, GrpcCacheService.set, GrpcCacheService.setIfAbsent,
        GrpcCacheService.compareAndSet, GrpcCacheService.delete, hns] <;>
      exact ⟨rfl, rfl⟩
  | multiGet | multiSet | multiDelete =>
    simp only [serve, GrpcCacheService.multiGet, GrpcCacheService.multiSet, GrpcCacheService.multiDelete, hns]
    exact ⟨rfl, rfl⟩

/-- Past its namespace a call drives the application as its single calls do. -/
theorem serve_state (h : namespaceFromContext context.metadata = .ok namespace_) (call : KeyCall) (s : σ) :
    (call.serve app context s).2 = exec (fun s rpc => Rpc.serve app context rpc s) s call.rpcs := by
  cases call with
  | single rpc => rfl
  | multiGet keys =>
    rw [serve, GrpcCacheService.multiGet_eq app h]
    have hstep : ∀ s key, (GrpcCacheService.get app context key s).2 =
        (Rpc.serve app context (.get key) s).2 := fun _ _ => rfl
    exact exec_map Rpc.get hstep s keys
  | multiSet items =>
    rw [serve, GrpcCacheService.multiSet_eq app h]
    have hstep : ∀ s item, (GrpcCacheService.set app context item s).2 =
        (Rpc.serve app context (.set item) s).2 := fun _ _ => rfl
    exact exec_map Rpc.set hstep s items
  | multiDelete keys =>
    rw [serve, GrpcCacheService.multiDelete_eq app h]
    have hstep : ∀ s key, (GrpcCacheService.delete app context key s).2 =
        (Rpc.serve app context (.delete key) s).2 := fun _ _ => rfl
    exact exec_map Rpc.delete hstep s keys

end KeyCall

section

variable {σ : Type} {store : σ → Event → Except PyError Reply × σ} {clock : ℕ → Time}
  {context : RpcContext} {namespace_ : Option String}

/-- The operation of a single call, unless its key is turned away. -/
def Rpc.event? (clock : ℕ → Time) (namespace_ : Option String) (rpc : Rpc) : Option Event :=
  (storageKey rpc.key namespace_).toOption.map fun K => ⟨.client (rpc.op K), clock⟩

theorem exec_serve_log (h : namespaceFromContext context.metadata = .ok namespace_) (rpcs : List Rpc)
    (s : σ × List Event) :
    (exec (fun s rpc => Rpc.serve (CacheApplicationService.app (logged store) clock) context rpc s) s
      rpcs).2 = s.2 ++ rpcs.filterMap (Rpc.event? clock namespace_) := by
  induction rpcs generalizing s with
  | nil => simp [exec]
  | cons rpc rpcs ih =>
    have hplace : place context.metadata rpc.key = storageKey rpc.key namespace_ := by
      rw [place, h]
      rfl
    rw [exec, ih, Rpc.serve_eq, hplace, List.filterMap_cons, Rpc.event?]
    rcases storageKey rpc.key namespace_ with x | K
    · rfl
    · simp [logged, Except.toOption]

theorem serve_log (h : namespaceFromContext context.metadata = .ok namespace_) (call : KeyCall) (s : σ) :
    (call.serve (CacheApplicationService.app (logged store) clock) context (s, [])).2.2 =
      call.rpcs.filterMap (Rpc.event? clock namespace_) := by
  rw [KeyCall.serve_state h, exec_serve_log h, List.nil_append]

theorem mem_serve_log (h : namespaceFromContext context.metadata = .ok namespace_) {call : KeyCall}
    {s : σ} {event : Event} :
    event ∈ (call.serve (CacheApplicationService.app (logged store) clock) context (s, [])).2.2 ↔
      ∃ rpc ∈ call.rpcs, ∃ K, storageKey rpc.key namespace_ = .ok K ∧ event = ⟨.client (rpc.op K), clock⟩ := by
  rw [serve_log h, List.mem_filterMap]
  apply exists_congr
  intro rpc
  apply and_congr_right
  intro _
  unfold Rpc.event?
  rcases storageKey rpc.key namespace_ with x | K
  · simp [Except.toOption]
  · simp [Except.toOption, eq_comm]

end

theorem Rpc.op_key? (K : Key) (rpc : Rpc) : (rpc.op K).key? = some K := by
  cases rpc <;> rfl

theorem mem_suppliedNamespaces {metadata : List (String × String)} {value : String}
    (h : firstNamespace? metadata = some value) (hblank : strip value ≠ "") :
    strip value ∈ suppliedNamespaces metadata := by
  unfold suppliedNamespaces
  rw [List.mem_filter, List.mem_map]
  refine ⟨⟨value, List.mem_of_find?_eq_some h, rfl⟩, ?_⟩
  simpa [String.isEmpty_iff] using hblank

theorem strip_empty : strip "" = "" := rfl

/-- What is left of a value ends in a character that no other trimming takes off. -/
theorem strip_strip {value : String} (h : strip value ≠ "") : strip (strip value) ≠ "" := by
  set l := (value.toList.dropWhile isSpace).rdropWhile isSpace with hl
  have hne : l ≠ [] := by
    intro hnil
    apply h
    rw [strip, ← hl, hnil]
  have hlast : ¬ isSpace (l.getLast hne) = true := List.rdropWhile_last_not isSpace _ hne
  intro hblank
  have hnil : (l.dropWhile isSpace).rdropWhile isSpace = [] := by
    have hlist := congrArg String.toList hblank
    simpa [strip, ← hl] using hlist
  rw [List.rdropWhile_eq_nil_iff] at hnil
  have hmem : l.getLast hne ∈ l.takeWhile isSpace ++ l.dropWhile isSpace := by
    rw [List.takeWhile_append_dropWhile]
    exact List.getLast_mem hne
  rcases List.mem_append.mp hmem with hmem | hmem
  · exact hlast (List.mem_takeWhile_imp hmem)
  · exact hlast (hnil _ hmem)

theorem strip_of_supplied {metadata : List (String × String)} {n : String}
    (h : n ∈ suppliedNamespaces metadata) : strip n ≠ "" := by
  obtain ⟨hn, hne⟩ := List.mem_filter.mp h
  obtain ⟨value, -, rfl⟩ := List.mem_map.mp hn
  apply strip_strip
  simpa [String.isEmpty_iff] using hne

theorem firstNamespace?_isSome {metadata : List (String × String)} (h : suppliedNamespaces metadata ≠ []) :
    ∃ value, firstNamespace? metadata = some value := by
  obtain ⟨n, hn⟩ := List.exists_mem_of_ne_nil _ h
  obtain ⟨hn, hne⟩ := List.mem_filter.mp hn
  obtain ⟨value, hvalue, rfl⟩ := List.mem_map.mp hn
  rw [← Option.isSome_iff_exists, firstNamespace?, List.find?_isSome]
  refine ⟨value, hvalue, ?_⟩
  by_contra hempty
  rw [Bool.not_eq_true, Bool.not_eq_false', String.isEmpty_iff] at hempty
  rw [hempty, strip_empty] at hne
  simp at hne

theorem validateNamespace_cases (value : String) :
    (strip value = "" ∧ validateNamespace (some value) = .ok none) ∨
      strip value ≠ "" ∧ ((∃ message, validateNamespace (some value) = .error (.valueError message)) ∨
        validateNamespace (some value) = .ok (some (strip value))) := by
  unfold validateNamespace
  by_cases hblank : strip value = ""
  · simp [hblank]
  · simp only [String.isEmpty_iff, hblank, if_false]
    refine Or.inr ⟨hblank, ?_⟩
    split_ifs
    · exact Or.inl ⟨_, rfl⟩
    · exact Or.inr rfl
    · exact Or.inl ⟨_, rfl⟩

/-- The shortest valid key of several is not built from any of them and a namespace. -/
theorem exists_unbuilt {keys : List Key} {key : Key} (hkey : key ∈ keys) (hvalid : validateKey key = .ok ())
    {namespaces : List String} (hfilled : ∀ n ∈ namespaces, strip n ≠ "") :
    ∃ x ∈ keys, validateKey x = .ok () ∧
      ∀ n ∈ namespaces, ∀ y ∈ keys, storageKey y (some n) ≠ .ok x := by
  induction hlen : key.length using Nat.strong_induction_on generalizing key with
  | _ length ih =>
    by_contra hnone
    obtain ⟨n, hn, y, hy, hK⟩ : ∃ n ∈ namespaces, ∃ y ∈ keys, storageKey y (some n) = .ok key := by
      by_contra hunbuilt
      refine hnone ⟨key, hkey, hvalid, ?_⟩
      intro n hn y hy hK
      exact hunbuilt ⟨n, hn, y, hy, hK⟩
    obtain ⟨hyvalid, space, hspace, rfl, -⟩ := storageKey_ok.mp hK
    rcases validateNamespace_cases n with ⟨hblank, -⟩ | ⟨-, ⟨message, herr⟩ | hok⟩
    · exact hfilled n hn hblank
    · rw [herr] at hspace
      cases hspace
    · obtain rfl : some (strip n) = space := Except.ok.inj (hok.symm.trans hspace)
      have hlt := length_lt_storageKey (strip n) y
      exact hnone (ih y.length (by omega) hy hyvalid rfl)

section

variable {σ : Type} {store : σ → Event → Except PyError Reply × σ} {clock : ℕ → Time}
  {context : RpcContext} {call : KeyCall} {s : σ}

/-- Under a namespace that was supplied, no key is a shared one. -/
theorem failsClosed_of_supplied {n : String} (h : namespaceFromContext context.metadata = .ok (some n))
    (hn : n ∈ suppliedNamespaces context.metadata) : FailsClosed store clock context call s := by
  apply Or.inr
  intro event hevent
  obtain ⟨rpc, hrpc, K, hK, rfl⟩ := (mem_serve_log h).mp hevent
  refine ⟨_, K, rfl, Rpc.op_key? K rpc, ?_, n, hn, rpc.key, List.mem_map_of_mem hrpc, hK⟩
  obtain ⟨hkey, space, hspace, rfl, -⟩ := storageKey_ok.mp hK
  have hvalid : validateNamespace (some n) = .ok (some n) := by
    rw [namespaceFromContext_eq] at h
    exact validateNamespace_eq_some h
  obtain rfl : some n = space := Except.ok.inj (hvalid.symm.trans hspace)
  exact looksNamespaced_iff.mpr ⟨n, rpc.key, hvalid, (validateKey_ok.mp hkey).1, rfl⟩

theorem shared_mem_log (h : namespaceFromContext context.metadata = .ok none) {key : Key}
    (hkey : key ∈ call.keys) (hvalid : validateKey key = .ok ()) :
    ∃ rpc ∈ call.rpcs, (⟨.client (rpc.op key), clock⟩ : Event) ∈
      (call.serve (CacheApplicationService.app (logged store) clock) context (s, [])).2.2 := by
  obtain ⟨rpc, hrpc, rfl⟩ := List.mem_map.mp hkey
  refine ⟨rpc, hrpc, (mem_serve_log h).mpr ⟨rpc, hrpc, rpc.key, ?_, rfl⟩⟩
  exact storageKey_ok.mpr ⟨hvalid, none, rfl, rfl, (validateKey_ok.mp hvalid).2⟩

theorem not_failsClosed_of_shared (h : namespaceFromContext context.metadata = .ok none) {key : Key}
    (hkey : key ∈ call.keys) (hvalid : validateKey key = .ok ()) :
    ¬ FailsClosed store clock context call s := by
  obtain ⟨x, hx, hxvalid, hunbuilt⟩ := exists_unbuilt hkey hvalid fun n => strip_of_supplied
  obtain ⟨rpc, -, hmem⟩ := shared_mem_log h hx hxvalid
  rintro (⟨-, huntouched⟩ | hbuilt)
  · rw [huntouched] at hmem
    cases hmem
  · obtain ⟨op, K, haction, hop, -, n, hn, y, hy, hK⟩ := hbuilt _ hmem
    obtain rfl : rpc.op x = op := Action.client.inj haction
    obtain rfl : x = K := Option.some.inj ((Rpc.op_key? x rpc).symm.trans hop)
    exact hunbuilt n hn y hy hK

end

/-- A call that carries a namespace fails closed, unless the first value that is not empty is
blank and some key of the call is valid. -/
theorem namespace_selection_fails_closed {σ : Type} (store : σ → Event → Except PyError Reply × σ)
    (clock : ℕ → Time) (context : RpcContext) (hsupplied : suppliedNamespaces context.metadata ≠ [])
    (call : KeyCall) (s : σ) :
    FailsClosed store clock context call s ↔
      (∀ value, firstNamespace? context.metadata = some value → strip value ≠ "") ∨
        ∀ key ∈ call.keys, validateKey key ≠ .ok () := by
  obtain ⟨value, hfirst⟩ := firstNamespace?_isSome hsupplied
  have hcontext : namespaceFromContext context.metadata = validateNamespace (some value) := by
    rw [namespaceFromContext_eq, hfirst]
  rcases validateNamespace_cases value with ⟨hblank, hns⟩ | ⟨hblank, hns⟩
  · rw [hns] at hcontext
    constructor
    · intro hcloses
      apply Or.inr
      intro key hkey hvalid
      exact not_failsClosed_of_shared hcontext hkey hvalid hcloses
    · rintro (hfilled | hinvalid)
      · exact absurd hblank (hfilled value hfirst)
      · apply Or.inr
        intro event hevent
        obtain ⟨rpc, hrpc, K, hK, -⟩ := (mem_serve_log hcontext).mp hevent
        exact absurd (storageKey_ok.mp hK).1 (hinvalid rpc.key (List.mem_map_of_mem hrpc))
  · have hfilled : ∀ v, firstNamespace? context.metadata = some v → strip v ≠ "" := by
      intro v hv
      rw [hfirst, Option.some.injEq] at hv
      rwa [← hv]
    refine iff_of_true ?_ (Or.inl hfilled)
    rcases hns with ⟨message, hns⟩ | hns
    · rw [hns] at hcontext
      exact Or.inl (KeyCall.serve_of_malformed hcontext call _)
    · rw [hns] at hcontext
      exact failsClosed_of_supplied hcontext (mem_suppliedNamespaces hfirst hblank)

/-- An empty value and one in other letters of the same header, in front of the in-memory store. -/
theorem namespace_selection_fails_closed_run :
    FailsClosed CacheStore.step (fun _ => 0)
      ⟨[("x-cache-namespace", ""), ("X-Cache-Namespace", " team "), ("x-cache-namespace", " ")], "r1"⟩
      (.multiSet [⟨"a", [1], 0⟩, ⟨"", [2], 0⟩]) (CacheStore.init (.small 1)) := by
  have hfirst : firstNamespace? [("x-cache-namespace", ""), ("X-Cache-Namespace", " team "),
      ("x-cache-namespace", " ")] = some " team " := by decide +kernel
  refine (namespace_selection_fails_closed CacheStore.step (fun _ => 0) ⟨_, "r1"⟩ (by decide +kernel) _
    _).mpr (Or.inl ?_)
  intro value hvalue
  rw [hfirst, Option.some.injEq] at hvalue
  rw [← hvalue]
  decide +kernel

/-- A blank header in front of the namespace, and the call reads the shared key. -/
theorem namespace_selection_fails_open :
    ¬ ∀ (context : RpcContext) (call : KeyCall), suppliedNamespaces context.metadata ≠ [] →
      FailsClosed CacheStore.step (fun _ => 0) context call (CacheStore.init (.small 1)) := by
  intro h
  have hcontext : namespaceFromContext [("x-cache-namespace", " "), ("x-cache-namespace", "team")] =
      .ok none := by decide +kernel
  have hcloses := h ⟨[("x-cache-namespace", " "), ("x-cache-namespace", "team")], "r1"⟩
    (.single (.get "k")) (by decide +kernel)
  exact not_failsClosed_of_shared hcontext List.mem_cons_self rfl hcloses

end TinyCache
