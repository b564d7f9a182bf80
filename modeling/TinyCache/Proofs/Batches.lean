import TinyCache.Spec.MemoryStore
import TinyCache.Spec.Servicer

/-! A batch is the sequence of its single calls, for any application. Errors become texts
in two places of the source; element by element the two agree. -/

namespace TinyCache.GrpcCacheService

open Machine

variable {σ ι ο ρ : Type}

/-- The loop runs the single calls one after another. -/
theorem forEach_eq {single : σ → ι → ο × σ} {result : ι → ο → ρ} {element : ι → σ → ρ × σ}
    (h : ∀ i s, element i s = (result i (single s i).1, (single s i).2)) (is : List ι) (s : σ) :
    forEach element is s =
      ((trace single s is).map fun r => result r.input r.output, exec single s is) := by
  induction is generalizing s with
  | nil => rfl
  | cons i is ih =>
    simp only [forEach, h, ih]
    rfl

theorem sequenceOfSingles {single : σ → ι → ο × σ} {result : ι → ο → ρ}
    {batch : List ι → σ → Answer (List ρ) × σ}
    (h : ∀ is s, batch is s =
      (⟨(trace single s is).map fun r => result r.input r.output, none⟩, exec single s is)) :
    SequenceOfSingles single result batch := by
  have hlength : ∀ is s, ((trace single s is).map fun r => result r.input r.output).length =
      is.length := by
    intro is s
    rw [List.length_map, ← List.length_map (f := Step.input), trace_inputs]
  refine ⟨?_, ?_, ?_, ?_, ?_⟩
  · intro is s
    rw [h]
  · intro is s
    rw [h]
    exact hlength is s
  · intro pre i post s
    rw [h, trace_append, List.map_append, List.getElem?_append_right (hlength pre s).le,
      hlength pre s, Nat.sub_self]
    rfl
  · intro is s
    rw [h]
  · intro pre i post s hi
    -- what comes after the element starts from the same state with it and without it
    rw [h, h]
    refine ⟨?_, ?_⟩
    · rw [trace_append, trace_append, List.map_append, List.map_append,
        List.eraseIdx_append_of_length_le (hlength pre s).le, hlength pre s, Nat.sub_self, trace, hi]
      rfl
    · rw [exec_append, exec_append, exec, hi]

section

variable {app : CacheApp σ} {context : RpcContext} {namespace_ : Option String}

/-- Past a namespace that validates a handler is its `try` block. -/
theorem respond_namespace {β : Type} (h : namespaceFromContext context.metadata = .ok namespace_)
    (empty : β) (body : Option String → Act Exn σ (Answer β)) :
    respond context empty (do body (← GrpcCacheService.namespace_ context)) =
      respond context empty (body namespace_) := by
  unfold GrpcCacheService.namespace_
  rw [h]
  rfl

variable (app) (h : namespaceFromContext context.metadata = .ok namespace_)

include h

theorem respond_batch {β : Type} (build : Option String → σ → List β × σ) (s : σ) :
    respond context [] (do
        let namespace_ ← GrpcCacheService.namespace_ context
        return ⟨← .total (build namespace_), none⟩) s =
      (⟨(build namespace_ s).1, none⟩, (build namespace_ s).2) := by
  rw [respond_namespace h]
  simp only [respond, Act.handle, Act.bind_apply, Act.total, Act.pure_apply]

theorem multiGetItem_eq (key : Key) (s : σ) :
    multiGetItem app context.requestId namespace_ key s =
      (lookupOf key (get app context key s).1, (get app context key s).2) := by
  unfold get
  rw [respond_namespace h, multiGetItem, respond, Act.handle, Act.handle, Act.bind_apply, Act.bind_apply]
  rcases app.get key namespace_ s with ⟨_ | _, t⟩ | ⟨_ | _ | _, t⟩ <;> rfl

theorem multiSetItem_eq (item : CacheItem) (s : σ) :
    multiSetItem app context.requestId namespace_ item s =
      (resultOf item.key (set app context item s).1, (set app context item s).2) := by
  unfold set
  rw [respond_namespace h, multiSetItem, respond, Act.handle, Act.handle, Act.bind_apply, Act.bind_apply]
  rcases app.set item.key item.value item.ttl namespace_ s with ⟨_ | _, t⟩ | ⟨_ | _ | _, t⟩ <;> rfl

theorem multiDeleteItem_eq (key : Key) (s : σ) :
    multiDeleteItem app context.requestId namespace_ key s =
      (resultOf key (delete app context key s).1, (delete app context key s).2) := by
  unfold delete
  rw [respond_namespace h, multiDeleteItem, respond, Act.handle, Act.handle, Act.bind_apply, Act.bind_apply]
  rcases app.delete key namespace_ s with ⟨_ | _, t⟩ | ⟨_, t⟩ <;> rfl

theorem multiGet_eq (keys : List Key) (s : σ) :
    multiGet app context keys s =
      (⟨(trace (fun s key => get app context key s) s keys).map fun r => lookupOf r.input r.output,
        none⟩, exec (fun s key => get app context key s) s keys) := by
  rw [multiGet, respond_batch h, buildMultiGetItems, forEach_eq (multiGetItem_eq app h)]

theorem multiSet_eq (items : List CacheItem) (s : σ) :
    multiSet app context items s =
      (⟨(trace (fun s item => set app context item s) s items).map fun r =>
        resultOf r.input.key r.output, none⟩, exec (fun s item => set app context item s) s items) := by
  have hloop := @forEach_eq _ CacheItem _ _ _ (fun item => resultOf item.key) _ (multiSetItem_eq app h)
  rw [multiSet, respond_batch h, buildMultiSetResults, hloop]

theorem multiDelete_eq (keys : List Key) (s : σ) :
    multiDelete app context keys s =
      (⟨(trace (fun s key => delete app context key s) s keys).map fun r =>
        resultOf r.input r.output, none⟩, exec (fun s key => delete app context key s) s keys) := by
  rw [multiDelete, respond_batch h, buildMultiDeleteResults, forEach_eq (multiDeleteItem_eq app h)]

end

/-- Under a namespace that validates each batch is the sequence of its single calls. -/
theorem batches_are_sequences (app : CacheApp σ) (context : RpcContext) {namespace_ : Option String}
    (h : namespaceFromContext context.metadata = .ok namespace_) :
    SequenceOfSingles (fun s key => get app context key s) lookupOf (multiGet app context) ∧
      SequenceOfSingles (fun s item => set app context item s) (fun item => resultOf item.key)
        (multiSet app context) ∧
      SequenceOfSingles (fun s key => delete app context key s) resultOf (multiDelete app context) :=
  ⟨sequenceOfSingles (multiGet_eq app h), sequenceOfSingles (multiSet_eq app h),
    sequenceOfSingles (multiDelete_eq app h)⟩

/-- A batch whose second item has an empty key, in front of the in-memory store. -/
theorem batches_are_sequences_run :
    (multiSet (CacheApplicationService.app CacheStore.step fun _ => 0)
        ⟨[("X-Cache-Namespace", " team ")], "r1"⟩ [⟨"a", [1], 0⟩, ⟨"", [2], 0⟩, ⟨"a", [3], 0⟩]
        (CacheStore.init (.small 0))).1.message[1]? =
      some { key := "", status := .error, error := "Key cannot be empty" } := by
  have h : namespaceFromContext [("X-Cache-Namespace", " team ")] = .ok (some "team") := by
    decide +kernel
  have helement := (batches_are_sequences (CacheApplicationService.app CacheStore.step fun _ => 0)
    ⟨_, "r1"⟩ h).2.1.element [⟨"a", [1], 0⟩] ⟨"", [2], 0⟩ [⟨"a", [3], 0⟩] (CacheStore.init (.small 0))
  refine helement.trans ?_
  decide +kernel

end TinyCache.GrpcCacheService
