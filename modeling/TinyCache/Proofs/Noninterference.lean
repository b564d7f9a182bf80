import TinyCache.Proofs.Eviction
import TinyCache.Sanity.Service

/-! While nothing is evicted, the namespaces of the in-memory store do not notice each
other: a run without the calls of the other namespaces gives the same answers. The
second store holds what the first holds under the one namespace. -/

namespace TinyCache

open Machine

namespace CacheStore

variable {s t : CacheStore} {clock : ℕ → Time} {op : Op} {reply : Except PyError Reply}

/-- Only accepted writes evict. -/
theorem Outcome.lruEvictions (h : Outcome s clock (.client op) reply t) {K : Key}
    (hk : op.key? = some K) (hacc : accepted? ⟨.client op, clock⟩ reply = none) :
    t.lruEvictions = s.lruEvictions := by
  cases h with
  | set _ hw =>
    cases hw with
    | tooLarge => rfl
    | stored => cases hacc
  | setIfAbsentMissing _ _ hw =>
    cases hw with
    | tooLarge => rfl
    | stored => cases hacc
  | setIfAbsentExpired _ _ _ hw =>
    cases hw with
    | tooLarge => rfl
    | stored => cases hacc
  | compareAndSetMatch _ _ _ _ hw =>
    cases hw with
    | tooLarge => rfl
    | stored => cases hacc
  | stats | clear => cases hk
  | _ => rfl

/-- A step that evicts nothing leaves the other keys as they are. -/
theorem Outcome.kept (hs : s.Inv) (h : Outcome s clock (.client op) reply t) {K : Key}
    (hk : op.key? = some K) (hev : t.lruEvictions = s.lruEvictions) {x : Key} (hx : x ≠ K) :
    t.entries x = s.entries x := by
  cases hacc : accepted? ⟨.client op, clock⟩ reply with
  | none =>
    rcases h.allowed.other hk hx with h' | ⟨-, h' | ⟨y, rfl⟩⟩
    · exact h'
    · exact absurd hacc h'
    · rw [h.eq_of_error]
  | some w =>
    obtain ⟨op', haction, hkey⟩ := accepted?_key hacc
    cases haction
    rw [hk, Option.some.injEq] at hkey
    obtain ⟨gone, rest, hr⟩ := @Outcome.replaced _ _ hs ⟨.client op, clock⟩ _ h _ hacc
    have hgone : gone = [] := List.eq_nil_of_length_eq_zero (by have := hr.evicted; omega)
    have hrest : rest = (s.store.erase w.key).items := by
      rw [hr.trimmed.split, hgone, List.nil_append]
    refine OrderedDict.get?_congr fun e => ?_
    rw [hr.items, hrest, List.mem_append, OrderedDict.mem_erase, List.mem_singleton, ← hkey]
    simp [hx]

theorem Outcome.ok (h : Outcome s clock (.client op) reply t) {K : Key} (hk : op.key? = some K)
    (hv : validateKey K = .ok ()) : ∃ r, reply = .ok r := by
  rcases reply with x | r
  · refine absurd ⟨?_, x, rfl⟩ h.not_fails
    intro op' key haction hkey
    cases haction
    rw [hk, Option.some.injEq] at hkey
    rw [← hkey]
    exact hv
  · exact ⟨r, rfl⟩

/-- `t` holds what `s` holds under the namespace `n`, and nothing else. -/
structure Restricts (n : String) (s t : CacheStore) : Prop where
  inv : s.Inv
  inv' : t.Inv
  limits : t.limits = s.limits
  inside : ∀ K, header n <+: K.toList → t.entries K = s.entries K
  outside : ∀ K, ¬ header n <+: K.toList → t.entries K = none

theorem Restricts.subperm {n : String} (h : Restricts n s t) (K : Key) :
    (t.store.erase K).items.Subperm (s.store.erase K).items := by
  refine List.subperm_of_subset (t.store.erase K).nodup.of_map ?_
  intro p hp
  obtain ⟨hp, hne⟩ := OrderedDict.mem_erase.mp hp
  have ht : t.entries p.1 = some p.2 := OrderedDict.get?_eq_some.mpr hp
  refine OrderedDict.mem_erase.mpr ⟨OrderedDict.get?_eq_some.mp ?_, hne⟩
  by_cases hin : header n <+: p.1.toList
  · exact (h.inside p.1 hin).symm.trans ht
  · rw [h.outside p.1 hin] at ht
    cases ht

theorem Restricts.skip {n n' : String} (h : Restricts n s t) (hne : n' ≠ n) {key : Key}
    (hk : op.key? = some (Address.storageKey ⟨some n', key⟩))
    (hev : (step s ⟨.client op, clock⟩).2.lruEvictions = s.lruEvictions) :
    Restricts n (step s ⟨.client op, clock⟩).2 t := by
  have hout := step_outcome h.inv.counted ⟨.client op, clock⟩
  refine ⟨step_inv h.inv _, h.inv', h.limits.trans hout.limits.symm, ?_, h.outside⟩
  intro K hK
  rw [h.inside K hK]
  refine (hout.kept h.inv hk hev ?_).symm
  rintro rfl
  rw [toList_storageKey] at hK
  have hheader := Numerals.header_unique _ hK (List.prefix_append (header n') key.toList)
  exact hne (String.toList_inj.mp hheader).symm

theorem Restricts.select {n : String} (h : Restricts n s t) {key : Key}
    (hk : op.key? = some (Address.storageKey ⟨some n, key⟩))
    (hv : validateKey (Address.storageKey ⟨some n, key⟩) = .ok ())
    (hev : (step s ⟨.client op, clock⟩).2.lruEvictions = s.lruEvictions) :
    (step s ⟨.client op, clock⟩).1 = (step t ⟨.client op, clock⟩).1 ∧
      Restricts n (step s ⟨.client op, clock⟩).2 (step t ⟨.client op, clock⟩).2 := by
  have hs := step_outcome h.inv.counted ⟨.client op, clock⟩
  have ht := step_outcome h.inv'.counted ⟨.client op, clock⟩
  have hinv := step_inv h.inv ⟨.client op, clock⟩
  have hinv' := step_inv h.inv' ⟨.client op, clock⟩
  generalize step s ⟨.client op, clock⟩ = x at hs hev hinv ⊢
  generalize step t ⟨.client op, clock⟩ = y at ht hinv' ⊢
  obtain ⟨rs, s'⟩ := x
  obtain ⟨rt, t'⟩ := y
  simp only at hs ht hev hinv hinv' ⊢
  set K := Address.storageKey ⟨some n, key⟩ with hKdef
  have hin : header n <+: K.toList := by
    rw [hKdef, toList_storageKey]
    exact List.prefix_append _ _
  obtain ⟨rs, rfl⟩ := hs.ok hk hv
  obtain ⟨rt, rfl⟩ := ht.ok hk hv
  have hcell := ht.allowed.onCell hk
  rw [h.limits, h.inside K hin, ← hs.allowed.onCell hk, Prod.mk.injEq] at hcell
  obtain ⟨rfl, hcell⟩ := hcell
  have hev' : t'.lruEvictions = t.lruEvictions := by
    cases hacc : accepted? ⟨.client op, clock⟩ (.ok rt) with
    | none => exact ht.lruEvictions hk hacc
    | some w =>
      obtain ⟨gone, rest, hsr⟩ := @Outcome.replaced _ _ h.inv ⟨.client op, clock⟩ _ hs _ hacc
      obtain ⟨gone', rest', htr⟩ := @Outcome.replaced _ _ h.inv' ⟨.client op, clock⟩ _ ht _ hacc
      have hgone : gone = [] := List.eq_nil_of_length_eq_zero (by have := hsr.evicted; omega)
      have hroom : Room s.limits w.entry.sizeBytes (s.store.erase w.key).items := by
        rw [hsr.trimmed.split, hgone, List.nil_append]
        exact hsr.trimmed.fits
      have hgone' : gone' = [] := by
        refine htr.trimmed.gone_eq_nil ?_
        rw [h.limits]
        exact hroom.subperm (h.subperm w.key)
      rw [htr.evicted, hgone']
      rfl
  refine ⟨rfl, hinv, hinv', ht.limits.trans (h.limits.trans hs.limits.symm), ?_, ?_⟩
  · intro x hx
    by_cases hxK : x = K
    · rw [hxK]
      exact hcell
    · rw [ht.kept h.inv' hk hev' hxK, hs.kept h.inv hk hev hxK]
      exact h.inside x hx
  · intro x hx
    have hxK : x ≠ K := by
      rintro rfl
      exact hx hin
    rw [ht.kept h.inv' hk hev' hxK]
    exact h.outside x hx

end CacheStore

/-- In a run of calls that all carry namespaces and evict nothing, the calls of one
namespace are answered as if they were alone. -/
theorem namespaces_do_not_interfere (limits : CacheStoreLimits) (events : List ServiceEvent)
    (hspace : ∀ event ∈ events, ∃ n, event.space? = some n)
    (hev : ∀ r ∈ trace (CacheApplicationService.step CacheStore.step) (CacheStore.init limits) events,
      r.after.lruEvictions = r.before.lruEvictions) (n : String) :
    ((trace (CacheApplicationService.step CacheStore.step) (CacheStore.init limits) events).filter
        fun r => decide (r.input.space? = some n)).map Step.output =
      outputs (CacheApplicationService.step CacheStore.step) (CacheStore.init limits)
        (events.filter fun event => decide (event.space? = some n)) := by
  refine outputs_filter_eq (R := CacheStore.Restricts n)
    (C := fun s event => (∃ m, event.space? = some m) ∧
      (CacheApplicationService.step CacheStore.step s event).2.lruEvictions = s.lruEvictions)
    (fun event => decide (event.space? = some n)) ?_ ?_ events ?_ ?_
  · rintro s t event h ⟨-, hkeep⟩ hsel
    rw [CacheApplicationService.step_eq] at hkeep ⊢
    rw [CacheApplicationService.step_eq]
    rcases ServiceEvent.storeEvent_of_space (of_decide_eq_true hsel) with
      ⟨x, hx⟩ | ⟨op, clock, key, hx, hk, hv⟩
    · rw [hx]
      exact ⟨rfl, h⟩
    · rw [hx] at hkeep ⊢
      exact h.select hk hv hkeep
  · rintro s t event h ⟨⟨m, hm⟩, hkeep⟩ hsel
    rw [CacheApplicationService.step_eq] at hkeep ⊢
    have hne : m ≠ n := by
      rintro rfl
      exact of_decide_eq_false hsel hm
    rcases ServiceEvent.storeEvent_of_space hm with ⟨x, hx⟩ | ⟨op, clock, key, hx, hk, -⟩
    · rw [hx]
      exact h
    · rw [hx] at hkeep ⊢
      exact h.skip hne hk hkeep
  · exact ⟨CacheStore.init_inv limits, CacheStore.init_inv limits, rfl, fun _ _ => rfl, fun _ _ => rfl⟩
  · intro r hr
    have hrec := eq_record_of_mem hr
    refine ⟨hspace r.input (input_mem hr), ?_⟩
    have hkeep := hev r hr
    rw [hrec] at hkeep
    exact hkeep

/-- A key of one namespace that looks like a storage key of the other. -/
theorem namespaces_do_not_interfere_run :
    let events : List ServiceEvent :=
      [.request (.set "1:b:k" [1] 0 (some "a")) fun _ => 0, .request (.set "k" [2] 0 (some "b")) fun _ => 1,
        .request (.delete "k" (some " b ")) fun _ => 2, .request (.get "1:b:k" (some "a")) fun _ => 3]
    outputs (CacheApplicationService.step CacheStore.step) (CacheStore.init (.small 1))
        (events.filter fun event => decide (event.space? = some "a")) =
      [.ok (.status .ok), .ok (.value (some [1]))] := by
  intro events
  refine (namespaces_do_not_interfere (.small 1) events ?_ ?_ "a").symm.trans (by decide)
  · simp only [events, List.forall_mem_cons, List.not_mem_nil, false_imp_iff, implies_true, and_true]
    exact ⟨⟨"a", by decide⟩, ⟨"b", by decide⟩, ⟨"b", by decide⟩, ⟨"a", by decide⟩⟩
  · simp only [events, trace, List.forall_mem_cons, List.not_mem_nil, false_imp_iff, implies_true, and_true]
    exact ⟨by decide, by decide, by decide, by decide⟩

end TinyCache
