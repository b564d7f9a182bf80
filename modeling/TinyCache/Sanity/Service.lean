import TinyCache.Spec.Service

/-! The service in front of a store. Within the namespaces a storage key determines its
address; a shared key is in nobody's way unless it looks like one of a namespace. -/

namespace TinyCache

open CacheApplicationService

theorem isSpace_of_isNamespaceChar {c : Char} (h : isNamespaceChar c = true) : isSpace c = false := by
  have hupper : c.isUpper = decide (c.val ≥ 65 ∧ c.val ≤ 90) := rfl
  have hlower : c.isLower = (decide (c.val ≥ 97) && decide (c.val ≤ 122)) := rfl
  have halpha : c.isAlpha = (c.isUpper || c.isLower) := rfl
  have hdigit : c.isDigit = (decide (c.val ≥ 48) && decide (c.val ≤ 57)) := rfl
  have halphanum : c.isAlphanum = (c.isAlpha || c.isDigit) := rfl
  simp only [isNamespaceChar, halphanum, halpha, hupper, hlower, hdigit, Bool.or_eq_true,
    Bool.and_eq_true, decide_eq_true_eq, beq_iff_eq, UInt32.le_iff_toNat_le, ge_iff_le] at h
  change ((((((65 ≤ c.toNat ∧ c.toNat ≤ 90) ∨ (97 ≤ c.toNat ∧ c.toNat ≤ 122)) ∨
    (48 ≤ c.toNat ∧ c.toNat ≤ 57)) ∨ c = '_') ∨ c = '.') ∨ c = '-') at h
  rcases h with ((h | rfl) | rfl) | rfl
  · rw [← Bool.not_eq_true]
    simp only [isSpace, Bool.or_eq_true, Bool.and_eq_true, decide_eq_true_eq, beq_iff_eq]
    omega
  all_goals decide

theorem matchesNamespacePattern_iff {s : String} :
    matchesNamespacePattern s = true ↔
      ∃ c cs, s.toList = c :: cs ∧ c.isAlphanum = true ∧ cs.all isNamespaceChar = true := by
  unfold matchesNamespacePattern
  cases s.toList with
  | nil => simp
  | cons c cs => simp

theorem strip_of_matches {s : String} (h : matchesNamespacePattern s = true) : strip s = s := by
  obtain ⟨c, cs, hs, hc, hcs⟩ := matchesNamespacePattern_iff.mp h
  have hall : ∀ x ∈ s.toList, isSpace x = false := by
    rw [hs, List.forall_mem_cons]
    refine ⟨isSpace_of_isNamespaceChar ?_, ?_⟩
    · simp [isNamespaceChar, hc]
    · exact fun x hx => isSpace_of_isNamespaceChar (List.all_eq_true.mp hcs x hx)
  have hne : s.toList ≠ [] := by simp [hs]
  rw [strip, List.dropWhile_eq_self_iff.mpr, List.rdropWhile_eq_self_iff.mpr, String.ofList_toList]
  · intro hl
    simp [hall _ (List.getLast_mem hl)]
  · intro hl
    simp [hall _ (List.getElem_mem hl)]

theorem validateNamespace_of_matches {s : String} (h : matchesNamespacePattern s = true)
    (hlen : s.length ≤ MAX_NAMESPACE_LENGTH) : validateNamespace (some s) = .ok (some s) := by
  obtain ⟨c, cs, hs, -⟩ := matchesNamespacePattern_iff.mp h
  have hne : s.isEmpty = false := by
    rw [← Bool.not_eq_true, String.isEmpty_iff]
    rintro rfl
    simp at hs
  simp only [validateNamespace, strip_of_matches h, hne, Bool.false_eq_true, if_false,
    if_neg (not_lt.mpr hlen), h, if_true]

theorem validateNamespace_eq_some {ns : Option String} {n : String}
    (h : validateNamespace ns = .ok (some n)) : validateNamespace (some n) = .ok (some n) :=
  validateNamespace_of_matches (validateNamespace_some h).2.2 (validateNamespace_some h).2.1

theorem isDigit_colon : ':'.isDigit = false := rfl

/-- The header of a namespace. -/
def header (n : String) : List Char := (decimal isDigit_colon).header n.toList

theorem toList_storageKey (n : String) (key : Key) :
    (Address.storageKey ⟨some n, key⟩).toList = header n ++ key.toList := by
  rw [header, Numerals.header_append, String.length_toList]
  change (toString n.length ++ ":" ++ n ++ ":" ++ key).toList =
    (toString n.length).toList ++ ':' :: (n.toList ++ ':' :: key.toList)
  simp

theorem length_lt_storageKey (n : String) (key : Key) :
    key.length < (Address.storageKey ⟨some n, key⟩).length := by
  have h := congrArg List.length (toList_storageKey n key)
  simp only [header, Numerals.header, List.length_append, List.length_cons, String.length_toList] at h
  omega

theorem length_le_storageKey (n : String) (key : Key) :
    key.length ≤ (Address.storageKey ⟨some n, key⟩).length := (length_lt_storageKey n key).le

theorem CacheApplicationService.storageKey_some {key : Key} {ns : Option String} {n : String}
    (hkey : validateKey key = .ok ()) (hns : validateNamespace ns = .ok (some n)) :
    storageKey key ns =
      if (Address.storageKey ⟨some n, key⟩).length > MAX_KEY_LENGTH then
        .error (.valueError ("Namespaced key is too long " ++
          s!"(max storage key length {MAX_KEY_LENGTH}; " ++
          s!"namespace prefix adds {(Address.storageKey ⟨some n, key⟩).length - key.length} characters)"))
      else .ok (Address.storageKey ⟨some n, key⟩) := by
  unfold storageKey
  simp only [hkey, hns, bind, Except.bind, pure, Except.pure]
  rfl

theorem CacheApplicationService.storageKey_ok {key : Key} {ns : Option String} {K : Key} :
    storageKey key ns = .ok K ↔ validateKey key = .ok () ∧ ∃ space, validateNamespace ns = .ok space ∧
      K = Address.storageKey ⟨space, key⟩ ∧ K.length ≤ MAX_KEY_LENGTH := by
  rcases hkey : validateKey key with x | _
  · rw [storageKey, hkey]
    exact ⟨fun h => (nomatch h), fun h => (nomatch h.1)⟩
  rcases hns : validateNamespace ns with x | _ | n
  · rw [storageKey, hkey, hns]
    exact ⟨fun h => (nomatch h), fun ⟨_, _, h, _⟩ => (nomatch h)⟩
  · rw [storageKey, hkey, hns]
    have hlen := (validateKey_ok.mp hkey).2
    constructor
    · rintro ⟨⟩
      exact ⟨rfl, none, rfl, rfl, hlen⟩
    · rintro ⟨-, _, ⟨⟩, rfl, -⟩
      rfl
  · rw [storageKey_some hkey hns]
    split_ifs with hlen
    · refine ⟨fun h => (nomatch h), ?_⟩
      rintro ⟨-, _, ⟨⟩, rfl, hle⟩
      exact absurd hle (not_le.mpr hlen)
    · constructor
      · rintro ⟨⟩
        exact ⟨rfl, some n, rfl, rfl, not_lt.mp hlen⟩
      · rintro ⟨-, _, ⟨⟩, rfl, -⟩
        rfl

theorem Address.of?_eq_some {key : Key} {ns : Option String} {a : Address} :
    Address.of? key ns = some a ↔
      CacheApplicationService.storageKey key ns = .ok a.storageKey ∧
        validateNamespace ns = .ok a.space ∧ key = a.key := by
  unfold Address.of?
  constructor
  · intro h
    rcases hK : CacheApplicationService.storageKey key ns with x | K
    · rw [hK] at h
      cases h
    · obtain ⟨-, space, hns, rfl, -⟩ := storageKey_ok.mp hK
      rw [hK, hns, Option.some.injEq] at h
      subst h
      exact ⟨rfl, hns, rfl⟩
  · rintro ⟨hK, hns, rfl⟩
    rw [hK, hns]

theorem Address.Accepted.space {a : Address} (h : a.Accepted) {n : String} (hn : a.space = some n) :
    validateNamespace (some n) = .ok (some n) := by
  obtain ⟨key, ns, h⟩ := h
  obtain ⟨-, hns, -⟩ := of?_eq_some.mp h
  exact validateNamespace_eq_some (hns.trans (congrArg _ hn))

theorem Address.Accepted.key {a : Address} (h : a.Accepted) : validateKey a.key = .ok () := by
  obtain ⟨key, ns, h⟩ := h
  obtain ⟨hK, -, rfl⟩ := of?_eq_some.mp h
  exact (storageKey_ok.mp hK).1

/-- A key looks namespaced when it is the storage key of an address in a namespace. -/
theorem looksNamespaced_iff {key : Key} :
    looksNamespaced key = true ↔ ∃ n rest, validateNamespace (some n) = .ok (some n) ∧ rest ≠ "" ∧
      key = Address.storageKey ⟨some n, rest⟩ := by
  unfold looksNamespaced
  rw [List.any_eq_true]
  constructor
  · rintro ⟨len, hlen, h⟩
    split at h
    · next name rest hframe =>
      obtain ⟨rfl, hl⟩ := (Numerals.unframe?_eq_some _).mp hframe
      rw [Bool.and_eq_true, Bool.not_eq_true', List.isEmpty_eq_false_iff] at h
      rw [List.mem_range] at hlen
      refine ⟨.ofList name, .ofList rest, validateNamespace_of_matches h.1 ?_, ?_, ?_⟩
      · rw [String.length_ofList]
        omega
      · intro he
        refine h.2 ?_
        have hlist := congrArg String.toList he
        simpa using hlist
      · rw [← String.toList_inj, toList_storageKey, header, String.toList_ofList, String.toList_ofList]
        exact hl
    · cases h
  · rintro ⟨n, rest, hn, hrest, rfl⟩
    obtain ⟨-, hlen, hm⟩ := validateNamespace_some hn
    refine ⟨n.length, List.mem_range.mpr (by omega), ?_⟩
    rw [toList_storageKey, header, ← String.length_toList, Numerals.unframe?_header]
    have hne : rest.toList ≠ [] := by
      intro he
      refine hrest ?_
      rw [← String.toList_inj, he]
      rfl
    simp [hm, hne]

theorem Address.storageKey_inj {a b : Address} (ha : a.Accepted) (hb : b.Accepted) (hpa : a.Plain)
    (hpb : b.Plain) (h : a.storageKey = b.storageKey) : a = b := by
  have hmixed : ∀ {key : Key} {c : Address} {n : String}, c.Accepted → c.space = some n →
      looksNamespaced key = false → key ≠ c.storageKey := by
    rintro key ⟨space, k⟩ n hc hn hplain rfl
    obtain rfl : space = some n := hn
    have hk := (validateKey_ok.mp hc.key).1
    rw [looksNamespaced_iff.mpr ⟨n, k, hc.space rfl, hk, rfl⟩] at hplain
    cases hplain
  obtain ⟨sa, ka⟩ := a
  obtain ⟨sb, kb⟩ := b
  cases sa with
  | none =>
    cases sb with
    | none => exact congrArg _ h
    | some n => exact absurd h (hmixed hb rfl (hpa rfl))
  | some m =>
    cases sb with
    | none => exact absurd h.symm (hmixed ha rfl (hpb rfl))
    | some n =>
      have hl := congrArg String.toList h
      rw [toList_storageKey, toList_storageKey] at hl
      obtain ⟨hname, hkey⟩ := Numerals.header_append_inj _ hl
      rw [String.toList_inj.mp hname, String.toList_inj.mp hkey]

/-- A shared key that is accepted never meets one of a namespace exactly when it does not
look like one. -/
theorem shared_key_apart {k₁ : Key} (hk₁ : validateKey k₁ = .ok ()) :
    (∀ blank ns n k₂ K, validateNamespace blank = .ok none → validateNamespace ns = .ok (some n) →
      storageKey k₂ ns = .ok K → storageKey k₁ blank ≠ .ok K) ↔ looksNamespaced k₁ = false := by
  constructor
  · intro h
    rw [← Bool.not_eq_true]
    intro hlooks
    obtain ⟨n, rest, hn, hrest, rfl⟩ := looksNamespaced_iff.mp hlooks
    have hlen := (validateKey_ok.mp hk₁).2
    have hrest' : validateKey rest = .ok () :=
      validateKey_ok.mpr ⟨hrest, (length_le_storageKey n rest).trans hlen⟩
    exact h none (some n) n rest _ rfl hn (storageKey_ok.mpr ⟨hrest', _, hn, rfl, hlen⟩)
      (storageKey_ok.mpr ⟨hk₁, none, rfl, rfl, hlen⟩)
  · intro hplain blank ns n k₂ K hblank hns hK₂ hK₁
    obtain ⟨hk₂, _, hns', rfl, hlen⟩ := storageKey_ok.mp hK₂
    obtain ⟨-, _, hblank', heq, -⟩ := storageKey_ok.mp hK₁
    cases hns.symm.trans hns'
    cases hblank.symm.trans hblank'
    have hlooks : looksNamespaced k₁ = true := looksNamespaced_iff.mpr
      ⟨n, k₂, validateNamespace_eq_some hns, (validateKey_ok.mp hk₂).1, heq.symm⟩
    rw [hplain] at hlooks
    cases hlooks

/-- An event whose key is not accepted never reaches the store. -/
theorem CacheApplicationService.step_eq {σ : Type} (store : σ → Event → Except PyError Reply × σ)
    (s : σ) (event : ServiceEvent) :
    step store s event = match event.storeEvent with
      | .ok e => store s e
      | .error x => (.error x, s) := by
  cases event with
  | cleaner key clock => rfl
  | request r clock =>
    cases r with
    | stats => rfl
    | get key ns | set key _ _ ns | setIfAbsent key _ _ ns | compareAndSet key _ _ _ ns
    | delete key ns =>
      simp only [step, get, set, setIfAbsent, compareAndSet, delete, ServiceEvent.storeEvent, Request.op]
      rcases storageKey key ns with x | K <;> rfl

/-- An accepted call becomes an operation on the place of its address. -/
theorem ServiceEvent.storeEvent_of_address {event : ServiceEvent} {a : Address}
    (h : event.address? = some a) :
    ∃ op clock, event.storeEvent = .ok ⟨.client op, clock⟩ ∧ op.key? = some a.storageKey := by
  cases event with
  | cleaner key clock => cases h
  | request r clock =>
    cases r with
    | stats => cases h
    | get key ns | set key _ _ ns | setIfAbsent key _ _ ns | compareAndSet key _ _ _ ns
    | delete key ns =>
      obtain ⟨hK, -, -⟩ := Address.of?_eq_some.mp h
      simp only [storeEvent, Request.op, hK]
      exact ⟨_, clock, rfl, rfl⟩

theorem ServiceEvent.address_accepted {event : ServiceEvent} {a : Address}
    (h : event.address? = some a) : a.Accepted := by
  obtain ⟨p, -, ha⟩ := Option.bind_eq_some_iff.mp h
  exact ⟨p.1, p.2, ha⟩

theorem ServiceEvent.address_of_storeEvent {event : ServiceEvent} {op : Op} {clock : ℕ → Time}
    {K : Key} (h : event.storeEvent = .ok ⟨.client op, clock⟩) (hk : op.key? = some K) :
    ∃ a, event.address? = some a ∧ a.storageKey = K := by
  cases event with
  | cleaner key clock => cases h
  | request r clock' =>
    cases r with
    | stats =>
      cases h
      cases hk
    | get key ns | set key _ _ ns | setIfAbsent key _ _ ns | compareAndSet key _ _ _ ns
    | delete key ns =>
      simp only [storeEvent, Request.op] at h
      rcases hK : storageKey key ns with x | K'
      · rw [hK] at h
        cases h
      · obtain ⟨hkey, space, hns, rfl, hlen⟩ := storageKey_ok.mp hK
        rw [hK] at h
        cases h
        cases hk
        exact ⟨⟨space, key⟩, Address.of?_eq_some.mpr ⟨hK, hns, rfl⟩, rfl⟩

/-- A call under a namespace stops at its key or goes to a place of the namespace. -/
theorem ServiceEvent.storeEvent_of_space {event : ServiceEvent} {n : String}
    (h : event.space? = some n) :
    (∃ x, event.storeEvent = .error x) ∨
      ∃ op clock key, event.storeEvent = .ok ⟨.client op, clock⟩ ∧
        op.key? = some (Address.storageKey ⟨some n, key⟩) ∧
        validateKey (Address.storageKey ⟨some n, key⟩) = .ok () := by
  cases event with
  | cleaner key clock => cases h
  | request r clock =>
    cases r with
    | stats => cases h
    | get key ns | set key _ _ ns | setIfAbsent key _ _ ns | compareAndSet key _ _ _ ns
    | delete key ns =>
      simp only [ServiceEvent.space?, target?, Request.target?, Option.bind_some] at h
      simp only [storeEvent, Request.op]
      rcases hK : storageKey key ns with x | K
      · exact Or.inl ⟨x, rfl⟩
      · obtain ⟨hkey, space, hspace, rfl, hlen⟩ := storageKey_ok.mp hK
        rw [hspace] at h
        obtain rfl : space = some n := h
        refine Or.inr ⟨_, clock, key, rfl, rfl, validateKey_ok.mpr ⟨?_, hlen⟩⟩
        have hle := length_le_storageKey n key
        have hne := (validateKey_ok.mp hkey).1
        intro he
        rw [he] at hle
        exact hne (String.length_eq_zero_iff.mp (Nat.le_zero.mp hle))

theorem ServiceObs.write_address {σ : Type} {r : ServiceObs σ} {w : Write} (h : r.write? = some w) :
    ∃ a, r.input.address? = some a ∧ a.storageKey = w.key := by
  unfold ServiceObs.write? at h
  split at h
  · next event hevent =>
    obtain ⟨action, clock⟩ := event
    obtain ⟨op, rfl, hk⟩ := accepted?_key h
    exact ServiceEvent.address_of_storeEvent hevent hk
  · cases h

end TinyCache
