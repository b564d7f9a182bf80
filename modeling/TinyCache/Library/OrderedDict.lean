import Mathlib.Data.List.Nodup
import Mathlib.Data.List.Perm.Basic
import Mathlib.Tactic.Common

/-! A dictionary that remembers the order in which its keys were inserted.
Assigning to a present key keeps its place; `moveToEnd` makes it the last. -/

/-- The items in order; no key occurs twice. -/
structure OrderedDict (κ ν : Type) where
  items : List (κ × ν)
  nodup : (items.map Prod.fst).Nodup

namespace OrderedDict

variable {κ ν : Type}

@[ext] theorem ext {d d' : OrderedDict κ ν} (h : d.items = d'.items) : d = d' := by
  cases d; cases d'; congr

def empty : OrderedDict κ ν := ⟨[], List.nodup_nil⟩

def keys (d : OrderedDict κ ν) : List κ := d.items.map Prod.fst

def length (d : OrderedDict κ ν) : ℕ := d.items.length

def isEmpty (d : OrderedDict κ ν) : Bool := d.items.isEmpty

/-- The item inserted first, `next(iter(d.items()))`. -/
def first? (d : OrderedDict κ ν) : Option (κ × ν) := d.items.head?

theorem keys_filter_nodup {l : List (κ × ν)} (h : (l.map Prod.fst).Nodup) (p : κ × ν → Bool) :
    ((l.filter p).map Prod.fst).Nodup :=
  h.sublist (List.filter_sublist.map Prod.fst)

/-- Items selected by their value and place keep their order. -/
theorem keys_zipIdx_sublist (l : List (κ × ν)) (i : ℕ) (p : (κ × ν) × ℕ → Bool) :
    (((l.zipIdx i).filter p).map fun q => q.1.1).Sublist (l.map Prod.fst) := by
  have h : ((l.zipIdx i).map fun q => q.1.1) = l.map Prod.fst := by
    rw [show (fun q : (κ × ν) × ℕ => q.1.1) = Prod.fst ∘ Prod.fst from rfl, ← List.map_map,
      List.zipIdx_map_fst]
  rw [← h]
  exact List.filter_sublist.map _

/-- With a test that does not look at the place, the selected items are those of the list itself. -/
theorem filter_zipIdx {α β : Type} (f : α → Bool) (g : α → β) (l : List α) (i : ℕ) :
    ((l.zipIdx i).filter fun p => f p.1).map (fun p => g p.1) = (l.filter f).map g := by
  induction l generalizing i with
  | nil => rfl
  | cons a l ih =>
    rw [List.zipIdx_cons, List.filter_cons, List.filter_cons]
    split
    · rw [List.map_cons, List.map_cons, ih]
    · exact ih (i + 1)

theorem pair_sublist_total {l : List (κ × ν)} {p q : κ × ν} (hp : p ∈ l) (hq : q ∈ l) (hne : p ≠ q) :
    [p, q].Sublist l ∨ [q, p].Sublist l := by
  obtain ⟨a, b, rfl⟩ := List.append_of_mem hp
  rcases List.mem_append.mp hq with hq | hq
  · right
    exact (List.singleton_sublist.mpr hq).append (List.singleton_sublist.mpr List.mem_cons_self)
  · left
    rcases List.mem_cons.mp hq with rfl | hq
    · exact absurd rfl hne
    · exact ((List.singleton_sublist.mpr hq).cons_cons p).trans (List.sublist_append_right _ _)

variable [DecidableEq κ]

def get? (d : OrderedDict κ ν) (k : κ) : Option ν :=
  (d.items.find? fun p => p.1 = k).map Prod.snd

def contains (d : OrderedDict κ ν) (k : κ) : Bool := (d.get? k).isSome

/-- `d.pop(k, None)`, without what it returns. -/
def erase (d : OrderedDict κ ν) (k : κ) : OrderedDict κ ν :=
  ⟨d.items.filter fun p => p.1 ≠ k, keys_filter_nodup d.nodup _⟩

theorem erase_items (d : OrderedDict κ ν) (k : κ) :
    (d.erase k).items = d.items.filter fun p => p.1 ≠ k := rfl

theorem mem_erase {d : OrderedDict κ ν} {k : κ} {p : κ × ν} :
    p ∈ (d.erase k).items ↔ p ∈ d.items ∧ p.1 ≠ k := by
  simp [erase_items]

theorem append_nodup (d : OrderedDict κ ν) (k : κ) (v : ν) :
    (((d.erase k).items ++ [(k, v)]).map Prod.fst).Nodup := by
  rw [List.map_append, List.nodup_append]
  refine ⟨(d.erase k).nodup, by simp, ?_⟩
  intro a ha b hb
  obtain ⟨p, hp, rfl⟩ := List.mem_map.mp ha
  simp only [List.map_cons, List.map_nil, List.mem_singleton] at hb
  subst hb
  exact (mem_erase.mp hp).2

/-- The item of `k` taken out and put behind all others. -/
def putLast (d : OrderedDict κ ν) (k : κ) (v : ν) : OrderedDict κ ν :=
  ⟨(d.erase k).items ++ [(k, v)], append_nodup d k v⟩

theorem putLast_items (d : OrderedDict κ ν) (k : κ) (v : ν) :
    (d.putLast k v).items = (d.erase k).items ++ [(k, v)] := rfl

/-- Replace the value at `k`, in place. -/
def replace (d : OrderedDict κ ν) (k : κ) (f : ν → ν) : OrderedDict κ ν :=
  ⟨d.items.map fun p => if p.1 = k then (p.1, f p.2) else p, by
    have hfst : Prod.fst ∘ (fun p : κ × ν => if p.1 = k then (p.1, f p.2) else p) = Prod.fst := by
      funext p
      by_cases h : p.1 = k <;> simp [h]
    rw [List.map_map, hfst]
    exact d.nodup⟩

/-- `d[k] = v`. -/
def set (d : OrderedDict κ ν) (k : κ) (v : ν) : OrderedDict κ ν :=
  if d.contains k then d.replace k fun _ => v else d.putLast k v

/-- `d.move_to_end(k)`. -/
def moveToEnd (d : OrderedDict κ ν) (k : κ) : OrderedDict κ ν :=
  match d.get? k with
  | some v => d.putLast k v
  | none => d

theorem get?_eq_some {d : OrderedDict κ ν} {k : κ} {v : ν} :
    d.get? k = some v ↔ (k, v) ∈ d.items := by
  have hkey : ∀ p ∈ d.items, ∀ q ∈ d.items, p.1 = q.1 → p = q :=
    fun p hp q hq h => List.inj_on_of_nodup_map d.nodup hp hq h
  constructor
  · intro h
    obtain ⟨p, hp, rfl⟩ := Option.map_eq_some_iff.mp h
    have hk : p.1 = k := by simpa using List.find?_some hp
    have hm := List.mem_of_find?_eq_some hp
    rwa [← hk]
  · intro h
    have hsome : (d.items.find? fun p => p.1 = k).isSome := by
      rw [List.find?_isSome]
      exact ⟨(k, v), h, by simp⟩
    obtain ⟨p, hp⟩ := Option.isSome_iff_exists.mp hsome
    have hk : p.1 = k := by simpa using List.find?_some hp
    have hpv := hkey p (List.mem_of_find?_eq_some hp) _ h hk
    rw [get?, hp, hpv]
    rfl

theorem get?_eq_none {d : OrderedDict κ ν} {k : κ} : d.get? k = none ↔ k ∉ d.keys := by
  rw [keys, List.mem_map]
  constructor
  · rintro h ⟨⟨a, v⟩, hp, rfl⟩
    rw [get?_eq_some.mpr hp] at h
    cases h
  · intro h
    by_contra hne
    obtain ⟨v, hv⟩ := Option.ne_none_iff_exists'.mp hne
    exact h ⟨(k, v), get?_eq_some.mp hv, rfl⟩

theorem mem_keys {d : OrderedDict κ ν} {k : κ} : k ∈ d.keys ↔ (d.get? k).isSome := by
  rw [← not_iff_not, ← get?_eq_none]
  simp

/-- A dictionary that finds no more keys is not longer. -/
theorem length_le_of_get? {d d' : OrderedDict κ ν} (h : ∀ k, d'.get? k ≠ none → d.get? k ≠ none) :
    d'.length ≤ d.length := by
  have hkeys : d'.keys ⊆ d.keys := by
    intro k hk
    rw [mem_keys, Option.isSome_iff_ne_none] at hk ⊢
    exact h k hk
  have hlen : (d'.items.map Prod.fst).length ≤ (d.items.map Prod.fst).length :=
    (List.subperm_of_subset d'.nodup hkeys).length_le
  rwa [List.length_map, List.length_map] at hlen

@[simp] theorem get?_empty (k : κ) : (empty : OrderedDict κ ν).get? k = none := rfl

theorem get?_congr {d d' : OrderedDict κ ν} {k : κ}
    (h : ∀ v, (k, v) ∈ d.items ↔ (k, v) ∈ d'.items) : d.get? k = d'.get? k := by
  ext v
  rw [get?_eq_some, get?_eq_some]
  exact h v

@[simp] theorem get?_erase_self (d : OrderedDict κ ν) (k : κ) : (d.erase k).get? k = none := by
  rw [get?_eq_none, keys, List.mem_map]
  rintro ⟨p, hp, rfl⟩
  exact (mem_erase.mp hp).2 rfl

theorem get?_erase_of_ne (d : OrderedDict κ ν) {k x : κ} (h : x ≠ k) :
    (d.erase k).get? x = d.get? x :=
  get?_congr fun v => by rw [mem_erase]; exact and_iff_left h

theorem get?_erase (d : OrderedDict κ ν) (k x : κ) :
    (d.erase k).get? x = if x = k then none else d.get? x := by
  split_ifs with h
  · rw [h, get?_erase_self]
  · exact get?_erase_of_ne d h

theorem mem_putLast {d : OrderedDict κ ν} {k : κ} {v : ν} {p : κ × ν} :
    p ∈ (d.putLast k v).items ↔ (p ∈ d.items ∧ p.1 ≠ k) ∨ p = (k, v) := by
  simp only [putLast, List.mem_append, mem_erase, List.mem_singleton]

theorem get?_putLast (d : OrderedDict κ ν) (k : κ) (v : ν) (x : κ) :
    (d.putLast k v).get? x = if x = k then some v else d.get? x := by
  split_ifs with h
  · rw [h, get?_eq_some, mem_putLast]
    exact Or.inr rfl
  · refine get?_congr fun w => ?_
    rw [mem_putLast]
    constructor
    · rintro (⟨hm, -⟩ | he)
      · exact hm
      · exact absurd (congrArg Prod.fst he) h
    · exact fun hm => Or.inl ⟨hm, h⟩

@[simp] theorem erase_erase (d : OrderedDict κ ν) (k : κ) : (d.erase k).erase k = d.erase k :=
  ext (by simp only [erase_items, List.filter_filter, Bool.and_self])

@[simp] theorem erase_putLast (d : OrderedDict κ ν) (k : κ) (v : ν) : (d.putLast k v).erase k = d.erase k := by
  apply ext
  rw [erase_items, putLast_items, List.filter_append, List.filter_cons_of_neg (by simp),
    List.filter_nil, List.append_nil, List.filter_eq_self]
  intro p hp
  simpa using (mem_erase.mp hp).2

@[simp] theorem erase_replace (d : OrderedDict κ ν) (k : κ) (f : ν → ν) :
    (d.replace k f).erase k = d.erase k := by
  apply ext
  change ((d.items.map _).filter _) = d.items.filter _
  induction d.items with
  | nil => rfl
  | cons p l ih => by_cases hp : p.1 = k <;> simpa [hp] using ih

theorem erase_of_none {d : OrderedDict κ ν} {k : κ} (h : d.get? k = none) : d.erase k = d := by
  apply ext
  rw [erase_items, List.filter_eq_self]
  intro p hp
  have hk := get?_eq_none.mp h
  simp only [ne_eq, decide_not, Bool.not_eq_eq_eq_not, Bool.not_true, decide_eq_false_iff_not]
  rintro rfl
  exact hk (List.mem_map_of_mem hp)

/-- A present item and the rest make up the items. -/
theorem perm_erase {d : OrderedDict κ ν} {k : κ} {v : ν} (h : d.get? k = some v) :
    d.items.Perm ((k, v) :: (d.erase k).items) := by
  have hnodup : d.items.Nodup := List.Nodup.of_map _ d.nodup
  have hnot : (k, v) ∉ (d.erase k).items := fun hm => (mem_erase.mp hm).2 rfl
  rw [List.perm_ext_iff_of_nodup hnodup
    (List.nodup_cons.mpr ⟨hnot, List.Nodup.of_map _ (d.erase k).nodup⟩)]
  rintro ⟨a, w⟩
  rw [List.mem_cons, mem_erase]
  constructor
  · intro hm
    by_cases ha : a = k
    · subst ha
      rw [get?_eq_some.mpr hm] at h
      exact Or.inl (by cases h; rfl)
    · exact Or.inr ⟨hm, ha⟩
  · rintro (he | ⟨hm, -⟩)
    · cases he
      exact get?_eq_some.mp h
    · exact hm

theorem length_erase {d : OrderedDict κ ν} {k : κ} {v : ν} (h : d.get? k = some v) :
    d.length = (d.erase k).length + 1 := by
  rw [length, (perm_erase h).length_eq]
  rfl

/-- What a dictionary finds that has lost some of its items. -/
theorem get?_of_filter {d d' : OrderedDict κ ν} {f : κ × ν → Bool} (h : d'.items = d.items.filter f) (k : κ) :
    d'.get? k = (d.get? k).filter fun v => f (k, v) := by
  ext v
  rw [get?_eq_some, h, List.mem_filter, ← get?_eq_some, Option.filter_eq_some_iff]

theorem get?_of_filter_notMem {d d' : OrderedDict κ ν} {ks : List κ}
    (h : d'.items = d.items.filter fun p => p.1 ∉ ks) (k : κ) :
    d'.get? k = if k ∈ ks then none else d.get? k := by
  rw [get?_of_filter h]
  by_cases hk : k ∈ ks
  · simp [hk]
  · cases d.get? k with
    | none => simp
    | some v => simp [hk]

/-- Under keys that are all still there, it has lost none. -/
theorem filter_keys_of_filter {d d' : OrderedDict κ ν} {f : κ × ν → Bool} (h : d'.items = d.items.filter f)
    {ks : List κ} (hks : ∀ k ∈ ks, k ∈ d'.keys) :
    (d'.items.filter fun p => p.1 ∈ ks) = d.items.filter fun p => p.1 ∈ ks := by
  rw [h, List.filter_filter]
  apply List.filter_congr
  intro p hp
  by_cases hk : p.1 ∈ ks
  · obtain ⟨v, hv⟩ := Option.isSome_iff_exists.mp (mem_keys.mp (hks p.1 hk))
    rw [get?_of_filter h, get?_eq_some.mpr hp, Option.filter_eq_some_iff, Option.some.injEq] at hv
    obtain ⟨hv, hf⟩ := hv
    rw [← hv] at hf
    simp [hk, hf]
  · simp [hk]

/-- Without the keys of some items, the others are left. -/
theorem filter_notMem_filter (d : OrderedDict κ ν) (f : κ × ν → Bool) :
    (d.items.filter fun p => p.1 ∉ (d.items.filter f).map Prod.fst) = d.items.filter fun p => !f p := by
  apply List.filter_congr
  intro p hp
  have hmem : p.1 ∈ (d.items.filter f).map Prod.fst ↔ f p = true := by
    constructor
    · intro h
      obtain ⟨q, hq, he⟩ := List.mem_map.mp h
      obtain ⟨hq, hf⟩ := List.mem_filter.mp hq
      rwa [List.inj_on_of_nodup_map d.nodup hp hq he.symm]
    · intro h
      exact List.mem_map_of_mem (List.mem_filter.mpr ⟨hp, h⟩)
  simp [hmem]

/-- Taking out some of the keys shortens the dictionary by their number. -/
theorem length_filter_notMem (d : OrderedDict κ ν) {ks : List κ} (h : ks.Sublist d.keys) :
    (d.items.filter fun p => p.1 ∉ ks).length + ks.length = d.length := by
  have hmem : (d.items.filter fun p => decide (p.1 ∈ ks)).length = ks.length := by
    rw [← List.length_map (f := Prod.fst)]
    refine List.Perm.length_eq ((List.perm_ext_iff_of_nodup (keys_filter_nodup d.nodup _)
      (d.nodup.sublist h)).mpr ?_)
    intro k
    simp only [List.mem_map, List.mem_filter, decide_eq_true_eq]
    refine ⟨?_, ?_⟩
    · rintro ⟨p, ⟨-, hp⟩, rfl⟩
      exact hp
    · intro hk
      obtain ⟨p, hp, rfl⟩ := List.mem_map.mp (h.subset hk)
      exact ⟨p, ⟨hp, hk⟩, rfl⟩
  have hsplit := List.length_eq_length_filter_add (l := d.items) fun p => decide (p.1 ∈ ks)
  rw [hmem] at hsplit
  simp only [← decide_not] at hsplit
  rw [length, hsplit, Nat.add_comm]

/-- The keys that have gone when, without the one of `k`, the first items make way for a new
last one. -/
theorem length_filter_gone {d d' : OrderedDict κ ν} {k : κ} {v : ν} {gone rest : List (κ × ν)}
    (h : (d.erase k).items = gone ++ rest) (h' : d'.items = rest ++ [(k, v)]) :
    (d.keys.filter fun x => x ≠ k && !d'.contains x).length = gone.length := by
  have hkeys : d.keys.filter (fun x => decide (x ≠ k)) = gone.map Prod.fst ++ rest.map Prod.fst := by
    rw [← List.map_append, ← h, erase_items, keys, List.filter_map]
    rfl
  have hmem : ∀ x, d'.contains x = true ↔ x ∈ rest.map Prod.fst ∨ x = k := by
    intro x
    rw [contains, ← mem_keys, keys, h', List.map_append, List.mem_append]
    simp
  have hnodup : (gone.map Prod.fst ++ rest.map Prod.fst).Nodup := hkeys ▸ d.nodup.filter _
  have hgone : (gone.map Prod.fst).filter (fun x => !d'.contains x) = gone.map Prod.fst := by
    refine List.filter_eq_self.mpr ?_
    intro x hx
    have hne : x ≠ k := by
      have hall : x ∈ d.keys.filter fun x => decide (x ≠ k) := hkeys ▸ List.mem_append_left _ hx
      simpa using (List.mem_filter.mp hall).2
    have hnot : ¬ d'.contains x = true := by
      rw [hmem, not_or]
      exact ⟨fun hr => List.disjoint_of_nodup_append hnodup hx hr, hne⟩
    simpa using hnot
  have hrest : (rest.map Prod.fst).filter (fun x => !d'.contains x) = [] := by
    refine List.filter_eq_nil_iff.mpr ?_
    intro x hx
    simp [(hmem x).mpr (Or.inl hx)]
  have hsplit := congrArg (List.filter fun x => !d'.contains x) hkeys
  rw [List.filter_filter, List.filter_append, hgone, hrest, List.append_nil] at hsplit
  have hlen : (gone.map Prod.fst).length = gone.length := List.length_map _
  rw [← hlen, ← hsplit]
  simp only [Bool.and_comm]

theorem erase_first {d : OrderedDict κ ν} {k : κ} {v : ν} {l : List (κ × ν)}
    (h : d.items = (k, v) :: l) : (d.erase k).items = l := by
  have hn := d.nodup
  rw [h, List.map_cons, List.nodup_cons] at hn
  rw [erase_items, h, List.filter_cons_of_neg (by simp), List.filter_eq_self]
  intro p hp
  simp only [ne_eq, decide_not, Bool.not_eq_eq_eq_not, Bool.not_true, decide_eq_false_iff_not]
  rintro rfl
  exact hn.1 (List.mem_map.mpr ⟨p, hp, rfl⟩)

theorem putLast_of_none {d : OrderedDict κ ν} {k : κ} (h : d.get? k = none) (v : ν) :
    (d.putLast k v).items = d.items ++ [(k, v)] := by
  rw [putLast_items, erase_of_none h]

/-- Putting an item behind all others changes nothing exactly if it was there. -/
theorem putLast_eq_self {d : OrderedDict κ ν} {k : κ} {v : ν} (h : d.get? k = some v) :
    d.putLast k v = d ↔ d.keys.getLast? = some k := by
  constructor
  · intro he
    rw [← he, keys, putLast_items, List.map_append, List.map_cons, List.map_nil, List.getLast?_concat]
  · intro hlast
    rcases List.eq_nil_or_concat' d.items with hnil | ⟨l, p, hp⟩
    · rw [keys, hnil] at hlast
      cases hlast
    · have hkey : p.1 = k := by
        rw [keys, hp, List.map_append, List.map_cons, List.map_nil, List.getLast?_concat] at hlast
        exact Option.some.inj hlast
      have hn := d.nodup
      rw [hp, List.map_append, List.map_cons, List.map_nil, List.nodup_append] at hn
      have hpv : p = (k, v) := by
        have hm : (k, p.2) ∈ d.items := by
          rw [hp, ← hkey]
          exact List.mem_append_right _ (List.mem_singleton_self p)
        have hv := (get?_eq_some.mpr hm).symm.trans h
        rw [← Option.some.inj hv, ← hkey]
      apply ext
      rw [putLast_items, erase_items, hp, List.filter_append, hpv, List.filter_cons_of_neg (by simp),
        List.filter_nil, List.append_nil, List.filter_eq_self.mpr]
      intro q hq
      have hne := hn.2.2 q.1 (List.mem_map_of_mem hq) p.1 (by simp)
      rw [hkey] at hne
      simpa using hne

/-- Which of two items comes first once that of `k` is put behind all others. -/
theorem pair_sublist_putLast {d : OrderedDict κ ν} {k : κ} {v : ν} {p q : κ × ν} :
    [p, q].Sublist (d.putLast k v).items ↔
      ([p, q].Sublist d.items ∧ p.1 ≠ k ∧ q.1 ≠ k) ∨ (p ∈ d.items ∧ p.1 ≠ k ∧ q = (k, v)) := by
  rw [putLast_items]
  constructor
  · intro h
    obtain ⟨a, b, hab, ha, hb⟩ := List.sublist_append_iff.mp h
    have hmem : ∀ x ∈ a, x ∈ d.items ∧ x.1 ≠ k := fun x hx => mem_erase.mp (ha.subset hx)
    have hlen := hb.length_le
    rcases a with _ | ⟨x, _ | ⟨y, a⟩⟩
    · rw [← List.nil_append b, ← hab] at hlen
      simp at hlen
    · simp only [List.cons_append, List.nil_append, List.cons.injEq] at hab
      obtain ⟨rfl, rfl⟩ := hab
      obtain ⟨hp, hk⟩ := hmem p (by simp)
      refine Or.inr ⟨hp, hk, ?_⟩
      simpa using hb
    · simp only [List.cons_append, List.cons.injEq, List.nil_eq_append_iff] at hab
      obtain ⟨rfl, rfl, rfl, rfl⟩ := hab
      exact Or.inl ⟨ha.trans List.filter_sublist, (hmem p (by simp)).2, (hmem q (by simp)).2⟩
  · rintro (⟨h, hp, hq⟩ | ⟨h, hp, rfl⟩)
    · have hf := h.filter fun x => decide (x.1 ≠ k)
      rw [List.filter_eq_self.mpr (by simp [hp, hq])] at hf
      exact hf.trans (List.sublist_append_left _ _)
    · exact (List.singleton_sublist.mpr (mem_erase.mpr ⟨h, hp⟩)).append (List.Sublist.refl _)

theorem set_of_none {d : OrderedDict κ ν} {k : κ} (h : d.get? k = none) (v : ν) :
    d.set k v = d.putLast k v := by
  simp [set, contains, h]

@[simp] theorem putLast_moveToEnd (d : OrderedDict κ ν) (k : κ) (v : ν) :
    (d.putLast k v).moveToEnd k = d.putLast k v := by
  have hget : (d.putLast k v).get? k = some v := by rw [get?_putLast, if_pos rfl]
  have hmove : (d.putLast k v).moveToEnd k = (d.putLast k v).putLast k v := by
    rw [moveToEnd, hget]
  rw [hmove]
  apply ext
  rw [putLast_items, erase_putLast, putLast_items]

theorem get?_moveToEnd (d : OrderedDict κ ν) (k x : κ) : (d.moveToEnd k).get? x = d.get? x := by
  rw [moveToEnd]
  cases h : d.get? k with
  | none => rfl
  | some v =>
    simp only [get?_putLast]
    split_ifs with hx
    · rw [hx, h]
    · rfl

theorem perm_moveToEnd (d : OrderedDict κ ν) (k : κ) : (d.moveToEnd k).items.Perm d.items := by
  rw [moveToEnd]
  cases h : d.get? k with
  | none => exact List.Perm.refl _
  | some v => exact (List.perm_append_singleton _ _).trans (perm_erase h).symm

theorem get?_replace (d : OrderedDict κ ν) (k : κ) (f : ν → ν) (x : κ) :
    (d.replace k f).get? x = if x = k then (d.get? k).map f else d.get? x := by
  have hfind : ∀ l : List (κ × ν),
      ((l.map fun p => if p.1 = k then (p.1, f p.2) else p).find? fun p => p.1 = x).map Prod.snd =
        if x = k then ((l.find? fun p => p.1 = k).map Prod.snd).map f
        else (l.find? fun p => p.1 = x).map Prod.snd := by
    intro l
    induction l with
    | nil => simp
    | cons p l ih =>
      by_cases hp : p.1 = k <;> by_cases hx : x = k
      · simp [hp, hx]
      · have hpx : ¬ k = x := fun h => hx h.symm
        simpa [hp, hpx, hx] using ih
      · subst hx
        simpa [hp] using ih
      · by_cases hpx : p.1 = x
        · simp [hx, hpx]
        · simpa [hp, hx, hpx] using ih
  exact hfind d.items

theorem perm_replace {d : OrderedDict κ ν} {k : κ} {v : ν} (h : d.get? k = some v) (f : ν → ν) :
    (d.replace k f).items.Perm ((d.erase k).items ++ [(k, f v)]) := by
  have hmap : ((d.erase k).items.map fun p => if p.1 = k then (p.1, f p.2) else p) =
      (d.erase k).items := by
    refine (List.map_congr_left fun p hp => ?_).trans (List.map_id _)
    exact if_neg (mem_erase.mp hp).2
  have hp := (perm_erase h).map fun p => if p.1 = k then (p.1, f p.2) else p
  rw [List.map_cons, hmap, if_pos rfl] at hp
  exact hp.trans (List.perm_append_singleton _ _).symm

end OrderedDict
