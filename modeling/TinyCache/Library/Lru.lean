import TinyCache.Library.OrderedDict
import TinyCache.Library.Trim

/-! A least-recently-used cache as a function on an ordered dictionary, the item used
longest ago in front. A cache that never holds more than `n` items stays inside one that
never holds more than `m ≥ n` and serves the same requests, as long as these do not put an
item only where there is none. -/

namespace Lru

variable {κ ν : Type}

/-- What is asked of a cache. -/
inductive Request (κ ν : Type)
  | sweep (gone : ℕ → κ × ν → Bool)
  | touch (k : κ)
  | put (k : κ) (v : ν)
  | fill (k : κ) (v : ν)
  | rewrite (k : κ) (f : ν → Option ν)

/-- Items go from the front until there is room. -/
def evict (room : List (κ × ν) → Bool) (d : OrderedDict κ ν) : OrderedDict κ ν :=
  ⟨trim room d.items, d.nodup.sublist ((trim_suffix room d.items).sublist.map Prod.fst)⟩

/-- The items whose place and content are not selected. -/
def sweep (gone : ℕ → κ × ν → Bool) (d : OrderedDict κ ν) : OrderedDict κ ν where
  items := (d.items.zipIdx.filter fun p => !gone p.2 p.1).map Prod.fst
  nodup := by
    rw [List.map_map]
    exact d.nodup.sublist (OrderedDict.keys_zipIdx_sublist d.items 0 _)

theorem sweep_items_of_const {gone : ℕ → κ × ν → Bool} (h : ∀ i, gone i = gone 0) (d : OrderedDict κ ν) :
    (sweep gone d).items = d.items.filter fun p => !gone 0 p := by
  have hgone : (fun p : (κ × ν) × ℕ => !gone p.2 p.1) = fun p => !gone 0 p.1 := by
    funext p
    rw [h p.2]
  have hfilter := OrderedDict.filter_zipIdx (fun p => !gone 0 p) id d.items 0
  rw [List.map_id] at hfilter
  rw [← hfilter, ← hgone]
  rfl

variable [DecidableEq κ] in
/-- The same by the keys of the items that go. -/
theorem sweep_items (gone : ℕ → κ × ν → Bool) (d : OrderedDict κ ν) :
    (sweep gone d).items =
      d.items.filter fun p => p.1 ∉ (d.items.zipIdx.filter fun q => gone q.2 q.1).map fun q => q.1.1 := by
  have hkeys : (d.items.zipIdx.map fun q => q.1.1).Nodup := by
    have h := d.nodup
    rwa [← List.zipIdx_map_fst 0 d.items, List.map_map] at h
  have hmem : ∀ q ∈ d.items.zipIdx,
      (q.1.1 ∈ (d.items.zipIdx.filter fun q => gone q.2 q.1).map fun q => q.1.1) ↔ gone q.2 q.1 = true := by
    intro q hq
    constructor
    · intro h
      obtain ⟨q', hq', he⟩ := List.mem_map.mp h
      obtain ⟨hq', hgone⟩ := List.mem_filter.mp hq'
      rwa [List.inj_on_of_nodup_map hkeys hq' hq he] at hgone
    · intro h
      exact List.mem_map_of_mem (List.mem_filter.mpr ⟨hq, h⟩)
  generalize hks : ((d.items.zipIdx.filter fun q => gone q.2 q.1).map fun q => q.1.1) = ks at hmem ⊢
  conv_rhs => rw [← List.zipIdx_map_fst 0 d.items]
  rw [List.filter_map]
  refine congrArg (List.map Prod.fst) (List.filter_congr ?_)
  intro q hq
  simp [hmem q hq]

/-- `d` holds part of `d'` in the same order, and is not full as long as it lacks more of it
than the capacities differ. -/
structure Behind (n m : ℕ) (d d' : OrderedDict κ ν) : Prop where
  sublist : d.items.Sublist d'.items
  lacks : d'.length + n ≤ d.length + m
  bounded : d'.length ≤ m

namespace Behind

variable {n m : ℕ} {d d' : OrderedDict κ ν}

theorem empty (h : n ≤ m) : Behind n m (OrderedDict.empty : OrderedDict κ ν) .empty := by
  refine ⟨List.Sublist.refl _, ?_, ?_⟩ <;> simp [OrderedDict.empty, OrderedDict.length, h]

/-- What is taken out of a list is no more than what is taken out of a longer one. -/
theorem length_filter_lacks {α : Type} (f : α → Bool) {l l' : List α} (h : l.Sublist l') :
    (l'.filter f).length + l.length ≤ (l.filter f).length + l'.length := by
  induction h with
  | slnil => simp
  | cons a _ ih =>
    rw [List.filter_cons]
    split_ifs <;> simp only [List.length_cons] <;> omega
  | cons_cons a _ ih =>
    rw [List.filter_cons, List.filter_cons]
    split_ifs <;> simp only [List.length_cons] <;> omega

theorem filter (h : Behind n m d d') {e e' : OrderedDict κ ν} (f : κ × ν → Bool)
    (he : e.items = d.items.filter f) (he' : e'.items = d'.items.filter f) : Behind n m e e' := by
  have hlacks := length_filter_lacks f h.sublist
  have hle : (d'.items.filter f).length ≤ d'.items.length := List.length_filter_le _ _
  have h1 := h.lacks
  have h2 := h.bounded
  simp only [OrderedDict.length] at h1 h2
  refine ⟨by rw [he, he']; exact h.sublist.filter f, ?_, ?_⟩
  · rw [OrderedDict.length, OrderedDict.length, he, he']
    omega
  · rw [OrderedDict.length, he']
    omega

end Behind

variable [DecidableEq κ]

def put (room : ν → List (κ × ν) → Bool) (d : OrderedDict κ ν) (k : κ) (v : ν) : OrderedDict κ ν :=
  (evict (room v) (d.erase k)).putLast k v

def step (room : ν → List (κ × ν) → Bool) (d : OrderedDict κ ν) : Request κ ν → OrderedDict κ ν
  | .sweep gone => sweep gone d
  | .touch k => d.moveToEnd k
  | .put k v => put room d k v
  | .fill k v => if d.contains k then d else put room d k v
  | .rewrite k f =>
    match (d.get? k).bind f with
    | some v => put room d k v
    | none => d

def run (room : ν → List (κ × ν) → Bool) (d : OrderedDict κ ν) (requests : List (Request κ ν)) :
    OrderedDict κ ν :=
  requests.foldl (step room) d

/-- Room for one more among at most `cap` items, whatever they are. -/
def fewer (cap : ℕ) : ν → List (κ × ν) → Bool := fun _ l => decide (l.length < cap)

theorem put_items (room : ν → List (κ × ν) → Bool) (d : OrderedDict κ ν) (k : κ) (v : ν) :
    (put room d k v).items = trim (room v) (d.erase k).items ++ [(k, v)] := by
  have hnone : (evict (room v) (d.erase k)).get? k = none := by
    rw [OrderedDict.get?_eq_none]
    intro h
    have hsub := (trim_suffix (room v) (d.erase k).items).sublist.map Prod.fst
    exact OrderedDict.get?_eq_none.mp (OrderedDict.get?_erase_self d k) (hsub.subset h)
  rw [put, OrderedDict.putLast_of_none hnone]
  rfl

theorem put_fewer_items (cap : ℕ) (d : OrderedDict κ ν) (k : κ) (v : ν) :
    (put (fewer cap) d k v).items =
      (d.erase k).items.drop ((d.erase k).items.length + 1 - cap) ++ [(k, v)] := by
  rw [put_items]
  exact congrArg (· ++ [(k, v)]) (trim_length_lt cap _)

theorem length_put_fewer (cap : ℕ) (d : OrderedDict κ ν) (k : κ) (v : ν) :
    (put (fewer cap) d k v).length = min (d.erase k).length (cap - 1) + 1 := by
  rw [OrderedDict.length, put_fewer_items, OrderedDict.length, List.length_append, List.length_drop,
    List.length_singleton]
  omega

namespace Behind

variable {n m : ℕ} {d d' : OrderedDict κ ν} {k : κ} {v : ν}

theorem get? (h : Behind n m d d') (hk : d.get? k = some v) : d'.get? k = some v :=
  OrderedDict.get?_eq_some.mpr (h.sublist.subset (OrderedDict.get?_eq_some.mp hk))

theorem erase (h : Behind n m d d') (k : κ) : Behind n m (d.erase k) (d'.erase k) :=
  h.filter _ rfl rfl

theorem moveToEnd (h : Behind n m d d') (k : κ) : Behind n m (d.moveToEnd k) (d'.moveToEnd k) := by
  have hlen : ∀ e : OrderedDict κ ν, (e.moveToEnd k).length = e.length :=
    fun e => (OrderedDict.perm_moveToEnd e k).length_eq
  refine ⟨?_, by rw [hlen, hlen]; exact h.lacks, by rw [hlen]; exact h.bounded⟩
  cases hd : d.get? k with
  | some v =>
    rw [OrderedDict.moveToEnd, OrderedDict.moveToEnd, hd, h.get? hd]
    exact (h.erase k).sublist.append (List.Sublist.refl _)
  | none =>
    -- the smaller cache has nothing to move
    rw [show d.moveToEnd k = d by rw [OrderedDict.moveToEnd, hd]]
    cases hd' : d'.get? k with
    | none => rw [OrderedDict.moveToEnd, hd']; exact h.sublist
    | some v =>
      have hsub := (h.erase k).sublist
      rw [OrderedDict.erase_of_none hd] at hsub
      rw [OrderedDict.moveToEnd, hd']
      exact hsub.trans (List.sublist_append_left _ _)

theorem put (h : Behind n m d d') (hnm : n ≤ m) (hn : 0 < n) (k : κ) (v : ν) :
    Behind n m (put (fewer n) d k v) (put (fewer m) d' k v) := by
  have he := h.erase k
  have hlacks := he.lacks
  refine ⟨?_, ?_, ?_⟩
  · rw [put_fewer_items, put_fewer_items]
    refine List.Sublist.append ?_ (List.Sublist.refl _)
    -- the smaller cache drops at least as many
    simp only [OrderedDict.length] at hlacks
    refine List.Sublist.trans ?_ (he.sublist.drop _)
    exact (List.drop_suffix_drop_left _ (by omega)).sublist
  · rw [length_put_fewer, length_put_fewer]
    omega
  · rw [length_put_fewer]
    omega

/-- The larger cache uses an item that the smaller one has lost. -/
theorem put_right (h : Behind n m d d') (hd : d.get? k = none) {v' : ν} (hd' : d'.get? k = some v') (v : ν) :
    Behind n m d (Lru.put (fewer m) d' k v) := by
  have hlen := OrderedDict.length_erase hd'
  have hb := h.bounded
  have hl := h.lacks
  have hput : (Lru.put (fewer m) d' k v).length = d'.length := by
    rw [length_put_fewer]
    omega
  refine ⟨?_, by rw [hput]; exact hl, by rw [hput]; exact hb⟩
  have hsub := (h.erase k).sublist
  rw [OrderedDict.erase_of_none hd] at hsub
  rw [put_fewer_items, show (d'.erase k).items.length + 1 - m = 0 by
    simp only [OrderedDict.length] at hlen hb; omega, List.drop_zero]
  exact hsub.trans (List.sublist_append_left _ _)

end Behind

/-- A request that asks the same of every cache: it does not look at places, and puts an
item whether or not there is one. -/
def Request.Steady : Request κ ν → Prop
  | .sweep gone => ∀ i, gone i = gone 0
  | .fill _ _ => False
  | _ => True

theorem Behind.step {n m : ℕ} {d d' : OrderedDict κ ν} (h : Behind n m d d') (hnm : n ≤ m) (hn : 0 < n)
    {request : Request κ ν} (hr : request.Steady) :
    Behind n m (step (fewer n) d request) (step (fewer m) d' request) := by
  cases request with
  | sweep gone => exact h.filter _ (sweep_items_of_const hr d) (sweep_items_of_const hr d')
  | touch k => exact h.moveToEnd k
  | put k v => exact h.put hnm hn k v
  | fill k v => exact hr.elim
  | rewrite k f =>
    simp only [Lru.step]
    cases hd : d.get? k with
    | some v =>
      rw [h.get? hd, Option.bind_some]
      cases f v with
      | none => exact h
      | some v' => exact h.put hnm hn k v'
    | none =>
      rw [Option.bind_none]
      cases hd' : d'.get? k with
      | none => exact h
      | some v =>
        rw [Option.bind_some]
        cases f v with
        | none => exact h
        | some v' => exact h.put_right hd hd' v'

/-- No item is held by the smaller of two caches alone, after any steady requests. -/
theorem Behind.run {n m : ℕ} (hnm : n ≤ m) (hn : 0 < n) (requests : List (Request κ ν))
    (hr : ∀ request ∈ requests, request.Steady) {d d' : OrderedDict κ ν} (h : Behind n m d d') :
    Behind n m (run (fewer n) d requests) (run (fewer m) d' requests) := by
  induction requests generalizing d d' with
  | nil => exact h
  | cons request requests ih =>
    exact ih (fun r hm => hr r (List.mem_cons_of_mem _ hm))
      (h.step hnm hn (hr request List.mem_cons_self))

end Lru
