import Mathlib.Data.List.Infix
import Mathlib.Tactic.Common

/-! Dropping the shortest prefix of a list that makes a predicate hold of the
rest: what a queue loses when it is popped only as often as needed. -/

/-- `l` is `gone ++ rest`, `rest` is `ok`, and no shorter prefix would do. -/
structure Trimmed {α : Type} (ok : List α → Prop) (l gone rest : List α) : Prop where
  split : l = gone ++ rest
  fits : ok rest
  least : ∀ pre post, gone = pre ++ post → post ≠ [] → ¬ ok (post ++ rest)

namespace Trimmed

variable {α β : Type} {ok ok' : List α → Prop} {l gone rest : List α}

theorem nil (h : ok l) : Trimmed ok l [] l := by
  refine ⟨rfl, h, ?_⟩
  intro pre post he hne
  exact absurd (List.append_eq_nil_iff.mp he.symm).2 hne

theorem gone_eq_nil (h : Trimmed ok l gone rest) (hl : ok l) : gone = [] := by
  by_contra hne
  exact h.least [] gone rfl hne (h.split ▸ hl)

theorem suffix (h : Trimmed ok l gone rest) : rest <:+ l := ⟨gone, h.split.symm⟩

/-- The dropped prefix is determined by the list. -/
theorem unique {gone' rest' : List α} (h : Trimmed ok l gone rest)
    (h' : Trimmed ok l gone' rest') : gone = gone' ∧ rest = rest' := by
  have he : gone ++ rest = gone' ++ rest' := h.split.symm.trans h'.split
  rcases List.append_eq_append_iff.mp he with ⟨c, hc, hr⟩ | ⟨c, hc, hr⟩
  · cases c with
    | nil => simp_all
    | cons a c => exact absurd (hr ▸ h.fits) (h'.least gone (a :: c) hc (by simp))
  · cases c with
    | nil => simp_all
    | cons a c => exact absurd (hr ▸ h'.fits) (h.least gone' (a :: c) hc (by simp))

/-- Trimming to a predicate that the final rest inherits and then to another is
trimming to both. -/
theorem append {mid gone' : List α} (h : Trimmed ok l gone mid) (h' : Trimmed ok' mid gone' rest)
    (hrest : ok mid → ok rest) :
    Trimmed (fun m => ok m ∧ ok' m) l (gone ++ gone') rest := by
  refine ⟨by rw [h.split, h'.split, List.append_assoc],
    ⟨hrest h.fits, h'.fits⟩, ?_⟩
  intro pre post he hne hok
  rcases List.append_eq_append_iff.mp he with ⟨c, hc, hp⟩ | ⟨c, hc, hp⟩
  · -- the prefix covers all of the first round
    exact h'.least c post hp hne hok.2
  · cases c with
    | nil =>
      rw [List.nil_append] at hp
      exact h'.least [] post hp.symm hne hok.2
    | cons a c =>
      refine h.least pre (a :: c) hc (by simp) ?_
      have hok1 := hok.1
      rwa [hp, List.append_assoc, ← h'.split] at hok1

theorem congr (h : Trimmed ok l gone rest) (hok : ∀ m, m <:+ l → (ok m ↔ ok' m)) :
    Trimmed ok' l gone rest := by
  refine ⟨h.split, (hok rest h.suffix).mp h.fits, ?_⟩
  intro pre post he hne hpost
  refine h.least pre post he hne ((hok _ ?_).mpr hpost)
  exact ⟨pre, by rw [h.split, he, List.append_assoc]⟩

/-- A predicate that does not look at the order leaves the order of the rest open. -/
theorem of_perm (h : Trimmed ok (gone ++ rest) gone rest)
    (hok : ∀ m m' : List α, m.Perm m' → (ok m ↔ ok m')) {rest' : List α} (hp : rest.Perm rest') :
    Trimmed ok (gone ++ rest') gone rest' := by
  refine ⟨rfl, (hok _ _ hp).mp h.fits, ?_⟩
  intro pre post he hne hpost
  exact h.least pre post he hne ((hok _ _ (hp.append_left post)).mpr hpost)

theorem map (f : β → α) {l gone rest : List β} (h : Trimmed (fun m => ok (m.map f)) l gone rest) :
    Trimmed ok (l.map f) (gone.map f) (rest.map f) := by
  refine ⟨by rw [h.split, List.map_append], h.fits, ?_⟩
  intro pre post he hne
  obtain ⟨pre', post', rfl, rfl, rfl⟩ := List.map_eq_append_iff.mp he
  rw [← List.map_append]
  exact h.least pre' post' rfl (by rintro rfl; exact hne rfl)

end Trimmed

/-- The longest end of a list that is `ok`. -/
def trim {α : Type} (ok : List α → Bool) : List α → List α
  | [] => []
  | a :: l => if ok (a :: l) then a :: l else trim ok l

theorem trim_suffix {α : Type} (ok : List α → Bool) (l : List α) : trim ok l <:+ l := by
  induction l with
  | nil => exact List.suffix_refl []
  | cons a l ih =>
    rw [trim]
    split_ifs
    · exact List.suffix_refl _
    · exact ih.trans (List.suffix_cons a l)

theorem trim_of_ok {α : Type} {ok : List α → Bool} {l : List α} (h : ok l = true) : trim ok l = l := by
  cases l with
  | nil => rfl
  | cons a l => rw [trim, if_pos h]

theorem trim_congr {α : Type} {ok ok' : List α → Bool} {l : List α} (h : ∀ m, m <:+ l → ok m = ok' m) :
    trim ok l = trim ok' l := by
  induction l with
  | nil => rfl
  | cons a l ih =>
    rw [trim, trim, h _ (List.suffix_refl _), ih fun m hm => h m (hm.trans (List.suffix_cons a l))]

/-- What is left by trimming step by step is what trimming leaves. -/
theorem Trimmed.trim_eq {α : Type} {ok : List α → Bool} {l gone rest : List α}
    (h : Trimmed (fun m => ok m = true) l gone rest) : trim ok l = rest := by
  have hsplit := h.split
  subst hsplit
  induction gone with
  | nil => exact trim_of_ok h.fits
  | cons a gone ih =>
    have hnot : ¬ ok (a :: (gone ++ rest)) = true := h.least [] (a :: gone) rfl (by simp)
    rw [List.cons_append, trim, if_neg hnot]
    refine ih ⟨rfl, h.fits, ?_⟩
    intro pre post he hne
    exact h.least (a :: pre) post (by rw [he, List.cons_append]) hne

/-- Trimming to fewer than `cap` items. -/
theorem trim_length_lt {α : Type} (cap : ℕ) (l : List α) :
    trim (fun m => decide (m.length < cap)) l = l.drop (l.length + 1 - cap) := by
  induction l with
  | nil => simp [trim]
  | cons a l ih =>
    rw [trim]
    by_cases h : (a :: l).length < cap
    · rw [if_pos (by simpa using h), show (a :: l).length + 1 - cap = 0 by omega, List.drop_zero]
    · rw [if_neg (by simpa using h), ih, List.length_cons,
        show l.length + 1 + 1 - cap = l.length + 1 - cap + 1 by simp at h; omega, List.drop_succ_cons]
