import Mathlib.Data.List.Basic
import Mathlib.Order.Basic
import Mathlib.Tactic.Common

/-! Which of several things was used last, read off a history, and stamps that agree with
it. A stamp is taken from a clock at each use; the stamps tell the order of the last uses
as long as every one is later than those it joins. -/

namespace Recency

variable {α κ τ : Type} (use? : α → Option κ)

/-- After the last use of `a` in the history there is one of `b`. -/
def UsedBefore (history : List α) (a b : κ) : Prop :=
  ∃ before x since, history = before ++ x :: since ∧ use? x = some a ∧
    (∀ y ∈ since, use? y ≠ some a) ∧ ∃ y ∈ since, use? y = some b

variable {use?} {history : List α} {a b k : κ} {x : α}

theorem UsedBefore.snoc (h : UsedBefore use? history a b) (hx : use? x ≠ some a) :
    UsedBefore use? (history ++ [x]) a b := by
  obtain ⟨before, y, since, rfl, hy, hlast, z, hz, hb⟩ := h
  refine ⟨before, y, since ++ [x], by simp, hy, ?_, z, List.mem_append_left _ hz, hb⟩
  intro w hw
  rcases List.mem_append.mp hw with hw | hw
  · exact hlast w hw
  · rw [List.mem_singleton.mp hw]
    exact hx

theorem exists_last_use (h : ∃ y ∈ history, use? y = some a) :
    ∃ before x since, history = before ++ x :: since ∧ use? x = some a ∧
      ∀ y ∈ since, use? y ≠ some a := by
  induction history with
  | nil => simp at h
  | cons y history ih =>
    by_cases hlater : ∃ z ∈ history, use? z = some a
    · obtain ⟨before, x, since, rfl, hx, hlast⟩ := ih hlater
      exact ⟨y :: before, x, since, rfl, hx, hlast⟩
    · obtain ⟨z, hz, ha⟩ := h
      rcases List.mem_cons.mp hz with rfl | hz
      · exact ⟨[], z, history, rfl, ha, fun w hw hwa => hlater ⟨w, hw, hwa⟩⟩
      · exact absurd ⟨z, hz, ha⟩ hlater

/-- What was used at all was used before what is used now. -/
theorem UsedBefore.now (h : ∃ y ∈ history, use? y = some a) (hx : use? x = some b) (hab : a ≠ b) :
    UsedBefore use? (history ++ [x]) a b := by
  obtain ⟨before, y, since, rfl, hy, hlast⟩ := exists_last_use h
  refine ⟨before, y, since ++ [x], by simp, hy, ?_, x, by simp, hx⟩
  intro z hz
  rcases List.mem_append.mp hz with hz | hz
  · exact hlast z hz
  · rw [List.mem_singleton.mp hz, hx]
    simpa using hab.symm

/-- Nothing is used later than what is used now. -/
theorem not_usedBefore (hx : use? x = some a) : ¬ UsedBefore use? (history ++ [x]) a b := by
  rintro ⟨before, y, since, h, -, hlast, z, hz, -⟩
  rcases List.eq_nil_or_concat' since with rfl | ⟨since, w, rfl⟩
  · cases hz
  · have h : history ++ [x] = (before ++ y :: since) ++ [w] := by simpa using h
    obtain ⟨-, hxw⟩ := List.append_inj' h rfl
    cases hxw
    exact hlast x (by simp) hx

/-- Everything present was used, and a stamp that is not later than another tells that the
last use was earlier. -/
structure StampedByUse [LE τ] (use? : α → Option κ) (history : List α) (stamps : κ → Option τ) :
    Prop where
  used : ∀ a t, stamps a = some t → ∃ x ∈ history, use? x = some a
  ordered : ∀ a b t u, a ≠ b → stamps a = some t → stamps b = some u → t ≤ u →
    UsedBefore use? history a b

section

variable [Preorder τ] {stamps stamps' : κ → Option τ}

/-- Nothing is used, and something may have gone. -/
theorem StampedByUse.snoc (h : StampedByUse use? history stamps) (hx : use? x = none)
    (hkept : ∀ a t, stamps' a = some t → stamps a = some t) :
    StampedByUse use? (history ++ [x]) stamps' := by
  refine ⟨?_, ?_⟩
  · intro a t ha
    obtain ⟨y, hy, hya⟩ := h.used a t (hkept a t ha)
    exact ⟨y, List.mem_append_left _ hy, hya⟩
  · intro a b t u hab ha hb htu
    exact (h.ordered a b t u hab (hkept a t ha) (hkept b u hb) htu).snoc (by simp [hx])

/-- `k` is used, with a stamp later than all others. -/
theorem StampedByUse.use (h : StampedByUse use? history stamps) (hx : use? x = some k)
    (hkept : ∀ a t, a ≠ k → stamps' a = some t → stamps a = some t)
    (hlast : ∀ now, stamps' k = some now → ∀ a t, a ≠ k → stamps a = some t → t < now) :
    StampedByUse use? (history ++ [x]) stamps' := by
  refine ⟨?_, ?_⟩
  · intro a t ha
    by_cases hak : a = k
    · exact ⟨x, by simp, hak ▸ hx⟩
    · obtain ⟨y, hy, hya⟩ := h.used a t (hkept a t hak ha)
      exact ⟨y, List.mem_append_left _ hy, hya⟩
  · intro a b t u hab ha hb htu
    by_cases hak : a = k
    · -- the stamp of `k` is not below any other
      subst hak
      exact absurd htu (not_le_of_gt (hlast t ha b u hab.symm (hkept b u hab.symm hb)))
    · have hat := hkept a t hak ha
      by_cases hbk : b = k
      · subst hbk
        exact .now (h.used a t hat) hx hab
      · refine (h.ordered a b t u hab hat (hkept b u hbk hb) htu).snoc ?_
        rw [hx]
        simpa using Ne.symm hak

end

end Recency
