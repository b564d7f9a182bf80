import TinyCache.Library.Act

/-! Two pieces of code side by side, each over an object of its own: started in related objects,
they do the same as far as anybody can see, and leave related objects. -/

namespace Act

variable {ε σ τ α β : Type}

/-- Both have returned the same, into `Q`, or both have raised the same, into `E`. -/
inductive Matched (Q : α → σ → τ → Prop) (E : σ → τ → Prop) : Except ε α × σ → Except ε α × τ → Prop
  | returned {a : α} {s : σ} {t : τ} (h : Q a s t) : Matched Q E (.ok a, s) (.ok a, t)
  | raised {e : ε} {s : σ} {t : τ} (h : E s t) : Matched Q E (.error e, s) (.error e, t)

def Agree (P : σ → τ → Prop) (m : Act ε σ α) (m' : Act ε τ α) (Q : α → σ → τ → Prop) (E : σ → τ → Prop) :
    Prop :=
  ∀ s t, P s t → Matched Q E (m s) (m' t)

namespace Agree

variable {P P' : σ → τ → Prop} {Q Q' : α → σ → τ → Prop} {R : β → σ → τ → Prop} {E E' : σ → τ → Prop}

theorem pure {a : α} (h : ∀ s t, P s t → Q a s t) :
    Agree P (Pure.pure a : Act ε σ α) (Pure.pure a : Act ε τ α) Q E :=
  fun s t hst => .returned (h s t hst)

theorem modify {f : σ → σ} {g : τ → τ} {Q : Unit → σ → τ → Prop} (h : ∀ s t, P s t → Q () (f s) (g t)) :
    Agree P (Act.modify f : Act ε σ Unit) (Act.modify g : Act ε τ Unit) Q E :=
  fun s t hst => .returned (h s t hst)

theorem check {x : Except ε α} (h : ∀ s t, P s t → E s t) :
    Agree P (Act.check x : Act ε σ α) (Act.check x : Act ε τ α) (fun _ => P) E := by
  intro s t hst
  cases x with
  | ok a => exact .returned hst
  | error e => exact .raised (h s t hst)

theorem bind {m : Act ε σ α} {m' : Act ε τ α} {f : α → Act ε σ β} {f' : α → Act ε τ β}
    (hm : Agree P m m' Q E) (hf : ∀ a, Agree (Q a) (f a) (f' a) R E) : Agree P (m >>= f) (m' >>= f') R E := by
  intro s t hst
  have h := hm s t hst
  rw [bind_apply, bind_apply]
  generalize m s = u at h
  generalize m' t = v at h
  cases h with
  | returned hQ => exact hf _ _ _ hQ
  | raised hE => exact .raised hE

/-- Each reads the object that the rest starts from. -/
theorem read {f : σ → Act ε σ β} {f' : τ → Act ε τ β}
    (h : ∀ s₀ t₀, P s₀ t₀ → Agree (fun s t => s = s₀ ∧ t = t₀) (f s₀) (f' t₀) R E) :
    Agree P (Act.read >>= f) (Act.read >>= f') R E := by
  intro s t hst
  rw [read_bind, read_bind]
  exact h s t hst s t ⟨rfl, rfl⟩

theorem ite {c : Prop} [Decidable c] {m₁ m₂ : Act ε σ α} {m₁' m₂' : Act ε τ α} (ht : Agree P m₁ m₁' Q E)
    (hf : Agree P m₂ m₂' Q E) : Agree P (if c then m₁ else m₂) (if c then m₁' else m₂') Q E := by
  split_ifs
  · exact ht
  · exact hf

theorem pre {m : Act ε σ α} {m' : Act ε τ α} (hm : Agree P' m m' Q E) (h : ∀ s t, P s t → P' s t) :
    Agree P m m' Q E :=
  fun s t hst => hm s t (h s t hst)

/-- What one side keeps on its own may be relied upon. -/
theorem keeping {m : Act ε σ α} {m' : Act ε τ α} {I : σ → Prop} {J : α → σ → Prop} {F : σ → Prop}
    (hm : Agree P m m' Q E) (h : Triple I m J F) :
    Agree (fun s t => P s t ∧ I s) m m' (fun a s t => Q a s t ∧ J a s) E := by
  rintro s t ⟨hst, hs⟩
  have hm := hm s t hst
  have h := h s hs
  generalize m s = u at hm h
  generalize m' t = v at hm
  cases hm with
  | returned hQ => exact .returned ⟨hQ, h⟩
  | raised hE => exact .raised hE

/-- Loops that go on for as long as each other. -/
theorem whileDo {I : σ → τ → Prop} {body : Act ε σ Bool} {body' : Act ε τ Bool} {cond : σ → Bool}
    {cond' : τ → Bool} (hcond : ∀ s t, I s t → cond s = cond' t) (hbody : Agree I body body' (fun _ => I) E)
    (rounds : ℕ) : Agree I (Act.whileDo cond body rounds) (Act.whileDo cond' body' rounds) (fun _ => I) E := by
  induction rounds with
  | zero => exact pure fun _ _ h => h
  | succ n ih =>
    refine read fun s₀ t₀ h₀ => ?_
    have hback : ∀ s t, s = s₀ ∧ t = t₀ → I s t := by
      rintro s t ⟨rfl, rfl⟩
      exact h₀
    rw [hcond s₀ t₀ h₀]
    refine ite (bind (hbody.pre hback) fun b => ?_) (pure hback)
    cases b with
    | true => exact ih
    | false => exact pure fun _ _ h => h

end Agree

end Act
