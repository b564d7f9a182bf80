import Mathlib.Logic.Basic
import Mathlib.Tactic.Common

/-! Imperative code over an object `σ` that may raise an `ε`. A raise does not
undo what was written before it: the object is returned on both exits. -/

/-- Code that reads and writes a `σ` and returns an `α` or raises an `ε`. -/
def Act (ε σ α : Type) : Type := σ → Except ε α × σ

namespace Act

variable {ε σ τ α β : Type}

instance : Monad (Act ε σ) where
  pure a := fun s => (.ok a, s)
  bind m f := fun s => match m s with
    | (.ok a, s') => f a s'
    | (.error e, s') => (.error e, s')

/-- The object itself. -/
def read : Act ε σ σ := fun s => (.ok s, s)

def modify (f : σ → σ) : Act ε σ Unit := fun s => (.ok (), f s)

def raise (e : ε) : Act ε σ α := fun s => (.error e, s)

/-- A computation that may raise but does not see the object. -/
def check (x : Except ε α) : Act ε σ α := fun s => (x, s)

/-- Code over a part of the object. -/
def zoom (get : σ → τ) (set : τ → σ → σ) (m : Act ε τ α) : Act ε σ α := fun s =>
  ((m (get s)).1, set (m (get s)).2 s)

def mapError (f : ε → τ) (m : Act ε σ α) : Act τ σ α := fun s => ((m s).1.mapError f, (m s).2)

/-- Code that does not raise. -/
def total (f : σ → α × σ) : Act ε σ α := fun s => (.ok (f s).1, (f s).2)

/-- `try .. except`: something to return in place of what is raised. -/
def handle (m : Act ε σ α) (h : ε → α) : σ → α × σ := fun s =>
  match m s with
  | (.ok a, s') => (a, s')
  | (.error e, s') => (h e, s')

/-- `try .. finally`: something to do to the object on both exits. -/
def ensuring (m : Act ε σ α) (f : σ → σ) : Act ε σ α := fun s => ((m s).1, f (m s).2)

@[simp] theorem pure_apply (a : α) (s : σ) : (pure a : Act ε σ α) s = (.ok a, s) := rfl

@[simp] theorem read_apply (s : σ) : (read : Act ε σ σ) s = (.ok s, s) := rfl

@[simp] theorem modify_apply (f : σ → σ) (s : σ) : (modify f : Act ε σ Unit) s = (.ok (), f s) := rfl

@[simp] theorem raise_apply (e : ε) (s : σ) : (raise e : Act ε σ α) s = (.error e, s) := rfl

@[simp] theorem ensuring_apply (m : Act ε σ α) (f : σ → σ) (s : σ) :
    ensuring m f s = ((m s).1, f (m s).2) := rfl

@[simp] theorem check_apply (x : Except ε α) (s : σ) : (check x : Act ε σ α) s = (x, s) := rfl

theorem bind_apply (m : Act ε σ α) (f : α → Act ε σ β) (s : σ) :
    (m >>= f) s = match m s with
      | (.ok a, s') => f a s'
      | (.error e, s') => (.error e, s') := rfl

theorem bind_of_ok {m : Act ε σ α} {f : α → Act ε σ β} {s s' : σ} {a : α}
    (h : m s = (.ok a, s')) : (m >>= f) s = f a s' := by
  rw [bind_apply, h]

theorem bind_of_error {m : Act ε σ α} {f : α → Act ε σ β} {s s' : σ} {e : ε}
    (h : m s = (.error e, s')) : (m >>= f) s = (.error e, s') := by
  rw [bind_apply, h]

@[simp] theorem read_bind (f : σ → Act ε σ β) (s : σ) : (read >>= f) s = f s s := rfl

@[simp] theorem modify_bind (g : σ → σ) (f : Unit → Act ε σ β) (s : σ) :
    (modify g >>= f) s = f () (g s) := rfl

@[simp] theorem pure_bind_apply (a : α) (f : α → Act ε σ β) (s : σ) :
    ((pure a : Act ε σ α) >>= f) s = f a s := rfl

/-- Returning something else does not touch the object. -/
theorem bind_pure_snd (m : Act ε σ α) (b : β) (s : σ) :
    ((m >>= fun _ => (pure b : Act ε σ β)) s).2 = (m s).2 := by
  rw [bind_apply]
  rcases m s with ⟨e | a, t⟩ <;> rfl

/-- What a returning sequence did: its first part returned, then its second. -/
theorem bind_ok {m : Act ε σ α} {f : α → Act ε σ β} {s t : σ} {b : β}
    (h : (m >>= f) s = (.ok b, t)) : ∃ a u, m s = (.ok a, u) ∧ f a u = (.ok b, t) := by
  rw [bind_apply] at h
  rcases hm : m s with ⟨_ | a, u⟩
  · simp [hm] at h
  · exact ⟨a, u, rfl, by simpa [hm] using h⟩

/-- What a raising sequence did: its first part raised, or it returned and the
second raised. -/
theorem bind_error {m : Act ε σ α} {f : α → Act ε σ β} {s t : σ} {e : ε}
    (h : (m >>= f) s = (.error e, t)) :
    m s = (.error e, t) ∨ ∃ a u, m s = (.ok a, u) ∧ f a u = (.error e, t) := by
  rw [bind_apply] at h
  rcases hm : m s with ⟨e' | a, u⟩
  · exact Or.inl (by simpa [hm] using h)
  · exact Or.inr ⟨a, u, rfl, by simpa [hm] using h⟩

/-- From a state in `P`, `m` returns in `Q` or raises in `E`. -/
def Triple (P : σ → Prop) (m : Act ε σ α) (Q : α → σ → Prop) (E : σ → Prop) : Prop :=
  ∀ s, P s → match m s with
    | (.ok a, s') => Q a s'
    | (.error _, s') => E s'

namespace Triple

variable {P P' : σ → Prop} {Q Q' : α → σ → Prop} {R : β → σ → Prop} {E E' : σ → Prop}

theorem pure {a : α} (h : ∀ s, P s → Q a s) : Triple P (Pure.pure a : Act ε σ α) Q E :=
  fun s hs => h s hs

theorem modify {f : σ → σ} {Q : Unit → σ → Prop} (h : ∀ s, P s → Q () (f s)) :
    Triple P (Act.modify f : Act ε σ Unit) Q E :=
  fun s hs => h s hs

theorem check {x : Except ε α} (hok : ∀ a s, x = .ok a → P s → Q a s) (herr : ∀ s, P s → E s) :
    Triple P (Act.check x : Act ε σ α) Q E := by
  intro s hs
  cases x with
  | ok a => exact hok a s rfl hs
  | error e => exact herr s hs

theorem bind {m : Act ε σ α} {f : α → Act ε σ β} (hm : Triple P m Q E)
    (hf : ∀ a, Triple (Q a) (f a) R E) : Triple P (m >>= f) R E := by
  intro s hs
  have h := hm s hs
  rw [bind_apply]
  rcases hms : m s with ⟨e | a, s'⟩
  · simpa [hms] using h
  · rw [hms] at h
    exact hf a s' h

/-- What follows a computation that never returns does not matter. -/
theorem stop {m : Act ε σ α} {f : α → Act ε σ β} (hm : Triple P m (fun _ _ => False) E) :
    Triple P (m >>= f) R E :=
  bind hm fun _ _ hs => hs.elim

/-- The state read is the one the rest starts from. -/
theorem read {f : σ → Act ε σ β} (h : ∀ s₀, P s₀ → Triple (· = s₀) (f s₀) R E) :
    Triple P (Act.read >>= f) R E := by
  intro s hs
  rw [read_bind]
  exact h s hs s rfl

theorem ite {c : Prop} [Decidable c] {m m' : Act ε σ α} (ht : c → Triple P m Q E)
    (hf : ¬ c → Triple P m' Q E) : Triple P (if c then m else m') Q E := by
  split_ifs with h
  · exact ht h
  · exact hf h

theorem conseq {m : Act ε σ α} (hm : Triple P' m Q' E') (hP : ∀ s, P s → P' s)
    (hQ : ∀ a s, Q' a s → Q a s) (hE : ∀ s, E' s → E s) : Triple P m Q E := by
  intro s hs
  have h := hm s (hP s hs)
  rcases hms : m s with ⟨e | a, s'⟩
  · rw [hms] at h
    exact hE s' h
  · rw [hms] at h
    exact hQ a s' h

theorem pre {m : Act ε σ α} (hm : Triple P' m Q E) (hP : ∀ s, P s → P' s) : Triple P m Q E :=
  hm.conseq hP (fun _ _ h => h) fun _ h => h

theorem post {m : Act ε σ α} (hm : Triple P m Q' E) (hQ : ∀ a s, Q' a s → Q a s) : Triple P m Q E :=
  hm.conseq (fun _ h => h) hQ fun _ h => h

theorem fail {m : Act ε σ α} (hm : Triple P m Q E') (hE : ∀ s, E' s → E s) : Triple P m Q E :=
  hm.conseq (fun _ h => h) (fun _ _ h => h) hE

/-- A fact about no state that the precondition gives. -/
theorem know {m : Act ε σ α} {φ : Prop} (hφ : ∀ s, P s → φ) (h : φ → Triple P m Q E) :
    Triple P m Q E :=
  fun s hs => h (hφ s hs) s hs

end Triple

/-- `while cond: if not body(): return False`, then `return True`. `rounds` bounds
the number of rounds; `whileDo_pops` says when the bound is not felt. -/
def whileDo (cond : σ → Bool) (body : Act ε σ Bool) : ℕ → Act ε σ Bool
  | 0 => pure true
  | rounds + 1 => do
    if cond (← read) then
      if ← body then whileDo cond body rounds else pure false
    else pure true

/-- What the body keeps wherever `cond` holds, the loop keeps on every exit. -/
theorem Triple.whileDo {I : σ → Prop} {E : σ → Prop} {body : Act ε σ Bool} {cond : σ → Bool}
    (hbody : Triple (fun s => I s ∧ cond s = true) body (fun _ => I) E) (rounds : ℕ) :
    Triple I (Act.whileDo cond body rounds) (fun _ => I) E := by
  induction rounds with
  | zero => exact Triple.pure fun _ h => h
  | succ n ih =>
    refine Triple.read fun s₀ hs₀ => Triple.ite (fun hc => ?_) fun _ => Triple.pure ?_
    · refine Triple.bind (hbody.conseq (by rintro s rfl; exact ⟨hs₀, hc⟩) (fun _ _ h => h) fun _ h => h) ?_
      intro b
      cases b with
      | false => exact Triple.pure fun _ h => h
      | true => exact ih
    · rintro s rfl
      exact hs₀

/-- The elements `as` are popped one after another, each while `cond` holds. -/
inductive PopsWhile (cond : σ → Bool) (pop : α → σ → σ → Prop) : List α → σ → σ → Prop
  | nil (s : σ) : PopsWhile cond pop [] s s
  | cons {a : α} {as : List α} {s t u : σ} (hc : cond s = true) (hp : pop a s t)
      (h : PopsWhile cond pop as t u) : PopsWhile cond pop (a :: as) s u

/-- The condition still held before any of the later pops. -/
theorem PopsWhile.cond_of_append {cond : σ → Bool} {pop : α → σ → σ → Prop} {pre post : List α}
    {s u : σ} (h : PopsWhile cond pop (pre ++ post) s u) (hne : post ≠ []) :
    ∃ v, PopsWhile cond pop pre s v ∧ cond v = true := by
  induction pre generalizing s with
  | nil =>
    cases post with
    | nil => exact absurd rfl hne
    | cons b post =>
      cases h with
      | cons hc _ _ => exact ⟨s, .nil s, hc⟩
  | cons a pre ih =>
    cases h with
    | cons hc hp h =>
      obtain ⟨v, hv, hcv⟩ := ih h
      exact ⟨v, .cons hc hp hv, hcv⟩

/-- A loop whose body pops an element of a queue, or finds it empty, stops because
`cond` fails or because the queue is empty. -/
theorem whileDo_pops {cond : σ → Bool} {body : Act ε σ Bool} {pop : α → σ → σ → Prop}
    {size : σ → ℕ} {I : σ → Prop}
    (hbody : ∀ s t, I s → body s = (.ok true, t) → ∃ a, pop a s t ∧ I t ∧ size t < size s) :
    ∀ (rounds : ℕ) (s t : σ) (r : Bool), I s → size s < rounds →
      whileDo cond body rounds s = (.ok r, t) →
        ∃ as u, PopsWhile cond pop as s u ∧ I u ∧
          ((r = true ∧ t = u ∧ cond u = false) ∨
            (r = false ∧ body u = (.ok false, t) ∧ cond u = true)) := by
  intro rounds
  induction rounds with
  | zero => intro s t r _ hlt; omega
  | succ n ih =>
    intro s t r hs hlt h
    simp only [whileDo, read_bind] at h
    cases hc : cond s with
    | false =>
      rw [hc] at h
      simp only [Bool.false_eq_true, if_false, pure_apply, Prod.mk.injEq, Except.ok.injEq] at h
      obtain ⟨rfl, rfl⟩ := h
      exact ⟨[], s, .nil s, hs, Or.inl ⟨rfl, rfl, hc⟩⟩
    | true =>
      rw [hc, if_pos rfl] at h
      obtain ⟨b, u, hb, h⟩ := bind_ok h
      cases b with
      | false =>
        simp only [Bool.false_eq_true, if_false, pure_apply, Prod.mk.injEq, Except.ok.injEq] at h
        obtain ⟨rfl, rfl⟩ := h
        exact ⟨[], s, .nil s, hs, Or.inr ⟨rfl, hb, hc⟩⟩
      | true =>
        rw [if_pos rfl] at h
        obtain ⟨a, hpop, hu, hsz⟩ := hbody s u hs hb
        obtain ⟨as, v, hpops, hv, hend⟩ := ih u t r hu (by omega) h
        exact ⟨a :: as, v, .cons hc hpop hpops, hv, hend⟩

/-- Without a bound the loop ends in `t`, after at most `n` rounds. -/
structure EndsAfter (cond : σ → Bool) (body : Act ε σ Bool) (n : ℕ) (s t : σ) : Prop where
  run : whileDo cond body n s = (.ok true, t)
  done : cond t = false

theorem EndsAfter.here {cond : σ → Bool} {body : Act ε σ Bool} {s : σ} (h : cond s = false) :
    EndsAfter cond body 0 s s := ⟨rfl, h⟩

/-- The bound is not felt from there on. -/
theorem EndsAfter.whileDo {cond : σ → Bool} {body : Act ε σ Bool} {n rounds : ℕ} {s t : σ}
    (h : EndsAfter cond body n s t) (hn : n ≤ rounds) :
    whileDo cond body rounds s = (.ok true, t) := by
  induction n generalizing s rounds with
  | zero =>
    obtain ⟨hrun, hdone⟩ := h
    cases hrun
    cases rounds with
    | zero => rfl
    | succ rounds => simp [Act.whileDo, hdone]
  | succ n ih =>
    obtain ⟨hrun, hdone⟩ := h
    obtain ⟨rounds, rfl⟩ : ∃ m, rounds = m + 1 := ⟨rounds - 1, by omega⟩
    simp only [Act.whileDo, read_bind] at hrun ⊢
    cases hc : cond s with
    | false =>
      rw [hc] at hrun
      exact hrun
    | true =>
      rw [hc, if_pos rfl] at hrun
      obtain ⟨b, u, hb, hrun⟩ := bind_ok hrun
      rw [if_pos rfl, bind_of_ok hb]
      cases b with
      | false => cases hrun
      | true => exact ih ⟨hrun, hdone⟩ (by omega)

/-- A loop whose rounds make `size` smaller has made no more of them than `size` went down. -/
theorem endsAfter_of_size {cond : σ → Bool} {body : Act ε σ Bool} {size : σ → ℕ}
    (hbody : ∀ s t, body s = (.ok true, t) → size t < size s) {rounds : ℕ} {s t : σ}
    (h : whileDo cond body rounds s = (.ok true, t)) (hc : cond t = false) :
    ∃ n, n + size t ≤ size s ∧ EndsAfter cond body n s t := by
  induction rounds generalizing s with
  | zero =>
    cases h
    exact ⟨0, by omega, .here hc⟩
  | succ rounds ih =>
    simp only [whileDo, read_bind] at h
    cases hcs : cond s with
    | false =>
      rw [hcs] at h
      cases h
      exact ⟨0, by omega, .here hc⟩
    | true =>
      rw [hcs, if_pos rfl] at h
      obtain ⟨b, u, hb, h⟩ := bind_ok h
      cases b with
      | false => cases h
      | true =>
        obtain ⟨n, hn, hend⟩ := ih h
        have hlt := hbody s u hb
        refine ⟨n + 1, by omega, ?_, hc⟩
        simp only [whileDo, read_bind, hcs, if_true, bind_of_ok hb]
        exact hend.run

end Act
