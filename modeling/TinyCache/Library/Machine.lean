import Mathlib.Data.List.Basic
import Mathlib.Tactic.Common

/-! Runs of a deterministic machine that answers each input with an output. -/

namespace Machine

variable {σ τ ι ο : Type}

/-- One step of a run: the states around it, what was asked and what was answered. -/
structure Step (σ ι ο : Type) where
  before : σ
  input : ι
  output : ο
  after : σ

def record (step : σ → ι → ο × σ) (s : σ) (i : ι) : Step σ ι ο :=
  ⟨s, i, (step s i).1, (step s i).2⟩

/-- The steps of the run from `s` on the inputs, in order. -/
def trace (step : σ → ι → ο × σ) : σ → List ι → List (Step σ ι ο)
  | _, [] => []
  | s, i :: is => record step s i :: trace step (step s i).2 is

/-- The state that run ends in. -/
def exec (step : σ → ι → ο × σ) : σ → List ι → σ
  | s, [] => s
  | s, i :: is => exec step (step s i).2 is

def outputs (step : σ → ι → ο × σ) (s : σ) (is : List ι) : List ο :=
  (trace step s is).map Step.output

/-- The machine that also lists what it is asked. -/
def logged (step : σ → ι → ο × σ) : σ × List ι → ι → ο × (σ × List ι) := fun s i =>
  ((step s.1 i).1, ((step s.1 i).2, s.2 ++ [i]))

variable {step : σ → ι → ο × σ} {step' : τ → ι → ο × τ}

theorem trace_append (s : σ) (is js : List ι) :
    trace step s (is ++ js) = trace step s is ++ trace step (exec step s is) js := by
  induction is generalizing s with
  | nil => rfl
  | cons i is ih => simp only [List.cons_append, trace, exec, ih]

theorem exec_append (s : σ) (is js : List ι) :
    exec step s (is ++ js) = exec step (exec step s is) js := by
  induction is generalizing s with
  | nil => rfl
  | cons i is ih => simp only [List.cons_append, exec, ih]

/-- Inputs that stand for those of another machine drive it through the same states. -/
theorem exec_map {κ π : Type} {step₂ : σ → κ → π × σ} (f : ι → κ)
    (h : ∀ s i, (step s i).2 = (step₂ s (f i)).2) (s : σ) (is : List ι) :
    exec step s is = exec step₂ s (is.map f) := by
  induction is generalizing s with
  | nil => rfl
  | cons i is ih => simp only [List.map_cons, exec, ih, h]

theorem trace_inputs (s : σ) (is : List ι) : (trace step s is).map Step.input = is := by
  induction is generalizing s with
  | nil => rfl
  | cons i is ih => simp only [trace, List.map_cons, ih, record]

theorem length_outputs (s : σ) (is : List ι) : (outputs step s is).length = is.length := by
  rw [outputs, List.length_map, ← List.length_map (f := Step.input), trace_inputs]

theorem input_mem {s : σ} {is : List ι} {r : Step σ ι ο} (h : r ∈ trace step s is) : r.input ∈ is := by
  rw [← trace_inputs s is]
  exact List.mem_map_of_mem h

theorem record_mem (s : σ) (i : ι) (is : List ι) : record step s i ∈ trace step s (i :: is) :=
  List.mem_cons_self

/-- A place in a trace is a step made after some of the inputs. -/
theorem trace_split {s : σ} {is : List ι} {pre post : List (Step σ ι ο)} {r : Step σ ι ο}
    (h : trace step s is = pre ++ r :: post) :
    ∃ js i ks, is = js ++ i :: ks ∧ pre = trace step s js ∧ r = record step (exec step s js) i := by
  induction is generalizing s pre with
  | nil => simp [trace] at h
  | cons i is ih =>
    cases pre with
    | nil =>
      rw [List.nil_append, trace, List.cons.injEq] at h
      exact ⟨[], i, is, rfl, rfl, h.1.symm⟩
    | cons q pre =>
      rw [List.cons_append, trace, List.cons.injEq] at h
      obtain ⟨js, j, ks, rfl, rfl, hr⟩ := ih h.2
      exact ⟨i :: js, j, ks, rfl, by rw [trace, h.1], hr⟩

/-- A property that every step allowed by `C` keeps holds at the end of a run of such steps. -/
theorem exec_invariant {I : σ → Prop} {C : σ → ι → Prop}
    (hstep : ∀ s i, I s → C s i → I (step s i).2) {s : σ} (hs : I s) (is : List ι)
    (hC : ∀ r ∈ trace step s is, C r.before r.input) : I (exec step s is) := by
  induction is generalizing s with
  | nil => exact hs
  | cons i is ih =>
    simp only [trace, List.forall_mem_cons] at hC
    exact ih (hstep s i hs hC.1) hC.2

/-- Every step of a run starts in a state with the invariant and is a step of the machine. -/
theorem trace_forall {I : σ → Prop} {C : σ → ι → Prop}
    (hstep : ∀ s i, I s → C s i → I (step s i).2) {s : σ} (hs : I s) (is : List ι)
    (hC : ∀ r ∈ trace step s is, C r.before r.input) :
    ∀ r ∈ trace step s is, I r.before ∧ r = record step r.before r.input := by
  induction is generalizing s with
  | nil => simp [trace]
  | cons i is ih =>
    simp only [trace, List.forall_mem_cons] at hC ⊢
    exact ⟨⟨hs, rfl⟩, ih (hstep s i hs hC.1) hC.2⟩

/-- What every step keeps holds at the end of every run. -/
theorem exec_always {I : σ → Prop} (hstep : ∀ s i, I s → I (step s i).2) {s : σ} (hs : I s)
    (is : List ι) : I (exec step s is) :=
  exec_invariant (C := fun _ _ => True) (fun s i h _ => hstep s i h) hs is fun _ _ => trivial

theorem trace_always {I : σ → Prop} (hstep : ∀ s i, I s → I (step s i).2) {s : σ} (hs : I s)
    {is : List ι} {r : Step σ ι ο} (h : r ∈ trace step s is) :
    I r.before ∧ r = record step r.before r.input :=
  trace_forall (C := fun _ _ => True) (fun s i h _ => hstep s i h) hs is (fun _ _ => trivial) r h

theorem eq_record_of_mem {s : σ} {is : List ι} {r : Step σ ι ο} (h : r ∈ trace step s is) :
    r = record step r.before r.input :=
  (trace_always (I := fun _ => True) (fun _ _ h => h) trivial h).2

/-- An invariant that may speak of the steps made so far. -/
theorem history_invariant {I : List (Step σ ι ο) → σ → Prop} {C : σ → ι → Prop}
    (hstep : ∀ h s i, I h s → C s i → I (h ++ [record step s i]) (step s i).2)
    {h : List (Step σ ι ο)} {s : σ} (hs : I h s) (is : List ι)
    (hC : ∀ r ∈ trace step s is, C r.before r.input) : I (h ++ trace step s is) (exec step s is) := by
  induction is generalizing h s with
  | nil => simpa [trace, exec] using hs
  | cons i is ih =>
    simp only [trace, List.forall_mem_cons] at hC
    have h1 := ih (hstep h s i hs hC.1) hC.2
    simpa [trace, exec, List.append_assoc] using h1

/-- The same for an invariant that every step keeps, from the start of the run. -/
theorem history_always {I : List (Step σ ι ο) → σ → Prop}
    (hstep : ∀ h s i, I h s → I (h ++ [record step s i]) (step s i).2) {s : σ} (hs : I [] s)
    (is : List ι) : I (trace step s is) (exec step s is) :=
  history_invariant (C := fun _ _ => True) (fun h s i hi _ => hstep h s i hi) hs is fun _ _ => trivial

/-- Two machines that stay related answer alike. The relation may speak of the
inputs still to come. -/
theorem outputs_eq_of_simulation {R : List ι → σ → τ → Prop} {C : σ → ι → Prop}
    (hstep : ∀ i is s t, R (i :: is) s t → C s i →
      (step s i).1 = (step' t i).1 ∧ R is (step s i).2 (step' t i).2)
    {s : σ} {t : τ} (is : List ι) (hR : R is s t)
    (hC : ∀ r ∈ trace step s is, C r.before r.input) :
    outputs step s is = outputs step' t is := by
  induction is generalizing s t with
  | nil => rfl
  | cons i is ih =>
    simp only [trace, List.forall_mem_cons] at hC
    obtain ⟨hout, hR'⟩ := hstep i is s t hR hC.1
    have htail := ih hR' hC.2
    simp only [outputs, trace, List.map_cons, record] at htail ⊢
    rw [hout, htail]

/-- Inputs that are not selected leave the relation as it is, selected ones are answered
alike by both machines: then the second machine, given only these, gives the first's
answers to them. -/
theorem outputs_filter_eq {R : σ → τ → Prop} {C : σ → ι → Prop} (sel : ι → Bool)
    (hsel : ∀ s t i, R s t → C s i → sel i = true →
      (step s i).1 = (step' t i).1 ∧ R (step s i).2 (step' t i).2)
    (hskip : ∀ s t i, R s t → C s i → sel i = false → R (step s i).2 t)
    {s : σ} {t : τ} (is : List ι) (hR : R s t) (hC : ∀ r ∈ trace step s is, C r.before r.input) :
    ((trace step s is).filter fun r => sel r.input).map Step.output =
      outputs step' t (is.filter sel) := by
  induction is generalizing s t with
  | nil => rfl
  | cons i is ih =>
    simp only [trace, List.forall_mem_cons] at hC
    cases hi : sel i with
    | true =>
      obtain ⟨hout, hR'⟩ := hsel s t i hR hC.1 hi
      have htail := ih hR' hC.2
      rw [trace, List.filter_cons_of_pos (by exact hi), List.filter_cons_of_pos hi, List.map_cons, htail]
      exact congrArg (· :: _) hout
    | false =>
      have hfalse : ¬ sel i = true := by simp [hi]
      rw [trace, List.filter_cons_of_neg (by exact hfalse), List.filter_cons_of_neg hfalse]
      exact ih (hskip s t i hR hC.1 hi) hC.2

end Machine
