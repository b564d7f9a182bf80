import Mathlib.Logic.Function.Basic
import TinyCache.Library.Machine

/-! Jobs that the threads of a pool do on a shared object. A job is a list of elements, one
atomic step on the object each, and the steps of different jobs come in any order. A job that
no thread has taken up can be withdrawn; one that a thread has taken up goes on to its end,
whoever waits for it. -/

namespace Pool

variable {σ ι κ ο : Type}

inductive Job (ι ο : Type)
  | absent
  | queued (elements : List ι)
  | taken (elements : List ι) (results : List ο)
  | withdrawn

/-- A step that was done on the object: for a job or from outside, on what input and with what
else it was given. -/
structure Done (ι κ ο : Type) where
  job : Option ℕ
  input : ι
  extra : κ
  output : ο

structure State (σ ι κ ο : Type) where
  object : σ
  jobs : ℕ → Job ι ο
  log : List (Done ι κ ο)

def start (s : σ) : State σ ι κ ο := ⟨s, fun _ => .absent, []⟩

variable (op : σ → ι → κ → ο × σ)

/-- One step on the object. -/
def act (y : State σ ι κ ο) (job : Option ℕ) (i : ι) (x : κ) : State σ ι κ ο :=
  { y with object := (op y.object i x).2, log := y.log ++ [⟨job, i, x, (op y.object i x).1⟩] }

def submit (y : State σ ι κ ο) (id : ℕ) (elements : List ι) : State σ ι κ ο :=
  match y.jobs id with
  | .absent => { y with jobs := Function.update y.jobs id (.queued elements) }
  | _ => y

def take (y : State σ ι κ ο) (id : ℕ) : State σ ι κ ο :=
  match y.jobs id with
  | .queued elements => { y with jobs := Function.update y.jobs id (.taken elements []) }
  | _ => y

def withdraw (y : State σ ι κ ο) (id : ℕ) : State σ ι κ ο :=
  match y.jobs id with
  | .queued _ => { y with jobs := Function.update y.jobs id .withdrawn }
  | _ => y

/-- The next element of a job. -/
def work (y : State σ ι κ ο) (id : ℕ) (x : κ) : State σ ι κ ο :=
  match y.jobs id with
  | .taken elements results =>
    match elements[results.length]? with
    | some i =>
      { act op y (some id) i x with
        jobs := Function.update y.jobs id (.taken elements (results ++ [(op y.object i x).1])) }
    | none => y
  | _ => y

/-- The results of a job that is done. -/
def results? (y : State σ ι κ ο) (id : ℕ) : Option (List ο) :=
  match y.jobs id with
  | .taken elements results => if results.length = elements.length then some results else none
  | _ => none

def serial (s : σ) (call : ι × κ) : ο × σ := op s call.1 call.2

def Done.call (d : Done ι κ ο) : ι × κ := (d.input, d.extra)

/-- The steps of a job. -/
def own (log : List (Done ι κ ο)) (id : ℕ) : List (Done ι κ ο) := log.filter fun d => d.job = some id

/-- What a job has done so far. -/
inductive Progress (log : List (Done ι κ ο)) (id : ℕ) : Job ι ο → Prop
  | absent (h : own log id = []) : Progress log id .absent
  | queued (elements : List ι) (h : own log id = []) : Progress log id (.queued elements)
  | taken (elements : List ι) (results : List ο) (hlen : results.length ≤ elements.length)
      (hin : (own log id).map Done.input = elements.take results.length)
      (hout : (own log id).map Done.output = results) : Progress log id (.taken elements results)
  | withdrawn (h : own log id = []) : Progress log id .withdrawn

/-- The log is a run of the object, and of every job it has the elements that are done, in
order and each once. -/
structure Sound (s₀ : σ) (y : State σ ι κ ο) : Prop where
  legal : Machine.outputs (serial op) s₀ (y.log.map Done.call) = y.log.map Done.output
  object : y.object = Machine.exec (serial op) s₀ (y.log.map Done.call)
  progress : ∀ id, Progress y.log id (y.jobs id)

variable {op} {s₀ : σ} {y : State σ ι κ ο}

theorem own_append_of_ne {log : List (Done ι κ ο)} {d : Done ι κ ο} {id : ℕ} (h : d.job ≠ some id) :
    own (log ++ [d]) id = own log id := by
  simp [own, List.filter_append, h]

theorem own_append_self (log : List (Done ι κ ο)) (id : ℕ) (i : ι) (x : κ) (o : ο) :
    own (log ++ [⟨some id, i, x, o⟩]) id = own log id ++ [⟨some id, i, x, o⟩] := by
  simp [own, List.filter_append]

theorem Progress.of_own {log log' : List (Done ι κ ο)} {id : ℕ} {job : Job ι ο} (h : Progress log id job)
    (hown : own log' id = own log id) : Progress log' id job := by
  cases h with
  | absent h => exact .absent (hown.trans h)
  | queued elements h => exact .queued elements (hown.trans h)
  | taken elements results hlen hin hout =>
    exact .taken elements results hlen (by rw [hown, hin]) (by rw [hown, hout])
  | withdrawn h => exact .withdrawn (hown.trans h)

theorem Sound.start (s₀ : σ) : Sound op s₀ (start s₀ : State σ ι κ ο) :=
  ⟨rfl, rfl, fun _ => .absent rfl⟩

theorem own_append (log more : List (Done ι κ ο)) (id : ℕ) : own (log ++ more) id = own log id ++ own more id :=
  List.filter_append ..

theorem submit_log (y : State σ ι κ ο) (id : ℕ) (elements : List ι) : (submit y id elements).log = y.log := by
  unfold Pool.submit
  split <;> rfl

theorem take_log (y : State σ ι κ ο) (id : ℕ) : (take y id).log = y.log := by
  unfold Pool.take
  split <;> rfl

theorem withdraw_log (y : State σ ι κ ο) (id : ℕ) : (withdraw y id).log = y.log := by
  unfold Pool.withdraw
  split <;> rfl

theorem work_log (y : State σ ι κ ο) (id : ℕ) (x : κ) : y.log <+: (work op y id x).log := by
  unfold Pool.work
  split
  · split
    · exact List.prefix_append _ _
    · exact List.prefix_rfl
  · exact List.prefix_rfl

/-- A job may change into one that is as far. -/
theorem Sound.update (h : Sound op s₀ y) {id : ℕ} {job : Job ι ο} (hjob : Progress y.log id job) :
    Sound op s₀ { y with jobs := Function.update y.jobs id job } := by
  refine ⟨h.legal, h.object, ?_⟩
  intro x
  by_cases hx : x = id
  · subst hx
    simpa using hjob
  · simp only [Function.update_of_ne hx]
    exact h.progress x

theorem Sound.submit (h : Sound op s₀ y) (id : ℕ) (elements : List ι) : Sound op s₀ (submit y id elements) := by
  have hp := h.progress id
  unfold Pool.submit
  split
  · rename_i hjob
    rw [hjob] at hp
    cases hp with
    | absent hown => exact h.update (.queued elements hown)
  · exact h

theorem Sound.take (h : Sound op s₀ y) (id : ℕ) : Sound op s₀ (take y id) := by
  have hp := h.progress id
  unfold Pool.take
  split
  · rename_i elements hjob
    rw [hjob] at hp
    cases hp with
    | queued _ hown => exact h.update (.taken elements [] (Nat.zero_le _) (by simp [hown]) (by simp [hown]))
  · exact h

theorem Sound.withdraw (h : Sound op s₀ y) (id : ℕ) : Sound op s₀ (withdraw y id) := by
  have hp := h.progress id
  unfold Pool.withdraw
  split
  · rename_i elements hjob
    rw [hjob] at hp
    cases hp with
    | queued _ hown => exact h.update (.withdrawn hown)
  · exact h

theorem act_legal (h : Sound op s₀ y) (job : Option ℕ) (i : ι) (x : κ) :
    Machine.outputs (serial op) s₀ ((act op y job i x).log.map Done.call) =
        (act op y job i x).log.map Done.output ∧
      (act op y job i x).object = Machine.exec (serial op) s₀ ((act op y job i x).log.map Done.call) := by
  have hlog : (act op y job i x).log.map Done.call = y.log.map Done.call ++ [(i, x)] := by
    rw [act, List.map_append]
    rfl
  rw [hlog]
  constructor
  · rw [Machine.outputs, Machine.trace_append, List.map_append, act, List.map_append]
    refine congrArg₂ _ h.legal ?_
    rw [← h.object]
    rfl
  · rw [Machine.exec_append, ← h.object]
    rfl

/-- A step from outside is of no job. -/
theorem Sound.outside (h : Sound op s₀ y) (i : ι) (x : κ) : Sound op s₀ (act op y none i x) := by
  obtain ⟨hlegal, hobject⟩ := act_legal h none i x
  exact ⟨hlegal, hobject, fun id => (h.progress id).of_own (own_append_of_ne (by simp))⟩

theorem Sound.work (h : Sound op s₀ y) (id : ℕ) (x : κ) : Sound op s₀ (work op y id x) := by
  unfold Pool.work
  split
  · rename_i elements results hjob
    split
    · rename_i i hi
      obtain ⟨hlegal, hobject⟩ := act_legal h (some id) i x
      refine ⟨hlegal, hobject, ?_⟩
      intro a
      by_cases ha : a = id
      · subst ha
        have hp := h.progress a
        rw [hjob] at hp
        cases hp with
        | taken _ _ hlen hin hout =>
          have hlt : results.length < elements.length := (List.getElem?_eq_some_iff.mp hi).1
          simp only [Function.update_self, act]
          refine .taken elements _ (by rw [List.length_append]; exact hlt) ?_ ?_
          · rw [own_append_self, List.map_append, hin, List.length_append, List.length_singleton,
              List.take_add_one, hi]
            rfl
          · rw [own_append_self, List.map_append, hout]
            rfl
      · simp only [Function.update_of_ne ha, act]
        exact (h.progress a).of_own (own_append_of_ne (by simpa using Ne.symm ha))
    · exact h
  · exact h

/-- A job of one step is not interrupted. -/
theorem own_split {log : List (Done ι κ ο)} {id : ℕ} (h : (own log id).length ≤ 1) :
    ∃ pre post, log = pre ++ own log id ++ post := by
  rcases hown : own log id with _ | ⟨d, _ | ⟨d', ds⟩⟩
  · exact ⟨log, [], by simp⟩
  · have hd : d ∈ own log id := by simp [hown]
    obtain ⟨pre, post, hlog⟩ := List.append_of_mem (List.mem_of_mem_filter hd)
    exact ⟨pre, post, by simp [hlog]⟩
  · simp [hown] at h

/-- A part of a legal log is a run from where the part before it ends. -/
theorem legal_block {pre block post : List (Done ι κ ο)}
    (h : Machine.outputs (serial op) s₀ ((pre ++ block ++ post).map Done.call) =
      (pre ++ block ++ post).map Done.output) :
    Machine.outputs (serial op) (Machine.exec (serial op) s₀ (pre.map Done.call)) (block.map Done.call) =
      block.map Done.output := by
  simp only [List.map_append, List.append_assoc, Machine.outputs, Machine.trace_append] at h
  have hpre := List.append_inj h (by
    rw [← Machine.outputs, Machine.length_outputs, List.length_map, List.length_map])
  have hblock := List.append_inj hpre.2 (by
    rw [← Machine.outputs, Machine.length_outputs, List.length_map, List.length_map])
  exact hblock.1

/-- What the threads do to a job: one takes it up, or does an element of it that was to do. -/
inductive Goes : Job ι ο → Job ι ο → Prop
  | same (job : Job ι ο) : Goes job job
  | taken (elements : List ι) : Goes (.queued elements) (.taken elements [])
  | worked (elements : List ι) (results : List ο) (o : ο) (h : results.length < elements.length) :
      Goes (.taken elements results) (.taken elements (results ++ [o]))

theorem take_goes (y : State σ ι κ ο) (id a : ℕ) : Goes (y.jobs a) ((take y id).jobs a) := by
  unfold Pool.take
  split
  · rename_i elements hjob
    by_cases ha : a = id
    · subst ha
      simp only [Function.update_self, hjob]
      exact .taken elements
    · simp only [Function.update_of_ne ha]
      exact .same _
  · exact .same _

theorem work_goes (y : State σ ι κ ο) (id : ℕ) (x : κ) (a : ℕ) :
    Goes (y.jobs a) ((work op y id x).jobs a) := by
  unfold Pool.work
  split
  · rename_i elements results hjob
    split
    · rename_i i hi
      by_cases ha : a = id
      · subst ha
        simp only [Function.update_self, hjob]
        exact .worked elements results _ (List.getElem?_eq_some_iff.mp hi).1
      · simp only [Function.update_of_ne ha]
        exact .same _
    · exact .same _
  · exact .same _

theorem submit_jobs {y : State σ ι κ ο} {id : ℕ} (h : y.jobs id = .absent) (elements : List ι) :
    (submit y id elements).jobs = Function.update y.jobs id (.queued elements) := by
  rw [submit, h]

theorem withdraw_jobs_of_ne (y : State σ ι κ ο) {id a : ℕ} (ha : a ≠ id) :
    (withdraw y id).jobs a = y.jobs a := by
  unfold Pool.withdraw
  split
  · simp only [Function.update_of_ne ha]
  · rfl

/-- Only what waits in the queue is withdrawn. -/
theorem withdraw_jobs (y : State σ ι κ ο) (id : ℕ) :
    (withdraw y id).jobs id = y.jobs id ∨ (withdraw y id).jobs id = .withdrawn := by
  unfold Pool.withdraw
  split
  · right
    simp only [Function.update_self]
  · exact Or.inl rfl

theorem results?_eq_some {y : State σ ι κ ο} {id : ℕ} {results : List ο} (h : results? y id = some results) :
    ∃ elements, y.jobs id = .taken elements results ∧ results.length = elements.length := by
  unfold results? at h
  split at h
  · rename_i elements results' hjob
    split_ifs at h with hlen
    cases h
    exact ⟨elements, hjob, hlen⟩
  · cases h

end Pool
