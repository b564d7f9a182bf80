import Mathlib.Data.List.Pairwise
import Mathlib.Logic.Function.Basic
import Mathlib.Order.Lattice
import TinyCache.Library.Machine

/-! An object behind a lock. Calls come and go in any interleaving, time passes at any
moment, and what a call does to the object it does a step at a time while it holds the lock.
Every such run is one in which the calls are made one after another: the log lists them in
the order in which they let go of the lock. -/

namespace Lock

variable {σ τ ι ρ : Type}

/-- Code under the lock. It reads and writes the object, and reads the clock at numbered
places. -/
inductive Code (σ τ ρ : Type)
  | done (reply : ρ)
  | access (f : σ → σ) (next : σ → Code σ τ ρ)
  | now (place : ℕ) (next : τ → Code σ τ ρ)

namespace Code

/-- What the code does if nothing comes between. -/
def run (clock : ℕ → τ) : Code σ τ ρ → σ → ρ × σ
  | done reply, s => (reply, s)
  | access f next, s => (next s).run clock (f s)
  | now place next, s => (next (clock place)).run clock s

/-- The places at which the clock is read go up, from `n` on. -/
def Ordered : ℕ → Code σ τ ρ → Prop
  | _, done _ => True
  | n, access _ next => ∀ s, (next s).Ordered n
  | n, now place next => n ≤ place ∧ ∀ t, (next t).Ordered (place + 1)

theorem Ordered.mono {n m : ℕ} {code : Code σ τ ρ} (h : code.Ordered m) (hnm : n ≤ m) : code.Ordered n := by
  induction code generalizing m with
  | done => trivial
  | access f next ih => exact fun s => ih s (h s) hnm
  | now place next => exact ⟨hnm.trans h.1, h.2⟩

end Code

/-- A call that is over for the object. -/
structure Entry (τ ι ρ : Type) where
  id : ℕ
  input : ι
  clock : ℕ → τ
  reply : ρ

/-- The call that has the lock: what it has left to do, the next place at which it may read
the clock and the readings so far. -/
structure Holder (σ τ ι ρ : Type) where
  id : ℕ
  input : ι
  code : Code σ τ ρ
  place : ℕ
  clock : ℕ → τ

inductive Phase (σ τ ι ρ : Type)
  | absent
  | waiting (input : ι) (code : Code σ τ ρ)
  | inside
  | leaving (reply : ρ)
  | returned

/-- What the callers see. -/
inductive Mark (ι ρ : Type)
  | invoked (id : ℕ) (input : ι)
  | returned (id : ℕ) (reply : ρ)

/-- `mark` is the time at which the lock was last taken or let go. -/
structure System (σ τ ι ρ : Type) where
  object : σ
  now : τ
  holder : Option (Holder σ τ ι ρ)
  phase : ℕ → Phase σ τ ι ρ
  calls : ℕ
  mark : τ
  log : List (Entry τ ι ρ)
  history : List (Mark ι ρ)

inductive Turn (τ ι : Type)
  | tick (t : τ)
  | invoke (input : ι)
  | acquire (id : ℕ)
  | work
  | return_ (id : ℕ)

def start (s : σ) (t : τ) : System σ τ ι ρ := ⟨s, t, none, fun _ => .absent, 0, t, [], []⟩

section

variable (prog : ι → ρ ⊕ Code σ τ ρ)

/-- A call that does not need the lock is over at once, and counts as made when the lock was
last taken or let go. -/
def invoke (y : System σ τ ι ρ) (input : ι) : System σ τ ι ρ :=
  match prog input with
  | .inl reply =>
    { y with
      phase := Function.update y.phase y.calls (.leaving reply)
      calls := y.calls + 1
      log := y.log ++ [⟨y.calls, input, fun _ => y.mark, reply⟩]
      history := y.history ++ [.invoked y.calls input] }
  | .inr code =>
    { y with
      phase := Function.update y.phase y.calls (.waiting input code)
      calls := y.calls + 1
      history := y.history ++ [.invoked y.calls input] }

def acquire (y : System σ τ ι ρ) (id : ℕ) : System σ τ ι ρ :=
  match y.holder, y.phase id with
  | none, .waiting input code =>
    { y with
      holder := some ⟨id, input, code, 0, fun _ => y.now⟩
      phase := Function.update y.phase id .inside
      mark := y.now }
  | _, _ => y

/-- One step of the code under the lock; the last one lets go of it. -/
def work (y : System σ τ ι ρ) : System σ τ ι ρ :=
  match y.holder with
  | some ⟨id, input, .access f next, place, clock⟩ =>
    { y with object := f y.object, holder := some ⟨id, input, next y.object, place, clock⟩ }
  | some ⟨id, input, .now p next, _, clock⟩ =>
    { y with
      holder := some ⟨id, input, next y.now, p + 1, fun j => if j < p then clock j else y.now⟩ }
  | some ⟨id, input, .done reply, _, clock⟩ =>
    { y with
      holder := none
      phase := Function.update y.phase id (.leaving reply)
      mark := y.now
      log := y.log ++ [⟨id, input, clock, reply⟩] }
  | none => y

def return_ (y : System σ τ ι ρ) (id : ℕ) : System σ τ ι ρ :=
  match y.phase id with
  | .leaving reply =>
    { y with
      phase := Function.update y.phase id .returned
      history := y.history ++ [.returned id reply] }
  | _ => y

variable [LinearOrder τ]

/-- A turn that is not possible changes nothing. -/
def move (y : System σ τ ι ρ) : Turn τ ι → System σ τ ι ρ
  | .tick t => { y with now := max y.now t }
  | .invoke input => invoke prog y input
  | .acquire id => acquire y id
  | .work => work y
  | .return_ id => return_ y id

def run (y : System σ τ ι ρ) (turns : List (Turn τ ι)) : System σ τ ι ρ := turns.foldl (move prog) y

end

/-- The object without the lock, one call after another. -/
def serial (op : σ → ι → (ℕ → τ) → ρ × σ) (s : σ) (call : ι × (ℕ → τ)) : ρ × σ := op s call.1 call.2

def Entry.call (e : Entry τ ι ρ) : ι × (ℕ → τ) := (e.input, e.clock)

/-- The code of each call does to the object what `op` does. -/
structure Computes (op : σ → ι → (ℕ → τ) → ρ × σ) (prog : ι → ρ ⊕ Code σ τ ρ) : Prop where
  refuses : ∀ input reply, prog input = .inl reply → ∀ s clock, op s input clock = (reply, s)
  ordered : ∀ input code, prog input = .inr code → code.Ordered 0
  runs : ∀ input code, prog input = .inr code → ∀ s clock, code.run clock s = op s input clock

/-- A call that had returned before another was made comes before it. -/
def RealTime (ids : List ℕ) (history : List (Mark ι ρ)) : Prop :=
  ∀ pre b input post, history = pre ++ Mark.invoked b input :: post →
    ∀ a reply, Mark.returned a reply ∈ pre → b ∈ ids → [a, b].Sublist ids

/-- The log is a run of the object, made of the calls in the history, each once, in an order
that agrees with theirs. -/
structure Linearized [LE τ] (op : σ → ι → (ℕ → τ) → ρ × σ) (s : σ) (log : List (Entry τ ι ρ))
    (history : List (Mark ι ρ)) : Prop where
  legal : Machine.outputs (serial op) s (log.map Entry.call) = log.map Entry.reply
  once : (log.map Entry.id).Nodup
  asked : ∀ e ∈ log, .invoked e.id e.input ∈ history
  answered : ∀ id reply, .returned id reply ∈ history → ∃ e ∈ log, e.id = id ∧ e.reply = reply
  realTime : RealTime (log.map Entry.id) history
  within : ∀ e ∈ log, ∀ i j, i ≤ j → e.clock i ≤ e.clock j
  across : log.Pairwise fun a b => ∀ i j, a.clock i ≤ b.clock j

variable {op : σ → ι → (ℕ → τ) → ρ × σ} {prog : ι → ρ ⊕ Code σ τ ρ} {s₀ : σ} {y : System σ τ ι ρ}

/-- The state after the calls that are over. -/
def settled (op : σ → ι → (ℕ → τ) → ρ × σ) (s₀ : σ) (y : System σ τ ι ρ) : σ :=
  Machine.exec (serial op) s₀ (y.log.map Entry.call)

theorem settled_append {y y' : System σ τ ι ρ} {e : Entry τ ι ρ} (h : y'.log = y.log ++ [e]) :
    settled op s₀ y' = (op (settled op s₀ y) e.input e.clock).2 := by
  rw [settled, h, List.map_append, Machine.exec_append]
  rfl

/-- The holder is on the way from the settled state to where its call leads, whatever it will
read from the clock. -/
structure Underway [LinearOrder τ] (op : σ → ι → (ℕ → τ) → ρ × σ) (s₀ : σ) (y : System σ τ ι ρ)
    (h : Holder σ τ ι ρ) : Prop where
  runs : ∀ clock, (∀ j < h.place, clock j = h.clock j) →
    h.code.run clock y.object = op (settled op s₀ y) h.input clock
  ordered : h.code.Ordered h.place
  mono : Monotone h.clock
  since : ∀ j, y.mark ≤ h.clock j
  until_ : ∀ j, h.clock j ≤ y.now

structure Sound [LinearOrder τ] (op : σ → ι → (ℕ → τ) → ρ × σ) (s₀ : σ) (y : System σ τ ι ρ) : Prop where
  legal : Machine.outputs (serial op) s₀ (y.log.map Entry.call) = y.log.map Entry.reply
  free : y.holder = none → y.object = settled op s₀ y
  held : ∀ h, y.holder = some h → Underway op s₀ y h
  mark_le : y.mark ≤ y.now
  within : ∀ e ∈ y.log, Monotone e.clock
  across : y.log.Pairwise fun a b => ∀ i j, a.clock i ≤ b.clock j
  past : ∀ e ∈ y.log, ∀ j, e.clock j ≤ y.mark

theorem legal_append {log : List (Entry τ ι ρ)} {e : Entry τ ι ρ}
    (h : Machine.outputs (serial op) s₀ (log.map Entry.call) = log.map Entry.reply)
    (he : (op (Machine.exec (serial op) s₀ (log.map Entry.call)) e.input e.clock).1 = e.reply) :
    Machine.outputs (serial op) s₀ ((log ++ [e]).map Entry.call) = (log ++ [e]).map Entry.reply := by
  rw [Machine.outputs, List.map_append, Machine.trace_append, List.map_append, List.map_append]
  exact congrArg₂ _ h (congrArg (fun r => [r]) he)

section

variable [LinearOrder τ]

theorem Sound.start (s₀ : σ) (t : τ) : Sound op s₀ (start s₀ t : System σ τ ι ρ) where
  legal := rfl
  free _ := rfl
  held _ h := by cases h
  mark_le := le_refl t
  within _ h := by cases h
  across := List.Pairwise.nil
  past _ h := by cases h

theorem Sound.tick (h : Sound op s₀ y) (t : τ) : Sound op s₀ { y with now := max y.now t } where
  legal := h.legal
  free := h.free
  held a ha :=
    have hu := h.held a ha
    ⟨hu.runs, hu.ordered, hu.mono, hu.since, fun j => (hu.until_ j).trans (le_max_left _ _)⟩
  mark_le := h.mark_le.trans (le_max_left _ _)
  within := h.within
  across := h.across
  past := h.past

/-- A call that leaves the object alone may be put behind all that are over. -/
theorem Sound.invoke (hprog : Computes op prog) (h : Sound op s₀ y) (input : ι) :
    Sound op s₀ (invoke prog y input) := by
  unfold Lock.invoke
  split
  · rename_i reply hin
    have hop := hprog.refuses input reply hin
    have hsettled : settled op s₀ { y with log := y.log ++ [⟨y.calls, input, fun _ => y.mark, reply⟩] } =
        settled op s₀ y := by
      rw [settled_append rfl, hop]
    refine ⟨legal_append h.legal (by rw [hop]), ?_, ?_, h.mark_le, ?_, ?_, ?_⟩
    · intro hfree
      exact (h.free hfree).trans hsettled.symm
    · intro a ha
      have hu := h.held a ha
      refine ⟨?_, hu.ordered, hu.mono, hu.since, hu.until_⟩
      intro clock hclock
      exact (hu.runs clock hclock).trans (by rw [← hsettled]; rfl)
    · intro e he
      rcases List.mem_append.mp he with he | he
      · exact h.within e he
      · rw [List.mem_singleton.mp he]
        exact monotone_const
    · rw [List.pairwise_append]
      refine ⟨h.across, List.pairwise_singleton _ _, ?_⟩
      intro a ha b hb i j
      rw [List.mem_singleton.mp hb]
      exact h.past a ha i
    · intro e he j
      rcases List.mem_append.mp he with he | he
      · exact h.past e he j
      · rw [List.mem_singleton.mp he]
  · exact ⟨h.legal, h.free, fun a ha => ⟨(h.held a ha).runs, (h.held a ha).ordered, (h.held a ha).mono,
      (h.held a ha).since, (h.held a ha).until_⟩, h.mark_le, h.within, h.across, h.past⟩

/-- Whoever gets the lock finds the object settled. -/
theorem Sound.acquire (hprog : Computes op prog) (h : Sound op s₀ y) {id : ℕ}
    (hwaiting : ∀ input code, y.phase id = .waiting input code → prog input = .inr code) :
    Sound op s₀ (acquire y id) := by
  unfold Lock.acquire
  split
  · rename_i input code hfree hphase
    have hin := hwaiting input code hphase
    refine ⟨h.legal, ?_, ?_, le_refl _, h.within, h.across, ?_⟩
    · intro hholder
      cases hholder
    · intro a ha
      cases ha
      refine ⟨?_, hprog.ordered input code hin, monotone_const, fun _ => le_refl _, fun _ => le_refl _⟩
      intro clock _
      rw [hprog.runs input code hin, h.free hfree]
      rfl
    · exact fun e he j => (h.past e he j).trans h.mark_le
  · exact h

/-- A reading is later than those before it, and the places that are still to come see it or
a later one. -/
theorem Underway.read {id place p : ℕ} {input : ι} {next : τ → Code σ τ ρ} {clock : ℕ → τ}
    (h : Underway op s₀ y ⟨id, input, .now p next, place, clock⟩) :
    Underway op s₀ y ⟨id, input, next y.now, p + 1, fun j => if j < p then clock j else y.now⟩ where
  runs := by
    intro clock' hclock
    have hp := hclock p (Nat.lt_succ_self p)
    simp only [lt_self_iff_false, if_false] at hp
    rw [← hp]
    refine h.runs clock' ?_
    intro j hj
    have hjp : j < p := lt_of_lt_of_le hj h.ordered.1
    exact (hclock j (Nat.lt_succ_of_lt hjp)).trans (if_pos hjp)
  ordered := h.ordered.2 _
  mono := by
    intro i j hij
    dsimp only
    split_ifs with hi hj hj
    · exact h.mono hij
    · exact h.until_ i
    · omega
    · exact le_refl _
  since := by
    intro j
    dsimp only
    split_ifs
    · exact h.since j
    · exact (h.since 0).trans (h.until_ 0)
  until_ := by
    intro j
    dsimp only
    split_ifs
    · exact h.until_ j
    · exact le_refl _

theorem Sound.work (h : Sound op s₀ y) : Sound op s₀ (work y) := by
  unfold Lock.work
  split
  · rename_i id input f next place clock hholder
    have hu := h.held _ hholder
    refine ⟨h.legal, ?_, ?_, h.mark_le, h.within, h.across, h.past⟩
    · intro hfree
      cases hfree
    · intro a ha
      cases ha
      exact ⟨hu.runs, hu.ordered _, hu.mono, hu.since, hu.until_⟩
  · rename_i id input p next place clock hholder
    refine ⟨h.legal, ?_, ?_, h.mark_le, h.within, h.across, h.past⟩
    · intro hfree
      cases hfree
    · intro a ha
      cases ha
      have hr := (h.held _ hholder).read
      exact ⟨hr.runs, hr.ordered, hr.mono, hr.since, hr.until_⟩
  · rename_i id input reply place clock hholder
    -- the call is over: the object is where it leads
    have hu := h.held _ hholder
    have hop : (reply, y.object) = op (settled op s₀ y) input clock := hu.runs clock fun _ _ => rfl
    refine ⟨legal_append h.legal (congrArg Prod.fst hop).symm, ?_, ?_, le_refl _, ?_, ?_, ?_⟩
    · intro _
      rw [settled_append rfl]
      exact congrArg Prod.snd hop
    · intro a ha
      cases ha
    · intro e he
      rcases List.mem_append.mp he with he | he
      · exact h.within e he
      · rw [List.mem_singleton.mp he]
        exact hu.mono
    · rw [List.pairwise_append]
      refine ⟨h.across, List.pairwise_singleton _ _, ?_⟩
      intro a ha b hb i j
      rw [List.mem_singleton.mp hb]
      exact (h.past a ha i).trans (hu.since j)
    · intro e he j
      rcases List.mem_append.mp he with he | he
      · exact (h.past e he j).trans h.mark_le
      · rw [List.mem_singleton.mp he]
        exact hu.until_ j
  · exact h

theorem Sound.return_ (h : Sound op s₀ y) (id : ℕ) : Sound op s₀ (return_ y id) := by
  unfold Lock.return_
  split
  · exact ⟨h.legal, h.free, fun a ha => ⟨(h.held a ha).runs, (h.held a ha).ordered, (h.held a ha).mono,
      (h.held a ha).since, (h.held a ha).until_⟩, h.mark_le, h.within, h.across, h.past⟩
  · exact h

end

section

variable {ids : List ℕ} {history : List (Mark ι ρ)}

/-- A mark that is not a call leaves nothing new to compare. -/
theorem RealTime.mark (h : RealTime ids history) {m : Mark ι ρ}
    (hm : ∀ b input, m = .invoked b input → b ∉ ids) : RealTime ids (history ++ [m]) := by
  intro pre b input post he a reply ha hb
  rcases List.eq_nil_or_concat' post with rfl | ⟨post, m', rfl⟩
  · obtain ⟨-, hlast⟩ := List.append_inj' he rfl
    exact absurd hb (hm b input (List.cons.inj hlast).1)
  · rw [← List.cons_append, ← List.append_assoc] at he
    exact h pre b input post (List.append_inj' he rfl).1 a reply ha hb

/-- What is logged now comes after whatever has returned. -/
theorem RealTime.logged (h : RealTime ids history)
    (hids : ∀ a reply, Mark.returned a reply ∈ history → a ∈ ids) (c : ℕ) :
    RealTime (ids ++ [c]) history := by
  intro pre b input post he a reply ha hb
  by_cases hold : b ∈ ids
  · exact (h pre b input post he a reply ha hold).trans (List.sublist_append_left _ _)
  · have hbc : b = c := by simpa [hold] using hb
    have hmem : a ∈ ids := hids a reply (he ▸ List.mem_append_left _ ha)
    rw [hbc]
    exact (List.singleton_sublist.mpr hmem).append (List.Sublist.refl [c])

end

/-- Every call is where its marks say. -/
structure Kept (prog : ι → ρ ⊕ Code σ τ ρ) (y : System σ τ ι ρ) : Prop where
  absent : ∀ id, y.calls ≤ id → y.phase id = .absent
  waiting : ∀ id input code, y.phase id = .waiting input code →
    prog input = .inr code ∧ .invoked id input ∈ y.history
  held : ∀ h, y.holder = some h → y.phase h.id = .inside ∧ .invoked h.id h.input ∈ y.history
  logged : ∀ e ∈ y.log, y.phase e.id = .leaving e.reply ∨ y.phase e.id = .returned
  leaving : ∀ id reply, y.phase id = .leaving reply → ∃ e ∈ y.log, e.id = id ∧ e.reply = reply
  once : (y.log.map Entry.id).Nodup
  asked : ∀ e ∈ y.log, .invoked e.id e.input ∈ y.history
  answered : ∀ id reply, .returned id reply ∈ y.history → ∃ e ∈ y.log, e.id = id ∧ e.reply = reply
  realTime : RealTime (y.log.map Entry.id) y.history

theorem Kept.start (s₀ : σ) (t : τ) : Kept prog (start s₀ t : System σ τ ι ρ) where
  absent _ _ := rfl
  waiting _ _ _ h := by cases h
  held _ h := by cases h
  logged _ h := by cases h
  leaving _ _ h := by cases h
  once := List.nodup_nil
  asked _ h := by cases h
  answered _ _ h := by cases h
  realTime pre b input post he := by simp [Lock.start] at he

/-- A call that has not been answered is not in the log. -/
theorem Kept.notMem (h : Kept prog y) {id : ℕ} (h1 : ∀ reply, y.phase id ≠ .leaving reply)
    (h2 : y.phase id ≠ .returned) : id ∉ y.log.map Entry.id := by
  intro hm
  obtain ⟨e, he, rfl⟩ := List.mem_map.mp hm
  rcases h.logged e he with hp | hp
  · exact h1 _ hp
  · exact h2 hp

theorem Kept.returned_mem (h : Kept prog y) (a : ℕ) (reply : ρ) (ha : .returned a reply ∈ y.history) :
    a ∈ y.log.map Entry.id := by
  obtain ⟨e, he, rfl, -⟩ := h.answered a reply ha
  exact List.mem_map_of_mem he

/-- The calls that are over are not touched by a change of another. -/
theorem Kept.logged_update (h : Kept prog y) {id : ℕ} (hid : id ∉ y.log.map Entry.id)
    (p : Phase σ τ ι ρ) : ∀ e ∈ y.log,
      Function.update y.phase id p e.id = .leaving e.reply ∨ Function.update y.phase id p e.id = .returned := by
  intro e he
  have hne : e.id ≠ id := fun heq => hid (heq ▸ List.mem_map_of_mem he)
  rw [Function.update_of_ne hne]
  exact h.logged e he

/-- A call is over now. -/
theorem Kept.logged_append (h : Kept prog y) (e : Entry τ ι ρ) (hid : e.id ∉ y.log.map Entry.id) :
    ∀ a ∈ y.log ++ [e], Function.update y.phase e.id (.leaving e.reply) a.id = .leaving a.reply ∨
      Function.update y.phase e.id (.leaving e.reply) a.id = .returned := by
  intro a ha
  rcases List.mem_append.mp ha with ha | ha
  · exact h.logged_update hid _ a ha
  · rw [List.mem_singleton.mp ha, Function.update_self]
    exact Or.inl rfl

theorem Kept.leaving_append (h : Kept prog y) (e : Entry τ ι ρ) :
    ∀ id reply, Function.update y.phase e.id (.leaving e.reply) id = .leaving reply →
      ∃ a ∈ y.log ++ [e], a.id = id ∧ a.reply = reply := by
  intro id reply hp
  by_cases hid : id = e.id
  · subst hid
    rw [Function.update_self] at hp
    exact ⟨e, by simp, rfl, Phase.leaving.inj hp⟩
  · rw [Function.update_of_ne hid] at hp
    obtain ⟨a, ha, hae⟩ := h.leaving id reply hp
    exact ⟨a, List.mem_append_left _ ha, hae⟩

theorem nodup_append {log : List (Entry τ ι ρ)} {e : Entry τ ι ρ} (h : (log.map Entry.id).Nodup)
    (he : e.id ∉ log.map Entry.id) : ((log ++ [e]).map Entry.id).Nodup := by
  rw [List.map_append, List.nodup_append]
  refine ⟨h, by simp, ?_⟩
  rintro a ha b hb rfl
  exact he (List.mem_singleton.mp hb ▸ ha)

theorem Kept.answered_append (h : Kept prog y) (e : Entry τ ι ρ) (id : ℕ) (reply : ρ)
    (hm : .returned id reply ∈ y.history) : ∃ a ∈ y.log ++ [e], a.id = id ∧ a.reply = reply := by
  obtain ⟨a, ha, hae⟩ := h.answered id reply hm
  exact ⟨a, List.mem_append_left _ ha, hae⟩

section

variable {id : ℕ} {p : Phase σ τ ι ρ}

theorem Kept.absent_update (h : Kept prog y) (hid : y.phase id ≠ .absent) (p : Phase σ τ ι ρ) :
    ∀ x, y.calls ≤ x → Function.update y.phase id p x = .absent := by
  intro x hx
  have hne : x ≠ id := fun he => hid (he ▸ h.absent x hx)
  exact (Function.update_of_ne hne _ _).trans (h.absent x hx)

theorem Kept.waiting_update (h : Kept prog y) (hp : ∀ input code, p ≠ .waiting input code) :
    ∀ x input code, Function.update y.phase id p x = .waiting input code →
      prog input = .inr code ∧ .invoked x input ∈ y.history := by
  intro x input code hx
  by_cases hid : x = id
  · subst hid
    rw [Function.update_self] at hx
    exact absurd hx (hp input code)
  · rw [Function.update_of_ne hid] at hx
    exact h.waiting x input code hx

theorem Kept.leaving_update (h : Kept prog y) (hp : ∀ reply, p ≠ .leaving reply) :
    ∀ x reply, Function.update y.phase id p x = .leaving reply → ∃ e ∈ y.log, e.id = x ∧ e.reply = reply := by
  intro x reply hx
  by_cases hid : x = id
  · subst hid
    rw [Function.update_self] at hx
    exact absurd hx (hp reply)
  · rw [Function.update_of_ne hid] at hx
    exact h.leaving x reply hx

theorem Kept.held_update (h : Kept prog y) (id : ℕ) (hid : y.phase id ≠ .inside) (p : Phase σ τ ι ρ) :
    ∀ a, y.holder = some a →
      Function.update y.phase id p a.id = .inside ∧ .invoked a.id a.input ∈ y.history := by
  intro a ha
  obtain ⟨hp, hm⟩ := h.held a ha
  have hne : a.id ≠ id := fun he => hid (he ▸ hp)
  exact ⟨(Function.update_of_ne hne _ _).trans hp, hm⟩

end

theorem Kept.invoke (h : Kept prog y) (input : ι) : Kept prog (invoke prog y input) := by
  have habsent := h.absent y.calls (le_refl _)
  have hnot : y.calls ∉ y.log.map Entry.id := h.notMem (by simp [habsent]) (by simp [habsent])
  have hlater : ∀ (p : Phase σ τ ι ρ) id, y.calls + 1 ≤ id →
      Function.update y.phase y.calls p id = .absent := by
    intro p id hid
    rw [Function.update_of_ne (by omega)]
    exact h.absent id (by omega)
  have hreal : RealTime (y.log.map Entry.id) (y.history ++ [Mark.invoked y.calls input]) :=
    h.realTime.mark fun b _ hb => (Mark.invoked.inj hb).1 ▸ hnot
  have hanswered : ∀ id reply, Mark.returned id reply ∈ y.history ++ [Mark.invoked y.calls input] →
      Mark.returned id reply ∈ y.history := by
    intro id reply hm
    simpa using hm
  have hheld : ∀ (p : Phase σ τ ι ρ) a, y.holder = some a →
      Function.update y.phase y.calls p a.id = .inside ∧
        Mark.invoked a.id a.input ∈ y.history ++ [.invoked y.calls input] := by
    intro p a ha
    obtain ⟨hp, hm⟩ := h.held_update y.calls (by simp [habsent]) p a ha
    exact ⟨hp, List.mem_append_left _ hm⟩
  unfold Lock.invoke
  split
  · rename_i reply hin
    refine ⟨hlater _, ?_, hheld _, ?_, ?_, nodup_append h.once hnot, ?_, ?_, ?_⟩
    · intro x input' code hp
      obtain ⟨h1, h2⟩ := h.waiting_update (by simp) x input' code hp
      exact ⟨h1, List.mem_append_left _ h2⟩
    · exact h.logged_append ⟨y.calls, input, fun _ => y.mark, reply⟩ hnot
    · exact h.leaving_append ⟨y.calls, input, fun _ => y.mark, reply⟩
    · intro e he
      rcases List.mem_append.mp he with he | he
      · exact List.mem_append_left _ (h.asked e he)
      · rw [List.mem_singleton.mp he]
        exact List.mem_append_right _ (List.mem_singleton_self _)
    · exact fun id r hm => h.answered_append _ id r (hanswered id r hm)
    · rw [List.map_append]
      exact hreal.logged (fun a r ha => h.returned_mem a r (hanswered a r ha)) y.calls
  · rename_i code hin
    refine ⟨hlater _, ?_, hheld _, h.logged_update hnot _, h.leaving_update (by simp), h.once,
      fun e he => List.mem_append_left _ (h.asked e he), fun id r hm => h.answered id r (hanswered id r hm), hreal⟩
    intro x input' code' hp
    by_cases hid : x = y.calls
    · subst hid
      simp only [Function.update_self, Phase.waiting.injEq] at hp
      obtain ⟨rfl, rfl⟩ := hp
      exact ⟨hin, List.mem_append_right _ (List.mem_singleton_self _)⟩
    · simp only [Function.update_of_ne hid] at hp
      obtain ⟨h1, h2⟩ := h.waiting x input' code' hp
      exact ⟨h1, List.mem_append_left _ h2⟩

theorem Kept.acquire (h : Kept prog y) (id : ℕ) : Kept prog (acquire y id) := by
  unfold Lock.acquire
  split
  · rename_i input code hfree hphase
    have hnot : id ∉ y.log.map Entry.id := h.notMem (by simp [hphase]) (by simp [hphase])
    refine ⟨h.absent_update (by simp [hphase]) _, h.waiting_update (by simp), ?_, h.logged_update hnot _,
      h.leaving_update (by simp), h.once, h.asked, h.answered, h.realTime⟩
    intro a ha
    cases ha
    exact ⟨Function.update_self _ _ _, (h.waiting id input code hphase).2⟩
  · exact h

theorem Kept.work (h : Kept prog y) : Kept prog (work y) := by
  unfold Lock.work
  split
  · rename_i id input f next place clock hholder
    have hheld := h.held _ hholder
    exact ⟨h.absent, h.waiting, fun a ha => by cases ha; exact hheld, h.logged, h.leaving, h.once, h.asked,
      h.answered, h.realTime⟩
  · rename_i id input p next place clock hholder
    have hheld := h.held _ hholder
    exact ⟨h.absent, h.waiting, fun a ha => by cases ha; exact hheld, h.logged, h.leaving, h.once, h.asked,
      h.answered, h.realTime⟩
  · rename_i id input reply place clock hholder
    obtain ⟨hphase, hasked⟩ := h.held _ hholder
    simp only at hphase hasked
    have hnot : id ∉ y.log.map Entry.id := h.notMem (by simp [hphase]) (by simp [hphase])
    refine ⟨h.absent_update (by simp [hphase]) _, h.waiting_update (by simp), ?_, ?_, ?_,
      nodup_append h.once hnot, ?_, fun x r hm => h.answered_append _ x r hm, ?_⟩
    · intro a ha
      cases ha
    · exact h.logged_append ⟨id, input, clock, reply⟩ hnot
    · exact h.leaving_append ⟨id, input, clock, reply⟩
    · intro e he
      rcases List.mem_append.mp he with he | he
      · exact h.asked e he
      · rw [List.mem_singleton.mp he]
        exact hasked
    · rw [List.map_append]
      exact h.realTime.logged h.returned_mem id
  · exact h

theorem Kept.return_ (h : Kept prog y) (id : ℕ) : Kept prog (return_ y id) := by
  unfold Lock.return_
  split
  · rename_i reply hphase
    obtain ⟨e, he, hid, hreply⟩ := h.leaving id reply hphase
    refine ⟨h.absent_update (by simp [hphase]) _, ?_, ?_, ?_, h.leaving_update (by simp), h.once,
      fun a ha => List.mem_append_left _ (h.asked a ha), ?_, h.realTime.mark (by simp)⟩
    · intro x input code hp
      obtain ⟨h1, h2⟩ := h.waiting_update (by simp) x input code hp
      exact ⟨h1, List.mem_append_left _ h2⟩
    · intro a ha
      obtain ⟨hp, hm⟩ := h.held_update id (by simp [hphase]) _ a ha
      exact ⟨hp, List.mem_append_left _ hm⟩
    · intro a ha
      by_cases hx : a.id = id
      · exact Or.inr (hx ▸ Function.update_self _ _ _)
      · simp only [Function.update_of_ne hx]
        exact h.logged a ha
    · intro x r hm
      rcases List.mem_append.mp hm with hm | hm
      · exact h.answered x r hm
      · simp only [List.mem_singleton, Mark.returned.injEq] at hm
        obtain ⟨rfl, rfl⟩ := hm
        exact ⟨e, he, hid, hreply⟩
  · exact h

section

variable [LinearOrder τ]

theorem move_sound (hprog : Computes op prog) (h : Sound op s₀ y) (hk : Kept prog y) (turn : Turn τ ι) :
    Sound op s₀ (move prog y turn) := by
  cases turn with
  | tick t => exact h.tick t
  | invoke input => exact h.invoke hprog input
  | acquire id => exact h.acquire hprog fun input code hp => (hk.waiting id input code hp).1
  | work => exact h.work
  | return_ id => exact h.return_ id

theorem move_kept (h : Kept prog y) (turn : Turn τ ι) : Kept prog (move prog y turn) := by
  cases turn with
  | tick t => exact ⟨h.absent, h.waiting, h.held, h.logged, h.leaving, h.once, h.asked, h.answered, h.realTime⟩
  | invoke input => exact h.invoke input
  | acquire id => exact h.acquire id
  | work => exact h.work
  | return_ id => exact h.return_ id

theorem run_sound (hprog : Computes op prog) (turns : List (Turn τ ι)) (h : Sound op s₀ y)
    (hk : Kept prog y) : Sound op s₀ (run prog y turns) ∧ Kept prog (run prog y turns) := by
  induction turns generalizing y with
  | nil => exact ⟨h, hk⟩
  | cons turn turns ih => exact ih (move_sound hprog h hk turn) (move_kept hk turn)

/-- Whatever the interleaving, the log is a run of the object on its own that the callers
cannot tell from what they saw, and an object that nobody holds is where that run ends. -/
theorem run_linearized (hprog : Computes op prog) (s₀ : σ) (t : τ) (turns : List (Turn τ ι)) :
    let y := run prog (start s₀ t) turns
    Linearized op s₀ y.log y.history ∧ (y.holder = none → y.object = settled op s₀ y) := by
  obtain ⟨h, hk⟩ := run_sound hprog turns (Sound.start s₀ t) (Kept.start s₀ t)
  exact ⟨⟨h.legal, hk.once, hk.asked, hk.answered, hk.realTime, fun e he i j hij => h.within e he hij,
    h.across⟩, h.free⟩

end

end Lock
