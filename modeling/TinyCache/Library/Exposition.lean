import TinyCache.Library.Framing

/-! The text exposition format of metrics: three lines for each family. -/

namespace Exposition

inductive Kind
  | counter
  | gauge
  deriving DecidableEq

/-- A family of one sample. -/
structure Family where
  name : List Char
  help : List Char
  kind : Kind
  value : List Char
  deriving DecidableEq

def Kind.text : Kind → List Char
  | .counter => "counter".toList
  | .gauge => "gauge".toList

def Kind.read (text : List Char) : Option Kind :=
  if text = Kind.counter.text then some .counter
  else if text = Kind.gauge.text then some .gauge
  else none

/-- The first two words of the comments. -/
def helpMark : List Char := "# HELP ".toList

def typeMark : List Char := "# TYPE ".toList

namespace Family

variable (family : Family)

def lines : List (List Char) :=
  [helpMark ++ (family.name ++ ' ' :: family.help), typeMark ++ (family.name ++ ' ' :: family.kind.text),
    family.name ++ ' ' :: family.value]

/-- A name is one word, and nothing ends a line. -/
def WellFormed : Prop :=
  ' ' ∉ family.name ∧ Lines.newline ∉ family.name ∧ Lines.newline ∉ family.help ∧ Lines.newline ∉ family.value

instance : Decidable family.WellFormed := inferInstanceAs (Decidable (_ ∧ _ ∧ _ ∧ _))

end Family

def render (families : List Family) : List Char := Lines.join (families.flatMap Family.lines)

/-- The first word of a line and what follows the blank. -/
def word : List Char → Option (List Char × List Char)
  | [] => none
  | c :: cs => if c = ' ' then some ([], cs) else (word cs).map fun p => (c :: p.1, p.2)

/-- What follows the mark, which the line begins with. -/
def after (mark line : List Char) : Option (List Char) :=
  if mark <+: line then some (line.drop mark.length) else none

def families : List (List Char) → Option (List Family)
  | [] => some []
  | helpLine :: typeLine :: sample :: lines => do
    let (name, help) ← word (← after helpMark helpLine)
    let (typed, kind) ← word (← after typeMark typeLine)
    let (sampled, value) ← word sample
    let kind ← Kind.read kind
    let rest ← families lines
    if typed = name ∧ sampled = name then return ⟨name, help, kind, value⟩ :: rest else none
  | _ => none

def parse (text : List Char) : Option (List Family) := families (Lines.split text)

theorem word_append {name : List Char} (h : ' ' ∉ name) (rest : List Char) :
    word (name ++ ' ' :: rest) = some (name, rest) := by
  induction name with
  | nil => exact if_pos rfl
  | cons c name ih =>
    rw [List.mem_cons, not_or] at h
    rw [List.cons_append, word, if_neg (Ne.symm h.1), ih h.2]
    rfl

theorem after_append (mark rest : List Char) : after mark (mark ++ rest) = some rest := by
  rw [after, if_pos (List.prefix_append mark rest), List.drop_left]

theorem Kind.read_text (kind : Kind) : Kind.read kind.text = some kind := by
  cases kind <;> rfl

theorem families_lines {fs : List Family} (h : ∀ f ∈ fs, f.WellFormed) :
    families (fs.flatMap Family.lines) = some fs := by
  induction fs with
  | nil => rfl
  | cons f fs ih =>
    have hname : ' ' ∉ f.name := (h f List.mem_cons_self).1
    rw [List.flatMap_cons, Family.lines, List.cons_append, List.cons_append, List.singleton_append, families,
      after_append, after_append]
    simp only [Option.bind_eq_bind, Option.bind_some, word_append hname, Kind.read_text,
      ih fun f hf => h f (List.mem_cons_of_mem _ hf), and_self, if_true]
    rfl

/-- What is rendered is read back. -/
theorem parse_render {fs : List Family} (h : ∀ f ∈ fs, f.WellFormed) : parse (render fs) = some fs := by
  have hlines : ∀ line ∈ fs.flatMap Family.lines, Lines.newline ∉ line := by
    intro line hline
    obtain ⟨f, hf, hline⟩ := List.mem_flatMap.mp hline
    obtain ⟨-, hname, hhelp, hvalue⟩ := h f hf
    have hblank : Lines.newline ≠ ' ' := by decide
    have hmarks : Lines.newline ∉ helpMark ∧ Lines.newline ∉ typeMark := by decide
    have hkind : Lines.newline ∉ f.kind.text := by cases f.kind <;> decide
    simp only [Family.lines, List.mem_cons, List.not_mem_nil, or_false] at hline
    rcases hline with rfl | rfl | rfl
    · simp [hmarks.1, hname, hhelp, hblank]
    · simp [hmarks.2, hname, hkind, hblank]
    · simp [hname, hvalue, hblank]
  rw [parse, render, Lines.split_join hlines, families_lines h]

end Exposition
