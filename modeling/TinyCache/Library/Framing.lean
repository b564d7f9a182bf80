import Mathlib.Data.List.Basic
import Mathlib.Tactic.Common

/-! Two ways to tell the parts of a text apart: length-prefixed framing, `len sep name sep rest`,
where only the numeral must not contain the separator, and lines. -/

/-- A way to write lengths. -/
structure Numerals {α : Type} (sep : α) where
  write : ℕ → List α
  injective : Function.Injective write
  sep_free : ∀ n, sep ∉ write n

namespace Numerals

variable {α : Type} {sep : α} (num : Numerals sep)

/-- What stands before the rest. -/
def header (name : List α) : List α := num.write name.length ++ sep :: (name ++ [sep])

theorem header_append (name rest : List α) :
    num.header name ++ rest = num.write name.length ++ sep :: (name ++ sep :: rest) := by
  simp [header]

/-- Up to its first separator a list can be read in one way only. -/
theorem sep_free_append_inj {a b x y : List α} (ha : sep ∉ a) (hb : sep ∉ b)
    (h : a ++ sep :: x = b ++ sep :: y) : a = b ∧ x = y := by
  rcases List.append_eq_append_iff.mp h with ⟨c, rfl, hc⟩ | ⟨c, rfl, hc⟩
  · cases c with
    | nil => exact ⟨by simp, by simpa using hc⟩
    | cons d c =>
      obtain ⟨rfl, -⟩ := List.cons.inj hc
      exact absurd (by simp) hb
  · cases c with
    | nil => exact ⟨by simp, by simpa using hc.symm⟩
    | cons d c =>
      obtain ⟨rfl, -⟩ := List.cons.inj hc
      exact absurd (by simp) ha

theorem header_append_inj {a b x y : List α} (h : num.header a ++ x = num.header b ++ y) :
    a = b ∧ x = y := by
  rw [header_append, header_append] at h
  obtain ⟨hlen, h⟩ := sep_free_append_inj (num.sep_free _) (num.sep_free _) h
  obtain ⟨hname, h⟩ := List.append_inj h (num.injective hlen)
  exact ⟨hname, (List.cons.inj h).2⟩

/-- A list has at most one header. -/
theorem header_unique {a b l : List α} (ha : num.header a <+: l) (hb : num.header b <+: l) : a = b := by
  obtain ⟨x, rfl⟩ := ha
  obtain ⟨y, hy⟩ := hb
  exact (num.header_append_inj hy).1.symm

/-- The name and the rest of a list whose name has length `n`. -/
def unframe? [DecidableEq α] (n : ℕ) (l : List α) : Option (List α × List α) :=
  let numeral := num.write n ++ [sep]
  let body := l.drop numeral.length
  if numeral <+: l ∧ body[n]? = some sep then some (body.take n, body.drop (n + 1)) else none

theorem unframe?_header [DecidableEq α] (name rest : List α) :
    num.unframe? name.length (num.header name ++ rest) = some (name, rest) := by
  have hl : num.header name ++ rest = (num.write name.length ++ [sep]) ++ (name ++ sep :: rest) := by
    simp [header]
  have hget : (name ++ sep :: rest)[name.length]? = some sep := by simp
  rw [unframe?, hl, List.drop_left, if_pos ⟨List.prefix_append _ _, hget⟩, List.take_left]
  simp

theorem unframe?_eq_some [DecidableEq α] {n : ℕ} {l name rest : List α} :
    num.unframe? n l = some (name, rest) ↔ name.length = n ∧ l = num.header name ++ rest := by
  constructor
  · intro h
    simp only [unframe?] at h
    split_ifs at h with hif
    obtain ⟨⟨body, rfl⟩, hget⟩ := hif
    rw [List.drop_left] at h hget
    rw [Option.some.injEq, Prod.mk.injEq] at h
    obtain ⟨rfl, rfl⟩ := h
    have hlt : n < body.length := (List.getElem?_eq_some_iff.mp hget).1
    have hlen : (body.take n).length = n := by
      rw [List.length_take]
      omega
    refine ⟨hlen, ?_⟩
    have hsep : body.drop n = sep :: body.drop (n + 1) := by
      rw [List.drop_eq_getElem_cons hlt, (List.getElem?_eq_some_iff.mp hget).2]
    rw [header_append, hlen, ← hsep, List.take_append_drop, List.append_assoc]
    rfl
  · rintro ⟨rfl, rfl⟩
    exact num.unframe?_header name rest

end Numerals

/-- Decimal numerals before a separator that is not a digit. -/
def decimal {sep : Char} (h : sep.isDigit = false) : Numerals sep where
  write n := (toString n).toList
  injective := by
    intro m n hmn
    have hdigits : Nat.toDigits 10 m = Nat.toDigits 10 n := by simpa using hmn
    have hread := congrArg (fun l => Nat.ofDigitChars 10 l 0) hdigits
    simpa using hread
  sep_free n := by
    intro hmem
    rw [Nat.toString_eq_repr, Nat.toList_repr] at hmem
    rw [Nat.isDigit_of_mem_toDigits (by decide) (by decide) hmem] at h
    cases h

namespace Lines

def newline : Char := Char.ofNat 10

/-- Each line with its end. -/
def join (lines : List (List Char)) : List Char := lines.flatMap fun line => line ++ [newline]

def split : List Char → List (List Char)
  | [] => []
  | c :: cs =>
    if c = newline then [] :: split cs
    else match split cs with
      | [] => [[c]]
      | line :: lines => (c :: line) :: lines

theorem split_line {line : List Char} (h : newline ∉ line) (rest : List Char) :
    split (line ++ newline :: rest) = line :: split rest := by
  induction line with
  | nil => rw [List.nil_append, split, if_pos rfl]
  | cons c line ih =>
    rw [List.mem_cons, not_or] at h
    rw [List.cons_append, split, if_neg (Ne.symm h.1), ih h.2]

/-- Lines are told apart if none of them contains an end of line. -/
theorem split_join {lines : List (List Char)} (h : ∀ line ∈ lines, newline ∉ line) :
    split (join lines) = lines := by
  induction lines with
  | nil => rfl
  | cons line lines ih =>
    rw [join, List.flatMap_cons, List.append_assoc, List.singleton_append, split_line (h line List.mem_cons_self)]
    exact congrArg (line :: ·) (ih fun l hl => h l (List.mem_cons_of_mem _ hl))

end Lines
