import Mathlib.Data.List.TakeWhile
import TinyCache.Library.Codec

/-! JSON text: what is written is read back, and is a single line. -/

namespace Json

def quotationMark : Char := Char.ofNat 34

def backslash : Char := Char.ofNat 92

def openBrace : Char := Char.ofNat 123

def closeBrace : Char := Char.ofNat 125

/-- The letters that stand for a character after a backslash. -/
def shortEscapes : List (Char × Char) :=
  [(quotationMark, quotationMark), (backslash, backslash), (Char.ofNat 10, 'n'), (Char.ofNat 13, 'r'),
    (Char.ofNat 9, 't'), (Char.ofNat 12, 'f'), (Char.ofNat 8, 'b')]

/-- Quotes, backslashes and control characters are escaped, and nothing else. -/
def escapeChar (c : Char) : List Char :=
  match shortEscapes.lookup c with
  | some letter => [backslash, letter]
  | none =>
    if c.toNat < 32 then
      [backslash, 'u', '0', '0', Codec.Hex.digit (c.toNat / 16), Codec.Hex.digit (c.toNat % 16)]
    else [c]

def escape (s : List Char) : List Char := s.flatMap escapeChar

def quote (s : String) : List Char := quotationMark :: (escape s.toList ++ [quotationMark])

/-- What follows a backslash. -/
def unescape : List Char → Option (Char × List Char)
  | 'u' :: w :: x :: y :: z :: rest => do
    let n := ((← Codec.Hex.value? w) * 16 + (← Codec.Hex.value? x)) * 256 + (← Codec.Hex.value? y) * 16 +
      (← Codec.Hex.value? z)
    if h : n.isValidChar then return (Char.ofNatAux n h, rest) else none
  | letter :: rest => (shortEscapes.find? fun p => p.2 == letter).map fun p => (p.1, rest)
  | [] => none

/-- One character of a string, or its end. -/
def next : List Char → Option (Option Char × List Char)
  | [] => none
  | c :: rest =>
    if c = quotationMark then some (none, rest)
    else if c = backslash then (unescape rest).map fun p => (some p.1, p.2)
    else if c.toNat < 32 then none
    else some (some c, rest)

/-- What follows the first quotation mark. -/
def chars : ℕ → List Char → Option (List Char × List Char)
  | 0, _ => none
  | n + 1, cs => do
    match ← next cs with
    | (none, rest) => return ([], rest)
    | (some c, rest) =>
      let (s, rest) ← chars n rest
      return (c :: s, rest)

def string (cs : List Char) : Option (String × List Char) :=
  (chars cs.length cs).map fun p => (.ofList p.1, p.2)

theorem next_backslash (rest : List Char) :
    next (backslash :: rest) = (unescape rest).map fun p => (some p.1, p.2) := by
  rw [next, if_neg (by decide), if_pos rfl]

theorem ofCode_toNat {n : ℕ} {c : Char} (h : n = c.toNat) (rest : List Char) :
    (if h : n.isValidChar then some (Char.ofNatAux n h, rest) else none) = some (c, rest) := by
  subst h
  rw [dif_pos (show c.toNat.isValidChar from c.valid)]
  rfl

theorem unescape_control {c : Char} (h : c.toNat < 32) (rest : List Char) :
    unescape ('u' :: '0' :: '0' :: Codec.Hex.digit (c.toNat / 16) :: Codec.Hex.digit (c.toNat % 16) :: rest) =
      some (c, rest) := by
  have hzero : Codec.Hex.value? '0' = some 0 := by decide
  have hsum : (0 * 16 + 0) * 256 + c.toNat / 16 * 16 + c.toNat % 16 = c.toNat := by omega
  rw [unescape, hzero, Codec.Hex.value?_digit (by omega), Codec.Hex.value?_digit (by omega)]
  exact ofCode_toNat hsum rest

theorem mem_shortEscapes {c letter : Char} (h : shortEscapes.lookup c = some letter) :
    (c, letter) ∈ shortEscapes := by
  obtain ⟨before, after, hsplit, -⟩ := List.lookup_eq_some_iff.mp h
  rw [hsplit]
  simp

theorem unescape_letter {c letter : Char} (h : shortEscapes.lookup c = some letter) (rest : List Char) :
    unescape (letter :: rest) = some (c, rest) := by
  have hmem := mem_shortEscapes h
  simp only [shortEscapes, List.mem_cons, Prod.mk.injEq, List.not_mem_nil, or_false] at hmem
  rcases hmem with ⟨rfl, rfl⟩ | ⟨rfl, rfl⟩ | ⟨rfl, rfl⟩ | ⟨rfl, rfl⟩ | ⟨rfl, rfl⟩ | ⟨rfl, rfl⟩ | ⟨rfl, rfl⟩ <;> rfl

theorem next_escapeChar (c : Char) (rest : List Char) : next (escapeChar c ++ rest) = some (some c, rest) := by
  unfold escapeChar
  cases hletter : shortEscapes.lookup c with
  | some letter =>
    simp only [List.cons_append, List.nil_append, next_backslash, unescape_letter hletter, Option.map_some]
  | none =>
    simp only
    by_cases h : c.toNat < 32
    · rw [if_pos h]
      simp only [List.cons_append, List.nil_append, next_backslash, unescape_control h, Option.map_some]
    · rw [if_neg h]
      have hquote : c ≠ quotationMark := by
        rintro rfl
        cases hletter
      have hbackslash : c ≠ backslash := by
        rintro rfl
        cases hletter
      rw [List.singleton_append, next, if_neg hquote, if_neg hbackslash, if_neg h]

theorem chars_escape (s : List Char) {n : ℕ} (h : s.length < n) (rest : List Char) :
    chars n (escape s ++ quotationMark :: rest) = some (s, rest) := by
  induction s generalizing n with
  | nil =>
    obtain ⟨n, rfl⟩ := Nat.exists_eq_add_of_lt h
    rw [chars, escape, List.flatMap_nil, List.nil_append, next, if_pos rfl]
    rfl
  | cons c s ih =>
    obtain ⟨n, rfl⟩ : ∃ m, n = m + 1 := ⟨n - 1, by omega⟩
    rw [List.length_cons] at h
    rw [chars, escape, List.flatMap_cons, List.append_assoc, next_escapeChar]
    simp only [Option.bind_eq_bind, Option.bind_some]
    rw [show s.flatMap escapeChar = escape s from rfl, ih (by omega)]
    rfl

theorem length_escape (s : List Char) : s.length ≤ (escape s).length := by
  induction s with
  | nil => exact Nat.le_refl _
  | cons c s ih =>
    have hpos : 0 < (escapeChar c).length := by
      unfold escapeChar
      split
      · exact Nat.succ_pos _
      · split_ifs <;> exact Nat.succ_pos _
    rw [escape, List.flatMap_cons, List.length_append, List.length_cons]
    have hs : (s.flatMap escapeChar).length = (escape s).length := rfl
    omega

/-- A string is read back, whatever comes after it. -/
theorem string_quote (s : String) (rest : List Char) :
    string ((quote s).tail ++ rest) = some (s, rest) := by
  have hlen := length_escape s.toList
  rw [quote, List.tail_cons, List.append_assoc, string, List.singleton_append, chars_escape _ (by simp; omega)]
  simp

/-- No control character is left. -/
theorem escapeChar_printable {c d : Char} (h : d ∈ escapeChar c) : 32 ≤ d.toNat := by
  unfold escapeChar at h
  cases hletter : shortEscapes.lookup c with
  | some letter =>
    have hletters : ∀ p ∈ shortEscapes, 32 ≤ p.2.toNat := by decide
    rw [hletter] at h
    rcases List.mem_pair.mp h with rfl | rfl
    · decide
    · exact hletters _ (mem_shortEscapes hletter)
  | none =>
    rw [hletter] at h
    simp only at h
    by_cases hc : c.toNat < 32
    · rw [if_pos hc] at h
      simp only [List.mem_cons, List.not_mem_nil, or_false] at h
      rcases h with rfl | rfl | rfl | rfl | rfl | rfl
      · decide
      · decide
      · decide
      · decide
      · exact Codec.Hex.digit_printable (by omega)
      · exact Codec.Hex.digit_printable (by omega)
    · rw [if_neg hc, List.mem_singleton] at h
      rw [h]
      omega

theorem quote_printable {s : String} {c : Char} (h : c ∈ quote s) : 32 ≤ c.toNat := by
  have hquote : 32 ≤ quotationMark.toNat := by decide
  simp only [quote, escape, List.mem_cons, List.mem_append, List.mem_flatMap, List.not_mem_nil, or_false] at h
  rcases h with rfl | ⟨d, -, h⟩ | rfl
  · exact hquote
  · exact escapeChar_printable h
  · exact hquote

def isNumberChar (c : Char) : Bool := c.isDigit || c == '-' || c == '+' || c == '.' || c == 'e' || c == 'E'

/-- A number as it is written. -/
structure Number where
  text : List Char
  nonempty : text ≠ []
  digits : ∀ c ∈ text, isNumberChar c = true

/-- The decimal numeral of an integer. -/
def Number.ofInt (n : ℤ) : Number where
  text := Codec.Decimal.encode n
  nonempty := Codec.Decimal.encode_ne_nil n
  digits c h := by
    rcases Codec.Decimal.mem_encode h with rfl | hdigit
    · decide
    · simp [isNumberChar, hdigit]

inductive Value
  | null
  | bool (value : Bool)
  | num (value : Number)
  | str (value : String)
  | arr (items : List Value)
  | obj (fields : List (String × Value))

mutual

/-- With a blank after each comma and each colon. -/
def dumps : Value → List Char
  | .null => ['n', 'u', 'l', 'l']
  | .bool true => ['t', 'r', 'u', 'e']
  | .bool false => ['f', 'a', 'l', 's', 'e']
  | .num value => value.text
  | .str value => quote value
  | .arr items => '[' :: (dumpsItems items ++ [']'])
  | .obj fields => openBrace :: (dumpsFields fields ++ [closeBrace])

def dumpsItems : List Value → List Char
  | [] => []
  | [item] => dumps item
  | item :: item' :: items => dumps item ++ ',' :: ' ' :: dumpsItems (item' :: items)

def dumpsFields : List (String × Value) → List Char
  | [] => []
  | [(name, value)] => quote name ++ ':' :: ' ' :: dumps value
  | (name, value) :: field :: fields =>
    quote name ++ ':' :: ' ' :: (dumps value ++ ',' :: ' ' :: dumpsFields (field :: fields))

end

def isSpace (c : Char) : Bool := c == ' ' || c == Char.ofNat 9 || c == Char.ofNat 10 || c == Char.ofNat 13

def skip (cs : List Char) : List Char := cs.dropWhile isSpace

/-- The rest, if `c` comes next. -/
def expect (c : Char) (cs : List Char) : Option (List Char) :=
  match skip cs with
  | [] => none
  | d :: rest => if d = c then some rest else none

def number (cs : List Char) : Option (Number × List Char) :=
  if h : cs.takeWhile isNumberChar = [] then none
  else some (⟨cs.takeWhile isNumberChar, h, fun _ hc => List.mem_takeWhile_imp hc⟩, cs.dropWhile isNumberChar)

/-- What is neither a text nor a collection. -/
def literal (cs : List Char) : Option (Value × List Char) :=
  match cs with
  | 'n' :: 'u' :: 'l' :: 'l' :: rest => some (.null, rest)
  | 't' :: 'r' :: 'u' :: 'e' :: rest => some (.bool true, rest)
  | 'f' :: 'a' :: 'l' :: 's' :: 'e' :: rest => some (.bool false, rest)
  | cs => (number cs).map fun p => (.num p.1, p.2)

mutual

def value : ℕ → List Char → Option (Value × List Char)
  | 0, _ => none
  | n + 1, cs =>
    match skip cs with
    | [] => none
    | c :: rest =>
      if c = quotationMark then (string rest).map fun p => (.str p.1, p.2)
      else if c = '[' then
        match expect ']' rest with
        | some rest => some (.arr [], rest)
        | none => (items n rest).map fun p => (.arr p.1, p.2)
      else if c = openBrace then
        match expect closeBrace rest with
        | some rest => some (.obj [], rest)
        | none => (fields n rest).map fun p => (.obj p.1, p.2)
      else literal (c :: rest)

/-- The items of an array up to its end. -/
def items : ℕ → List Char → Option (List Value × List Char)
  | 0, _ => none
  | n + 1, cs => do
    let (item, rest) ← value n cs
    match expect ',' rest with
    | some rest => (items n rest).map fun p => (item :: p.1, p.2)
    | none => (expect ']' rest).map fun rest => ([item], rest)

/-- The fields of an object up to its end. -/
def fields : ℕ → List Char → Option (List (String × Value) × List Char)
  | 0, _ => none
  | n + 1, cs => do
    let (name, rest) ← string (← expect quotationMark cs)
    let (value, rest) ← value n (← expect ':' rest)
    match expect ',' rest with
    | some rest => (fields n rest).map fun p => ((name, value) :: p.1, p.2)
    | none => (expect closeBrace rest).map fun rest => ([(name, value)], rest)

end

/-- A text has no more levels and items than characters. -/
def loads (text : List Char) : Option Value :=
  match value text.length text with
  | some (value, rest) => if skip rest = [] then some value else none
  | none => none

section

variable {c d : Char} {cs rest : List Char}

theorem skip_of_not_space (h : isSpace c = false) : skip (c :: cs) = c :: cs := by
  rw [skip, List.dropWhile_cons, h, if_neg Bool.false_ne_true]

theorem expect_self (h : isSpace c = false) : expect c (c :: rest) = some rest := by
  rw [expect, skip_of_not_space h]
  exact if_pos rfl

theorem expect_of_ne (h : isSpace d = false) (hne : d ≠ c) : expect c (d :: rest) = none := by
  rw [expect, skip_of_not_space h]
  exact if_neg hne

theorem skip_blank (cs : List Char) : skip (' ' :: cs) = skip cs := rfl

theorem value_blank (n : ℕ) (cs : List Char) : value n (' ' :: cs) = value n cs := by
  cases n with
  | zero => rfl
  | succ n => rw [value, value, skip_blank]

theorem items_blank (n : ℕ) (cs : List Char) : items n (' ' :: cs) = items n cs := by
  cases n with
  | zero => rfl
  | succ n => rw [items, items, value_blank]

theorem fields_blank (n : ℕ) (cs : List Char) : fields n (' ' :: cs) = fields n cs := by
  cases n with
  | zero => rfl
  | succ n => rw [fields, fields, expect, expect, skip_blank]

/-- A number ends where something else comes. -/
theorem number_append (value : Number) (h : ∀ c ∈ rest.head?, isNumberChar c = false) :
    number (value.text ++ rest) = some (value, rest) := by
  have htake : rest.takeWhile isNumberChar = [] := by
    cases rest with
    | nil => rfl
    | cons c rest => rw [List.takeWhile_cons, h c rfl, if_neg Bool.false_ne_true]
  have hdrop : rest.dropWhile isNumberChar = rest := by
    cases rest with
    | nil => rfl
    | cons c rest => rw [List.dropWhile_cons, h c rfl, if_neg Bool.false_ne_true]
  have htext : (value.text ++ rest).takeWhile isNumberChar = value.text := by
    rw [List.takeWhile_append_of_pos value.digits, htake, List.append_nil]
  rw [number, dif_neg (by rw [htext]; exact value.nonempty), List.dropWhile_append_of_pos value.digits, hdrop]
  simp only [htext]

theorem ne_of_isNumberChar (h : isNumberChar c = true) (hd : isNumberChar d = false) : c ≠ d := by
  rintro rfl
  rw [h] at hd
  cases hd

theorem literal_number (value : Number) (h : ∀ c ∈ rest.head?, isNumberChar c = false) :
    literal (value.text ++ rest) = some (.num value, rest) := by
  have hnumber := number_append value h
  obtain ⟨c, text, htext⟩ := List.exists_cons_of_ne_nil value.nonempty
  have hc : isNumberChar c = true := value.digits c (by rw [htext]; exact List.mem_cons_self)
  rw [htext] at hnumber ⊢
  unfold literal
  split
  · next heq => exact absurd (List.cons.inj heq).1 (ne_of_isNumberChar hc (by decide))
  · next heq => exact absurd (List.cons.inj heq).1 (ne_of_isNumberChar hc (by decide))
  · next heq => exact absurd (List.cons.inj heq).1 (ne_of_isNumberChar hc (by decide))
  · rw [hnumber]
    rfl

/-- The first character of a value. -/
theorem dumps_head (v : Value) : ∃ c cs, dumps v = c :: cs ∧ isSpace c = false ∧ c ≠ ']' := by
  cases v with
  | null => exact ⟨_, _, rfl, by decide, by decide⟩
  | bool value => cases value <;> exact ⟨_, _, rfl, by decide, by decide⟩
  | num value =>
    obtain ⟨c, text, htext⟩ := List.exists_cons_of_ne_nil value.nonempty
    have hc : isNumberChar c = true := value.digits c (by rw [htext]; exact List.mem_cons_self)
    refine ⟨c, text, htext, ?_, ne_of_isNumberChar hc (by decide)⟩
    simp [isSpace, ne_of_isNumberChar hc (show isNumberChar ' ' = false by decide),
      ne_of_isNumberChar hc (show isNumberChar (Char.ofNat 9) = false by decide),
      ne_of_isNumberChar hc (show isNumberChar (Char.ofNat 10) = false by decide),
      ne_of_isNumberChar hc (show isNumberChar (Char.ofNat 13) = false by decide)]
  | str value => exact ⟨_, _, rfl, by decide, by decide⟩
  | arr items => exact ⟨_, _, rfl, by decide, by decide⟩
  | obj fields => exact ⟨_, _, rfl, by decide, by decide⟩

theorem dumpsItems_head (v : Value) (vs : List Value) :
    ∃ c cs, dumpsItems (v :: vs) = c :: cs ∧ isSpace c = false ∧ c ≠ ']' := by
  obtain ⟨c, cs, hv, hc⟩ := dumps_head v
  cases vs with
  | nil => exact ⟨c, cs, hv, hc⟩
  | cons v' vs =>
    rw [dumpsItems, hv]
    exact ⟨c, _, rfl, hc⟩

theorem dumpsFields_head (f : String × Value) (fs : List (String × Value)) :
    ∃ cs, dumpsFields (f :: fs) = quotationMark :: cs := by
  cases fs with
  | nil => exact ⟨_, rfl⟩
  | cons f' fs => exact ⟨_, rfl⟩

theorem value_quote (n : ℕ) (s : String) (rest : List Char) :
    value (n + 1) (quote s ++ rest) = some (.str s, rest) := by
  have hstring := string_quote s rest
  rw [quote, List.tail_cons] at hstring
  rw [value, quote, List.cons_append, skip_of_not_space (by decide)]
  simp only [if_true, hstring, Option.map_some]

theorem value_number (n : ℕ) (x : Number) (hrest : ∀ c ∈ rest.head?, isNumberChar c = false) :
    value (n + 1) (x.text ++ rest) = some (.num x, rest) := by
  have hliteral := literal_number x hrest
  obtain ⟨c, cs, htext, hspace, -⟩ := dumps_head (.num x)
  have hc : isNumberChar c = true := x.digits c (by rw [show x.text = c :: cs from htext]; exact List.mem_cons_self)
  rw [show x.text = c :: cs from htext] at hliteral ⊢
  rw [value, List.cons_append, skip_of_not_space hspace]
  simp only [if_neg (ne_of_isNumberChar hc (show isNumberChar quotationMark = false by decide)),
    if_neg (ne_of_isNumberChar hc (show isNumberChar '[' = false by decide)),
    if_neg (ne_of_isNumberChar hc (show isNumberChar openBrace = false by decide))]
  exact hliteral

theorem value_arr (n : ℕ) (hne : ∀ d ∈ cs.head?, isSpace d = false ∧ d ≠ ']') (hcs : cs ≠ []) :
    value (n + 1) ('[' :: cs) = (items n cs).map fun p => (.arr p.1, p.2) := by
  obtain ⟨d, cs, rfl⟩ := List.exists_cons_of_ne_nil hcs
  obtain ⟨hspace, hd⟩ := hne d rfl
  rw [value, skip_of_not_space (by decide)]
  simp only [if_neg (show '[' ≠ quotationMark by decide), if_true, expect_of_ne hspace hd]

theorem value_obj (n : ℕ) (cs : List Char) :
    value (n + 1) (openBrace :: quotationMark :: cs) =
      (fields n (quotationMark :: cs)).map fun p => (.obj p.1, p.2) := by
  rw [value, skip_of_not_space (by decide)]
  simp only [if_neg (show openBrace ≠ quotationMark by decide), if_neg (show openBrace ≠ '[' by decide), if_true,
    expect_of_ne (show isSpace quotationMark = false by decide) (show quotationMark ≠ closeBrace by decide)]

theorem fields_quote (n : ℕ) (name : String) (cs : List Char) :
    fields (n + 1) (quote name ++ ':' :: ' ' :: cs) = (value n cs).bind fun p =>
      match expect ',' p.2 with
      | some rest => (fields n rest).map fun q => ((name, p.1) :: q.1, q.2)
      | none => (expect closeBrace p.2).map fun rest => ([(name, p.1)], rest) := by
  have hstring := string_quote name (':' :: ' ' :: cs)
  rw [quote, List.tail_cons] at hstring
  rw [fields, quote, List.cons_append, expect_self (by decide)]
  simp only [Option.bind_eq_bind, Option.bind_some, hstring, expect_self (show isSpace ':' = false by decide),
    value_blank]

end

mutual

theorem value_dumps : ∀ (v : Value) {n : ℕ} {rest : List Char}, (dumps v).length ≤ n →
    (∀ c ∈ rest.head?, isNumberChar c = false) → value n (dumps v ++ rest) = some (v, rest)
  | .null, n, rest, h, _ => by
    obtain ⟨n, rfl⟩ : ∃ m, n = m + 1 := ⟨n - 1, by simp [dumps] at h; omega⟩
    rfl
  | .bool b, n, rest, h, _ => by
    obtain ⟨n, rfl⟩ : ∃ m, n = m + 1 := ⟨n - 1, by cases b <;> simp [dumps] at h <;> omega⟩
    cases b <;> rfl
  | .num x, n, rest, h, hrest => by
    have hpos := List.length_pos_of_ne_nil x.nonempty
    obtain ⟨n, rfl⟩ : ∃ m, n = m + 1 := ⟨n - 1, by rw [dumps] at h; omega⟩
    exact value_number n x hrest
  | .str s, n, rest, h, _ => by
    obtain ⟨n, rfl⟩ : ∃ m, n = m + 1 := ⟨n - 1, by simp [dumps, quote] at h; omega⟩
    exact value_quote n s rest
  | .arr [], n, rest, h, _ => by
    obtain ⟨n, rfl⟩ : ∃ m, n = m + 1 := ⟨n - 1, by simp [dumps] at h; omega⟩
    rfl
  | .arr (v :: vs), n, rest, h, _ => by
    simp only [dumps, List.length_cons, List.length_append, List.length_nil] at h
    obtain ⟨n, rfl⟩ : ∃ m, n = m + 1 := ⟨n - 1, by omega⟩
    obtain ⟨c, cs, hhead, hc⟩ := dumpsItems_head v vs
    have hitems := @items_dumps (v :: vs) n rest (List.cons_ne_nil v vs) (by omega)
    rw [dumps, List.cons_append, List.append_assoc, List.singleton_append, value_arr, hitems]
    · rfl
    · rw [hhead]
      rintro d ⟨⟩
      exact hc
    · simp
  | .obj [], n, rest, h, _ => by
    obtain ⟨n, rfl⟩ : ∃ m, n = m + 1 := ⟨n - 1, by simp [dumps] at h; omega⟩
    rfl
  | .obj (f :: fs), n, rest, h, _ => by
    simp only [dumps, List.length_cons, List.length_append, List.length_nil] at h
    obtain ⟨n, rfl⟩ : ∃ m, n = m + 1 := ⟨n - 1, by omega⟩
    obtain ⟨cs, hhead⟩ := dumpsFields_head f fs
    have hfields := @fields_dumps (f :: fs) n rest (List.cons_ne_nil f fs) (by omega)
    rw [dumps, List.cons_append, List.append_assoc, List.singleton_append]
    rw [hhead, List.cons_append] at hfields ⊢
    rw [value_obj, hfields]
    rfl

theorem items_dumps : ∀ (vs : List Value) {n : ℕ} {rest : List Char}, vs ≠ [] →
    (dumpsItems vs).length < n → items n (dumpsItems vs ++ ']' :: rest) = some (vs, rest)
  | [], _, _, h, _ => absurd rfl h
  | [v], n, rest, _, h => by
    obtain ⟨n, rfl⟩ : ∃ m, n = m + 1 := ⟨n - 1, by omega⟩
    rw [dumpsItems] at h ⊢
    rw [items, @value_dumps v n (']' :: rest) (by omega) (by rintro c ⟨⟩; decide)]
    rfl
  | v :: v' :: vs, n, rest, _, h => by
    obtain ⟨n, rfl⟩ : ∃ m, n = m + 1 := ⟨n - 1, by omega⟩
    rw [dumpsItems, List.length_append, List.length_cons, List.length_cons] at h
    have hitems := @items_dumps (v' :: vs) n rest (List.cons_ne_nil v' vs) (by omega)
    rw [dumpsItems, List.append_assoc, items, value_dumps v (by omega) (by rintro c ⟨⟩; decide)]
    simp only [List.cons_append, Option.bind_eq_bind, Option.bind_some,
      expect_self (show isSpace ',' = false by decide), items_blank, hitems, Option.map_some]

theorem fields_dumps : ∀ (fs : List (String × Value)) {n : ℕ} {rest : List Char}, fs ≠ [] →
    (dumpsFields fs).length < n → fields n (dumpsFields fs ++ closeBrace :: rest) = some (fs, rest)
  | [], _, _, h, _ => absurd rfl h
  | [(name, v)], n, rest, _, h => by
    obtain ⟨n, rfl⟩ : ∃ m, n = m + 1 := ⟨n - 1, by omega⟩
    simp only [dumpsFields, List.length_cons, List.length_append] at h
    rw [dumpsFields, List.append_assoc]
    simp only [List.cons_append]
    rw [fields_quote, @value_dumps v n (closeBrace :: rest) (by omega) (by rintro c ⟨⟩; decide)]
    rfl
  | (name, v) :: f :: fs, n, rest, _, h => by
    obtain ⟨n, rfl⟩ : ∃ m, n = m + 1 := ⟨n - 1, by omega⟩
    simp only [dumpsFields, List.length_cons, List.length_append] at h
    have hfields := @fields_dumps (f :: fs) n rest (List.cons_ne_nil f fs) (by omega)
    rw [dumpsFields, List.append_assoc]
    simp only [List.cons_append, List.append_assoc]
    rw [fields_quote, value_dumps v (by omega) (by rintro c ⟨⟩; decide)]
    simp only [Option.bind_some, expect_self (show isSpace ',' = false by decide), fields_blank, hfields,
      Option.map_some]

end

theorem loads_dumps (v : Value) : loads (dumps v) = some v := by
  have h := @value_dumps v (dumps v).length [] (Nat.le_refl _) (by simp)
  rw [List.append_nil] at h
  rw [loads, h]
  rfl

theorem isNumberChar_printable {c : Char} (h : isNumberChar c = true) : 32 ≤ c.toNat := by
  simp only [isNumberChar, Bool.or_eq_true, beq_iff_eq] at h
  rcases h with ((((h | rfl) | rfl) | rfl) | rfl) | rfl
  · have hle : 48 ≤ c.toNat := (Char.isDigit_iff_toNat.mp h).1
    omega
  all_goals decide

mutual

/-- No control character is written. -/
theorem dumps_printable : ∀ (v : Value) {c : Char}, c ∈ dumps v → 32 ≤ c.toNat
  | .null, c, h => by
    have hall : (dumps .null).all (fun c => 32 ≤ c.toNat) = true := by decide
    exact of_decide_eq_true (List.all_eq_true.mp hall c h)
  | .bool true, c, h => by
    have hall : (dumps (.bool true)).all (fun c => 32 ≤ c.toNat) = true := by decide
    exact of_decide_eq_true (List.all_eq_true.mp hall c h)
  | .bool false, c, h => by
    have hall : (dumps (.bool false)).all (fun c => 32 ≤ c.toNat) = true := by decide
    exact of_decide_eq_true (List.all_eq_true.mp hall c h)
  | .num x, _, h => isNumberChar_printable (x.digits _ h)
  | .str s, c, h => quote_printable h
  | .arr vs, c, h => by
    simp only [dumps, List.mem_cons, List.mem_append, List.not_mem_nil, or_false] at h
    rcases h with rfl | h | rfl
    · decide
    · exact dumpsItems_printable vs h
    · decide
  | .obj fs, c, h => by
    simp only [dumps, List.mem_cons, List.mem_append, List.not_mem_nil, or_false] at h
    rcases h with rfl | h | rfl
    · decide
    · exact dumpsFields_printable fs h
    · decide

theorem dumpsItems_printable : ∀ (vs : List Value) {c : Char}, c ∈ dumpsItems vs → 32 ≤ c.toNat
  | [], c, h => absurd h List.not_mem_nil
  | [v], c, h => dumps_printable v h
  | v :: v' :: vs, c, h => by
    simp only [dumpsItems, List.mem_cons, List.mem_append] at h
    rcases h with h | rfl | rfl | h
    · exact dumps_printable v h
    · decide
    · decide
    · exact dumpsItems_printable (v' :: vs) h

theorem dumpsFields_printable : ∀ (fs : List (String × Value)) {c : Char}, c ∈ dumpsFields fs → 32 ≤ c.toNat
  | [], c, h => absurd h List.not_mem_nil
  | [(name, v)], c, h => by
    simp only [dumpsFields, List.mem_cons, List.mem_append] at h
    rcases h with h | rfl | rfl | h
    · exact quote_printable h
    · decide
    · decide
    · exact dumps_printable v h
  | (name, v) :: f :: fs, c, h => by
    simp only [dumpsFields, List.mem_cons, List.mem_append] at h
    rcases h with h | rfl | rfl | h | rfl | rfl | h
    · exact quote_printable h
    · decide
    · decide
    · exact dumps_printable v h
    · decide
    · decide
    · exact dumpsFields_printable (f :: fs) h

end

end Json
