import Mathlib.Data.Int.Notation
import Mathlib.Data.List.Basic
import Mathlib.Tactic.Common

/-! Bytes as text: base64, hexadecimal digits and UTF-8; and integers as numerals. -/

namespace Codec

theorem ofNat_of_eq (a : UInt8) {n : ℕ} (h : n = a.toNat) : UInt8.ofNat n = a := by
  rw [h, UInt8.ofNat_toNat]

namespace Base64

def digit (n : ℕ) : Char :=
  if n < 26 then Char.ofNat (n + 65)
  else if n < 52 then Char.ofNat (n + 71)
  else if n < 62 then Char.ofNat (n - 4)
  else if n = 62 then '+'
  else '/'

def value? (c : Char) : Option ℕ :=
  if 'A' ≤ c ∧ c ≤ 'Z' then some (c.toNat - 65)
  else if 'a' ≤ c ∧ c ≤ 'z' then some (c.toNat - 71)
  else if '0' ≤ c ∧ c ≤ '9' then some (c.toNat + 4)
  else if c = '+' then some 62
  else if c = '/' then some 63
  else none

/-- Three bytes make four digits; what is left over is padded. -/
def encode : List UInt8 → List Char
  | [] => []
  | [a] => [digit (a.toNat / 4), digit (a.toNat % 4 * 16), '=', '=']
  | [a, b] =>
    [digit (a.toNat / 4), digit (a.toNat % 4 * 16 + b.toNat / 16), digit (b.toNat % 16 * 4), '=']
  | a :: b :: c :: rest =>
    digit (a.toNat / 4) :: digit (a.toNat % 4 * 16 + b.toNat / 16) ::
      digit (b.toNat % 16 * 4 + c.toNat / 64) :: digit (c.toNat % 64) :: encode rest

/-- Only digits, in fours, and padding at the end of the last four; the bits that are left over
there are not looked at. After a whole four more padding does no harm. -/
def decode : List Char → Option (List UInt8)
  | [] => some []
  | w :: x :: y :: z :: rest => do
    let w ← value? w
    let x ← value? x
    if z = '=' ∧ rest = [] then
      if y = '=' then return [.ofNat (w * 4 + x / 16)]
      else
        let y ← value? y
        return [.ofNat (w * 4 + x / 16), .ofNat (x % 16 * 16 + y / 4)]
    else
      let y ← value? y
      let z ← value? z
      let bytes ← (if rest.all (· == '=') then some [] else decode rest)
      return .ofNat (w * 4 + x / 16) :: .ofNat (x % 16 * 16 + y / 4) :: .ofNat (y % 4 * 64 + z) :: bytes
  | _ => none

theorem value?_digit {n : ℕ} (h : n < 64) : value? (digit n) = some n := by
  have hall : ∀ n : Fin 64, value? (digit n) = some n.val := by decide +kernel
  exact hall ⟨n, h⟩

theorem digit_ne_pad {n : ℕ} (h : n < 64) : digit n ≠ '=' := by
  have hall : ∀ n : Fin 64, digit n ≠ '=' := by decide +kernel
  exact hall ⟨n, h⟩

theorem encode_all_pad {bytes : List UInt8} (h : (encode bytes).all (· == '=') = true) : bytes = [] := by
  rcases bytes with _ | ⟨a, _ | ⟨b, _ | ⟨c, rest⟩⟩⟩
  · rfl
  all_goals
    have ha := a.toNat_lt
    have hdigit := @digit_ne_pad (a.toNat / 4) (by omega)
    simp [encode, hdigit] at h

/-- What is encoded is decoded again. -/
theorem decode_encode (bytes : List UInt8) : decode (encode bytes) = some bytes := by
  fun_induction encode bytes with
  | case1 => rfl
  | case2 a =>
    have ha := a.toNat_lt
    rw [decode, value?_digit (by omega), value?_digit (by omega)]
    simp only [Option.bind_eq_bind, Option.bind_some, and_self, if_true, Option.pure_def]
    rw [ofNat_of_eq a (by omega)]
  | case3 a b =>
    have ha := a.toNat_lt
    have hb := b.toNat_lt
    rw [decode, value?_digit (by omega), value?_digit (by omega), value?_digit (by omega)]
    simp only [Option.bind_eq_bind, Option.bind_some, and_self, if_true, Option.pure_def]
    rw [if_neg (digit_ne_pad (by omega)), ofNat_of_eq a (by omega), ofNat_of_eq b (by omega)]
  | case4 a b c rest ih =>
    have ha := a.toNat_lt
    have hb := b.toNat_lt
    have hc := c.toNat_lt
    have hpad : ¬ (digit (c.toNat % 64) = '=' ∧ encode rest = []) :=
      not_and_of_not_left _ (digit_ne_pad (by omega))
    have hrest : (if (encode rest).all (· == '=') then some [] else decode (encode rest)) = some rest := by
      split_ifs with hall
      · rw [encode_all_pad hall]
      · exact ih
    rw [decode, value?_digit (by omega), value?_digit (by omega), value?_digit (by omega),
      value?_digit (by omega)]
    simp only [Option.bind_eq_bind, Option.bind_some, if_neg hpad, hrest, Option.pure_def]
    rw [ofNat_of_eq a (by omega), ofNat_of_eq b (by omega), ofNat_of_eq c (by omega)]

end Base64

namespace Hex

def digit (n : ℕ) : Char := if n < 10 then Char.ofNat (n + 48) else Char.ofNat (n + 87)

def value? (c : Char) : Option ℕ :=
  if '0' ≤ c ∧ c ≤ '9' then some (c.toNat - 48)
  else if 'a' ≤ c ∧ c ≤ 'f' then some (c.toNat - 87)
  else if 'A' ≤ c ∧ c ≤ 'F' then some (c.toNat - 55)
  else none

def isSpace (c : Char) : Bool := c == ' ' || (9 ≤ c.toNat && c.toNat ≤ 13)

def encode : List UInt8 → List Char
  | [] => []
  | a :: rest => digit (a.toNat / 16) :: digit (a.toNat % 16) :: encode rest

/-- Blanks may stand between bytes. -/
def decode : List Char → Option (List UInt8)
  | [] => some []
  | [x] => if isSpace x then some [] else none
  | x :: y :: rest =>
    if isSpace x then decode (y :: rest)
    else do
      let x ← value? x
      let y ← value? y
      let bytes ← decode rest
      return .ofNat (x * 16 + y) :: bytes

theorem value?_digit {n : ℕ} (h : n < 16) : value? (digit n) = some n := by
  have hall : ∀ n : Fin 16, value? (digit n) = some n.val := by decide +kernel
  exact hall ⟨n, h⟩

theorem digit_printable {n : ℕ} (h : n < 16) : 32 ≤ (digit n).toNat := by
  have hall : ∀ n : Fin 16, 32 ≤ (digit n).toNat := by decide +kernel
  exact hall ⟨n, h⟩

theorem isSpace_digit {n : ℕ} (h : n < 16) : isSpace (digit n) = false := by
  have hall : ∀ n : Fin 16, isSpace (digit n) = false := by decide +kernel
  exact hall ⟨n, h⟩

theorem decode_encode (bytes : List UInt8) : decode (encode bytes) = some bytes := by
  induction bytes with
  | nil => rfl
  | cons a rest ih =>
    have ha := a.toNat_lt
    rw [encode, decode, isSpace_digit (by omega), value?_digit (by omega), value?_digit (by omega), ih]
    simp only [Bool.false_eq_true, if_false, Option.bind_eq_bind, Option.bind_some, Option.pure_def]
    rw [ofNat_of_eq a (by omega)]

end Hex

namespace Utf8

def encode (text : String) : List UInt8 := text.toByteArray.data.toList

def decode (bytes : List UInt8) : Option String := String.fromUTF8? ⟨bytes.toArray⟩

theorem encode_decode {bytes : List UInt8} {text : String} (h : decode bytes = some text) : encode text = bytes := by
  unfold decode String.fromUTF8? at h
  split_ifs at h
  cases h
  rfl

end Utf8

namespace Decimal

def encode (n : ℤ) : List Char := n.repr.toList

def digits? (cs : List Char) : Option ℕ :=
  if cs ≠ [] ∧ cs.all Char.isDigit then some (Nat.ofDigitChars 10 cs 0) else none

def decode (cs : List Char) : Option ℤ :=
  match cs with
  | [] => none
  | c :: rest => if c = '-' then (digits? rest).map fun m : ℕ => -(m : ℤ) else (digits? cs).map Int.ofNat

theorem encode_eq (n : ℤ) :
    encode n = if 0 ≤ n then Nat.toDigits 10 n.toNat else '-' :: Nat.toDigits 10 (-n).toNat := by
  rw [encode, Int.repr_eq_if]
  split_ifs
  · exact Nat.toList_repr
  · rw [String.toList_append, Nat.toList_repr]
    rfl

theorem isDigit_toDigits {m : ℕ} {c : Char} (h : c ∈ Nat.toDigits 10 m) : c.isDigit = true :=
  Nat.isDigit_of_mem_toDigits (by decide) (by decide) h

theorem encode_ne_nil (n : ℤ) : encode n ≠ [] := by
  rw [encode_eq]
  split_ifs
  · exact Nat.toDigits_ne_nil
  · exact List.cons_ne_nil _ _

theorem mem_encode {n : ℤ} {c : Char} (h : c ∈ encode n) : c = '-' ∨ c.isDigit = true := by
  rw [encode_eq] at h
  split_ifs at h
  · exact Or.inr (isDigit_toDigits h)
  · exact (List.mem_cons.mp h).imp id isDigit_toDigits

theorem digits?_toDigits (m : ℕ) : digits? (Nat.toDigits 10 m) = some m := by
  have hall : (Nat.toDigits 10 m).all Char.isDigit = true :=
    List.all_eq_true.mpr fun c hc => isDigit_toDigits hc
  rw [digits?, if_pos ⟨Nat.toDigits_ne_nil, hall⟩]
  simp

theorem decode_encode (n : ℤ) : decode (encode n) = some n := by
  rw [encode_eq]
  split_ifs with hn
  · obtain ⟨c, cs, hcs⟩ := List.exists_cons_of_ne_nil (@Nat.toDigits_ne_nil n.toNat 10)
    have hc : c ≠ '-' := by
      rintro rfl
      have hdigit := isDigit_toDigits (show '-' ∈ Nat.toDigits 10 n.toNat by rw [hcs]; exact List.mem_cons_self)
      cases hdigit
    have hread := digits?_toDigits n.toNat
    rw [hcs] at hread ⊢
    rw [decode]
    simp only [if_neg hc, hread, Option.map_some]
    exact congrArg some (Int.toNat_of_nonneg hn)
  · rw [decode]
    simp only [if_true, digits?_toDigits, Option.map_some]
    rw [Int.toNat_of_nonneg (by omega), Int.neg_neg]

end Decimal

end Codec
