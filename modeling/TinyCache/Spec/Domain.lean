import Mathlib.Algebra.Order.Ring.Rat
import Mathlib.Data.List.DropRight
import Mathlib.Tactic.Linarith

/-! Keys, values, clock readings and their validation. The `isinstance` checks
of the source are discharged by the types. -/

namespace TinyCache

abbrev Key := String

abbrev Bytes := List UInt8

/-- A clock reading in seconds. Float readings are taken at their exact value and
subtracted without rounding. -/
abbrev Time := ℚ

/-- The exceptions the cache raises: `ValueError` with its text, and whatever
`sqlite3` raises when a statement fails. -/
inductive PyError
  | valueError (message : String)
  | sqliteError
  deriving DecidableEq

def MAX_KEY_LENGTH : ℕ := 256

def MAX_NAMESPACE_LENGTH : ℕ := 64

def validateKey (key : Key) : Except PyError Unit :=
  if key.isEmpty then .error (.valueError "Key cannot be empty")
  else if key.length > MAX_KEY_LENGTH then
    .error (.valueError s!"Key is too long (max {MAX_KEY_LENGTH})")
  else .ok ()

/-- `str.isspace` of a single character. -/
def isSpace (c : Char) : Bool :=
  let n := c.toNat
  (0x09 ≤ n && n ≤ 0x0D) || (0x1C ≤ n && n ≤ 0x20) || n == 0x85 || n == 0xA0 || n == 0x1680 ||
    (0x2000 ≤ n && n ≤ 0x200A) || n == 0x2028 || n == 0x2029 || n == 0x202F || n == 0x205F ||
    n == 0x3000

/-- `str.strip()`. -/
def strip (s : String) : String :=
  String.ofList ((s.toList.dropWhile isSpace).rdropWhile isSpace)

/-- `[A-Za-z0-9_.-]` -/
def isNamespaceChar (c : Char) : Bool :=
  c.isAlphanum || c == '_' || c == '.' || c == '-'

/-- A full match of `^[A-Za-z0-9][A-Za-z0-9_.-]*$`. -/
def matchesNamespacePattern (s : String) : Bool :=
  match s.toList with
  | [] => false
  | c :: cs => c.isAlphanum && cs.all isNamespaceChar

def validateNamespace : Option String → Except PyError (Option String)
  | none => .ok none
  | some ns =>
    let normalized := strip ns
    if normalized.isEmpty then .ok none
    else if normalized.length > MAX_NAMESPACE_LENGTH then
      .error (.valueError s!"Namespace is too long (max {MAX_NAMESPACE_LENGTH})")
    else if matchesNamespacePattern normalized then .ok (some normalized)
    else .error (.valueError
      "Namespace must contain only letters, numbers, dots, dashes, or underscores")

theorem validateKey_ok {key : Key} :
    validateKey key = .ok () ↔ key ≠ "" ∧ key.length ≤ MAX_KEY_LENGTH := by
  unfold validateKey
  split_ifs with h1 h2 <;> simp_all

/-- What `validateNamespace` lets through as a namespace. -/
theorem validateNamespace_some {ns : Option String} {n : String}
    (h : validateNamespace ns = .ok (some n)) :
    n ≠ "" ∧ n.length ≤ MAX_NAMESPACE_LENGTH ∧ matchesNamespacePattern n = true := by
  cases ns with
  | none => cases h
  | some s =>
    simp only [validateNamespace] at h
    split_ifs at h with h1 h2 h3 <;> simp_all

end TinyCache
