import Mathlib.Algebra.GroupWithZero.Nat
import Mathlib.Data.List.Lex
import Mathlib.Order.Fin.Basic

/-!
# JavaScript values

The parts of the language that the program's data rests on: strings as sequences of UTF-16
code units (so that `<`, `length` and `===` are the language's own), safe integers, decimal
rendering, and thrown errors as a class together with a message.

Numbers are integers here.  Every number the program computes with is checked to be a safe
integer before it is used (`validateOperation`, `validateServerBatch`, the wire schemas);
`decimal` is the rendering of `String(n)` for integers below `10 ^ 21` in absolute value.
-/

set_option autoImplicit false

namespace LocalFirst

/-! ## Strings -/

/-- A UTF-16 code unit. -/
abbrev CodeUnit := Fin 65536

/-- A string: its code units.  `<` is the lexicographic order of code units. -/
abbrev JsString := List CodeUnit

instance neZero_codeUnit : NeZero 65536 := ⟨Nat.succ_ne_zero 65535⟩

instance lawfulBEq_jsString : LawfulBEq JsString := inferInstance

/-- The UTF-16 encoding of a character. -/
def codeUnits (c : Char) : List CodeUnit :=
  if c.toNat < 0x10000 then [Fin.ofNat 65536 c.toNat]
  else [Fin.ofNat 65536 (0xD800 + (c.toNat - 0x10000) / 0x400),
    Fin.ofNat 65536 (0xDC00 + (c.toNat - 0x10000) % 0x400)]

/-- A string literal of the source. -/
def js (s : String) : JsString := s.toList.flatMap codeUnits

def isHighSurrogate (c : CodeUnit) : Bool := 0xD800 ≤ c.val && c.val ≤ 0xDBFF

def isLowSurrogate (c : CodeUnit) : Bool := 0xDC00 ≤ c.val && c.val ≤ 0xDFFF

/-- The code points of a string, when the code unit before it is a high surrogate or not: a low
surrogate after a high one begins none. -/
def codePointsAfter (high : Bool) : JsString → Nat
  | [] => 0
  | c :: rest =>
    (if high && isLowSurrogate c then 0 else 1) + codePointsAfter (isHighSurrogate c) rest

/-- `[...s].length`. -/
def codePoints (s : JsString) : Nat := codePointsAfter false s

theorem codePointsAfter_le (high : Bool) (s : JsString) : codePointsAfter high s ≤ s.length := by
  induction s generalizing high with
  | nil => exact le_refl _
  | cons c rest ih =>
    have hrest := ih (isHighSurrogate c)
    rw [codePointsAfter, List.length_cons]
    split <;> omega

/-- Two code units make at most one code point. -/
theorem codePoints_le (s : JsString) : codePoints s ≤ s.length := codePointsAfter_le false s

theorem codePoints_pos {s : JsString} : 1 ≤ codePoints s ↔ 1 ≤ s.length := by
  cases s with
  | nil => exact Iff.rfl
  | cons c rest => simp [codePoints, codePointsAfter]

/-- White space and line terminators, as `trim` strips them. -/
def isWhiteSpace (c : CodeUnit) : Bool :=
  (9 ≤ c.val && c.val ≤ 13) || c.val == 0x20 || c.val == 0xA0 || c.val == 0x1680 ||
    (0x2000 ≤ c.val && c.val ≤ 0x200A) || c.val == 0x2028 || c.val == 0x2029 ||
    c.val == 0x202F || c.val == 0x205F || c.val == 0x3000 || c.val == 0xFEFF

/-- `s.trim()`. -/
def trim (s : JsString) : JsString :=
  ((s.dropWhile isWhiteSpace).reverse.dropWhile isWhiteSpace).reverse

/-- `strings.join(separator)`. -/
def join (separator : JsString) : List JsString → JsString
  | [] => []
  | [s] => s
  | s :: ss => s ++ separator ++ join separator ss

/-- `String(n)`. -/
def decimal : Int → JsString
  | .ofNat n => (Nat.toDigits 10 n).flatMap codeUnits
  | .negSucc n => js "-" ++ (Nat.toDigits 10 (n + 1)).flatMap codeUnits

/-- `compareCodeUnits`: the order used by every explicit and default sort of strings. -/
def compareCodeUnits (left right : JsString) : Int :=
  if left = right then 0 else if left < right then -1 else 1

theorem compareCodeUnits_le {left right : JsString} :
    compareCodeUnits left right ≤ 0 ↔ left ≤ right := by
  unfold compareCodeUnits
  split
  · rename_i h; simp [h]
  · rename_i hne
    split
    · rename_i hlt; simp [le_of_lt hlt]
    · rename_i hlt
      exact ⟨fun h => by omega, fun h => absurd (lt_of_le_of_ne h hne) hlt⟩

/-! ## Numbers -/

def MAX_SAFE_INTEGER : Int := 9007199254740991

/-- `Number.isSafeInteger(n)`. -/
def isSafeInteger (n : Int) : Bool := decide (-MAX_SAFE_INTEGER ≤ n ∧ n ≤ MAX_SAFE_INTEGER)

/-- The check `Number.isSafeInteger(n) && n >= 1`. -/
def isPositiveSafeInteger (n : Int) : Bool := isSafeInteger n && decide (1 ≤ n)

theorem isPositiveSafeInteger_iff {n : Int} :
    isPositiveSafeInteger n = true ↔ 1 ≤ n ∧ n ≤ MAX_SAFE_INTEGER := by
  simp only [isPositiveSafeInteger, isSafeInteger, Bool.and_eq_true, decide_eq_true_eq]
  have hmax : (0 : Int) ≤ MAX_SAFE_INTEGER := by decide
  constructor
  · rintro ⟨⟨-, hle⟩, hge⟩; exact ⟨hge, hle⟩
  · rintro ⟨hge, hle⟩; exact ⟨⟨by omega, hle⟩, hge⟩

/-! ## Errors -/

/-- The classes of the errors that the program throws or distinguishes. -/
inductive ErrorName where
  | error
  | invalidOperation
  | operationIdentityConflict
  | operationDependencyCycle
  | invalidReplicaSnapshot
  | unresolvedReplicaSnapshot
  | invalidServerBatch
  | snapshotBootstrapIneligible
  | invalidSnapshotBootstrap
  | invalidServerBaseline
  | constraint
  | outOfFuel
  deriving DecidableEq, Repr

/-- A thrown error: its class and its message. -/
structure JsError where
  name : ErrorName
  message : JsString
  deriving DecidableEq

/-- Not an error of the program: a bounded loop of the model ran out of steps. -/
def outOfFuelError : JsError := ⟨.outOfFuel, []⟩

theorem exists_ok_of_isOk {α : Type} {x : Except JsError α} (h : x.isOk = true) :
    ∃ a, x = .ok a := by
  cases x with
  | error e => cases h
  | ok a => exact ⟨a, rfl⟩

theorem exists_ok_of_map {α β : Type} {x : Except JsError α} {f : α → β} {b : β}
    (h : x.map f = .ok b) : ∃ a, x = .ok a ∧ f a = b := by
  cases x with
  | error e => cases h
  | ok a => exact ⟨a, rfl, Except.ok.inj h⟩

end LocalFirst
