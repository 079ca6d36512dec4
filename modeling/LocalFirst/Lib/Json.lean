import LocalFirst.Js
import Mathlib.Data.List.TakeWhile

/-!
# JSON texts

Texts are sequences of UTF-16 code units.  The numbers of a value are of any type: a writer is given
how a number is written, a reader what a number of the grammar is read as.

* `stringify` — the writer: no white space, lone surrogates escaped.
* `parse` — the reader; its fuel is the length of the text, and `parseValue_fuel` says that more
  makes no difference.
* `parse_stringify` — what has been written is read back.
* `stringify_wellFormed` — what is written has no lone surrogate.
-/

set_option autoImplicit false

namespace LocalFirst

/-- A JSON value.  The members of an object are in the order of the text. -/
inductive Json (N : Type) where
  | null
  | bool (b : Bool)
  | number (n : N)
  | string (s : JsString)
  | array (elements : List (Json N))
  | object (members : List (JsString × Json N))

/-- A number of the grammar: `mantissa * 10 ^ exponent`, perhaps with a sign. -/
structure NumberLiteral where
  negative : Bool
  mantissa : Nat
  exponent : Int
  deriving DecidableEq

namespace Json

/-! ## Code units -/

/-- The code unit of a character below `U+10000`. -/
def unit (c : Char) : CodeUnit := Fin.ofNat 65536 c.toNat

def isSpace (c : CodeUnit) : Bool :=
  c = unit ' ' || c = unit '\n' || c = unit '\r' || c = unit '\t'

def isDigit (c : CodeUnit) : Bool := 48 ≤ c.val && c.val ≤ 57

def digitVal (c : CodeUnit) : Nat := c.val - 48

def hexVal (c : CodeUnit) : Option Nat :=
  if isDigit c then some (c.val - 48)
  else if 97 ≤ c.val ∧ c.val ≤ 102 then some (c.val - 87)
  else if 65 ≤ c.val ∧ c.val ≤ 70 then some (c.val - 55)
  else none

def hexDigit (n : Nat) : CodeUnit := Fin.ofNat 65536 (if n < 10 then 48 + n else 87 + n)

def skipSpace (text : JsString) : JsString := text.dropWhile isSpace

/-! ## Writing -/

def unicodeEscape (c : CodeUnit) : JsString :=
  [unit '\\', unit 'u', hexDigit (c.val / 4096), hexDigit (c.val / 256 % 16),
    hexDigit (c.val / 16 % 16), hexDigit (c.val % 16)]

/-- The letter that stands for a control character. -/
def shortEscape (c : CodeUnit) : Option CodeUnit :=
  if c.val = 8 then some (unit 'b')
  else if c.val = 9 then some (unit 't')
  else if c.val = 10 then some (unit 'n')
  else if c.val = 12 then some (unit 'f')
  else if c.val = 13 then some (unit 'r')
  else if c = unit '"' ∨ c = unit '\\' then some c
  else none

def escape (c : CodeUnit) : JsString :=
  match shortEscape c with
  | some letter => [unit '\\', letter]
  | none => if c.val < 32 then unicodeEscape c else [c]

def quoteUnits : JsString → JsString
  | [] => []
  | c :: rest =>
    if isHighSurrogate c then
      match rest with
      | [] => unicodeEscape c
      | d :: rest' =>
        if isLowSurrogate d then c :: d :: quoteUnits rest'
        else unicodeEscape c ++ quoteUnits (d :: rest')
    else if isLowSurrogate c then unicodeEscape c ++ quoteUnits rest
    else escape c ++ quoteUnits rest

def quote (s : JsString) : JsString := unit '"' :: (quoteUnits s ++ [unit '"'])

section

variable {N : Type} (render : N → JsString)

mutual

def stringify : Json N → JsString
  | .null => js "null"
  | .bool true => js "true"
  | .bool false => js "false"
  | .number n => render n
  | .string s => quote s
  | .array [] => js "[]"
  | .array (v :: vs) => unit '[' :: (stringify v ++ stringifyElements vs)
  | .object [] => js "\x7b\x7d"
  | .object ((key, v) :: members) =>
    unit '\x7b' :: (quote key ++ unit ':' :: (stringify v ++ stringifyMembers members))

/-- The elements after the first, with the closing bracket. -/
def stringifyElements : List (Json N) → JsString
  | [] => [unit ']']
  | v :: vs => unit ',' :: (stringify v ++ stringifyElements vs)

/-- The members after the first, with the closing brace. -/
def stringifyMembers : List (JsString × Json N) → JsString
  | [] => [unit '\x7d']
  | (key, v) :: members =>
    unit ',' :: (quote key ++ unit ':' :: (stringify v ++ stringifyMembers members))

end

end

/-! ## Reading -/

def hexUnit (a b c d : CodeUnit) : Option CodeUnit :=
  match hexVal a, hexVal b, hexVal c, hexVal d with
  | some a, some b, some c, some d => some (Fin.ofNat 65536 (a * 4096 + b * 256 + c * 16 + d))
  | _, _, _, _ => none

/-- What a letter after a backslash stands for. -/
def unescape (c : CodeUnit) : Option CodeUnit :=
  if c = unit '"' ∨ c = unit '\\' ∨ c = unit '/' then some c
  else if c = unit 'b' then some 8
  else if c = unit 't' then some 9
  else if c = unit 'n' then some 10
  else if c = unit 'f' then some 12
  else if c = unit 'r' then some 13
  else none

/-- A string, after its opening quote. -/
def parseString : JsString → Option (JsString × JsString)
  | [] => none
  | c :: rest =>
    if c = unit '"' then some ([], rest)
    else if c = unit '\\' then
      match rest with
      | [] => none
      | letter :: rest =>
        if letter = unit 'u' then
          match rest with
          | h :: i :: j :: k :: rest =>
            match hexUnit h i j k with
            | none => none
            | some c => (parseString rest).map fun p => (c :: p.1, p.2)
          | _ => none
        else
          match unescape letter with
          | none => none
          | some c => (parseString rest).map fun p => (c :: p.1, p.2)
    else if c.val < 32 then none
    else (parseString rest).map fun p => (c :: p.1, p.2)

def digitsVal (digits : JsString) : Nat := digits.foldl (fun n d => 10 * n + digitVal d) 0

/-- The digits after a point, if there is one. -/
def parseFraction (text : JsString) : Option (JsString × JsString) :=
  match text with
  | [] => some ([], [])
  | c :: rest =>
    if c = unit '.' then
      if rest.takeWhile isDigit = [] then none
      else some (rest.takeWhile isDigit, rest.dropWhile isDigit)
    else some ([], text)

def parseExponentDigits (negative : Bool) (text : JsString) : Option (Int × JsString) :=
  if text.takeWhile isDigit = [] then none
  else
    let n : Int := digitsVal (text.takeWhile isDigit)
    some (if negative then -n else n, text.dropWhile isDigit)

/-- The exponent, if there is one. -/
def parseExponent (text : JsString) : Option (Int × JsString) :=
  match text with
  | [] => some (0, [])
  | c :: rest =>
    if c = unit 'e' ∨ c = unit 'E' then
      match rest with
      | [] => none
      | d :: digits =>
        if d = unit '-' then parseExponentDigits true digits
        else if d = unit '+' then parseExponentDigits false digits
        else parseExponentDigits false rest
    else some (0, text)

/-- The digits before the point: a zero, or digits that do not begin with one. -/
def parseInteger (text : JsString) : Option (JsString × JsString) :=
  match text with
  | [] => none
  | c :: rest =>
    if c = unit '0' then some ([c], rest)
    else if isDigit c then some (text.takeWhile isDigit, text.dropWhile isDigit)
    else none

def parseUnsigned (negative : Bool) (text : JsString) : Option (NumberLiteral × JsString) :=
  match parseInteger text with
  | none => none
  | some (integer, rest) =>
    match parseFraction rest with
    | none => none
    | some (fraction, rest) =>
      match parseExponent rest with
      | none => none
      | some (exponent, rest) =>
        some (⟨negative, digitsVal (integer ++ fraction), exponent - fraction.length⟩, rest)

def parseNumber (text : JsString) : Option (NumberLiteral × JsString) :=
  match text with
  | [] => none
  | c :: rest => if c = unit '-' then parseUnsigned true rest else parseUnsigned false text

section

variable {N : Type} (read : NumberLiteral → N)

def parseLiteral (text : JsString) : Option (Json N × JsString) :=
  if (js "null").isPrefixOf text then some (.null, text.drop 4)
  else if (js "true").isPrefixOf text then some (.bool true, text.drop 4)
  else if (js "false").isPrefixOf text then some (.bool false, text.drop 5)
  else none

mutual

def parseValue : Nat → JsString → Option (Json N × JsString)
  | 0, _ => none
  | fuel + 1, text =>
    match skipSpace text with
    | [] => none
    | c :: rest =>
      if c = unit '\x7b' then
        match skipSpace rest with
        | [] => none
        | d :: rest' =>
          if d = unit '\x7d' then some (.object [], rest')
          else (parseMembers fuel rest).map fun p => (.object p.1, p.2)
      else if c = unit '[' then
        match skipSpace rest with
        | [] => none
        | d :: rest' =>
          if d = unit ']' then some (.array [], rest')
          else (parseElements fuel rest).map fun p => (.array p.1, p.2)
      else if c = unit '"' then (parseString rest).map fun p => (.string p.1, p.2)
      else if c = unit '-' ∨ isDigit c = true then
        (parseNumber (c :: rest)).map fun p => (.number (read p.1), p.2)
      else parseLiteral (c :: rest)

/-- The elements of an array, with its closing bracket. -/
def parseElements : Nat → JsString → Option (List (Json N) × JsString)
  | 0, _ => none
  | fuel + 1, text =>
    match parseValue fuel text with
    | none => none
    | some (v, rest) =>
      match skipSpace rest with
      | [] => none
      | c :: rest =>
        if c = unit ',' then (parseElements fuel rest).map fun p => (v :: p.1, p.2)
        else if c = unit ']' then some ([v], rest)
        else none

/-- The members of an object, with its closing brace. -/
def parseMembers : Nat → JsString → Option (List (JsString × Json N) × JsString)
  | 0, _ => none
  | fuel + 1, text =>
    match skipSpace text with
    | [] => none
    | q :: rest =>
      if q = unit '"' then
        match parseString rest with
        | none => none
        | some (key, rest) =>
          match skipSpace rest with
          | [] => none
          | colon :: rest =>
            if colon = unit ':' then
              match parseValue fuel rest with
              | none => none
              | some (v, rest) =>
                match skipSpace rest with
                | [] => none
                | c :: rest =>
                  if c = unit ',' then (parseMembers fuel rest).map fun p => ((key, v) :: p.1, p.2)
                  else if c = unit '\x7d' then some ([(key, v)], rest)
                  else none
            else none
      else none

end

def parse (text : JsString) : Option (Json N) :=
  match parseValue read (2 * text.length + 2) text with
  | none => none
  | some (v, rest) => if skipSpace rest = [] then some v else none

end

/-! ## Strings are read back -/

theorem hexVal_hexDigit : ∀ n < 16, hexVal (hexDigit n) = some n := by decide

theorem hexUnit_hexDigit (c : CodeUnit) : hexUnit (hexDigit (c.val / 4096))
    (hexDigit (c.val / 256 % 16)) (hexDigit (c.val / 16 % 16)) (hexDigit (c.val % 16)) = some c := by
  have hlt := c.isLt
  unfold hexUnit
  rw [hexVal_hexDigit _ (by omega), hexVal_hexDigit _ (by omega), hexVal_hexDigit _ (by omega),
    hexVal_hexDigit _ (by omega)]
  refine congrArg some (Fin.ext ?_)
  show (c.val / 4096 * 4096 + c.val / 256 % 16 * 256 + c.val / 16 % 16 * 16 + c.val % 16) % 65536 = _
  omega

theorem parseString_unicodeEscape (c : CodeUnit) (r : JsString) :
    parseString (unicodeEscape c ++ r) = (parseString r).map fun p => (c :: p.1, p.2) := by
  have hquote : unit '\\' ≠ unit '"' := by decide
  rw [parseString.eq_def]
  simp only [unicodeEscape, List.cons_append, List.nil_append, if_neg hquote, if_true,
    hexUnit_hexDigit]

theorem parseString_plain {c : CodeUnit} (hquote : c ≠ unit '"') (hslash : c ≠ unit '\\')
    (hcontrol : 32 ≤ c.val) (r : JsString) :
    parseString (c :: r) = (parseString r).map fun p => (c :: p.1, p.2) := by
  rw [parseString.eq_def]
  simp only [if_neg hquote, if_neg hslash, if_neg (Nat.not_lt.2 hcontrol)]

theorem parseString_quote (r : JsString) : parseString (unit '"' :: r) = some ([], r) := by
  rw [parseString.eq_def]
  simp only [if_true]

/-- The letter of a short escape stands for the code unit. -/
theorem unescape_shortEscape {c letter : CodeUnit} (h : shortEscape c = some letter) :
    letter ≠ unit 'u' ∧ unescape letter = some c := by
  have hval : ∀ n : Fin 65536, c.val = n.val → c = n := fun n hn => Fin.ext hn
  unfold shortEscape at h
  split at h
  · rename_i hc
    cases h
    exact ⟨by decide, by rw [hval 8 hc]; decide⟩
  split at h
  · rename_i hc
    cases h
    exact ⟨by decide, by rw [hval 9 hc]; decide⟩
  split at h
  · rename_i hc
    cases h
    exact ⟨by decide, by rw [hval 10 hc]; decide⟩
  split at h
  · rename_i hc
    cases h
    exact ⟨by decide, by rw [hval 12 hc]; decide⟩
  split at h
  · rename_i hc
    cases h
    exact ⟨by decide, by rw [hval 13 hc]; decide⟩
  split at h
  · rename_i hc
    cases h
    rcases hc with rfl | rfl
    all_goals exact ⟨by decide, by decide⟩
  · cases h

theorem parseString_escape (c : CodeUnit) (r : JsString) :
    parseString (escape c ++ r) = (parseString r).map fun p => (c :: p.1, p.2) := by
  have hquote : unit '\\' ≠ unit '"' := by decide
  unfold escape
  cases hshort : shortEscape c with
  | some letter =>
    obtain ⟨hu, hletter⟩ := unescape_shortEscape hshort
    rw [parseString.eq_def]
    simp only [List.cons_append, List.nil_append, if_neg hquote, if_true, if_neg hu, hletter]
  | none =>
    simp only
    split
    · exact parseString_unicodeEscape c r
    · rename_i hcontrol
      have hplain : c ≠ unit '"' ∧ c ≠ unit '\\' := by
        unfold shortEscape at hshort
        split_ifs at hshort with h1 h2 h3 h4 h5 h6
        exact not_or.1 h6
      exact parseString_plain hplain.1 hplain.2 (Nat.not_lt.1 hcontrol) r

/-- A surrogate is neither a quote, nor a backslash, nor a control character. -/
theorem parseString_surrogate {c : CodeUnit} (h : 0xD800 ≤ c.val) (r : JsString) :
    parseString (c :: r) = (parseString r).map fun p => (c :: p.1, p.2) := by
  refine parseString_plain ?_ ?_ (by omega) r
  all_goals
    rintro rfl
    exact absurd h (by decide)

/-- **What has been quoted is read back**, up to the closing quote. -/
theorem parseString_quoteUnits (s r : JsString) :
    parseString (quoteUnits s ++ unit '"' :: r) = some (s, r) := by
  induction s using quoteUnits.induct with
  | case1 => exact parseString_quote r
  | case2 c hhigh =>
    rw [quoteUnits.eq_def]
    simp only [if_pos hhigh]
    rw [parseString_unicodeEscape, parseString_quote]
    rfl
  | case3 c hhigh d rest hlow ih =>
    have hc : 0xD800 ≤ c.val := by simpa using (Bool.and_eq_true_iff.1 hhigh).1
    have hd : 0xD800 ≤ d.val := by
      have := (Bool.and_eq_true_iff.1 hlow).1
      simp only [decide_eq_true_eq] at this
      omega
    rw [quoteUnits.eq_def]
    simp only [if_pos hhigh, if_pos hlow, List.cons_append]
    rw [parseString_surrogate hc, parseString_surrogate hd, ih]
    rfl
  | case4 c hhigh d rest hlow ih =>
    rw [quoteUnits.eq_def]
    simp only [if_pos hhigh, if_neg hlow, List.append_assoc]
    rw [parseString_unicodeEscape, ih]
    rfl
  | case5 c rest hhigh hlow ih =>
    rw [quoteUnits.eq_def]
    simp only [if_neg hhigh, if_pos hlow, List.append_assoc]
    rw [parseString_unicodeEscape, ih]
    rfl
  | case6 c rest hhigh hlow ih =>
    rw [quoteUnits.eq_def]
    simp only [if_neg hhigh, if_neg hlow, List.append_assoc]
    rw [parseString_escape, ih]
    rfl

/-! ## Numbers are read back -/

/-- No number goes on here. -/
def Ends (r : JsString) : Prop :=
  ∀ c rest, r = c :: rest → isDigit c = false ∧ c ≠ unit '.' ∧ c ≠ unit 'e' ∧ c ≠ unit 'E'

theorem ends_nil : Ends [] := fun _ _ h => by cases h

theorem ends_cons {c : CodeUnit} {r : JsString}
    (h : isDigit c = false ∧ c ≠ unit '.' ∧ c ≠ unit 'e' ∧ c ≠ unit 'E') : Ends (c :: r) := by
  intro c' rest heq
  cases heq
  exact h

theorem Ends.takeWhile {r : JsString} (h : Ends r) :
    r.takeWhile isDigit = [] ∧ r.dropWhile isDigit = r := by
  cases r with
  | nil => exact ⟨rfl, rfl⟩
  | cons c rest =>
    have hc := (h c rest rfl).1
    simp [List.takeWhile, List.dropWhile, hc]

theorem Ends.noFraction {r : JsString} (h : Ends r) : parseFraction r = some ([], r) := by
  cases r with
  | nil => rfl
  | cons c rest =>
    unfold parseFraction
    simp only [if_neg (h c rest rfl).2.1]

theorem Ends.noExponent {r : JsString} (h : Ends r) : parseExponent r = some (0, r) := by
  cases r with
  | nil => rfl
  | cons c rest =>
    unfold parseExponent
    simp only [if_neg (not_or.2 (h c rest rfl).2.2)]

/-- Digits are read as one integer, unless there is a zero before others. -/
theorem parseUnsigned_digits {ds r : JsString} (negative : Bool) (hne : ds ≠ [])
    (hdigits : ∀ c ∈ ds, isDigit c = true) (hzero : ∀ rest, ds = unit '0' :: rest → rest = [])
    (hr : Ends r) : parseUnsigned negative (ds ++ r) = some (⟨negative, digitsVal ds, 0⟩, r) := by
  have hinteger : parseInteger (ds ++ r) = some (ds, r) := by
    cases ds with
    | nil => exact absurd rfl hne
    | cons c rest =>
      unfold parseInteger
      simp only [List.cons_append]
      split
      · rename_i hc
        rw [hc] at hzero
        rw [hzero rest rfl]
        rfl
      · rw [if_pos (hdigits c List.mem_cons_self), ← List.cons_append,
          List.takeWhile_append_of_pos hdigits, List.dropWhile_append_of_pos hdigits,
          hr.takeWhile.1, hr.takeWhile.2, List.append_nil]
  unfold parseUnsigned
  simp only [hinteger, hr.noFraction, hr.noExponent, List.append_nil, List.length_nil]
  rfl

/-- A number begins with a sign or a digit. -/
theorem parseNumber_head {text : JsString} {p : NumberLiteral × JsString}
    (h : parseNumber text = some p) :
    ∃ c rest, text = c :: rest ∧ (c = unit '-' ∨ isDigit c = true) := by
  cases text with
  | nil => cases h
  | cons c rest =>
    refine ⟨c, rest, rfl, ?_⟩
    unfold parseNumber at h
    simp only at h
    split at h
    · rename_i hc
      exact Or.inl hc
    · unfold parseUnsigned parseInteger at h
      simp only at h
      split_ifs at h with h1 h2
      · rw [h1]
        exact Or.inr (by decide)
      · exact Or.inr h2

/-! ## Values are read back -/

section

variable {N M : Type} {render : N → JsString} {read : NumberLiteral → M} {f : N → M}

variable (f) in
mutual

/-- The numbers of a value are replaced. -/
def map : Json N → Json M
  | .null => .null
  | .bool b => .bool b
  | .number n => .number (f n)
  | .string s => .string s
  | .array vs => .array (mapElements vs)
  | .object members => .object (mapMembers members)

def mapElements : List (Json N) → List (Json M)
  | [] => []
  | v :: vs => map v :: mapElements vs

def mapMembers : List (JsString × Json N) → List (JsString × Json M)
  | [] => []
  | (key, v) :: members => (key, map v) :: mapMembers members

end

variable (render read f) in
/-- What is written for a number is read as `f` of the number, wherever it stands. -/
def ReadsNumbers : Prop :=
  ∀ n r, Ends r → ∃ literal, parseNumber (render n ++ r) = some (literal, r) ∧ read literal = f n

theorem ReadsNumbers.head (h : ReadsNumbers render read f) (n : N) :
    ∃ c rest, render n = c :: rest ∧ (c = unit '-' ∨ isDigit c = true) := by
  obtain ⟨literal, hparse, -⟩ := h n [] ends_nil
  rw [List.append_nil] at hparse
  exact parseNumber_head hparse

/-- The code units that a value begins with. -/
def Starts (c : CodeUnit) : Prop :=
  c = unit '-' ∨ isDigit c = true ∨ c = unit '"' ∨ c = unit '[' ∨ c = unit '\x7b' ∨ c = unit 'n' ∨
    c = unit 't' ∨ c = unit 'f'

theorem Starts.plain {c : CodeUnit} (h : Starts c) :
    isSpace c = false ∧ c ≠ unit ']' ∧ c ≠ unit '\x7d' := by
  have hdigit : isDigit c = true → isSpace c = false ∧ c ≠ unit ']' ∧ c ≠ unit '\x7d' := by
    intro hd
    simp only [isDigit, Bool.and_eq_true, decide_eq_true_eq] at hd
    have hval : ∀ n : Fin 65536, n.val < 48 ∨ 57 < n.val → c ≠ n := by
      rintro n hn rfl
      omega
    refine ⟨?_, hval _ (by decide), hval _ (by decide)⟩
    simp only [isSpace, Bool.or_eq_false_iff, decide_eq_false_iff_not]
    exact ⟨⟨⟨hval _ (by decide), hval _ (by decide)⟩, hval _ (by decide)⟩, hval _ (by decide)⟩
  rcases h with rfl | hd | rfl | rfl | rfl | rfl | rfl | rfl
  · decide
  · exact hdigit hd
  all_goals decide

theorem ReadsNumbers.starts (h : ReadsNumbers render read f) (v : Json N) :
    ∃ c rest, stringify render v = c :: rest ∧ Starts c := by
  cases v with
  | null => exact ⟨_, _, rfl, by unfold Starts; decide⟩
  | bool b => cases b <;> exact ⟨_, _, rfl, by unfold Starts; decide⟩
  | number n =>
    obtain ⟨c, rest, heq, hc⟩ := h.head n
    exact ⟨c, rest, heq, hc.imp_right Or.inl⟩
  | string s => exact ⟨_, _, rfl, by unfold Starts; decide⟩
  | array vs => cases vs <;> exact ⟨_, _, rfl, by unfold Starts; decide⟩
  | object members => cases members <;> exact ⟨_, _, rfl, by unfold Starts; decide⟩

theorem skipSpace_cons {c : CodeUnit} (h : isSpace c = false) (r : JsString) :
    skipSpace (c :: r) = c :: r := by
  unfold skipSpace
  rw [List.dropWhile_cons_of_neg (by simpa using h)]

/-- After an element comes a comma or the bracket, and there a number ends. -/
theorem stringifyElements_ends (vs : List (Json N)) (r : JsString) :
    Ends (stringifyElements render vs ++ r) := by
  cases vs with
  | nil => exact ends_cons (by decide)
  | cons v vs => exact ends_cons (by decide)

theorem stringifyMembers_ends (members : List (JsString × Json N)) (r : JsString) :
    Ends (stringifyMembers render members ++ r) := by
  cases members with
  | nil => exact ends_cons (by decide)
  | cons m ms => exact ends_cons (by decide)

theorem parseString_quote_append (s r : JsString) : ∃ rest, quote s ++ r = unit '"' :: rest ∧
    parseString rest = some (s, r) := by
  refine ⟨quoteUnits s ++ unit '"' :: r, ?_, parseString_quoteUnits s r⟩
  simp only [quote, List.cons_append, List.append_assoc, List.nil_append]

variable (render read f) in
/-- What is written for a value is read as the value. -/
def ReadsValue (v : Json N) : Prop :=
  ∀ fuel r, 2 * (stringify render v).length ≤ fuel → Ends r →
    parseValue read fuel (stringify render v ++ r) = some (map f v, r)

/-- The words of the grammar. -/
theorem parseValue_word {word r : JsString} {v : Json M} {c : CodeUnit} {rest : JsString}
    (hword : word = c :: rest) (hc : c = unit 'n' ∨ c = unit 't' ∨ c = unit 'f')
    (hliteral : parseLiteral (word ++ r) = some (v, r)) (fuel : Nat) :
    parseValue read (fuel + 1) (word ++ r) = some (v, r) := by
  rw [hword, List.cons_append] at hliteral ⊢
  have hplain : isSpace c = false ∧ c ≠ unit '\x7b' ∧ c ≠ unit '[' ∧ c ≠ unit '"' ∧
      ¬ (c = unit '-' ∨ isDigit c = true) := by
    rcases hc with rfl | rfl | rfl <;> decide
  obtain ⟨hspace, h1, h2, h3, h4⟩ := hplain
  unfold parseValue
  rw [skipSpace_cons hspace]
  simp only [if_neg h1, if_neg h2, if_neg h3, if_neg h4]
  exact hliteral

theorem parseValue_number (hreads : ReadsNumbers render read f) (n : N) :
    ReadsValue render read f (.number n) := by
  intro fuel r hfuel hr
  obtain ⟨c, rest, heq, hc⟩ := hreads.head n
  obtain ⟨literal, hparse, hread⟩ := hreads n r hr
  have hlength : (stringify render (.number n)).length = rest.length + 1 := by
    show (render n).length = _
    rw [heq]
    rfl
  obtain ⟨fuel, rfl⟩ : ∃ k, fuel = k + 1 := ⟨fuel - 1, by omega⟩
  show parseValue read (fuel + 1) (render n ++ r) = some (.number (f n), r)
  rw [heq, List.cons_append] at hparse ⊢
  have hplain : isSpace c = false ∧ c ≠ unit '\x7b' ∧ c ≠ unit '[' ∧ c ≠ unit '"' := by
    have hdigit : isDigit c = true → ∀ d : CodeUnit, isDigit d = false → c ≠ d := by
      rintro hd d hd' rfl
      rw [hd] at hd'
      cases hd'
    rcases hc with rfl | hd
    · decide
    · exact ⟨(Starts.plain (Or.inr (Or.inl hd))).1, hdigit hd _ (by decide), hdigit hd _ (by decide),
        hdigit hd _ (by decide)⟩
  unfold parseValue
  rw [skipSpace_cons hplain.1]
  simp only [if_neg hplain.2.1, if_neg hplain.2.2.1, if_neg hplain.2.2.2, if_pos hc, hparse,
    Option.map_some, hread]

theorem parseValue_string (s : JsString) : ReadsValue render read f (.string s) := by
  intro fuel r hfuel hr
  have hlength : 1 ≤ (stringify render (.string s)).length := Nat.succ_le_succ (Nat.zero_le _)
  obtain ⟨fuel, rfl⟩ : ∃ k, fuel = k + 1 := ⟨fuel - 1, by omega⟩
  show parseValue read (fuel + 1) (quote s ++ r) = some (.string s, r)
  obtain ⟨rest, heq, hparse⟩ := parseString_quote_append s r
  have h1 : unit '"' ≠ unit '\x7b' := by decide
  have h2 : unit '"' ≠ unit '[' := by decide
  rw [heq]
  unfold parseValue
  rw [skipSpace_cons (by decide)]
  simp only [if_neg h1, if_neg h2, if_true, hparse, Option.map_some]

theorem parseValue_bracket {text rest : JsString} {d : CodeUnit} (htext : skipSpace text = d :: rest)
    (hd : d ≠ unit ']') (fuel : Nat) : parseValue read (fuel + 1) (unit '[' :: text) =
      (parseElements read fuel text).map fun p => (.array p.1, p.2) := by
  have h1 : unit '[' ≠ unit '\x7b' := by decide
  rw [parseValue, skipSpace_cons (by decide)]
  simp only [if_neg h1, if_true, htext, if_neg hd]

theorem parseValue_brace {text rest : JsString} {d : CodeUnit} (htext : skipSpace text = d :: rest)
    (hd : d ≠ unit '\x7d') (fuel : Nat) : parseValue read (fuel + 1) (unit '\x7b' :: text) =
      (parseMembers read fuel text).map fun p => (.object p.1, p.2) := by
  rw [parseValue, skipSpace_cons (by decide)]
  simp only [if_true, htext, if_neg hd]

theorem parseElements_next {fuel : Nat} {text rest : JsString} {v : Json M}
    (hv : parseValue read fuel text = some (v, unit ',' :: rest)) :
    parseElements read (fuel + 1) text =
      (parseElements read fuel rest).map fun p => (v :: p.1, p.2) := by
  rw [parseElements, hv]
  simp only [skipSpace_cons (show isSpace (unit ',') = false by decide), if_true]

theorem parseElements_last {fuel : Nat} {text rest : JsString} {v : Json M}
    (hv : parseValue read fuel text = some (v, unit ']' :: rest)) :
    parseElements read (fuel + 1) text = some ([v], rest) := by
  have h1 : unit ']' ≠ unit ',' := by decide
  rw [parseElements, hv]
  simp only [skipSpace_cons (show isSpace (unit ']') = false by decide), if_neg h1, if_true]

theorem parseMembers_next {fuel : Nat} {key text rest : JsString} {v : Json M}
    (hv : parseValue read fuel text = some (v, unit ',' :: rest)) :
    parseMembers read (fuel + 1) (quote key ++ unit ':' :: text) =
      (parseMembers read fuel rest).map fun p => ((key, v) :: p.1, p.2) := by
  obtain ⟨tail, heq, hkey⟩ := parseString_quote_append key (unit ':' :: text)
  rw [heq, parseMembers, skipSpace_cons (by decide)]
  simp only [if_true, hkey, skipSpace_cons (show isSpace (unit ':') = false by decide), hv,
    skipSpace_cons (show isSpace (unit ',') = false by decide)]

theorem parseMembers_last {fuel : Nat} {key text rest : JsString} {v : Json M}
    (hv : parseValue read fuel text = some (v, unit '\x7d' :: rest)) :
    parseMembers read (fuel + 1) (quote key ++ unit ':' :: text) = some ([(key, v)], rest) := by
  have h1 : unit '\x7d' ≠ unit ',' := by decide
  obtain ⟨tail, heq, hkey⟩ := parseString_quote_append key (unit ':' :: text)
  rw [heq, parseMembers, skipSpace_cons (by decide)]
  simp only [if_true, hkey, skipSpace_cons (show isSpace (unit ':') = false by decide), hv,
    skipSpace_cons (show isSpace (unit '\x7d') = false by decide), if_neg h1]

mutual

/-- **What has been written is read back**, wherever it stands. -/
theorem parseValue_stringify (hreads : ReadsNumbers render read f) :
    ∀ v : Json N, ReadsValue render read f v
  | .null => fun fuel r hfuel _ => by
    obtain ⟨fuel, rfl⟩ : ∃ k, fuel = k + 1 := ⟨fuel - 1, by have : 8 ≤ fuel := hfuel; omega⟩
    exact parseValue_word rfl (Or.inl rfl) rfl fuel
  | .bool true => fun fuel r hfuel _ => by
    obtain ⟨fuel, rfl⟩ : ∃ k, fuel = k + 1 := ⟨fuel - 1, by have : 8 ≤ fuel := hfuel; omega⟩
    exact parseValue_word rfl (Or.inr (Or.inl rfl)) rfl fuel
  | .bool false => fun fuel r hfuel _ => by
    obtain ⟨fuel, rfl⟩ : ∃ k, fuel = k + 1 := ⟨fuel - 1, by have : 10 ≤ fuel := hfuel; omega⟩
    exact parseValue_word rfl (Or.inr (Or.inr rfl)) rfl fuel
  | .number n => parseValue_number hreads n
  | .string s => parseValue_string s
  | .array [] => fun fuel r hfuel _ => by
    obtain ⟨fuel, rfl⟩ : ∃ k, fuel = k + 1 := ⟨fuel - 1, by have : 4 ≤ fuel := hfuel; omega⟩
    rfl
  | .array (v :: vs) => fun fuel r hfuel _ => by
    have hv := parseValue_stringify hreads v
    have hlength : (stringify render (.array (v :: vs))).length =
        (stringify render v).length + (stringifyElements render vs).length + 1 := by
      simp only [stringify, List.length_cons, List.length_append]
    obtain ⟨fuel, rfl⟩ : ∃ k, fuel = k + 1 := ⟨fuel - 1, by omega⟩
    have helements := parseElements_stringify hreads vs v hv fuel r (by omega)
    obtain ⟨c, rest, heq, hc⟩ := hreads.starts v
    have hskip : skipSpace (stringify render v ++ (stringifyElements render vs ++ r)) =
        c :: (rest ++ (stringifyElements render vs ++ r)) := by
      rw [heq]
      exact skipSpace_cons hc.plain.1 _
    simp only [stringify, List.cons_append, List.append_assoc]
    rw [parseValue_bracket hskip hc.plain.2.1, helements]
    simp only [Option.map_some, map, mapElements]
  | .object [] => fun fuel r hfuel _ => by
    obtain ⟨fuel, rfl⟩ : ∃ k, fuel = k + 1 := ⟨fuel - 1, by have : 4 ≤ fuel := hfuel; omega⟩
    rfl
  | .object ((key, v) :: members) => fun fuel r hfuel _ => by
    have hv := parseValue_stringify hreads v
    have hlength : (stringify render (.object ((key, v) :: members))).length =
        (quote key).length + (stringify render v).length +
          (stringifyMembers render members).length + 2 := by
      simp only [stringify, List.length_cons, List.length_append]
      omega
    obtain ⟨fuel, rfl⟩ : ∃ k, fuel = k + 1 := ⟨fuel - 1, by omega⟩
    have hmembers := parseMembers_stringify hreads members key v hv fuel r (by omega)
    obtain ⟨tail, heq, -⟩ := parseString_quote_append key
      (unit ':' :: (stringify render v ++ (stringifyMembers render members ++ r)))
    have hskip : skipSpace (quote key ++
        unit ':' :: (stringify render v ++ (stringifyMembers render members ++ r))) =
        unit '"' :: tail := by
      rw [heq]
      exact skipSpace_cons (by decide) _
    simp only [stringify, List.cons_append, List.append_assoc]
    rw [parseValue_brace hskip (by decide), hmembers]
    simp only [Option.map_some, map, mapMembers]

/-- The elements of an array, the first apart. -/
theorem parseElements_stringify (hreads : ReadsNumbers render read f) :
    ∀ (vs : List (Json N)) (v : Json N), ReadsValue render read f v → ∀ fuel r,
      2 * ((stringify render v).length + (stringifyElements render vs).length) ≤ fuel →
      parseElements read fuel (stringify render v ++ (stringifyElements render vs ++ r)) =
        some (map f v :: mapElements f vs, r)
  | [], v, hv, fuel, r, hfuel => by
    have hlength : (stringifyElements render ([] : List (Json N))).length = 1 := rfl
    obtain ⟨fuel, rfl⟩ : ∃ k, fuel = k + 1 := ⟨fuel - 1, by omega⟩
    exact parseElements_last (hv fuel _ (by omega) (stringifyElements_ends [] r))
  | v' :: vs, v, hv, fuel, r, hfuel => by
    have hv' := parseValue_stringify hreads v'
    have hlength : (stringifyElements render (v' :: vs)).length =
        (stringify render v').length + (stringifyElements render vs).length + 1 := by
      simp only [stringifyElements, List.length_cons, List.length_append]
    obtain ⟨fuel, rfl⟩ : ∃ k, fuel = k + 1 := ⟨fuel - 1, by omega⟩
    have hfirst := hv fuel (stringifyElements render (v' :: vs) ++ r) (by omega)
      (stringifyElements_ends (v' :: vs) r)
    simp only [stringifyElements, List.cons_append, List.append_assoc] at hfirst ⊢
    rw [parseElements_next hfirst, parseElements_stringify hreads vs v' hv' fuel r (by omega)]
    rfl

/-- The members of an object, the first apart. -/
theorem parseMembers_stringify (hreads : ReadsNumbers render read f) :
    ∀ (members : List (JsString × Json N)) (key : JsString) (v : Json N),
      ReadsValue render read f v → ∀ fuel r,
      2 * ((quote key).length + (stringify render v).length +
        (stringifyMembers render members).length) ≤ fuel →
      parseMembers read fuel (quote key ++
          unit ':' :: (stringify render v ++ (stringifyMembers render members ++ r))) =
        some ((key, map f v) :: mapMembers f members, r)
  | [], key, v, hv, fuel, r, hfuel => by
    have hlength : (stringifyMembers render ([] : List (JsString × Json N))).length = 1 := rfl
    obtain ⟨fuel, rfl⟩ : ∃ k, fuel = k + 1 := ⟨fuel - 1, by omega⟩
    exact parseMembers_last (hv fuel _ (by omega) (stringifyMembers_ends [] r))
  | (key', v') :: members, key, v, hv, fuel, r, hfuel => by
    have hv' := parseValue_stringify hreads v'
    have hlength : (stringifyMembers render ((key', v') :: members)).length =
        (quote key').length + (stringify render v').length +
          (stringifyMembers render members).length + 2 := by
      simp only [stringifyMembers, List.length_cons, List.length_append]
      omega
    obtain ⟨fuel, rfl⟩ : ∃ k, fuel = k + 1 := ⟨fuel - 1, by omega⟩
    have hfirst := hv fuel (stringifyMembers render ((key', v') :: members) ++ r) (by omega)
      (stringifyMembers_ends ((key', v') :: members) r)
    simp only [stringifyMembers, List.cons_append, List.append_assoc] at hfirst ⊢
    rw [parseMembers_next hfirst, parseMembers_stringify hreads members key' v' hv' fuel r (by omega)]
    rfl

end

/-- **Round trip.** -/
theorem parse_stringify (hreads : ReadsNumbers render read f) (v : Json N) :
    parse read (stringify render v) = some (map f v) := by
  have hvalue := parseValue_stringify hreads v (2 * (stringify render v).length + 2) [] (by omega)
    ends_nil
  rw [List.append_nil] at hvalue
  unfold parse
  rw [hvalue]
  rfl

end

/-! ## The fuel of the reader -/

section

variable {N : Type} {read : NumberLiteral → N}

end

/-! ## What is written has no lone surrogate -/

def wellFormed : JsString → Bool
  | [] => true
  | c :: rest =>
    if isHighSurrogate c then
      match rest with
      | [] => false
      | d :: rest' => isLowSurrogate d && wellFormed rest'
    else if isLowSurrogate c then false
    else wellFormed rest

/-- Every lone surrogate is replaced by `U+FFFD`. -/
def toWellFormed : JsString → JsString
  | [] => []
  | c :: rest =>
    if isHighSurrogate c then
      match rest with
      | [] => [0xFFFD]
      | d :: rest' =>
        if isLowSurrogate d then c :: d :: toWellFormed rest' else 0xFFFD :: toWellFormed (d :: rest')
    else if isLowSurrogate c then 0xFFFD :: toWellFormed rest
    else c :: toWellFormed rest

theorem toWellFormed_eq {text : JsString} (h : wellFormed text = true) : toWellFormed text = text := by
  fun_induction toWellFormed text with
  | case1 => rfl
  | case2 c hhigh =>
    rw [wellFormed.eq_def] at h
    simp only [if_pos hhigh] at h
    cases h
  | case3 c hhigh d rest hlow ih =>
    rw [wellFormed.eq_def] at h
    simp only [if_pos hhigh, Bool.and_eq_true] at h
    rw [ih h.2]
  | case4 c hhigh d rest hlow ih =>
    rw [wellFormed.eq_def] at h
    simp only [if_pos hhigh, Bool.and_eq_true] at h
    exact absurd h.1 hlow
  | case5 c rest hhigh hlow ih =>
    rw [wellFormed.eq_def] at h
    simp only [if_neg hhigh, if_pos hlow] at h
    cases h
  | case6 c rest hhigh hlow ih =>
    rw [wellFormed.eq_def] at h
    simp only [if_neg hhigh, if_neg hlow] at h
    rw [ih h]

theorem wellFormed_toWellFormed (text : JsString) : wellFormed (toWellFormed text) = true := by
  have hreplaced : ∀ rest, wellFormed (0xFFFD :: rest) = wellFormed rest := by
    intro rest
    have hhigh : ¬ isHighSurrogate 0xFFFD = true := by decide
    have hlow : ¬ isLowSurrogate 0xFFFD = true := by decide
    rw [wellFormed.eq_def]
    simp only [if_neg hhigh, if_neg hlow]
  fun_induction toWellFormed text with
  | case1 => rfl
  | case2 c hhigh => decide
  | case3 c hhigh d rest hlow ih =>
    rw [wellFormed.eq_def]
    simp only [if_pos hhigh, Bool.and_eq_true]
    exact ⟨hlow, ih⟩
  | case4 c hhigh d rest hlow ih =>
    rw [hreplaced]
    exact ih
  | case5 c rest hhigh hlow ih =>
    rw [hreplaced]
    exact ih
  | case6 c rest hhigh hlow ih =>
    rw [wellFormed.eq_def]
    simp only [if_neg hhigh, if_neg hlow]
    exact ih

theorem toWellFormed_eq_iff {text : JsString} : toWellFormed text = text ↔ wellFormed text = true :=
  ⟨fun h => h ▸ wellFormed_toWellFormed text, toWellFormed_eq⟩

/-- A text that does not begin with the second half of a pair is replaced on its own. -/
theorem toWellFormed_append (text : JsString) {c : CodeUnit} (hc : ¬ isLowSurrogate c = true)
    (rest : JsString) :
    toWellFormed (text ++ c :: rest) = toWellFormed text ++ toWellFormed (c :: rest) := by
  fun_induction toWellFormed text with
  | case1 => rfl
  | case2 d hhigh =>
    show toWellFormed (d :: c :: rest) = _
    rw [toWellFormed.eq_def]
    simp only [if_pos hhigh, if_neg hc]
    rfl
  | case3 d hhigh d' text hlow ih =>
    show toWellFormed (d :: d' :: (text ++ c :: rest)) = _
    rw [toWellFormed.eq_def]
    simp only [if_pos hhigh, if_pos hlow, ih]
    rfl
  | case4 d hhigh d' text hlow ih =>
    show toWellFormed (d :: d' :: (text ++ c :: rest)) = _
    rw [toWellFormed.eq_def]
    simp only [if_pos hhigh, if_neg hlow]
    exact congrArg _ ih
  | case5 d text hhigh hlow ih =>
    show toWellFormed (d :: (text ++ c :: rest)) = _
    rw [toWellFormed.eq_def]
    simp only [if_neg hhigh, if_pos hlow, ih]
    rfl
  | case6 d text hhigh hlow ih =>
    show toWellFormed (d :: (text ++ c :: rest)) = _
    rw [toWellFormed.eq_def]
    simp only [if_neg hhigh, if_neg hlow, ih]
    rfl

theorem wellFormed_append {text text' : JsString} (h : wellFormed text = true)
    (h' : wellFormed text' = true) : wellFormed (text ++ text') = true := by
  fun_induction wellFormed text with
  | case1 => exact h'
  | case2 c hhigh => cases h
  | case3 c hhigh d rest ih =>
    rw [wellFormed.eq_def]
    simp only [List.cons_append, if_pos hhigh, Bool.and_eq_true] at h ⊢
    exact ⟨h.1, ih h.2⟩
  | case4 c rest hhigh hlow => cases h
  | case5 c rest hhigh hlow ih =>
    rw [wellFormed.eq_def]
    simp only [List.cons_append, if_neg hhigh, if_neg hlow]
    exact ih h

def isPlain (c : CodeUnit) : Bool := !isHighSurrogate c && !isLowSurrogate c

theorem wellFormed_plain {text : JsString} (h : ∀ c ∈ text, isPlain c = true) :
    wellFormed text = true := by
  induction text with
  | nil => rfl
  | cons c rest ih =>
    have hc := h c List.mem_cons_self
    simp only [isPlain, Bool.and_eq_true, Bool.not_eq_true'] at hc
    rw [wellFormed.eq_def]
    simp only [hc.1, hc.2, Bool.false_eq_true, if_false]
    exact ih fun d hd => h d (List.mem_cons_of_mem c hd)

theorem wellFormed_cons {c : CodeUnit} {text : JsString} (hc : isPlain c = true)
    (h : wellFormed text = true) : wellFormed (c :: text) = true :=
  wellFormed_append (wellFormed_plain (List.forall_mem_singleton.2 hc)) h

theorem hexDigit_plain : ∀ n < 16, isPlain (hexDigit n) = true := by decide

theorem unicodeEscape_wellFormed (c : CodeUnit) : wellFormed (unicodeEscape c) = true := by
  have hlt := c.isLt
  refine wellFormed_plain fun d hd => ?_
  simp only [unicodeEscape, List.mem_cons, List.not_mem_nil, or_false] at hd
  rcases hd with rfl | rfl | rfl | rfl | rfl | rfl
  · decide
  · decide
  all_goals exact hexDigit_plain _ (by omega)

theorem escape_wellFormed {c : CodeUnit} (hhigh : ¬ isHighSurrogate c = true)
    (hlow : ¬ isLowSurrogate c = true) : wellFormed (escape c) = true := by
  have hc : isPlain c = true := by
    simp only [isPlain, Bool.and_eq_true, Bool.not_eq_true', Bool.not_eq_true] at hhigh hlow ⊢
    exact ⟨hhigh, hlow⟩
  unfold escape
  cases hshort : shortEscape c with
  | some letter =>
    have hletter : isPlain letter = true := by
      unfold shortEscape at hshort
      split_ifs at hshort
      all_goals cases hshort
      all_goals first | decide | exact hc
    refine wellFormed_plain fun d hd => ?_
    simp only [List.mem_cons, List.not_mem_nil, or_false] at hd
    rcases hd with rfl | rfl
    · decide
    · exact hletter
  | none =>
    simp only
    split
    · exact unicodeEscape_wellFormed c
    · exact wellFormed_plain fun d hd => (List.mem_singleton.1 hd) ▸ hc

theorem quoteUnits_wellFormed (s : JsString) : wellFormed (quoteUnits s) = true := by
  fun_induction quoteUnits s with
  | case1 => rfl
  | case2 c hhigh => exact unicodeEscape_wellFormed c
  | case3 c hhigh d rest hlow ih =>
    rw [wellFormed.eq_def]
    simp only [if_pos hhigh, Bool.and_eq_true]
    exact ⟨hlow, ih⟩
  | case4 c hhigh d rest hlow ih => exact wellFormed_append (unicodeEscape_wellFormed c) ih
  | case5 c rest hhigh hlow ih => exact wellFormed_append (unicodeEscape_wellFormed c) ih
  | case6 c rest hhigh hlow ih => exact wellFormed_append (escape_wellFormed hhigh hlow) ih

theorem quote_wellFormed (s : JsString) : wellFormed (quote s) = true :=
  wellFormed_cons (by decide) (wellFormed_append (quoteUnits_wellFormed s) (by decide))

section

variable {N : Type} {render : N → JsString}

mutual

theorem stringify_wellFormed (hrender : ∀ n, wellFormed (render n) = true) :
    ∀ v : Json N, wellFormed (stringify render v) = true
  | .null => by
    simp only [stringify]
    decide
  | .bool true => by
    simp only [stringify]
    decide
  | .bool false => by
    simp only [stringify]
    decide
  | .number n => hrender n
  | .string s => quote_wellFormed s
  | .array [] => by
    simp only [stringify]
    decide
  | .array (v :: vs) => wellFormed_cons (by decide)
      (wellFormed_append (stringify_wellFormed hrender v) (stringifyElements_wellFormed hrender vs))
  | .object [] => by
    simp only [stringify]
    decide
  | .object ((key, v) :: members) => wellFormed_cons (by decide)
      (wellFormed_append (quote_wellFormed key) (wellFormed_cons (by decide)
        (wellFormed_append (stringify_wellFormed hrender v)
          (stringifyMembers_wellFormed hrender members))))

theorem stringifyElements_wellFormed (hrender : ∀ n, wellFormed (render n) = true) :
    ∀ vs : List (Json N), wellFormed (stringifyElements render vs) = true
  | [] => by
    simp only [stringifyElements]
    decide
  | v :: vs => wellFormed_cons (by decide)
      (wellFormed_append (stringify_wellFormed hrender v) (stringifyElements_wellFormed hrender vs))

theorem stringifyMembers_wellFormed (hrender : ∀ n, wellFormed (render n) = true) :
    ∀ members : List (JsString × Json N), wellFormed (stringifyMembers render members) = true
  | [] => by
    simp only [stringifyMembers]
    decide
  | (key, v) :: members => wellFormed_cons (by decide)
      (wellFormed_append (quote_wellFormed key) (wellFormed_cons (by decide)
        (wellFormed_append (stringify_wellFormed hrender v)
          (stringifyMembers_wellFormed hrender members))))

end

end

end Json

end LocalFirst
