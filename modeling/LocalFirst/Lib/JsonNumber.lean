import LocalFirst.Crdt.Identity
import LocalFirst.Lib.Json
import Mathlib.Data.Int.Log
import Mathlib.Data.Rat.Floor

/-!
# The numbers of a JSON text

A number of a text is read as the double that is closest to it, ties going to the even one.

* `toDouble` — the double closest to a rational number.
* `decimal_reads` — an integer that is written in decimal is read as the double closest to it.
* `toDouble_safe` — a safe integer is a double.
-/

set_option autoImplicit false

namespace LocalFirst

/-- A number: finite, or beyond the largest double.  Zero has no sign. -/
inductive JsNumber where
  | finite (q : ℚ)
  | infinite (negative : Bool)
  deriving DecidableEq

/-- `Number.isInteger`, with the integer. -/
def JsNumber.integer : JsNumber → Option Int
  | .finite q => if q.den = 1 then some q.num else none
  | .infinite _ => none

/-- The integer closest to a number, the even one of two. -/
def roundHalfEven (q : ℚ) : Int :=
  let rest := q - ⌊q⌋
  if rest < 1 / 2 then ⌊q⌋
  else if 1 / 2 < rest then ⌊q⌋ + 1
  else if ⌊q⌋ % 2 = 0 then ⌊q⌋
  else ⌊q⌋ + 1

/-- The exponent of the last of the 53 binary places of a number; numbers close to zero have fewer. -/
def lastPlace (q : ℚ) : Int := max (Int.log 2 |q| - 52) (-1074)

/-- The double closest to a number. -/
def toDouble (q : ℚ) : JsNumber :=
  let rounded : ℚ := roundHalfEven (q / 2 ^ lastPlace q) * 2 ^ lastPlace q
  if 2 ^ 1024 ≤ |rounded| then .infinite (decide (q < 0)) else .finite rounded

def NumberLiteral.value (literal : NumberLiteral) : ℚ :=
  (if literal.negative then -1 else 1) * literal.mantissa * 10 ^ literal.exponent

/-- What a number of a text is read as. -/
def NumberLiteral.toNumber (literal : NumberLiteral) : JsNumber := toDouble literal.value

/-- What an integer is read as when it has been written. -/
def ofInteger (n : Int) : JsNumber := toDouble n

/-! ## Safe integers -/

theorem roundHalfEven_intCast (n : Int) : roundHalfEven n = n := by
  unfold roundHalfEven
  rw [Int.floor_intCast, sub_self]
  exact if_pos (by norm_num)

/-- **A safe integer is a double.** -/
theorem toDouble_safe {n : Int} (h : isSafeInteger n = true) : toDouble n = .finite n := by
  obtain ⟨hlow, hhigh⟩ := of_decide_eq_true h
  unfold MAX_SAFE_INTEGER at hlow hhigh
  have habs : |(n : ℚ)| < 2 ^ 53 := by
    rw [abs_lt]
    constructor
    · have : (-2 ^ 53 : Int) < n := by omega
      exact_mod_cast this
    · have : n < (2 ^ 53 : Int) := by omega
      exact_mod_cast this
  -- the last place is not above that of one
  have hplace : lastPlace n ≤ 0 := by
    unfold lastPlace
    rcases eq_or_lt_of_le (abs_nonneg (n : ℚ)) with hzero | hpos
    · rw [← hzero, Int.log_zero_right]
      decide
    · have hlog : Int.log 2 |(n : ℚ)| < 53 := (Int.lt_zpow_iff_log_lt (by norm_num) hpos).1 (by
        exact_mod_cast habs)
      omega
  obtain ⟨k, hk⟩ : ∃ k : ℕ, lastPlace n = -k := ⟨(-lastPlace n).toNat, by omega⟩
  have hpow : (2 : ℚ) ^ k ≠ 0 := pow_ne_zero k two_ne_zero
  have hscaled : (n : ℚ) / 2 ^ lastPlace n = ((n * 2 ^ k : Int) : ℚ) := by
    rw [hk, zpow_neg, zpow_natCast, div_inv_eq_mul]
    push_cast
    rfl
  have hrounded : (roundHalfEven ((n : ℚ) / 2 ^ lastPlace n) : ℚ) * 2 ^ lastPlace n = n := by
    rw [hscaled, roundHalfEven_intCast, hk, zpow_neg, zpow_natCast]
    push_cast
    exact mul_inv_cancel_right₀ hpow _
  unfold toDouble
  simp only [hrounded]
  exact if_neg (not_le.2 (habs.trans (pow_lt_pow_right₀ (by norm_num) (by norm_num))))

theorem integer_ofInteger {n : Int} (h : isSafeInteger n = true) :
    (ofInteger n).integer = some n := by
  unfold ofInteger
  rw [toDouble_safe h]
  unfold JsNumber.integer
  simp

theorem le_roundHalfEven {m : Int} {q : ℚ} (h : m ≤ q) : m ≤ roundHalfEven q := by
  have hfloor : m ≤ ⌊q⌋ := Int.le_floor.2 h
  unfold roundHalfEven
  simp only
  split_ifs <;> omega

theorem roundHalfEven_le {m : Int} {q : ℚ} (h : q ≤ m) : roundHalfEven q ≤ m := by
  rcases eq_or_lt_of_le h with rfl | hlt
  · rw [roundHalfEven_intCast]
  · have hfloor : ⌊q⌋ < m := Int.floor_lt.2 hlt
    unfold roundHalfEven
    simp only
    split_ifs <;> omega

/-- An integer that is not safe is not read as a safe one. -/
theorem ofInteger_not_safe {n k : Int} (h : isSafeInteger n = false)
    (hk : (ofInteger n).integer = some k) : isSafeInteger k = false := by
  have habs : (2 : ℚ) ^ (53 : Int) ≤ |(n : ℚ)| := by
    have hn : ¬ (-MAX_SAFE_INTEGER ≤ n ∧ n ≤ MAX_SAFE_INTEGER) := of_decide_eq_false h
    unfold MAX_SAFE_INTEGER at hn
    rw [le_abs]
    rcases le_total 0 n with hpos | hneg
    · have : (2 ^ 53 : Int) ≤ n := by omega
      exact Or.inl (by exact_mod_cast this)
    · have : (2 ^ 53 : Int) ≤ -n := by omega
      exact Or.inr (by exact_mod_cast this)
  have hpos : 0 < |(n : ℚ)| := lt_of_lt_of_le (zpow_pos two_pos 53) habs
  have hlog : 53 ≤ Int.log 2 |(n : ℚ)| := (Int.zpow_le_iff_le_log (by norm_num) hpos).1 (by
    exact_mod_cast habs)
  have hplace : lastPlace n = Int.log 2 |(n : ℚ)| - 52 := max_eq_left (by omega)
  have hunit : (2 : ℚ) ≤ 2 ^ lastPlace n := by
    calc (2 : ℚ) = 2 ^ (1 : Int) := (zpow_one 2).symm
      _ ≤ 2 ^ lastPlace n := zpow_le_zpow_right₀ one_le_two (by omega)
  have hunit_pos : (0 : ℚ) < 2 ^ lastPlace n := zpow_pos two_pos _
  -- there are 53 places before the last one
  have hscaled : (2 ^ 52 : ℚ) * 2 ^ lastPlace n ≤ |(n : ℚ)| := by
    have hself := Int.zpow_log_le_self (b := 2) (by norm_num) hpos
    calc (2 ^ 52 : ℚ) * 2 ^ lastPlace n = 2 ^ Int.log 2 |(n : ℚ)| := by
          rw [hplace, ← zpow_natCast, ← zpow_add₀ two_ne_zero]
          congr 1
          push_cast
          omega
      _ ≤ |(n : ℚ)| := by exact_mod_cast hself
  have hrounded : (2 ^ 52 : Int) ≤ |roundHalfEven ((n : ℚ) / 2 ^ lastPlace n)| := by
    rw [le_abs]
    rcases le_abs.1 hscaled with hle | hle
    · refine Or.inl (le_roundHalfEven ?_)
      rw [le_div_iff₀ hunit_pos]
      exact_mod_cast hle
    · have : roundHalfEven ((n : ℚ) / 2 ^ lastPlace n) ≤ -2 ^ 52 := by
        refine roundHalfEven_le ?_
        rw [div_le_iff₀ hunit_pos]
        push_cast
        linarith
      exact Or.inr (by omega)
  unfold ofInteger toDouble at hk
  simp only at hk
  split at hk
  · cases hk
  · simp only [JsNumber.integer, Option.ite_none_right_eq_some, Option.some.injEq] at hk
    obtain ⟨hden, hnum⟩ := hk
    have hvalue : (k : ℚ) = roundHalfEven ((n : ℚ) / 2 ^ lastPlace n) * 2 ^ lastPlace n := by
      rw [← hnum]
      exact Rat.coe_int_num_of_den_eq_one hden
    have hlarge : (2 ^ 53 : ℚ) ≤ |(k : ℚ)| := by
      rw [hvalue, abs_mul, abs_of_pos hunit_pos]
      have hrounded' : (2 ^ 52 : ℚ) ≤ |(roundHalfEven ((n : ℚ) / 2 ^ lastPlace n) : ℚ)| := by
        exact_mod_cast hrounded
      calc (2 ^ 53 : ℚ) = 2 ^ 52 * 2 := by norm_num
        _ ≤ _ := mul_le_mul hrounded' hunit (by norm_num) (abs_nonneg _)
    have hlarge : (2 ^ 53 : Int) ≤ |k| := by exact_mod_cast hlarge
    refine decide_eq_false ?_
    unfold MAX_SAFE_INTEGER
    rintro ⟨hlow, hhigh⟩
    have := abs_le.2 ⟨hlow, hhigh⟩
    omega

/-- A check that only safe integers pass gives the same on the double. -/
theorem filter_ofInteger {p : Int → Bool} (hp : ∀ n, p n = true → isSafeInteger n = true) (n : Int) :
    (ofInteger n).integer.filter p = if p n then some n else none := by
  by_cases hsafe : isSafeInteger n = true
  · rw [integer_ofInteger hsafe]
    rfl
  · have hn : p n ≠ true := fun h => hsafe (hp n h)
    rw [if_neg hn]
    cases hk : (ofInteger n).integer with
    | none => rfl
    | some k =>
      have hk' : p k ≠ true := by
        intro h
        rw [Bool.not_eq_true] at hsafe
        have := ofInteger_not_safe hsafe hk
        rw [hp k h] at this
        cases this
      exact Option.filter_some_neg (Bool.not_eq_true _ ▸ hk')

/-! ## Decimal integers -/

theorem isDigit_of_digit {c : Char} (h : c.isDigit = true) :
    Json.isDigit (Fin.ofNat 65536 c.toNat) = true ∧
      Json.digitVal (Fin.ofNat 65536 c.toNat) = c.toNat - 48 := by
  obtain ⟨-, hlow, hhigh⟩ := codeUnits_digit h
  have hval : (Fin.ofNat 65536 c.toNat).val = c.toNat := Nat.mod_eq_of_lt (by omega)
  unfold Json.isDigit Json.digitVal
  rw [hval]
  exact ⟨by simp [hlow, hhigh], rfl⟩

theorem digitsVal_decimal (n : Nat) : Json.digitsVal (decimal n) = n := by
  have hdigits : ∀ (cs : List Char), (∀ c ∈ cs, c.isDigit = true) → ∀ init,
      (cs.map fun c => Fin.ofNat 65536 c.toNat).foldl (fun n d => 10 * n + Json.digitVal d) init =
        Nat.ofDigitChars 10 cs init := by
    intro cs hcs
    induction cs with
    | nil => exact fun init => rfl
    | cons c cs ih =>
      intro init
      rw [List.map_cons, List.foldl_cons, (isDigit_of_digit (hcs c List.mem_cons_self)).2,
        ih fun c' hc' => hcs c' (List.mem_cons_of_mem c hc')]
      rfl
  unfold Json.digitsVal
  rw [decimal_ofNat, hdigits _ (fun c hc => Nat.isDigit_of_mem_toDigits (by omega) (by omega) hc),
    Nat.ofDigitChars_ten_toDigits]

theorem decimal_digits (n : Nat) : ∀ c ∈ decimal n, Json.isDigit c = true := by
  intro c hc
  rw [decimal_ofNat, List.mem_map] at hc
  obtain ⟨c, hc, rfl⟩ := hc
  exact (isDigit_of_digit (Nat.isDigit_of_mem_toDigits (by omega) (by omega) hc)).1

/-- Only zero begins with a zero. -/
theorem toDigits_head {n : Nat} (hn : 1 ≤ n) : ∃ c cs, Nat.toDigits 10 n = c :: cs ∧ c ≠ '0' := by
  induction n using Nat.strong_induction_on with
  | _ n ih =>
    by_cases hlt : n < 10
    · refine ⟨_, [], Nat.toDigits_of_lt_base hlt, ?_⟩
      have hall : ∀ m < 10, 1 ≤ m → m.digitChar ≠ '0' := by decide
      exact hall n hlt hn
    · obtain ⟨c, cs, heq, hc⟩ := ih (n / 10) (by omega) (by omega)
      refine ⟨c, cs ++ [(n % 10).digitChar], ?_, hc⟩
      rw [Nat.toDigits_of_base_le (by omega) (by omega), heq]
      rfl

theorem decimal_zero {n : Nat} {rest : JsString} (h : decimal n = Json.unit '0' :: rest) :
    rest = [] := by
  rcases Nat.eq_zero_or_pos n with rfl | hpos
  · have hzero : decimal (0 : Nat) = [Json.unit '0'] := by decide
    rw [hzero] at h
    exact (List.cons.inj h).2.symm
  · obtain ⟨c, cs, heq, hc⟩ := toDigits_head hpos
    have hdigit : c.isDigit = true :=
      Nat.isDigit_of_mem_toDigits (b := 10) (n := n) (by omega) (by omega) (by rw [heq]; simp)
    rw [decimal_ofNat, heq, List.map_cons] at h
    have hval : c.toNat % 65536 = 48 := congrArg Fin.val (List.cons.inj h).1
    obtain ⟨-, hlow, hhigh⟩ := codeUnits_digit hdigit
    exact absurd (Char.toNat_inj.1 (show c.toNat = '0'.toNat by
      show c.toNat = 48
      omega)) hc

theorem decimal_ne_nil (n : Nat) : decimal n ≠ [] := by
  rw [decimal_ofNat]
  simp [Nat.toDigits_ne_nil]

/-- **An integer that is written in decimal is read as the double closest to it.** -/
theorem decimal_reads :
    Json.ReadsNumbers decimal NumberLiteral.toNumber ofInteger := by
  intro n r hr
  have hdigits := fun (negative : Bool) (m : Nat) => Json.parseUnsigned_digits negative
    (decimal_ne_nil m) (decimal_digits m) (fun rest h => decimal_zero h) hr
  cases n with
  | ofNat m =>
    refine ⟨⟨false, m, 0⟩, ?_, ?_⟩
    · have hparse := hdigits false m
      rw [digitsVal_decimal] at hparse
      obtain ⟨c, cs, hcs⟩ := List.exists_cons_of_ne_nil (decimal_ne_nil m)
      show Json.parseNumber (decimal m ++ r) = _
      rw [hcs, List.cons_append] at hparse ⊢
      have hminus : c ≠ Json.unit '-' := by
        rintro rfl
        exact absurd (decimal_digits m (Json.unit '-') (by rw [hcs]; simp)) (by decide)
      unfold Json.parseNumber
      simp only [if_neg hminus, hparse]
    · unfold NumberLiteral.toNumber NumberLiteral.value ofInteger
      simp
  | negSucc m =>
    refine ⟨⟨true, m + 1, 0⟩, ?_, ?_⟩
    · have hparse := hdigits true (m + 1)
      rw [digitsVal_decimal] at hparse
      show Json.parseNumber (Json.unit '-' :: (decimal ((m + 1 : Nat) : Int) ++ r)) = _
      unfold Json.parseNumber
      simp only [if_true, hparse]
    · unfold NumberLiteral.toNumber NumberLiteral.value ofInteger
      congr 1
      simp [Int.negSucc_eq]

theorem decimal_wellFormed (n : Int) : Json.wellFormed (decimal n) = true := by
  have hdigits : ∀ m : Nat, Json.wellFormed (decimal m) = true := fun m =>
    Json.wellFormed_plain fun c hc => by
      have hc := decimal_digits m c hc
      simp only [Json.isDigit, Bool.and_eq_true, decide_eq_true_eq] at hc
      simp only [Json.isPlain, isHighSurrogate, isLowSurrogate, Bool.and_eq_true,
        Bool.not_eq_true', Bool.and_eq_false_iff, decide_eq_false_iff_not]
      omega
  cases n with
  | ofNat m => exact hdigits m
  | negSucc m => exact Json.wellFormed_cons (by decide) (hdigits (m + 1))

end LocalFirst
