import LocalFirst.Crdt.Operation
import Mathlib.Algebra.Group.Nat.Defs

/-!
# Operation identities

An operation id is the client id and the counter with a colon between them.  A client id may
hold colons itself, a decimal numeral does not, so the id determines both.

* `decimal_ofNat_inj`, `colon_not_mem_decimal`, `length_decimal_le` — numerals.
* `makeOperationId_inj` — the two parts of an id.
* `ValidOperation.identity` — valid operations with one id have one client and one counter.
-/

set_option autoImplicit false

namespace LocalFirst

theorem codeUnits_digit {c : Char} (h : c.isDigit = true) :
    codeUnits c = [Fin.ofNat 65536 c.toNat] ∧ 48 ≤ c.toNat ∧ c.toNat ≤ 57 := by
  simp only [Char.isDigit, Bool.and_eq_true, decide_eq_true_eq, ge_iff_le] at h
  have hlow : 48 ≤ c.toNat := h.1
  have hhigh : c.toNat ≤ 57 := h.2
  refine ⟨?_, hlow, hhigh⟩
  unfold codeUnits
  rw [if_pos (by omega)]

theorem decimal_ofNat (n : Nat) :
    decimal n = (Nat.toDigits 10 n).map fun c => Fin.ofNat 65536 c.toNat := by
  show (Nat.toDigits 10 n).flatMap codeUnits = _
  have hdigits : ∀ c ∈ Nat.toDigits 10 n, c.isDigit = true := fun c hc =>
    Nat.isDigit_of_mem_toDigits (by omega) (by omega) hc
  revert hdigits
  generalize Nat.toDigits 10 n = cs
  intro hdigits
  induction cs with
  | nil => rfl
  | cons c cs ih =>
    rw [List.flatMap_cons, (codeUnits_digit (hdigits c List.mem_cons_self)).1,
      ih fun c' hc' => hdigits c' (List.mem_cons_of_mem c hc')]
    rfl

theorem decimal_ofNat_inj {m n : Nat} (h : decimal m = decimal n) : m = n := by
  rw [decimal_ofNat, decimal_ofNat] at h
  have hsame : ∀ cs cs' : List Char, (∀ c ∈ cs, c.isDigit = true) → (∀ c ∈ cs', c.isDigit = true) →
      cs.map (fun c => Fin.ofNat 65536 c.toNat) = cs'.map (fun c => Fin.ofNat 65536 c.toNat) →
      cs = cs' := by
    intro cs
    induction cs with
    | nil =>
      intro cs' _ _ he
      exact (List.map_eq_nil_iff.1 he.symm).symm
    | cons c cs ih =>
      intro cs' hcs hcs' he
      cases cs' with
      | nil => cases he
      | cons c' cs' =>
        obtain ⟨hc, htail⟩ := List.cons.inj he
        have hd := (codeUnits_digit (hcs c List.mem_cons_self)).2
        have hd' := (codeUnits_digit (hcs' c' List.mem_cons_self)).2
        have hval : c.toNat % 65536 = c'.toNat % 65536 := congrArg Fin.val hc
        have heq : c = c' := Char.toNat_inj.1 (by omega)
        rw [heq, ih cs' (fun x hx => hcs x (List.mem_cons_of_mem c hx))
          (fun x hx => hcs' x (List.mem_cons_of_mem c' hx)) htail]
  have hdigits : Nat.toDigits 10 m = Nat.toDigits 10 n :=
    hsame _ _ (fun c hc => Nat.isDigit_of_mem_toDigits (by omega) (by omega) hc)
      (fun c hc => Nat.isDigit_of_mem_toDigits (by omega) (by omega) hc) h
  rw [← @Nat.ofDigitChars_ten_toDigits m, ← @Nat.ofDigitChars_ten_toDigits n, hdigits]

theorem colon_not_mem_decimal (n : Nat) : (58 : CodeUnit) ∉ decimal n := by
  rw [decimal_ofNat, List.mem_map]
  intro ⟨c, hc, he⟩
  have hd := (codeUnits_digit (Nat.isDigit_of_mem_toDigits (by omega) (by omega) hc)).2
  have hval : c.toNat % 65536 = 58 := congrArg Fin.val he
  omega

theorem length_decimal_le {n k : Nat} (hk : 0 < k) : (decimal n).length ≤ k ↔ n < 10 ^ k := by
  rw [decimal_ofNat, List.length_map]
  exact Nat.length_toDigits_le_iff (by omega) hk

/-- Lists with one last separator are equal part by part. -/
theorem split_last_inj {α : Type} {x : α} {l l' r r' : List α} (hr : x ∉ r) (hr' : x ∉ r')
    (h : l ++ x :: r = l' ++ x :: r') : l = l' ∧ r = r' := by
  rcases List.append_eq_append_iff.1 h with ⟨m, hl, hm⟩ | ⟨m, hl, hm⟩
  · cases m with
    | nil =>
      rw [List.append_nil] at hl
      exact ⟨hl.symm, (List.cons.inj hm).2⟩
    | cons y m =>
      obtain ⟨-, hv⟩ := List.cons.inj hm
      exact absurd (by rw [hv]; simp) hr
  · cases m with
    | nil =>
      rw [List.append_nil] at hl
      exact ⟨hl, (List.cons.inj hm).2.symm⟩
    | cons y m =>
      obtain ⟨-, hv⟩ := List.cons.inj hm
      exact absurd (by rw [hv]; simp) hr'

/-- The client and the counter of an operation id. -/
theorem makeOperationId_inj {clientId clientId' : JsString} {counter counter' : Int}
    (hn : 0 ≤ counter) (hn' : 0 ≤ counter')
    (h : makeOperationId clientId counter = makeOperationId clientId' counter') :
    clientId = clientId' ∧ counter = counter' := by
  obtain ⟨m, rfl⟩ := Int.eq_ofNat_of_zero_le hn
  obtain ⟨m', rfl⟩ := Int.eq_ofNat_of_zero_le hn'
  have hcolon : js ":" = [(58 : CodeUnit)] := by decide
  unfold makeOperationId at h
  rw [hcolon, List.append_assoc, List.append_assoc, List.singleton_append,
    List.singleton_append] at h
  obtain ⟨hclient, hcounter⟩ :=
    split_last_inj (colon_not_mem_decimal m) (colon_not_mem_decimal m') h
  exact ⟨hclient, congrArg Int.ofNat (decimal_ofNat_inj hcounter)⟩

/-- Valid operations with one id have one client and one counter. -/
theorem ValidOperation.identity {a b : TextOperation} (ha : ValidOperation a)
    (hb : ValidOperation b) (h : a.opId = b.opId) :
    a.clientId = b.clientId ∧ a.counter = b.counter := by
  have ha' := (validateOperation_iff.1 ha).2.1.1
  have hb' := (validateOperation_iff.1 hb).2.1.1
  rw [ha.opId_eq, hb.opId_eq] at h
  exact makeOperationId_inj (by omega) (by omega) h

end LocalFirst
