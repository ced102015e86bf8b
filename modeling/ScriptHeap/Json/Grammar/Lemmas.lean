import Mathlib.Data.List.Induction
import ScriptHeap.Json.Grammar
import ScriptHeap.Text.Digits

/-! Plain strings and natural numbers in the grammar of JSON: the ones stand for themselves, and each of the
others has just one spelling. -/
namespace ScriptHeap.Json

variable {chars : List Char}

/-! ## Strings without escapes -/

theorem ofUnits?_map_toNat (text : List Char) : ofUnits? (text.map Char.toNat) = some text := by
  have whole (c : Char) : isHighSurrogate c.toNat = false ∧ isLowSurrogate c.toNat = false := by
    have scalar : c.toNat < 0xD800 ∨ 0xDFFF < c.toNat ∧ c.toNat < 0x110000 := c.valid
    simp only [isHighSurrogate, isLowSurrogate, Bool.and_eq_false_iff, decide_eq_false_iff_not]
    omega
  induction text with
  | nil => rfl
  | cons c text ih =>
    cases text with
    | nil => simp [ofUnits?, whole c]
    | cons d text =>
      rw [List.map_cons] at ih
      simp [ofUnits?, whole c, ih]

/-- Whether a character stands for itself between quotes. -/
def isPlain (c : Char) : Bool := 0x20 ≤ c.toNat && c != '"' && c != '\\'

/-- A text without quotes, backslashes and control characters can be put between quotes as it is. -/
theorem quoted_plain {text : List Char} (plain : text.all isPlain = true) :
    Quoted (some (String.ofList text)) ('"' :: (text ++ ['"'])) := by
  have spelled : UnitsSpelled (text.map Char.toNat) text := by
    induction text with
    | nil => exact .nil
    | cons c text ih =>
      rw [List.all_cons, Bool.and_eq_true] at plain
      obtain ⟨first, rest⟩ := plain
      simp only [isPlain, Bool.and_eq_true, decide_eq_true_eq, bne_iff_ne] at first
      exact .cons (.plain first.1.1 first.1.2 first.2) (ih rest)
  have quoted := Quoted.intro spelled
  rwa [ofUnits?_map_toNat, Option.map_some] at quoted

/-! ## Natural numbers -/

theorem head?_toDigits {n : Nat} (zero : (Nat.toDigits 10 n).head? = some '0') : n = 0 := by
  induction n using Nat.strongRecOn with
  | ind n ih =>
    rw [Nat.toDigits_eq_if (by decide)] at zero
    split at zero
    · next small =>
      have only : ∀ digit < 10, Nat.digitChar digit = '0' → digit = 0 := by decide
      exact only n small (Option.some.inj zero)
    · next large =>
      rw [List.head?_append, Option.or_of_isSome (by simp [Nat.toDigits_ne_nil])] at zero
      have front := ih (n / 10) (by omega) zero
      omega

theorem integral_toDigits (n : Nat) : Integral (Nat.toDigits 10 n) := by
  refine ⟨⟨Nat.toDigits_ne_nil, fun c => Text.isDigit_of_written⟩, fun zero => ?_⟩
  rw [head?_toDigits zero]
  rfl

theorem numeral_toDigits (n : Nat) : Numeral (Nat.toDigits 10 n) := by
  have numeral := @Numeral.intro [] _ [] [] (by simp) (integral_toDigits n) .absent .absent
  simpa using numeral

private theorem toDigits_digit {c : Char} (digit : c.isDigit = true) :
    c.toNat - '0'.toNat < 10 ∧ Nat.toDigits 10 (c.toNat - '0'.toNat) = [c] := by
  have bounds : 48 ≤ c.toNat ∧ c.toNat ≤ 57 := by
    simpa [Char.isDigit, UInt32.le_iff_toNat_le] using digit
  have zero : '0'.toNat = 48 := rfl
  have small : c.toNat - '0'.toNat < 10 := by omega
  have spelled : ∀ digit < 10, Nat.digitChar digit = Char.ofNat (digit + 48) := by decide
  refine ⟨small, ?_⟩
  rw [Nat.toDigits_of_lt_base small, spelled _ small, zero, Nat.sub_add_cancel bounds.1,
    Char.ofNat_toNat]

/-- Digits that do not begin with zero are those of their number. -/
private theorem toDigits_of_head? (filled : chars ≠ []) (digits : ∀ c ∈ chars, c.isDigit = true)
    (first : chars.head? ≠ some '0') :
    0 < Nat.ofDigitChars 10 chars 0 ∧ Nat.toDigits 10 (Nat.ofDigitChars 10 chars 0) = chars := by
  induction chars using List.reverseRecOn with
  | nil => exact absurd rfl filled
  | append_singleton front c ih =>
    obtain ⟨small, last⟩ := toDigits_digit (digits c (by simp))
    rw [Nat.ofDigitChars_append, Nat.ofDigitChars_cons, Nat.ofDigitChars_nil]
    by_cases lone : front = []
    · subst lone
      simp only [Nat.ofDigitChars_nil, Nat.mul_zero, Nat.zero_add, List.nil_append]
      refine ⟨Nat.pos_of_ne_zero fun zero => first ?_, last⟩
      rw [zero, Nat.toDigits_zero] at last
      rw [← last]
      rfl
    · rw [List.head?_append, Option.or_of_isSome (by simpa using lone)] at first
      obtain ⟨positive, same⟩ := ih lone (fun d listed => digits d (by simp [listed])) first
      refine ⟨by omega, ?_⟩
      rw [← Nat.toDigits_append_toDigits (by decide) positive small, same, last]

/-- A number that is nothing but digits is spelled as natural numbers are. -/
theorem numeral_natural (numeral : Numeral chars) (digits : ∀ c ∈ chars, c.isDigit = true) :
    Nat.toDigits 10 (Nat.ofDigitChars 10 chars 0) = chars := by
  have whole : Integral chars := by
    cases numeral with
    | @intro sign integral fraction exponent signs whole part power =>
      simp only [List.mem_append] at digits
      have unsigned : sign = [] := by
        simp only [List.mem_cons, List.not_mem_nil, or_false] at signs
        rcases signs with rfl | rfl
        · rfl
        · exact absurd (digits '-' (by simp)) (by decide)
      have pointless : fraction = [] := by
        cases part with
        | absent => rfl
        | digits => exact absurd (digits '.' (by simp)) (by decide)
      have powerless : exponent = [] := by
        cases power with
        | absent => rfl
        | @digits letter _ _ letters =>
          have digit := digits letter (by simp)
          simp only [List.mem_cons, List.not_mem_nil, or_false] at letters
          rcases letters with rfl | rfl <;> cases digit
      subst unsigned pointless powerless
      simpa using whole
  by_cases zero : chars.head? = some '0'
  · rw [whole.2 zero]
    rfl
  · exact (toDigits_of_head? whole.1.1 whole.1.2 zero).2

end ScriptHeap.Json
