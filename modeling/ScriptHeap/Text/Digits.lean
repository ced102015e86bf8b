import Mathlib.Data.List.Basic

/-! Decimal digits: a number is told by those it is written with, and read back from them. -/
namespace ScriptHeap.Text

theorem isDigit_of_written {n : Nat} {c : Char} (listed : c ∈ Nat.toDigits 10 n) : c.isDigit = true :=
  Nat.isDigit_of_mem_toDigits (by decide) (by decide) listed

theorem written_inj {m n : Nat} (same : Nat.toDigits 10 m = Nat.toDigits 10 n) : m = n := by
  rw [← Nat.ofDigitChars_ten_toDigits (n := m), same, Nat.ofDigitChars_ten_toDigits]

/-! ## Reading -/

theorem ne_underscore_of_isDigit {c : Char} (digit : c.isDigit = true) : c ≠ '_' := by
  rintro rfl
  exact absurd digit (by decide)

theorem isNat_of_digits {text : String} (filled : text.toList ≠ [])
    (digits : ∀ c ∈ text.toList, c.isDigit = true) : text.isNat = true := by
  rw [String.isNat, String.Slice.isNat]
  simp only [String.Slice.forIn_eq_forIn_toList, String.copy_toSlice]
  generalize text.toList = chars at filled digits
  -- The loop remembers whether the last character was a digit, as it is from the first on.
  cases chars with
  | nil => exact absurd rfl filled
  | cons first chars =>
    rw [List.forall_mem_cons] at digits
    obtain ⟨digit, digits⟩ := digits
    simp only [List.forIn_cons, if_neg (ne_underscore_of_isDigit digit), if_pos digit, pure_bind]
    clear filled
    induction chars with
    | nil => rfl
    | cons c chars ih =>
      rw [List.forall_mem_cons] at digits
      obtain ⟨digit, digits⟩ := digits
      simp only [List.forIn_cons, if_neg (ne_underscore_of_isDigit digit), if_pos digit, pure_bind]
      exact ih digits

/-- A number is read back. This is `Nat.toNat?_repr`, which only the whole of Mathlib brings along. -/
theorem toNat?_repr (n : Nat) : n.repr.toNat? = some n := by
  have whole : n.repr.toSlice.isNat = true := by
    refine isNat_of_digits ?_ fun c listed => ?_
    · rw [Nat.toList_repr]
      exact Nat.toDigits_ne_nil
    · rw [Nat.toList_repr] at listed
      exact isDigit_of_written listed
  rw [String.toNat?, String.Slice.toNat?, if_pos whole, String.Slice.foldl_eq_foldl_toList,
    String.copy_toSlice, Nat.toList_repr]
  calc
    some ((Nat.toDigits 10 n).foldl
        (fun sofar c => if c = '_' then sofar else sofar * 10 + (c.toNat - '0'.toNat)) 0)
    _ = some (Nat.ofDigitChars 10 (Nat.toDigits 10 n) 0) := by
      rw [Nat.ofDigitChars_eq_foldl]
      refine congrArg some (List.foldl_ext _ _ 0 fun sofar c listed => ?_)
      rw [if_neg (ne_underscore_of_isDigit (isDigit_of_written listed)), Nat.mul_comm]
    _ = some n := congrArg some Nat.ofDigitChars_ten_toDigits

end ScriptHeap.Text
