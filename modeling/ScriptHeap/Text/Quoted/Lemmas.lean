import Mathlib.Data.List.Basic
import ScriptHeap.Text.Quoted

/-! Quoted text can be read back. Each character is written so that it can be told where its written form
ends and which character it is, and so it can be told where the text ends. -/
namespace ScriptHeap.Text

/-- Two beginnings of one text are the same if they hold just what comes before the first character that is
not of some sort. -/
theorem front_inj {sort : Char → Prop} {front front' rest rest' : List Char}
    (inside : ∀ c ∈ front, sort c) (inside' : ∀ c ∈ front', sort c)
    (stops : ∀ c ∈ rest.head?, ¬ sort c) (stops' : ∀ c ∈ rest'.head?, ¬ sort c)
    (same : front ++ rest = front' ++ rest') : front = front' ∧ rest = rest' := by
  induction front generalizing front' with
  | nil =>
    cases front' with
    | nil => exact ⟨rfl, same⟩
    | cons c front' =>
      rw [List.nil_append] at same
      exact absurd (inside' c List.mem_cons_self) (stops c (by rw [same]; rfl))
  | cons c front ih =>
    cases front' with
    | nil =>
      rw [List.nil_append] at same
      exact absurd (inside c List.mem_cons_self) (stops' c (by rw [← same]; rfl))
    | cons c' front' =>
      obtain ⟨rfl, later⟩ := List.cons_eq_cons.mp same
      obtain ⟨rfl, ends⟩ := ih (fun c listed => inside c (List.mem_cons_of_mem _ listed))
        (fun c listed => inside' c (List.mem_cons_of_mem _ listed)) later
      exact ⟨rfl, ends⟩

/-! ## Digits -/

theorem digitChar_inj {a b : Nat} (small : a < 16) (small' : b < 16)
    (same : a.digitChar = b.digitChar) : a = b := by
  have distinct : ∀ a < 16, ∀ b < 16, Nat.digitChar a = Nat.digitChar b → a = b := by decide
  exact distinct a small b small' same

/-- No two numbers have the same digits. -/
theorem toDigits_inj {base : Nat} (least : 1 < base) (most : base ≤ 16) {m n : Nat}
    (same : Nat.toDigits base m = Nat.toDigits base n) : m = n := by
  induction m using Nat.strongRecOn generalizing n with
  | ind m ih =>
    rw [Nat.toDigits_eq_if least, Nat.toDigits_eq_if least (n := n)] at same
    split at same <;> split at same
    · next small small' =>
      exact digitChar_inj (by omega) (by omega) (List.singleton_inj.mp same)
    · exact absurd (congrArg List.length same) (by simp)
    · exact absurd (congrArg List.length same) (by simp)
    · next large large' =>
      obtain ⟨front, last⟩ := List.append_inj' same rfl
      have below (k : Nat) : k % base < 16 :=
        Nat.lt_of_lt_of_le (Nat.mod_lt k (Nat.zero_lt_of_lt least)) most
      have units : m % base = n % base :=
        digitChar_inj (below m) (below n) (List.singleton_inj.mp last)
      have rest : m / base = n / base := ih _ (Nat.div_lt_self (by omega) least) front
      rw [← Nat.div_add_mod m base, ← Nat.div_add_mod n base, units, rest]

theorem brace_not_mem_toDigits {base : Nat} (least : 1 < base) (n : Nat) :
    '\x7d' ∉ Nat.toDigits base n := by
  induction n using Nat.strongRecOn with
  | ind n ih =>
    rw [Nat.toDigits_eq_if least]
    split
    · simp
    · have front := ih (n / base) (Nat.div_lt_self (by omega) least)
      simp [front]

/-! ## Characters -/

/-- The characters that have a letter of their own behind the backslash. -/
def shorthands : List (Char × Char) :=
  [('\x00', '0'), ('\t', 't'), ('\r', 'r'), ('\n', 'n'), ('\\', '\\'), ('"', '"')]

/-- A character is written as itself, by a letter or by its number. -/
inductive Escaped (c : Char) : List Char → Prop
  | plain (apart : c ≠ '\\') (inside : c ≠ '"') : Escaped c [c]
  | short {letter} (listed : (c, letter) ∈ shorthands) : Escaped c ['\\', letter]
  | code : Escaped c ('\\' :: 'u' :: '\x7b' :: (Nat.toDigits 16 c.toNat ++ ['\x7d']))

theorem escaped (c : Char) : Escaped c (escape c) := by
  unfold escape
  split
  · exact .short (by decide)
  · exact .short (by decide)
  · exact .short (by decide)
  · exact .short (by decide)
  · exact .short (by decide)
  · exact .short (by decide)
  · next apart inside =>
    split
    · exact .code
    · exact .plain apart inside

theorem shorthands_inj {c c' letter : Char} (listed : (c, letter) ∈ shorthands)
    (listed' : (c', letter) ∈ shorthands) : c = c' := by
  have distinct : ∀ entry ∈ shorthands, ∀ other ∈ shorthands, entry.2 = other.2 → entry.1 = other.1 := by
    decide
  exact distinct _ listed _ listed' rfl

theorem u_not_shorthand {c : Char} : (c, 'u') ∉ shorthands := by
  have other : ∀ entry ∈ shorthands, entry.2 ≠ 'u' := by decide
  exact fun listed => other _ listed rfl

/-- Where the written forms of two characters stand at the beginning of one text, they are one character. -/
theorem Escaped.inj {c c' : Char} {form form' rest rest' : List Char} (written : Escaped c form)
    (written' : Escaped c' form') (same : form ++ rest = form' ++ rest') : c = c' ∧ rest = rest' := by
  cases written with
  | plain apart =>
    cases written' with
    | plain => exact List.cons_eq_cons.mp same
    | short => exact absurd (List.cons_eq_cons.mp same).1 apart
    | code => exact absurd (List.cons_eq_cons.mp same).1 apart
  | short listed =>
    cases written' with
    | plain apart => exact absurd (List.cons_eq_cons.mp same).1.symm apart
    | short listed' =>
      obtain ⟨rfl, rest⟩ := List.cons_eq_cons.mp (List.cons_eq_cons.mp same).2
      exact ⟨shorthands_inj listed listed', rest⟩
    | code =>
      obtain ⟨rfl, -⟩ := List.cons_eq_cons.mp (List.cons_eq_cons.mp same).2
      exact absurd listed u_not_shorthand
  | code =>
    cases written' with
    | plain apart => exact absurd (List.cons_eq_cons.mp same).1.symm apart
    | short listed =>
      obtain ⟨rfl, -⟩ := List.cons_eq_cons.mp (List.cons_eq_cons.mp same).2
      exact absurd listed u_not_shorthand
    | code =>
      have digits := (List.cons_eq_cons.mp (List.cons_eq_cons.mp (List.cons_eq_cons.mp same).2).2).2
      rw [List.append_eq, List.append_eq, List.append_assoc, List.append_assoc] at digits
      have inside (n : Nat) : ∀ d ∈ Nat.toDigits 16 n, d ≠ '\x7d' := fun d listed brace =>
        brace_not_mem_toDigits (by decide) n (brace ▸ listed)
      have stops (rest : List Char) : ∀ d ∈ (['\x7d'] ++ rest).head?, ¬ d ≠ '\x7d' := by simp
      obtain ⟨number, ends⟩ := front_inj (inside _) (inside _) (stops _) (stops _) digits
      exact ⟨Char.toNat_inj.mp (toDigits_inj (by decide) (by decide) number),
        (List.cons_eq_cons.mp ends).2⟩

/-! ## Texts -/

theorem escape_ne_quote {c : Char} {rest rest' : List Char} : escape c ++ rest ≠ '"' :: rest' := by
  intro same
  have written := escaped c
  generalize escape c = form at written same
  cases written with
  | plain _ inside => exact inside (List.cons_eq_cons.mp same).1
  | short => exact absurd (List.cons_eq_cons.mp same).1 (by decide)
  | code => exact absurd (List.cons_eq_cons.mp same).1 (by decide)

/-- The quote that ends a text is the first that is not part of a character. -/
theorem flatMap_escape_inj {chars chars' rest rest' : List Char}
    (same : chars.flatMap escape ++ '"' :: rest = chars'.flatMap escape ++ '"' :: rest') :
    chars = chars' ∧ rest = rest' := by
  induction chars generalizing chars' with
  | nil =>
    cases chars' with
    | nil => exact ⟨rfl, (List.cons_eq_cons.mp same).2⟩
    | cons c' chars' =>
      rw [List.flatMap_cons, List.append_assoc] at same
      exact absurd same.symm escape_ne_quote
  | cons c chars ih =>
    rw [List.flatMap_cons, List.append_assoc] at same
    cases chars' with
    | nil => exact absurd same escape_ne_quote
    | cons c' chars' =>
      rw [List.flatMap_cons, List.append_assoc] at same
      obtain ⟨rfl, later⟩ := (escaped c).inj (escaped c') same
      obtain ⟨rfl, ends⟩ := ih later
      exact ⟨rfl, ends⟩

theorem toList_quote (text : String) :
    (quote text).toList = '"' :: (text.toList.flatMap escape ++ ['"']) := String.toList_ofList

/-- Where two quoted texts stand at the beginning of one text, they are one text. -/
theorem quote_inj {text text' : String} {rest rest' : List Char}
    (same : (quote text).toList ++ rest = (quote text').toList ++ rest') :
    text = text' ∧ rest = rest' := by
  rw [toList_quote, toList_quote, List.cons_append, List.cons_append, List.append_assoc,
    List.append_assoc] at same
  obtain ⟨chars, ends⟩ := flatMap_escape_inj (List.cons_eq_cons.mp same).2
  exact ⟨String.toList_inj.mp chars, ends⟩

end ScriptHeap.Text
