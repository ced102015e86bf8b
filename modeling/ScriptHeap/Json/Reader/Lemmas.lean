import Mathlib.Data.List.TakeDrop
import ScriptHeap.Json.Grammar

/-! The reader of JSON reads what the grammar spells out. A part of a text is read whatever follows it there,
as long as nothing follows that a number would go on with. -/
namespace ScriptHeap.Json

variable {chars rest blank : List Char} {depth : Nat}

/-! ## Blanks -/

theorem isBlank_iff {c : Char} : isBlank c = true ↔ c ∈ [' ', '\n', '\r', '\t'] := by
  simp [isBlank, or_assoc]

theorem skipBlank_append (blanks : Blank blank) (rest : List Char) :
    skipBlank (blank ++ rest) = skipBlank rest := by
  refine List.dropWhile_append_of_pos fun c listed => ?_
  exact isBlank_iff.2 (blanks c listed)

theorem skipBlank_cons {c : Char} (visible : isBlank c = false) (rest : List Char) :
    skipBlank (c :: rest) = c :: rest := by
  rw [skipBlank, List.dropWhile_cons_of_neg (by simp [visible])]

@[simp] theorem skipBlank_skipBlank (input : List Char) : skipBlank (skipBlank input) = skipBlank input := by
  induction input with
  | nil => rfl
  | cons c input ih =>
    cases visible : isBlank c with
    | true =>
      have skipped : skipBlank (c :: input) = skipBlank input := List.dropWhile_cons_of_pos visible
      rw [skipped, ih]
    | false => rw [skipBlank_cons visible, skipBlank_cons visible]

/-- Blanks in front make no difference to what is read. -/
theorem readValue_skipBlank (depth : Nat) (input : List Char) :
    readValue depth (skipBlank input) = readValue depth input := by
  cases depth with
  | zero => simp only [readValue]
  | succ depth => simp only [readValue, skipBlank_skipBlank]

theorem readItems_skipBlank (depth : Nat) (input : List Char) :
    readItems depth (skipBlank input) = readItems depth input := by
  cases depth with
  | zero => simp only [readItems]
  | succ depth => simp only [readItems, readValue_skipBlank]

theorem readMembers_skipBlank (depth : Nat) (input : List Char) :
    readMembers depth (skipBlank input) = readMembers depth input := by
  cases depth with
  | zero => simp only [readMembers]
  | succ depth => simp only [readMembers, readKey, skipBlank_skipBlank]

/-! ## Numbers -/

/-- Nothing that a number would go on with. -/
def Stops (rest : List Char) : Prop :=
  ∀ c ∈ rest.head?, c.isDigit = false ∧ c ∉ ['.', 'e', 'E']

theorem readDigits_append (digits : Digits chars) (stops : ∀ c ∈ rest.head?, c.isDigit = false) :
    readDigits (chars ++ rest) = some (chars, rest) := by
  have taken : (chars ++ rest).span (·.isDigit) = (chars, rest) := by
    rw [List.span_eq_takeWhile_dropWhile, List.takeWhile_append_of_pos digits.2,
      List.dropWhile_append_of_pos digits.2]
    cases rest with
    | nil => simp
    | cons c rest => simp [stops c rfl]
  rw [readDigits, taken]
  cases chars with
  | nil => exact absurd rfl digits.1
  | cons c chars => rfl

theorem readIntegral_append (whole : Integral chars) (stops : ∀ c ∈ rest.head?, c.isDigit = false) :
    readIntegral (chars ++ rest) = some (chars, rest) := by
  obtain ⟨digits, zero⟩ := whole
  cases chars with
  | nil => exact absurd rfl digits.1
  | cons c chars =>
    by_cases lone : c = '0'
    · subst lone
      obtain rfl := (List.cons.inj (zero rfl)).2
      rfl
    · rw [List.cons_append, readIntegral, ← List.cons_append]
      · exact readDigits_append digits stops
      · simpa using lone

theorem readFraction_append (part : Fraction chars) (stops : ∀ c ∈ rest.head?, c.isDigit = false ∧ c ≠ '.') :
    readFraction (chars ++ rest) = some (chars, rest) := by
  cases part with
  | absent =>
    cases rest with
    | nil => rfl
    | cons c rest =>
      rw [List.nil_append, readFraction]
      simpa using (stops c rfl).2
  | digits spelled =>
    rw [List.cons_append, readFraction, readDigits_append spelled fun c first => (stops c first).1]
    rfl

theorem readExponent_append (power : Exponent chars) (stops : Stops rest) :
    readExponent (chars ++ rest) = some (chars, rest) := by
  cases power with
  | absent =>
    cases rest with
    | nil => rfl
    | cons c rest =>
      have other := (stops c rfl).2
      simp only [List.mem_cons, List.not_mem_nil, or_false, not_or] at other
      rw [List.nil_append, readExponent]
      all_goals simp [other]
  | @digits letter sign digits letters signs spelled =>
    have taken := readDigits_append spelled fun c first => (stops c first).1
    obtain ⟨c, more, rfl⟩ := List.exists_cons_of_ne_nil spelled.1
    have unsigned : c ≠ '+' ∧ c ≠ '-' := by
      have digit := spelled.2 c List.mem_cons_self
      constructor <;> rintro rfl <;> simp at digit
    rw [List.cons_append] at taken
    simp only [List.mem_cons, List.not_mem_nil, or_false] at letters signs
    rcases letters with rfl | rfl <;> rcases signs with rfl | rfl | rfl <;>
      simp [readExponent, readExponentDigits, taken, unsigned]

theorem readUnsigned_append {integral fraction exponent : List Char} (whole : Integral integral)
    (part : Fraction fraction) (power : Exponent exponent) (stops : Stops rest) :
    readUnsigned (integral ++ fraction ++ exponent ++ rest) =
      some (integral ++ fraction ++ exponent, rest) := by
  have afterPart : ∀ c ∈ (exponent ++ rest).head?, c.isDigit = false ∧ c ≠ '.' := by
    intro c first
    cases power with
    | absent =>
      obtain ⟨digit, other⟩ := stops c first
      exact ⟨digit, fun point => other (by simp [point])⟩
    | digits letters =>
      obtain rfl := Option.some.inj first
      simp only [List.mem_cons, List.not_mem_nil, or_false] at letters
      rcases letters with rfl | rfl <;> decide
  have afterWhole : ∀ c ∈ (fraction ++ (exponent ++ rest)).head?, c.isDigit = false := by
    intro c first
    cases part with
    | absent => exact (afterPart c first).1
    | digits spelled =>
      obtain rfl := Option.some.inj first
      rfl
  simp only [readUnsigned, List.append_assoc, readIntegral_append whole afterWhole,
    readFraction_append part afterPart, readExponent_append power stops, Option.bind_eq_bind,
    Option.bind_some]

theorem readNumber_append (numeral : Numeral chars) (stops : Stops rest) :
    readNumber (chars ++ rest) = some (chars, rest) := by
  cases numeral with
  | @intro sign integral fraction exponent signs whole part power =>
    have read := readUnsigned_append whole part power stops
    simp only [List.mem_cons, List.not_mem_nil, or_false] at signs
    rcases signs with rfl | rfl
    · -- the first character is a digit and so no sign
      rw [List.nil_append, readNumber, read]
      rintro input minus
      obtain ⟨digits, -⟩ := whole
      obtain ⟨c, more, rfl⟩ := List.exists_cons_of_ne_nil digits.1
      have digit := digits.2 c List.mem_cons_self
      rw [List.cons_append, List.cons_append, List.cons_append, List.cons.injEq] at minus
      rw [minus.1] at digit
      cases digit
    · simp only [List.cons_append, List.nil_append, readNumber, read, Option.map_some]

/-! ## Strings -/

theorem readUnits_append {unit : Nat} (spelled : UnitSpelled unit chars) (more : List Char) :
    readUnits (chars ++ more) = (readUnits more).map fun read => (unit :: read.1, read.2) := by
  cases spelled with
  | @plain c printable inside itself =>
    have visible : ¬ (c.toNat < 0x20 ∨ c = '\\') := by
      rintro (control | same)
      · omega
      · exact itself same
    rw [List.singleton_append, readUnits, if_neg visible]
    all_goals simp [inside, itself]
  | @short letter unit listed =>
    have stands : escaped? letter = some unit ∧ letter ≠ 'u' := by
      simp only [List.mem_cons, Prod.mk.injEq, List.not_mem_nil, or_false] at listed
      rcases listed with ⟨rfl, rfl⟩ | ⟨rfl, rfl⟩ | ⟨rfl, rfl⟩ | ⟨rfl, rfl⟩ | ⟨rfl, rfl⟩ | ⟨rfl, rfl⟩ |
        ⟨rfl, rfl⟩ | ⟨rfl, rfl⟩ <;> decide
    rw [List.cons_append, List.singleton_append, readUnits, stands.1]
    · cases readUnits more <;> rfl
    · simp [stands.2]
  | long first second third fourth =>
    simp only [List.cons_append, List.nil_append, readUnits, unit?, first, second, third, fourth,
      Option.bind_eq_bind, Option.bind_some]
    cases readUnits more <;> rfl

theorem readUnits_closed {units : List Nat} (spelled : UnitsSpelled units chars) (rest : List Char) :
    readUnits (chars ++ '"' :: rest) = some (units, rest) := by
  induction spelled with
  | nil => rfl
  | cons first _ ih => rw [List.append_assoc, readUnits_append first, ih, Option.map_some]

/-- What is left of a string when its opening quote has been taken. -/
theorem readText_quoted {text : Option String} (quoted : Quoted text chars) (rest : List Char) :
    ∃ inside, chars = '"' :: inside ∧ readText (inside ++ rest) = some (text, rest) := by
  cases quoted with
  | @intro units inside spelled =>
    refine ⟨_, rfl, ?_⟩
    rw [readText, List.append_assoc, List.singleton_append, readUnits_closed spelled, Option.map_some]

theorem readKey_append {name : Option String} (named : NameSpelled name chars) (rest : List Char) :
    readKey (chars ++ ':' :: rest) = some (name, rest) := by
  cases named with
  | @intro before chars after front quoted back =>
    obtain ⟨inside, rfl, read⟩ := readText_quoted quoted (after ++ ':' :: rest)
    have colon : skipBlank (after ++ ':' :: rest) = ':' :: rest := by
      rw [skipBlank_append back, skipBlank_cons rfl]
    rw [readKey, List.append_assoc, skipBlank_append front, List.append_assoc, List.cons_append,
      skipBlank_cons rfl]
    simp only [read, colon]

/-! ## Values -/

/-- What a value begins with: nothing that could also end an array, and no blank. -/
def Opens (chars : List Char) : Prop := ∃ c more, chars = c :: more ∧ isBlank c = false ∧ c ≠ ']'

theorem opens_numeral (numeral : Numeral chars) :
    ∃ c more, chars = c :: more ∧ (c = '-' ∨ c.isDigit = true) := by
  cases numeral with
  | @intro sign integral fraction exponent signs whole =>
    simp only [List.mem_cons, List.not_mem_nil, or_false] at signs
    rcases signs with rfl | rfl
    · obtain ⟨digits, -⟩ := whole
      obtain ⟨c, more, rfl⟩ := List.exists_cons_of_ne_nil digits.1
      exact ⟨c, _, rfl, .inr (digits.2 c List.mem_cons_self)⟩
    · exact ⟨'-', _, rfl, .inl rfl⟩

theorem opens_value {json : Json} (spelled : Spells (.value json) chars) : Opens chars := by
  cases spelled with
  | number numeral =>
    obtain ⟨c, more, rfl, first⟩ := opens_numeral numeral
    refine ⟨c, more, rfl, ?_, ?_⟩
    · rw [Bool.eq_false_iff, ne_eq, isBlank_iff]
      simp only [List.mem_cons, List.not_mem_nil, or_false]
      rintro (rfl | rfl | rfl | rfl) <;> simp at first
    · rintro rfl
      simp at first
  | string quoted =>
    cases quoted
    exact ⟨'"', _, rfl, rfl, by decide⟩
  | _ => exact ⟨_, _, rfl, rfl, by decide⟩

theorem skipBlank_element {json : Json} (spelled : Spells (.element json) chars) (rest : List Char) :
    ∃ c more, c ≠ ']' ∧ skipBlank (chars ++ rest) = c :: more := by
  cases spelled with
  | element front spelled back =>
    obtain ⟨c, more, rfl, visible, other⟩ := opens_value spelled
    rw [List.append_assoc, skipBlank_append front, List.append_assoc, List.cons_append]
    exact ⟨c, _, other, skipBlank_cons visible _⟩

theorem skipBlank_items {items : List Json} (spelled : Spells (.items items) chars) (rest : List Char) :
    ∃ c more, c ≠ ']' ∧ skipBlank (chars ++ rest) = c :: more := by
  cases spelled with
  | lastItem spelled => exact skipBlank_element spelled rest
  | item spelled =>
    rw [List.append_assoc]
    exact skipBlank_element spelled _

theorem skipBlank_members {members : List (Option String × Json)}
    (spelled : Spells (.members members) chars) (rest : List Char) :
    ∃ more, skipBlank (chars ++ rest) = '"' :: more := by
  have named {name : Option String} {key : List Char} (named : NameSpelled name key) (rest : List Char) :
      ∃ more, skipBlank (key ++ rest) = '"' :: more := by
    cases named with
    | intro front quoted back =>
      obtain ⟨inside, rfl, -⟩ := readText_quoted quoted []
      rw [List.append_assoc, skipBlank_append front, List.append_assoc, List.cons_append]
      exact ⟨_, skipBlank_cons rfl _⟩
  cases spelled with
  | lastMember key =>
    rw [List.append_assoc]
    exact named key _
  | member key =>
    rw [List.append_assoc]
    exact named key _

theorem stops_cons {c : Char} (other : c.isDigit = false ∧ c ∉ ['.', 'e', 'E']) (rest : List Char) :
    Stops (c :: rest) := by
  intro first head
  obtain rfl := Option.some.inj head
  exact other

theorem stops_append (blanks : Blank blank) (stops : Stops rest) : Stops (blank ++ rest) := by
  cases blank with
  | nil => exact stops
  | cons c blank =>
    refine stops_cons ?_ _
    have first := blanks c List.mem_cons_self
    simp only [List.mem_cons, List.not_mem_nil, or_false] at first
    rcases first with rfl | rfl | rfl | rfl <;> decide

theorem readValue_number (numeral : Numeral chars) (stops : Stops rest) (depth : Nat) :
    readValue (depth + 1) (chars ++ rest) = some (.number (String.ofList chars), rest) := by
  obtain ⟨c, more, rfl, first⟩ := opens_numeral numeral
  obtain ⟨_, _, same, visible, -⟩ := opens_value (.number numeral)
  cases same
  have read := readNumber_append numeral stops
  rw [List.cons_append] at read ⊢
  rw [readValue, skipBlank_cons visible]
  split
  case h_7 => rw [read, Option.map_some]
  -- no other value begins with a sign or a digit
  all_goals
    next begins =>
    obtain rfl := (List.cons.inj begins).1
    simp at first

/-- How a part of a text is read when something follows it. Two readers at most are at work for each
character. -/
def Part.Reads (chars : List Char) : Part → Prop
  | .value json => ∀ depth rest, 2 * chars.length ≤ depth + 2 → Stops rest →
      readValue (depth + 1) (chars ++ rest) = some (json, rest)
  | .element json => ∀ depth rest, 2 * chars.length ≤ depth + 1 → Stops rest →
      ∃ left, readValue depth (chars ++ rest) = some (json, left) ∧ skipBlank left = skipBlank rest
  | .items listed => ∀ depth rest, 2 * chars.length ≤ depth →
      readItems depth (chars ++ ']' :: rest) = some (listed, rest)
  | .members listed => ∀ depth rest, 2 * chars.length ≤ depth →
      readMembers depth (chars ++ '\x7d' :: rest) = some (listed, rest)

theorem reads_array {items : List Json} (inside : Spells (.items items) chars)
    (reads : Part.Reads chars (.items items)) : Part.Reads ('[' :: (chars ++ [']'])) (.value (.array items)) := by
  intro depth rest room _
  simp only [List.length_cons, List.length_append, List.length_nil] at room
  have read := reads depth rest (by omega)
  obtain ⟨c, more, other, skipped⟩ := skipBlank_items inside (']' :: rest)
  rw [← readItems_skipBlank, skipped] at read
  rw [List.cons_append, List.append_assoc, List.singleton_append, readValue, skipBlank_cons rfl]
  simp only [skipped]
  split
  · next closes => exact absurd (List.cons.inj closes).1 other
  · rw [read, Option.map_some]

theorem reads_object {members : List (Option String × Json)} (inside : Spells (.members members) chars)
    (reads : Part.Reads chars (.members members)) :
    Part.Reads ('\x7b' :: (chars ++ ['\x7d'])) (.value (.object members)) := by
  intro depth rest room _
  simp only [List.length_cons, List.length_append, List.length_nil] at room
  have read := reads depth rest (by omega)
  obtain ⟨more, skipped⟩ := skipBlank_members inside ('\x7d' :: rest)
  rw [← readMembers_skipBlank, skipped] at read
  rw [List.cons_append, List.append_assoc, List.singleton_append, readValue, skipBlank_cons rfl]
  simp only [skipped]
  split
  · next closes => exact absurd (List.cons.inj closes).1 (by decide)
  · rw [read, Option.map_some]

/-- **What the grammar spells out is read.** -/
theorem reads_of_spells {part : Part} (spelled : Spells part chars) : part.Reads chars := by
  induction spelled with
  | null | true | false =>
    intro depth rest _ _
    simp only [List.cons_append, readValue]
    rfl
  | number numeral => exact fun depth rest _ stops => readValue_number numeral stops depth
  | string quoted =>
    intro depth rest _ _
    obtain ⟨inside, rfl, read⟩ := readText_quoted quoted rest
    rw [List.cons_append, readValue, skipBlank_cons rfl]
    simp only [read, Option.map_some]
  | @emptyArray blank between =>
    intro depth rest _ _
    have closed : skipBlank (blank ++ ']' :: rest) = ']' :: rest := by
      rw [skipBlank_append between, skipBlank_cons rfl]
    rw [List.cons_append, List.append_assoc, readValue, skipBlank_cons rfl]
    simp only [List.singleton_append, closed]
  | array inside reads => exact reads_array inside reads
  | @emptyObject blank between =>
    intro depth rest _ _
    have closed : skipBlank (blank ++ '\x7d' :: rest) = '\x7d' :: rest := by
      rw [skipBlank_append between, skipBlank_cons rfl]
    rw [List.cons_append, List.append_assoc, readValue, skipBlank_cons rfl]
    simp only [List.singleton_append, closed]
  | object inside reads => exact reads_object inside reads
  | @element json before chars after front spelled back reads =>
    intro depth rest room stops
    have filled : 0 < chars.length := by
      obtain ⟨c, more, rfl, -⟩ := opens_value spelled
      exact Nat.succ_pos _
    simp only [List.length_append] at room
    obtain ⟨depth, rfl⟩ := Nat.exists_eq_add_one.2 (show 0 < depth by omega)
    refine ⟨after ++ rest, ?_, skipBlank_append back rest⟩
    rw [← readValue_skipBlank, List.append_assoc, skipBlank_append front, readValue_skipBlank,
      List.append_assoc]
    exact reads depth (after ++ rest) (by omega) (stops_append back stops)
  | @lastItem item chars spelled reads =>
    intro depth rest room
    have filled : chars ≠ [] := by
      rintro rfl
      obtain ⟨c, more, -, skipped⟩ := skipBlank_element spelled []
      cases skipped
    have length := List.length_pos_iff.2 filled
    obtain ⟨depth, rfl⟩ := Nat.exists_eq_add_one.2 (show 0 < depth by omega)
    obtain ⟨left, read, skipped⟩ := reads depth (']' :: rest) (by omega) (stops_cons (by decide) rest)
    rw [skipBlank_cons rfl] at skipped
    simp only [readItems, read, skipped]
  | @item item items chars more spelled _ reads readsMore =>
    intro depth rest room
    simp only [List.length_append, List.length_cons] at room
    obtain ⟨depth, rfl⟩ := Nat.exists_eq_add_one.2 (show 0 < depth by omega)
    obtain ⟨left, read, skipped⟩ := reads depth (',' :: (more ++ ']' :: rest)) (by omega)
      (stops_cons (by decide) _)
    rw [skipBlank_cons rfl] at skipped
    rw [List.append_assoc, List.cons_append]
    simp only [readItems, read, skipped, readsMore depth rest (by omega), Option.map_some]
  | @lastMember name value key chars named _ reads =>
    intro depth rest room
    simp only [List.length_append, List.length_cons] at room
    obtain ⟨depth, rfl⟩ := Nat.exists_eq_add_one.2 (show 0 < depth by omega)
    obtain ⟨left, read, skipped⟩ := reads depth ('\x7d' :: rest) (by omega) (stops_cons (by decide) _)
    rw [skipBlank_cons rfl] at skipped
    rw [List.append_assoc, List.cons_append]
    simp only [readMembers, readKey_append named, read, skipped]
  | @member name value members key chars more named _ _ reads readsMore =>
    intro depth rest room
    simp only [List.length_append, List.length_cons] at room
    obtain ⟨depth, rfl⟩ := Nat.exists_eq_add_one.2 (show 0 < depth by omega)
    obtain ⟨left, read, skipped⟩ := reads depth (',' :: (more ++ '\x7d' :: rest)) (by omega)
      (stops_cons (by decide) _)
    rw [skipBlank_cons rfl] at skipped
    rw [List.append_assoc, List.cons_append, List.append_assoc, List.cons_append]
    simp only [readMembers, readKey_append named, read, skipped, readsMore depth rest (by omega),
      Option.map_some]

/-- A text that spells out a value is read as that value. -/
theorem read?_of_spelledBy {json : Json} {text : String} (spelled : SpelledBy json text) :
    read? text = some json := by
  have reads := reads_of_spells spelled (2 * text.toList.length + 2) [] (by omega) (by simp [Stops])
  obtain ⟨left, read, skipped⟩ := reads
  rw [List.append_nil] at read
  simp only [read?, read, skipped]
  rfl

end ScriptHeap.Json
