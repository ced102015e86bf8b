import ScriptHeap.Json.Reader

/-! The grammar of JSON: which characters spell out a value. It says nothing about how they are read. -/
namespace ScriptHeap.Json

/-- Characters that may stand between tokens. -/
def Blank (chars : List Char) : Prop := ∀ c ∈ chars, c ∈ [' ', '\n', '\r', '\t']

/-! ## Numbers -/

def Digits (chars : List Char) : Prop := chars ≠ [] ∧ ∀ c ∈ chars, c.isDigit = true

/-- The digits before the point have no needless zero in front. -/
def Integral (chars : List Char) : Prop := Digits chars ∧ (chars.head? = some '0' → chars = ['0'])

inductive Fraction : List Char → Prop where
  | absent : Fraction []
  | digits {chars} (spelled : Digits chars) : Fraction ('.' :: chars)

inductive Exponent : List Char → Prop where
  | absent : Exponent []
  | digits {letter sign chars} (letters : letter ∈ ['e', 'E']) (signs : sign ∈ [[], ['+'], ['-']])
      (spelled : Digits chars) : Exponent (letter :: (sign ++ chars))

inductive Numeral : List Char → Prop where
  | intro {sign integral fraction exponent} (signs : sign ∈ [[], ['-']]) (whole : Integral integral)
      (part : Fraction fraction) (power : Exponent exponent) :
      Numeral (sign ++ (integral ++ fraction ++ exponent))

/-! ## Strings -/

/-- The ways to spell a code unit: a character as it is, a letter that stands for one, and four
hexadecimal digits. -/
inductive UnitSpelled : Nat → List Char → Prop where
  | plain {c : Char} (printable : 0x20 ≤ c.toNat) (inside : c ≠ '"') (itself : c ≠ '\\') :
      UnitSpelled c.toNat [c]
  | short {letter unit} (listed : (letter, unit) ∈ [('"', 0x22), ('\\', 0x5C), ('/', 0x2F), ('b', 0x08),
      ('f', 0x0C), ('n', 0x0A), ('r', 0x0D), ('t', 0x09)]) : UnitSpelled unit ['\\', letter]
  | long {a b c d} {high upper lower low : Nat} (first : Text.hexDigit? a = some high)
      (second : Text.hexDigit? b = some upper) (third : Text.hexDigit? c = some lower)
      (fourth : Text.hexDigit? d = some low) :
      UnitSpelled (((high * 16 + upper) * 16 + lower) * 16 + low) ['\\', 'u', a, b, c, d]

inductive UnitsSpelled : List Nat → List Char → Prop where
  | nil : UnitsSpelled [] []
  | cons {unit chars units more} (first : UnitSpelled unit chars) (rest : UnitsSpelled units more) :
      UnitsSpelled (unit :: units) (chars ++ more)

/-- A string in its quotes. -/
inductive Quoted : Option String → List Char → Prop where
  | intro {units chars} (spelled : UnitsSpelled units chars) :
      Quoted ((ofUnits? units).map String.ofList) ('"' :: (chars ++ ['"']))

/-- The name of a member. -/
inductive NameSpelled : Option String → List Char → Prop where
  | intro {name before chars after} (front : Blank before) (quoted : Quoted name chars)
      (back : Blank after) : NameSpelled name (before ++ (chars ++ after))

/-! ## Values -/

/-- What is spelled out: a value, a value with blanks around it, or what stands between the brackets of an
array or of an object. -/
inductive Part where
  | value (json : Json)
  | element (json : Json)
  | items (items : List Json)
  | members (members : List (Option String × Json))

inductive Spells : Part → List Char → Prop where
  | null : Spells (.value .null) ['n', 'u', 'l', 'l']
  | true : Spells (.value (.bool Bool.true)) ['t', 'r', 'u', 'e']
  | false : Spells (.value (.bool Bool.false)) ['f', 'a', 'l', 's', 'e']
  | number {chars} (numeral : Numeral chars) : Spells (.value (.number (String.ofList chars))) chars
  | string {text chars} (quoted : Quoted text chars) : Spells (.value (.string text)) chars
  | emptyArray {blank} (between : Blank blank) : Spells (.value (.array [])) ('[' :: (blank ++ [']']))
  | array {items chars} (inside : Spells (.items items) chars) :
      Spells (.value (.array items)) ('[' :: (chars ++ [']']))
  | emptyObject {blank} (between : Blank blank) :
      Spells (.value (.object [])) ('\x7b' :: (blank ++ ['\x7d']))
  | object {members chars} (inside : Spells (.members members) chars) :
      Spells (.value (.object members)) ('\x7b' :: (chars ++ ['\x7d']))
  | element {json before chars after} (front : Blank before) (spelled : Spells (.value json) chars)
      (back : Blank after) : Spells (.element json) (before ++ (chars ++ after))
  | lastItem {item chars} (spelled : Spells (.element item) chars) : Spells (.items [item]) chars
  | item {item items chars more} (spelled : Spells (.element item) chars)
      (rest : Spells (.items items) more) : Spells (.items (item :: items)) (chars ++ ',' :: more)
  | lastMember {name value key chars} (named : NameSpelled name key)
      (spelled : Spells (.element value) chars) :
      Spells (.members [(name, value)]) (key ++ ':' :: chars)
  | member {name value members key chars more} (named : NameSpelled name key)
      (spelled : Spells (.element value) chars) (rest : Spells (.members members) more) :
      Spells (.members ((name, value) :: members)) (key ++ ':' :: (chars ++ ',' :: more))

/-- A text spells out a value from end to end. -/
def SpelledBy (json : Json) (text : String) : Prop := Spells (.element json) text.toList

end ScriptHeap.Json
