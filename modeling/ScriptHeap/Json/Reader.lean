import ScriptHeap.Json.Basic
import ScriptHeap.Text.Hex

/-! Reading JSON. Each reader takes the characters that are left and gives back what it read with the
characters after it, or nothing. -/
namespace ScriptHeap.Json

abbrev Reader (α : Type) := List Char → Option (α × List Char)

/-! ## Tokens -/

/-- The four characters that may stand between tokens. -/
def isBlank (c : Char) : Bool := c == ' ' || c == '\n' || c == '\r' || c == '\t'

def skipBlank (input : List Char) : List Char := input.dropWhile isBlank

/-- Exactly the given characters. -/
def readWord : List Char → Reader Unit
  | [], input => some ((), input)
  | c :: word, next :: input => if c = next then readWord word input else none
  | _ :: _, [] => none

/-- At least one digit. -/
def readDigits (input : List Char) : Option (List Char × List Char) :=
  match input.span (·.isDigit) with
  | ([], _) => none
  | digits => some digits

/-- The digits before the point: a lone zero, or digits that do not begin with zero. -/
def readIntegral : Reader (List Char)
  | '0' :: input => some (['0'], input)
  | input => readDigits input

def readFraction : Reader (List Char)
  | '.' :: input => (readDigits input).map fun (digits, rest) => ('.' :: digits, rest)
  | input => some ([], input)

/-- The digits of an exponent with the letter and sign already taken. -/
def readExponentDigits (mark : List Char) (input : List Char) : Option (List Char × List Char) :=
  (readDigits input).map fun (digits, rest) => (mark ++ digits, rest)

def readExponent : Reader (List Char)
  | 'e' :: '+' :: input => readExponentDigits ['e', '+'] input
  | 'e' :: '-' :: input => readExponentDigits ['e', '-'] input
  | 'e' :: input => readExponentDigits ['e'] input
  | 'E' :: '+' :: input => readExponentDigits ['E', '+'] input
  | 'E' :: '-' :: input => readExponentDigits ['E', '-'] input
  | 'E' :: input => readExponentDigits ['E'] input
  | input => some ([], input)

def readUnsigned (input : List Char) : Option (List Char × List Char) := do
  let (integral, input) ← readIntegral input
  let (fraction, input) ← readFraction input
  let (exponent, input) ← readExponent input
  some (integral ++ fraction ++ exponent, input)

/-- A number literal. -/
def readNumber : Reader (List Char)
  | '-' :: input => (readUnsigned input).map fun (literal, rest) => ('-' :: literal, rest)
  | input => readUnsigned input

/-! ## Strings

A string is read into code units first: each character written as itself is one unit, and each
four-digit escape is one, which may be half of a surrogate pair. -/

/-- The unit of a four-digit escape. -/
def unit? (a b c d : Char) : Option Nat := do
  some ((((← Text.hexDigit? a) * 16 + (← Text.hexDigit? b)) * 16 + (← Text.hexDigit? c)) * 16 + (← Text.hexDigit? d))

/-- What a one-letter escape stands for. -/
def escaped? : Char → Option Nat
  | '"' => some 0x22
  | '\\' => some 0x5C
  | '/' => some 0x2F
  | 'b' => some 0x08
  | 'f' => some 0x0C
  | 'n' => some 0x0A
  | 'r' => some 0x0D
  | 't' => some 0x09
  | _ => none

/-- The units up to the closing quote. Control characters have to be escaped. -/
def readUnits : Reader (List Nat)
  | [] => none
  | '"' :: input => some ([], input)
  | '\\' :: 'u' :: a :: b :: c :: d :: input =>
    match unit? a b c d, readUnits input with
    | some unit, some (units, rest) => some (unit :: units, rest)
    | _, _ => none
  | '\\' :: letter :: input =>
    match escaped? letter, readUnits input with
    | some unit, some (units, rest) => some (unit :: units, rest)
    | _, _ => none
  | c :: input =>
    if c.toNat < 0x20 ∨ c = '\\' then none
    else (readUnits input).map fun (units, rest) => (c.toNat :: units, rest)

def isHighSurrogate (unit : Nat) : Bool := 0xD800 ≤ unit && unit < 0xDC00

def isLowSurrogate (unit : Nat) : Bool := 0xDC00 ≤ unit && unit < 0xE000

/-- The text of code units, if every surrogate is one of a pair. -/
def ofUnits? : List Nat → Option (List Char)
  | [] => some []
  | high :: low :: rest =>
    if isHighSurrogate high && isLowSurrogate low then
      (ofUnits? rest).map (Char.ofNat (0x10000 + (high - 0xD800) * 0x400 + (low - 0xDC00)) :: ·)
    else if isHighSurrogate high || isLowSurrogate high then none
    else (ofUnits? (low :: rest)).map (Char.ofNat high :: ·)
  | [unit] => if isHighSurrogate unit || isLowSurrogate unit then none else some [Char.ofNat unit]

/-- The text of a string whose opening quote has been taken. -/
def readText (input : List Char) : Option (Option String × List Char) :=
  (readUnits input).map fun (units, rest) => ((ofUnits? units).map String.ofList, rest)

/-- The key of a member and the colon after it. -/
def readKey (input : List Char) : Option (Option String × List Char) :=
  match skipBlank input with
  | '"' :: rest =>
    match readText rest with
    | some (key, rest) =>
      match skipBlank rest with
      | ':' :: rest => some (key, rest)
      | _ => none
    | none => none
  | _ => none

/-! ## Values

The first argument bounds how many readers may be at work inside one another. -/

mutual

/-- A value, with blanks allowed in front of it. -/
def readValue : Nat → Reader Json
  | 0, _ => none
  | depth + 1, input =>
    match skipBlank input with
    | 'n' :: rest => (readWord ['u', 'l', 'l'] rest).map fun (_, rest) => (.null, rest)
    | 't' :: rest => (readWord ['r', 'u', 'e'] rest).map fun (_, rest) => (.bool true, rest)
    | 'f' :: rest => (readWord ['a', 'l', 's', 'e'] rest).map fun (_, rest) => (.bool false, rest)
    | '"' :: rest => (readText rest).map fun (text, rest) => (.string text, rest)
    | '[' :: rest =>
      match skipBlank rest with
      | ']' :: rest => some (.array [], rest)
      | rest => (readItems depth rest).map fun (items, rest) => (.array items, rest)
    | '\x7b' :: rest =>
      match skipBlank rest with
      | '\x7d' :: rest => some (.object [], rest)
      | rest => (readMembers depth rest).map fun (members, rest) => (.object members, rest)
    | rest => (readNumber rest).map fun (literal, rest) => (.number (String.ofList literal), rest)

/-- The items of an array up to its end, at least one. -/
def readItems : Nat → Reader (List Json)
  | 0, _ => none
  | depth + 1, input =>
    match readValue depth input with
    | none => none
    | some (item, rest) =>
      match skipBlank rest with
      | ']' :: rest => some ([item], rest)
      | ',' :: rest => (readItems depth rest).map fun (items, rest) => (item :: items, rest)
      | _ => none

/-- The members of an object up to its end, at least one. -/
def readMembers : Nat → Reader (List (Option String × Json))
  | 0, _ => none
  | depth + 1, input =>
    match readKey input with
    | none => none
    | some (key, rest) =>
      match readValue depth rest with
      | none => none
      | some (value, rest) =>
        match skipBlank rest with
        | '\x7d' :: rest => some ([(key, value)], rest)
        | ',' :: rest =>
          (readMembers depth rest).map fun (members, rest) => ((key, value) :: members, rest)
        | _ => none

end

/-- The value that a text spells out from end to end. No more readers can be at work than the text has
characters to feed them, two to each. -/
def read? (text : String) : Option Json :=
  let input := text.toList
  match readValue (2 * input.length + 2) input with
  | some (json, rest) => if (skipBlank rest).isEmpty then some json else none
  | none => none

end ScriptHeap.Json
