import ScriptHeap.Decimal.Shortest

/-! The written form of a number. -/
namespace ScriptHeap.Decimal

/-- How a string of digits becomes a number's text: the leading exponents that are written out
positionally, and the words for what has no digits. -/
structure Notation where
  leastPositional : Int
  greatestPositional : Int
  notANumber : String
  infinity : String

/-- Magnitudes from 0.0001 up to but not including 10 ^ 16 are positional, all others have an
exponent. -/
def diagnostic : Notation := ⟨-4, 15, "NaN", "inf"⟩

/-- Digits with a point after the first `whole` of them and at least one digit on each side. -/
def positional (digits : List Char) (whole : Int) : String :=
  if whole ≤ 0 then
    "0." ++ String.ofList (List.replicate (-whole).toNat '0' ++ digits)
  else
    let places := whole.toNat
    let integral := digits.take places ++ List.replicate (places - digits.length) '0'
    let fractional := digits.drop places
    String.ofList integral ++ "." ++ (if fractional.isEmpty then "0" else String.ofList fractional)

/-- One digit before the point, the others if any behind it, then the exponent. -/
def exponential (digits : List Char) (leading : Int) : String :=
  let rest := digits.drop 1
  String.ofList (digits.take 1) ++ (if rest.isEmpty then "" else "." ++ String.ofList rest)
    ++ "e" ++ toString leading

/-- A fraction as text. Its leading exponent is the power of ten of its first digit. -/
def Fraction.text (f : Fraction) (style : Notation) : String :=
  let digits := Nat.toDigits 10 f.digits
  let leading := f.exponent + digits.length - 1
  if style.leastPositional ≤ leading ∧ leading ≤ style.greatestPositional then
    positional digits (leading + 1)
  else exponential digits leading

/-- The text of a number: the fewest digits that read back as the same number. -/
def text (d : Decimal) (style : Notation) : String :=
  if d.isNaN then style.notANumber
  else
    let sign := if d.isNegative then "-" else ""
    if d.isInfinite then sign ++ style.infinity
    else if d.isZero then sign ++ "0.0"
    else sign ++ d.magnitude.shortest.text style

end ScriptHeap.Decimal
