/-! Hexadecimal text of numbers and of byte strings. -/
namespace ScriptHeap.Text

/-- `0x` and the lower-case digits of `n`, with zeros in front up to `width` digits. -/
def hex (width n : Nat) : String :=
  let digits := Nat.toDigits 16 n
  "0x" ++ String.ofList (List.replicate (width - digits.length) '0' ++ digits)

/-- Two digits for each byte. -/
def hexBytes (bytes : List UInt8) : String :=
  String.ofList (bytes.flatMap fun byte =>
    [Nat.digitChar (byte.toNat / 16), Nat.digitChar (byte.toNat % 16)])

/-- The value of a hexadecimal digit in either case. -/
def hexDigit? (c : Char) : Option Nat :=
  if '0' ≤ c ∧ c ≤ '9' then some (c.toNat - '0'.toNat)
  else if 'a' ≤ c ∧ c ≤ 'f' then some (c.toNat - 'a'.toNat + 10)
  else if 'A' ≤ c ∧ c ≤ 'F' then some (c.toNat - 'A'.toNat + 10)
  else none

/-- The bytes that a text of digit pairs spells. -/
def unhex? : List Char → Option (List UInt8)
  | [] => some []
  | high :: low :: rest => do
    let byte := (← hexDigit? high) * 16 + (← hexDigit? low)
    some (byte.toUInt8 :: (← unhex? rest))
  | [_] => none

end ScriptHeap.Text
