/-! Decimal numbers of scripts: binary32, kept as their bit pattern so that every pattern, NaN
payloads included, survives being stored and read. -/
namespace ScriptHeap

/-- A single-precision number. Structural equality compares bit patterns; `Decimal.same` is the
numeric comparison that scripts see. -/
structure Decimal where
  bits : UInt32
deriving DecidableEq, Repr, Inhabited

namespace Decimal

/-- The sign bit; it is also set on negative zero and may be set on a NaN. -/
def isNegative (d : Decimal) : Bool := 0x80000000 ≤ d.bits

/-- The weight of the leading bit, which normal numbers do not spell out. The fraction is below it. -/
def leadingBit : Nat := 0x800000

/-- The exponent field, from 0 (zeros and subnormals) to 255 (infinities and NaNs). -/
def exponentField (d : Decimal) : Nat := d.bits.toNat / leadingBit % 256

/-- The fraction field. -/
def fractionField (d : Decimal) : Nat := d.bits.toNat % leadingBit

def isNaN (d : Decimal) : Bool := d.exponentField == 255 && d.fractionField != 0

def isInfinite (d : Decimal) : Bool := d.exponentField == 255 && d.fractionField == 0

def isZero (d : Decimal) : Bool := d.exponentField == 0 && d.fractionField == 0

/-- Numeric equality: a NaN differs from everything, itself included, and the two zeros agree. -/
def same (a b : Decimal) : Bool :=
  !a.isNaN && !b.isNaN && (a == b || (a.isZero && b.isZero))

/-- The magnitude of a finite number is `significand * 2 ^ power`, the power counted from -149. -/
structure Magnitude where
  significand : Nat
  power : Nat
deriving DecidableEq, Repr

/-- Subnormals have no implicit leading bit and share the least power. -/
def magnitude (d : Decimal) : Magnitude :=
  if d.exponentField = 0 then ⟨d.fractionField, 0⟩
  else ⟨leadingBit + d.fractionField, d.exponentField - 1⟩

end Decimal
end ScriptHeap
