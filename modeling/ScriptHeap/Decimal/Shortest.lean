import ScriptHeap.Decimal.Basic

/-! The shortest digits of a number. Among the decimal fractions that read back as a given number,
those with the fewest digits are wanted, and of these the one nearest to it. They are found on ever
finer grids of powers of ten: on the first grid with a point in the number's rounding interval, that
point is one of the two neighbours of the number. -/
namespace ScriptHeap.Decimal

/-- The numbers that round to a magnitude, all in units of 2 ^ -151: the exact value, and the ends of
the interval. The ends belong to it when the significand is even. -/
structure Interval where
  value : Nat
  low : Nat
  high : Nat
  closed : Bool
deriving DecidableEq, Repr

/-- Each end lies half way to the neighbouring number, and the neighbour below a power of two is only
half as far as the one above. -/
def Magnitude.interval (m : Magnitude) : Interval :=
  let unit := Nat.pow 2 (m.power + 2)
  let below := if m.significand = leadingBit ∧ 0 < m.power then unit / 4 else unit / 2
  { value := m.significand * unit
    low := m.significand * unit - below
    high := m.significand * unit + unit / 2
    closed := m.significand % 2 = 0 }

/-- Whether `point / scale` lies in the interval. -/
def Interval.admits (i : Interval) (scale point : Nat) : Bool :=
  if i.closed then i.low * scale ≤ point && point ≤ i.high * scale
  else i.low * scale < point && point < i.high * scale

/-- A decimal fraction `digits * 10 ^ exponent`. -/
structure Fraction where
  digits : Nat
  exponent : Int
deriving DecidableEq, Repr

/-- The neighbour on the grid of step `10 ^ exponent` that reads back, the nearer of two, and the
larger of two that are equally near. -/
def Interval.onGrid (i : Interval) (exponent : Int) : Option Fraction :=
  let scale := Nat.pow 10 (-exponent).toNat
  let spacing := Nat.pow 10 exponent.toNat * Nat.pow 2 151
  let lower := i.value * scale / spacing
  let upper := lower + 1
  let admitted (n : Nat) : Bool := i.admits scale (n * spacing)
  let remainder := i.value * scale % spacing
  match admitted lower, admitted upper with
  | true, true => some ⟨if 2 * remainder < spacing then lower else upper, exponent⟩
  | true, false => some ⟨lower, exponent⟩
  | false, true => some ⟨upper, exponent⟩
  | false, false => none

/-- The first grid with a hit, from `10 ^ exponent` downwards over `count` grids. -/
def Interval.firstHit (i : Interval) : Nat → Int → Option Fraction
  | 0, _ => none
  | count + 1, exponent =>
    match i.onGrid exponent with
    | some fraction => some fraction
    | none => i.firstHit count (exponent - 1)

/-- Every magnitude lies below 10 ^ 39, and the grid of step 10 ^ -46 is finer than the narrowest
interval, so these 86 grids always hold a hit. -/
def Magnitude.shortest (m : Magnitude) : Fraction :=
  (m.interval.firstHit 86 39).getD ⟨0, 0⟩

end ScriptHeap.Decimal
