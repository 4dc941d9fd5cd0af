import Walkthrough.Decimal.Binary

/-!
The shortest decimal of a double. A decimal reads back as the double exactly when it lies in the
interval of reals that round to it, whose ends belong to it when the mantissa is even. Of the grids
with one, two, … seventeen digits the first with a point in the interval is taken. If a grid has a
point there at all, one of the two grid points around the double is such a point; of two the nearer
is taken, and of two equally near the one with the even last digit.
-/
namespace Walkthrough.Decimal

structure Scaled where
  digits : Nat
  exponent : Int
  deriving DecidableEq, Repr

/-- The reals that round to a double, as multiples of the fraction `1 / unit`: the double itself and
the ends of its interval. -/
structure Interval where
  low : Nat
  value : Nat
  high : Nat
  unit : Nat
  closed : Bool

/-- The interval of `mantissa · 2 ^ exponent`. Below a power of two the doubles lie twice as close. -/
def Interval.of (mantissa : Nat) (exponent : Int) : Interval :=
  let narrow := mantissa = Nat.pow 2 52 && Binary.leastExponent < exponent
  let quarter := exponent - 2
  let up := Nat.pow 2 quarter.toNat
  { low := (4 * mantissa - (if narrow then 1 else 2)) * up
    value := 4 * mantissa * up
    high := (4 * mantissa + 2) * up
    unit := Nat.pow 2 (-quarter).toNat
    closed := mantissa % 2 == 0 }

def Interval.contains (i : Interval) (factor number : Nat) : Bool :=
  if i.closed then i.low * factor ≤ number && number ≤ i.high * factor
  else i.low * factor < number && number < i.high * factor

def digitCount (n : Nat) : Nat := (Nat.toDigits 10 n).length

def Interval.magnitude (i : Interval) : Int :=
  if i.unit ≤ i.value then digitCount (i.value / i.unit) - 1
  else
    let guess := digitCount i.unit - digitCount i.value
    if i.unit ≤ i.value * Nat.pow 10 guess then -guess else -(guess + 1 : Int)

/-- The point in the interval that is nearest to the value on the grid of the multiples of
`10 ^ exponent`. -/
def Interval.onGrid? (i : Interval) (exponent : Int) : Option Scaled :=
  let step := i.unit * Nat.pow 10 exponent.toNat
  let factor := Nat.pow 10 (-exponent).toNat
  let value := i.value * factor
  let below := value / step
  let gap := value % step
  let inside := fun digits => i.contains factor (digits * step)
  match inside below, inside (below + 1) with
  | true, false => some ⟨below, exponent⟩
  | false, true => some ⟨below + 1, exponent⟩
  | false, false => none
  | true, true =>
    if 2 * gap < step || (2 * gap = step && below % 2 = 0) then some ⟨below, exponent⟩
    else some ⟨below + 1, exponent⟩

/-- The first grid with a point in the interval, coarsest first. -/
def Interval.firstGrid (i : Interval) (exponent : Int) : (rounds : Nat) → Scaled
  | 0 => ⟨0, 0⟩
  | rounds + 1 => (i.onGrid? exponent).getD (i.firstGrid (exponent - 1) rounds)

/-- The shortest decimal of a positive double. Seventeen digits always tell doubles apart. A zero at
the end can only come from a carry through all digits, so the number is then a power of ten. -/
def shortest (mantissa : Nat) (exponent : Int) : Scaled :=
  let i := Interval.of mantissa exponent
  let point := i.firstGrid i.magnitude 17
  if point.digits % 10 = 0 then ⟨1, point.exponent + digitCount point.digits - 1⟩ else point

example : shortest 1 (-1074) = ⟨5, -324⟩ := by decide +kernel
example : shortest 0x1999999999999A (-56) = ⟨1, -1⟩ := by decide +kernel
example : shortest 0x1AD7F29ABCAF48 (-76) = ⟨1, -7⟩ := by decide +kernel

end Walkthrough.Decimal
