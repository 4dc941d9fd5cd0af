/-!
A double as an exact number: a sign, a whole mantissa and a power of two. Infinities and not-a-number
have no such form.
-/
namespace Walkthrough.Decimal

/-- The number `mantissa · 2 ^ exponent`, or its negative. -/
structure Binary where
  negative : Bool
  mantissa : Nat
  exponent : Int
  deriving DecidableEq, Repr

namespace Binary

def leastExponent : Int := -1074

def ofBits? (bits : UInt64) : Option Binary :=
  let negative := bits >>> 63 == 1
  let field := ((bits >>> 52) &&& 0x7FF).toNat
  let fraction := (bits &&& 0xFFFFFFFFFFFFF).toNat
  if field = 0x7FF then none
  else if field = 0 then some ⟨negative, fraction, leastExponent⟩
  else some ⟨negative, fraction + Nat.pow 2 52, leastExponent + (field - 1)⟩

def ofFloat? (x : Float) : Option Binary := ofBits? x.toBits

def truncate (b : Binary) : Int :=
  let magnitude :=
    if 0 ≤ b.exponent then b.mantissa * Nat.pow 2 b.exponent.toNat
    else b.mantissa / Nat.pow 2 b.exponent.natAbs
  if b.negative then -(magnitude : Int) else magnitude

example : (ofBits? 0x40960E6666666666).map truncate = some 1411 := by decide

end Binary
end Walkthrough.Decimal
