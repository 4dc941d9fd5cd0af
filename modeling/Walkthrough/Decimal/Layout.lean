import Walkthrough.Decimal.Shortest

/-!
How a double is laid out in print: which numbers are written with an exponent, and what numbers that
are not finite are called.
-/
namespace Walkthrough.Decimal

structure Layout where
  /-- Leading digits at this power of ten or above stand in positional notation. -/
  positionalFrom : Int
  /-- Leading digits at this power of ten or above are written with an exponent. -/
  positionalBelow : Int
  exponentWidth : Nat
  nan : String
  infinity : String

/-- Positional from 0.0001 to below 10 ^ 16, and always with a point or an exponent. -/
def plainLayout : Layout := ⟨-4, 16, 2, "nan", "inf"⟩

namespace Layout

def padded (width n : Nat) : String :=
  let digits := toString n
  String.ofList (List.replicate (width - digits.length) '0') ++ digits

def positional (digits : List Char) (exponent : Int) : String :=
  let point := digits.length + exponent
  if 0 ≤ exponent then
    String.ofList (digits ++ List.replicate exponent.toNat '0') ++ ".0"
  else if point ≤ 0 then
    "0." ++ String.ofList (List.replicate point.natAbs '0' ++ digits)
  else
    String.ofList (digits.take point.toNat) ++ "." ++ String.ofList (digits.drop point.toNat)

/-- A positive number with one digit before the point, and no point if that is all. -/
def scientific (l : Layout) (digits : List Char) (magnitude : Int) : String :=
  let fraction := digits.drop 1
  String.ofList (digits.take 1) ++
    (if fraction.isEmpty then "" else "." ++ String.ofList fraction) ++
    (if magnitude < 0 then "e-" else "e+") ++ padded l.exponentWidth magnitude.natAbs

/-- The digits of a shortest decimal have no zeros at their end, except in whole numbers. -/
def write (l : Layout) (x : Float) : String :=
  match Binary.ofFloat? x with
  | none => if x.isNaN then l.nan else if x < 0 then "-" ++ l.infinity else l.infinity
  | some b =>
    let sign := if b.negative then "-" else ""
    if b.mantissa = 0 then sign ++ "0.0"
    else
      let decimal := shortest b.mantissa b.exponent
      let digits := Nat.toDigits 10 decimal.digits
      let magnitude := digits.length + decimal.exponent - 1
      sign ++
        if l.positionalFrom ≤ magnitude && magnitude < l.positionalBelow then
          positional digits decimal.exponent
        else l.scientific digits magnitude

end Layout
end Walkthrough.Decimal
