import Walkthrough.Text.Blank
import Walkthrough.Text.Digit
import Walkthrough.Text.Caseless

/-!
Numbers read from text. The digits of every script count, single low lines may stand between two
digits, and blanks at both ends are passed over, the information separators excepted. A whole number
is a sign and digits. A real number may have a point and an exponent besides, or is one of the words
for infinity and not-a-number.
-/
namespace Walkthrough.Decimal

open Text

/-- The double nearest to `mantissa · 10 ^ exponent`. Exponents far beyond the range of doubles are
decided by their size alone. -/
def nearest (negative : Bool) (mantissa : Nat) (exponent : Int) : Float :=
  let magnitude : Int := (Nat.toDigits 10 mantissa).length + exponent
  let size : Float :=
    if mantissa = 0 || magnitude < -400 then 0
    else if 400 < magnitude then 1 / 0
    else if exponent < 0 then Float.ofScientific mantissa true exponent.natAbs
    else Float.ofScientific mantissa false exponent.toNat
  if negative then -size else size

def ofInt? (n : Int) : Option Float :=
  let x := nearest (n < 0) n.natAbs 0
  if x.isInf then none else some x

namespace Numeral

def isMargin (c : Char) : Bool := isBlank c && !(28 ≤ c.toNat && c.toNat ≤ 31)

def withoutMargins (s : List Char) : List Char :=
  ((s.dropWhile isMargin).reverse.dropWhile isMargin).reverse

def sign : List Char → Bool × List Char
  | '-' :: rest => (true, rest)
  | '+' :: rest => (false, rest)
  | s => (false, s)

/-- The digits at the front, the last first, and what follows them. A low line is passed over where
it stands between two digits. -/
def digitsAfter (read : List Nat) : List Char → List Nat × List Char
  | [] => (read, [])
  | '_' :: c :: rest =>
    match read, digitValue? c with
    | _ :: _, some d => digitsAfter (d :: read) rest
    | _, _ => (read, '_' :: c :: rest)
  | c :: rest =>
    match digitValue? c with
    | some d => digitsAfter (d :: read) rest
    | none => (read, c :: rest)

def digits (s : List Char) : List Nat × List Char := digitsAfter [] s

/-- The number whose digits, the last first, are `read`. -/
def value (read : List Nat) : Nat := read.foldr (fun d n => 10 * n + d) 0

def maxDigits : Nat := 4300

def int? (s : List Char) : Option Int :=
  let (negative, rest) := sign (withoutMargins s)
  match digits rest with
  | (d :: read, []) =>
    if maxDigits < read.length + 1 then none
    else if negative then some (-(value (d :: read) : Int)) else some (value (d :: read))
  | _ => none

def fraction : List Char → List Nat × List Char
  | '.' :: c :: rest =>
    if isDigit c then digits (c :: rest) else ([], c :: rest)
  | ['.'] => ([], [])
  | s => ([], s)

def exponent? : List Char → Option Int
  | [] => some 0
  | e :: rest =>
    if e = 'e' || e = 'E' then
      let (negative, rest) := sign rest
      match digits rest with
      | (d :: read, []) =>
        some (if negative then -(value (d :: read) : Int) else value (d :: read))
      | _ => none
    else none

def word? (s : List Char) : Option Float :=
  match String.ofList (s.map Char.toLower) with
  | "inf" | "infinity" => some (1 / 0)
  | "nan" => some (0 / 0)
  | _ => none

def float? (s : List Char) : Option Float :=
  let (negative, rest) := sign (withoutMargins s)
  let (whole, tail) := digits rest
  let (part, tail) := fraction tail
  if whole.isEmpty && part.isEmpty then
    (word? rest).map fun x => if negative then -x else x
  else
    (exponent? tail).map fun e =>
      nearest negative (value (part ++ whole)) (e - part.length)

end Numeral
end Walkthrough.Decimal
