import Walkthrough.Json.Value
import Walkthrough.Decimal.Numeral

/-!
Reading JSON. Beside the standard's values the words `NaN`, `Infinity` and `-Infinity` are numbers; of
two fields with one name the later counts. Whole numbers have at most as many digits as any other
numeral, and lists and objects may stand in one another to a fixed depth.
-/
namespace Walkthrough.Json

open Text (Units unitsOf)

inductive ReadError where
  | malformed
  | tooLong
  | tooDeep
  deriving DecidableEq, Repr

abbrev Read (α : Type) := Except ReadError α

def maxDepth : Nat := 990

def isSpace (c : Char) : Bool := c = ' ' || c = '\t' || c = '\n' || c = '\r'

def skipSpace (s : List Char) : List Char := s.dropWhile isSpace

/-- What follows `word` if `s` begins with it. -/
def afterWord? (word : String) (s : List Char) : Option (List Char) :=
  if word.toList.isPrefixOf s then some (s.drop word.length) else none

def hexValue? (c : Char) : Option Nat :=
  if c.isDigit then some (c.toNat - 48)
  else if 'a' ≤ c && c ≤ 'f' then some (c.toNat - 87)
  else if 'A' ≤ c && c ≤ 'F' then some (c.toNat - 55)
  else none

def unit? (a b c d : Char) : Option UInt16 := do
  let a ← hexValue? a
  let b ← hexValue? b
  let c ← hexValue? c
  let d ← hexValue? d
  return .ofNat (((a * 16 + b) * 16 + c) * 16 + d)

def letterEscape? (c : Char) : Option Char :=
  match c with
  | '"' => some '"'
  | '\\' => some '\\'
  | '/' => some '/'
  | 'b' => some '\x08'
  | 'f' => some '\x0C'
  | 'n' => some '\n'
  | 'r' => some '\r'
  | 't' => some '\t'
  | _ => none

/-- The rest of a string after its opening quote; `read` holds the units so far, the last first. -/
def stringAfter (read : List UInt16) : List Char → Read (Units × List Char)
  | [] => .error .malformed
  | '"' :: rest => .ok (⟨read.reverse⟩, rest)
  | '\\' :: 'u' :: a :: b :: c :: d :: rest =>
    match unit? a b c d with
    | none => .error .malformed
    | some unit => stringAfter (unit :: read) rest
  | '\\' :: c :: rest =>
    match letterEscape? c with
    | none => .error .malformed
    | some meant => stringAfter ((unitsOf meant).reverse ++ read) rest
  | c :: rest =>
    if c.toNat < 0x20 then .error .malformed else stringAfter ((unitsOf c).reverse ++ read) rest

def natOf (digits : List Char) : Nat := digits.foldl (fun n c => 10 * n + (c.toNat - 48)) 0

/-- The whole part of a number: a lone zero, or digits that begin with another. -/
def wholePart? (s : List Char) : Option (List Char × List Char) :=
  match s with
  | '0' :: rest => some (['0'], rest)
  | c :: _ => if c.isDigit then some (s.span Char.isDigit) else none
  | [] => none

def fractionPart (s : List Char) : List Char × List Char :=
  match s with
  | '.' :: c :: rest => if c.isDigit then (c :: rest).span Char.isDigit else ([], s)
  | _ => ([], s)

def exponentPart (s : List Char) : Option Int × List Char :=
  match s with
  | e :: rest =>
    if e = 'e' || e = 'E' then
      let (negative, rest) := Decimal.Numeral.sign rest
      let (digits, after) := rest.span Char.isDigit
      if digits.isEmpty then (none, s)
      else (some (if negative then -(natOf digits : Int) else natOf digits), after)
    else (none, s)
  | [] => (none, s)

def number (negative : Bool) (s : List Char) : Read (Json × List Char) :=
  match wholePart? s with
  | none => .error .malformed
  | some (whole, rest) =>
    let (part, rest) := fractionPart rest
    let (exponent, rest) := exponentPart rest
    if part.isEmpty && exponent.isNone then
      if Decimal.Numeral.maxDigits < whole.length then .error .tooLong
      else .ok (integer (if negative then -(natOf whole : Int) else natOf whole), rest)
    else
      let scale := exponent.getD 0 - part.length
      .ok (real (Decimal.nearest negative (natOf (whole ++ part)) scale), rest)

def simple (s : List Char) : Read (Json × List Char) :=
  match s with
  | '"' :: rest => (stringAfter [] rest).map fun (units, rest) => (string units, rest)
  | '-' :: rest =>
    match afterWord? "Infinity" rest with
    | some rest => .ok (real (-(1 / 0)), rest)
    | none => number true rest
  | _ =>
    match afterWord? "null" s, afterWord? "true" s, afterWord? "false" s with
    | some rest, _, _ => .ok (null, rest)
    | _, some rest, _ => .ok (bool true, rest)
    | _, _, some rest => .ok (bool false, rest)
    | none, none, none =>
      match afterWord? "NaN" s, afterWord? "Infinity" s with
      | some rest, _ => .ok (real (0 / 0), rest)
      | _, some rest => .ok (real (1 / 0), rest)
      | none, none => number false s

mutual

/-- A value, no blanks in front. Each step takes a unit of `fuel`. -/
def value (depth : Nat) (s : List Char) : (fuel : Nat) → Read (Json × List Char)
  | 0 => .error .malformed
  | fuel + 1 =>
    match s with
    | '[' :: rest =>
      if maxDepth ≤ depth then .error .tooDeep
      else
        match skipSpace rest with
        | ']' :: rest => .ok (list [], rest)
        | rest => items (depth + 1) [] rest fuel
    | '\x7b' :: rest =>
      if maxDepth ≤ depth then .error .tooDeep
      else
        match skipSpace rest with
        | '\x7d' :: rest => .ok (object [], rest)
        | rest => fields (depth + 1) [] rest fuel
    | _ => simple s

/-- The items of a list from the next one on, after those already read, the last first. -/
def items (depth : Nat) (read : List Json) (s : List Char) : (fuel : Nat) → Read (Json × List Char)
  | 0 => .error .malformed
  | fuel + 1 => do
    let (item, rest) ← value depth s fuel
    match skipSpace rest with
    | ']' :: rest => .ok (list (item :: read).reverse, rest)
    | ',' :: rest => items depth (item :: read) (skipSpace rest) fuel
    | _ => .error .malformed

def fields (depth : Nat) (read : List (Units × Json)) (s : List Char) : (fuel : Nat) → Read (Json × List Char)
  | 0 => .error .malformed
  | fuel + 1 =>
    match s with
    | '"' :: rest => do
      let (name, rest) ← stringAfter [] rest
      match skipSpace rest with
      | ':' :: rest =>
        let (item, rest) ← value depth (skipSpace rest) fuel
        match skipSpace rest with
        | '\x7d' :: rest => .ok (object (setField name item read), rest)
        | ',' :: rest => fields depth (setField name item read) (skipSpace rest) fuel
        | _ => .error .malformed
      | _ => .error .malformed
    | _ => .error .malformed

end

/-- The one value that the text holds. Every step of the reading either takes a character or opens a
list or an object that took one, so twice the length is fuel enough. -/
def parse (s : List Char) : Except ReadError Json := do
  let (item, rest) ← value 0 (skipSpace s) (2 * s.length + 2)
  if (skipSpace rest).isEmpty then .ok item else .error .malformed

end Walkthrough.Json
