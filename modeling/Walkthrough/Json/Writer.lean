import Walkthrough.Json.Value
import Walkthrough.Text.Quoted
import Walkthrough.Decimal.Layout

/-!
Writing JSON in ASCII. Other units of a string are escaped by their numbers. A value stands on one
line, or its items and fields stand on lines of their own, indented by their depth.
-/
namespace Walkthrough.Json

open Text (Units)

def realLayout : Decimal.Layout := { Decimal.plainLayout with nan := "NaN", infinity := "Infinity" }

def escaped (unit : UInt16) : String :=
  let c := Char.ofNat unit.toNat
  if c = '"' then "\\\""
  else if c = '\\' then "\\\\"
  else if c = '\n' then "\\n"
  else if c = '\r' then "\\r"
  else if c = '\t' then "\\t"
  else if c = '\x0C' then "\\f"
  else if c = '\x08' then "\\b"
  else if 0x20 ≤ unit.toNat && unit.toNat ≤ 0x7E then String.singleton c
  else "\\u" ++ Text.hex 4 unit.toNat

def putString (out : String) (units : Units) : String :=
  units.toList.foldl (fun out unit => out ++ escaped unit) (out.push '"') |>.push '"'

def lineStart (indent : Option Nat) (depth : Nat) : String :=
  match indent with
  | none => ""
  | some width => "\n" ++ String.ofList (List.replicate (width * depth) ' ')

def separator (indent : Option Nat) (depth : Nat) : String :=
  match indent with
  | none => ", "
  | some _ => "," ++ lineStart indent depth

mutual

def put (indent : Option Nat) (depth : Nat) (out : String) : Json → String
  | null => out ++ "null"
  | bool value => out ++ (if value then "true" else "false")
  | integer value => out ++ toString value
  | real value => out ++ realLayout.write value
  | string units => putString out units
  | list [] => out ++ "[]"
  | list (item :: items) =>
    let out := put indent (depth + 1) (out ++ "[" ++ lineStart indent (depth + 1)) item
    putItems indent (depth + 1) out items ++ lineStart indent depth ++ "]"
  | object [] => out ++ "\x7b\x7d"
  | object ((name, value) :: fields) =>
    let out := putString (out ++ "\x7b" ++ lineStart indent (depth + 1)) name ++ ": "
    let out := put indent (depth + 1) out value
    putFields indent (depth + 1) out fields ++ lineStart indent depth ++ "\x7d"

def putItems (indent : Option Nat) (depth : Nat) (out : String) : List Json → String
  | [] => out
  | item :: items =>
    putItems indent depth (put indent depth (out ++ separator indent depth) item) items

def putFields (indent : Option Nat) (depth : Nat) (out : String) : List (Units × Json) → String
  | [] => out
  | (name, value) :: fields =>
    let out := putString (out ++ separator indent depth) name ++ ": "
    putFields indent depth (put indent depth out value) fields

end

def compress (value : Json) : String := put none 0 "" value

/-- The value over several lines, two columns for each depth. -/
def pretty (value : Json) : String := put (some 2) 0 "" value

end Walkthrough.Json
