/-!
Comma-separated rows. A field that begins with a quotation mark goes on to the next single one, commas
and line ends included, and two marks in it stand for one; what follows the closing mark belongs to the
field as it is. Elsewhere a quotation mark is a character like any other. A quoted field that is never
closed ends with the text.
-/
namespace Walkthrough.Csv

def fieldLimit : Nat := 131072

inductive Error where
  | fieldTooLong
  deriving DecidableEq, Repr

def Error.message : Error → String
  | fieldTooLong => "field larger than field limit (" ++ toString fieldLimit ++ ")"

abbrev Row := List (List Char)

inductive Position where
  | rowStart
  | fieldStart
  | bare
  | quoted
  | closing
  deriving DecidableEq, Repr

/-- What has been read of a row: the fields before this one, and this one with its length, all of them
reversed. -/
structure Partial where
  fields : Row := []
  field : List Char := []
  length : Nat := 0

namespace Partial

def add (p : Partial) (c : Char) : Except Error Partial :=
  if fieldLimit ≤ p.length then .error .fieldTooLong
  else .ok { p with field := c :: p.field, length := p.length + 1 }

def endField (p : Partial) : Partial := { fields := p.field.reverse :: p.fields }

def row (p : Partial) : Row := p.endField.fields.reverse

end Partial

def endRow (p : Partial) : Position → Row
  | .rowStart => []
  | _ => p.row

/-- Where a character leads that is no line end, or stands in a quoted field. -/
def step (p : Partial) (c : Char) : Position → Except Error (Partial × Position)
  | .rowStart | .fieldStart =>
    if c = '"' then .ok (p, .quoted)
    else if c = ',' then .ok (p.endField, .fieldStart)
    else return (← p.add c, .bare)
  | .bare =>
    if c = ',' then .ok (p.endField, .fieldStart) else return (← p.add c, .bare)
  | .quoted =>
    if c = '"' then .ok (p, .closing) else return (← p.add c, .quoted)
  | .closing =>
    if c = '"' then return (← p.add c, .quoted)
    else if c = ',' then .ok (p.endField, .fieldStart)
    else return (← p.add c, .bare)

def isLineEnd (c : Char) : Bool := c = '\n' || c = '\r'

def rowsAfter (p : Partial) (position : Position) : List Char → Except Error (List Row)
  | [] => .ok (if position = .rowStart then [] else [p.row])
  | c :: rest =>
    if isLineEnd c && position != .quoted then
      match c, rest with
      | '\r', '\n' :: rest => do return endRow p position :: (← rowsAfter {} .rowStart rest)
      | _, rest => do return endRow p position :: (← rowsAfter {} .rowStart rest)
    else do
      let (p, position) ← step p c position
      rowsAfter p position rest

def rows (s : List Char) : Except Error (List Row) := rowsAfter {} .rowStart s

end Walkthrough.Csv
