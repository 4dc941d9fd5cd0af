import Walkthrough.File.Disk
import Walkthrough.Run.Variables
import Walkthrough.Table.Content
import Walkthrough.Text.Blank

/-!
Tables of rows to run for. The first row that is not blank names the columns, and each further one
gives a value for every column. Blanks around names and values do not count.
-/
namespace Walkthrough

open Text

inductive TableError where
  | unreadable (path : Path) (e : SystemError)
  | malformed (path : Path) (e : Csv.Error)
  | empty (path : Path)
  | emptyHeader (path : Path)
  | noRows (path : Path)
  /-- The row with this number, the header being the first, is not as wide as the header. -/
  | width (path : Path) (row values expected : Nat)
  deriving DecidableEq, Repr

def TableError.message : TableError → Units
  | unreadable path e => "Could not read datatable " ++ path.text ++ (": " ++ e.message)
  | malformed path e => "Malformed datatable " ++ path.text ++ (": " ++ e.message)
  | empty path => "Datatable " ++ path.text ++ " is empty"
  | emptyHeader path => "Datatable " ++ path.text ++ " has an empty column header"
  | noRows path => "Datatable " ++ path.text ++ " has no data rows"
  | width path row values expected =>
    "Datatable " ++ path.text ++ s!" row {row} has {values} values, expected {expected}"

namespace Datatable

def isBlankRow (row : Csv.Row) : Bool := row.all allBlank

def bind (headers row : Csv.Row) : Bindings :=
  (headers.zip row).foldl (fun b (name, value) =>
    b.set (String.ofList (trim name)) (String.ofList (trim value))) []

/-- The bindings of the rows, of which the first has this number. -/
def bindAll (path : Path) (headers : Csv.Row) (number : Nat) : List Csv.Row → Except TableError (List Bindings)
  | [] => .ok []
  | row :: later =>
    if row.length = headers.length then
      return bind headers row :: (← bindAll path headers (number + 1) later)
    else .error (.width path number row.length headers.length)

def ofRows (path : Path) (rows : List Csv.Row) : Except TableError (List Bindings) :=
  match rows.filter (!isBlankRow ·) with
  | [] => .error (.empty path)
  | headers :: rows =>
    if headers.any allBlank then .error (.emptyHeader path)
    else if rows.isEmpty then .error (.noRows path)
    else bindAll path headers 2 rows

def ofText (path : Path) (s : List Char) : Except TableError (List Bindings) :=
  match Csv.rows s with
  | .ok rows => ofRows path rows
  | .error e => .error (.malformed path e)

def load (d : Disk) (path : Path) : Except Fault (Except TableError (List Bindings)) :=
  match d.read path with
  | .error (.system e) => .ok (.error (.unreadable path e))
  | .error fault => .error fault
  | .ok content =>
    match Content.ofOctets content with
    | .text s => .ok (ofText path s)
    | .broken lines =>
      match Csv.rows lines with
      | .ok _ => .error .undecodable
      | .error e => .ok (.error (.malformed path e))

def runNames (script : String) (count : Nat) : List String :=
  (List.range count).map fun i => script ++ "_" ++ toString (i + 1)

end Datatable
end Walkthrough
