import Walkthrough.Fault
import Walkthrough.File.Name
import Walkthrough.File.Path

/-!
A disk: the files and directories under a root, and the directory in which the program works. Paths are
followed step by step, so every directory on the way has to be there. Operations that fail leave the
disk as it was.
-/
namespace Walkthrough

open Text (Units)

inductive Item where
  | file (content : ByteArray)
  | directory

def Item.same : Item → Item → Bool
  | .file content, .file other => content.data == other.data
  | .directory, .directory => true
  | _, _ => false

/-- The names that lead to an item from the root, which is always a directory. -/
abbrev Place := Array FileName

def Path.names (p : Path) : Except Fault (List FileName) :=
  match p.steps.mapM FileName.ofUnits? with
  | none => .error .unencodable
  | some names =>
    if names.any fun name => name.octets.contains 0 then .error .invalidValue else .ok names

structure Disk where
  items : List (Place × Item) := []
  here : Place := #[]

namespace Disk

def maxName : Nat := 255

def maxPath : Nat := 4095

def item? (d : Disk) (place : Place) : Option Item :=
  if place.isEmpty then some .directory else d.items.lookup place

def put (d : Disk) (place : Place) (item : Item) : Disk :=
  { d with items := (place, item) :: d.items.filter (·.1 != place) }

def erase (d : Disk) (place : Place) : Disk := { d with items := d.items.filter (·.1 != place) }

/-- What another disk holds that this one does not hold in its place. -/
def changes (before after : Disk) : List (Place × Item) :=
  after.items.filter fun (place, item) => !(before.item? place).any item.same

def step (d : Disk) (place : Place) (name : FileName) : Except ErrorNumber Place :=
  match d.item? place with
  | none => .error .noEntry
  | some (.file _) => .error .notDirectory
  | some .directory =>
    if maxName < name.octets.length then .error .nameTooLong
    else if name = .ofString ".." then .ok place.pop
    else .ok (place.push name)

def start (d : Disk) (root : Root) : Place := if root = .relative then d.here else #[]

def pathSize (root : Root) (names : List FileName) : Nat :=
  root.slashes + (names.flatMap (·.octets)).length + (names.length - 1)

/-- The place that names lead to; there need not be anything. -/
def walk (d : Disk) (root : Root) (names : List FileName) : Except ErrorNumber Place :=
  if maxPath < pathSize root names then .error .nameTooLong
  else names.foldlM d.step (d.start root)

def refusal (p : Path) (number : ErrorNumber) : Fault := .system { number, path := p.text }

def place (d : Disk) (p : Path) : Except Fault Place := do
  (d.walk p.root (← p.names)).mapError (refusal p)

/-- What is at a path, if anything. Only overlong paths cannot be asked about. -/
def find? (d : Disk) (p : Path) : Except Fault (Option Item) :=
  match d.place p with
  | .ok place => .ok (d.item? place)
  | .error fault => if fault = refusal p .nameTooLong then .error fault else .ok none

def isFile (d : Disk) (p : Path) : Except Fault Bool := do
  match ← d.find? p with
  | some (.file _) => return true
  | _ => return false

def isDirectory (d : Disk) (p : Path) : Except Fault Bool := do
  match ← d.find? p with
  | some .directory => return true
  | _ => return false

def read (d : Disk) (p : Path) : Except Fault ByteArray := do
  match d.item? (← d.place p) with
  | none => throw (refusal p .noEntry)
  | some .directory => throw (refusal p .isDirectory)
  | some (.file content) => return content

/-- The place of a file to be written, and what the file holds so far. -/
def target (d : Disk) (p : Path) : Except Fault (Place × ByteArray) := do
  let place ← d.place p
  match d.item? place with
  | none => return (place, .empty)
  | some .directory => throw (refusal p .isDirectory)
  | some (.file content) => return (place, content)

def write (d : Disk) (p : Path) (content : ByteArray) : Except Fault Disk := do
  let (place, _) ← d.target p
  return d.put place (.file content)

def create (d : Disk) (p : Path) : Except Fault Disk := do
  let place ← d.place p
  match d.item? place with
  | none => return d.put place (.file .empty)
  | some _ => throw (refusal p .fileExists)

def append (d : Disk) (p : Path) (content : ByteArray) : Except Fault Disk := do
  let (place, before) ← d.target p
  return d.put place (.file (before ++ content))

/-- Makes the directory of a path, which leads to this place, unless there is one. -/
def settle (d : Disk) (p : Path) (place : Except ErrorNumber Place) : Except Fault (Disk × Place) := do
  let place ← place.mapError (refusal p)
  match d.item? place with
  | none => return (d.put place .directory, place)
  | some .directory => return (d, place)
  | some (.file _) => throw (refusal p .fileExists)

/-- How many directories on the way to another one can be made with it. -/
def maxMissing : Nat := 989

/-- Makes the directory of a path, which the reversed names lead to, and tells its place. Where the way
to it is missing, the directory before it is made first; of those there are at most `missing`. -/
def makeUpTo (d : Disk) (p : Path) (missing : Nat) : List FileName → Except Fault (Disk × Place)
  | [] => .ok (d, d.start p.root)
  | name :: before =>
    match d.walk p.root (name :: before).reverse, missing with
    | .error .noEntry, 0 => .error .tooDeep
    | .error .noEntry, missing + 1 => do
      let (d, place) ← d.makeUpTo p.parent missing before
      d.settle p (d.step place name)
    | place, _ => d.settle p place

def makeDirectories (d : Disk) (p : Path) : Except Fault Disk := do
  let (d, _) ← d.makeUpTo p maxMissing (← p.names).reverse
  return d

def names (d : Disk) (p : Path) : Except Fault (List Units) := do
  let place ← d.place p
  match d.item? place with
  | none => throw (refusal p .noEntry)
  | some (.file _) => throw (refusal p .notDirectory)
  | some .directory =>
    let inside := d.items.filterMap fun (known, _) =>
      if !known.isEmpty && known.pop == place then known.back?.map (·.text) else none
    let key (name : Units) : List Nat := name.symbols.map (·.codePoint)
    return inside.mergeSort fun a b => !(key b < key a)

def replace (d : Disk) (source target : Path) : Except Fault Disk := do
  let refused (number : ErrorNumber) : Fault :=
    .system { number, path := source.text, replaced := some target.text }
  let origin ← (d.walk source.root (← source.names)).mapError refused
  let place ← (d.walk target.root (← target.names)).mapError refused
  if target.name.isEmpty || target.name = ".." then throw (refused .busy)
  else
    match d.item? origin, d.item? place with
    | none, _ => throw (refused .noEntry)
    | some .directory, _ | _, some .directory => throw (refused .isDirectory)
    | some (.file content), _ => return (d.erase origin).put place (.file content)

def remove (d : Disk) (p : Path) : Disk :=
  match d.place p with
  | .ok place => d.erase place
  | .error _ => d

end Disk

/-- Actions on a disk. What they did before a fault remains done. -/
abbrev DiskM := EStateM Fault Disk

def DiskM.change (f : Disk → Except Fault Disk) : DiskM Unit := fun d =>
  match f d with
  | .ok changed => .ok () changed
  | .error fault => .error fault d

end Walkthrough
