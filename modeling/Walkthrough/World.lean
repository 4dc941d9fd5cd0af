import Walkthrough.File.Home
import Walkthrough.Session.Basic

/-!
What the program deals with outside of its pages: a disk, the user, and a log. The log is a file, to
which lines are added; where the file cannot be opened, its lines are told to the user as complaints.
-/
namespace Walkthrough

/-- What is said to the user: a question, which leaves the answer on the same line, or a line. -/
inductive Utterance where
  | prompt (text : String)
  | line (text : Text.Units)
  deriving DecidableEq, Repr

def Utterance.display : Utterance → Text.Units
  | prompt text => text
  | line text => text ++ "\n"

inductive Log where
  | nowhere
  | file (path : Path)
  | complaints
  deriving DecidableEq, Repr

structure World (ν : Type) where
  disk : Disk
  said : Array Utterance := #[]
  complaints : Array Text.Units := #[]
  log : Log := .nowhere
  /-- The date in front of every line of the log. -/
  logDate : String := ""
  journal : Array (Entry ν) := #[]

abbrev WorldM (ν : Type) := EStateM Fault (World ν)

namespace World

variable {ν α : Type}

def say (u : Utterance) : WorldM ν Unit := modify fun w => { w with said := w.said.push u }

def complain (text : Text.Units) : WorldM ν Unit :=
  modify fun w => { w with complaints := w.complaints.push text }

def onDisk (x : DiskM α) : WorldM ν α := fun w =>
  match x w.disk with
  | .ok a disk => .ok a { w with disk }
  | .error fault disk => .error fault { w with disk }

def openLog (path : Path) : WorldM ν Unit := fun w =>
  let opened := do
    let disk ← w.disk.makeDirectories path.parent
    let file := path.absolute disk.here
    return (← disk.append file .empty, file)
  match opened with
  | .ok (disk, file) => .ok () { w with disk, log := .file file }
  | .error (.system _) => .ok () { w with log := .complaints }
  | .error fault => .error fault w

def isLogged (n : Notice) : Bool := n.weight != .debug

def logLine (date : String) (n : Notice) : Text.Units := date ++ " " ++ n.weight.text ++ " " ++ n.text

/-- Adds a notice to the log. A line that is no `String` cannot stand in a file. -/
def writeLog (w : World ν) (n : Notice) : World ν :=
  if !isLogged n then w
  else
    let line := logLine w.logDate n
    match w.log with
    | .nowhere => w
    | .complaints => { w with complaints := w.complaints.push line }
    | .file path =>
      match line.string?.map fun s => w.disk.append path (s ++ "\n").toUTF8 with
      | some (.ok disk) => { w with disk }
      | _ => w

def absorb (w : World ν) (e : Entry ν) : World ν :=
  let w := { w with journal := w.journal.push e }
  match e with
  | .notice n => w.writeLog n
  | _ => w

def absorbAll (entries : Array (Entry ν)) : WorldM ν Unit := modify fun w => entries.foldl absorb w

def note (n : Notice) : WorldM ν Unit := modify (·.absorb (.notice n))

end World
end Walkthrough
