import Walkthrough.Host
import Walkthrough.Report.Writing
import Walkthrough.Script.Reader
import Walkthrough.World

/-!
An interactive sitting. The user types statements, each of which is carried out at once, and then says
whether to keep it; comments are kept unasked. A statement that ends with a connective goes on in the
next line. At the end the statements kept are saved as a script.
-/
namespace Walkthrough

inductive Awaiting where
  | statement
  | continuation (text : String)
  /-- Whether to keep a statement; there may be more statements of the same text. -/
  | keeping (s : Statement) (later : List Statement)
  | nothing
  deriving DecidableEq, Repr

structure Sitting (σ η ν : Type) where
  world : World ν
  run : RunState σ η ν
  kept : Array String := #[]

abbrev SittingM (σ η ν : Type) := EStateM Fault (Sitting σ η ν)

namespace Sitting

variable {σ η ν α : Type}

def inWorld (x : WorldM ν α) : SittingM σ η ν α := fun s =>
  match x s.world with
  | .ok a world => .ok a { s with world }
  | .error fault world => .error fault { s with world }

def say (text : Text.Units) : SittingM σ η ν Unit := inWorld (World.say (.line text))

def prompt (text : String) : SittingM σ η ν Unit := inWorld (World.say (.prompt text))

def keep (s : Statement) : SittingM σ η ν Unit :=
  modify fun sitting => { sitting with kept := sitting.kept.push s.display }

def handOver (s : Sitting σ η ν) : Sitting σ η ν :=
  { s with
    world := s.run.session.journal.foldl World.absorb s.world
    run := { s.run with session := { s.run.session with journal := #[] } } }

variable (host : Host σ η ν) (settings : Settings) (savePath : Path)

def carryOut (s : Statement) : SittingM σ η ν (Option Failure) := fun sitting =>
  let setup := host.setup settings savePath.stem.display sitting.world.disk
  let ended (run : RunState σ η ν) : Sitting σ η ν :=
    handOver { sitting with run := { run with session := run.session.finishStatement } }
  match setup.execute .running s none sitting.run with
  | .ok () run => .ok none (ended run)
  | .error (.failure failure) run => .ok (some failure) (ended run)
  | .error (.fault fault) run => .error fault (ended run)

def saveScreenshots : SittingM σ η ν Unit := do
  let (shots, memory) := (← get).run.memory.takeScreenshots
  modify fun s => { s with run := { s.run with memory } }
  let paths ← inWorld (World.onDisk (Report.writeScreenshots savePath.parent shots))
  for path in paths do
    say ("Saved screenshot " ++ path.text)

/-- Goes on with statements that are left, up to the next question. -/
def proceed : List Statement → SittingM σ η ν Awaiting
  | [] => do
    prompt "> "
    return .statement
  | s :: later => do
    if s.isComment then
      keep s
      proceed later
    else
      match ← carryOut host settings savePath s with
      | none => say "OK"
      | some failure => say ("Error: " ++ failure.message)
      saveScreenshots savePath
      prompt "Keep this statement? [y/N] "
      return .keeping s later

def isUnfinished (text : String) : Bool :=
  let ending := (Text.trimEnd text.toList).reverse
  " and".toList.reverse.isPrefixOf ending || " then".toList.reverse.isPrefixOf ending

def isFarewell (text : String) : Bool := ["exit", "quit"].contains (Text.trimmed text)

def isYes (answer : String) : Bool := ["y", "yes"].contains (Text.lower (Text.trimmed answer))

def consider (text : String) : SittingM σ η ν Awaiting := do
  if isUnfinished text then
    prompt "... "
    return .continuation text
  else if isFarewell text then return .nothing
  else if Text.allBlank text.toList then proceed host settings savePath []
  else
    match Script.parse text with
    | .error e =>
      say ("Syntax error: " ++ e.message)
      proceed host settings savePath []
    | .ok script => proceed host settings savePath script.statements

def hear (line : String) : Awaiting → SittingM σ η ν Awaiting
  | .statement => consider host settings savePath line
  | .continuation text => consider host settings savePath (text ++ "\n" ++ line)
  | .keeping s later => do
    if isYes line then keep s
    proceed host settings savePath later
  | .nothing => return .nothing

def save : SittingM σ η ν Unit := do
  let kept := (← get).kept.toList
  if !kept.isEmpty then
    let content := "\n".intercalate kept ++ "\n"
    inWorld (World.onDisk (DiskM.change (·.makeDirectories savePath.parent)))
    inWorld (World.onDisk (DiskM.change (·.write savePath content.toUTF8)))
    say (s!"Saved {kept.length} statements to " ++ savePath.text)

/-- Hears the lines of the user. They may end where a statement was asked for, but not before a
question has been answered. -/
def converse : Awaiting → List String → SittingM σ η ν Unit
  | .nothing, _ | .statement, [] | .continuation _, [] => save savePath
  | .keeping _ _, [] => throw .endOfInput
  | awaiting, line :: lines => do
    converse (← hear host settings savePath line awaiting) lines

def hold (lines : List String) : SittingM σ η ν Unit := do
  say "Type a statement, or `exit` to finish."
  converse host settings savePath (← proceed host settings savePath []) lines

end Sitting
end Walkthrough
