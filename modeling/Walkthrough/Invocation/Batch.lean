import Walkthrough.Host
import Walkthrough.Report.Writing
import Walkthrough.Script.Reader
import Walkthrough.Settings.Places
import Walkthrough.Table.Datatable
import Walkthrough.World

/-!
A batch: scripts that are run one after another, each once or once for every row of a table. Every run
has a session, a log and a report of its own. An early exit does not keep the later runs from taking
place; a browser that cannot be launched does.
-/
namespace Walkthrough

structure SourceFile where
  path : Path
  script : Script

namespace Batch

variable {σ η ν : Type} (host : Host σ η ν) (settings : Settings)

def scriptName (path : Path) : Except Fault String :=
  match path.stem.string? with
  | some name => .ok name
  | none => .error .unencodable

/-- The names of the runs of a script, and the row that each of them is for. -/
def jobs (path : Path) (rows : Option (List Bindings)) : Except Fault (List (String × Bindings)) := do
  let name ← scriptName path
  match rows with
  | none => return [(name, [])]
  | some rows => return (Datatable.runNames name rows.length).zip rows

def runInSession (script : Script) (name : String) (row : Bindings) :
    WorldM ν (Except LaunchFailure RunRecord) := do
  let world ← get
  match ← MonadExcept.ofExcept (host.launcher.start world settings) with
  | .error failure => return .error failure
  | .ok session =>
    let setup := host.setup settings name world.disk
    match setup.run script row (host.now world) session with
    | .ok record s =>
      World.absorbAll (host.launcher.finish s.session).journal
      return .ok record
    | .error fault s =>
      World.absorbAll (host.launcher.finish s.session).journal
      throw fault

def outcomeText (r : RunRecord) : String := if r.exitedEarly then "exited early" else "completed"

def runJob (source : SourceFile) (name : String) (row : Bindings) :
    WorldM ν (Except LaunchFailure RunRecord) := do
  let output := settings.reportDir source.path
  World.openLog (output.child (name ++ ".log"))
  World.note (.running source.path name)
  match ← runInSession host settings source.script name row with
  | .error failure => return .error failure
  | .ok record =>
    let page ← World.onDisk (Report.write output record)
    World.note (.reported record.name page)
    World.say (.line (name ++ ": " ++ outcomeText record))
    return .ok record

/-- Runs the jobs of a script. The answer tells whether any run exited early. -/
def runJobs (source : SourceFile) : List (String × Bindings) → WorldM ν (Except LaunchFailure Bool)
  | [] => return .ok false
  | (name, row) :: later => do
    match ← runJob host settings source name row with
    | .error failure => return .error failure
    | .ok record => return (← runJobs source later).map (record.exitedEarly || ·)

def run (rows : Option (List Bindings)) : List SourceFile → WorldM ν (Except LaunchFailure Bool)
  | [] => return .ok false
  | source :: later => do
    let jobs ← MonadExcept.ofExcept (jobs source.path rows)
    match ← runJobs host settings source jobs with
    | .error failure => return .error failure
    | .ok early => return (← run rows later).map (early || ·)

end Batch
end Walkthrough
