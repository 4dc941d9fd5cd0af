import Walkthrough.Invocation.Arguments
import Walkthrough.Invocation.Batch
import Walkthrough.Settings.Reading
import Walkthrough.Settings.Saving
import Walkthrough.Sitting

/-!
An invocation of the program. The settings are those stored, with what the command line changes. Then
they are saved if asked for, and scripts are run or an interactive sitting is held. Everything that a
batch reads is read before the first browser is launched. The exit code is 0 if all went through, 1 if
a run exited early or no browser could be launched, and 2 if there was something wrong with the
command line or with what it names.
-/
namespace Walkthrough

inductive ExitCode where
  | success
  | early
  | usage
  deriving DecidableEq, Repr

def ExitCode.toNat : ExitCode → Nat
  | success => 0
  | early => 1
  | usage => 2

inductive Outcome where
  | exited (code : ExitCode)
  | refused (e : UsageError)
  | helped
  deriving DecidableEq, Repr

namespace Invocation

variable {σ η ν : Type} (host : Host σ η ν)

def giveUp (code : ExitCode) (text : Text.Units) : WorldM ν Outcome := do
  World.complain text
  return .exited code

def scriptsIn (d : Disk) (dir : Path) : Except Fault (List Path) := do
  let paths := (← d.names dir).map fun name => dir.join ⟨.relative, [name]⟩
  paths.filterM fun p => return (← d.isFile p) && p.ending = ".txt"

inductive LoadError where
  | unreadable (e : SystemError)
  | malformed (e : SyntaxError)
  deriving DecidableEq, Repr

def LoadError.message : LoadError → String
  | unreadable e => "Error: " ++ e.message
  | malformed e => "Syntax error: " ++ e.message

def readScript (d : Disk) (path : Path) : Except Fault (Except LoadError SourceFile) :=
  match d.read path with
  | .error (.system e) => .ok (.error (.unreadable e))
  | .error fault => .error fault
  | .ok content =>
    match String.fromUTF8? content with
    | none => .error .undecodable
    | some source =>
      match Script.parse source with
      | .error e => .ok (.error (.malformed e))
      | .ok script => .ok (.ok ⟨path, script⟩)

def readScripts (d : Disk) : List Path → Except Fault (Except LoadError (List SourceFile))
  | [] => .ok (.ok [])
  | path :: later => do
    match ← readScript d path with
    | .error e => return .error e
    | .ok source => return (← readScripts d later).map (source :: ·)

def readRows (d : Disk) (settings : Settings) :
    Except Fault (Except TableError (Option (List Bindings))) := do
  match settings.tablePath? with
  | none => return .ok none
  | some path => return (← Datatable.load d path).map some

def runBatch (settings : Settings) (paths : Except Fault (List Path)) : WorldM ν Outcome := do
  let disk := (← get).disk
  match paths with
  | .error (.system e) => giveUp .usage (LoadError.unreadable e).message
  | .error fault => throw fault
  | .ok paths =>
    match ← MonadExcept.ofExcept (readScripts disk paths) with
    | .error e => giveUp .usage e.message
    | .ok sources =>
      match ← MonadExcept.ofExcept (readRows disk settings) with
      | .error e => giveUp .usage ("Error: " ++ e.message)
      | .ok rows =>
        match ← Batch.run host settings rows sources with
        | .error failure => giveUp .early ("Error: " ++ failure.message)
        | .ok anyEarly => return .exited (if anyEarly then .early else .success)

def sitIn (settings : Settings) (savePath : Path) (lines : List String) : WorldM ν Outcome := do
  match savePath.withEnding? ".log" with
  | none => throw .invalidValue
  | some log =>
    World.openLog log
    match ← MonadExcept.ofExcept (host.launcher.start (← get) settings) with
    | .error failure => giveUp .early ("Error: " ++ failure.message)
    | .ok session => fun world =>
      let begun := Sitting.handOver { world, run := { session } }
      let ended (s : Sitting σ η ν) : World ν :=
        (Sitting.handOver { s with run := { s.run with session := host.launcher.finish s.run.session } }).world
      match Sitting.hold host settings savePath lines begun with
      | .ok () s => .ok (.exited .success) (ended s)
      | .error fault s => .error fault (ended s)

/-- Saves the settings; no answer means that all went well. -/
def saveSettings (settings : Settings) (path : Path) : WorldM ν (Option Outcome) := do
  let world ← get
  let (disk, ending) ← MonadExcept.ofExcept (settings.save none world.disk path host.token)
  set { world with disk }
  match ending with
  | .failed e => return some (← giveUp .usage ("Error: " ++ Settings.saveComplaint path e))
  | _ =>
    World.say (.line ("Saved settings to " ++ path.text))
    return none

def act (a : Arguments) (settings : Settings) (lines : List String) : WorldM ν Outcome := do
  match a.source with
  | some (.interactive given) => sitIn host settings (settings.savePath given) lines
  | some (.dir (some dir)) =>
    let disk := (← get).disk
    if ← MonadExcept.ofExcept (disk.isDirectory dir) then
      runBatch host settings (scriptsIn disk dir)
    else giveUp .usage ("Error: " ++ dir.text ++ " is not a directory")
  | some (.file (some file)) => runBatch host settings (.ok [file])
  | some (.dir none) | some (.file none) => throw .pathMissing
  | none => return if a.saveConfig then .exited .success else .refused .nothingToDo

def run (commandLine lines : List String) : WorldM ν Outcome := do
  match Arguments.read commandLine with
  | .error e => return .refused e
  | .ok none => return .helped
  | .ok (some a) =>
    let stored ← MonadExcept.ofExcept
      (Settings.load none (← get).disk (a.config.getD host.settingsPath))
    let settings := stored.override a.overrides
    if a.saveConfig then
      if let some outcome ← saveSettings host settings (a.config.getD host.settingsPath) then
        return outcome
    act host a settings lines

end Invocation
end Walkthrough
