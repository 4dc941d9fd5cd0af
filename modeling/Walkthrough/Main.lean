import Std.Time
import Walkthrough.Invocation.Basic
import Walkthrough.Invocation.Usage

/-!
The command line. What an invocation deals with is read from the disk, the invocation takes place, and
what it changed is written back. The program comes without browsers of its own and finds none
installed, so a run ends with the advice to install one.
-/
namespace Walkthrough.CommandLine

/-- The browsers that are known, none of which is installed. -/
def noBrowsers : Launcher Empty Empty Empty where
  page := { perform := fun _ _ s => s.elim, sleep := fun _ _ s => s.elim, levels := Empty.elim }
  launch? := fun _ browser _ =>
    if supportedBrowsers.contains browser then some (.error ("Could not find browser " ++ browser))
    else none
  setViewport := fun _ _ s => s.elim
  close := Empty.elim

def systemPath (place : Place) := System.mkFilePath ("" :: place.toList.map (·.text.display))

def itemAt (place : Place) : IO (Option Item) := do
  let path := systemPath place
  if ← path.isDir then return some .directory
  else if ← path.pathExists then return some (.file (← IO.FS.readBinFile path))
  else return none

/-- Takes in what there is at a place, and the directories on the way to it. -/
def takeIn (d : Disk) (place : Place) : IO Disk := do
  let mut d := d
  for n in [1 : place.size + 1] do
    let known := place.take n
    if (d.item? known).isNone then
      if let some item ← itemAt known then d := d.put known item
  return d

def takeInPath (d : Disk) (p : Path) : IO Disk := do
  let .ok names := (p.absolute d.here).names | return d
  let place := names.toArray
  let mut d ← takeIn d place
  let path := systemPath place
  if ← path.isDir then
    for entry in ← path.readDir do
      d ← takeIn d (place.push (.ofString entry.fileName))
  return d

/-- The paths that an invocation deals with, besides that of its settings. -/
def pathsInPlay (a : Arguments) (s : Settings) : List Path :=
  let output := if s.outputDir.isEmpty then [] else [Path.ofUnits s.outputDir]
  let scripts := match a.source with
    | some (.file (some file)) => [file, file.parent]
    | some (.dir (some dir)) => [dir]
    | some (.interactive given) => [(s.savePath given).parent]
    | _ => []
  scripts ++ s.tablePath?.toList ++ output

def snapshot (host : Host Empty Empty Empty) (commandLine : List String) :
    IO Disk := do
  let here := (Path.ofString (← IO.currentDir).toString).steps.filterMap FileName.ofUnits? |>.toArray
  let .ok (some a) := Arguments.read commandLine | return { here }
  let settingsPath := a.config.getD host.settingsPath
  let d ← takeInPath (← takeIn { here } here) settingsPath
  let .ok stored := Settings.load none d settingsPath | return d
  (pathsInPlay a (stored.override a.overrides)).foldlM takeInPath d

/-- Writes what changed. A file is written beside its place and then moved there, so that it is never
half written. -/
def writeBack (token : String) (before after : Disk) : IO Unit := do
  for (place, item) in before.changes after do
    let path := systemPath place
    match item with
    | .directory => IO.FS.createDirAll path
    | .file content =>
      IO.FS.createDirAll (systemPath place.pop)
      let beside := path.addExtension (token ++ ".tmp")
      IO.FS.writeBinFile beside content
      IO.FS.rename beside path

def moment : IO Moment := do
  let now := Std.Time.DateTime.ofTimestampWithZone (← Std.Time.Timestamp.now) .UTC
  return {
    year := now.year.toInt.toNat
    month := now.month.toNat
    day := now.day.toNat
    hour := now.hour.toNat
    minute := now.minute.toNat
    second := now.second.toNat
    microsecond := now.nanosecond.toNat / 1000 }

def logDate (m : Moment) : String :=
  s!"{m.year}-{Report.monthDay m} {Report.clock m},{Report.padded 3 (m.microsecond / 1000)}"

def freshToken : IO String := do
  let octets ← IO.getRandomBytes 8
  return String.join (octets.toList.map fun n => Report.padded 3 n.toNat)

def host (own : Path) (now : Moment) (token : String) : Host Empty Empty Empty where
  launcher := noBrowsers
  homes := { own, ofUser? := fun _ => none }
  now := fun _ => now
  token := token

def tell (w : World Empty) : IO Unit := do
  for utterance in w.said do
    IO.print utterance.display.display
  for complaint in w.complaints do
    IO.eprintln complaint.display

def exitCode : Outcome → IO UInt32
  | .exited code => return code.toNat.toUInt32
  | .helped => do
    IO.print Usage.help
    return 0
  | .refused e => do
    IO.eprint (Usage.refusal e)
    return ExitCode.usage.toNat.toUInt32

end Walkthrough.CommandLine

open Walkthrough CommandLine in
def main (commandLine : List String) : IO UInt32 := do
  let own := Path.ofString ((← IO.getEnv "HOME").getD "/")
  let now ← moment
  let host := host own now (← freshToken)
  let disk ← snapshot host commandLine
  match Invocation.run host commandLine [] { disk, logDate := logDate now } with
  | .ok outcome world =>
    writeBack host.token disk world.disk
    tell world
    exitCode outcome
  | .error fault world =>
    writeBack host.token disk world.disk
    tell world
    IO.eprintln (reprStr fault)
    return 1
