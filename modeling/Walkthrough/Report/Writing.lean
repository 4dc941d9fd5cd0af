import Walkthrough.File.Disk
import Walkthrough.Json.Writer
import Walkthrough.Report.Html

/-!
Writing reports. The report of a run is a page and a JSON file, both named after the run, and its
screenshots stand in a directory beside them.
-/
namespace Walkthrough.Report

/-- A moment in the standard's form; a fraction of a second is given if there is one. -/
def timestamp (m : Moment) : String :=
  padded 4 m.year ++ "-" ++ monthDay m ++ "T" ++ clock m ++
    (if m.microsecond = 0 then "" else "." ++ padded 6 m.microsecond) ++ "+00:00"

def entryJson (entry : RecordEntry) : Json :=
  .ofFields
    [("text", .text entry.text),
      ("error", (entry.error.map Json.text).getD .null),
      ("screenshots", .list (entry.screenshots.map fun shot => .text shot.identifier))]

def json (r : RunRecord) : Json :=
  .ofFields
    [("name", .text r.name),
      ("date", .text (timestamp r.startedAt)),
      ("exited_early", .bool r.exitedEarly),
      ("statements", .list (r.entries.map entryJson))]

def writeAll (dir : Path) : List Screenshot → DiskM (List Path)
  | [] => return []
  | shot :: later => do
    let path := dir.child shot.identifier
    DiskM.change (·.write path shot.png)
    return path :: (← writeAll dir later)

def writeScreenshots (output : Path) (shots : List Screenshot) : DiskM (List Path) := do
  if shots.isEmpty then return []
  let dir := output.child screenshotDir
  DiskM.change (·.makeDirectories dir)
  writeAll dir shots

def write (output : Path) (r : RunRecord) : DiskM Path := do
  DiskM.change (·.makeDirectories output)
  let _ ← writeScreenshots output r.screenshots
  DiskM.change (·.write (output.child (r.name ++ ".json")) (json r).pretty.toUTF8)
  let page := output.child (r.name ++ ".html")
  DiskM.change (·.write page (html r).toUTF8)
  return page

end Walkthrough.Report
