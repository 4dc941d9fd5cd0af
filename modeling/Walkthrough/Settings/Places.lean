import Walkthrough.File.Path
import Walkthrough.Settings.Basic

/-!
The places that settings name.
-/
namespace Walkthrough.Settings

def reportDir (s : Settings) (script : Path) : Path :=
  if s.outputDir.isEmpty then script.parent else .ofUnits s.outputDir

def savePath (s : Settings) (given : Path) : Path :=
  if s.outputDir.isEmpty then given else (Path.ofUnits s.outputDir).join given

def tablePath? (s : Settings) : Option Path :=
  if s.datatable.isEmpty then none else some (.ofUnits s.datatable)

end Walkthrough.Settings
