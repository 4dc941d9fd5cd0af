import Walkthrough.Json.Value

/-!
Settings of a run: the browser and its window, where reports go, the table of rows to run for, and how
long to wait. Settings given with an invocation override those that were stored.
-/
namespace Walkthrough

open Text (Units)

def supportedBrowsers : List String := ["chromium", "firefox", "webkit"]

structure Settings where
  /-- The browser to launch; none if only two dashes were given for it. -/
  browser : Option String := some "chromium"
  headless : Bool := false
  /-- Where reports go; empty for the directory of the script. -/
  outputDir : Units := .ofString ""
  /-- The table with one run for each row; empty for none. -/
  datatable : Units := .ofString ""
  viewport : Int × Int := (1280, 720)
  /-- The pauses before each search of the page, in seconds. -/
  retryDelays : List Float := [0, 1, 2, 4]
  commandDelay : Float := 1
  demo : Bool := false

structure Overrides where
  browser : Option (Option String) := none
  headless : Option Bool := none
  outputDir : Option Units := none
  datatable : Option Units := none
  viewport : Option (Int × Int) := none
  retryDelays : Option (List Float) := none
  commandDelay : Option Float := none
  demo : Option Bool := none

namespace Settings

def override (s : Settings) (o : Overrides) : Settings where
  browser := o.browser.getD s.browser
  headless := o.headless.getD s.headless
  outputDir := o.outputDir.getD s.outputDir
  datatable := o.datatable.getD s.datatable
  viewport := o.viewport.getD s.viewport
  retryDelays := o.retryDelays.getD s.retryDelays
  commandDelay := o.commandDelay.getD s.commandDelay
  demo := o.demo.getD s.demo

def toJson (s : Settings) : Json :=
  .ofFields
    [("browser", (s.browser.map Json.text).getD (.list [])),
      ("command_delay", .real s.commandDelay),
      ("datatable", .string s.datatable),
      ("demo", .bool s.demo),
      ("headless", .bool s.headless),
      ("locate_retry_delays", .list (s.retryDelays.map .real)),
      ("output_dir", .string s.outputDir),
      ("viewport", .list [.integer s.viewport.1, .integer s.viewport.2])]

end Settings
end Walkthrough
