import Walkthrough.File.Disk
import Walkthrough.Json.Reader
import Walkthrough.Json.Shown
import Walkthrough.Settings.Basic
import Walkthrough.Text.Caseless

/-!
Reading stored settings. A file that is missing, cannot be read or holds no object gives the defaults, and a
field that makes no sense gives its own default. A number beyond all bounds is a fault, and so is a file that is
not text.
-/
namespace Walkthrough.Settings

def readWhole : Json → Except Fault (Option Int)
  | .integer n => .ok (some n)
  | .bool b => .ok (some (if b then 1 else 0))
  | .string units => .ok (units.string?.bind fun s => Decimal.Numeral.int? s.toList)
  | .real x =>
    match Decimal.Binary.ofFloat? x with
    | some b => .ok (some b.truncate)
    | none => if x.isNaN then .ok none else .error .overflow
  | _ => .ok none

def readReal : Json → Except Fault (Option Float)
  | .integer n =>
    match Decimal.ofInt? n with
    | some x => .ok (some x)
    | none => .error .overflow
  | .bool b => .ok (some (if b then 1 else 0))
  | .string units => .ok (units.string?.bind fun s => Decimal.Numeral.float? s.toList)
  | .real x => .ok (some x)
  | _ => .ok none

def readViewport : Option Json → Except Fault (Option (Int × Int))
  | some (.list [width, height]) => do
    match ← readWhole width with
    | none => return none
    | some width =>
      match ← readWhole height with
      | none => return none
      | some height => return if width ≤ 0 || height ≤ 0 then none else some (width, height)
  | _ => .ok none

def readDelays : List Json → Except Fault (Option (List Float))
  | [] => .ok (some [])
  | item :: items => do
    match ← readReal item with
    | none => return none
    | some delay =>
      if delay < 0 then return none
      else return (← readDelays items).map (delay :: ·)

def readRetryDelays : Option Json → Except Fault (Option (List Float))
  | some (.list (item :: items)) => readDelays (item :: items)
  | _ => .ok none

def readDelay : Option Json → Except Fault (Option Float)
  | none => .ok none
  | some value => return (← readReal value).filter (0 ≤ ·)

def readText (value : Option Json) : Option Text.Units := (value.filter Json.isGiven).map Json.shown

def readBrowser (value : Option Json) : Option String :=
  (((readText value).bind Text.Units.string?).map Text.lower).filter supportedBrowsers.contains

/-- The settings in an object; no value but an object has fields. -/
def ofJson (j : Json) : Except Fault Settings := do
  let standard : Settings := {}
  match j with
  | .object _ =>
    let viewport ← readViewport (j.field? "viewport")
    let retryDelays ← readRetryDelays (j.field? "locate_retry_delays")
    let commandDelay ← readDelay (j.field? "command_delay")
    return {
      browser := readBrowser (j.field? "browser") <|> standard.browser
      headless := ((j.field? "headless").map Json.isGiven).getD standard.headless
      outputDir := (readText (j.field? "output_dir")).getD standard.outputDir
      datatable := (readText (j.field? "datatable")).getD standard.datatable
      viewport := viewport.getD standard.viewport
      retryDelays := retryDelays.getD standard.retryDelays
      commandDelay := commandDelay.getD standard.commandDelay
      demo := ((j.field? "demo").map Json.isGiven).getD standard.demo }
  | _ => return standard

def ofText (s : String) : Except Fault Settings :=
  match Json.parse s.toList with
  | .ok j => ofJson j
  | .error .malformed => .ok {}
  | .error .tooLong => .error .invalidValue
  | .error .tooDeep => .error .tooDeep

/-- Reads stored settings. The system may refuse to read a file that is there. -/
def load (refusal : Option SystemError) (d : Disk) (p : Path) : Except Fault Settings := do
  match ← d.find? p, refusal with
  | some (.file content), none =>
    match String.fromUTF8? content with
    | some s => ofText s
    | none => .error .undecodable
  | _, _ => return {}

end Walkthrough.Settings
