import Walkthrough.File.Home
import Walkthrough.Json.Writer
import Walkthrough.Settings.Basic

/-!
Saving settings. The new text is written to a file of its own beside the stored one and then takes its
place in one step, so the stored file is never half written. Each step of a save can fail for reasons
that the disk does not show, and the program can stop at it.
-/
namespace Walkthrough.Settings

def text (s : Settings) : String := s.toJson.pretty ++ "\n"

inductive SaveStep where
  | makeDirectory
  | create
  | write
  | replace
  deriving DecidableEq, Repr

/-- What goes wrong at a step: an error, or else the program stops there. Before that, the directories of
the first `made` steps are made, if it is the making of directories, and `written` octets reach the file,
if it is the writing. -/
structure Mishap where
  step : SaveStep
  made : Nat := 0
  written : Nat := 0
  error : Option SystemError := none

inductive SaveEnd where
  | saved
  | failed (e : SystemError)
  | stopped
  deriving DecidableEq, Repr

/-- The file for the new text. The token is chosen so that there is no such file. -/
def temporary (here : Place) (p : Path) (token : String) : Path :=
  (p.parent.absolute here).join ⟨.relative, ["." ++ p.name ++ ("." ++ token ++ ".tmp")]⟩

/-- The directories of the first steps of a path, as far as they can be made. -/
def makeSome (d : Disk) (p : Path) (n : Nat) : Disk :=
  (d.makeDirectories { p with steps := p.steps.take n }).toOption.getD d

/-- Goes on with a step, unless something goes wrong at it; `back` is the disk that a failure leaves,
and `stopped` the one that a stop leaves. -/
def attempt (m : Option Mishap) (step : SaveStep) (back stopped : Disk)
    (act : Except Fault Disk) (next : Disk → Except Fault (Disk × SaveEnd)) :
    Except Fault (Disk × SaveEnd) :=
  match m.filter (·.step = step) with
  | some ⟨_, _, _, some e⟩ => .ok (back, .failed e)
  | some ⟨_, _, _, none⟩ => .ok (stopped, .stopped)
  | none =>
    match act with
    | .ok d => next d
    | .error (.system e) => .ok (back, .failed e)
    | .error fault => .error fault

def save (m : Option Mishap) (d : Disk) (p : Path) (token : String) (s : Settings) :
    Except Fault (Disk × SaveEnd) :=
  let temporary := temporary d.here p token
  let content := s.text.toUTF8
  let begun := (m.map fun mishap => makeSome d p.parent mishap.made).getD d
  attempt m .makeDirectory begun begun (d.makeDirectories p.parent) fun made =>
  attempt m .create made made (made.create temporary) fun created =>
  let partly := ((m.map (·.written)).map fun n => content.extract 0 n).getD .empty
  let torn := (created.write temporary partly).toOption.getD created
  attempt m .write (created.remove temporary) torn (created.write temporary content) fun written =>
  attempt m .replace (written.remove temporary) written (written.replace temporary p) fun done =>
    .ok (done, .saved)

def saveComplaint (p : Path) (e : SystemError) : Text.Units :=
  "Could not save settings to " ++ p.text ++ (": " ++ e.message)

end Walkthrough.Settings
