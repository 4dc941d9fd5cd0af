import Walkthrough.Settings.Basic
import Walkthrough.Text.Caseless
import Walkthrough.World

/-!
Launching a browser for a session, and closing it again. A browser of an unknown name is refused; of
those that do not start, the ones that are not installed are told from the others by what they say. The
world may have changed since a browser was last launched, so what comes of a launch depends on it.
-/
namespace Walkthrough

inductive LaunchFailure where
  | unsupported (browser : String)
  | notInstalled (browser : String)
  | refused (browser reason : String)
  deriving DecidableEq, Repr

def LaunchFailure.message : LaunchFailure → String
  | unsupported browser => "Unsupported browser: " ++ browser
  | notInstalled browser =>
    browser ++ " is not installed. Run: python -m playwright install " ++ browser
  | refused browser reason => "Failed to launch " ++ browser ++ ": " ++ reason

def missingBrowserHints : List String :=
  ["executable doesn't exist", "executable does not exist", "download new browsers",
    "playwright install", "could not find browser", "failed to launch chromium because executable"]

def speaksOfMissingBrowser (reason : String) : Bool :=
  let said := (Text.lower reason).toList
  missingBrowserHints.any fun hint => Text.occursIn hint.toList said

def LaunchFailure.ofReason (browser reason : String) : LaunchFailure :=
  if speaksOfMissingBrowser reason then .notInstalled browser else .refused browser reason

structure Launcher (σ η ν : Type) where
  page : Page σ η ν
  /-- A page of the browser with this name, headless or not, and what is noted; or the reason why the
  browser does not start. No answer means that there is no browser of this name. -/
  launch? : World ν → (browser : String) → (headless : Bool) → Option (Except String (σ × List ν))
  setViewport : (width height : Int) → σ → σ × List ν
  close : σ → List ν

namespace Launcher

variable {σ η ν : Type} (l : Launcher σ η ν)

def launch (w : World ν) (browser : String) (s : Settings) : Except LaunchFailure (Session σ ν) :=
  match l.launch? w browser s.headless with
  | none => .error (.unsupported browser)
  | some (.error reason) => .error (.ofReason browser reason)
  | some (.ok (page, notes)) =>
    let (page, more) := l.setViewport s.viewport.1 s.viewport.2 page
    let session : Session σ ν := { page, journal := ((notes ++ more).map .note).toArray }
    .ok (session.record (.launched browser s.headless))

def start (w : World ν) (s : Settings) : Except Fault (Except LaunchFailure (Session σ ν)) :=
  match s.browser with
  | none => .error .browserMissing
  | some browser => .ok (l.launch w browser s)

def finish (s : Session σ ν) : Session σ ν :=
  { s with journal := s.journal ++ ((l.close s.page).map .note).toArray }

end Launcher
end Walkthrough
