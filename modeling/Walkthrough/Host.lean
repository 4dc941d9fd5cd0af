import Walkthrough.File.Home
import Walkthrough.Run.Loop
import Walkthrough.Session.Launch

/-!
The host of the program: the browsers it can launch, the home directories and the time.
-/
namespace Walkthrough

structure Host (σ η ν : Type) where
  launcher : Launcher σ η ν
  homes : Homes
  now : World ν → Moment
  /-- A text that no file has in its name, for the name of a temporary file. -/
  token : String

namespace Host

variable {σ η ν : Type} (h : Host σ η ν)

def settingsPath : Path := h.homes.own.join (Path.ofString ".plainstep/config.json")

def setup (s : Settings) (runName : String) (d : Disk) : Setup σ η ν where
  locator := { page := h.launcher.page, delays := s.retryDelays }
  runName := runName
  commandDelay := s.commandDelay
  demo := s.demo
  uploadPath := d.uploadPath h.homes

end Host
end Walkthrough
