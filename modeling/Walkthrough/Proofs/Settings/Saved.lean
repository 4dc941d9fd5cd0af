import Walkthrough.Proofs.File.Written
import Walkthrough.Proofs.Invocation.Overrides
import Walkthrough.Proofs.Settings.Stored

/-!
Settings that were saved are loaded again as they were (`load_of_save`). A save that goes through leaves a file
with their text, whichever file was there before, and what the command line changes in them can stand in a file
like the rest.
-/
namespace Walkthrough

namespace Settings

theorem of_attempt {m : Option Mishap} {step : SaveStep} {back stopped e : Disk} {act : Except Fault Disk}
    {next : Disk → Except Fault (Disk × SaveEnd)} (saved : attempt m step back stopped act next = .ok (e, .saved)) :
    ∃ d, act = .ok d ∧ next d = .ok (e, .saved) := by
  unfold attempt at saved
  split at saved
  · cases saved
  · cases saved
  · split at saved
    · exact ⟨_, rfl, saved⟩
    · cases saved
    · cases saved

theorem find?_of_save {m : Option Mishap} {d e : Disk} {p : Path} {token : String} {s : Settings}
    (saved : save m d p token s = .ok (e, .saved)) : e.find? p = .ok (some (.file s.text.toUTF8)) := by
  obtain ⟨made, -, saved⟩ := of_attempt saved
  obtain ⟨created, -, saved⟩ := of_attempt saved
  obtain ⟨written, wrote, saved⟩ := of_attempt saved
  obtain ⟨done, replaced, saved⟩ := of_attempt saved
  cases saved
  exact Disk.find?_of_replace (Disk.read_of_write wrote) replaced

theorem storable_override {s : Settings} {o : Overrides} (storable : Storable s) (given : FromCommandLine o) :
    Storable (s.override o) := by
  obtain ⟨browser, positive, short, some, retryDelays, commandDelay⟩ := storable
  have viewport : (s.override o).viewport = s.viewport := by simp [override, given.viewport]
  have delays : (s.override o).retryDelays = s.retryDelays := by simp [override, given.retryDelays]
  have delay : (s.override o).commandDelay = s.commandDelay := by simp [override, given.commandDelay]
  refine ⟨?_, viewport ▸ positive, viewport ▸ short, delays ▸ some, delays ▸ retryDelays, delay ▸ commandDelay⟩
  cases chosen : o.browser with
  | none =>
    have kept : (s.override o).browser = s.browser := by simp [override, chosen]
    exact kept ▸ browser
  | some name =>
    have changed : (s.override o).browser = name := by simp [override, chosen]
    exact changed ▸ given.browser name chosen

/-- Loaded settings, changed as the command line can change them and saved, are loaded again as they are. -/
theorem load_of_save {refusal : Option SystemError} {d₀ d e : Disk} {p₀ p : Path} {s : Settings} {o : Overrides}
    {m : Option Mishap} {token : String} (loaded : load refusal d₀ p₀ = .ok s) (given : FromCommandLine o)
    (saved : save m d p token (s.override o) = .ok (e, .saved)) : load none e p = .ok (s.override o) := by
  have storable := storable_override (storable_of_load loaded) given
  rw [load_of_text (find?_of_save saved) (Disk.fromUTF8?_toUTF8 _)]
  exact ofText_text storable

/-- Settings with delays that are no sums of powers of two. -/
def fineSettings : Settings := { browser := some "webkit", viewport := (800, 600), retryDelays := [0, 0.1, 0.7] }

theorem storable_fine : Storable fineSettings where
  browser := ⟨"webkit", by decide, rfl⟩
  positive := by decide
  short := by decide
  some := nofun
  retryDelays := by decide
  commandDelay := by decide

def fineDisk : Disk := { items := [(#[.ofString "c.json"], .file fineSettings.text.toUTF8)] }

def toFirefox : Overrides := { browser := some (some "firefox"), demo := some true, outputDir := some (.ofString "out") }

theorem load_of_save_firefox : ∃ e, load none fineDisk (Path.ofString "c.json") = .ok fineSettings ∧
    FromCommandLine toFirefox ∧
    save none fineDisk (Path.ofString "c.json") "x" (fineSettings.override toFirefox) = .ok (e, .saved) ∧
    load none e (Path.ofString "c.json") = .ok (fineSettings.override toFirefox) := by
  have loaded : load none fineDisk (Path.ofString "c.json") = .ok fineSettings :=
    (load_of_text rfl (Disk.fromUTF8?_toUTF8 _)).trans (ofText_text storable_fine)
  have given : FromCommandLine toFirefox := by
    refine ⟨fun browser chosen => ?_, nofun, ?_, rfl, rfl, rfl⟩
    · cases chosen
      exact ⟨"firefox", by decide, rfl⟩
    · intro demo set
      cases set
      rfl
  obtain ⟨e, saved⟩ : ∃ e, save none fineDisk (Path.ofString "c.json") "x" (fineSettings.override toFirefox) =
      .ok (e, .saved) := ⟨_, rfl⟩
  exact ⟨e, loaded, given, saved, load_of_save loaded given saved⟩

end Settings
end Walkthrough
