import Walkthrough.Invocation.Arguments
import Walkthrough.Proofs.File.Written

/-!
What the command line can change in the settings. A browser is taken only if it is supported, and everything else
that is given is a flag or the path of a place.
-/
namespace Walkthrough

namespace Settings

/-- What the command line can change: a browser among those supported, flags that are set, and texts of paths. -/
structure FromCommandLine (o : Overrides) : Prop where
  browser : ∀ browser, o.browser = some browser → ∃ name ∈ supportedBrowsers, browser = some name
  headless : ∀ headless, o.headless = some headless → headless = true
  demo : ∀ demo, o.demo = some demo → demo = true
  viewport : o.viewport = none
  retryDelays : o.retryDelays = none
  commandDelay : o.commandDelay = none

end Settings

namespace Arguments

/-- The browser that was given, unless it is missing, is one of those supported. -/
def Supported (a : Arguments) : Prop := ∀ name, a.browser = some (some name) → name ∈ supportedBrowsers

theorem browser_of_setSource {a b : Arguments} {source : Source} (given : a.setSource source = .ok b) :
    b.browser = a.browser := by
  unfold setSource at given
  split at given
  · cases given
  · cases given
    rfl

theorem supported_set {a b : Arguments} {f : Flag} {value : Option String} (supported : a.Supported)
    (given : a.set f value = .ok b) : b.Supported := by
  have same (kept : b.browser = a.browser) : b.Supported := fun name chosen => supported name (kept ▸ chosen)
  unfold set at given
  cases f with
  | file | dir | interactive => exact same (browser_of_setSource given)
  | browser =>
    cases value with
    | none =>
      cases given
      nofun
    | some name =>
      simp only at given
      split at given
      · cases given
      · rename_i listed
        cases given
        intro other chosen
        cases chosen
        simpa using listed
  | headless | output | datatable | demo | config | saveConfig | help =>
    cases given
    exact same rfl

theorem supported_setAll {a b : Arguments} {flags : List (Flag × Option String)} (supported : a.Supported)
    (given : a.setAll flags = .ok (some b)) : b.Supported := by
  induction flags generalizing a with
  | nil =>
    cases given
    exact supported
  | cons flag later ih =>
    unfold setAll at given
    split at given
    · cases given
    · obtain ⟨next, one, given⟩ := Except.bind_eq_ok.mp given
      exact ih (supported_set supported one) given

theorem supported_readAll {a b : Arguments} {aside : List String} {arguments : List Argument} (supported : a.Supported)
    (read : a.readAll aside arguments = .ok (some b)) : b.Supported := by
  fun_induction readAll a aside arguments with
  | case1 a aside none =>
    cases read
    exact supported
  | case2 => cases read
  | case3 a aside text later ih => exact ih supported read
  | case4 a aside text later ih => exact ih supported read
  | case5 => cases read
  | case6 => cases read
  | case7 => cases read
  | case8 a aside f attached later flags rest taken next given fewer ih => exact ih (supported_setAll supported given) read

/-- The command line can change no more than this, unless only two dashes were given for the browser. -/
theorem fromCommandLine {line : List String} {a : Arguments} (read : read line = .ok (some a))
    (browser : a.browser ≠ some none) : Settings.FromCommandLine a.overrides := by
  obtain ⟨arguments, -, read⟩ := Except.bind_eq_ok.mp read
  have supported : a.Supported := supported_readAll (a := {}) nofun read
  refine ⟨fun given chosen => ?_, ?_, ?_, rfl, rfl, rfl⟩
  · cases given with
    | none => exact absurd chosen browser
    | some name => exact ⟨name, supported name chosen, rfl⟩
  · intro headless given
    change (if a.headless then some true else none) = some headless at given
    split at given
    · cases given
      rfl
    · cases given
  · intro demo given
    change (if a.demo then some true else none) = some demo at given
    split at given
    · cases given
      rfl
    · cases given

end Arguments

end Walkthrough
