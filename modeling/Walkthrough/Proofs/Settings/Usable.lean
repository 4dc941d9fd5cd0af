import Walkthrough.Proofs.File.Written
import Walkthrough.Proofs.Settings.Stored

/-!
Settings that a run can go by. Whatever file they come from, loaded settings name a supported browser, a window of
at least one pixel each way and at least one delay, and no delay is below zero. They are usable unless the file means
a delay that is infinite or no number, which nothing keeps out (`usable_of_load`).
-/
namespace Walkthrough.Settings

/-- A delay that can be waited for. -/
structure Waitable (delay : Float) : Prop where
  finite : delay.isFinite = true
  nonneg : 0 ≤ delay

structure Usable (s : Settings) : Prop where
  browser : ∃ b ∈ supportedBrowsers, s.browser = some b
  viewport : 1 ≤ s.viewport.1 ∧ 1 ≤ s.viewport.2
  some : s.retryDelays ≠ []
  retryDelays : ∀ delay ∈ s.retryDelays, Waitable delay
  commandDelay : Waitable s.commandDelay

/-- Settings that are usable but for what their delays are. -/
structure Fit (s : Settings) : Prop where
  browser : ∃ b ∈ supportedBrowsers, s.browser = some b
  viewport : 1 ≤ s.viewport.1 ∧ 1 ≤ s.viewport.2
  some : s.retryDelays ≠ []
  retryDelays : ∀ delay ∈ s.retryDelays, delay.isNaN = true ∨ 0 ≤ delay
  commandDelay : 0 ≤ s.commandDelay

/-- The file at a path can be read and stands for a value. -/
inductive Holds (refusal : Option SystemError) (d : Disk) (p : Path) (j : Json) : Prop where
  | intro {content : ByteArray} {s : String} (found : d.find? p = .ok (some (.file content)))
      (granted : refusal = none) (decoded : String.fromUTF8? content = some s) (read : Json.parse s.toList = .ok j)

/-- A value means a delay that is no finite number. -/
inductive Endless (j : Json) : Prop where
  | retryDelays {item : Json} {delays : List Float} {delay : Float} (given : j.field? "locate_retry_delays" = some item)
      (meant : MeansRetryDelays item delays) (member : delay ∈ delays) (endless : delay.isFinite = false)
  | commandDelay {item : Json} {delay : Float} (given : j.field? "command_delay" = some item)
      (meant : MeansDelay item delay) (endless : delay.isFinite = false)

theorem Holds.unique {refusal : Option SystemError} {d : Disk} {p : Path} {j k : Json} (one : Holds refusal d p j)
    (other : Holds refusal d p k) : j = k := by
  obtain ⟨found, -, decoded, read⟩ := one
  obtain ⟨found', -, decoded', read'⟩ := other
  cases found.symm.trans found'
  cases decoded.symm.trans decoded'
  cases read.symm.trans read'
  rfl

theorem fit_of_storable {s : Settings} (storable : Storable s) : Fit s where
  browser := storable.browser
  viewport := storable.positive
  some := storable.some
  retryDelays delay member := Decimal.Binary.isNaN_or_nonneg (storable.retryDelays delay member)
  commandDelay := storable.commandDelay

theorem Fit.usable {s : Settings} (fit : Fit s) (retryDelays : ∀ delay ∈ s.retryDelays, delay.isFinite = true)
    (commandDelay : s.commandDelay.isFinite = true) : Usable s := by
  refine ⟨fit.browser, fit.viewport, fit.some, fun delay member => ⟨retryDelays delay member, ?_⟩,
    commandDelay, fit.commandDelay⟩
  obtain nan | above := fit.retryDelays delay member
  · rw [Decimal.Binary.isNaN_of_isFinite (retryDelays delay member)] at nan
    cases nan
  · exact above

theorem usable_default : Usable {} :=
  (fit_of_storable storable_default).usable (by decide) (by decide)

theorem usable_of_readFrom {j : Json} {s : Settings} (fit : Fit s) (read : ReadFrom j s) : Usable s ↔ ¬Endless j := by
  constructor
  · rintro usable (⟨given, meant, member, endless⟩ | ⟨given, meant, endless⟩)
    · rw [← read.retryDelays.meant _ _ given meant] at member
      rw [(usable.retryDelays _ member).finite] at endless
      cases endless
    · rw [← read.commandDelay.meant _ _ given meant, usable.commandDelay.finite] at endless
      cases endless
  · intro ends
    refine fit.usable ?_ ?_
    · obtain same | ⟨item, given, meant⟩ := read.retryDelays.cases
      · rw [same]
        decide
      · intro delay member
        by_contra endless
        exact ends (.retryDelays given meant member (Bool.eq_false_of_not_eq_true endless))
    · obtain same | ⟨item, given, meant⟩ := read.commandDelay.cases
      · rw [same]
        decide
      · by_contra endless
        exact ends (.commandDelay given meant (Bool.eq_false_of_not_eq_true endless))

theorem not_endless_of_foreign {j : Json} (foreign : ∀ fields, j ≠ .object fields) : ¬Endless j := by
  have nothing (name : String) : j.field? name = none := by
    cases j with
    | object fields => exact absurd rfl (foreign fields)
    | _ => rfl
  rintro (⟨given, -⟩ | ⟨given, -⟩)
  · rw [nothing] at given
    cases given
  · rw [nothing] at given
    cases given

/-- All that a file can do to the settings loaded from it. -/
theorem usable_of_load {refusal : Option SystemError} {d : Disk} {p : Path} {s : Settings}
    (loaded : load refusal d p = .ok s) : Fit s ∧ (Usable s ↔ ¬∃ j, Holds refusal d p j ∧ Endless j) := by
  have fit := fit_of_storable (storable_of_load loaded)
  refine ⟨fit, ?_⟩
  cases loads_of_load loaded with
  | absent found file =>
    refine iff_of_true usable_default ?_
    rintro ⟨j, ⟨found', -, -, -⟩, -⟩
    cases found.symm.trans found'
    exact file _ rfl
  | refused found refused =>
    refine iff_of_true usable_default ?_
    rintro ⟨j, ⟨-, granted, -, -⟩, -⟩
    cases refused.symm.trans granted
  | malformed found granted decoded read =>
    refine iff_of_true usable_default ?_
    rintro ⟨j, ⟨found', -, decoded', read'⟩, -⟩
    cases found.symm.trans found'
    cases decoded.symm.trans decoded'
    cases read.symm.trans read'
  | foreign found granted decoded read other =>
    refine iff_of_true usable_default ?_
    rintro ⟨j, held, endless⟩
    rw [held.unique ⟨found, granted, decoded, read⟩] at endless
    exact not_endless_of_foreign other endless
  | stored found granted decoded read bounded given =>
    have held : Holds refusal d p _ := ⟨found, granted, decoded, read⟩
    rw [usable_of_readFrom fit given]
    refine not_congr ⟨fun endless => ⟨_, held, endless⟩, ?_⟩
    rintro ⟨j, held', endless⟩
    rwa [held'.unique held] at endless

/-- Settings whose delays a file can hold and no run can wait for. -/
def endlessSettings : Settings := { retryDelays := [0 / 0], commandDelay := 1 / 0 }

def endlessDisk : Disk := { items := [(#[.ofString "c.json"], .file endlessSettings.text.toUTF8)] }

theorem storable_endless : Storable endlessSettings where
  browser := ⟨"chromium", by decide, rfl⟩
  positive := by decide
  short := by decide
  some := nofun
  retryDelays := by decide
  commandDelay := by decide

theorem load_endless : load none endlessDisk (Path.ofString "c.json") = .ok endlessSettings :=
  (load_of_text rfl (Disk.fromUTF8?_toUTF8 _)).trans (ofText_text storable_endless)

theorem usable_of_load_endless : load none endlessDisk (Path.ofString "c.json") = .ok endlessSettings ∧
    Fit endlessSettings ∧
    (Usable endlessSettings ↔ ¬∃ j, Holds none endlessDisk (Path.ofString "c.json") j ∧ Endless j) :=
  ⟨load_endless, usable_of_load load_endless⟩

theorem not_always_usable : ¬∀ (d : Disk) (p : Path) (s : Settings), load none d p = .ok s → Usable s := by
  intro always
  have usable := always _ _ _ load_endless
  have finite : (1 / 0 : Float).isFinite = true := usable.commandDelay.finite
  exact absurd finite (by decide)

end Walkthrough.Settings
