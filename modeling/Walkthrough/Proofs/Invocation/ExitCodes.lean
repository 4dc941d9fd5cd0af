import Walkthrough.Proofs.Invocation.Inputs
import Walkthrough.Proofs.Run.Jumps
import Walkthrough.Proofs.Table.Columns

/-!
What the exit codes tell about a batch. That of wrong usage means that nothing has been run; that of success, that
everything has been run and nothing exited early; the other one, that everything has been run and something exited
early, or that no browser could be launched for what is left (`exit_codes`).
-/
namespace Walkthrough

open Walkthrough.Action

variable {σ η ν : Type}

namespace Invocation

variable {host : Host σ η ν} {settings : Settings} {a : Arguments} {source : Source} {commandLine lines : List String}
  {w w' begun : World ν} {inputs : Inputs} {outcome : Outcome}

def Inputs.tasks (inputs : Inputs) : List Batch.Task := Batch.wanted inputs.rows inputs.sources

theorem Listed.unique {d : Disk} {result other : Except Fault (Except Text.Units (List Path))}
    (listed : Listed d source result) (listed' : Listed d source other) : result = other := by
  cases listed <;> cases listed' <;> grind

/-- A browser that can be launched, but its page refuses all requests. -/
def quietHost : Host Unit Unit Unit :=
  { Sitting.deafHost with launcher := { Sitting.deafHost.launcher with launch? := fun _ _ _ => some (.ok ((), [])) } }

def towns : String := "town\nUlm\nBonn"

def townDisk : Disk where
  items := [(#[.ofString "s.txt"], .file "refresh".toUTF8), (#[.ofString "t.csv"], .file towns.toUTF8)]

def townSource : Source := .file (some (Path.ofString "s.txt"))

def townArguments : Arguments := { source := some townSource, datatable := some (Path.ofString "t.csv") }

def townSettings : Settings := ({} : Settings).override townArguments.overrides

def townRows : List Bindings := [[("town", "Ulm")], [("town", "Bonn")]]

def townInputs : Inputs where
  sources := [⟨Path.ofString "s.txt", .ofStatements [⟨.run [{ verb := .refresh }], 1⟩]⟩]
  rows := some townRows

/-- A browser that can be launched once. -/
def wornHost : Host Unit Unit Unit :=
  { quietHost with
    launcher :=
      { quietHost.launcher with
        launch? := fun w _ _ => some (if w.said.isEmpty then .ok ((), []) else .error "worn out") } }

def townTask (town : String) (place : Nat) : Batch.Task :=
  (⟨Path.ofString "s.txt", .ofStatements [⟨.run [{ verb := .refresh }], 1⟩]⟩, [("town", town)], place)

def townJob (town name : String) : WorldM Unit (Except LaunchFailure RunRecord) :=
  Batch.runJob wornHost townSettings (townTask town 0).1 name [("town", town)]

def townJobs : List (String × Bindings) := [("s_1", [("town", "Ulm")]), ("s_2", [("town", "Bonn")])]

theorem jobs_towns : Batch.jobs (Path.ofString "s.txt") (some townRows) = .ok townJobs := rfl

/-- Did the first run come to its end, and was no browser left for the second one? -/
def endsBetween : Bool :=
  match townJob "Ulm" "s_1" { disk := townDisk } with
  | .ok (.ok record) w =>
    match townJob "Bonn" "s_2" w with
    | .ok (.error failure) _ => record.exitedEarly && failure.message == "Failed to launch chromium: worn out"
    | _ => false
  | _ => false

theorem endsBetween_towns : endsBetween = true := by
  simp only [endsBetween, townJob, Batch.runJob, Batch.runInSession, Setup.run, Run.run_eq_readRun]
  decide +kernel

/-- The browser that could be launched for the first run cannot be launched for the second one, which ends the batch:
each of the two launches sees what has been said by then. -/
theorem course_towns : ∃ (p : Batch.Passage Unit Unit Unit) (failure : LaunchFailure) (w' : World Unit),
    Batch.Course wornHost townSettings (some townRows) { disk := townDisk } townInputs.tasks [p] (.error failure) w' ∧
      p.task = townTask "Ulm" 0 ∧
      Batch.Cut wornHost townSettings (some townRows) (townTask "Bonn" 1) failure (p.after wornHost) w' := by
  have tasks : townInputs.tasks = [townTask "Ulm" 0, townTask "Bonn" 1] := rfl
  have ends := endsBetween_towns
  unfold endsBetween at ends
  split at ends
  · next record w ran =>
    split at ends
    · next failure w' refused =>
      have one : townJobs[0]? = some ("s_1", [("town", "Ulm")]) := rfl
      have other : townJobs[1]? = some ("s_2", [("town", "Bonn")]) := rfl
      rcases Batch.took_of_runJob jobs_towns one ran with ⟨_, lost, -⟩ | ⟨p, -, task, took, rfl⟩
      · cases lost
      rcases Batch.took_of_runJob jobs_towns other refused with ⟨_, same, cut⟩ | ⟨_, lost, -⟩
      · cases same
        rw [tasks]
        have course : Batch.Course wornHost townSettings (some townRows) { disk := townDisk }
            [p.task, townTask "Bonn" 1] [p] (.error failure) w' := .next took (.cut cut)
        have first : p.task = townTask "Ulm" 0 := task
        exact ⟨p, failure, w', first ▸ course, first, cut⟩
      · cases lost
    · cases ends
  · cases ends

end Invocation
end Walkthrough
