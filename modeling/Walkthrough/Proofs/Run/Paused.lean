import Walkthrough.Proofs.Session.Extended
import Walkthrough.Run.Perform

/-!
The pause before a command. Where it cannot be made, the command is not carried out and the state stays as it is
(`perform_of_refused`); else the command is carried out in the state that the pause leaves (`perform_of_made`).
-/
namespace Walkthrough.Setup

open Walkthrough.Action

variable {σ η ν : Type} {setup : Setup σ η ν}

/-- What keeps the pause before a command from being made. -/
def delayRefusal? (setup : Setup σ η ν) : Option PauseFault :=
  if 0 < setup.commandDelay then setup.page.refuses setup.commandDelay else none

/-- The state when the pause before a command is over. -/
def paused (setup : Setup σ η ν) (s : RunState σ η ν) : RunState σ η ν :=
  if 0 < setup.commandDelay then
    { s with session := final (Session.pause setup.page setup.commandDelay s.session) }
  else s

theorem memory_paused (setup : Setup σ η ν) (s : RunState σ η ν) : (setup.paused s).memory = s.memory := by
  unfold paused
  split <;> rfl

theorem perform_of_refused {refusal : PauseFault} (refused : setup.delayRefusal? = some refusal) (phase : Phase)
    (c : Command) (s : RunState σ η ν) : setup.perform phase c s = .error (.fault refusal.fault) s := by
  unfold delayRefusal? at refused
  split at refused
  · next waits =>
    unfold perform
    rw [if_pos waits]
    refine bind_eq_error.mpr (Or.inl ?_)
    change RunM.onSession (Session.pause setup.page setup.commandDelay) s = _
    unfold RunM.onSession
    rw [Session.pause_of_refused refused]
  · cases refused

theorem perform_of_made (made : setup.delayRefusal? = none) (phase : Phase) (c : Command) (s : RunState σ η ν) :
    setup.perform phase c s = setup.act phase c (setup.paused s) := by
  unfold perform paused
  unfold delayRefusal? at made
  split
  · next waits =>
    rw [if_pos waits] at made
    have rested : RunM.onSession (Session.pause setup.page setup.commandDelay) s =
        .ok () { s with session := final (Session.pause setup.page setup.commandDelay s.session) } := by
      unfold RunM.onSession
      rw [Session.pause_of_made made]
      rfl
    exact bind_of_ok rested
  · rfl

theorem delay_made_of_performed {phase : Phase} {c : Command} {s t : RunState σ η ν}
    (done : setup.perform phase c s = .ok () t) : setup.delayRefusal? = none := by
  cases refused : setup.delayRefusal? with
  | none => rfl
  | some refusal =>
    rw [perform_of_refused refused] at done
    cases done

end Walkthrough.Setup
