import Walkthrough.Proofs.Run.Extended

/-!
The calls of a run. Any conduct can be watched: over a page that also keeps a list, each statement that
is to be carried out and each that is to be finished is written down before it is done. Watching
changes nothing else (`run_mirrors`), so what holds of the calls of a watched run holds of the run.
-/
namespace Walkthrough

open Walkthrough.Action

inductive Call where
  | execute (place : Nat) (phase : Phase) (statement : Statement) (upcoming : Option Answer)
  | finish
  deriving DecidableEq, Repr

variable {σ η ν α β ε : Type}

namespace RunState

def watched (s : RunState σ η ν) (calls : List Call) : RunState (σ × List Call) η ν :=
  { s with session := s.session.keeping calls }

def bare (s : RunState (σ × List Call) η ν) : RunState σ η ν := { s with session := s.session.bare }

def calls (s : RunState (σ × List Call) η ν) : List Call := s.session.page.2

end RunState

def Conduct.watched (conduct : Conduct σ η ν) : Conduct (σ × List Call) η ν where
  execute place phase statement upcoming := fun s =>
    let calls := s.calls ++ [.execute place phase statement upcoming]
    match conduct.execute place phase statement upcoming s.bare with
    | .ok () t => .ok () (t.watched calls)
    | .error stop t => .error stop (t.watched calls)
  finish s := (conduct.finish s.bare).keeping (s.page.2 ++ [.finish])

namespace Run

variable {conduct : Conduct σ η ν} {script : Script}

theorem watched_extends (conduct : Conduct σ η ν) : conduct.watched.Extends conduct where
  execute place phase statement upcoming s := by
    unfold Conduct.watched
    change mapState RunState.inner (match conduct.execute place phase statement upcoming s.inner with
      | .ok () t => .ok () (t.watched _)
      | .error stop t => .error stop (t.watched _)) = _
    cases conduct.execute place phase statement upcoming s.inner <;> rfl
  finish _ := rfl

theorem loop_mirrors (t : Turn) :
    Mirrors RunState.bare (loop conduct.watched script t) (loop conduct script t) :=
  loop_extends (watched_extends conduct) script t

theorem run_mirrors (name : String) (startedAt : Moment) :
    Mirrors RunState.bare (run conduct.watched script name startedAt)
      (run conduct script name startedAt) :=
  run_extends (watched_extends conduct) script name startedAt

end Run

/-- The run of a script with this set-up, watched. -/
def Setup.watchedRun (setup : Setup σ η ν) (script : Script) (row : Bindings) (startedAt : Moment)
    (session : Session σ ν) : EStateM.Result Fault (RunState (σ × List Call) η ν) RunRecord :=
  Run.run setup.conduct.watched script setup.runName startedAt
    { session := session.keeping [], memory := { row } }

end Walkthrough
