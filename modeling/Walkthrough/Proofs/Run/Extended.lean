import Walkthrough.Proofs.Run.Alike
import Walkthrough.Proofs.Session.Extended

/-!
Runs over pages that also keep something. A conduct extends another one if it does the same and only keeps
more, and then so does the run of any script (`run_extends`). A set-up over a page that extends its own
page extends its conduct.
-/
namespace Walkthrough

open Walkthrough.Action Session

variable {σ τ η ν α : Type}

/-- The state without what is kept besides. -/
def RunState.inner (s : RunState (σ × τ) η ν) : RunState σ η ν := { s with session := s.session.bare }

/-- What is kept besides. -/
def RunState.kept (s : RunState (σ × τ) η ν) : τ := s.session.page.2

def RunState.keeping (s : RunState σ η ν) (kept : τ) : RunState (σ × τ) η ν :=
  { s with session := s.session.keeping kept }

structure Conduct.Extends (conduct' : Conduct (σ × τ) η ν) (conduct : Conduct σ η ν) : Prop where
  execute : ∀ place phase statement upcoming,
    Mirrors RunState.inner (conduct'.execute place phase statement upcoming)
      (conduct.execute place phase statement upcoming)
  finish : ∀ s, (conduct'.finish s).bare = conduct.finish s.bare

/-- Without what is kept besides, the first session is the second, whatever the memory. -/
abbrev Memory.Bares (_ : Memory η) (a : Session (σ × τ) ν) (b : Session σ ν) : Prop := Session.Bares a b

theorem RunState.joint_bares {s : RunState (σ × τ) η ν} {t : RunState σ η ν} :
    RunState.Joint Memory.Bares s t ↔ s.inner = t := by
  obtain ⟨session, memory⟩ := s
  obtain ⟨session', memory'⟩ := t
  constructor
  · intro joint
    obtain ⟨rfl, rfl⟩ := joint
    rfl
  · intro same
    cases same
    exact ⟨rfl, rfl⟩

namespace Run

variable {conduct' : Conduct (σ × τ) η ν} {conduct : Conduct σ η ν}

theorem links_of_extends (more : conduct'.Extends conduct) (script : Script) :
    conduct'.Links conduct script Memory.Bares where
  execute place phase upcoming st _ :=
    alike_of_mirrors RunState.joint_bares (more.execute place phase st upcoming)
  finish same := same ▸ more.finish _
  note _ same := same ▸ rfl
  drain same := same
  forget same := same

theorem loop_extends (more : conduct'.Extends conduct) (script : Script) (t : Turn) :
    Mirrors RunState.inner (loop conduct' script t) (loop conduct script t) :=
  mirrors_of_alike RunState.joint_bares (loop_alike (links_of_extends more script) t)

theorem run_extends (more : conduct'.Extends conduct) (script : Script) (name : String) (startedAt : Moment) :
    Mirrors RunState.inner (run conduct' script name startedAt) (run conduct script name startedAt) :=
  mirrors_of_alike RunState.joint_bares (run_alike (links_of_extends more script) name startedAt)

end Run

namespace Setup

variable {setup : Setup σ η ν} {page' : Page (σ × τ) η ν}

theorem links_bares (more : page'.Extends setup.page) (may : Verb → Prop) :
    Links (setup.over page') setup.page may Memory.Bares where
  tied _ := tied_bares more
  elements _ _ same := same
  reading _ _ _ _ _ _ same := same
  screenshot _ phase c seeing := by
    unfold act
    simp only [seeing]
    refine alike_bind (RunM.alike_onSession fun m => demand_bares more _ _) fun png => ?_
    exact RunM.alike_setMemory fun same => same
  leave _ _ _ _ same := same ▸ rfl
  accept _ m := takeDialog_bares _
  dismiss _ m := takeDialog_bares _
  again _ _ _ _ same := same

theorem lasts_bares :
    Lasts (Memory.Bares : Memory η → Session (σ × τ) ν → Session σ ν → Prop) where
  save _ _ same := same
  confine _ same := same
  arm _ same := same ▸ rfl

theorem conduct_extends (more : page'.Extends setup.page) :
    (setup.over page').conduct.Extends setup.conduct where
  execute _ phase st upcoming :=
    mirrors_of_alike RunState.joint_bares
      ((links_bares more fun _ => True).execute lasts_bares phase st upcoming fun _ _ => trivial)
  finish _ := rfl

end Setup
end Walkthrough
