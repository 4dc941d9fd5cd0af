import Walkthrough.File.Home
import Walkthrough.Proofs.Run.Comes
import Walkthrough.Proofs.Run.Stops
import Walkthrough.Proofs.Script.Parsing

/-!
What can keep a run from returning. Whatever page it is and whatever fails there, a run returns a record unless it
comes to a statement that a fault ends: a pause is longer than the clock can make, or a path that is to be uploaded
has no meaning (`run_returns`). Both do happen (`run_of_unknown_home`, `run_of_overlong_pause`), and such a run ends
at once, without a record.
-/
namespace Walkthrough.Setup

open Walkthrough.Action RunM

variable {σ η ν : Type} {setup : Setup σ η ν}

/-- The run of a script comes to a statement that ends with the fault, in the state that the run has led to. -/
def Founders (setup : Setup σ η ν) (script : Script) (row : Bindings) (session : Session σ ν) (f : Fault) : Prop :=
  ∃ place phase st upcoming before,
    Run.Comes setup.conduct script (.noted { session, memory := { row } } (.runStarted setup.runName script.length))
      place phase st upcoming before ∧
    setup.Breaks phase st.form (readied st upcoming before) f

theorem run_eq_fault {script : Script} {row : Bindings} {startedAt : Moment} {session : Session σ ν} {f : Fault} :
    (∃ t, setup.run script row startedAt session = .error f t) ↔ setup.Founders script row session f := by
  constructor
  · rintro ⟨t, stopped⟩
    obtain ⟨place, phase, st, upcoming, before, comes, faulted⟩ := Run.run_eq_error.mp stopped
    exact ⟨place, phase, st, upcoming, before, comes, execute_eq_fault.mp ⟨t, faulted⟩⟩
  · rintro ⟨place, phase, st, upcoming, before, comes, breaks⟩
    obtain ⟨t, faulted⟩ := execute_eq_fault.mpr breaks
    exact ⟨t, Run.run_eq_error.mpr ⟨place, phase, st, upcoming, before, comes, faulted⟩⟩

/-- A run returns a record just if no statement that it comes to ends with a fault; else the run ends with the fault
of the first that does. -/
theorem run_returns (setup : Setup σ η ν) (script : Script) (row : Bindings) (startedAt : Moment)
    (session : Session σ ν) :
    ((∃ record t, setup.run script row startedAt session = .ok record t) ↔
      ¬ ∃ f, setup.Founders script row session f) ∧
    ∀ f, (∃ t, setup.run script row startedAt session = .error f t) ↔ setup.Founders script row session f := by
  refine ⟨⟨?_, fun smooth => ?_⟩, fun f => run_eq_fault⟩
  · rintro ⟨record, t, returned⟩ ⟨f, founders⟩
    obtain ⟨u, stopped⟩ : ∃ u, setup.run script row startedAt session = .error f u := run_eq_fault.mpr founders
    cases returned.symm.trans stopped
  · cases result : setup.run script row startedAt session with
    | ok record t => exact ⟨record, t, rfl⟩
    | error f t => exact absurd ⟨f, run_eq_fault.mp ⟨t, result⟩⟩ smooth

/-- A fault in the first statement of a script is all that comes of its run. -/
theorem run_of_fault {script : Script} {row : Bindings} {startedAt : Moment} {session : Session σ ν}
    {st : Statement} {later : List Statement} {f : Fault} {t : RunState σ η ν}
    (begins : script.statements = st :: later) (plain : st.isHandler = false) (silent : st.isComment = false)
    (faulted : setup.execute .running st (Answer.upcoming? later)
      { session := (session.record (.runStarted setup.runName script.length)).record (.executing st),
        memory := { row } } = .error (.fault f) t) :
    setup.run script row startedAt session = .error f t := by
  have going : ({} : Turn).isOver script = false := by
    simp [Turn.isOver, Script.length, begins]
  have here : script.statements[({} : Turn).index]? = some st := by rw [begins]; rfl
  have rest : script.statements.drop (({} : Turn).index + 1) = later := by rw [begins]; rfl
  refine Run.run_eq_error.mpr ⟨_, _, st, _, _, ⟨0, {}, _, rfl, going, .onward here plain silent⟩, ?_⟩
  rw [rest]
  exact faulted

/-- What a page that consists of one file input answers; the input has the focus. -/
def fileInputAnswer : {α : Type} → Request Unit α → Except String α
  | _, .query _ _ => .ok [()]
  | _, .isVisible _ => .ok true
  | _, .isAttached _ => .ok true
  | _, .tagName _ => .ok "input"
  | _, .attributeValue _ _ => .ok (some "file")
  | _, .activeElement => .ok (some ())
  | _, .scrollIntoView _ => .ok ()
  | _, _ => .error "not here"

/-- The file input on the machine of somebody who knows of no other users. -/
def aloneSetup : Setup Unit Unit Unit where
  locator :=
    { page :=
        { perform := fun r _ s => ⟨fileInputAnswer r, [], s⟩
          sleep := fun _ _ s => ([], s)
          levels := fun _ => 1 } }
  uploadPath := Disk.uploadPath {} { own := ⟨.slash, []⟩, ofUser? := fun _ => none }

theorem perform_aloneSetup : perform aloneSetup = act aloneSetup := by
  funext phase c
  unfold perform
  split
  · rfl
  · rfl

def faultOf? : EStateM.Result Stop (RunState Unit Unit Unit) Unit → Option Fault
  | .error (.fault f) _ => some f
  | _ => none

theorem faulted_of_some {result : EStateM.Result Stop (RunState Unit Unit Unit) Unit} {f : Fault}
    (some : faultOf? result = some f) : ∃ t, result = .error (.fault f) t := by
  unfold faultOf? at some
  split at some
  · cases some
    exact ⟨_, rfl⟩
  · cases some

def begunAlone (st : Statement) : RunState Unit Unit Unit where
  session := (({ page := () } : Session Unit Unit).record (.runStarted "run" 1)).record (.executing st)

def homelessUpload : Statement where
  form := .under none
    [{ verb := .locate, param := some (.quoted "photo") },
      { verb := .upload, param := some (.quoted "~nobody/photo.png") }]
  line := 1

theorem faultOf?_homelessUpload :
    faultOf? (execute aloneSetup .running homelessUpload none (begunAlone homelessUpload)) = some .noHome := by
  simp only [execute, homelessUpload, carryOut, performAll, perform_aloneSetup]
  decide +kernel

/-- A tilde with the name of nobody is no failure of the upload that a handler could go on from: the run of
the script has no record at all. -/
theorem run_of_unknown_home :
    ∃ script, Script.parse "under-active-element locate \"photo\" and upload \"~nobody/photo.png\"" =
        .ok script ∧
      ¬ ∃ record t, aloneSetup.run script [] ⟨2024, 1, 2, 3, 4, 5, 0⟩ { page := () } = .ok record t := by
  refine ⟨.ofStatements [homelessUpload], Script.parse_eq_ok.mpr (by decide +kernel), ?_⟩
  obtain ⟨t, faulted⟩ := faulted_of_some faultOf?_homelessUpload
  have escaped : aloneSetup.run (.ofStatements [homelessUpload]) [] ⟨2024, 1, 2, 3, 4, 5, 0⟩ { page := () } =
      .error .noHome t := run_of_fault rfl rfl rfl faulted
  rw [escaped]
  rintro ⟨record, u, returned⟩
  cases returned

def longPause : Statement where
  form := .run [{ verb := .chill, param := some (.number "10000000000") }]
  line := 1

theorem faultOf?_longPause :
    faultOf? (execute aloneSetup .running longPause none (begunAlone longPause)) = some .overflow := by
  simp only [execute, longPause, carryOut, performAll, perform_aloneSetup]
  decide +kernel

/-- Nor is a pause of three hundred years, though it is a number of seconds. -/
theorem run_of_overlong_pause :
    ∃ script, Script.parse "chill 10000000000" = .ok script ∧
      ∃ t, aloneSetup.run script [] ⟨2024, 1, 2, 3, 4, 5, 0⟩ { page := () } = .error .overflow t := by
  refine ⟨.ofStatements [longPause], Script.parse_eq_ok.mpr (by decide +kernel), ?_⟩
  obtain ⟨t, faulted⟩ := faulted_of_some faultOf?_longPause
  exact ⟨t, run_of_fault rfl rfl rfl faulted⟩

end Walkthrough.Setup
