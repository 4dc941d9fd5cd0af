import Walkthrough.Proofs.Run.Paused
import Walkthrough.Proofs.Run.Visits

/-!
The commands of a statement, one after the other. A statement begins with its dialogs armed (`Visit.begun`); a
command of it is reached when those before it have been carried out (`Reaches`). Unless the command is the
predicate of a condition, its failure is then the failure of the statement (`failure_of_refused`).
-/
namespace Walkthrough

open Walkthrough.Action

variable {σ η ν : Type}

namespace Setup

variable {setup : Setup σ η ν}

/-- The answer that is armed for a statement: that of its own first alert command, or else the upcoming one. -/
def armedFor (st : Statement) (upcoming : Option Answer) : Option Answer :=
  (Answer.first? st.form.commands).or upcoming

theorem execute_of_none {phase : Phase} {st : Statement} {upcoming : Option Answer}
    (unarmed : armedFor st upcoming = none) : setup.execute phase st upcoming = setup.carryOut phase st.form := by
  unfold armedFor at unarmed
  unfold execute
  rw [unarmed]

theorem execute_of_some {phase : Phase} {st : Statement} {upcoming : Option Answer} {answer : Answer}
    (armed : armedFor st upcoming = some answer) (s : RunState σ η ν) :
    setup.execute phase st upcoming s =
      RunM.andFinally (setup.carryOut phase st.form) (setArmed none) (setArmed (some answer) s) := by
  unfold armedFor at armed
  unfold execute
  rw [armed]
  rfl

/-- The state in which a statement begins to be carried out, its dialogs armed. -/
def readied (st : Statement) (upcoming : Option Answer) (s : RunState σ η ν) : RunState σ η ν :=
  match armedFor st upcoming with
  | none => s
  | some answer => setArmed (some answer) s

/-- The state in which a statement is left, where nothing is armed unless that was so before. -/
def relieved (st : Statement) (upcoming : Option Answer) (s : RunState σ η ν) : RunState σ η ν :=
  match armedFor st upcoming with
  | none => s
  | some _ => setArmed none s

theorem execute_eq (phase : Phase) (st : Statement) (upcoming : Option Answer) (s : RunState σ η ν) :
    setup.execute phase st upcoming s =
      RunM.andFinally (setup.carryOut phase st.form) (relieved st upcoming) (readied st upcoming s) := by
  unfold relieved readied
  cases armed : armedFor st upcoming with
  | none =>
    rw [execute_of_none armed]
    unfold RunM.andFinally
    cases setup.carryOut phase st.form s <;> rfl
  | some answer => exact execute_of_some armed s

theorem memory_readied (st : Statement) (upcoming : Option Answer) (s : RunState σ η ν) :
    (readied st upcoming s).memory = s.memory := by
  unfold readied
  cases armedFor st upcoming <;> rfl

theorem memory_relieved (st : Statement) (upcoming : Option Answer) (s : RunState σ η ν) :
    (relieved st upcoming s).memory = s.memory := by
  unfold relieved
  cases armedFor st upcoming <;> rfl

theorem failureOf_andFinally {x : RunM σ η ν Unit} {change : RunState σ η ν → RunState σ η ν}
    {failure : Option Failure} {s t : RunState σ η ν}
    (ended : Run.failureOf (RunM.andFinally x change) s = .ok failure t) :
    ∃ u, Run.failureOf x s = .ok failure u ∧ t = change u := by
  unfold Run.failureOf RunM.andFinally at ended
  unfold Run.failureOf
  cases result : x s with
  | ok _ u =>
    rw [result] at ended
    cases ended
    exact ⟨u, rfl, rfl⟩
  | error stop u =>
    rw [result] at ended
    cases stop with
    | failure f =>
      cases ended
      exact ⟨u, rfl, rfl⟩
    | fault f => cases ended

end Setup

/-- The state in which the statement of a visit begins to be carried out. -/
def Visit.begun (v : Visit σ η ν) : RunState σ η ν :=
  match Setup.armedFor v.statement v.upcoming with
  | none => v.before
  | some answer => Setup.setArmed (some answer) v.before

theorem Visit.begun_eq (v : Visit σ η ν) : ∃ armed, v.begun = Setup.setArmed armed v.before := by
  unfold Visit.begun
  cases Setup.armedFor v.statement v.upcoming with
  | none => exact ⟨v.before.session.dialogs.armed, rfl⟩
  | some answer => exact ⟨some answer, rfl⟩

theorem Visit.begun_of_none {v : Visit σ η ν} (unarmed : Setup.armedFor v.statement v.upcoming = none) :
    v.begun = v.before := by
  unfold Visit.begun
  rw [unarmed]

theorem Visit.begun_of_some {v : Visit σ η ν} {answer : Answer}
    (armed : Setup.armedFor v.statement v.upcoming = some answer) :
    v.begun = Setup.setArmed (some answer) v.before := by
  unfold Visit.begun
  rw [armed]

/-- A visit fails just as its statement does without regard to dialogs once they are armed, and leaves the same
behind but for what is armed: that is nothing then, unless nothing was armed for the statement. -/
theorem Visit.Done.carried {setup : Setup σ η ν} {v : Visit σ η ν} (done : v.Done setup.conduct) :
    ∃ t armed, Run.failureOf (setup.carryOut v.phase v.statement.form) v.begun = .ok v.failure t ∧
      v.after = Setup.setArmed armed t ∧ (armed = none ∨ v.begun = v.before ∧ v.after = t) := by
  change Run.failureOf (setup.execute v.phase v.statement v.upcoming) v.before = .ok v.failure v.after at done
  cases armed : Setup.armedFor v.statement v.upcoming with
  | none =>
    rw [Setup.execute_of_none armed] at done
    have begun := Visit.begun_of_none armed
    exact ⟨v.after, v.after.session.dialogs.armed, begun ▸ done, rfl, Or.inr ⟨begun, rfl⟩⟩
  | some answer =>
    have run : Run.failureOf (RunM.andFinally (setup.carryOut v.phase v.statement.form) (Setup.setArmed none))
        (Setup.setArmed (some answer) v.before) = .ok v.failure v.after := by
      unfold Run.failureOf at done ⊢
      rwa [Setup.execute_of_some armed] at done
    obtain ⟨t, ended, same⟩ := Setup.failureOf_andFinally run
    exact ⟨t, none, (Visit.begun_of_some armed).symm ▸ ended, same, Or.inl rfl⟩

namespace Setup

variable {setup : Setup σ η ν} {phase : Phase}

/-- Filling in the text that a command takes changes nothing. -/
theorem argument_eq_ok {c : Command} {raw : String} {s t : RunState σ η ν} (given : argument c s = .ok raw t) :
    t = s ∧ ∃ param, c.param = some param ∧ s.memory.valueOf param = .ok raw := by
  unfold argument at given
  cases told : c.param with
  | none =>
    rw [told] at given
    cases given
  | some param =>
    rw [told] at given
    obtain ⟨_, _, seen, given⟩ := bind_eq_ok.mp given
    cases seen
    cases value : s.memory.valueOf param with
    | error failure =>
      rw [value] at given
      cases given
    | ok found =>
      rw [value] at given
      obtain ⟨rfl, rfl⟩ := pure_eq_ok.mp given
      exact ⟨rfl, param, rfl, value⟩

theorem performAll_append (phase : Phase) (earlier later : List Command) :
    setup.performAll phase (earlier ++ later) =
      setup.performAll phase earlier >>= fun _ => setup.performAll phase later := by
  induction earlier with
  | nil => rfl
  | cons c earlier ih =>
    simp only [List.cons_append, performAll, ih]
    exact (bind_assoc _ _ _).symm

/-- What a statement does before its commands: it confines the search if it has an anchor. -/
def enter (setup : Setup σ η ν) : Form → RunM σ η ν Unit
  | .under anchor _ => do
    let element ← setup.anchorElement anchor
    modify (setScope (some element))
  | _ => return ()

/-- The commands of a statement that come earlier have been carried out, from the state in which it began; in
between, its commands began. -/
structure Reaches (setup : Setup σ η ν) (phase : Phase) (form : Form) (earlier : List Command)
    (start begun reached : RunState σ η ν) : Prop where
  entered : setup.enter form start = .ok () begun
  performed : setup.performAll phase earlier begun = .ok () reached

theorem performAll_stopped {earlier later : List Command} {c : Command} {stop : Stop} {begun reached t : RunState σ η ν}
    (performed : setup.performAll phase earlier begun = .ok () reached)
    (stopped : setup.perform phase c reached = .error stop t) :
    setup.performAll phase (earlier ++ c :: later) begun = .error stop t := by
  rw [performAll_append, bind_of_ok performed]
  exact bind_eq_error.mpr (Or.inl stopped)

/-- Where a command stops, its statement stops for the same reason. The failure of a predicate is the exception. -/
theorem Reaches.stopped {form : Form} {earlier later : List Command} {c : Command} {stop : Stop}
    {start begun reached t : RunState σ η ν} (reaches : setup.Reaches phase form earlier start begun reached)
    (shape : form.commands = earlier ++ c :: later)
    (inside : ∀ failure, stop = .failure failure → earlier = [] → ∀ predicate body, form ≠ .conditional predicate body)
    (stopped : setup.perform phase c reached = .error stop t) :
    ∃ u, setup.carryOut phase form start = .error stop u := by
  obtain ⟨entered, performed⟩ := reaches
  cases form with
  | comment text => cases earlier <;> cases shape
  | save value name => cases earlier <;> cases shape
  | run body =>
    obtain rfl : body = _ := shape
    obtain ⟨-, rfl⟩ := pure_eq_ok.mp entered
    exact ⟨t, performAll_stopped performed stopped⟩
  | handler body =>
    obtain rfl : body = _ := shape
    obtain ⟨-, rfl⟩ := pure_eq_ok.mp entered
    exact ⟨t, performAll_stopped performed stopped⟩
  | conditional predicate body =>
    obtain ⟨-, rfl⟩ := pure_eq_ok.mp entered
    cases earlier with
    | nil =>
      obtain ⟨rfl, rfl⟩ := List.cons.inj shape
      obtain ⟨-, rfl⟩ := pure_eq_ok.mp performed
      cases stop with
      | failure failure => exact absurd rfl (inside failure rfl rfl predicate body)
      | fault fault =>
        have tried : RunM.attempt (setup.perform phase predicate) start = .error (.fault fault) t := by
          unfold RunM.attempt
          rw [stopped]
        exact ⟨t, bind_eq_error.mpr (Or.inl tried)⟩
    | cons first earlier =>
      obtain ⟨rfl, rfl⟩ := List.cons.inj shape
      obtain ⟨_, mid, held, performed⟩ := bind_eq_ok.mp performed
      -- The predicate holds, so the body is carried out.
      have tried : RunM.attempt (setup.perform phase predicate) start = .ok (.ok ()) mid := by
        unfold RunM.attempt
        rw [held]
      exact ⟨t, (bind_of_ok tried).trans (performAll_stopped performed stopped)⟩
  | under anchor body =>
    obtain rfl : body = _ := shape
    obtain ⟨element, mid, anchored, confined⟩ := bind_eq_ok.mp entered
    obtain rfl : setScope (some element) mid = begun := by
      cases confined
      rfl
    refine ⟨setScope none t, (bind_of_ok anchored).trans ?_⟩
    change RunM.andFinally _ _ (setScope (some element) mid) = _
    unfold RunM.andFinally
    rw [performAll_stopped performed stopped]

end Setup

namespace Setup

variable {setup : Setup σ η ν}

/-- Carries out a statement, its commands in any given way. -/
def carryOutBy (setup : Setup σ η ν) (each : Command → RunM σ η ν Unit) : Form → RunM σ η ν Unit
  | .comment _ => return ()
  | .save value name => RunM.setMemory fun m => m.setVariable name (m.fillIn value)
  | .run body | .handler body => body.forM each
  | .conditional predicate body => do
    match ← RunM.attempt (each predicate) with
    | .error failure => RunM.note (.conditionFailed predicate failure)
    | .ok () => body.forM each
  | .under anchor body => do
    let element ← setup.anchorElement anchor
    modify (setScope (some element))
    RunM.andFinally (body.forM each) (setScope none)

theorem performAll_eq_forM (phase : Phase) (body : List Command) :
    setup.performAll phase body = body.forM (setup.perform phase) := by
  induction body with
  | nil => rfl
  | cons c later ih =>
    unfold performAll
    rw [ih]
    rfl

theorem carryOut_eq_by (phase : Phase) (form : Form) :
    setup.carryOut phase form = setup.carryOutBy (setup.perform phase) form := by
  cases form with
  | conditional predicate body =>
    simp only [carryOut, performAll_eq_forM]
    rfl
  | _ => simp only [carryOut, carryOutBy, performAll_eq_forM]

/-- Where pauses before commands change nothing, statements are carried out without them. -/
theorem conduct_eq_of_prompt (prompt : setup.perform = setup.act) :
    setup.conduct =
      { execute := fun _ phase st upcoming =>
          match armedFor st upcoming with
          | none => setup.carryOutBy (setup.act phase) st.form
          | some answer => do
            modify (setArmed (some answer))
            RunM.andFinally (setup.carryOutBy (setup.act phase) st.form) (setArmed none)
        finish := Session.finishStatement } := by
  have same (phase : Phase) : setup.carryOut phase = setup.carryOutBy (setup.act phase) := by
    funext form
    rw [carryOut_eq_by, prompt]
  unfold conduct
  congr 1
  funext place phase st upcoming
  rw [← same]
  rfl

end Setup

variable {setup : Setup σ η ν} {v : Visit σ η ν} {earlier later : List Command} {c : Command}
  {begun reached t : RunState σ η ν}

/-- A command of a visit that fails when it is reached fails the visit, unless it is the predicate of a
condition. -/
theorem Visit.Done.failure_of_refused (done : v.Done setup.conduct) {failure : Failure}
    (shape : v.statement.form.commands = earlier ++ c :: later)
    (reaches : setup.Reaches v.phase v.statement.form earlier v.begun begun reached)
    (inside : earlier = [] → ∀ predicate body, v.statement.form ≠ .conditional predicate body)
    (refused : setup.perform v.phase c reached = .error (.failure failure) t) : v.failure = some failure := by
  obtain ⟨u, failed⟩ := reaches.stopped shape (fun _ _ => inside) refused
  obtain ⟨t, armed, ended, -⟩ := done.carried
  unfold Run.failureOf at ended
  rw [failed] at ended
  exact (EStateM.Result.ok.inj ended).1.symm

/-- No command that is reached in a visit ends with a fault. -/
theorem Visit.Done.not_fault (done : v.Done setup.conduct) {fault : Fault}
    (shape : v.statement.form.commands = earlier ++ c :: later)
    (reaches : setup.Reaches v.phase v.statement.form earlier v.begun begun reached) :
    setup.perform v.phase c reached ≠ .error (.fault fault) t := by
  intro stopped
  obtain ⟨u, faulted⟩ := reaches.stopped shape (fun _ same => by cases same) stopped
  obtain ⟨t, armed, ended, -⟩ := done.carried
  unfold Run.failureOf at ended
  rw [faulted] at ended
  cases ended

/-- Where a visit reaches a command, the pauses before commands can be made. -/
theorem Visit.Done.delay_made (done : v.Done setup.conduct)
    (shape : v.statement.form.commands = earlier ++ c :: later)
    (reaches : setup.Reaches v.phase v.statement.form earlier v.begun begun reached) : setup.delayRefusal? = none := by
  cases refused : setup.delayRefusal? with
  | none => rfl
  | some refusal => exact absurd (Setup.perform_of_refused refused v.phase c reached) (done.not_fault shape reaches)

end Walkthrough
