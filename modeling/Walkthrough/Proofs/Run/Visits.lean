import Walkthrough.Proofs.Run.Extended
import Walkthrough.Proofs.Run.Moves

/-!
The visits of a run. Any conduct can be observed: over a page that also keeps a list, each statement that
was carried out is written down with the states before and after it, and so is each call to finish one.
Observing changes nothing else (`observed_extends`). In a run that returns, each visit is finished once,
the record follows the visits (`Filed`), and whatever each visit upholds holds at the end
(`Upholds.run`).
-/
namespace Walkthrough

open Walkthrough.Action

variable {σ η ν : Type}

/-- A statement that was carried out at a place, without a fault. -/
structure Visit (σ η ν : Type) where
  place : Nat
  phase : Phase
  statement : Statement
  upcoming : Option Answer
  before : RunState σ η ν
  failure : Option Failure
  after : RunState σ η ν

inductive Sighting (σ η ν : Type) where
  | visited (visit : Visit σ η ν)
  | finished

theorem Run.final_of_failureOf {x : RunM σ η ν Unit} {failure : Option Failure} {s t : RunState σ η ν}
    (ended : failureOf x s = .ok failure t) : final (x s) = t := by
  unfold failureOf at ended
  split at ended
  · next result =>
    cases ended
    rw [result]
    rfl
  · next result =>
    cases ended
    rw [result]
    rfl
  · cases ended

namespace Visit

def entry (v : Visit σ η ν) : RecordEntry :=
  ⟨v.statement.display, v.failure.map (·.message), v.after.memory.screenshots⟩

/-- Carrying out the statement leads from the state before to the state after. -/
def Done (conduct : Conduct σ η ν) (v : Visit σ η ν) : Prop :=
  Run.failureOf (conduct.execute v.place v.phase v.statement v.upcoming) v.before = .ok v.failure v.after

theorem Done.final_eq {setup : Setup σ η ν} {v : Visit σ η ν} (done : v.Done setup.conduct) :
    final (setup.execute v.phase v.statement v.upcoming v.before) = v.after :=
  Run.final_of_failureOf done

/-- A visit is seen, and then that it is finished. -/
def sightings (v : Visit σ η ν) : List (Sighting σ η ν) := [.visited v, .finished]

theorem sightings_injective {visits others : List (Visit σ η ν)}
    (same : visits.flatMap Visit.sightings = others.flatMap Visit.sightings) : visits = others := by
  induction visits generalizing others with
  | nil =>
    cases others with
    | nil => rfl
    | cons w others => cases same
  | cons v visits ih =>
    cases others with
    | nil => cases same
    | cons w others =>
      obtain ⟨first, same⟩ := List.cons.inj same
      cases first
      rw [ih (List.append_cancel_left same)]

end Visit

def Conduct.observed (conduct : Conduct σ η ν) : Conduct (σ × List (Sighting σ η ν)) η ν where
  execute place phase statement upcoming s :=
    let seen (failure : Option Failure) (t : RunState σ η ν) : List (Sighting σ η ν) :=
      s.kept ++ [.visited ⟨place, phase, statement, upcoming, s.inner, failure, t⟩]
    match conduct.execute place phase statement upcoming s.inner with
    | .ok () t => .ok () (t.keeping (seen none t))
    | .error (.failure failure) t => .error (.failure failure) (t.keeping (seen (some failure) t))
    | .error (.fault fault) t => .error (.fault fault) (t.keeping s.kept)
  finish s := (conduct.finish s.bare).keeping (s.page.2 ++ [.finished])

/-- The run of a script with this set-up, observed. -/
def Setup.observedRun (setup : Setup σ η ν) (script : Script) (row : Bindings) (startedAt : Moment)
    (session : Session σ ν) : EStateM.Result Fault (RunState (σ × List (Sighting σ η ν)) η ν) RunRecord :=
  Run.run setup.conduct.observed script setup.runName startedAt
    { session := session.keeping [], memory := { row } }

namespace Run

variable {conduct : Conduct σ η ν} {script : Script}

theorem observed_extends (conduct : Conduct σ η ν) : conduct.observed.Extends conduct where
  execute place phase statement upcoming s := by
    simp only [Conduct.observed]
    cases conduct.execute place phase statement upcoming s.inner with
    | ok _ t => rfl
    | error stop t => cases stop <;> rfl
  finish _ := rfl

/-- How the entries of a record follow the visits: one entry for each, and entries of their own for the
comments and for the handlers that were passed. Only a handler is visited to recover. -/
inductive Filed (conduct : Conduct σ η ν) (script : Script) :
    List (Visit σ η ν) → List RecordEntry → Prop where
  | nil : Filed conduct script [] []
  | passed {visits : List (Visit σ η ν)} {entries : List RecordEntry} {place : Nat} {statement : Statement}
      (earlier : Filed conduct script visits entries) (here : script.statements[place]? = some statement)
      (idle : statement.isHandler = true ∨ statement.isComment = true) :
      Filed conduct script visits (entries ++ [⟨statement.display, none, []⟩])
  | visited {visits : List (Visit σ η ν)} {entries : List RecordEntry} {v : Visit σ η ν}
      (earlier : Filed conduct script visits entries) (here : script.statements[v.place]? = some v.statement)
      (spoken : v.statement.isComment = false) (called : v.statement.isHandler = (v.phase == .awaitingRetry))
      (done : v.Done conduct) : Filed conduct script (visits ++ [v]) (entries ++ [v.entry])

theorem Filed.screenshots {visits : List (Visit σ η ν)} {entries : List RecordEntry}
    (filed : Filed conduct script visits entries) :
    entries.flatMap (·.screenshots) = visits.flatMap (·.after.memory.screenshots) := by
  induction filed with
  | nil => rfl
  | passed earlier here idle ih => simp [ih]
  | visited earlier here spoken called done ih => simp [ih, Visit.entry]

theorem Filed.done {visits : List (Visit σ η ν)} {entries : List RecordEntry}
    (filed : Filed conduct script visits entries) : ∀ v ∈ visits, v.Done conduct := by
  induction filed with
  | nil => exact List.forall_mem_nil _
  | passed earlier here idle ih => exact ih
  | visited earlier here spoken called done ih =>
    exact List.forall_mem_append.mpr ⟨ih, List.forall_mem_singleton.mpr done⟩

/-- A property of the visits so far and the state between them, which each visit upholds. -/
structure Upholds (conduct : Conduct σ η ν) (script : Script)
    (K : List (Visit σ η ν) → RunState σ η ν → Prop) : Prop where
  note : ∀ {visits s} (n : Notice), K visits s → K visits (s.noted n)
  forget : ∀ {visits s}, K visits s → K visits s.forgetful
  visit : ∀ {visits s} {v : Visit σ η ν} (noted : Option Notice), K visits s → v.before = s →
    v.statement ∈ script.statements → v.Done conduct → K (visits ++ [v]) (settled conduct noted v.after)

theorem failureOf_observed {place : Nat} {phase : Phase} {statement : Statement} {upcoming : Option Answer}
    {failure : Option Failure} {s t : RunState (σ × List (Sighting σ η ν)) η ν}
    (ended : failureOf (conduct.observed.execute place phase statement upcoming) s = .ok failure t) :
    ∃ after, failureOf (conduct.execute place phase statement upcoming) s.inner = .ok failure after ∧
      t = after.keeping (s.kept ++ [.visited ⟨place, phase, statement, upcoming, s.inner, failure, after⟩]) := by
  simp only [failureOf, Conduct.observed] at ended ⊢
  cases result : conduct.execute place phase statement upcoming s.inner with
  | ok _ after =>
    rw [result] at ended
    cases ended
    exact ⟨after, rfl, rfl⟩
  | error stop after =>
    rw [result] at ended
    cases stop with
    | failure failure =>
      cases ended
      exact ⟨after, rfl, rfl⟩
    | fault fault => cases ended

/-- An attempt under observation is a visit, which is seen and finished. -/
theorem attempt_observed {place : Nat} {phase : Phase} {statement : Statement} {upcoming : Option Answer}
    {failure : Option Failure} {s s' : RunState (σ × List (Sighting σ η ν)) η ν} {entry : RecordEntry}
    (attempt : Attempt conduct.observed place phase statement upcoming failure s entry s') :
    ∃ v : Visit σ η ν, v.place = place ∧ v.phase = phase ∧ v.statement = statement ∧ v.before = s.inner ∧
      v.Done conduct ∧ entry = v.entry ∧ s'.kept = s.kept ++ v.sightings ∧
      ∃ noted, s'.inner = settled conduct noted v.after := by
  obtain ⟨noted, ended⟩ := attempt
  obtain ⟨after, done, rfl⟩ := failureOf_observed ended
  have listed : s.kept ++ [Sighting.visited ⟨place, phase, statement, upcoming, s.inner, failure, after⟩] ++
      [.finished] = s.kept ++ Visit.sightings ⟨place, phase, statement, upcoming, s.inner, failure, after⟩ :=
    List.append_assoc _ _ _
  refine ⟨⟨place, phase, statement, upcoming, s.inner, failure, after⟩, rfl, rfl, rfl, rfl, done, rfl, ?_⟩
  cases noted with
  | none => exact ⟨listed, none, rfl⟩
  | some n => exact ⟨listed, some n, rfl⟩

/-- Between two turns of an observed run: what was seen, what is on record, and what every visit upholds. -/
def Told (conduct : Conduct σ η ν) (script : Script) (K : List (Visit σ η ν) → RunState σ η ν → Prop)
    (entries : List RecordEntry) (s : RunState (σ × List (Sighting σ η ν)) η ν) : Prop :=
  ∃ visits, s.kept = visits.flatMap Visit.sightings ∧ Filed conduct script visits entries ∧ K visits s.inner

variable {K : List (Visit σ η ν) → RunState σ η ν → Prop} {entries : List RecordEntry}
  {s s' : RunState (σ × List (Sighting σ η ν)) η ν} {t u : Turn}

namespace Told

variable (told : Told conduct script K entries s)
include told

theorem noted (upholds : Upholds conduct script K) (n : Notice) : Told conduct script K entries (s.noted n) := by
  obtain ⟨visits, seen, filed, holds⟩ := told
  exact ⟨visits, seen, filed, upholds.note n holds⟩

theorem forgetful (upholds : Upholds conduct script K) : Told conduct script K entries s.forgetful := by
  obtain ⟨visits, seen, filed, holds⟩ := told
  exact ⟨visits, seen, filed, upholds.forget holds⟩

theorem passed {place : Nat} {statement : Statement} (here : script.statements[place]? = some statement)
    (idle : statement.isHandler = true ∨ statement.isComment = true) :
    Told conduct script K (entries ++ [⟨statement.display, none, []⟩]) s := by
  obtain ⟨visits, seen, filed, holds⟩ := told
  exact ⟨visits, seen, filed.passed here idle, holds⟩

theorem attempted (upholds : Upholds conduct script K) {place : Nat} {phase : Phase} {statement : Statement}
    {upcoming : Option Answer} {failure : Option Failure} {entry : RecordEntry}
    (here : script.statements[place]? = some statement) (spoken : statement.isComment = false)
    (called : statement.isHandler = (phase == .awaitingRetry))
    (attempt : Attempt conduct.observed place phase statement upcoming failure s entry s') :
    Told conduct script K (entries ++ [entry]) s' := by
  obtain ⟨visits, seen, filed, holds⟩ := told
  obtain ⟨v, rfl, rfl, rfl, before, done, rfl, kept, noted, settled⟩ := attempt_observed attempt
  refine ⟨visits ++ [v], ?_, filed.visited here spoken called done, ?_⟩
  · rw [kept, seen, List.flatMap_append, List.flatMap_singleton]
  · rw [settled]
    exact upholds.visit noted holds before (List.mem_of_getElem? here) done

end Told

theorem isComment_of_isHandler {statement : Statement} (handling : statement.isHandler = true) :
    statement.isComment = false := by
  obtain ⟨form, line⟩ := statement
  cases form with
  | handler body => rfl
  | _ => cases handling

theorem told_recovers (upholds : Upholds conduct script K)
    (recovers : Recovers conduct.observed script t s u s') (told : Told conduct script K t.entries.toList s) :
    Told conduct script K u.entries.toList s' ∧ u.phase ≠ .awaitingRetry := by
  have attempted {h : Nat} {handler : Statement} {failure : Option Failure} {entry : RecordEntry}
      {s' : RunState (σ × List (Sighting σ η ν)) η ν} (named : script.handler? t.index = some h)
      (here : script.statements[h]? = some handler)
      (attempt : Attempt conduct.observed h .awaitingRetry handler none failure
        (s.forgetful.noted (.jumping handler)) entry s') :
      Told conduct script K ((t.awaitRetry h).record entry).entries.toList s' := by
    obtain ⟨statement, there, handling⟩ := (Script.handler?_eq_some_iff.mp named).2.1
    obtain rfl : statement = handler := Option.some.inj (there.symm.trans here)
    have called : statement.isHandler = (Phase.awaitingRetry == .awaitingRetry) := handling
    have after := ((told.forgetful upholds).noted upholds _).attempted upholds here
      (isComment_of_isHandler handling) called attempt
    simpa only [Turn.record, Turn.awaitRetry, Array.toList_push] using after
  cases recovers with
  | unhandled unnamed => exact ⟨told, by simp [Turn.halt]⟩
  | exhausted h named exhausted => exact ⟨told.noted upholds _, by simp [Turn.halt]⟩
  | refused h named fresh here attempt => exact ⟨attempted named here attempt, by simp [Turn.halt]⟩
  | left h named fresh here attempt content =>
    exact ⟨(attempted named here attempt).forgetful upholds, by simp [Turn.enterRegion]⟩
  | again h named fresh here attempt asked =>
    exact ⟨((attempted named here attempt).forgetful upholds).noted upholds _, by simp [Turn.retry]⟩

theorem told_moves (upholds : Upholds conduct script K) (moves : Moves conduct.observed script t s u s')
    (told : Told conduct script K t.entries.toList s) (calm : t.phase ≠ .awaitingRetry) :
    Told conduct script K u.entries.toList s' ∧ u.phase ≠ .awaitingRetry := by
  have attempted {statement : Statement} {failure : Option Failure} {entry : RecordEntry}
      {s' : RunState (σ × List (Sighting σ η ν)) η ν} (here : script.statements[t.index]? = some statement)
      (plain : statement.isHandler = false) (spoken : statement.isComment = false)
      (attempt : Attempt conduct.observed t.index t.phase statement
        (Answer.upcoming? (script.statements.drop (t.index + 1))) failure (s.noted (.executing statement))
        entry s') : Told conduct script K (t.record entry).entries.toList s' := by
    have called : statement.isHandler = (t.phase == .awaitingRetry) := by
      rw [plain, beq_eq_false_iff_ne.mpr calm]
    have after := (told.noted upholds _).attempted upholds here spoken called attempt
    simpa only [Turn.record, Array.toList_push] using after
  cases moves with
  | skipped here handling =>
    have after := told.passed here (Or.inl handling)
    refine ⟨?_, by simp [Turn.enterRegion]⟩
    simpa only [Turn.record, Turn.enterRegion, Array.toList_push] using after
  | comment here plain silent =>
    have after := told.passed here (Or.inr silent)
    exact ⟨by simpa only [Turn.record, Turn.next, Array.toList_push] using after, calm⟩
  | passed here plain spoken attempt => exact ⟨attempted here plain spoken attempt, calm⟩
  | failed here plain spoken attempt recovers =>
    exact told_recovers upholds recovers (attempted here plain spoken attempt)

/-- In an observed run that returns, every visit is finished once, the record follows the visits, and what
they uphold from the start holds at the end. -/
theorem Upholds.run (upholds : Upholds conduct script K) {name : String} {startedAt : Moment}
    {record : RunRecord} (fresh : s.kept = []) (start : K [] s.inner)
    (returned : run conduct.observed script name startedAt s = .ok record s') :
    Told conduct script K record.entries s' := by
  obtain ⟨t, r, n, looped, rfl, rfl⟩ := run_eq_ok returned
  -- Between two turns no handler is under way, so a visit to recover can only be that of a handler.
  have begun : Told conduct script K [] s := ⟨[], fresh, .nil, start⟩
  let I (t : Turn) (s : RunState (σ × List (Sighting σ η ν)) η ν) : Prop :=
    Told conduct script K t.entries.toList s ∧ t.phase ≠ .awaitingRetry
  have start : I {} (s.noted (.runStarted name script.length)) := ⟨begun.noted upholds _, by simp⟩
  have ended := (loop_invariant (fun holds moves => told_moves upholds moves holds.1 holds.2) start looped).1
  exact ended.1.noted upholds n

theorem Upholds.along (upholds : Upholds conduct script K) {name : String} {startedAt : Moment}
    {record : RunRecord} {visits : List (Visit σ η ν)} (fresh : s.kept = [])
    (returned : Run.run conduct.observed script name startedAt s = .ok record s')
    (seen : s'.kept = visits.flatMap Visit.sightings) (start : K [] s.inner) : K visits s'.inner := by
  obtain ⟨others, seen', -, holds⟩ := upholds.run fresh start returned
  obtain rfl : others = visits := Visit.sightings_injective (seen'.symm.trans seen)
  exact holds

/-- The record of an observed run that returns follows its visits. -/
theorem run_filed {name : String} {startedAt : Moment} {record : RunRecord} (fresh : s.kept = [])
    (returned : run conduct.observed script name startedAt s = .ok record s') :
    ∃ visits, s'.kept = visits.flatMap Visit.sightings ∧ Filed conduct script visits record.entries := by
  have upholds : Upholds conduct script fun _ _ => True :=
    { note := fun _ _ => trivial, forget := fun _ => trivial, visit := fun _ _ _ _ _ => trivial }
  obtain ⟨visits, seen, filed, -⟩ := upholds.run fresh trivial returned
  exact ⟨visits, seen, filed⟩

/-- A run that returns, returns under observation. -/
theorem observed_returns {name : String} {startedAt : Moment} {record : RunRecord} {s t : RunState σ η ν}
    (returned : run conduct script name startedAt s = .ok record t) :
    ∃ u, run conduct.observed script name startedAt (s.keeping []) = .ok record u ∧ u.inner = t := by
  have same : mapState RunState.inner (run conduct.observed script name startedAt (s.keeping [])) =
      run conduct script name startedAt s := run_extends (observed_extends conduct) script name startedAt _
  rw [returned] at same
  cases result : run conduct.observed script name startedAt (s.keeping []) with
  | ok record' u =>
    rw [result] at same
    cases same
    exact ⟨u, rfl, rfl⟩
  | error fault u =>
    rw [result] at same
    cases same

/-- What is seen of a script with one statement that succeeds is the visit of that statement. -/
theorem observed_of_only {st : Statement} (one : script.statements = [st]) (plain : st.isHandler = false)
    (silent : st.isComment = false) {name : String} {startedAt : Moment} {s t : RunState σ η ν}
    (done : conduct.execute 0 .running st none
      ((s.noted (.runStarted name script.length)).noted (.executing st)) = .ok () t) :
    ∃ u, run conduct.observed script name startedAt (s.keeping []) =
        .ok ⟨name, startedAt, [⟨st.display, none, t.memory.screenshots⟩], false⟩ u ∧
      u.kept = Visit.sightings ⟨0, .running, st, none,
        (s.noted (.runStarted name script.length)).noted (.executing st), none, t⟩ := by
  let v : Visit σ η ν :=
    ⟨0, .running, st, none, (s.noted (.runStarted name script.length)).noted (.executing st), none, t⟩
  have watched : conduct.observed.execute 0 .running st none
      (((s.keeping []).noted (.runStarted name script.length)).noted (.executing st)) =
        .ok () (t.keeping [.visited v]) := by
    have inner : (((s.keeping ([] : List (Sighting σ η ν))).noted (.runStarted name script.length)).noted
        (.executing st)).inner = v.before := rfl
    simp only [Conduct.observed, inner]
    rw [show conduct.execute 0 .running st none v.before = .ok () t from done]
    rfl
  exact ⟨_, run_of_only one plain silent watched, rfl⟩

end Run

/-- Observing a run changes nothing. -/
theorem Setup.observedRun_mirrors (setup : Setup σ η ν) (script : Script) (row : Bindings) (startedAt : Moment)
    (session : Session σ ν) :
    mapState RunState.inner (setup.observedRun script row startedAt session) =
      setup.run script row startedAt session :=
  Run.run_extends (Run.observed_extends setup.conduct) script setup.runName startedAt _

theorem Setup.observedRun_returns {setup : Setup σ η ν} {script : Script} {row : Bindings} {startedAt : Moment}
    {session : Session σ ν} {record : RunRecord} {t : RunState σ η ν}
    (returned : setup.run script row startedAt session = .ok record t) :
    ∃ u, setup.observedRun script row startedAt session = .ok record u ∧ u.inner = t :=
  Run.observed_returns returned

theorem Setup.run_of_observed {setup : Setup σ η ν} {script : Script} {row : Bindings} {startedAt : Moment}
    {session : Session σ ν} {record : RunRecord} {u : RunState (σ × List (Sighting σ η ν)) η ν}
    (observed : setup.observedRun script row startedAt session = .ok record u) :
    setup.run script row startedAt session = .ok record u.inner := by
  rw [← setup.observedRun_mirrors, observed]
  rfl

end Walkthrough
