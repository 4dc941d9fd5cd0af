import Mathlib.Data.List.Chain
import Walkthrough.Proofs.Run.Bounds
import Walkthrough.Proofs.Run.Visits

/-!
The stations of a run. A run passes comments, and handlers that no failure led to, and visits the other
statements; each of these stations has its place in the script and its entry in the record. `Follows` says
by the script alone which station can come after which, and the stations of every run that returns are
linked by it (`run_charted`). So an error is the end of a run or leads to the nearest handler
(`errors_lead_to_handlers`).
-/
namespace Walkthrough

open Walkthrough.Action

variable {σ η ν : Type}

inductive Station (σ η ν : Type) where
  | passed (place : Nat) (statement : Statement)
  | visited (visit : Visit σ η ν)

/-- The answer that the statement at a place is told to expect. A handler is told nothing. -/
def Script.foreseen (script : Script) (place : Nat) (statement : Statement) : Option Answer :=
  if statement.isHandler then none else Answer.upcoming? (script.statements.drop (place + 1))

namespace Station

def place : Station σ η ν → Nat
  | passed place _ => place
  | visited v => v.place

def statement : Station σ η ν → Statement
  | passed _ statement => statement
  | visited v => v.statement

def failure : Station σ η ν → Option Failure
  | passed _ _ => none
  | visited v => v.failure

def entry : Station σ η ν → RecordEntry
  | passed _ statement => ⟨statement.display, none, []⟩
  | visited v => v.entry

def visit? : Station σ η ν → Option (Visit σ η ν)
  | passed _ _ => none
  | visited v => some v

/-- Was it a failure that led here? -/
def recovering : Station σ η ν → Bool
  | passed _ _ => false
  | visited v => v.phase == .awaitingRetry

/-- What is done at a station suits the statement that stands at its place. -/
inductive Fits (conduct : Conduct σ η ν) (script : Script) : Station σ η ν → Prop where
  | passed {place : Nat} {statement : Statement} (here : script.statements[place]? = some statement)
      (idle : statement.isHandler = true ∨ statement.isComment = true) :
      Fits conduct script (.passed place statement)
  | visited {v : Visit σ η ν} (here : script.statements[v.place]? = some v.statement)
      (spoken : v.statement.isComment = false) (called : v.statement.isHandler = (v.phase == .awaitingRetry))
      (told : v.upcoming = script.foreseen v.place v.statement) (done : v.Done conduct) :
      Fits conduct script (.visited v)

/-- Which station can come next after one. A failure that no handler has been run for leads to the nearest
handler, and such a handler may lead back to where its region begins. -/
inductive Follows (script : Script) (a b : Station σ η ν) : Prop where
  | onward (content : a.failure = none) (calm : b.recovering = false) (next : b.place = a.place + 1)
  | again (content : a.failure = none) (recovering : a.recovering = true) (calm : b.recovering = false)
      (start : b.place = script.regionStart a.place)
  | recover (failed : a.failure.isSome = true) (first : a.recovering = false) (recovering : b.recovering = true)
      (named : script.handler? a.place = some b.place)

theorem error_entry (a : Station σ η ν) : a.entry.error = a.failure.map (·.message) := by
  cases a <;> rfl

theorem Fits.here {conduct : Conduct σ η ν} {script : Script} {a : Station σ η ν} (fits : a.Fits conduct script) :
    script.statements[a.place]? = some a.statement := by
  cases fits with
  | passed here idle => exact here
  | visited here spoken called told done => exact here

theorem Fits.handlerAt_iff {conduct : Conduct σ η ν} {script : Script} {a : Station σ η ν}
    (fits : a.Fits conduct script) : HandlerAt script.statements a.place ↔ a.statement.isHandler = true := by
  simp only [HandlerAt, fits.here, Option.some.injEq, exists_eq_left']

/-- Only a handler that was run to recover can fail among the handlers. -/
theorem Fits.isHandler_of_failed {conduct : Conduct σ η ν} {script : Script} {a : Station σ η ν}
    (fits : a.Fits conduct script) (failed : a.failure.isSome = true) :
    a.statement.isHandler = a.recovering := by
  cases fits with
  | passed here idle => cases failed
  | visited here spoken called told done => exact called

/-- What comes next after a failure is the nearest handler behind it. -/
theorem Follows.of_failed {conduct : Conduct σ η ν} {script : Script} {a b : Station σ η ν}
    (follows : Follows script a b) (fits : a.Fits conduct script) (fits' : b.Fits conduct script)
    (failed : a.failure.isSome = true) :
    a.statement.isHandler = false ∧ b.statement.isHandler = true ∧ a.place < b.place ∧
      ∀ j, a.place < j → j < b.place → ¬ HandlerAt script.statements j := by
  cases follows with
  | onward content calm next => simp [content] at failed
  | again content recovering calm start => simp [content] at failed
  | recover _ first recovering named =>
    have plain : a.statement.isHandler = false := (fits.isHandler_of_failed failed).trans first
    obtain ⟨low, handling, between⟩ := Script.handler?_eq_some_iff.mp named
    have apart : a.place ≠ b.place := by
      intro same
      rw [← same, fits.handlerAt_iff, plain] at handling
      cases handling
    have ahead : a.place < b.place := Nat.lt_of_le_of_ne low apart
    exact ⟨plain, fits'.handlerAt_iff.mp handling, ahead, fun j above => between j (Nat.le_of_lt above)⟩

end Station

namespace Run

variable {conduct : Conduct σ η ν} {script : Script}

/-- The stations so far of an observed run: they are what was seen and what is on record. -/
structure Logged (conduct : Conduct σ η ν) (script : Script) (log : List (Station σ η ν))
    (entries : Array RecordEntry) (s : RunState (σ × List (Sighting σ η ν)) η ν) : Prop where
  seen : s.kept = (log.filterMap Station.visit?).flatMap Visit.sightings
  filed : entries.toList = log.map Station.entry
  fits : ∀ a ∈ log, a.Fits conduct script
  linked : log.IsChain (Station.Follows script)

inductive Heads (script : Script) (log : List (Station σ η ν)) (t : Turn) : Prop where
  | start (running : t.phase = .running) (empty : log = [])
  | onward {a : Station σ η ν} (running : t.phase = .running) (last : log.getLast? = some a)
      (content : a.failure = none)
      (next : t.index = a.place + 1 ∨ a.recovering = true ∧ t.index = script.regionStart a.place)
  | halted {a : Station σ η ν} (stopped : t.phase = .halted ∧ t.index = script.length)
      (last : log.getLast? = some a) (failed : a.failure.isSome = true)

variable {log : List (Station σ η ν)} {t u : Turn} {entries : Array RecordEntry}
  {s s' : RunState (σ × List (Sighting σ η ν)) η ν}

theorem Logged.append (logged : Logged conduct script log entries s) {a : Station σ η ν}
    (fits : a.Fits conduct script) (seen : s'.kept = s.kept ++ a.visit?.toList.flatMap Visit.sightings)
    (follows : ∀ b ∈ log.getLast?, b.Follows script a) :
    Logged conduct script (log ++ [a]) (entries.push a.entry) s' where
  seen := by
    rw [seen, logged.seen, List.filterMap_append, List.flatMap_append]
    cases a <;> rfl
  filed := by rw [Array.toList_push, logged.filed, List.map_append, List.map_singleton]
  fits := by
    intro b among
    rcases List.mem_append.mp among with earlier | last
    · exact logged.fits b earlier
    · rwa [List.mem_singleton.mp last]
  linked := by
    refine List.isChain_append.mpr ⟨logged.linked, List.isChain_singleton a, fun b last c first => ?_⟩
    obtain rfl : a = c := Option.some.inj first
    exact follows b last

theorem Heads.follows (heads : Heads script log t) (running : t.phase = .running) {a : Station σ η ν}
    (calm : a.recovering = false) (place : a.place = t.index) : ∀ b ∈ log.getLast?, b.Follows script a := by
  intro b last
  cases heads with
  | start running empty => simp [empty] at last
  | onward running last' content next =>
    obtain rfl := Option.some.inj (last'.symm.trans last)
    rcases next with next | ⟨recovering, start⟩
    · exact .onward content calm (place.trans next)
    · exact .again content recovering calm (place.trans start)
  | halted stopped last' failed => simp [stopped.1] at running

theorem Heads.running (heads : Heads script log t) (inside : t.index < script.length) : t.phase = .running := by
  cases heads with
  | start running empty => exact running
  | onward running last content next => exact running
  | halted stopped last failed => omega

theorem Logged.attempted {s₀ : RunState (σ × List (Sighting σ η ν)) η ν}
    (logged : Logged conduct script log entries s₀) (same : s.kept = s₀.kept) {place : Nat} {phase : Phase}
    {statement : Statement} {failure : Option Failure} {entry : RecordEntry}
    (here : script.statements[place]? = some statement) (spoken : statement.isComment = false)
    (called : statement.isHandler = (phase == .awaitingRetry))
    (attempt : Attempt conduct.observed place phase statement (script.foreseen place statement) failure s entry s')
    (follows : ∀ a : Station σ η ν, a.place = place → a.recovering = (phase == .awaitingRetry) →
      ∀ b ∈ log.getLast?, b.Follows script a) :
    ∃ a : Station σ η ν, a.place = place ∧ a.failure = failure ∧ a.recovering = (phase == .awaitingRetry) ∧
      Logged conduct script (log ++ [a]) (entries.push entry) s' := by
  obtain ⟨noted, ended⟩ := attempt
  obtain ⟨after, done, rfl⟩ := failureOf_observed ended
  let v : Visit σ η ν := ⟨place, phase, statement, script.foreseen place statement, s.inner, failure, after⟩
  have seen : (settled conduct.observed noted (after.keeping (s.kept ++ [.visited v]))).kept =
      s₀.kept ++ [v].flatMap Visit.sightings := by
    have listed : s₀.kept ++ [Sighting.visited v] ++ [.finished] = s₀.kept ++ v.sightings :=
      List.append_assoc _ _ _
    rw [List.flatMap_singleton, ← listed, ← same]
    cases noted <;> rfl
  have fits : Station.Fits conduct script (.visited v) := .visited here spoken called rfl done
  exact ⟨.visited v, rfl, rfl, rfl, logged.append fits seen (follows (.visited v) rfl rfl)⟩

/-- After a failed station: the run halts there, or goes to the nearest handler. -/
theorem Logged.recovers {a : Station σ η ν} (logged : Logged conduct script (log ++ [a]) t.entries s)
    (failed : a.failure.isSome = true) (first : a.recovering = false) (place : a.place = t.index)
    (recovers : Recovers conduct.observed script t s u s') :
    ∃ log' : List (Station σ η ν), Logged conduct script log' u.entries s' ∧ Heads script log' u := by
  have last : (log ++ [a]).getLast? = some a := List.getLast?_concat
  have attempted {h : Nat} {handler : Statement} {failure : Option Failure} {entry : RecordEntry}
      {s' : RunState (σ × List (Sighting σ η ν)) η ν} (named : script.handler? t.index = some h)
      (here : script.statements[h]? = some handler)
      (attempt : Attempt conduct.observed h .awaitingRetry handler none failure
        (s.forgetful.noted (.jumping handler)) entry s') :
      ∃ b : Station σ η ν, b.place = h ∧ b.failure = failure ∧ b.recovering = true ∧
        Logged conduct script (log ++ [a] ++ [b]) (t.entries.push entry) s' := by
    obtain ⟨statement, there, handling⟩ := (Script.handler?_eq_some_iff.mp named).2.1
    obtain rfl : statement = handler := Option.some.inj (there.symm.trans here)
    have called : statement.isHandler = (Phase.awaitingRetry == .awaitingRetry) := handling
    -- A handler is told nothing, and nothing is foreseen for it either.
    have untold : script.foreseen h statement = none := if_pos handling
    refine logged.attempted (s := s.forgetful.noted (.jumping statement)) rfl here
      (isComment_of_isHandler handling) called (untold.symm ▸ attempt) ?_
    intro b at_h recovering c last'
    obtain rfl := Option.some.inj (last.symm.trans last')
    exact .recover failed first recovering (by rw [place, named, at_h])
  cases recovers with
  | unhandled unnamed => exact ⟨_, logged, .halted ⟨rfl, rfl⟩ last failed⟩
  | exhausted h named exhausted =>
    exact ⟨_, ⟨logged.seen, logged.filed, logged.fits, logged.linked⟩, .halted ⟨rfl, rfl⟩ last failed⟩
  | refused h named fresh here attempt =>
    obtain ⟨b, -, ended, -, logged⟩ := attempted named here attempt
    exact ⟨_, logged, .halted ⟨rfl, rfl⟩ List.getLast?_concat (by simp [ended])⟩
  | left h named fresh here attempt content =>
    obtain ⟨b, at_h, ended, -, logged⟩ := attempted named here attempt
    refine ⟨_, ⟨logged.seen, logged.filed, logged.fits, logged.linked⟩, ?_⟩
    exact .onward rfl List.getLast?_concat ended (Or.inl (congrArg (· + 1) at_h.symm))
  | again h named fresh here attempt asked =>
    obtain ⟨b, at_h, ended, recovering, logged⟩ := attempted named here attempt
    refine ⟨_, ⟨logged.seen, logged.filed, logged.fits, logged.linked⟩, ?_⟩
    exact .onward rfl List.getLast?_concat ended (Or.inr ⟨recovering, congrArg script.regionStart at_h.symm⟩)

theorem Logged.moves (logged : Logged conduct script log t.entries s) (heads : Heads script log t)
    (moves : Moves conduct.observed script t s u s') :
    ∃ log' : List (Station σ η ν), Logged conduct script log' u.entries s' ∧ Heads script log' u := by
  have running {statement : Statement} (here : script.statements[t.index]? = some statement) :
      t.phase = .running := heads.running (List.getElem?_eq_some_iff.mp here).1
  have passed {statement : Statement} (here : script.statements[t.index]? = some statement)
      (idle : statement.isHandler = true ∨ statement.isComment = true) :
      Logged conduct script (log ++ [.passed t.index statement])
        (t.record ⟨statement.display, none, []⟩).entries s :=
    logged.append (.passed here idle) (by simp [Station.visit?]) (heads.follows (running here) rfl rfl)
  have attempted {statement : Statement} {failure : Option Failure} {entry : RecordEntry}
      {s' : RunState (σ × List (Sighting σ η ν)) η ν} (here : script.statements[t.index]? = some statement)
      (plain : statement.isHandler = false) (spoken : statement.isComment = false)
      (attempt : Attempt conduct.observed t.index t.phase statement
        (Answer.upcoming? (script.statements.drop (t.index + 1))) failure (s.noted (.executing statement))
        entry s') :
      ∃ a : Station σ η ν, a.place = t.index ∧ a.failure = failure ∧ a.recovering = false ∧
        Logged conduct script (log ++ [a]) (t.record entry).entries s' := by
    have calm : (t.phase == .awaitingRetry) = false := by rw [running here]; rfl
    have told : script.foreseen t.index statement = Answer.upcoming? (script.statements.drop (t.index + 1)) :=
      if_neg (by simp [plain])
    obtain ⟨a, at_t, ended, first, logged⟩ := logged.attempted (s := s.noted (.executing statement)) rfl here
      spoken (plain.trans calm.symm) (told.symm ▸ attempt)
      fun b at_t first => heads.follows (running here) (first.trans calm) at_t
    exact ⟨a, at_t, ended, first.trans calm, logged⟩
  cases moves with
  | skipped here handling =>
    exact ⟨_, passed here (Or.inl handling), .onward rfl List.getLast?_concat rfl (Or.inl rfl)⟩
  | comment here plain silent =>
    exact ⟨_, passed here (Or.inr silent), .onward (running here) List.getLast?_concat rfl (Or.inl rfl)⟩
  | passed here plain spoken attempt =>
    obtain ⟨a, at_t, ended, -, logged⟩ := attempted here plain spoken attempt
    exact ⟨_, logged, .onward (running here) List.getLast?_concat ended (Or.inl (congrArg (· + 1) at_t.symm))⟩
  | failed here plain spoken attempt recovers =>
    obtain ⟨a, at_t, ended, first, logged⟩ := attempted here plain spoken attempt
    exact logged.recovers (by simp [ended]) first at_t recovers

/-- The stations of an observed run that returns are linked, and it exited early just if it halted at the last
of them. -/
theorem run_charted {name : String} {startedAt : Moment} {record : RunRecord} (fresh : s.kept = [])
    (returned : run conduct.observed script name startedAt s = .ok record s') :
    ∃ log : List (Station σ η ν), Logged conduct script log record.entries.toArray s' ∧
      (record.exitedEarly = true ↔ ∃ a ∈ log.getLast?, a.failure.isSome = true) := by
  obtain ⟨t, r, n, looped, rfl, rfl⟩ := run_eq_ok returned
  -- By induction on the turns: the stations so far are linked, and the turn tells which can come next.
  let I (t : Turn) (s : RunState (σ × List (Sighting σ η ν)) η ν) : Prop :=
    ∃ log : List (Station σ η ν), Logged conduct script log t.entries s ∧ Heads script log t
  have begun : I {} (s.noted (.runStarted name script.length)) :=
    ⟨[], ⟨fresh, rfl, List.forall_mem_nil _, List.isChain_nil⟩, .start rfl rfl⟩
  have along {t u : Turn} {s s' : RunState (σ × List (Sighting σ η ν)) η ν} (holds : I t s)
      (moves : Moves conduct.observed script t s u s') : I u s' := by
    obtain ⟨log, logged, heads⟩ := holds
    exact logged.moves heads moves
  obtain ⟨log, logged, heads⟩ := (loop_invariant along begun looped).1
  refine ⟨log, ⟨logged.seen, logged.filed, logged.fits, logged.linked⟩, ?_⟩
  cases heads with
  | start running empty => simp [running, empty]
  | onward running last content next => simp [running, last, content]
  | halted stopped last failed => simp [stopped.1, last, failed]

/-- A run that returns has halted at its last entry if that is an error, and else gone through. The entries are
those of the stations of the run. An error is followed by the nearest handler behind the statement that
failed, if by anything, and the error of a handler by nothing. -/
theorem errors_lead_to_handlers (conduct : Conduct σ η ν) (script : Script) (name : String) (startedAt : Moment)
    (s : RunState σ η ν) (record : RunRecord) (t : RunState σ η ν)
    (returned : run conduct script name startedAt s = .ok record t) :
    (record.exitedEarly = true ↔ ∃ entry ∈ record.entries.getLast?, entry.error.isSome = true) ∧
    ∃ u log, run conduct.observed script name startedAt (s.keeping []) = .ok record u ∧ u.inner = t ∧
      u.kept = (log.filterMap Station.visit?).flatMap Visit.sightings ∧
      (∀ a ∈ log, a.Fits conduct script) ∧ record.entries = log.map Station.entry ∧
      (log.IsChain fun a b => a.entry.error.isSome = true → b.statement.isHandler = true ∧ a.place < b.place ∧
        ∀ j, a.place < j → j < b.place → ¬ HandlerAt script.statements j) ∧
      ∀ earlier a later, log = earlier ++ a :: later → a.statement.isHandler = true →
        a.entry.error.isSome = true → later = [] := by
  obtain ⟨u, observed, same⟩ := observed_returns returned
  obtain ⟨log, logged, early⟩ := run_charted rfl observed
  have filed : record.entries = log.map Station.entry := logged.filed
  have failed (a : Station σ η ν) : a.entry.error.isSome = a.failure.isSome := by
    rw [a.error_entry, Option.isSome_map]
  refine ⟨?_, u, log, observed, same, logged.seen, logged.fits, filed, ?_, ?_⟩
  · rw [early, filed, List.getLast?_map]
    cases log.getLast? with
    | none => simp
    | some a => simp [failed]
  · refine logged.linked.imp_of_mem_imp fun a b among among' follows error => ?_
    rw [failed] at error
    exact (follows.of_failed (logged.fits a among) (logged.fits b among') error).2
  · intro earlier a later shape handling error
    rw [failed] at error
    cases later with
    | nil => rfl
    | cons b later =>
      have linked := logged.linked
      rw [shape] at linked
      have follows : a.Follows script b := (List.isChain_append_cons_cons.mp linked).2.1
      have plain := (follows.of_failed (logged.fits a (by simp [shape])) (logged.fits b (by simp [shape])) error).1
      rw [handling] at plain
      cases plain

theorem errors_lead_to_handlers_stubborn :
    ∃ record t, run stubborn guardedClick "run" ⟨2024, 1, 2, 3, 4, 5, 0⟩ { session := { page := () } } =
        .ok record t ∧ record.entries.map (·.error.isSome) = [true, false, true] ∧ record.exitedEarly = true ∧
      ∃ log : List (Station Unit Unit Unit), record.entries = log.map Station.entry ∧
        log.IsChain fun a b => a.entry.error.isSome = true → b.statement.isHandler = true ∧ a.place < b.place ∧
          ∀ j, a.place < j → j < b.place → ¬ HandlerAt guardedClick.statements j := by
  have ran : ∃ record t, run stubborn guardedClick "run" ⟨2024, 1, 2, 3, 4, 5, 0⟩ { session := { page := () } } =
      .ok record t ∧ record.entries.map (·.error.isSome) = [true, false, true] ∧
        ∃ entry ∈ record.entries.getLast?, entry.error.isSome = true := by
    rw [run_eq_readRun]
    exact ⟨_, _, rfl, rfl, _, rfl, rfl⟩
  obtain ⟨record, t, returned, errors, last⟩ := ran
  obtain ⟨early, -, log, -, -, -, -, filed, leads, -⟩ := errors_lead_to_handlers stubborn guardedClick "run"
    ⟨2024, 1, 2, 3, 4, 5, 0⟩ { session := { page := () } } record t returned
  exact ⟨record, t, returned, errors, early.mpr last, log, filed, leads⟩

end Run
end Walkthrough
