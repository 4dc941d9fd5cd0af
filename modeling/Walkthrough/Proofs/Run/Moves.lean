import Walkthrough.Run.Loop

/-!
What one turn of a run can do. Between two turns a run passes a handler or a comment, or attempts a
statement; after a failed attempt it halts, or attempts the handler. `Moves` lists the ways with all that
becomes of the turn and of the state, and every turn that comes to its end is one of them
(`moves_of_step`). So what all moves preserve holds at the end of a run (`loop_invariant`).
-/
namespace Walkthrough

open Walkthrough.Action

variable {σ η ν : Type}

namespace RunState

def noted (s : RunState σ η ν) (n : Notice) : RunState σ η ν := { s with session := s.session.record n }

/-- A request for another try is forgotten. -/
def forgetful (s : RunState σ η ν) : RunState σ η ν :=
  { s with memory := { s.memory with retryRequested := false } }

end RunState

namespace Run

variable (conduct : Conduct σ η ν) (script : Script)

/-- The state when a statement has been recorded and finished. Its failure has been noted before. -/
def settled (noted : Option Notice) (s : RunState σ η ν) : RunState σ η ν where
  session := conduct.finish ((noted.map s.session.record).getD s.session)
  memory := { s.memory with screenshots := [] }

/-- A statement is carried out, recorded and finished, whether it fails or not. -/
inductive Attempt (place : Nat) (phase : Phase) (statement : Statement) (upcoming : Option Answer)
    (failure : Option Failure) (s : RunState σ η ν) : RecordEntry → RunState σ η ν → Prop where
  | mk {t : RunState σ η ν} (noted : Option Notice)
      (ended : failureOf (conduct.execute place phase statement upcoming) s = .ok failure t) :
      Attempt place phase statement upcoming failure s
        ⟨statement.display, failure.map (·.message), t.memory.screenshots⟩ (settled conduct noted t)

/-- How a run goes on after a failed attempt. -/
inductive Recovers (t : Turn) (s : RunState σ η ν) : Turn → RunState σ η ν → Prop where
  | unhandled (unnamed : script.handler? t.index = none) : Recovers t s (t.halt script) s
  | exhausted (h : Nat) (named : script.handler? t.index = some h) (exhausted : t.exhausted h = true) :
      Recovers t s (t.halt script) (s.noted .regionExhausted)
  | refused (h : Nat) {handler : Statement} {failure : Failure} {entry : RecordEntry} {s' : RunState σ η ν}
      (named : script.handler? t.index = some h) (fresh : t.exhausted h = false)
      (here : script.statements[h]? = some handler)
      (attempt : Attempt conduct h .awaitingRetry handler none (some failure)
        (s.forgetful.noted (.jumping handler)) entry s') :
      Recovers t s (((t.awaitRetry h).record entry).halt script) s'
  | left (h : Nat) {handler : Statement} {entry : RecordEntry} {s' : RunState σ η ν}
      (named : script.handler? t.index = some h) (fresh : t.exhausted h = false)
      (here : script.statements[h]? = some handler)
      (attempt : Attempt conduct h .awaitingRetry handler none none
        (s.forgetful.noted (.jumping handler)) entry s')
      (content : s'.memory.retryRequested = false) :
      Recovers t s (((t.awaitRetry h).record entry).enterRegion (h + 1)) s'.forgetful
  | again (h : Nat) {handler : Statement} {entry : RecordEntry} {s' : RunState σ η ν}
      (named : script.handler? t.index = some h) (fresh : t.exhausted h = false)
      (here : script.statements[h]? = some handler)
      (attempt : Attempt conduct h .awaitingRetry handler none none
        (s.forgetful.noted (.jumping handler)) entry s')
      (asked : s'.memory.retryRequested = true) :
      Recovers t s (((t.awaitRetry h).record entry).retry (script.regionStart h))
        (s'.forgetful.noted (.tryingAgain (script.regionStart h + 1)))

/-- How a run goes on from a turn. -/
inductive Moves (t : Turn) (s : RunState σ η ν) : Turn → RunState σ η ν → Prop where
  | skipped {statement : Statement} (here : script.statements[t.index]? = some statement)
      (handling : statement.isHandler = true) :
      Moves t s ((t.record ⟨statement.display, none, []⟩).enterRegion (t.index + 1)) s
  | comment {statement : Statement} (here : script.statements[t.index]? = some statement)
      (plain : statement.isHandler = false) (silent : statement.isComment = true) :
      Moves t s (t.record ⟨statement.display, none, []⟩).next s
  | passed {statement : Statement} {entry : RecordEntry} {s' : RunState σ η ν}
      (here : script.statements[t.index]? = some statement) (plain : statement.isHandler = false)
      (spoken : statement.isComment = false)
      (attempt : Attempt conduct t.index t.phase statement
        (Answer.upcoming? (script.statements.drop (t.index + 1))) none (s.noted (.executing statement)) entry s') :
      Moves t s (t.record entry).next s'
  | failed {statement : Statement} {failure : Failure} {entry : RecordEntry} {s' : RunState σ η ν} {u : Turn}
      {s'' : RunState σ η ν} (here : script.statements[t.index]? = some statement)
      (plain : statement.isHandler = false) (spoken : statement.isComment = false)
      (attempt : Attempt conduct t.index t.phase statement
        (Answer.upcoming? (script.statements.drop (t.index + 1))) (some failure)
        (s.noted (.executing statement)) entry s')
      (recovers : Recovers conduct script (t.record entry) s' u s'') : Moves t s u s''

variable {conduct script}

theorem handle_eq_ok {t u : Turn} {h : Nat} {handler : Statement} {s s' : RunState σ η ν}
    (named : script.handler? t.index = some h) (fresh : t.exhausted h = false)
    (here : script.statements[h]? = some handler)
    (handled : handle conduct script t h handler s = .ok u s') : Recovers conduct script t s u s' := by
  obtain ⟨_, _, forgotten, handled⟩ := bind_eq_ok.mp handled
  obtain ⟨_, _, noted, handled⟩ := bind_eq_ok.mp handled
  obtain ⟨failed, t', ended, handled⟩ := bind_eq_ok.mp handled
  cases forgotten
  cases noted
  cases failed with
  | some failure =>
    obtain ⟨_, _, noted, handled⟩ := bind_eq_ok.mp handled
    obtain ⟨_, _, recorded, handled⟩ := bind_eq_ok.mp handled
    obtain ⟨_, _, finished, handled⟩ := bind_eq_ok.mp handled
    obtain ⟨rfl, rfl⟩ := pure_eq_ok.mp handled
    cases noted
    cases recorded
    cases finished
    exact .refused h named fresh here (.mk (some (.handlerFailed failure)) ended)
  | none =>
    obtain ⟨_, _, finished, handled⟩ := bind_eq_ok.mp handled
    obtain ⟨_, _, recorded, handled⟩ := bind_eq_ok.mp handled
    obtain ⟨asked, _, taken, handled⟩ := bind_eq_ok.mp handled
    cases finished
    cases recorded
    have attempt : Attempt conduct h .awaitingRetry handler none none _ _ _ := .mk none ended
    unfold takeRetryRequest at taken
    cases request : t'.memory.retryRequested with
    | true =>
      simp only [request] at taken
      cases taken
      obtain ⟨_, _, noted, handled⟩ := bind_eq_ok.mp handled
      obtain ⟨rfl, rfl⟩ := pure_eq_ok.mp handled
      cases noted
      exact .again h named fresh here attempt request
    | false =>
      simp only [request] at taken
      cases taken
      obtain ⟨rfl, rfl⟩ := pure_eq_ok.mp handled
      exact .left h named fresh here attempt request

theorem recover_eq_ok {t u : Turn} {s s' : RunState σ η ν}
    (recovered : recover conduct script t s = .ok u s') : Recovers conduct script t s u s' := by
  unfold recover at recovered
  cases named : script.handler? t.index with
  | none =>
    simp only [named] at recovered
    obtain ⟨rfl, rfl⟩ := pure_eq_ok.mp recovered
    exact .unhandled named
  | some h =>
    obtain ⟨handler, here, -⟩ := (Script.handler?_eq_some_iff.mp named).2.1
    cases fresh : t.exhausted h with
    | true =>
      simp only [named, fresh, if_true] at recovered
      obtain ⟨_, _, noted, recovered⟩ := bind_eq_ok.mp recovered
      obtain ⟨rfl, rfl⟩ := pure_eq_ok.mp recovered
      cases noted
      exact .exhausted h named fresh
    | false =>
      simp only [named, fresh, here, Bool.false_eq_true, if_false] at recovered
      exact handle_eq_ok named fresh here recovered

theorem moves_of_step {t u : Turn} {s s' : RunState σ η ν} (going : t.isOver script = false)
    (stepped : step conduct script t s = .ok u s') : Moves conduct script t s u s' := by
  have inside : t.index < script.statements.length := by
    simp only [Turn.isOver, Bool.or_eq_false_iff] at going
    exact Nat.lt_of_not_le (of_decide_eq_false going.1)
  have here := List.getElem?_eq_getElem inside
  generalize script.statements[t.index] = statement at here
  unfold step at stepped
  cases handling : statement.isHandler with
  | true =>
    simp only [here, handling, if_true] at stepped
    obtain ⟨rfl, rfl⟩ := pure_eq_ok.mp stepped
    exact .skipped here handling
  | false =>
    cases comment : statement.isComment with
    | true =>
      simp only [here, handling, comment, Bool.false_eq_true, if_false, if_true] at stepped
      obtain ⟨rfl, rfl⟩ := pure_eq_ok.mp stepped
      exact .comment here handling comment
    | false =>
      simp only [here, handling, comment, Bool.false_eq_true, if_false] at stepped
      obtain ⟨_, _, noted, stepped⟩ := bind_eq_ok.mp stepped
      obtain ⟨failed, _, ended, stepped⟩ := bind_eq_ok.mp stepped
      cases noted
      cases failed with
      | none =>
        obtain ⟨_, _, recorded, stepped⟩ := bind_eq_ok.mp stepped
        obtain ⟨_, _, finished, stepped⟩ := bind_eq_ok.mp stepped
        obtain ⟨rfl, rfl⟩ := pure_eq_ok.mp stepped
        cases recorded
        cases finished
        exact .passed here handling comment (.mk none ended)
      | some failure =>
        obtain ⟨_, _, noted, stepped⟩ := bind_eq_ok.mp stepped
        obtain ⟨_, _, recorded, stepped⟩ := bind_eq_ok.mp stepped
        obtain ⟨_, _, finished, stepped⟩ := bind_eq_ok.mp stepped
        cases noted
        cases recorded
        cases finished
        exact .failed here handling comment (.mk (some (.failed statement failure)) ended)
          (recover_eq_ok stepped)

/-- What every move preserves holds at the end. -/
theorem loop_invariant {I : Turn → RunState σ η ν → Prop}
    (moves : ∀ {t s u s'}, I t s → Moves conduct script t s u s' → I u s') {t u : Turn}
    {s s' : RunState σ η ν} (start : I t s) (looped : loop conduct script t s = .ok u s') :
    I u s' ∧ u.isOver script = true := by
  cases ended : t.isOver script with
  | true =>
    rw [loop_of_over ended] at looped
    obtain ⟨rfl, rfl⟩ := pure_eq_ok.mp looped
    exact ⟨start, ended⟩
  | false =>
    rw [loop_of_not_over ended] at looped
    obtain ⟨next, r, stepped, rest⟩ := bind_eq_ok.mp looped
    have := (step_advances stepped).remaining_less ended
    exact loop_invariant moves (moves start (moves_of_step ended stepped)) rest
termination_by Turn.remaining script t
decreasing_by exact this

/-- A run that returns has gone through its loop, and records what the last turn knows. -/
theorem run_eq_ok {name : String} {startedAt : Moment} {s s' : RunState σ η ν} {record : RunRecord}
    (returned : run conduct script name startedAt s = .ok record s') :
    ∃ t r n, loop conduct script {} (s.noted (.runStarted name script.length)) = .ok t r ∧
      s' = r.noted n ∧ record = ⟨name, startedAt, t.entries.toList, t.phase == .halted⟩ := by
  obtain ⟨_, _, noted, looping⟩ := bind_eq_ok.mp returned
  obtain ⟨t, r, looped, closing⟩ := bind_eq_ok.mp looping
  cases noted
  dsimp only at closing
  split at closing
  · obtain ⟨_, _, noted, closed⟩ := bind_eq_ok.mp closing
    obtain ⟨rfl, rfl⟩ := pure_eq_ok.mp closed
    cases noted
    exact ⟨t, r, _, looped, rfl, rfl⟩
  · obtain ⟨_, _, noted, closed⟩ := bind_eq_ok.mp closing
    obtain ⟨rfl, rfl⟩ := pure_eq_ok.mp closed
    cases noted
    exact ⟨t, r, _, looped, rfl, rfl⟩

/-- The run of a script with one statement that succeeds. -/
theorem run_of_only {st : Statement} (one : script.statements = [st]) (plain : st.isHandler = false)
    (silent : st.isComment = false) {name : String} {startedAt : Moment} {s t : RunState σ η ν}
    (done : conduct.execute 0 .running st none
      ((s.noted (.runStarted name script.length)).noted (.executing st)) = .ok () t) :
    run conduct script name startedAt s =
      .ok ⟨name, startedAt, [⟨st.display, none, t.memory.screenshots⟩], false⟩
        ((settled conduct none t).noted (.runCompleted name)) := by
  have length : script.length = 1 := congrArg List.length one
  have stepped : step conduct script {} (s.noted (.runStarted name script.length)) =
      .ok (({} : Turn).record ⟨st.display, none, t.memory.screenshots⟩).next (settled conduct none t) := by
    unfold step
    simp only [one, List.getElem?_cons_zero, plain, silent, Bool.false_eq_true, if_false, Nat.zero_add,
      List.drop_succ_cons, List.drop_zero]
    exact bind_eq_ok.mpr ⟨(), _, rfl, bind_eq_ok.mpr ⟨none, t, failureOf_eq_none.mpr done, rfl⟩⟩
  have looped : loop conduct script {} (s.noted (.runStarted name script.length)) =
      .ok (({} : Turn).record ⟨st.display, none, t.memory.screenshots⟩).next (settled conduct none t) := by
    rw [loop_of_not_over (by simp [Turn.isOver, length]), bind_of_ok stepped,
      loop_of_over (by simp [Turn.isOver, Turn.next, Turn.record, length])]
    rfl
  exact bind_eq_ok.mpr ⟨(), _, rfl, bind_eq_ok.mpr ⟨_, _, looped, rfl⟩⟩

theorem run_of_one {st : Statement} (one : script.statements = [st]) (plain : st.isHandler = false)
    (silent : st.isComment = false) {name : String} {startedAt : Moment} {s t : RunState σ η ν}
    (done : conduct.execute 0 .running st none
      ((s.noted (.runStarted name script.length)).noted (.executing st)) = .ok () t) :
    ∃ s', run conduct script name startedAt s =
      .ok ⟨name, startedAt, [⟨st.display, none, t.memory.screenshots⟩], false⟩ s' :=
  ⟨_, run_of_only one plain silent done⟩

end Run
end Walkthrough
