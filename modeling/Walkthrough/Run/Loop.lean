import Walkthrough.Run.Turn
import Walkthrough.Run.Perform
import Walkthrough.Session.Action

/-!
The run of a script, for any way of carrying out statements. A statement that fails leads to the
nearest handler after it. The handler guards the region since the handler before it, and can ask once
that the whole region be run again. Without a handler, or when a region fails in its second try, or
when a handler fails itself, the run halts.
-/
namespace Walkthrough

/-- Actions of the run between statements: failures have been dealt with, only faults are left. -/
abbrev LoopM (σ η ν : Type) := EStateM Fault (RunState σ η ν)

/-- A way of carrying out the statement at a place of the script, and of finishing it. -/
structure Conduct (σ η ν : Type) where
  execute : (place : Nat) → Phase → Statement → Option Answer → RunM σ η ν Unit
  finish : Session σ ν → Session σ ν

namespace Run

open Walkthrough.Action

variable {σ η ν : Type}

def note (n : Notice) : LoopM σ η ν Unit :=
  modify fun s => { s with session := s.session.record n }

def failureOf (x : RunM σ η ν Unit) : LoopM σ η ν (Option Failure) := fun s =>
  match x s with
  | .ok () s => .ok none s
  | .error (.failure failure) s => .ok (some failure) s
  | .error (.fault fault) s => .error fault s

def finish (conduct : Conduct σ η ν) : LoopM σ η ν Unit :=
  modify fun s => { s with session := conduct.finish s.session }

def record (t : Turn) (statement : Statement) (failure : Option Failure) : LoopM σ η ν Turn :=
  fun s =>
    let (screenshots, memory) := s.memory.takeScreenshots
    .ok (t.record ⟨statement.display, failure.map (·.message), screenshots⟩) { s with memory }

def takeRetryRequest : LoopM σ η ν Bool := fun s =>
  .ok s.memory.retryRequested { s with memory := { s.memory with retryRequested := false } }

variable (conduct : Conduct σ η ν) (script : Script)

def handle (t : Turn) (h : Nat) (handler : Statement) : LoopM σ η ν Turn := do
  let _ ← takeRetryRequest
  note (.jumping handler)
  match ← failureOf (conduct.execute h .awaitingRetry handler none) with
  | some failure =>
    note (.handlerFailed failure)
    let t ← record (t.awaitRetry h) handler (some failure)
    finish conduct
    return t.halt script
  | none =>
    finish conduct
    let t ← record (t.awaitRetry h) handler none
    if ← takeRetryRequest then
      note (.tryingAgain (script.regionStart h + 1))
      return t.retry (script.regionStart h)
    else return t.enterRegion (h + 1)

def recover (t : Turn) : LoopM σ η ν Turn :=
  match script.handler? t.index with
  | none => pure (t.halt script)
  | some h =>
    if t.exhausted h then do
      note .regionExhausted
      return t.halt script
    else
      match script.statements[h]? with
      | none => pure (t.halt script)
      | some handler => handle conduct script t h handler

/-- Passes the statement at hand. Comments are only recorded, and so are handlers that are reached
without a failure; behind them a new region begins. -/
def step (t : Turn) : LoopM σ η ν Turn :=
  match script.statements[t.index]? with
  | none => pure (t.halt script)
  | some statement =>
    if statement.isHandler then
      pure ((t.record ⟨statement.display, none, []⟩).enterRegion (t.index + 1))
    else if statement.isComment then
      pure (t.record ⟨statement.display, none, []⟩).next
    else do
      note (.executing statement)
      let upcoming := Answer.upcoming? (script.statements.drop (t.index + 1))
      match ← failureOf (conduct.execute t.index t.phase statement upcoming) with
      | none =>
        let t ← record t statement none
        finish conduct
        return t.next
      | some failure =>
        note (.failed statement failure)
        let t ← record t statement (some failure)
        finish conduct
        recover conduct script t

variable {conduct script}

theorem failureOf_eq_none {x : RunM σ η ν Unit} {s t : RunState σ η ν} :
    failureOf x s = .ok none t ↔ x s = .ok () t := by
  unfold failureOf
  cases x s with
  | ok _ u => simp
  | error stop u => cases stop <;> simp

theorem record_eq_ok {t u : Turn} {statement : Statement} {failure : Option Failure}
    {s s' : RunState σ η ν} (result : record t statement failure s = .ok u s') :
    ∃ entry, u = t.record entry := by
  cases result
  exact ⟨_, rfl⟩

theorem handle_advances {t u : Turn} {h : Nat} {handler : Statement} {s s' : RunState σ η ν}
    (named : script.handler? t.index = some h) (fresh : t.exhausted h = false)
    (result : handle conduct script t h handler s = .ok u s') : Turn.Advances script t u := by
  obtain ⟨_, _, -, result⟩ := bind_eq_ok.mp result
  obtain ⟨_, _, -, result⟩ := bind_eq_ok.mp result
  obtain ⟨failed, _, -, result⟩ := bind_eq_ok.mp result
  cases failed with
  | some failure =>
    obtain ⟨_, _, -, result⟩ := bind_eq_ok.mp result
    obtain ⟨_, _, -, result⟩ := bind_eq_ok.mp result
    obtain ⟨_, _, -, result⟩ := bind_eq_ok.mp result
    obtain ⟨rfl, -⟩ := pure_eq_ok.mp result
    exact .halt rfl
  | none =>
    obtain ⟨_, _, -, result⟩ := bind_eq_ok.mp result
    obtain ⟨_, _, recorded, result⟩ := bind_eq_ok.mp result
    obtain ⟨entry, rfl⟩ := record_eq_ok recorded
    obtain ⟨again, _, -, result⟩ := bind_eq_ok.mp result
    cases again with
    | true =>
      obtain ⟨_, _, -, result⟩ := bind_eq_ok.mp result
      obtain ⟨rfl, -⟩ := pure_eq_ok.mp result
      exact .again h named fresh rfl rfl rfl
    | false =>
      obtain ⟨rfl, -⟩ := pure_eq_ok.mp result
      exact .leave h named rfl

theorem recover_advances {t u : Turn} {s s' : RunState σ η ν}
    (result : recover conduct script t s = .ok u s') : Turn.Advances script t u := by
  unfold recover at result
  cases named : script.handler? t.index with
  | none =>
    simp only [named] at result
    obtain ⟨rfl, -⟩ := pure_eq_ok.mp result
    exact .halt rfl
  | some h =>
    cases fresh : t.exhausted h with
    | true =>
      simp only [named, fresh, if_true] at result
      obtain ⟨_, _, -, result⟩ := bind_eq_ok.mp result
      obtain ⟨rfl, -⟩ := pure_eq_ok.mp result
      exact .halt rfl
    | false =>
      cases found : script.statements[h]? with
      | none =>
        simp only [named, fresh, found, Bool.false_eq_true, if_false] at result
        obtain ⟨rfl, -⟩ := pure_eq_ok.mp result
        exact .halt rfl
      | some handler =>
        simp only [named, fresh, found, Bool.false_eq_true, if_false] at result
        exact handle_advances named fresh result

theorem Advances.of_record {t u : Turn} {entry : RecordEntry}
    (step : Turn.Advances script (t.record entry) u) : Turn.Advances script t u := by
  cases step with
  | next plain index retryUsed handler => exact .next plain index retryUsed handler
  | skip handling index => exact .skip handling index
  | leave h named index => exact .leave h named index
  | again h named fresh index retryUsed handler => exact .again h named fresh index retryUsed handler
  | halt ended => exact .halt ended

theorem step_advances {t u : Turn} {s s' : RunState σ η ν}
    (result : step conduct script t s = .ok u s') : Turn.Advances script t u := by
  unfold step at result
  cases found : script.statements[t.index]? with
  | none =>
    simp only [found] at result
    obtain ⟨rfl, -⟩ := pure_eq_ok.mp result
    exact .halt rfl
  | some statement =>
    cases handling : statement.isHandler with
    | true =>
      simp only [found, handling, if_true] at result
      obtain ⟨rfl, -⟩ := pure_eq_ok.mp result
      exact .skip ⟨statement, found, handling⟩ rfl
    | false =>
      have plain : ¬ HandlerAt script.statements t.index := by
        intro given
        obtain ⟨other, at_index, handling'⟩ := given
        rw [found] at at_index
        cases at_index
        simp [handling] at handling'
      cases comment : statement.isComment with
      | true =>
        simp only [found, handling, comment, Bool.false_eq_true, if_false, if_true] at result
        obtain ⟨rfl, -⟩ := pure_eq_ok.mp result
        exact .next plain rfl rfl rfl
      | false =>
        simp only [found, handling, comment, Bool.false_eq_true, if_false] at result
        obtain ⟨_, _, -, result⟩ := bind_eq_ok.mp result
        obtain ⟨failed, _, -, result⟩ := bind_eq_ok.mp result
        cases failed with
        | none =>
          obtain ⟨_, _, recorded, result⟩ := bind_eq_ok.mp result
          obtain ⟨entry, rfl⟩ := record_eq_ok recorded
          obtain ⟨_, _, -, result⟩ := bind_eq_ok.mp result
          obtain ⟨rfl, -⟩ := pure_eq_ok.mp result
          exact .next plain rfl rfl rfl
        | some failure =>
          obtain ⟨_, _, -, result⟩ := bind_eq_ok.mp result
          obtain ⟨_, _, recorded, result⟩ := bind_eq_ok.mp result
          obtain ⟨entry, rfl⟩ := record_eq_ok recorded
          obtain ⟨_, _, -, result⟩ := bind_eq_ok.mp result
          exact Advances.of_record (recover_advances result)

variable (conduct script)

def loop (t : Turn) : LoopM σ η ν Turn := fun s =>
  match ended : t.isOver script with
  | true => .ok t s
  | false =>
    match result : step conduct script t s with
    | .error fault s => .error fault s
    | .ok u s =>
      have := (step_advances result).remaining_less ended
      loop u s
termination_by Turn.remaining script t
decreasing_by exact this

variable {conduct script}

theorem loop_of_over {t : Turn} (ended : t.isOver script = true) :
    loop conduct script t = pure t := by
  funext s
  rw [loop]
  split
  · rfl
  · next going => simp [going] at ended

theorem loop_of_not_over {t : Turn} (going : t.isOver script = false) :
    loop conduct script t = step conduct script t >>= loop conduct script := by
  funext s
  rw [loop]
  split
  · next ended => simp [going] at ended
  · simp only [bind, EStateM.bind]
    split
    · next result => rw [result]
    · next result => rw [result]

variable (conduct script)

def run (name : String) (startedAt : Moment) : LoopM σ η ν RunRecord := do
  note (.runStarted name script.length)
  let t ← loop conduct script {}
  let exitedEarly := t.phase == .halted
  if exitedEarly then note (.runExitedEarly name t.entries.size)
  else note (.runCompleted name)
  return { name, startedAt, entries := t.entries.toList, exitedEarly }

end Run

namespace Setup

variable {σ η ν : Type}

def conduct (setup : Setup σ η ν) : Conduct σ η ν where
  execute _ := setup.execute
  finish := Session.finishStatement

def run (setup : Setup σ η ν) (script : Script) (row : Bindings) (startedAt : Moment)
    (session : Session σ ν) : EStateM.Result Fault (RunState σ η ν) RunRecord :=
  Run.run setup.conduct script setup.runName startedAt { session, memory := { row } }

end Setup
end Walkthrough
