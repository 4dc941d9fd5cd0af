import Walkthrough.Run.Record
import Walkthrough.Script.Region

/-!
The turns of a run. Between two statements a run is at a place in the script, in a phase, and knows
which handler it went to last and whether its region has had its second try. `Turn.Advances` lists the
ways in which one turn leads to the next, and each of them brings the end of the run nearer: a turn
passes a handler, or uses up the second try of a region, or goes on within the region.
-/
namespace Walkthrough

structure Turn where
  index : Nat := 0
  phase : Phase := .running
  /-- The handler that was run last in this region. -/
  handler : Option Nat := none
  retryUsed : Bool := false
  entries : Array RecordEntry := #[]

namespace Turn

def isOver (t : Turn) (script : Script) : Bool :=
  script.length ≤ t.index || t.phase == .halted

def record (t : Turn) (entry : RecordEntry) : Turn := { t with entries := t.entries.push entry }

def next (t : Turn) : Turn := { t with index := t.index + 1 }

def enterRegion (t : Turn) (index : Nat) : Turn :=
  { t with index, phase := .running, handler := none, retryUsed := false }

def awaitRetry (t : Turn) (h : Nat) : Turn := { t with phase := .awaitingRetry, handler := some h }

def retry (t : Turn) (start : Nat) : Turn :=
  { t with index := start, phase := .running, retryUsed := true }

def halt (t : Turn) (script : Script) : Turn := { t with index := script.length, phase := .halted }

def exhausted (t : Turn) (h : Nat) : Bool := t.retryUsed && t.handler == some h

/-- How one turn leads to the next; the entries of the record play no part. -/
inductive Advances (script : Script) (t u : Turn) : Prop where
  | next (plain : ¬ HandlerAt script.statements t.index) (index : u.index = t.index + 1)
      (retryUsed : u.retryUsed = t.retryUsed) (handler : u.handler = t.handler)
  | skip (handling : HandlerAt script.statements t.index) (index : u.index = t.index + 1)
  | leave (h : Nat) (named : script.handler? t.index = some h) (index : u.index = h + 1)
  | again (h : Nat) (named : script.handler? t.index = some h) (fresh : t.exhausted h = false)
      (index : u.index = script.regionStart h) (retryUsed : u.retryUsed = true)
      (handler : u.handler = some h)
  | halt (ended : u.phase = .halted)

/-- One as long as the region at hand can still have its second try. -/
def allowance (script : Script) (t : Turn) : Nat :=
  if t.retryUsed && t.handler == script.handler? t.index && t.handler.isSome then 0 else 1

/-- What is left of a run, the most weighty first: handlers ahead, the second try of the region, and
statements ahead. -/
def remaining (script : Script) (t : Turn) : Nat × Nat × Nat :=
  if t.isOver script then (0, 0, 0)
  else (handlersFrom script.statements t.index + 1, allowance script t, script.length - t.index)

abbrev Less : Nat × Nat × Nat → Nat × Nat × Nat → Prop :=
  Prod.Lex (· < ·) (Prod.Lex (· < ·) (· < ·))

theorem remaining_of_over {script : Script} {t : Turn} (ended : t.isOver script = true) :
    remaining script t = (0, 0, 0) := by
  simp [remaining, ended]

theorem remaining_of_not_over {script : Script} {t : Turn} (going : t.isOver script = false) :
    remaining script t =
      (handlersFrom script.statements t.index + 1, allowance script t, script.length - t.index) := by
  simp [remaining, going]

theorem Advances.remaining_less {script : Script} {t u : Turn} (going : t.isOver script = false)
    (step : Advances script t u) : Less (remaining script u) (remaining script t) := by
  cases ended : u.isOver script with
  | true =>
    rw [remaining_of_over ended, remaining_of_not_over going]
    exact Prod.Lex.left _ _ (Nat.succ_pos _)
  | false =>
    rw [remaining_of_not_over ended, remaining_of_not_over going]
    have inside : t.index < script.length := by
      simp only [isOver, Bool.or_eq_false_iff, decide_eq_false_iff_not] at going
      omega
    cases step with
    | next plain index retryUsed handler =>
      have same : allowance script u = allowance script t := by
        simp only [allowance, index, retryUsed, handler, Script.handler?_succ plain]
      rw [index, handlersFrom_succ_of_plain plain, same]
      exact Prod.Lex.right _ (Prod.Lex.right _ (by omega))
    | skip handling index =>
      rw [index]
      exact Prod.Lex.left _ _ (by have := handlersFrom_succ_of_handler handling; omega)
    | leave h named index =>
      rw [index]
      exact Prod.Lex.left _ _ (by have := Script.handlersFrom_lt named; omega)
    | again h named fresh index retryUsed handler =>
      have after : allowance script u = 0 := by
        simp [allowance, index, retryUsed, handler, Script.handler?_regionStart named]
      have before : allowance script t = 1 := by
        simp only [exhausted, Bool.and_eq_false_iff] at fresh
        simp only [allowance, named]
        rcases fresh with unused | other
        · simp [unused]
        · simp [other]
      rw [index, Script.handlersFrom_regionStart named, after, before]
      exact Prod.Lex.right _ (Prod.Lex.left _ _ Nat.one_pos)
    | halt halted => simp [isOver, halted] at ended

end Turn
end Walkthrough
