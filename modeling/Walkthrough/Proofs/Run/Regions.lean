import Walkthrough.Run.Loop

/-!
A script read region by region. A region ends behind its handler; the last one has none. Its
statements are run in order until one fails. Then the handler is run once, and the region a second
time if the handler asks for it. Nothing here looks at the tables of the script, or jumps.
-/
namespace Walkthrough

/-- A script cut behind each of its handlers. -/
inductive Regions where
  | last (body : List Statement)
  | guarded (body : List Statement) (handler : Statement) (later : Regions)

namespace Regions

def cons (s : Statement) : Regions → Regions
  | last body => last (s :: body)
  | guarded body handler later => guarded (s :: body) handler later

def ofStatements : List Statement → Regions
  | [] => last []
  | s :: later =>
    if s.isHandler then guarded [] s (ofStatements later) else cons s (ofStatements later)

def statements : Regions → List Statement
  | last body => body
  | guarded body handler later => body ++ handler :: later.statements

/-- Handlers stand at the ends of regions and nowhere else. -/
def Cut : Regions → Prop
  | last body => ∀ s ∈ body, s.isHandler = false
  | guarded body handler later => (∀ s ∈ body, s.isHandler = false) ∧ handler.isHandler = true ∧ later.Cut

theorem statements_cons (s : Statement) (r : Regions) : (cons s r).statements = s :: r.statements := by
  cases r <;> rfl

theorem cut_cons {s : Statement} {r : Regions} (plain : s.isHandler = false) (cut : r.Cut) :
    (cons s r).Cut := by
  cases r with
  | last body => exact List.forall_mem_cons.mpr ⟨plain, cut⟩
  | guarded body handler later => exact ⟨List.forall_mem_cons.mpr ⟨plain, cut.1⟩, cut.2⟩

theorem statements_ofStatements (statements : List Statement) :
    (ofStatements statements).statements = statements := by
  induction statements with
  | nil => rfl
  | cons s later ih =>
    unfold ofStatements
    split
    · rw [Regions.statements, ih, List.nil_append]
    · rw [statements_cons, ih]

theorem cut_ofStatements (statements : List Statement) : (ofStatements statements).Cut := by
  induction statements with
  | nil => exact List.forall_mem_nil _
  | cons s later ih =>
    unfold ofStatements
    split
    · next handling => exact ⟨List.forall_mem_nil _, handling, ih⟩
    · next plain => exact cut_cons (by simpa using plain) ih

end Regions

namespace Run

variable {σ η ν : Type}

/-- The record with the entry of a statement that was carried out. -/
def write (entries : Array RecordEntry) (statement : Statement) (failure : Option Failure) :
    LoopM σ η ν (Array RecordEntry) := fun s =>
  let (screenshots, memory) := s.memory.takeScreenshots
  .ok (entries.push ⟨statement.display, failure.map (·.message), screenshots⟩) { s with memory }

/-- The record with the entry of a statement that was passed without being carried out. -/
def passed (entries : Array RecordEntry) (statement : Statement) : Array RecordEntry :=
  entries.push ⟨statement.display, none, []⟩

/-- What becomes of a handler: it fails, or asks for its region to be run again, or does not. -/
inductive Handled where
  | failed
  | again
  | done
  deriving DecidableEq

variable (conduct : Conduct σ η ν) (again : Statement → LoopM σ η ν Bool)

/-- Runs the statements of a region until one fails, and says whether all went through. The first of
them stands at `place`, and `rest` follows the region's statements in the script. -/
def readBody (rest : List Statement) :
    (place : Nat) → List Statement → Array RecordEntry → LoopM σ η ν (Array RecordEntry × Bool)
  | _, [], entries => return (entries, true)
  | place, s :: later, entries =>
    if s.isComment then readBody rest (place + 1) later (passed entries s)
    else do
      note (.executing s)
      match ← failureOf (conduct.execute place .running s (Answer.upcoming? (later ++ rest))) with
      | none =>
        let entries ← write entries s none
        finish conduct
        readBody rest (place + 1) later entries
      | some failure =>
        note (.failed s failure)
        let entries ← write entries s (some failure)
        finish conduct
        return (entries, false)

/-- Runs the handler at `place`. -/
def readHandler (place : Nat) (handler : Statement) (entries : Array RecordEntry) :
    LoopM σ η ν (Array RecordEntry × Handled) := do
  let _ ← takeRetryRequest
  note (.jumping handler)
  match ← failureOf (conduct.execute place .awaitingRetry handler none) with
  | some failure =>
    note (.handlerFailed failure)
    let entries ← write entries handler (some failure)
    finish conduct
    return (entries, .failed)
  | none =>
    finish conduct
    let entries ← write entries handler none
    if ← again handler then return (entries, .again) else return (entries, .done)

/-- Runs the regions, of which the first begins at `place`, and says whether the run halted. -/
def read : (place : Nat) → Regions → Array RecordEntry → LoopM σ η ν (Array RecordEntry × Bool)
  | place, .last body, entries => do
    let (entries, through) ← readBody conduct [] place body entries
    return (entries, !through)
  | place, .guarded body handler later, entries => do
    let behind := place + body.length + 1
    let rest := handler :: later.statements
    let (entries, through) ← readBody conduct rest place body entries
    if through then read behind later (passed entries handler)
    else
      let (entries, handled) ← readHandler conduct again (place + body.length) handler entries
      match handled with
      | .failed => return (entries, true)
      | .done => read behind later entries
      | .again =>
        note (.tryingAgain (place + 1))
        let (entries, through) ← readBody conduct rest place body entries
        if through then read behind later (passed entries handler)
        else
          note .regionExhausted
          return (entries, true)

/-- Whether a handler wants another try, by what it asked for while it was run. -/
def asRequested (_ : Statement) : LoopM σ η ν Bool := takeRetryRequest

/-- Whether a handler wants another try, by what is written in it. The request is forgotten. -/
def asWritten (handler : Statement) : LoopM σ η ν Bool := do
  let _ ← takeRetryRequest
  return handler.hasTryAgain

/-- Runs a script region by region. -/
def readRun (script : Script) (name : String) (startedAt : Moment) : LoopM σ η ν RunRecord := do
  note (.runStarted name script.length)
  let (entries, halted) ← read conduct again 0 (Regions.ofStatements script.statements) #[]
  if halted then note (.runExitedEarly name entries.size)
  else note (.runCompleted name)
  return { name, startedAt, entries := entries.toList, exitedEarly := halted }

end Run
end Walkthrough
