import Walkthrough.Session.Failure

/-!
The dialogs of a page. An open dialog blocks the page, so it is answered as soon as it opens, with the
armed answer or else the standing one. It is then kept for an alert command in the same statement or
the next one, and is dropped after that or when the page navigates.
-/
namespace Walkthrough

/-- A dialog that has been answered, in the statement with this number. -/
structure AnsweredDialog where
  message : String
  answer : Answer
  statement : Nat
  deriving DecidableEq, Repr

structure Dialogs where
  standing : Answer := .accept
  armed : Option Answer := none
  /-- Dialogs that no alert command has taken yet, the oldest first. -/
  pending : List AnsweredDialog := []
  statement : Nat := 0
  deriving DecidableEq, Repr

namespace Dialogs

def answer (d : Dialogs) : Answer := d.armed.getD d.standing

def opened (d : Dialogs) (message : String) : Dialogs :=
  { d with pending := d.pending ++ [⟨message, d.answer, d.statement⟩] }

def prepare (d : Dialogs) (armed : Option Answer) : Dialogs := { d with armed }

def dropAll (d : Dialogs) : Dialogs := { d with pending := [] }

/-- The statement ends; its dialogs can still be taken in the next one. -/
def finishStatement (d : Dialogs) : Dialogs :=
  { d with
    statement := d.statement + 1
    pending := d.pending.filter fun dialog => d.statement ≤ dialog.statement }

/-- An alert command takes the oldest dialog, which must have got the wanted answer. -/
def take (d : Dialogs) (wanted : Answer) : Except Failure Unit × Dialogs :=
  match d.pending with
  | [] => (.error (.noDialog wanted), d)
  | oldest :: later =>
    let rest := { d with pending := later }
    if oldest.answer = wanted then (.ok (), rest)
    else (.error (.answeredOtherwise wanted oldest.message), rest)

end Dialogs
end Walkthrough
