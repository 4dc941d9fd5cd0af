import Walkthrough.Fault
import Walkthrough.Page.Basic
import Walkthrough.Session.Dialogs
import Walkthrough.Session.Notice

/-!
A session: a page together with its dialogs and a journal of everything that happened, in order.
Everything a session does to its page goes through `ask` and `pause`, which also take in the dialogs
that opened meanwhile.
-/
namespace Walkthrough

inductive Entry (ν : Type) where
  | note (n : ν)
  | answered (message : String) (answer : Answer)
  | notice (n : Notice)

structure Session (σ ν : Type) where
  page : σ
  dialogs : Dialogs := {}
  journal : Array (Entry ν) := #[]

/-- Actions of a session. What they did before they stopped remains done. -/
abbrev SessionM (σ ν : Type) := EStateM Stop (Session σ ν)

namespace Session

variable {σ η ν α : Type}

def record (s : Session σ ν) (n : Notice) : Session σ ν :=
  { s with journal := s.journal.push (.notice n) }

def absorb (s : Session σ ν) : Happening ν → Session σ ν
  | .note n => { s with journal := s.journal.push (.note n) }
  | .dialog message refusal =>
    let s := s.record (.dialogOpened s.dialogs.answer message)
    match refusal with
    | some reason => s.record (.dialogUnanswered reason)
    | none =>
      { s with
        journal := s.journal.push (.answered message s.dialogs.answer)
        dialogs := s.dialogs.opened message }

def absorbAll (s : Session σ ν) (happenings : List (Happening ν)) : Session σ ν :=
  happenings.foldl absorb s

def note (n : Notice) : SessionM σ ν Unit := modify (·.record n)

/-- Carries out a request; the reason is handed on if the page refuses. -/
def ask (page : Page σ η ν) (r : Request η α) : SessionM σ ν (Except String α) := fun s =>
  let reply := page.perform r s.dialogs.answer s.page
  .ok reply.result ({ s with page := reply.state }.absorbAll reply.happenings)

/-- Carries out a request; refusal is a failure of the deed. -/
def demand (page : Page σ η ν) (deed : Deed) (r : Request η α) : SessionM σ ν α := do
  match ← ask page r with
  | .ok a => return a
  | .error reason => throw (.failure (.refused deed reason))

def pause (page : Page σ η ν) (seconds : Float) : SessionM σ ν Unit := fun s =>
  match page.refuses seconds with
  | some refusal => .error (.fault refusal.fault) s
  | none =>
    let (happenings, state) := page.sleep seconds s.dialogs.answer s.page
    .ok () ({ s with page := state }.absorbAll happenings)

theorem pause_of_refused {page : Page σ η ν} {seconds : Float} {refusal : PauseFault}
    (refused : page.refuses seconds = some refusal) (s : Session σ ν) :
    pause page seconds s = .error (.fault refusal.fault) s := by
  unfold pause
  rw [refused]

theorem pause_of_made {page : Page σ η ν} {seconds : Float} (made : page.refuses seconds = none) (s : Session σ ν) :
    pause page seconds s =
      .ok () ({ s with page := (page.sleep seconds s.dialogs.answer s.page).2 }.absorbAll
        (page.sleep seconds s.dialogs.answer s.page).1) := by
  unfold pause
  rw [made]

def keeping {τ : Type} (s : Session σ ν) (kept : τ) : Session (σ × τ) ν := { s with page := (s.page, kept) }

def bare {τ : Type} (s : Session (σ × τ) ν) : Session σ ν := { s with page := s.page.1 }

end Session
end Walkthrough
