import Walkthrough.Script.Statement

/-!
A script with its two tables: for each statement the nearest handler from it on, and the place where
the region that it belongs to begins, one past the handler before it.
-/
namespace Walkthrough

/-- The nearest handler from each statement on; the first of them has the number `index`. -/
def handlerTable (index : Nat) : List Statement → List (Option Nat)
  | [] => []
  | s :: later =>
    let table := handlerTable (index + 1) later
    (if s.isHandler then some index else table.head?.join) :: table

/-- The beginning of each statement's region; the first statement has the number `index`, and its
region begins at `start`. -/
def regionTable (start index : Nat) : List Statement → List Nat
  | [] => []
  | s :: later => start :: regionTable (if s.isHandler then index + 1 else start) (index + 1) later

structure Script where
  statements : List Statement
  handlers : List (Option Nat)
  regions : List Nat
  handlers_eq : handlers = handlerTable 0 statements := by rfl
  regions_eq : regions = regionTable 0 0 statements := by rfl

namespace Script

def ofStatements (statements : List Statement) : Script :=
  { statements, handlers := handlerTable 0 statements, regions := regionTable 0 0 statements }

def length (s : Script) : Nat := s.statements.length

def handler? (s : Script) (i : Nat) : Option Nat := s.handlers[i]?.join

def regionStart (s : Script) (i : Nat) : Nat := s.regions[i]?.getD 0

end Script

@[simp] theorem length_handlerTable (index : Nat) (statements : List Statement) :
    (handlerTable index statements).length = statements.length := by
  induction statements generalizing index with
  | nil => rfl
  | cons s later ih => simp [handlerTable, ih]

@[simp] theorem length_regionTable (start index : Nat) (statements : List Statement) :
    (regionTable start index statements).length = statements.length := by
  induction statements generalizing start index with
  | nil => rfl
  | cons s later ih => simp [regionTable, ih]

end Walkthrough
