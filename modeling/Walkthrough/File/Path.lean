import Walkthrough.Text.Units

/-!
Paths. A path is a text that names a place step by step, absolute or relative; empty steps and single
dots are left out when it is read. Exactly two slashes at the beginning are a root of their own. The
name of a path is its last step, and a name has an ending behind its last dot, unless that dot is its
first or last character.
-/
namespace Walkthrough

open Text (Units)

inductive Root where
  | relative
  | slash
  | twoSlashes
  deriving DecidableEq, Repr

def Root.slashes : Root → Nat
  | relative => 0
  | slash => 1
  | twoSlashes => 2

structure Path where
  root : Root := .relative
  steps : List Units := []
  deriving DecidableEq, Repr

namespace Path

def slash : UInt16 := 0x2F

def dot : UInt16 := 0x2E

def isStep (s : List UInt16) : Bool := !s.isEmpty && s != [dot]

def pieces : List UInt16 → List (List UInt16)
  | [] => [[]]
  | unit :: rest =>
    if unit = slash then [] :: pieces rest
    else
      match pieces rest with
      | [] => [[unit]]
      | piece :: later => (unit :: piece) :: later

def rootOf (s : List UInt16) : Root :=
  match (s.takeWhile (· == slash)).length with
  | 0 => .relative
  | 2 => .twoSlashes
  | _ => .slash

def ofUnits (text : Units) : Path :=
  { root := rootOf text.toList, steps := ((pieces text.toList).filter isStep).map fun piece => ⟨piece⟩ }

def ofString (s : String) : Path := ofUnits (.ofString s)

def text (p : Path) : Units :=
  if p.root = .relative && p.steps.isEmpty then ⟨[dot]⟩
  else ⟨List.replicate p.root.slashes slash ++ [slash].intercalate (p.steps.map (·.toList))⟩

instance : ToString Path := ⟨fun p => p.text.display⟩

def isAbsolute (p : Path) : Bool := p.root != .relative

/-- The path `q`, taken from `p` if it is relative. -/
def join (p q : Path) : Path := if q.isAbsolute then q else { p with steps := p.steps ++ q.steps }

def child (p : Path) (s : String) : Path := p.join (ofString s)

def parent (p : Path) : Path := { p with steps := p.steps.dropLast }

def name (p : Path) : Units := p.steps.getLast?.getD ⟨[]⟩

/-- A name without its ending, and the ending with its dot. -/
def splitName (name : List UInt16) : List UInt16 × List UInt16 :=
  let ending := (name.reverse.takeWhile (· != dot)).reverse
  let front := name.take (name.length - ending.length - 1)
  if front.isEmpty || ending.isEmpty then (name, []) else (front, dot :: ending)

def stem (p : Path) : Units := ⟨(splitName p.name.toList).1⟩

def ending (p : Path) : Units := ⟨(splitName p.name.toList).2⟩

/-- The path with another ending; a path without a name has none. -/
def withEnding? (p : Path) (ending : String) : Option Path :=
  if p.name.isEmpty then none
  else some { p with steps := p.steps.dropLast ++ [p.stem ++ ending] }

end Path
end Walkthrough
