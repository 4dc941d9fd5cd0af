import Walkthrough.File.Disk

/-!
Home directories, and paths that begin at one: a tilde as the first step stands for the home of the
user, and a tilde with a name for the home of the one so named.
-/
namespace Walkthrough

structure Homes where
  own : Path
  ofUser? : String → Option Path

namespace Path

def tilde : UInt16 := 0x7E

def expanded (homes : Homes) (p : Path) : Except Fault Path :=
  match p.root, p.steps with
  | .relative, ⟨unit :: user⟩ :: later =>
    if unit != tilde then .ok p
    else if user.isEmpty then .ok { homes.own with steps := homes.own.steps ++ later }
    else if user.contains 0 then .error .invalidValue
    else
      match (Text.Units.mk user).string?.bind homes.ofUser? with
      | some home => .ok { home with steps := home.steps ++ later }
      | none => .error .noHome
  | _, _ => .ok p

def ofPlace (place : Place) : Path := ⟨.slash, place.toList.map (·.text)⟩

/-- One step on; two dots lead back, but not beyond the root. -/
def collapse (before : List Text.Units) (step : Text.Units) : List Text.Units :=
  if step = ".." then before.dropLast else before ++ [step]

/-- The absolute path without two dots that this one means in the directory `here`. -/
def absolute (here : Place) (p : Path) : Path :=
  let full := (ofPlace here).join p
  { full with steps := full.steps.foldl collapse [] }

/-- The absolute path of the item itself, from the one root there is. -/
def resolved (here : Place) (p : Path) : Path := { p.absolute here with root := .slash }

end Path

namespace Disk

def uploadPath (d : Disk) (homes : Homes) (raw : String) : Except Fault (String × Bool) := do
  let p ← (Path.ofString raw).expanded homes
  let _ ← p.names
  let full := p.resolved d.here
  return (toString full, ← d.isFile full)

end Disk
end Walkthrough
