import Walkthrough.Script.Name

/-!
Variables and the placeholders that they fill. A placeholder is a name between angle brackets. A text
splits in one way into placeholders and literal pieces without any; filling it in puts each value in
the place of its placeholder and looks at the values no further.
-/
namespace Walkthrough

/-- Names with their values, each name once. -/
abbrev Bindings := List (String × String)

namespace Bindings

def set (b : Bindings) (name value : String) : Bindings :=
  (name, value) :: b.filter (·.1 != name)

theorem lookup_set_self (b : Bindings) (name value : String) :
    (b.set name value).lookup name = some value := by
  simp [set]

theorem lookup_filter_ne {b : Bindings} {name other : String} (h : other ≠ name) :
    List.lookup other (b.filter (·.1 != name)) = b.lookup other := by
  induction b with
  | nil => rfl
  | cons entry rest ih =>
    obtain ⟨key, value⟩ := entry
    by_cases same : key = name
    · subst same
      have : (other == key) = false := by simpa using h
      simp [List.lookup_cons, this, ih]
    · by_cases wanted : other = key
      · subst wanted
        simp [same]
      · have : (other == key) = false := by simpa using wanted
        simp [List.lookup_cons, this, same, ih]

theorem lookup_set_of_ne {b : Bindings} {name other : String} (value : String) (h : other ≠ name) :
    (b.set name value).lookup other = b.lookup other := by
  have : (other == name) = false := by simpa using h
  simp [set, List.lookup_cons, this, lookup_filter_ne h]

end Bindings

inductive Piece where
  | literal (text : List Char)
  | placeholder (name : List Char)
  deriving DecidableEq, Repr

namespace Piece

def source : Piece → List Char
  | literal text => text
  | placeholder name => '<' :: name ++ ['>']

def fits (name : List Char) (c : Char) : Bool :=
  if name.isEmpty then Name.isStart c else Name.isRest c

/-- A literal piece, which is reversed, in front of the later ones; an empty one is left out. -/
def putLiteral (read : List Char) (later : List Piece) : List Piece :=
  if read.isEmpty then later else literal read.reverse :: later

/-- The pieces of a text. What has been read since the last placeholder is kept reversed: a literal,
and after an opening bracket what may become a name. -/
def splitAfter (read : List Char) : (name : Option (List Char)) → List Char → List Piece
  | none, [] => putLiteral read []
  | some name, [] => putLiteral (name ++ '<' :: read) []
  | none, c :: rest =>
    if c = '<' then splitAfter read (some []) rest else splitAfter (c :: read) none rest
  | some name, c :: rest =>
    if c = '>' && !name.isEmpty then
      putLiteral read (placeholder name.reverse :: splitAfter [] none rest)
    else if c = '<' then splitAfter (name ++ '<' :: read) (some []) rest
    else if fits name c then splitAfter read (some (c :: name)) rest
    else splitAfter (c :: name ++ '<' :: read) none rest

def split (text : List Char) : List Piece := splitAfter [] none text

def fill (value? : String → Option String) : Piece → List Char
  | literal text => text
  | placeholder name =>
    match value? (String.ofList name) with
    | some value => value.toList
    | none => source (placeholder name)

end Piece

def interpolate (value? : String → Option String) (text : String) : String :=
  String.ofList ((Piece.split text.toList).flatMap (Piece.fill value?))

end Walkthrough
