import Walkthrough.Script.Command

/-!
Statements of a script. A statement is what one logical line says, together with the physical line on
which it begins. A handler, written `catch-error:`, is run only when a statement before it fails.
-/
namespace Walkthrough

inductive Form where
  | comment (text : String)
  | save (value name : String)
  | run (body : List Command)
  | conditional (predicate : Command) (body : List Command)
  | handler (body : List Command)
  /-- Without an anchor the focused element is the anchor. -/
  | under (anchor : Option Param) (body : List Command)
  deriving DecidableEq, Repr

structure Statement where
  form : Form
  line : Int := 0
  deriving DecidableEq, Repr

namespace Form

def display : Form → String
  | comment text => text
  | save value name => "save \"" ++ value ++ "\" as " ++ name
  | run body => Command.displayAll body
  | conditional predicate body =>
    "if " ++ predicate.display ++ " then " ++ Command.displayAll body
  | handler body => "catch-error: " ++ Command.displayAll body
  | under none body => "under-active-element " ++ Command.displayAll body
  | under (some anchor) body => "under " ++ anchor.display ++ " " ++ Command.displayAll body

/-- All commands of a statement, in the order in which they would be carried out. -/
def commands : Form → List Command
  | comment _ | save _ _ => []
  | run body | handler body | under _ body => body
  | conditional predicate body => predicate :: body

end Form

namespace Statement

def display (s : Statement) : String := s.form.display

def isHandler (s : Statement) : Bool :=
  match s.form with
  | .handler _ => true
  | _ => false

def isComment (s : Statement) : Bool :=
  match s.form with
  | .comment _ => true
  | _ => false

def hasTryAgain (s : Statement) : Bool :=
  match s.form with
  | .handler body => body.any (·.verb == .tryAgain)
  | _ => false

end Statement

inductive Answer where
  | accept
  | dismiss
  deriving DecidableEq, Repr

namespace Answer

def other : Answer → Answer
  | accept => dismiss
  | dismiss => accept

def ofCommand? (c : Command) : Option Answer :=
  match c.verb with
  | .acceptAlert => some accept
  | .dismissAlert => some dismiss
  | _ => none

def first? (commands : List Command) : Option Answer := commands.findSome? ofCommand?

/-- The answer that the statements to come ask for: that of the first one which is no comment, if it
is a plain one that begins with an alert command. -/
def upcoming? : List Statement → Option Answer
  | [] => none
  | s :: later =>
    match s.form with
    | .comment _ => upcoming? later
    | .run body => first? (body.take 1)
    | _ => none

end Answer
end Walkthrough
