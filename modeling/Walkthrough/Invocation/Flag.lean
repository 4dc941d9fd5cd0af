import Walkthrough.File.Path
import Walkthrough.Settings.Basic
import Walkthrough.Text.Quoted

/-!
The flags of the command line, how they are spelled and whether a value follows them, and what can be
wrong with a command line.
-/
namespace Walkthrough

inductive Flag where
  | help
  | file
  | dir
  | interactive
  | browser
  | headless
  | output
  | datatable
  | demo
  | config
  | saveConfig
  deriving DecidableEq, Repr

inductive Arity where
  | none
  | one
  | optional
  deriving DecidableEq, Repr

namespace Flag

def all : List Flag :=
  [help, file, dir, interactive, browser, headless, output, datatable, demo, config, saveConfig]

def spellings : Flag → List String
  | help => ["-h", "--help"]
  | file => ["-f", "--file"]
  | dir => ["-d", "--dir"]
  | interactive => ["--repl"]
  | browser => ["-b", "--browser"]
  | headless => ["--headless"]
  | output => ["-o", "--output"]
  | datatable => ["--datatable"]
  | demo => ["--demo"]
  | config => ["--config"]
  | saveConfig => ["--save-config"]

def arity : Flag → Arity
  | help | headless | demo | saveConfig => .none
  | interactive => .optional
  | _ => .one

def display (f : Flag) : String := "/".intercalate f.spellings

def table : List (String × Flag) := all.flatMap fun f => f.spellings.map (·, f)

def ofSpelling? (s : String) : Option Flag := table.lookup s

end Flag

inductive UsageError where
  /-- The beginning of a flag that several flags begin with. -/
  | ambiguous (argument : String) (candidates : List String)
  | missingValue (f : Flag)
  | surplusValue (f : Flag) (value : String)
  | invalidBrowser (value : String)
  | excluded (f other : Flag)
  | unrecognized (arguments : List String)
  | nothingToDo
  deriving DecidableEq, Repr

def Flag.complaint (f : Flag) (text : String) : String := "argument " ++ f.display ++ ": " ++ text

def UsageError.message : UsageError → String
  | ambiguous argument candidates =>
    "ambiguous option: " ++ argument ++ " could match " ++ ", ".intercalate candidates
  | missingValue f => f.complaint "expected one argument"
  | surplusValue f value => f.complaint ("ignored explicit argument " ++ Text.quoted value)
  | invalidBrowser value =>
    Flag.browser.complaint
      ("invalid choice: " ++ Text.quoted value ++ " (choose from " ++
        ", ".intercalate (supportedBrowsers.map Text.quoted) ++ ")")
  | excluded f other => f.complaint ("not allowed with argument " ++ other.display)
  | unrecognized arguments => "unrecognized arguments: " ++ " ".intercalate arguments
  | nothingToDo => "one of the arguments -f/--file -d/--dir --repl is required"

end Walkthrough
