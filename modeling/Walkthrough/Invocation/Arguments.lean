import Walkthrough.Invocation.Flag
import Walkthrough.Text.Digit

/-!
Reading the command line. A long flag can be cut short as long as only one flag begins so, and its value
can follow an equals sign; the value of a short flag can follow at once. A value never begins with a
dash, unless it is a lone dash, a negative number, or holds a space. After two dashes nothing is a flag,
and two dashes that follow a flag at once are no value.
-/
namespace Walkthrough

/-- Where the scripts come from. A path is missing if only two dashes were given for it. -/
inductive Source where
  | file (path : Option Path)
  | dir (path : Option Path)
  | interactive (savePath : Path)
  deriving DecidableEq, Repr

def Source.flag : Source → Flag
  | file _ => .file
  | dir _ => .dir
  | interactive _ => .interactive

structure Arguments where
  source : Option Source := none
  /-- The browser given, which is missing if only two dashes were given for it. -/
  browser : Option (Option String) := none
  headless : Bool := false
  output : Option Path := none
  datatable : Option Path := none
  demo : Bool := false
  config : Option Path := none
  saveConfig : Bool := false

/-- What stands in the same argument behind a flag: nothing, a value after the equals sign of a long
flag, or, behind a short flag, letters that are its value or further short flags. -/
inductive Attached where
  | nothing
  | value (text : List Char)
  | letters (text : List Char)
  deriving DecidableEq, Repr

def Attached.ofText (spelling : List Char) : Option (List Char) → Attached
  | none => .nothing
  | some text => if spelling.take 2 = ['-', '-'] then .value text else .letters text

/-- An argument by itself: a flag with what is attached to it, something that looks like a flag but is
none, or anything else. -/
inductive Argument where
  | flag (f : Flag) (attached : Attached)
  | unknown (text : String)
  | plain (text : String)
  deriving DecidableEq, Repr

namespace Argument

def splitAtEquals (s : List Char) : List Char × Option (List Char) :=
  (s.takeWhile (· != '='), (s.dropWhile (· != '=')).tail?)

/-- Digits after a dash, with at most one point that digits follow. -/
def isNegativeNumber (s : List Char) : Bool :=
  match s with
  | '-' :: rest =>
    let rest := if rest.getLast? = some '\n' then rest.dropLast else rest
    match rest.dropWhile Text.isDigit with
    | [] => !rest.isEmpty
    | c :: digits => c = '.' && !digits.isEmpty && digits.all Text.isDigit
  | _ => false

/-- The flags that an argument which is no spelling of one may mean, with what is attached. -/
def candidates : List Char → List (String × Flag × Attached)
  | '-' :: '-' :: rest =>
    let (front, value) := splitAtEquals ('-' :: '-' :: rest)
    (Flag.table.filter fun entry => front.isPrefixOf entry.1.toList).map fun (spelling, f) =>
      (spelling, f, .ofText front value)
  | '-' :: c :: letters =>
    let spelling := String.ofList ['-', c]
    match Flag.ofSpelling? spelling with
    | some f => [(spelling, f, .letters letters)]
    | none => []
  | _ => []

def beforeEquals? (s : List Char) : Option Argument :=
  match splitAtEquals s with
  | (front, some value) =>
    (Flag.ofSpelling? (String.ofList front)).map fun f => flag f (.ofText front (some value))
  | _ => none

def ofString (s : String) : Except UsageError Argument :=
  match s.toList with
  | '-' :: c :: rest =>
    match Flag.ofSpelling? s with
    | some f => .ok (flag f .nothing)
    | none =>
      match beforeEquals? ('-' :: c :: rest) with
      | some argument => .ok argument
      | none =>
        match candidates ('-' :: c :: rest) with
        | [(_, f, attached)] => .ok (flag f attached)
        | [] =>
          if isNegativeNumber ('-' :: c :: rest) || s.contains ' ' then .ok (plain s)
          else .ok (unknown s)
        | several => .error (.ambiguous s (several.map (·.1)))
  | _ => .ok (plain s)

/-- The arguments one by one. Two dashes themselves look like a flag but are none. -/
def ofStrings : List String → Except UsageError (List Argument)
  | [] => .ok []
  | s :: later => do
    if s = "--" then return unknown s :: later.map plain
    else return (← ofString s) :: (← ofStrings later)

end Argument

namespace Arguments

def interactiveDefault : Path := Path.ofString "repl_script.txt"

/-- What a directory or a table is called for which only two dashes were given. -/
def missingPath : Path := Path.ofString "[]"

def setSource (a : Arguments) (source : Source) : Except UsageError Arguments :=
  match a.source.filter (·.flag != source.flag) with
  | some other => .error (.excluded source.flag other.flag)
  | none => .ok { a with source := some source }

def set (a : Arguments) (f : Flag) (value : Option String) : Except UsageError Arguments := do
  let path := value.map Path.ofString
  match f with
  | .file => a.setSource (.file path)
  | .dir => a.setSource (.dir path)
  | .interactive => a.setSource (.interactive (path.getD interactiveDefault))
  | .browser =>
    if let some name := value then
      if !supportedBrowsers.contains name then throw (.invalidBrowser name)
    return { a with browser := some value }
  | .headless => return { a with headless := true }
  | .output => return { a with output := some (path.getD missingPath) }
  | .datatable => return { a with datatable := some (path.getD missingPath) }
  | .demo => return { a with demo := true }
  | .config => return { a with config := path }
  | .saveConfig => return { a with saveConfig := true }
  | .help => return a

abbrev Taken := List (Flag × Option String) × List Argument

def takeNext (later : List Argument) (f : Flag) : Except UsageError Taken :=
  match f.arity, later with
  | .none, _ => .ok ([(f, none)], later)
  | _, .plain value :: later => .ok ([(f, some value)], later)
  | .optional, _ => .ok ([(f, none)], later)
  | .one, _ => .error (.missingValue f)

def takeValue (later : List Argument) (f : Flag) (value : List Char) : Except UsageError Taken :=
  if f.arity = .none then .error (.surplusValue f (String.ofList value))
  else .ok ([(f, if value = ['-', '-'] then none else some (String.ofList value))], later)

/-- A short flag with letters behind it: they are its value, or, if it takes none, the first of them is
a further short flag and the rest are the letters behind that. -/
def takeLetters (later : List Argument) (f : Flag) : List Char → Except UsageError Taken
  | [] => takeValue later f []
  | first :: rest =>
    if f.arity != .none then takeValue later f (first :: rest)
    else
      match Flag.ofSpelling? (String.ofList ['-', first]) with
      | none => takeValue later f (first :: rest)
      | some g =>
        let taken := if rest.isEmpty then takeNext later g else takeLetters later g rest
        taken.map fun (flags, after) => ((f, none) :: flags, after)

def take (later : List Argument) (f : Flag) : Attached → Except UsageError Taken
  | .nothing => takeNext later f
  | .value text => takeValue later f text
  | .letters text => takeLetters later f text

theorem length_takeNext {later : List Argument} {f : Flag} {taken : Taken}
    (h : takeNext later f = .ok taken) : taken.2.length ≤ later.length := by
  unfold takeNext at h
  split at h <;> cases h <;> simp

theorem length_takeValue {later : List Argument} {f : Flag} {value : List Char} {taken : Taken}
    (h : takeValue later f value = .ok taken) : taken.2.length ≤ later.length := by
  unfold takeValue at h
  split at h <;> cases h
  exact Nat.le_refl _

theorem length_takeLetters {later : List Argument} {f : Flag} {letters : List Char} {taken : Taken}
    (h : takeLetters later f letters = .ok taken) : taken.2.length ≤ later.length := by
  induction letters generalizing f taken with
  | nil => exact length_takeValue h
  | cons first rest ih =>
    unfold takeLetters at h
    simp only at h
    split at h
    · exact length_takeValue h
    · split at h
      · exact length_takeValue h
      · next g _ =>
        cases inner : if rest.isEmpty then takeNext later g else takeLetters later g rest with
        | error e => rw [inner] at h; cases h
        | ok result =>
          rw [inner] at h
          cases h
          show result.2.length ≤ later.length
          split at inner
          · exact length_takeNext inner
          · exact ih inner

theorem length_take {later : List Argument} {f : Flag} {attached : Attached} {taken : Taken}
    (h : take later f attached = .ok taken) : taken.2.length ≤ later.length := by
  cases attached with
  | nothing => exact length_takeNext h
  | value text => exact length_takeValue h
  | letters text => exact length_takeLetters h

/-- Takes in flags with their values, up to the first that asks for help. -/
def setAll (a : Arguments) : List (Flag × Option String) → Except UsageError (Option Arguments)
  | [] => .ok (some a)
  | (f, value) :: later => do
    if f = .help then return none
    else setAll (← a.set f value) later

/-- Takes in arguments one after another. What is no flag and no value is put aside, and so is refused
in the end. No answer means that the user asked for help. -/
def readAll (a : Arguments) (aside : List String) : List Argument → Except UsageError (Option Arguments)
  | [] => if aside.isEmpty then .ok (some a) else .error (.unrecognized aside.reverse)
  | .unknown text :: later | .plain text :: later => readAll a (text :: aside) later
  | .flag f attached :: later =>
    match h : take later f attached with
    | .error e => .error e
    | .ok (flags, rest) =>
      match setAll a flags with
      | .error e => .error e
      | .ok none => .ok none
      | .ok (some a) =>
        have : rest.length ≤ later.length := length_take h
        readAll a aside rest
termination_by arguments => arguments.length

def read (commandLine : List String) : Except UsageError (Option Arguments) := do
  readAll {} [] (← Argument.ofStrings commandLine)

def overrides (a : Arguments) : Overrides where
  browser := a.browser
  headless := if a.headless then some true else none
  outputDir := a.output.map (·.text)
  datatable := a.datatable.map (·.text)
  demo := if a.demo then some true else none

end Arguments
end Walkthrough
