import Walkthrough.Script.Command
import Walkthrough.Text.Blank
import Walkthrough.Text.Digit

/-!
Tokens of a physical line. Quoted segments are one token each, and so is every longest stretch of
other characters between blanks and quotes. A stretch that is a known word is a keyword; one that is a
number, and that no quote follows, is a number; any other is a word. A line that begins with `#` is a
comment as a whole.
-/
namespace Walkthrough

inductive Keyword where
  | verb (v : Verb)
  | conditional
  | thereupon
  | and
  | save
  | as
  | under
  | underActiveElement
  | catchError
  deriving DecidableEq, Repr

namespace Keyword

def text : Keyword → String
  | verb v => v.text
  | conditional => "if"
  | thereupon => "then"
  | and => "and"
  | save => "save"
  | as => "as"
  | under => "under"
  | underActiveElement => "under-active-element"
  | catchError => "catch-error:"

def all : List Keyword :=
  [conditional, thereupon, and, save, as, under, underActiveElement, catchError] ++ Verb.all.map verb

def ofText? (s : String) : Option Keyword := all.find? (·.text == s)

@[simp] theorem ofText?_text (k : Keyword) : ofText? k.text = some k := by
  cases k with
  | verb v => cases v <;> decide
  | _ => decide

theorem text_of_ofText? {s : String} {k : Keyword} (h : ofText? s = some k) : k.text = s := by
  simpa using List.find?_some h

/-- A line that ends with one of these goes on in the next. -/
def isConnective : Keyword → Bool
  | and | thereupon => true
  | _ => false

end Keyword

inductive Lexeme where
  | keyword (k : Keyword)
  | quoted (content : String)
  | number (digits : String)
  | word (letters : String)
  | comment (text : String)
  deriving DecidableEq, Repr

def Lexeme.text : Lexeme → String
  | keyword k => k.text
  | quoted content => "\"" ++ content ++ "\""
  | number digits => digits
  | word letters => letters
  | comment text => text

structure Token where
  lexeme : Lexeme
  line : Int
  deriving DecidableEq, Repr

namespace Token

def text (t : Token) : String := t.lexeme.text

def isConnective (t : Token) : Bool :=
  match t.lexeme with
  | .keyword k => k.isConnective
  | _ => false

def isComment (t : Token) : Bool :=
  match t.lexeme with
  | .comment _ => true
  | _ => false

end Token

namespace Lexeme

open Text

def isDigits (s : List Char) : Bool := !s.isEmpty && s.all isDigit

/-- An optional minus, digits, and optionally a point with further digits. -/
def isNumeral (s : List Char) : Bool :=
  let unsigned := match s with
    | '-' :: rest => rest
    | s => s
  let fraction := unsigned.dropWhile isDigit
  isDigits (unsigned.takeWhile isDigit) &&
    match fraction with
    | [] => true
    | c :: digits => c == '.' && isDigits digits

/-- The lexeme of an unquoted stretch; `closed` says that a quote follows it at once. -/
def ofStretch (stretch : List Char) (closed : Bool) : Lexeme :=
  if !closed && isNumeral stretch then number (String.ofList stretch)
  else
    match Keyword.ofText? (String.ofList stretch) with
    | some k => keyword k
    | none => word (String.ofList stretch)

/-- What the next character goes on with: nothing yet, a quoted segment, or a stretch. What has been
read of it is kept reversed. -/
inductive Pending where
  | gap
  | quote (read : List Char)
  | stretch (read : List Char)
  deriving DecidableEq, Repr

/-- The lexemes of a text, or the text from an unclosed quote on. -/
def split : Pending → List Char → Except String (List Lexeme)
  | .gap, [] => .ok []
  | .gap, c :: rest =>
    if isBlank c then split .gap rest
    else if c = '"' then split (.quote []) rest
    else split (.stretch [c]) rest
  | .quote read, [] => .error (String.ofList ('"' :: read.reverse))
  | .quote read, c :: rest =>
    if c = '"' then (split .gap rest).map (quoted (String.ofList read.reverse) :: ·)
    else split (.quote (c :: read)) rest
  | .stretch read, [] => .ok [ofStretch read.reverse false]
  | .stretch read, c :: rest =>
    if isBlank c then (split .gap rest).map (ofStretch read.reverse false :: ·)
    else if c = '"' then (split (.quote []) rest).map (ofStretch read.reverse true :: ·)
    else split (.stretch (c :: read)) rest

/-- The lexemes of a physical line, or the text from an unclosed quote on. -/
def ofLine (line : List Char) : Except String (List Lexeme) :=
  match trim line with
  | '#' :: rest => .ok [comment (String.ofList ('#' :: rest))]
  | stripped => split .gap stripped

end Lexeme
end Walkthrough
