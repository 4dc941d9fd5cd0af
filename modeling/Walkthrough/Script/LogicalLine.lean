import Walkthrough.Script.SyntaxError
import Walkthrough.Text.Line

/-!
Logical lines. Blank lines are passed over, and a line that ends with a connective is joined with the
next one that is not blank. A connective can neither end the script nor be followed by a comment.
-/
namespace Walkthrough

def Token.ofLine (line : Int) (source : List Char) : Except SyntaxError (List Token) :=
  match Lexeme.ofLine source with
  | .ok lexemes => .ok (lexemes.map (⟨·, line⟩))
  | .error unclosed => .error ⟨line, .closingQuote, .text unclosed⟩

structure LogicalLine where
  first : Token
  rest : List Token
  deriving DecidableEq, Repr

namespace LogicalLine

def tokens (l : LogicalLine) : List Token := l.first :: l.rest

/-- A line as far as it has been read, the tokens after the first reversed. -/
structure Begun where
  first : Token
  read : List Token
  deriving DecidableEq, Repr

namespace Begun

def last (b : Begun) : Token := b.read.head?.getD b.first

def isOpen (b : Begun) : Bool := b.last.isConnective

def append (b : Begun) (more : List Token) : Begun := ⟨b.first, more.reverse ++ b.read⟩

def line (b : Begun) : LogicalLine := ⟨b.first, b.read.reverse⟩

theorem tokens_append (b : Begun) (more : List Token) :
    (b.append more).line.tokens = b.line.tokens ++ more := by
  simp [append, line, tokens]

end Begun

/-- The line begun before, or a new one, with the tokens of one more physical line. -/
def extend (begun : Option Begun) (first : Token) (rest : List Token) : Begun :=
  match begun with
  | none => Begun.append ⟨first, []⟩ rest
  | some b => b.append (first :: rest)

def ofLines (begun : Option Begun) (line : Int) :
    List (List Char) → Except SyntaxError (List LogicalLine)
  | [] =>
    match begun with
    | none => .ok []
    | some b => .error ⟨b.last.line, .commandAfter b.last.text, .endOfScript⟩
  | source :: later => do
    match ← Token.ofLine line source with
    | [] => ofLines begun (line + 1) later
    | first :: rest =>
      if begun.isSome && first.isComment then
        .error ⟨line, .commandAfterConnective, .text first.text⟩
      else
        let joined := extend begun first rest
        if joined.isOpen then ofLines (some joined) (line + 1) later
        else return joined.line :: (← ofLines none (line + 1) later)

def scan (source : String) : Except SyntaxError (List LogicalLine) :=
  ofLines none 1 (Text.lines source.toList)

end LogicalLine
end Walkthrough
