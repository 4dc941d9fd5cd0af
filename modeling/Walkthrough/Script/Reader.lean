import Walkthrough.Script.Grammar
import Walkthrough.Script.Region

/-!
Reading a whole script. All lines are split into tokens before the first statement is read, so an
unclosed quote or a dangling connective anywhere is reported before anything else.
-/
namespace Walkthrough.Script

def readStatements (source : String) : Except SyntaxError (List Statement) := do
  (← LogicalLine.scan source).mapM Grammar.statement

def parse (source : String) : Except SyntaxError Script :=
  (readStatements source).map ofStatements

end Walkthrough.Script
