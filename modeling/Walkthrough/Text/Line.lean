/-!
Physical lines. A line ends at any of the eleven line boundaries; a carriage return and the line feed
after it are one boundary, and a boundary at the very end opens no further line.
-/
namespace Walkthrough.Text

def isLineBreak (c : Char) : Bool :=
  let n := c.toNat
  (10 ≤ n && n ≤ 13) || (28 ≤ n && n ≤ 30) || n == 0x85 || n == 0x2028 || n == 0x2029

/-- The lines of a text whose first line begins with the reversed `line`. -/
def linesAfter (line : List Char) : List Char → List (List Char)
  | [] => if line.isEmpty then [] else [line.reverse]
  | '\r' :: '\n' :: rest => line.reverse :: linesAfter [] rest
  | c :: rest =>
    if isLineBreak c then line.reverse :: linesAfter [] rest else linesAfter (c :: line) rest

def lines (s : List Char) : List (List Char) := linesAfter [] s

example : lines "a\r\nb\n\nc\r".toList = ["a", "b", "", "c"].map String.toList := by decide

end Walkthrough.Text
