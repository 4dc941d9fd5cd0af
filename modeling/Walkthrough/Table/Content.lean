import Walkthrough.Table.Csv

/-!
What the octets of a table hold. They are UTF-8, and a byte order mark in front does not count, even if
the octets end within it. Octets are taken in blocks. Where some are no UTF-8, the lines that were whole
by the end of the block before still come first.
-/
namespace Walkthrough.Datatable

inductive Content where
  | text (s : List Char)
  /-- Lines, after which there are octets that are no UTF-8. -/
  | broken (lines : List Char)
  deriving DecidableEq, Repr

namespace Content

def blockSize : Nat := 8192

def byteOrderMark : List UInt8 := [0xEF, 0xBB, 0xBF]

/-- Ends of characters, one for every kind of beginning. -/
def endings : List (List UInt8) :=
  [[0x80], [0x80, 0x80], [0x80, 0x80, 0x80], [0xA0, 0x80], [0x90, 0x80, 0x80]]

def beginsCharacter (octets : List UInt8) : Bool :=
  !octets.isEmpty && endings.any fun ending =>
    match (octets ++ ending).toByteArray.utf8DecodeChar? 0 with
    | some c => c.utf8Size == octets.length + ending.length
    | none => false

/-- The characters from octet `i` to `limit`, behind those already read, the last first. Octets that are
no character end them; the answer tells where. -/
def charactersFrom (octets : ByteArray) (limit i : Nat) (read : List Char) : List Char × Nat :=
  match octets.utf8DecodeChar? i with
  | none => (read, i)
  | some c =>
    if i + c.utf8Size ≤ limit then charactersFrom octets limit (i + c.utf8Size) (c :: read)
    else (read, i)
termination_by limit - i
decreasing_by
  have := c.utf8Size_pos
  omega

/-- Where the blocks end that are taken before it shows that the octets from `i` on are no character. A
character that the octets break off is noticed after the last of them. -/
def noticed (octets : ByteArray) (i : Nat) : Nat :=
  let begun (n : Nat) : Bool := i + n ≤ octets.size && beginsCharacter (octets.extract i (i + n)).toList
  let fault := i + ([3, 2, 1].find? begun).getD 0
  if fault = octets.size then fault else fault / blockSize * blockSize

/-- The whole lines of characters, of which the last comes first. A carriage return at the end may still
become part of a longer line end. -/
def wholeLines (read : List Char) : List Char :=
  let read := if read.head? = some '\r' then read.tail else read
  (read.dropWhile fun c => !Csv.isLineEnd c).reverse

def afterMark : List Char → List Char
  | '\uFEFF' :: rest => rest
  | s => s

def ofOctets (octets : ByteArray) : Content :=
  match String.fromUTF8? octets with
  | some s => text (afterMark s.toList)
  | none =>
    if octets.toList.isPrefixOf byteOrderMark then text []
    else
      let (_, fault) := charactersFrom octets octets.size 0 []
      let (read, _) := charactersFrom octets (noticed octets fault) 0 []
      broken (afterMark (wholeLines read))

end Content
end Walkthrough.Datatable
