import Walkthrough.Text.Units

/-!
Names of files. A name is a row of octets, and a text spells it in UTF-8. An octet that belongs to no
character is spelled by a surrogate that stands alone, from U+DC80 to U+DCFF; with any other surrogate
that stands alone, a text spells no name. Main statement: a `String` spells the octets of its
characters.
-/
namespace Walkthrough

open Text (Symbol Units)

structure FileName where
  octets : List UInt8
  deriving DecidableEq, Repr

namespace FileName

def octetsOf? : Symbol → Option (List UInt8)
  | .char c => some (String.utf8EncodeChar c)
  | .surrogate unit =>
    if 0xDC80 ≤ unit.toNat && unit.toNat ≤ 0xDCFF then some [unit.toUInt8] else none

def ofUnits? (text : Units) : Option FileName :=
  (text.symbols.mapM octetsOf?).map fun octets => ⟨octets.flatten⟩

def ofString (s : String) : FileName := ⟨s.toList.flatMap String.utf8EncodeChar⟩

def symbolsFrom (octets : ByteArray) (i : Nat) : List Symbol :=
  if h : i < octets.size then
    match octets.utf8DecodeChar? i with
    | some c => .char c :: symbolsFrom octets (i + c.utf8Size)
    | none => .surrogate (0xDC00 + octets[i].toUInt16) :: symbolsFrom octets (i + 1)
  else []
termination_by octets.size - i
decreasing_by
  · have := c.utf8Size_pos
    omega
  · omega

def text (name : FileName) : Units := .ofSymbols (symbolsFrom name.octets.toByteArray 0)

theorem ofUnits?_ofString (s : String) : ofUnits? (.ofString s) = some (ofString s) := by
  have each (l : List Char) :
      (l.map Symbol.char).mapM octetsOf? = some (l.map String.utf8EncodeChar) := by
    induction l with
    | nil => rfl
    | cons c rest ih => rw [List.map_cons, List.mapM_cons, ih]; rfl
  unfold ofUnits?
  rw [Text.Units.symbols_ofString, each, Option.map_some, ofString, List.flatMap]

end FileName
end Walkthrough
