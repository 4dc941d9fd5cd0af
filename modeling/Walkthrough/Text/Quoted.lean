import Walkthrough.Text.Printable
import Walkthrough.Text.Units

/-!
A text shown between quotation marks, so that every character can be told from the others in print.
Single quotes are used unless the text holds single quotes and no double ones. A backslash and the
quote in use are escaped, tab and line ends have their letters, and anything that cannot be printed
is written by its number in two, four or eight hexadecimal digits.
-/
namespace Walkthrough.Text

def hex (width n : Nat) : String :=
  let digits := String.ofList (Nat.toDigits 16 n)
  String.ofList (List.replicate (width - digits.length) '0') ++ digits

def escaped (quote c : Char) : String :=
  if c = quote || c = '\\' then String.ofList ['\\', c]
  else if c = '\t' then "\\t"
  else if c = '\n' then "\\n"
  else if c = '\r' then "\\r"
  else if isPrintable c then String.singleton c
  else if c.toNat < 0x100 then "\\x" ++ hex 2 c.toNat
  else if c.toNat < 0x10000 then "\\u" ++ hex 4 c.toNat
  else "\\U" ++ hex 8 c.toNat

def Symbol.escaped (quote : Char) : Symbol → String
  | char c => Text.escaped quote c
  | surrogate unit => "\\u" ++ hex 4 unit.toNat

def quotedSymbols (symbols : List Symbol) : String :=
  let quote :=
    if symbols.contains (.char '\'') && !symbols.contains (.char '"') then '"' else '\''
  symbols.foldl (fun shown s => shown ++ s.escaped quote) (String.singleton quote) ++
    String.singleton quote

def quoted (s : String) : String := quotedSymbols (s.toList.map .char)

end Walkthrough.Text
