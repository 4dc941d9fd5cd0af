import Walkthrough.Text.Blank
import Walkthrough.Text.Caseless

/-!
Keys that can be pressed by name. Case and blanks around a name do not matter.
-/
namespace Walkthrough.Key

def supported : List String :=
  ["Enter", "Tab", "Escape", "Backspace", "Delete", "Space", "ArrowUp", "ArrowDown", "ArrowLeft",
    "ArrowRight", "Home", "End", "PageUp", "PageDown"]

def named? (raw : String) : Option String :=
  let wanted := Text.lower (Text.trimmed raw)
  supported.find? (Text.lower · == wanted)

end Walkthrough.Key
