import Walkthrough.Page.Pause
import Walkthrough.Script.Statement

/-!
What a page is asked for and what it answers. Pages are known only through their answers: a page is a
type of states, a type of element handles, and one function that carries out a request. Dialogs that
open while it does so are answered at once with the answer that is handed in, and the reply tells of
them, and of whatever else the page notes, in the order in which they happened.
-/
namespace Walkthrough

structure Rect where
  x : Float
  y : Float
  width : Float
  height : Float

def Rect.center (r : Rect) : Float × Float := (r.x + r.width / 2, r.y + r.height / 2)

/-- A request with the type of its answer; `η` is the type of element handles. -/
inductive Request (η : Type) : Type → Type where
  /-- The elements that an XPath expression finds, in document order, in an element or in the page. -/
  | query (within : Option η) (xpath : String) : Request η (List η)
  | isVisible (element : η) : Request η Bool
  | parent (element : η) : Request η (Option η)
  | tagName (element : η) : Request η String
  | attributeValue (element : η) (name : String) : Request η (Option String)
  | isAttached (element : η) : Request η Bool
  | box (element : η) : Request η (Option Rect)
  | innerText (element : η) : Request η String
  | activeElement : Request η (Option η)
  | scrollIntoView (element : η) : Request η Unit
  | focus (element : η) : Request η Unit
  | clear (element : η) : Request η Unit
  | press (element : η) (key : String) : Request η Unit
  /-- Chooses the option with this label; false if there is none. -/
  | selectOption (element : η) (label : String) : Request η Bool
  | setFile (element : η) (path : String) : Request η Unit
  | setBorder (element : η) (border : String) : Request η Unit
  | drag (source target : η) : Request η Unit
  | clickAt (x y : Float) : Request η Unit
  | typeText (text : String) : Request η Unit
  | goto (url : String) : Request η Unit
  | reload : Request η Unit
  | screenshot : Request η ByteArray

/-- What happens while a page is at work: something it notes, or a dialog with its message and, if it
cannot be answered, the reason. -/
inductive Happening (ν : Type) where
  | note (n : ν)
  | dialog (message : String) (refusal : Option String)

structure Reply (σ ν α : Type) where
  result : Except String α
  happenings : List (Happening ν)
  state : σ

structure Page (σ η ν : Type) where
  perform : {α : Type} → Request η α → Answer → σ → Reply σ ν α
  /-- Time passes; the page may change meanwhile. -/
  sleep : Float → Answer → σ → List (Happening ν) × σ
  refuses : Float → Option PauseFault := PauseFault.ofSeconds?
  /-- No element together with its ancestors makes a longer chain. -/
  levels : σ → Nat

end Walkthrough
