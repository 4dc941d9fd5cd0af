import Walkthrough.Locate.Resolve
import Walkthrough.Session.Action

/-!
Sessions that go alike. Two actions go alike if, from states that are tied to each other, they give the
same answers or stop for the same reason, and end in states that are tied again. To find out that a
search of one page goes like that of another, it is enough to know that a tie between their sessions
lasts through single requests and pauses (`Tied`). Only the request for a screenshot is left out, as
searches do not make it.
-/
namespace Walkthrough

/-- The state that an action ends in. -/
def final {ε S α : Type} : EStateM.Result ε S α → S
  | .ok _ s | .error _ s => s

/-- Did the action come to its end? -/
def succeeded {ε S α : Type} : EStateM.Result ε S α → Bool
  | .ok _ _ => true
  | .error _ _ => false

namespace Action

variable {ε S T α β : Type} {tie : S → T → Prop}

theorem final_mapState (p : S → T) (r : EStateM.Result ε S α) : final (mapState p r) = p (final r) := by
  cases r <;> rfl

/-- The same answer, or the same reason to stop, in states that are tied. -/
inductive Ends (tie : S → T → Prop) : EStateM.Result ε S α → EStateM.Result ε T α → Prop where
  | ok (a : α) {s : S} {t : T} (tied : tie s t) : Ends tie (.ok a s) (.ok a t)
  | error (e : ε) {s : S} {t : T} (tied : tie s t) : Ends tie (.error e s) (.error e t)

def Alike (tie : S → T → Prop) (x : EStateM ε S α) (y : EStateM ε T α) : Prop :=
  ∀ s t, tie s t → Ends tie (x s) (y t)

theorem alike_pure (a : α) : Alike tie (pure a : EStateM ε S α) (pure a) :=
  fun _ _ tied => .ok a tied

theorem alike_throw (e : ε) : Alike tie (throw e : EStateM ε S α) (throw e) := fun _ _ tied => .error e tied

theorem alike_bind {x : EStateM ε S α} {y : EStateM ε T α} {f : α → EStateM ε S β} {g : α → EStateM ε T β}
    (first : Alike tie x y) (next : ∀ a, Alike tie (f a) (g a)) :
    Alike tie (x >>= f) (y >>= g) := by
  intro s t tied
  have ends := first s t tied
  simp only [bind, EStateM.bind]
  generalize x s = r, y t = r' at ends
  cases ends with
  | ok a tied => exact next a _ _ tied
  | error e tied => exact .error e tied

theorem alike_get_bind {f : S → EStateM ε S α} {g : T → EStateM ε T α}
    (next : ∀ s t, tie s t → Alike tie (f s) (g t)) : Alike tie (get >>= f) (get >>= g) :=
  fun s t tied => next s t tied s t tied

theorem alike_modify {change : S → S} {change' : T → T} (lasts : ∀ {s t}, tie s t → tie (change s) (change' t)) :
    Alike tie (modify change : EStateM ε S Unit) (modify change') := fun _ _ tied => .ok () (lasts tied)

theorem alike_ite {p : Prop} [Decidable p] {x x' : EStateM ε S α} {y y' : EStateM ε T α}
    (met : Alike tie x y) (missed : Alike tie x' y') :
    Alike tie (if p then x else x') (if p then y else y') := by
  split
  · exact met
  · exact missed

/-- The first of several attempts: what it yields is taken, or else the next one is made. -/
theorem alike_first {x : EStateM ε S (Option α)} {y : EStateM ε T (Option α)}
    {f : Option α → EStateM ε S β} {g : Option α → EStateM ε T β} (first : Alike tie x y)
    (taken : ∀ a, Alike tie (f (some a)) (g (some a))) (otherwise : Alike tie (f none) (g none)) :
    Alike tie (x >>= f) (y >>= g) := by
  refine alike_bind first fun found => ?_
  cases found with
  | some a => exact taken a
  | none => exact otherwise

end Action

open Walkthrough.Action

variable {σ τ η ν α β : Type}

def Request.IsScreenshot : Request η α → Prop
  | .screenshot => True
  | _ => False

namespace Session

abbrev Together (tie : Session σ ν → Session τ ν → Prop) (x : SessionM σ ν α) (y : SessionM τ ν α) : Prop :=
  Alike tie x y

/-- The tie lasts through everything that a search does with the pages. -/
structure Tied (page : Page σ η ν) (page' : Page τ η ν) (tie : Session σ ν → Session τ ν → Prop) : Prop where
  levels : ∀ {s t}, tie s t → page.levels s.page = page'.levels t.page
  note : ∀ {s t} (n : Notice), tie s t → tie (s.record n) (t.record n)
  ask : ∀ {α : Type} (r : Request η α), ¬ r.IsScreenshot → Together tie (ask page r) (ask page' r)
  pause : ∀ seconds, Together tie (pause page seconds) (pause page' seconds)

namespace Tied

variable {page : Page σ η ν} {page' : Page τ η ν} {tie : Session σ ν → Session τ ν → Prop}

theorem noting (tied : Tied page page' tie) (n : Notice) : Together tie (Session.note n) (Session.note n) :=
  alike_modify (tied.note n)

theorem demand (tied : Tied page page' tie) (deed : Deed) (r : Request η α) (plain : ¬ r.IsScreenshot) :
    Together tie (Session.demand page deed r) (Session.demand page' deed r) := by
  refine alike_bind (tied.ask r plain) fun result => ?_
  cases result with
  | ok a => exact alike_pure a
  | error reason => exact alike_throw _

theorem query (tied : Tied page page' tie) (strategy : Strategy) (value : String) (within : Option η) :
    Together tie (Session.query page strategy value within) (Session.query page' strategy value within) := by
  unfold Session.query
  cases XPath.of? strategy value within.isSome with
  | none => exact alike_pure []
  | some xpath =>
    by_cases blank : xpath = ""
    · subst blank
      exact alike_pure []
    · simp only
      refine alike_bind (tied.ask _ id) fun result => ?_
      cases result with
      | ok elements => exact alike_pure elements
      | error reason => exact alike_bind (tied.noting _) fun _ => alike_pure []

theorem suits (tied : Tied page page' tie) (strategy : Strategy) (element : η) :
    Together tie (Session.suits page strategy element) (Session.suits page' strategy element) := by
  unfold Session.suits
  cases strategy.visibleOnly with
  | false => exact alike_pure true
  | true =>
    refine alike_bind (tied.ask _ id) fun result => ?_
    cases result with
    | ok visible => exact alike_pure visible
    | error reason => exact alike_pure false

theorem firstSuiting (tied : Tied page page' tie) (strategy : Strategy) (elements : List η) :
    Together tie (Session.firstSuiting page strategy elements) (Session.firstSuiting page' strategy elements) := by
  induction elements with
  | nil => exact alike_pure none
  | cons element later ih =>
    refine alike_bind (tied.suits strategy element) fun suiting => ?_
    cases suiting with
    | true => exact alike_pure (some element)
    | false => exact ih

theorem allSuiting (tied : Tied page page' tie) (strategy : Strategy) (elements : List η) :
    Together tie (Session.allSuiting page strategy elements) (Session.allSuiting page' strategy elements) := by
  induction elements with
  | nil => exact alike_pure []
  | cons element later ih =>
    refine alike_bind (tied.suits strategy element) fun suiting => ?_
    exact alike_bind ih fun rest => alike_pure _

theorem find (tied : Tied page page' tie) (strategy : Strategy) (value : String) (within : Option η) :
    Together tie (Session.find page strategy value within) (Session.find page' strategy value within) :=
  alike_bind (tied.query strategy value within) fun _ => tied.firstSuiting strategy _

theorem findAll (tied : Tied page page' tie) (strategy : Strategy) (value : String) (within : Option η) :
    Together tie (Session.findAll page strategy value within) (Session.findAll page' strategy value within) :=
  alike_bind (tied.query strategy value within) fun _ => tied.allSuiting strategy _

theorem namedControl (tied : Tied page page' tie) (name : String) :
    Together tie (Session.namedControl page name) (Session.namedControl page' name) :=
  alike_ite (alike_pure none)
    (alike_first (tied.find .id name none) (fun _ => alike_pure _) (tied.find .name name none))

theorem controlAround (tied : Tied page page' tie) (element : η) (depth : Nat) :
    Together tie (Session.controlAround page element depth) (Session.controlAround page' element depth) := by
  induction depth generalizing element with
  | zero => exact alike_pure none
  | succ depth ih =>
    refine alike_first (tied.demand _ _ id) (fun container => ?_) (alike_pure none)
    exact alike_first (tied.find .controlInside "" (some container)) (fun _ => alike_pure _) (ih container)

theorem associatedControl (tied : Tied page page' tie) (element : η) :
    Together tie (Session.associatedControl page element) (Session.associatedControl page' element) := by
  have following : Together tie (Session.find page .controlAfter "" (some element))
      (Session.find page' .controlAfter "" (some element)) := tied.find .controlAfter "" (some element)
  refine alike_bind (tied.demand _ _ id) fun tag => alike_ite (alike_pure none) ?_
  refine alike_first (tied.find .controlInside "" (some element)) (fun _ => alike_pure _) ?_
  cases tag == "label" with
  | true =>
    refine alike_bind (tied.demand _ _ id) fun target => ?_
    refine alike_first (tied.namedControl _) (fun _ => alike_pure _) ?_
    exact alike_first following (fun _ => alike_pure _) (tied.controlAround element containerDepth)
  | false => exact alike_first following (fun _ => alike_pure _) (alike_pure none)

theorem interactionTarget (tied : Tied page page' tie) (element : η) (choosing : Bool) :
    Together tie (Session.interactionTarget page element choosing)
      (Session.interactionTarget page' element choosing) := by
  refine alike_bind (tied.demand _ _ id) fun tag => alike_ite ?_ ?_
  · exact alike_first (tied.find .owningSelect "" (some element)) (fun owner => alike_pure owner)
      (alike_throw _)
  · refine alike_first (tied.associatedControl element) (fun control => ?_) (alike_pure element)
    exact alike_bind (tied.noting _) fun _ => alike_pure control

theorem isAttached (tied : Tied page page' tie) (element : η) :
    Together tie (Session.isAttached page element) (Session.isAttached page' element) := by
  refine alike_bind (tied.ask _ id) fun result => ?_
  cases result <;> exact alike_pure _

theorem scrollIntoView (tied : Tied page page' tie) (element : η) :
    Together tie (Session.scrollIntoView page element) (Session.scrollIntoView page' element) := by
  refine alike_bind (tied.ask _ id) fun result => ?_
  cases result with
  | ok => exact alike_pure ()
  | error reason => exact tied.noting _

theorem sendKeys (tied : Tied page page' tie) (element : η) (text : String) :
    Together tie (Session.sendKeys page element text) (Session.sendKeys page' element text) :=
  alike_bind (tied.demand _ _ id) fun _ => tied.demand _ _ id

theorem selectOption (tied : Tied page page' tie) (element : η) (label : String) :
    Together tie (Session.selectOption page element label) (Session.selectOption page' element label) := by
  refine alike_bind (tied.demand _ _ id) fun chosen => ?_
  cases chosen with
  | true => exact alike_pure ()
  | false => exact alike_throw _

end Tied
end Session

namespace Locator

open Session

variable {page : Page σ η ν} {page' : Page τ η ν} {tie : Session σ ν → Session τ ν → Prop}
  {delays : List Float}

theorem firstControl_alike (tied : Tied page page' tie) (labels : List η) :
    Together tie (firstControl ⟨page, delays⟩ labels) (firstControl ⟨page', delays⟩ labels) := by
  induction labels with
  | nil => exact alike_pure none
  | cons label later ih => exact alike_first (tied.associatedControl label) (fun _ => alike_pure _) ih

theorem hit_alike (tied : Tied page page' tie) (strategy : Strategy) (query : String) (within : Option η) :
    Together tie (hit ⟨page, delays⟩ strategy query within) (hit ⟨page', delays⟩ strategy query within) := by
  refine alike_ite (alike_pure none) (alike_ite ?_ (tied.find strategy query within))
  exact alike_bind (tied.findAll strategy query within) fun _ => firstControl_alike tied _

theorem firstHit_alike (tied : Tied page page' tie) (query : String) (within : Option η)
    (strategies : List Strategy) :
    Together tie (firstHit ⟨page, delays⟩ query within strategies)
      (firstHit ⟨page', delays⟩ query within strategies) := by
  induction strategies with
  | nil => exact alike_pure none
  | cons strategy later ih =>
    refine alike_first (hit_alike tied strategy query within) (fun element => ?_) ih
    exact alike_bind (tied.noting _) fun _ => alike_pure (some element)

theorem search_alike (tied : Tied page page' tie) (query : String) (within : Option η) :
    Together tie (search ⟨page, delays⟩ query within) (search ⟨page', delays⟩ query within) :=
  firstHit_alike tied query within Strategy.precedence

theorem searchUp_alike (tied : Tied page page' tie) (query : String) (scope : Option η) (levels : Nat) :
    Together tie (searchUp ⟨page, delays⟩ query scope levels) (searchUp ⟨page', delays⟩ query scope levels) := by
  induction levels generalizing scope with
  | zero => cases scope <;> exact alike_pure none
  | succ levels ih =>
    cases scope with
    | none => exact alike_pure none
    | some anchor =>
      refine alike_first (search_alike tied query (some anchor)) (fun _ => alike_pure _) ?_
      exact alike_bind (tied.demand _ _ id) fun above => ih above

theorem searchPage_alike (tied : Tied page page' tie) (query : String) (tries : List Float) :
    Together tie (searchPage ⟨page, delays⟩ query tries) (searchPage ⟨page', delays⟩ query tries) := by
  induction tries with
  | nil => exact alike_pure none
  | cons delay later ih =>
    have searching : Together tie (search ⟨page, delays⟩ query none) (search ⟨page', delays⟩ query none) :=
      search_alike tied query none
    refine alike_ite ?_ (alike_first searching (fun _ => alike_pure _) ih)
    refine alike_bind (tied.noting _) fun _ => alike_bind (tied.pause delay) fun _ => ?_
    exact alike_first searching (fun _ => alike_pure _) ih

theorem resolve_alike (tied : Tied page page' tie) (query : String) (scope : Option η) :
    Together tie (resolve ⟨page, delays⟩ query scope) (resolve ⟨page', delays⟩ query scope) := by
  refine alike_ite (alike_throw _) (alike_get_bind fun s t connected => ?_)
  simp only [tied.levels connected]
  refine alike_first (searchUp_alike tied query scope _) (fun _ => alike_pure _) ?_
  exact alike_first (searchPage_alike tied query (attempts ⟨page, delays⟩)) (fun _ => alike_pure _)
    (alike_throw _)

end Locator
end Walkthrough
