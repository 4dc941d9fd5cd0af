import Walkthrough.Locate.Resolve
import Walkthrough.Session.Action

/-!
What a page shows. A display gives, for each state of a page, a view that looking at the page leaves as
it is and that only the passing of time changes, and in each view a document, which tells what looking
at the page answers. The hits of a description in a document are listed here by their order alone; that
searching the page comes to the first of them is shown of each search in turn.
-/
namespace Walkthrough

open Walkthrough.Action

def Request.looks {η α : Type} : Request η α → Bool
  | .query .. | .isVisible .. | .parent .. | .tagName .. | .attributeValue .. => true
  | _ => false

/-- What looking at a page answers. An expression that is refused finds nothing, and an element is
hidden when it cannot be told whether it is visible. -/
structure Document (η : Type) where
  found : Option η → String → List η
  visible : η → Bool
  parent : η → Option η
  tag : η → String
  attributeValue : η → String → Option String

namespace Document

variable {η : Type} (document : Document η)

/-- The elements that match, in document order, hidden ones included. -/
def matching (strategy : Strategy) (value : String) (within : Option η) : List η :=
  match XPath.of? strategy value within.isSome with
  | none | some "" => []
  | some xpath => document.found within xpath

def admits (strategy : Strategy) (element : η) : Bool :=
  !strategy.visibleOnly || document.visible element

def candidates (strategy : Strategy) (value : String) (within : Option η) : List η :=
  (document.matching strategy value within).filter (document.admits strategy)

def inside (element : η) : List η := document.candidates .controlInside "" (some element)

def behind (element : η) : List η := document.candidates .controlAfter "" (some element)

def named (name : String) : List η :=
  if name.isEmpty then [] else document.candidates .id name none ++ document.candidates .name name none

/-- The parent of an element, its parent, and so on, `depth` of them at most. -/
def containers (element : η) : (depth : Nat) → List η
  | 0 => []
  | depth + 1 =>
    match document.parent element with
    | none => []
    | some container => container :: containers container depth

def around (element : η) (depth : Nat) : List η :=
  (document.containers element depth).flatMap document.inside

def controls (element : η) : List η :=
  if document.tag element = "label" then
    document.inside element ++
      (document.named (Text.trimmed ((document.attributeValue element "for").getD "")) ++
        (document.behind element ++ document.around element Session.containerDepth))
  else if document.tag element = "span" then document.inside element ++ document.behind element
  else []

def control (element : η) : Option η := (document.controls element).head?

def hitsBy (query : String) (within : Option η) (strategy : Strategy) : List η :=
  if strategy.isLabel then (document.candidates strategy query within).filterMap document.control
  else document.candidates strategy query within

/-- What a description means in an element or in the whole document, the preferred ones first. -/
def hits (query : String) (within : Option η) : List η :=
  Strategy.precedence.flatMap (document.hitsBy query within)

end Document

/-- An element and its ancestors up to the root; nothing for no element. -/
inductive Ancestry {η : Type} (document : Document η) : Option η → List η → Prop where
  | root : Ancestry document none []
  | step (element : η) (chain : List η) (above : Ancestry document (document.parent element) chain) :
      Ancestry document (some element) (element :: chain)

/-- Views of the states of a page. Looking changes no view, what is asked of an element is always
answered, and ancestors are as few as the page promises. -/
structure Display {σ η ν : Type} (page : Page σ η ν) (ω : Type) where
  view : σ → ω
  document : ω → Document η
  /-- What becomes of a view as time passes. -/
  rest : Float → Answer → ω → ω
  levels_suffice (s : σ) {element : Option η} {chain : List η}
    (ancestry : Ancestry (document (view s)) element chain) : chain.length ≤ page.levels s
  view_perform {α : Type} (r : Request η α) (answer : Answer) (s : σ) (looks : r.looks = true) :
    view (page.perform r answer s).state = view s
  view_sleep (seconds : Float) (answer : Answer) (s : σ) :
    view (page.sleep seconds answer s).2 = rest seconds answer (view s)
  query_answer (within : Option η) (xpath : String) (answer : Answer) (s : σ) :
    (page.perform (.query within xpath) answer s).result.toOption.getD [] =
      (document (view s)).found within xpath
  visible_answer (element : η) (answer : Answer) (s : σ) :
    (page.perform (.isVisible element) answer s).result.toOption.getD false =
      (document (view s)).visible element
  parent_answer (element : η) (answer : Answer) (s : σ) :
    (page.perform (.parent element) answer s).result = .ok ((document (view s)).parent element)
  tag_answer (element : η) (answer : Answer) (s : σ) :
    (page.perform (.tagName element) answer s).result = .ok ((document (view s)).tag element)
  attribute_answer (element : η) (name : String) (answer : Answer) (s : σ) :
    (page.perform (.attributeValue element name) answer s).result =
      .ok ((document (view s)).attributeValue element name)

namespace Display

variable {σ η ν ω α β : Type} {page : Page σ η ν} (display : Display page ω)

def hitsAlong (query : String) (chain : List η) (v : ω) : List η :=
  chain.flatMap fun anchor => (display.document v).hits query (some anchor)

def after (answer : Answer) (v : ω) (delay : Float) : ω :=
  if 0 < delay then display.rest delay answer v else v

/-- The views in which the whole page is searched, if it is searched after all delays. -/
def tries (answer : Answer) : List Float → ω → List ω
  | [], _ => []
  | delay :: later, v => display.after answer v delay :: tries answer later (display.after answer v delay)

def hitsInTime (query : String) (answer : Answer) (delays : List Float) (v : ω) : List η :=
  (display.tries answer delays v).flatMap fun w => (display.document w).hits query none

/-- The delays before the searches up to the first that has a hit. -/
def spent (query : String) (answer : Answer) (delays : List Float) (v : ω) : List Float :=
  let vain := (display.tries answer delays v).takeWhile fun w =>
    ((display.document w).hits query none).isEmpty
  delays.take (vain.length + 1)

def meanings (query : String) (chain : List η) (answer : Answer) (delays : List Float) (v : ω) : List η :=
  display.hitsAlong query chain v ++ display.hitsInTime query answer delays v

/-- The delays before the searches of the whole page that are made. -/
def delaysSpent (query : String) (chain : List η) (answer : Answer) (delays : List Float) (v : ω) :
    List Float :=
  if (display.hitsAlong query chain v).isEmpty then display.spent query answer delays v else []

theorem spent_of_hit {query : String} {v : ω} {answer : Answer} {delay : Float} {later : List Float}
    {element : η} {more : List η}
    (hit : (display.document (display.after answer v delay)).hits query none = element :: more) :
    display.spent query answer (delay :: later) v = [delay] := by
  simp [spent, tries, hit]

theorem spent_of_no_hit {query : String} {v : ω} {answer : Answer} {delay : Float} {later : List Float}
    (vain : (display.document (display.after answer v delay)).hits query none = []) :
    display.spent query answer (delay :: later) v =
      delay :: display.spent query answer later (display.after answer v delay) := by
  simp [spent, tries, vain]

variable (v : ω)

/-- In this view the action gives this value, and the page keeps the view and its standing answer. -/
def Reads (x : SessionM σ ν α) (a : α) : Prop :=
  ∀ s, display.view s.page = v →
    ∃ t, x s = .ok a t ∧ display.view t.page = v ∧ t.dialogs.answer = s.dialogs.answer

variable {display v}

theorem reads_pure (a : α) : display.Reads v (pure a) a := fun s seen => ⟨s, rfl, seen, rfl⟩

theorem reads_bind {x : SessionM σ ν α} {f : α → SessionM σ ν β} {a : α} {b : β}
    (first : display.Reads v x a) (next : display.Reads v (f a) b) : display.Reads v (x >>= f) b := by
  intro s seen
  obtain ⟨t, done, seen', same⟩ := first s seen
  obtain ⟨u, done', seen'', same'⟩ := next t seen'
  exact ⟨u, bind_eq_ok.mpr ⟨a, t, done, done'⟩, seen'', same'.trans same⟩

theorem reads_note (n : Notice) : display.Reads v (Session.note n) () := fun _ seen => ⟨_, rfl, seen, rfl⟩

theorem absorb_kept (s : Session σ ν) (happening : Happening ν) :
    (s.absorb happening).page = s.page ∧ (s.absorb happening).dialogs.answer = s.dialogs.answer := by
  cases happening with
  | note n => exact ⟨rfl, rfl⟩
  | dialog message refusal => cases refusal <;> exact ⟨rfl, rfl⟩

theorem absorbAll_kept (happenings : List (Happening ν)) (s : Session σ ν) :
    (s.absorbAll happenings).page = s.page ∧
      (s.absorbAll happenings).dialogs.answer = s.dialogs.answer := by
  induction happenings generalizing s with
  | nil => exact ⟨rfl, rfl⟩
  | cons happening later ih =>
    have once := absorb_kept s happening
    have after := ih (s.absorb happening)
    exact ⟨after.1.trans once.1, after.2.trans once.2⟩

theorem ask_kept (display : Display page ω) (r : Request η α) (looks : r.looks = true) (s : Session σ ν) :
    ∃ t, Session.ask page r s = .ok (page.perform r s.dialogs.answer s.page).result t ∧
      display.view t.page = display.view s.page ∧ t.dialogs.answer = s.dialogs.answer := by
  have kept := absorbAll_kept (page.perform r s.dialogs.answer s.page).happenings
    { s with page := (page.perform r s.dialogs.answer s.page).state }
  refine ⟨_, rfl, ?_, kept.2⟩
  rw [kept.1]
  exact display.view_perform r s.dialogs.answer s.page looks

theorem ask_reads {r : Request η α} {f : Except String α → SessionM σ ν β} {b : β} (looks : r.looks = true)
    (next : ∀ (answer : Answer) (s : σ), display.view s = v →
      display.Reads v (f (page.perform r answer s).result) b) :
    display.Reads v (Session.ask page r >>= f) b := by
  intro s seen
  obtain ⟨t, asked, seen', same⟩ := display.ask_kept r looks s
  obtain ⟨u, done, seen'', same'⟩ := next s.dialogs.answer s.page seen t (seen'.trans seen)
  exact ⟨u, bind_eq_ok.mpr ⟨_, t, asked, done⟩, seen'', same'.trans same⟩

theorem demand_reads {deed : Deed} {r : Request η α} {a : α} (looks : r.looks = true)
    (answered : ∀ (answer : Answer) (s : σ), display.view s = v →
      (page.perform r answer s).result = .ok a) :
    display.Reads v (Session.demand page deed r) a := by
  refine ask_reads looks fun answer s seen => ?_
  rw [answered answer s seen]
  exact reads_pure a

theorem parent_reads (element : η) :
    display.Reads v (Session.parent page element) ((display.document v).parent element) := by
  refine demand_reads rfl fun answer s seen => ?_
  rw [display.parent_answer, seen]

theorem tagName_reads (element : η) :
    display.Reads v (Session.tagName page element) ((display.document v).tag element) := by
  refine demand_reads rfl fun answer s seen => ?_
  rw [display.tag_answer, seen]

theorem attributeValue_reads (element : η) (name : String) :
    display.Reads v (Session.attributeValue page element name)
      ((display.document v).attributeValue element name) := by
  refine demand_reads rfl fun answer s seen => ?_
  rw [display.attribute_answer, seen]

theorem query_reads (strategy : Strategy) (value : String) (within : Option η) :
    display.Reads v (Session.query page strategy value within)
      ((display.document v).matching strategy value within) := by
  unfold Session.query Document.matching
  cases XPath.of? strategy value within.isSome with
  | none => exact reads_pure []
  | some xpath =>
    by_cases blank : xpath = ""
    · subst blank
      exact reads_pure []
    · simp only
      refine ask_reads rfl fun answer s seen => ?_
      have told := display.query_answer within xpath answer s
      rw [seen] at told
      cases result : (page.perform (.query within xpath) answer s).result with
      | ok elements =>
        rw [result] at told
        have found : elements = (display.document v).found within xpath := told
        rw [← found]
        exact reads_pure elements
      | error reason =>
        rw [result] at told
        have nothing : [] = (display.document v).found within xpath := told
        rw [← nothing]
        exact reads_bind (reads_note _) (reads_pure [])

theorem suits_reads (strategy : Strategy) (element : η) :
    display.Reads v (Session.suits page strategy element)
      ((display.document v).admits strategy element) := by
  unfold Session.suits Document.admits
  cases strategy.visibleOnly with
  | false => exact reads_pure true
  | true =>
    refine ask_reads rfl fun answer s seen => ?_
    have told := display.visible_answer element answer s
    rw [seen] at told
    cases result : (page.perform (.isVisible element) answer s).result with
    | ok visible =>
      rw [result] at told
      have shown : visible = (display.document v).visible element := told
      rw [← shown]
      exact reads_pure visible
    | error reason =>
      rw [result] at told
      have hidden : false = (display.document v).visible element := told
      rw [← hidden]
      exact reads_pure false

theorem firstSuiting_reads (strategy : Strategy) (elements : List η) :
    display.Reads v (Session.firstSuiting page strategy elements)
      (elements.filter ((display.document v).admits strategy)).head? := by
  induction elements with
  | nil => exact reads_pure none
  | cons element later ih =>
    refine reads_bind (suits_reads strategy element) ?_
    cases admitted : (display.document v).admits strategy element with
    | true =>
      rw [List.filter_cons_of_pos admitted]
      exact reads_pure (some element)
    | false =>
      rw [List.filter_cons_of_neg (by simp [admitted])]
      exact ih

theorem allSuiting_reads (strategy : Strategy) (elements : List η) :
    display.Reads v (Session.allSuiting page strategy elements)
      (elements.filter ((display.document v).admits strategy)) := by
  induction elements with
  | nil => exact reads_pure []
  | cons element later ih =>
    refine reads_bind (suits_reads strategy element) (reads_bind ih ?_)
    rw [List.filter_cons]
    exact reads_pure _

theorem find_reads (strategy : Strategy) (value : String) (within : Option η) :
    display.Reads v (Session.find page strategy value within)
      ((display.document v).candidates strategy value within).head? :=
  reads_bind (query_reads strategy value within) (firstSuiting_reads strategy _)

theorem findAll_reads (strategy : Strategy) (value : String) (within : Option η) :
    display.Reads v (Session.findAll page strategy value within)
      ((display.document v).candidates strategy value within) :=
  reads_bind (query_reads strategy value within) (allSuiting_reads strategy _)

end Display
end Walkthrough
