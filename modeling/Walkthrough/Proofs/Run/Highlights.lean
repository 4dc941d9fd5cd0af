import Walkthrough.Proofs.Run.Borders
import Walkthrough.Proofs.Run.Lasting
import Walkthrough.Proofs.Run.Placed

/-!
Highlighted elements of a demonstration. Over a page that keeps its document, each command keeps to one highlighted
element, but for labels, spans and options: interacting with one of these moves on to what it stands for and
leaves the highlight behind (`Setup.lit_tends`). So does a whole run, at every moment and however it ends
(`Setup.highlights_follow`).
-/
namespace Walkthrough

open Walkthrough.Action Session

variable {σ η ν α : Type}

namespace Setup

open RunM

variable {setup : Setup σ η ν}

/-- The set-up, over its page with borders. -/
def lined (setup : Setup σ η ν) : Setup (σ × List (η × String)) η ν := setup.over setup.page.bordered

variable {here : η → Prop} {tag : η → String} {element : η}

section Drawing

variable (stable : setup.page.Stable here tag)
include stable

theorem isAttached_tells (there : here element) (s : Session (σ × List (η × String)) ν) :
    ∃ t, Session.isAttached setup.lined.page element s = .ok true t ∧ t.page.2 = s.page.2 := by
  let asked := final (Session.ask setup.lined.page (.isAttached element) s)
  have answer : Session.ask setup.lined.page (.isAttached element) s = .ok (.ok true) asked :=
    congrArg (EStateM.Result.ok · asked) (stable.withBorders.attached _ _ there)
  exact ⟨asked, bind_of_ok answer, page_ask setup.page (.isAttached element) s⟩

theorem highlight_draws (there : here element) (border : String) (s : RunState (σ × List (η × String)) η ν) :
    ∃ t, highlight setup.lined element border s = .ok () t ∧ t.memory = s.memory ∧
      t.session.page.2 = (element, border) :: s.session.page.2 := by
  let asked := final (Session.ask setup.lined.page (.setBorder element border) s.session)
  have drawn : Session.setBorder setup.lined.page element border s.session = .ok () asked := by
    have answer : Session.ask setup.lined.page (.setBorder element border) s.session = .ok (.ok ()) asked :=
      congrArg (EStateM.Result.ok · asked) (stable.withBorders.bordered border _ _ there)
    exact bind_of_ok answer
  have tried : RunM.attempt (onSession (Session.setBorder setup.lined.page element border)) s =
      .ok (.ok ()) { s with session := asked } := by
    unfold RunM.attempt onSession
    rw [drawn]
  refine ⟨{ s with session := asked }, bind_of_ok tried, rfl, ?_⟩
  have kept := page_ask setup.page (.setBorder element border) s.session
  rw [stable.bordered border _ _ there] at kept
  exact kept

/-- In a demonstration, the located element loses its border before the new one gets the highlight. -/
theorem drawBorder_draws (demo : setup.demo = true) (there : here element)
    {s : RunState (σ × List (η × String)) η ν} (located : ∀ slot ∈ s.memory.located, here slot.element) :
    ∃ t, setup.lined.drawBorder element s = .ok () t ∧ t.memory = s.memory ∧
      t.session.page.2 = (element, highlightBorder) :: (cleared s.memory.located ++ s.session.page.2) := by
  have shown : setup.lined.demo = true := demo
  have read : (memory : RunM (σ × List (η × String)) η ν (Memory η)) s = .ok s.memory s := rfl
  unfold drawBorder
  rw [if_pos shown, bind_of_ok read]
  cases slot : s.memory.located with
  | none =>
    obtain ⟨t, drawn, same, borders⟩ := highlight_draws stable there highlightBorder s
    exact ⟨t, drawn, same, borders⟩
  | some previous =>
    have before := located previous slot
    obtain ⟨session, attached, kept⟩ := isAttached_tells stable before s.session
    have told : onSession (Session.isAttached setup.lined.page previous.element) s =
        .ok true { s with session } := by
      unfold onSession
      rw [attached]
    obtain ⟨u, wiped, same, borders⟩ := highlight_draws stable before "none" { s with session }
    obtain ⟨t, drawn, same', borders'⟩ := highlight_draws stable there highlightBorder u
    refine ⟨t, ?_, same'.trans same, ?_⟩
    · exact (bind_of_ok told).trans ((bind_of_ok wiped).trans drawn)
    · rw [borders', borders]
      exact congrArg (fun rest => _ :: _ :: rest) kept

end Drawing

variable [DecidableEq η]

/-- What is invariant in a run with borders. -/
abbrev LitIn (here : η → Prop) (tag : η → String) (m : Memory η) (s : Session (σ × List (η × String)) ν) : Prop :=
  Lit here tag m s.page.2

section Commands

variable (stable : setup.page.Stable here tag)

theorem calm_lit (setup : Setup σ η ν) (m : Memory η) : Calm setup.lined.page (LitIn here tag m) :=
  calm_borders setup.page (Lit here tag m)

include stable

theorem resolve_lit (query : String) {scope : Option η} (inner : ∀ anchor ∈ scope, here anchor) :
    Secures (On (LitIn here tag)) (onSession (setup.lined.locator.resolve query scope)) here :=
  onSession_secures setup.calm_lit fun _ calm => Locator.resolve_secures calm stable.withBorders query inner

theorem locatedElement_lit :
    Secures (On (LitIn here tag)) (locatedElement setup.lined) fun slot => here slot.element := by
  refine secures_memory_bind fun m _ lit => ?_
  cases located : m.located with
  | none => exact secures_throw _
  | some slot =>
    have there : here slot.element := lit.located slot located
    have attached : Secures (On (LitIn here tag)) (onSession (Session.isAttached setup.lined.page slot.element))
        fun attached => attached = true :=
      onSession_secures setup.calm_lit fun _ calm => isAttached_secures calm stable.withBorders there
    refine secures_bind attached fun attached same => ?_
    subst same
    exact secures_pure there

/-- What an interaction means becomes the located element, but the highlight stays where it is. -/
theorem target_lit (choosing : Bool) : Secures (On (LitIn here tag)) (target setup.lined choosing) here := by
  intro s lit
  obtain ⟨kept, there⟩ := locatedElement_lit stable s lit
  refine ends_bind (fun stop t stopped => by rwa [stopped] at kept) fun slot t handed => ?_
  rw [handed] at kept
  have located := located_of_handed handed
  have meaning : Secures (On (LitIn here tag))
      (onSession (Session.interactionTarget setup.lined.page slot.element choosing))
      fun target => here target ∧ (target = slot.element ∨ tag slot.element ∈ deputies) :=
    onSession_secures setup.calm_lit fun _ calm =>
      interactionTarget_secures calm stable.withBorders (there slot t handed) choosing
  obtain ⟨still, means⟩ := meaning t kept
  refine ends_bind (x := onSession (Session.interactionTarget setup.lined.page slot.element choosing))
    (fun stop u stopped => by rwa [stopped] at still) fun element u met => ?_
  rw [met] at still
  obtain ⟨inside, stands⟩ := means element u met
  obtain ⟨session, -, rfl⟩ := onSession_eq_ok met
  refine ⟨Lit.swap still located inside stands, fun other v ended => ?_⟩
  cases ended
  exact inside

theorem anchorElement_lit (anchor : Option Param) :
    Secures (On (LitIn here tag)) (anchorElement setup.lined anchor) here := by
  cases anchor with
  | none =>
    exact secures_first (onSession_secures setup.calm_lit fun _ calm => activeElement_secures calm stable.withBorders)
      (fun element there => secures_pure there) (secures_throw _)
  | some param =>
    refine secures_memory_bind fun m _ _ => ?_
    cases m.valueOf param with
    | error failure => exact secures_throw _
    | ok query =>
      refine secures_bind (resolve_lit stable query inside_none) fun element there => ?_
      refine maintains_bind (onSession_secures setup.calm_lit fun _ calm => calm.scrollIntoView _) fun _ => ?_
      exact secures_pure there

variable (demo : setup.demo = true)
include demo

theorem setLocated_lit (there : here element) (query : String) :
    Maintains (On (LitIn here tag)) (setLocated setup.lined element query) := by
  intro s lit
  obtain ⟨t, drawn, same, borders⟩ := drawBorder_draws stable demo there (s := s) lit.located
  refine ⟨?_, fun _ _ _ => trivial⟩
  rw [setLocated_eq, bind_of_ok drawn]
  change Lit here tag { t.memory with located := some ⟨element, query⟩ } t.session.page.2
  rw [same, borders]
  exact Lit.draw lit there query

theorem locate_lit (query : String) (scroll : Bool) :
    Maintains (On (LitIn here tag)) (locate setup.lined query scroll) := by
  refine secures_memory_bind fun m _ lit => secures_bind (resolve_lit stable query lit.scope) fun element there => ?_
  have last := setLocated_lit stable demo there query
  cases scroll with
  | true => exact maintains_bind (onSession_secures setup.calm_lit fun _ calm => calm.scrollIntoView _) fun _ => last
  | false => exact last

theorem dragTo_lit (c : Command) : Maintains (On (LitIn here tag)) (dragTo setup.lined c) := by
  refine secures_bind (locatedElement_lit stable) fun source _ => maintains_bind (argument_maintains c) fun query => ?_
  refine secures_memory_bind fun m _ lit => secures_bind (resolve_lit stable query lit.scope) fun element there => ?_
  exact maintains_bind (demand_maintains setup.calm_lit _ _ id) fun _ => setLocated_lit stable demo there query

/-- Every command keeps to one highlighted element, those apart that stand for others. -/
theorem lit_tends : setup.lined.Tends (LitIn here tag) where
  calm := setup.calm_lit
  remember scope located lit := Lit.of_same lit scope located
  locatedElement := (locatedElement_lit stable).mono fun _ _ => trivial
  target choosing := (target_lit stable choosing).mono fun _ _ => trivial
  locate := locate_lit stable demo
  dragTo := dragTo_lit stable demo

theorem carryOut_lit (phase : Phase) (form : Form) :
    Maintains (On (LitIn here tag)) (carryOut setup.lined phase form) :=
  (lit_tends stable demo).carryOut (anchorElement_lit stable) (fun _ _ => lit_tends stable demo)
    (fun there lit => Lit.confine lit (inside_some there)) (fun lit => Lit.confine lit inside_none) phase form

/-- So does every statement, wherever it stops. -/
theorem execute_lit (phase : Phase) (st : Statement) (upcoming : Option Answer) :
    Maintains (On (LitIn here tag)) (execute setup.lined phase st upcoming) := by
  intro s lit
  refine ⟨?_, fun _ _ _ => trivial⟩
  rw [execute_eq, final_andFinally]
  have carried (t : RunState (σ × List (η × String)) η ν) (lit : On (LitIn here tag) t) :
      On (LitIn here tag) (final (carryOut setup.lined phase st.form t)) :=
    (carryOut_lit stable demo phase st.form t lit).1
  unfold relieved readied
  cases armedFor st upcoming with
  | none => exact carried s lit
  | some answer => exact carried (setArmed (some answer) s) lit

theorem lit_lasting (script : Script) : setup.lined.conduct.Lasting script (LitIn here tag) where
  execute _ phase upcoming st _ s lit := (execute_lit stable demo phase st upcoming s lit).1
  finish lit := lit
  note _ lit := lit
  drain lit := Lit.of_same lit rfl rfl
  forget lit := Lit.of_same lit rfl rfl

end Commands

/-- A demonstration on a page that keeps its document, whose scripts do not fail. With the borders kept, the run
goes as it goes without. However it ends, each highlighted element is then the located one, or a label, a span or
an option. At every moment of the run, as the borders were then, and so after every command, at most one element
is highlighted that is none of these. -/
theorem highlights_follow (setup : Setup σ η ν) (here : η → Prop) (tag : η → String)
    (stable : setup.page.Stable here tag) (demo : setup.demo = true) (script : Script) (row : Bindings)
    (startedAt : Moment) (session : Session σ ν) :
    let result := setup.lined.run script row startedAt (session.keeping [])
    mapState RunState.inner result = setup.run script row startedAt session ∧
      (∀ element, Highlighted (final result).kept element →
        (final result).memory.located.map (·.element) = some element ∨ tag element ∈ deputies) ∧
      ∀ past, past <:+ (final result).kept → ∀ element other, Highlighted past element → Highlighted past other →
        tag element ∉ deputies → tag other ∉ deputies → element = other := by
  intro result
  have lit : Lit here tag (final result).memory (final result).kept :=
    (lit_lasting stable demo script).run setup.runName startedAt
      (s := { session := session.keeping [], memory := { row } }) (Lit.fresh row)
  refine ⟨?_, lit.marks, ?_⟩
  · exact Run.run_extends (conduct_extends setup.page.bordered_extends) script setup.runName startedAt
      { session := session.keeping [], memory := { row } }
  · intro past old element other lit' lit'' plain plain'
    obtain ⟨chosen, marks⟩ := lit.moments past old
    have first := (marks element lit').resolve_right plain
    have second := (marks other lit'').resolve_right plain'
    exact Option.some.inj (first.symm.trans second)

end Setup

/-- A label, the list in it, and a button. -/
inductive ChoicePart where
  | caption
  | list
  | button
  deriving DecidableEq

namespace ChoicePart

def tag : ChoicePart → String
  | caption => "label"
  | list => "select"
  | button => "button"

/-- What the page answers, in which everything can be chosen. -/
def answer : {α : Type} → Request ChoicePart α → Except String α
  | _, .query none xpath =>
    .ok (if xpath = "//label" then [caption] else if xpath = "//button" then [button] else [])
  | _, .query (some caption) _ => .ok [list]
  | _, .query (some _) _ => .ok []
  | _, .isVisible _ => .ok true
  | _, .isAttached _ => .ok true
  | _, .parent element => .ok (if element = list then some caption else none)
  | _, .tagName element => .ok element.tag
  | _, .attributeValue _ _ => .ok none
  | _, .scrollIntoView _ => .ok ()
  | _, .selectOption _ _ => .ok true
  | _, .setBorder _ _ => .ok ()
  | _, _ => .error "not here"

end ChoicePart

def choicePage : Page Unit ChoicePart Unit where
  perform r _ s := ⟨ChoicePart.answer r, [], s⟩
  sleep _ _ s := ([], s)
  levels _ := 2

theorem choicePage_stable : choicePage.Stable (fun _ => True) ChoicePart.tag where
  found _ _ _ _ := trivial
  parent _ _ _ _ := trivial
  active _ _ _ := trivial
  tagName _ told := (Except.ok.inj told).symm
  attached _ _ _ := rfl
  bordered _ _ _ _ := rfl

def choiceSetup : Setup Unit ChoicePart Unit where
  locator := { page := choicePage }
  demo := true
  uploadPath path := .ok (path, false)

/-- Locates the label, chooses in the list that it means, and locates the button. -/
def chooseAndLeave : Statement where
  form := .run [{ verb := .locate, param := some (.quoted "label") },
    { verb := .select, param := some (.quoted "Red") }, { verb := .locate, param := some (.quoted "button") }]
  line := 1

/-- The label keeps the highlight, and the list loses a border that it never had. -/
def bordersLeft : List (ChoicePart × String) :=
  [(.button, Setup.highlightBorder), (.list, "none"), (.caption, Setup.highlightBorder)]

def fresh : RunState (Unit × List (ChoicePart × String)) ChoicePart Unit :=
  { session := Session.keeping { page := () } [] }

/-- Are these the borders when the statement has been carried out? -/
def leaves (borders : List (ChoicePart × String)) : Bool :=
  match choiceSetup.lined.carryOutBy (choiceSetup.lined.act .running) chooseAndLeave.form
      ((fresh.noted (.runStarted "run" 1)).noted (.executing chooseAndLeave)) with
  | .ok _ t => t.kept == borders
  | .error _ _ => false

theorem left_by_choosing :
    ∃ record t, choiceSetup.lined.run (.ofStatements [chooseAndLeave]) [] ⟨2024, 1, 2, 3, 4, 5, 0⟩
        (Session.keeping { page := () } []) = .ok record t ∧ t.kept = bordersLeft := by
  have prompt : choiceSetup.lined.perform = choiceSetup.lined.act := by
    funext phase c
    unfold Setup.perform
    split <;> rfl
  have left : leaves bordersLeft = true := by decide +kernel
  unfold leaves at left
  split at left
  · next t carried =>
    have executed : choiceSetup.lined.conduct.execute 0 .running chooseAndLeave none
        ((fresh.noted (.runStarted "run" 1)).noted (.executing chooseAndLeave)) = .ok () t := by
      rw [Setup.conduct_eq_of_prompt prompt]
      exact carried
    have one : (Script.ofStatements [chooseAndLeave]).statements = [chooseAndLeave] := rfl
    exact ⟨_, _, Run.run_of_only one rfl rfl executed, eq_of_beq left⟩
  · cases left

namespace Setup

/-- In the end the button is highlighted, which is located, and the label. -/
theorem highlights_follow_choice :
    choicePage.Stable (fun _ => True) ChoicePart.tag ∧ choiceSetup.demo = true ∧
      ∃ record t, choiceSetup.lined.run (.ofStatements [chooseAndLeave]) [] ⟨2024, 1, 2, 3, 4, 5, 0⟩
          (Session.keeping { page := () } []) = .ok record t ∧
        t.memory.located.map (·.element) = some .button ∧ Highlighted t.kept .caption ∧
        ChoicePart.tag .caption ∈ deputies := by
  obtain ⟨record, t, returned, kept⟩ := left_by_choosing
  obtain ⟨-, follow, -⟩ := highlights_follow choiceSetup (fun _ => True) ChoicePart.tag choicePage_stable rfl
    (.ofStatements [chooseAndLeave]) [] ⟨2024, 1, 2, 3, 4, 5, 0⟩ { page := () }
  rw [returned] at follow
  have lit : Highlighted t.kept .button := by
    rw [kept]
    rfl
  have located := (follow .button lit).resolve_right (by decide)
  refine ⟨choicePage_stable, rfl, record, t, returned, located, ?_, by decide⟩
  rw [kept]
  rfl

/-- When the label, the list for it and the button have been used, two elements are highlighted. -/
theorem label_keeps_highlight :
    choicePage.Stable (fun _ => True) ChoicePart.tag ∧ choiceSetup.demo = true ∧
      ∃ record t, choiceSetup.lined.run (.ofStatements [chooseAndLeave]) [] ⟨2024, 1, 2, 3, 4, 5, 0⟩
          (Session.keeping { page := () } []) = .ok record t ∧
        Highlighted t.kept .caption ∧ Highlighted t.kept .button ∧ ChoicePart.caption ≠ .button := by
  obtain ⟨record, t, returned, kept⟩ := left_by_choosing
  refine ⟨choicePage_stable, rfl, record, t, returned, ?_, ?_, by decide⟩
  · rw [kept]
    rfl
  · rw [kept]
    rfl

end Setup
end Walkthrough
