import Walkthrough.Proofs.Locate.Attached
import Walkthrough.Proofs.Run.Jumps
import Walkthrough.Proofs.Run.Placed

/-!
Where located elements belong. The located element is found again by its description if its document is gone, so
what is handed out belongs to the document that is shown (`located_elements_attached`). That holds where the
search is not confined, or where the element that it is confined to is still there; if that one has been left
behind, the search goes on in what is gone (`confined_search_strays`).
-/
namespace Walkthrough

open Walkthrough.Action

variable {σ η ν : Type}

namespace Setup

variable {ω : Type} {setup : Setup σ η ν} {display : Display setup.locator.page ω}

/-- The located element, found again if need be, belongs to the document that is then shown. -/
theorem locatedElement_attached (attachment : Attachment display) (plain : setup.demo = false)
    {s t : RunState σ η ν} {slot : Located η} (named : ∀ slot ∈ s.memory.located, slot.query.isEmpty = false)
    (belongs : ∀ anchor ∈ s.memory.scope, attachment.attached (display.view s.session.page) anchor = true)
    (handed : locatedElement setup s = .ok slot t) :
    attachment.attached (display.view t.session.page) slot.element = true := by
  obtain ⟨_, _, read, handed⟩ := bind_eq_ok.mp handed
  cases read
  cases located : s.memory.located with
  | none =>
    simp only [located] at handed
    cases handed
  | some previous =>
    simp only [located] at handed
    obtain ⟨there, u, asked, handed⟩ := bind_eq_ok.mp handed
    obtain ⟨session, told, rfl⟩ := RunM.onSession_eq_ok asked
    obtain ⟨session', told', shown⟩ := attachment.isAttached_tells previous.element s.session
    obtain ⟨rfl, rfl⟩ := EStateM.Result.ok.inj (told.symm.trans told')
    rw [named previous located, Bool.or_false] at handed
    split at handed
    · next attached =>
      obtain ⟨rfl, rfl⟩ := pure_eq_ok.mp handed
      rw [shown]
      exact attached
    · obtain ⟨_, _, noted, handed⟩ := bind_eq_ok.mp handed
      cases noted
      obtain ⟨_, _, read, handed⟩ := bind_eq_ok.mp handed
      cases read
      obtain ⟨element, v, found, handed⟩ := bind_eq_ok.mp handed
      obtain ⟨session', resolved, rfl⟩ := RunM.onSession_eq_ok found
      obtain ⟨_, w, kept, handed⟩ := bind_eq_ok.mp handed
      obtain ⟨rfl, rfl⟩ := pure_eq_ok.mp handed
      -- Without the demonstration, nothing is asked of the page once the element is found.
      have still : w.session = session' := by
        unfold setLocated at kept
        rw [plain] at kept
        cases kept
        rfl
      have again : setup.locator.resolve previous.query s.memory.scope
          (session.record (.stale previous.query)) = .ok element session' := resolved
      have belongs' : ∀ anchor ∈ s.memory.scope,
          attachment.attached (display.view (session.record (.stale previous.query)).page) anchor = true := by
        change ∀ anchor ∈ s.memory.scope, attachment.attached (display.view session.page) anchor = true
        rwa [shown]
      rw [still]
      exact Locator.resolve_attached attachment belongs' again

/-- In a run without the demonstration that returns, let commands of a statement have been carried out. Whenever the
located element is handed out in what follows, it belongs to the document that is then shown, unless the
statement has an anchor and the element that the search is confined to does not belong to it. -/
theorem located_elements_attached (setup : Setup σ η ν) (display : Display setup.locator.page ω)
    (attachment : Attachment display) (plain : setup.demo = false) (script : Script) (row : Bindings)
    (startedAt : Moment) (session : Session σ ν) (record : RunRecord) (t : RunState σ η ν)
    (returned : setup.run script row startedAt session = .ok record t) :
    ∃ u visits, setup.observedRun script row startedAt session = .ok record u ∧ u.inner = t ∧
      u.kept = visits.flatMap Visit.sightings ∧ Run.Filed setup.conduct script visits record.entries ∧
      ∀ v ∈ visits, ∀ earlier c later begun reached, v.statement.form.commands = earlier ++ c :: later →
        setup.Reaches v.phase v.statement.form earlier v.begun begun reached →
        ∀ s slot t, s.memory = reached.memory → locatedElement setup s = .ok slot t →
          ((∀ anchor body, v.statement.form ≠ .under anchor body) ∨
            ∀ anchor ∈ s.memory.scope, attachment.attached (display.view s.session.page) anchor = true) →
          attachment.attached (display.view t.session.page) slot.element = true := by
  obtain ⟨u, observed, same⟩ := observedRun_returns returned
  obtain ⟨visits, seen, filed, -, placed⟩ := (setup.upholds_placed script).run
    (s := { session := session.keeping [], memory := { row } }) rfl ⟨⟨rfl, by simp [RunState.inner]⟩,
      List.forall_mem_nil _⟩ observed
  refine ⟨u, visits, observed, same, seen, filed, ?_⟩
  intro v among earlier c later begun reached shape reaches s slot t memory handed there
  obtain ⟨armed, begins⟩ := v.begun_eq
  have ready : v.begun.memory.Placed none := by
    rw [begins]
    exact placed v among
  obtain ⟨scope, entered, confined⟩ := setup.enter_placed ready reaches.entered
  have kept := (setup.performAll_placed scope v.phase earlier begun entered).1
  rw [reaches.performed] at kept
  have now : s.memory.Placed scope := memory ▸ kept
  refine locatedElement_attached attachment plain now.named ?_ handed
  rcases there with unconfined | there
  · rw [now.scope, confined unconfined]
    simp
  · exact there

end Setup

/-- What a page answers that shows a form with one button in it. An element is named by the load of the page that
it belongs to, and by whether it is the form, which has the focus. -/
def formAnswer (loads : Nat) : {α : Type} → Request (Nat × Bool) α → Except String α
  | _, .query none _ => .ok [(loads, false)]
  | _, .query (some (load, _)) _ => .ok [(load, false)]
  | _, .isVisible _ => .ok true
  | _, .isAttached (load, _) => .ok (load == loads)
  | _, .parent (load, form) => .ok (if form then none else some (load, true))
  | _, .tagName _ => .ok "button"
  | _, .attributeValue _ _ => .ok none
  | _, .innerText _ => .ok "Save"
  | _, .activeElement => .ok (some (loads, true))
  | _, .scrollIntoView _ => .ok ()
  | _, .reload => .ok ()
  | _, _ => .error "not here"

/-- How often the page has been loaded when it has been asked this. -/
def loadsAfter (loads : Nat) : {α : Type} → Request (Nat × Bool) α → Nat
  | _, .reload => loads + 1
  | _, _ => loads

def formPage : Page Nat (Nat × Bool) Unit where
  perform r _ loads := ⟨formAnswer loads r, [], loadsAfter loads r⟩
  sleep _ _ loads := ([], loads)
  levels _ := 2

def formDocument (loads : Nat) : Document (Nat × Bool) where
  found
    | none, _ => [(loads, false)]
    | some (load, _), _ => [(load, false)]
  visible _ := true
  parent | (load, form) => if form then none else some (load, true)
  tag _ := "button"
  attributeValue _ _ := none

theorem ancestry_form (loads load : Nat) : Ancestry (formDocument loads) (some (load, true)) [(load, true)] :=
  .step _ _ .root

theorem ancestry_button (loads load : Nat) :
    Ancestry (formDocument loads) (some (load, false)) [(load, false), (load, true)] :=
  .step _ _ (ancestry_form loads load)

theorem length_ancestry {loads : Nat} {element : Option (Nat × Bool)} {chain : List (Nat × Bool)}
    (ancestry : Ancestry (formDocument loads) element chain) : chain.length ≤ 2 := by
  have of_form {load : Nat} {chain : List (Nat × Bool)}
      (ancestry : Ancestry (formDocument loads) (some (load, true)) chain) : chain.length = 1 := by
    cases ancestry with
    | step _ chain above =>
      change Ancestry (formDocument loads) none chain at above
      cases above
      rfl
  cases ancestry with
  | root => exact Nat.zero_le 2
  | step element chain above =>
    obtain ⟨load, form⟩ := element
    cases form with
    | true => exact Nat.le_succ_of_le (Nat.le_of_eq (of_form (.step _ chain above)))
    | false => exact Nat.succ_le_succ (Nat.le_of_eq (of_form above))

def formDisplay : Display formPage Nat where
  view := id
  document := formDocument
  rest _ _ loads := loads
  levels_suffice _ _ _ ancestry := length_ancestry ancestry
  view_perform r _ loads looks := by cases r <;> first | rfl | cases looks
  view_sleep _ _ _ := rfl
  query_answer within _ _ _ := by cases within <;> rfl
  visible_answer _ _ _ := rfl
  parent_answer _ _ _ := rfl
  tag_answer _ _ _ := rfl
  attribute_answer _ _ _ _ := rfl

def formAttachment : Attachment formDisplay where
  attached loads element := element.1 == loads
  view_isAttached _ _ _ := rfl
  attached_answer _ _ _ := rfl
  found_inside {loads within _} belongs e among := by
    cases within with
    | none =>
      obtain rfl := List.mem_singleton.mp among
      exact beq_self_eq_true loads
    | some element =>
      obtain rfl := List.mem_singleton.mp among
      exact belongs element rfl
  parent_attached {loads element} belongs above outer := by
    obtain ⟨load, form⟩ := element
    cases form with
    | true => cases outer
    | false =>
      cases outer
      exact belongs
  ancestry {loads element} _ := by
    obtain ⟨load, form⟩ := element
    cases form
    · exact ⟨_, ancestry_button loads load⟩
    · exact ⟨_, ancestry_form loads load⟩

def formSetup : Setup Nat (Nat × Bool) Unit where
  locator := { page := formPage }
  uploadPath path := .ok (path, false)

theorem perform_formSetup : formSetup.perform = formSetup.act := by
  funext phase c
  unfold Setup.perform
  split
  · rfl
  · rfl

def findAndReload : List Command := [{ verb := .locate, param := some (.quoted "Save") }, { verb := .refresh }]

def readShown : Command := { verb := .readTo, target := some "shown" }

/-- The page is loaded again between finding the button and reading it. -/
def readAfterReload (form : List Command → Form) : Statement := ⟨form (findAndReload ++ [readShown]), 1⟩

def beforeReading (form : List Command → Form) : RunState Nat (Nat × Bool) Unit :=
  (({ session := { page := 0 } } : RunState Nat (Nat × Bool) Unit).noted (.runStarted "run" 1)).noted
    (.executing (readAfterReload form))

/-- Is this element handed out when the page has been loaded again? -/
def handsOut (form : List Command → Form) (element : Nat × Bool) : Bool :=
  match formSetup.enter (readAfterReload form).form (beforeReading form) with
  | .error _ _ => false
  | .ok _ begun =>
    match findAndReload.forM (formSetup.act .running) begun with
    | .error _ _ => false
    | .ok _ reached =>
      match Setup.locatedElement formSetup reached with
      | .error _ _ => false
      | .ok slot t => slot.element == element && t.session.page == 1

theorem reached_of_handsOut {form : List Command → Form} {element : Nat × Bool}
    (hands : handsOut form element = true) : ∃ begun reached slot t,
      formSetup.Reaches .running (readAfterReload form).form findAndReload (beforeReading form) begun reached ∧
      Setup.locatedElement formSetup reached = .ok slot t ∧ slot.element = element ∧ t.session.page = 1 := by
  unfold handsOut at hands
  split at hands
  · cases hands
  · next begun entered =>
    split at hands
    · cases hands
    · next reached performed =>
      split at hands
      · cases hands
      · next slot t located =>
        obtain ⟨same, page⟩ := Bool.and_eq_true_iff.mp hands
        have through : formSetup.performAll .running findAndReload begun = .ok () reached := by
          rw [Setup.performAll_eq_forM, perform_formSetup]
          exact performed
        exact ⟨begun, reached, slot, t, ⟨entered, through⟩, located, eq_of_beq same, eq_of_beq page⟩

theorem observed_reading (form : List Command → Form) (plain : (readAfterReload form).isHandler = false)
    (silent : (readAfterReload form).isComment = false)
    (unarmed : Setup.armedFor (readAfterReload form) none = none)
    (succeeds : succeeded (formSetup.carryOutBy (formSetup.act .running) (readAfterReload form).form
      (beforeReading form)) = true) :
    ∃ record u v,
      formSetup.observedRun (.ofStatements [readAfterReload form]) [] ⟨2024, 1, 2, 3, 4, 5, 0⟩ { page := 0 } =
        .ok record u ∧
      u.kept = [v].flatMap Visit.sightings ∧ v.phase = .running ∧ v.statement = readAfterReload form ∧
      v.begun = beforeReading form := by
  have executed : succeeded (formSetup.conduct.execute 0 .running (readAfterReload form) none
      (beforeReading form)) = true := by
    rw [Setup.conduct_eq_of_prompt perform_formSetup]
    simp only [unarmed]
    exact succeeds
  have one : (Script.ofStatements [readAfterReload form]).statements = [readAfterReload form] := rfl
  cases done : formSetup.conduct.execute 0 .running (readAfterReload form) none (beforeReading form) with
  | error stop after =>
    rw [done] at executed
    cases executed
  | ok _ after =>
    obtain ⟨u, observed, seen⟩ := Run.observed_of_only one plain silent done
    let v : Visit Nat (Nat × Bool) Unit :=
      ⟨0, .running, readAfterReload form, none, beforeReading form, none, after⟩
    exact ⟨_, u, v, observed, seen, rfl, rfl, Visit.begun_of_none unarmed⟩

/-- Without an anchor, the button is found again in the page as it has been loaded then. -/
theorem located_elements_attached_form :
    ∃ record t, formSetup.run (.ofStatements [readAfterReload .run]) [] ⟨2024, 1, 2, 3, 4, 5, 0⟩ { page := 0 } =
        .ok record t ∧
      ∃ (v : Visit Nat (Nat × Bool) Unit) (begun reached : RunState Nat (Nat × Bool) Unit),
        v.statement = readAfterReload .run ∧
        formSetup.Reaches v.phase v.statement.form findAndReload v.begun begun reached ∧
        ∃ slot t, Setup.locatedElement formSetup reached = .ok slot t ∧ slot.element = (1, false) ∧
          formAttachment.attached (formDisplay.view t.session.page) slot.element = true := by
  obtain ⟨record, u, v, observed, kept, phase, statement, begins⟩ :=
    observed_reading .run rfl rfl rfl (by decide +kernel)
  obtain ⟨begun, reached, slot, t, reaches, located, element, -⟩ :=
    reached_of_handsOut (by decide +kernel : handsOut .run (1, false) = true)
  rw [← begins, ← statement, ← phase] at reaches
  have returned := Setup.run_of_observed observed
  obtain ⟨u', visits, observed', -, kept', -, attached⟩ := Setup.located_elements_attached formSetup formDisplay
    formAttachment rfl (.ofStatements [readAfterReload .run]) [] ⟨2024, 1, 2, 3, 4, 5, 0⟩ { page := 0 } record u.inner
    returned
  rw [observed] at observed'
  cases observed'
  obtain rfl : visits = [v] := Visit.sightings_injective (kept'.symm.trans kept)
  have shape : v.statement.form.commands = findAndReload ++ readShown :: [] := by
    rw [statement]
    rfl
  have unconfined : ∀ anchor body, v.statement.form ≠ .under anchor body := by
    rw [statement]
    exact fun _ _ => Form.noConfusion
  exact ⟨record, u.inner, returned, v, begun, reached, statement, reaches, slot, t, located, element,
    attached v (by simp) _ _ _ _ _ shape reaches reached slot t rfl located (Or.inl unconfined)⟩

/-- With the form as the anchor, the button is found again in the form that is gone. -/
theorem confined_search_strays :
    ∃ record u v begun reached slot t,
      formSetup.observedRun (.ofStatements [readAfterReload (.under none)]) [] ⟨2024, 1, 2, 3, 4, 5, 0⟩
        { page := 0 } = .ok record u ∧
      u.kept = [v].flatMap Visit.sightings ∧ v.statement = readAfterReload (.under none) ∧
      formSetup.Reaches v.phase v.statement.form findAndReload v.begun begun reached ∧
      Setup.locatedElement formSetup reached = .ok slot t ∧ slot.element = (0, false) ∧
      formAttachment.attached (formDisplay.view t.session.page) slot.element = false := by
  obtain ⟨record, u, v, observed, kept, phase, statement, begins⟩ :=
    observed_reading (.under none) rfl rfl rfl (by decide +kernel)
  obtain ⟨begun, reached, slot, t, reaches, located, element, page⟩ :=
    reached_of_handsOut (by decide +kernel : handsOut (.under none) (0, false) = true)
  rw [← begins, ← statement, ← phase] at reaches
  have gone : formAttachment.attached (formDisplay.view t.session.page) slot.element = false := by
    rw [element, page]
    rfl
  exact ⟨record, u, v, begun, reached, slot, t, observed, kept, statement, reaches, located, element, gone⟩

end Walkthrough
