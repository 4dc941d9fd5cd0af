import Walkthrough.Proofs.Session.Secures

/-!
Locating elements in a page that keeps its document. Whatever is found in the document, or in an element that
belongs to it, belongs to it too (`Locator.resolve_secures`), and interacting with an element means another one
only if it is a label, a span or an option (`Session.interactionTarget_secures`). All this keeps every calm
property of the session.
-/
namespace Walkthrough

open Walkthrough.Action Session

variable {σ η ν : Type}

/-- The page shows one document for good, with the elements that are here. It finds only these, it tells each tag
as it is, and they remain attached. Scripts that draw borders on them do not fail. -/
structure Page.Stable (page : Page σ η ν) (here : η → Prop) (tag : η → String) : Prop where
  found {within : Option η} {xpath : String} {answer : Answer} {s : σ} {elements : List η}
    (inner : ∀ w ∈ within, here w) (told : (page.perform (.query within xpath) answer s).result = .ok elements) :
    ∀ element ∈ elements, here element
  parent {element : η} {answer : Answer} {s : σ} {above : Option η} (there : here element)
    (told : (page.perform (.parent element) answer s).result = .ok above) : ∀ container ∈ above, here container
  active {answer : Answer} {s : σ} {focused : Option η}
    (told : (page.perform .activeElement answer s).result = .ok focused) : ∀ element ∈ focused, here element
  tagName {element : η} {answer : Answer} {s : σ} {name : String} (there : here element)
    (told : (page.perform (.tagName element) answer s).result = .ok name) : name = tag element
  attached {element : η} (answer : Answer) (s : σ) (there : here element) :
    (page.perform (.isAttached element) answer s).result = .ok true
  bordered {element : η} (border : String) (answer : Answer) (s : σ) (there : here element) :
    (page.perform (.setBorder element border) answer s).result = .ok ()

/-- What is found, if anything, belongs to the document. -/
abbrev Inside (here : η → Prop) (found : Option η) : Prop := ∀ element ∈ found, here element

/-- The tags of the elements that stand for others. -/
def deputies : List String := ["label", "span", "option"]

section Locating

variable {page : Page σ η ν} {P : Session σ ν → Prop} {here : η → Prop} {tag : η → String}

theorem inside_none : Inside here none := nofun

theorem inside_some {element : η} (there : here element) : Inside here (some element) :=
  fun _ same => Option.some.inj same ▸ there

namespace Session

variable (calm : Calm page P) (stable : page.Stable here tag) {within : Option η} {element : η}
include calm

theorem suits_keeps (strategy : Strategy) (element : η) :
    Maintains P (suits page strategy element) := by
  unfold suits
  refine secures_ite (maintains_bind (calm.asking id fun _ _ => trivial) fun result => ?_) (secures_pure trivial)
  cases result <;> exact secures_pure trivial

theorem firstSuiting_secures (strategy : Strategy) {elements : List η} (there : ∀ e ∈ elements, here e) :
    Secures P (firstSuiting page strategy elements) (Inside here) := by
  induction elements with
  | nil => exact secures_pure inside_none
  | cons element later ih =>
    obtain ⟨first, rest⟩ := List.forall_mem_cons.mp there
    refine maintains_bind (suits_keeps calm strategy element) fun suiting => ?_
    exact secures_ite (secures_pure (inside_some first)) (ih rest)

theorem allSuiting_secures (strategy : Strategy) {elements : List η} (there : ∀ e ∈ elements, here e) :
    Secures P (allSuiting page strategy elements) fun suiting => ∀ e ∈ suiting, here e := by
  induction elements with
  | nil => exact secures_pure (List.forall_mem_nil _)
  | cons element later ih =>
    obtain ⟨first, rest⟩ := List.forall_mem_cons.mp there
    refine maintains_bind (suits_keeps calm strategy element) fun suiting => ?_
    refine secures_bind (ih rest) fun others there => secures_pure ?_
    split
    · exact List.forall_mem_cons.mpr ⟨first, there⟩
    · exact there

include stable

theorem query_secures (inner : ∀ w ∈ within, here w) (strategy : Strategy) (value : String) :
    Secures P (query page strategy value within) fun found => ∀ e ∈ found, here e := by
  unfold query
  split
  · exact secures_pure (List.forall_mem_nil _)
  · exact secures_pure (List.forall_mem_nil _)
  · refine secures_bind (calm.asking id (Q := fun result => ∀ elements, result = .ok elements → ∀ e ∈ elements, here e)
      fun _ _ _ told => stable.found inner told) fun result there => ?_
    cases result with
    | ok elements => exact secures_pure (there elements rfl)
    | error reason => exact maintains_bind (calm.noting _) fun _ => secures_pure (List.forall_mem_nil _)

theorem find_secures (inner : ∀ w ∈ within, here w) (strategy : Strategy) (value : String) :
    Secures P (find page strategy value within) (Inside here) :=
  secures_bind (query_secures calm stable inner strategy value) fun _ there =>
    firstSuiting_secures calm strategy there

theorem findAll_secures (inner : ∀ w ∈ within, here w) (strategy : Strategy) (value : String) :
    Secures P (findAll page strategy value within) fun found => ∀ e ∈ found, here e :=
  secures_bind (query_secures calm stable inner strategy value) fun _ there =>
    allSuiting_secures calm strategy there

theorem parent_secures (there : here element) : Secures P (parent page element) (Inside here) :=
  calm.demanding id fun _ _ _ told => stable.parent there told

theorem tagName_secures (there : here element) : Secures P (tagName page element) fun name => name = tag element :=
  calm.demanding id fun _ _ _ told => stable.tagName there told

theorem activeElement_secures : Secures P (activeElement page) (Inside here) :=
  calm.demanding id fun _ _ _ told => stable.active told

theorem isAttached_secures (there : here element) :
    Secures P (isAttached page element) fun attached => attached = true := by
  refine secures_bind (calm.asking id (Q := fun result => result = .ok true) fun answer s =>
    stable.attached answer s there) fun result attached => ?_
  subst attached
  exact secures_pure rfl

theorem namedControl_secures (name : String) : Secures P (namedControl page name) (Inside here) := by
  refine secures_ite (secures_pure inside_none) ?_
  exact secures_first (find_secures calm stable inside_none .id name)
    (fun _ there => secures_pure (inside_some there)) (find_secures calm stable inside_none .name name)

theorem controlAround_secures (there : here element) (depth : Nat) :
    Secures P (controlAround page element depth) (Inside here) := by
  induction depth generalizing element with
  | zero => exact secures_pure inside_none
  | succ depth ih =>
    refine secures_first (parent_secures calm stable there) (fun container outer => ?_) (secures_pure inside_none)
    exact secures_first (find_secures calm stable (inside_some outer) .controlInside "")
      (fun _ there => secures_pure (inside_some there)) (ih outer)

theorem associatedControl_inside (there : here element) :
    Secures P (associatedControl page element) (Inside here) := by
  have within := inside_some there
  have taken (control : η) (there : here control) :
      Secures P (pure (some control) : SessionM σ ν (Option η)) (Inside here) := secures_pure (inside_some there)
  have following : Secures P (find page .controlAfter "" (some element)) (Inside here) :=
    find_secures calm stable within .controlAfter ""
  refine secures_bind (tagName_secures calm stable there) fun name _ => secures_ite (secures_pure inside_none) ?_
  refine secures_first (find_secures calm stable within .controlInside "") taken ?_
  cases name == "label" with
  | true =>
    refine maintains_bind (calm.demand _ _ id) fun named => ?_
    refine secures_first (namedControl_secures calm stable _) taken ?_
    exact secures_first following taken (controlAround_secures calm stable there containerDepth)
  | false => exact secures_first following taken (secures_pure inside_none)

/-- Only labels and spans have controls. -/
theorem associatedControl_secures (there : here element) :
    Secures P (associatedControl page element)
      fun found => ∀ control ∈ found, here control ∧ tag element ∈ deputies := by
  intro s holds
  obtain ⟨kept, inside⟩ := associatedControl_inside calm stable there s holds
  refine ⟨kept, fun found t ended control same => ⟨inside found t ended control same, ?_⟩⟩
  obtain ⟨name, u, told, ended⟩ := bind_eq_ok.mp ended
  obtain rfl := (tagName_secures calm stable there s holds).2 name u told
  by_cases plain : (!(tag element == "label") && tag element != "span") = true
  · rw [if_pos plain] at ended
    obtain ⟨rfl, -⟩ := pure_eq_ok.mp ended
    cases same
  · have labels : tag element = "label" ∨ tag element = "span" := by
      simpa [Classical.or_iff_not_imp_left] using plain
    rcases labels with label | span
    · simp [deputies, label]
    · simp [deputies, span]

/-- Interacting with an element means that element, unless it stands for another one. -/
theorem interactionTarget_secures (there : here element) (choosing : Bool) :
    Secures P (interactionTarget page element choosing)
      fun target => here target ∧ (target = element ∨ tag element ∈ deputies) := by
  refine secures_bind (tagName_secures calm stable there) fun name same => ?_
  subst same
  by_cases option : (choosing && tag element == "option") = true
  · rw [if_pos option]
    have chooses : tag element ∈ deputies := by
      have named := eq_of_beq (Bool.and_eq_true_iff.mp option).2
      simp [deputies, named]
    exact secures_first (find_secures calm stable (inside_some there) .owningSelect "")
      (fun owner there => secures_pure ⟨there, Or.inr chooses⟩) (secures_throw _)
  · rw [if_neg option]
    refine secures_first (associatedControl_secures calm stable there) (fun control means => ?_)
      (secures_pure ⟨there, Or.inl rfl⟩)
    exact maintains_bind (calm.noting _) fun _ => secures_pure ⟨means.1, Or.inr means.2⟩

end Session

namespace Locator

variable {locator : Locator σ η ν} (calm : Calm locator.page P) (stable : locator.page.Stable here tag)
  {within : Option η}
include calm stable

theorem firstControl_secures {labels : List η} (there : ∀ label ∈ labels, here label) :
    Secures P (locator.firstControl labels) (Inside here) := by
  induction labels with
  | nil => exact secures_pure inside_none
  | cons label later ih =>
    obtain ⟨first, rest⟩ := List.forall_mem_cons.mp there
    exact secures_first (associatedControl_inside calm stable first)
      (fun _ there => secures_pure (inside_some there)) (ih rest)

theorem hit_secures (inner : ∀ w ∈ within, here w) (strategy : Strategy) (query : String) :
    Secures P (locator.hit strategy query within) (Inside here) := by
  refine secures_ite (secures_pure inside_none) (secures_ite ?_ (find_secures calm stable inner strategy query))
  exact secures_bind (findAll_secures calm stable inner strategy query) fun _ there =>
    firstControl_secures calm stable there

theorem firstHit_secures (inner : ∀ w ∈ within, here w) (query : String) (strategies : List Strategy) :
    Secures P (locator.firstHit query within strategies) (Inside here) := by
  induction strategies with
  | nil => exact secures_pure inside_none
  | cons strategy later ih =>
    refine secures_first (hit_secures calm stable inner strategy query) (fun element there => ?_) ih
    exact maintains_bind (calm.noting _) fun _ => secures_pure (inside_some there)

theorem search_secures (inner : ∀ w ∈ within, here w) (query : String) :
    Secures P (locator.search query within) (Inside here) :=
  firstHit_secures calm stable inner query Strategy.precedence

theorem searchUp_secures (query : String) {scope : Option η} (inner : ∀ anchor ∈ scope, here anchor) (levels : Nat) :
    Secures P (locator.searchUp query scope levels) (Inside here) := by
  induction levels generalizing scope with
  | zero => cases scope <;> exact secures_pure inside_none
  | succ levels ih =>
    cases scope with
    | none => exact secures_pure inside_none
    | some anchor =>
      refine secures_first (search_secures calm stable inner query)
        (fun _ there => secures_pure (inside_some there)) ?_
      exact secures_bind (parent_secures calm stable (inner anchor rfl)) fun above outer => ih outer

theorem searchPage_secures (query : String) (delays : List Float) :
    Secures P (locator.searchPage query delays) (Inside here) := by
  induction delays with
  | nil => exact secures_pure inside_none
  | cons delay later ih =>
    have searching : Secures P (locator.search query none) (Inside here) :=
      search_secures calm stable inside_none query
    have taken (element : η) (there : here element) :
        Secures P (pure (some element) : SessionM σ ν (Option η)) (Inside here) := secures_pure (inside_some there)
    refine secures_ite ?_ (secures_first searching taken ih)
    refine maintains_bind (calm.noting _) fun _ => maintains_bind (calm.pausing delay) fun _ => ?_
    exact secures_first searching taken ih

/-- What is located belongs to the document. -/
theorem resolve_secures (query : String) {scope : Option η} (inner : ∀ anchor ∈ scope, here anchor) :
    Secures P (locator.resolve query scope) here := by
  have taken (element : η) (there : here element) : Secures P (pure element : SessionM σ ν η) here :=
    secures_pure there
  refine secures_ite (secures_throw _) (secures_get_bind fun s _ => ?_)
  refine secures_first (searchUp_secures calm stable query inner _) taken ?_
  exact secures_first (searchPage_secures calm stable query _) taken (secures_throw _)

end Locator
end Locating
end Walkthrough
