import Walkthrough.Proofs.Locate.FirstHit

/-!
What an interaction with an element means. Of the ways from a label to its control, the expressions for controls
lead to form controls as long as the page answers them so; only the way by the name that a label gives may lead
to anything that bears that name (`Document.control_eq_some_iff`). So an interaction means the element itself, or
a form control, or what the label names, and what is meant by that is the same again, unless it has been named
and is itself a label (`Display.interactions_settle`).
-/
namespace Walkthrough

open Walkthrough.Action

namespace Document

variable {η : Type} {document : Document η} {element control : η}

def formControls : List String := ["input", "textarea", "select"]

/-- The expressions for controls find form controls only. -/
def OffersControls (document : Document η) : Prop :=
  ∀ strategy ∈ [Strategy.controlInside, .controlAfter], ∀ element,
    ∀ control ∈ document.matching strategy "" (some element), document.tag control ∈ formControls

/-- What a label names as its control. -/
def pointed (document : Document η) (label : η) : List η :=
  document.named (Text.trimmed ((document.attributeValue label "for").getD ""))

/-- A label with no control inside goes by the name that it gives, and this is the first with that name. -/
structure Names (document : Document η) (element control : η) : Prop where
  label : document.tag element = "label"
  hollow : document.inside element = []
  first : (document.pointed element).head? = some control

/-- What an interaction with the element means. -/
def meant (document : Document η) (element : η) : η := (document.control element).getD element

theorem controls_of_label (label : document.tag element = "label") :
    document.controls element = document.inside element ++ (document.pointed element ++
      (document.behind element ++ document.around element Session.containerDepth)) := if_pos label

theorem controls_of_span (span : document.tag element = "span") :
    document.controls element = document.inside element ++ document.behind element := by
  unfold controls
  rw [if_neg (by rw [span]; decide), if_pos span]

theorem control_eq_none (plain : document.tag element ∉ ["label", "span"]) : document.control element = none := by
  have noLabel : document.tag element ≠ "label" := fun label => plain (by simp [label])
  have noSpan : document.tag element ≠ "span" := fun span => plain (by simp [span])
  unfold Document.control controls
  rw [if_neg noLabel, if_neg noSpan]
  rfl

theorem control_of_names (names : document.Names element control) : document.control element = some control := by
  unfold Document.control
  rw [controls_of_label names.label, names.hollow, List.nil_append, List.head?_append, names.first]
  rfl

theorem not_label_of_formControl (among : document.tag control ∈ formControls) :
    document.tag control ∉ ["label", "span"] := by
  intro label
  have apart : ∀ tag ∈ formControls, tag ∉ ["label", "span"] := by decide
  exact apart _ among label

section Offers

variable (offers : document.OffersControls)
include offers

theorem inside_offers : ∀ control ∈ document.inside element, document.tag control ∈ formControls :=
  fun control among => offers .controlInside (by simp) element control (List.mem_filter.mp among).1

theorem behind_offers : ∀ control ∈ document.behind element, document.tag control ∈ formControls :=
  fun control among => offers .controlAfter (by simp) element control (List.mem_filter.mp among).1

theorem around_offers (depth : Nat) :
    ∀ control ∈ document.around element depth, document.tag control ∈ formControls := by
  intro control among
  obtain ⟨container, -, within⟩ := List.mem_flatMap.mp among
  exact inside_offers offers control within

/-- A control is a form control, or else the label names it. -/
theorem formControl_or_names (belongs : document.control element = some control) :
    document.tag control ∈ formControls ∨ document.Names element control := by
  unfold Document.control at belongs
  by_cases label : document.tag element = "label"
  · rw [controls_of_label label, List.head?_append, Option.or_eq_some_iff, List.head?_append,
      Option.or_eq_some_iff] at belongs
    rcases belongs with inside | ⟨hollow, pointed | ⟨-, near⟩⟩
    · exact Or.inl (inside_offers offers _ (List.mem_of_head? inside))
    · exact Or.inr ⟨label, List.head?_eq_none_iff.mp hollow, pointed⟩
    · rcases List.mem_append.mp (List.mem_of_head? near) with behind | around
      · exact Or.inl (behind_offers offers _ behind)
      · exact Or.inl (around_offers offers _ _ around)
  · by_cases span : document.tag element = "span"
    · rw [controls_of_span span] at belongs
      rcases List.mem_append.mp (List.mem_of_head? belongs) with inside | behind
      · exact Or.inl (inside_offers offers _ inside)
      · exact Or.inl (behind_offers offers _ behind)
    · have none_ : document.control element = none := control_eq_none (by simp [label, span])
      exact absurd (none_.symm.trans belongs) nofun

/-- What is no form control belongs to an element exactly if it is a label that names it. -/
theorem control_eq_some_iff (other : document.tag control ∉ formControls) :
    document.control element = some control ↔ document.Names element control :=
  ⟨fun belongs => (formControl_or_names offers belongs).resolve_left other, control_of_names⟩

theorem meant_cases (element : η) :
    document.meant element = element ∨ document.tag (document.meant element) ∈ formControls ∨
      document.Names element (document.meant element) := by
  unfold meant
  cases belongs : document.control element with
  | none => exact Or.inl rfl
  | some control => exact Or.inr (formControl_or_names offers belongs)

theorem meant_meant (element : η) :
    document.meant (document.meant element) = document.meant element ∨
      document.Names element (document.meant element) ∧
        document.tag (document.meant element) ∈ ["label", "span"] := by
  have kept (plain : document.tag (document.meant element) ∉ ["label", "span"]) :
      document.meant (document.meant element) = document.meant element := by
    change (document.control (document.meant element)).getD _ = _
    rw [control_eq_none plain]
    rfl
  rcases meant_cases offers element with same | control | named
  · exact Or.inl (congrArg document.meant same)
  · exact Or.inl (kept (not_label_of_formControl control))
  · by_cases label : document.tag (document.meant element) ∈ ["label", "span"]
    · exact Or.inr ⟨named, label⟩
    · exact Or.inl (kept label)

end Offers
end Document

namespace Display

variable {σ η ν ω : Type} {page : Page σ η ν} {display : Display page ω} {v : ω}

theorem interactionTarget_reads (element : η) :
    display.Reads v (Session.interactionTarget page element false) ((display.document v).meant element) := by
  unfold Session.interactionTarget Document.meant
  refine reads_bind (tagName_reads element) ?_
  simp only [Bool.false_and, Bool.false_eq_true, if_false]
  refine reads_bind (associatedControl_reads element) ?_
  cases (display.document v).control element with
  | none => exact reads_pure element
  | some control => exact reads_bind (reads_note _) (reads_pure control)

/-- Where the expressions for controls find form controls only: what belongs to an element is a form control, or
else exactly what a label names. An interaction means the element itself, or a form control, or what the label
names. What an interaction with that means is the same again, unless a label names another label or a span. -/
theorem interactions_settle (display : Display page ω) (v : ω) (offers : (display.document v).OffersControls)
    (element : η) :
    let document := display.document v
    let target := document.meant element
    display.Reads v (Session.associatedControl page element) (document.control element) ∧
      (∀ control, document.tag control ∉ Document.formControls →
        (document.control element = some control ↔ document.Names element control)) ∧
      display.Reads v (Session.interactionTarget page element false) target ∧
      (target = element ∨ document.tag target ∈ Document.formControls ∨ document.Names element target) ∧
      display.Reads v (Session.interactionTarget page target false) (document.meant target) ∧
      (document.meant target = target ∨
        document.Names element target ∧ document.tag target ∈ ["label", "span"]) :=
  ⟨associatedControl_reads element, fun _ other => Document.control_eq_some_iff offers other,
    interactionTarget_reads element, Document.meant_cases offers element, interactionTarget_reads _,
    Document.meant_meant offers element⟩

end Display

/-- A page that shows this document and never changes. -/
def Document.still {η : Type} (document : Document η) (levels : Nat) : Page Unit η Unit where
  perform r _ s :=
    match r with
    | .query within xpath => ⟨.ok (document.found within xpath), [], s⟩
    | .isVisible element => ⟨.ok (document.visible element), [], s⟩
    | .parent element => ⟨.ok (document.parent element), [], s⟩
    | .tagName element => ⟨.ok (document.tag element), [], s⟩
    | .attributeValue element name => ⟨.ok (document.attributeValue element name), [], s⟩
    | _ => ⟨.error "not to be touched", [], s⟩
  sleep _ _ s := ([], s)
  levels _ := levels

def Document.display {η : Type} (document : Document η) (levels : Nat)
    (bounded : ∀ {element chain}, Ancestry document element chain → chain.length ≤ levels) :
    Display (document.still levels) Unit where
  view s := s
  document _ := document
  rest _ _ s := s
  levels_suffice _ _ _ := bounded
  view_perform r _ _ _ := by cases r <;> rfl
  view_sleep _ _ _ := rfl
  query_answer _ _ _ _ := rfl
  visible_answer _ _ _ := rfl
  parent_answer _ _ _ := rfl
  tag_answer _ _ _ := rfl
  attribute_answer _ _ _ _ := rfl

inductive FormPart where
  | outer
  | inner
  | box
  deriving DecidableEq

/-- A label, and another one around an input. The first label names the second. -/
def labelOfLabel : Document FormPart where
  found
    | none, xpath => if xpath = "//*[@id='inner']" then [.inner] else []
    | some .inner, xpath => if xpath = ".//*[self::input or self::textarea or self::select]" then [.box] else []
    | some _, _ => []
  visible _ := true
  parent
    | .box => some .inner
    | _ => none
  tag
    | .outer | .inner => "label"
    | .box => "input"
  attributeValue
    | .outer, _ => some "inner"
    | _, _ => none

theorem labelOfLabel_found {element control : FormPart} {xpath : String}
    (found : control ∈ labelOfLabel.found (some element) xpath) : control = .box := by
  cases element with
  | inner =>
    change control ∈ (if xpath = _ then [FormPart.box] else []) at found
    split at found
    · exact List.mem_singleton.mp found
    · cases found
  | outer => cases found
  | box => cases found

theorem labelOfLabel_offers : labelOfLabel.OffersControls := by
  intro strategy _ element control found
  unfold Document.matching at found
  split at found
  · cases found
  · cases found
  · rw [labelOfLabel_found found]
    decide

theorem labelOfLabel_levels {element : Option FormPart} {chain : List FormPart}
    (ancestry : Ancestry labelOfLabel element chain) : chain.length ≤ 2 := by
  have top {element : FormPart} {chain : List FormPart} (alone : labelOfLabel.parent element = none)
      (ancestry : Ancestry labelOfLabel (some element) chain) : chain.length = 1 := by
    cases ancestry with
    | step _ chain above =>
      rw [alone] at above
      cases above
      rfl
  cases ancestry with
  | root => exact Nat.zero_le 2
  | step element chain above =>
    cases element with
    | box => exact Nat.succ_le_succ (Nat.le_of_eq (top rfl above))
    | _ => exact Nat.le_succ_of_le (Nat.le_of_eq (top rfl (.step _ chain above)))

def labelOfLabelDisplay : Display (labelOfLabel.still 2) Unit := labelOfLabel.display 2 labelOfLabel_levels

/-- Pressing the label around the input means the input, and pressing the input means the input. -/
theorem interactions_settle_inner :
    labelOfLabel.OffersControls ∧
      labelOfLabelDisplay.Reads () (Session.interactionTarget (labelOfLabel.still 2) .inner false) .box ∧
      labelOfLabelDisplay.Reads () (Session.interactionTarget (labelOfLabel.still 2) .box false) .box := by
  have named : labelOfLabel.meant .inner = .box := by decide +kernel
  have kept : labelOfLabel.meant .box = .box := by decide +kernel
  obtain ⟨-, -, meant, -, meantAgain, -⟩ :=
    labelOfLabelDisplay.interactions_settle () labelOfLabel_offers .inner
  change labelOfLabelDisplay.Reads () _ (labelOfLabel.meant .inner) at meant
  change labelOfLabelDisplay.Reads () (Session.interactionTarget _ (labelOfLabel.meant .inner) false)
    (labelOfLabel.meant (labelOfLabel.meant .inner)) at meantAgain
  rw [named] at meant meantAgain
  rw [kept] at meantAgain
  exact ⟨labelOfLabel_offers, meant, meantAgain⟩

/-- What belongs to the first label is the second label, which is no form control; pressing the first label means
the second one, and pressing that means the input in it. -/
theorem label_of_label_strays :
    labelOfLabel.OffersControls ∧
      labelOfLabelDisplay.Reads () (Session.associatedControl (labelOfLabel.still 2) .outer) (some .inner) ∧
      labelOfLabel.tag .inner ∉ Document.formControls ∧
      labelOfLabelDisplay.Reads () (Session.interactionTarget (labelOfLabel.still 2) .outer false) .inner ∧
      labelOfLabelDisplay.Reads () (Session.interactionTarget (labelOfLabel.still 2) .inner false) .box := by
  have belongs : labelOfLabel.control .outer = some .inner := by decide +kernel
  have named : labelOfLabel.meant .inner = .box := by decide +kernel
  have associated : labelOfLabelDisplay.Reads () _ (labelOfLabel.control .outer) :=
    Display.associatedControl_reads FormPart.outer
  have meant : labelOfLabelDisplay.Reads () _ (labelOfLabel.meant .outer) :=
    Display.interactionTarget_reads FormPart.outer
  have meantAgain : labelOfLabelDisplay.Reads () _ (labelOfLabel.meant .inner) :=
    Display.interactionTarget_reads FormPart.inner
  rw [belongs] at associated
  rw [Document.meant, belongs] at meant
  rw [named] at meantAgain
  exact ⟨labelOfLabel_offers, associated, by decide, meant, meantAgain⟩

end Walkthrough
