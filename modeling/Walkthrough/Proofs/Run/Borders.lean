import Walkthrough.Proofs.Locate.Stable
import Walkthrough.Run.Perform

/-!
Borders on the elements of a page. A page can keep the borders that scripts have set (`Page.bordered`), and the
border of an element is the last one set on it. Marking an element as located takes the highlight from the one
before, and an interaction leaves it behind on an element that stands for another one; so all highlighted
elements stand for others, but for the one that is located (`Lit`).
-/
namespace Walkthrough

open Walkthrough.Action Session

variable {σ η ν α β : Type}

/-- The border that a successful script has set. -/
def Request.drawn : {α : Type} → Request η α → Except String α → List (η × String)
  | _, .setBorder element border, .ok () => [(element, border)]
  | _, _, _ => []

theorem Request.drawn_plain {r : Request η α} (plain : ¬ r.IsBorder) (result : Except String α) :
    r.drawn result = [] := by
  cases r with
  | setBorder element border => exact absurd trivial plain
  | _ => rfl

/-- The page, which keeps the borders that scripts have set, the latest first. -/
def Page.bordered (page : Page σ η ν) : Page (σ × List (η × String)) η ν where
  perform r answer s :=
    let reply := page.perform r answer s.1
    ⟨reply.result, reply.happenings, (reply.state, r.drawn reply.result ++ s.2)⟩
  sleep seconds answer s :=
    let (happenings, state) := page.sleep seconds answer s.1
    (happenings, (state, s.2))
  refuses := page.refuses
  levels s := page.levels s.1

theorem Page.bordered_extends (page : Page σ η ν) : page.bordered.Extends page where
  perform _ _ _ := ⟨_, rfl⟩
  sleep _ _ _ := ⟨_, rfl⟩
  refuses _ := rfl
  levels _ := rfl

theorem Page.Stable.withBorders {page : Page σ η ν} {here : η → Prop} {tag : η → String}
    (stable : page.Stable here tag) : page.bordered.Stable here tag where
  found inner told := stable.found inner told
  parent there told := stable.parent there told
  active told := stable.active told
  tagName there told := stable.tagName there told
  attached answer s there := stable.attached answer s.1 there
  bordered border answer s there := stable.bordered border answer s.1 there

namespace Session

variable {page : Page σ η ν} {P : List (η × String) → Prop}

theorem page_ask (page : Page σ η ν) (r : Request η α) (s : Session (σ × List (η × String)) ν) :
    (final (ask page.bordered r s)).page.2 =
      r.drawn (page.perform r s.dialogs.answer s.page.1).result ++ s.page.2 :=
  congrArg Prod.snd (page_absorbAll _ _)

/-- Only scripts that draw borders change the borders. -/
theorem calm_borders (page : Page σ η ν) (P : List (η × String) → Prop) :
    Calm page.bordered fun s : Session (σ × List (η × String)) ν => P s.page.2 where
  note _ holds := holds
  ask r plain s holds := by
    rw [page_ask, r.drawn_plain plain]
    exact holds
  pause seconds s holds := by
    rw [final_pause, page_absorbAll]
    change P (rested page.bordered seconds s).2
    unfold rested
    cases page.bordered.refuses seconds <;> exact holds
  dialogs _ holds := holds

end Session

section Marks

variable [DecidableEq η] {tag : η → String} {borders : List (η × String)} {element other : η}

/-- The last border that was set on the element is the highlight. -/
def Highlighted (borders : List (η × String)) (element : η) : Prop :=
  borders.lookup element = some Setup.highlightBorder

/-- All highlighted elements stand for others, but for this one. -/
def Marks (tag : η → String) (chosen : Option η) (borders : List (η × String)) : Prop :=
  ∀ element, Highlighted borders element → chosen = some element ∨ tag element ∈ deputies

theorem Marks.blank : Marks tag none [] := fun _ lit => by cases lit

theorem highlighted_cons_of_ne {border : String} (apart : other ≠ element) :
    Highlighted ((element, border) :: borders) other ↔ Highlighted borders other := by
  unfold Highlighted
  rw [List.lookup_cons, beq_eq_false_iff_ne.mpr apart]

theorem highlighted_cons_self {border : String} :
    Highlighted ((element, border) :: borders) element ↔ border = Setup.highlightBorder := by
  unfold Highlighted
  rw [List.lookup_cons, beq_self_eq_true]
  exact Option.some_inj

theorem Marks.cleared (marks : Marks tag (some element) borders) : Marks tag none ((element, "none") :: borders) := by
  intro other lit
  by_cases same : other = element
  · subst same
    exact absurd (highlighted_cons_self.mp lit) (by decide)
  · rcases marks other ((highlighted_cons_of_ne same).mp lit) with chosen | deputy
    · exact absurd (Option.some.inj chosen).symm same
    · exact Or.inr deputy

theorem Marks.drawn (marks : Marks tag none borders) :
    Marks tag (some element) ((element, Setup.highlightBorder) :: borders) := by
  intro other lit
  by_cases same : other = element
  · exact Or.inl (same ▸ rfl)
  · rcases marks other ((highlighted_cons_of_ne same).mp lit) with chosen | deputy
    · cases chosen
    · exact Or.inr deputy

theorem Marks.swapped (marks : Marks tag (some element) borders) (means : other = element ∨ tag element ∈ deputies) :
    Marks tag (some other) borders := by
  rcases means with rfl | deputy
  · exact marks
  · intro lit marked
    rcases marks lit marked with chosen | deputy'
    · exact Or.inr (Option.some.inj chosen ▸ deputy)
    · exact Or.inr deputy'

/-- What marking an element as located draws besides its highlight. -/
def cleared : Option (Located η) → List (η × String)
  | none => []
  | some previous => [(previous.element, "none")]

/-- Where the search is confined to an element and one is located, they belong to the document. All highlighted
elements stand for others, but for the one that is located, and it has always been so but for one element. -/
structure Lit (here : η → Prop) (tag : η → String) (m : Memory η) (borders : List (η × String)) : Prop where
  scope : ∀ anchor ∈ m.scope, here anchor
  located : ∀ slot ∈ m.located, here slot.element
  marks : Marks tag (m.located.map (·.element)) borders
  moments : ∀ past, past <:+ borders → ∃ chosen, Marks tag chosen past

namespace Lit

variable {here : η → Prop} {m m' : Memory η}

theorem fresh (row : Bindings) : Lit here tag { row } [] where
  scope := nofun
  located := nofun
  marks := Marks.blank
  moments past old := by
    rw [List.suffix_nil.mp old]
    exact ⟨none, Marks.blank⟩

theorem of_same (lit : Lit here tag m borders) (scope : m'.scope = m.scope) (located : m'.located = m.located) :
    Lit here tag m' borders where
  scope := scope ▸ lit.scope
  located := located ▸ lit.located
  marks := located ▸ lit.marks
  moments := lit.moments

theorem confine (lit : Lit here tag m borders) {scope : Option η} (there : ∀ anchor ∈ scope, here anchor) :
    Lit here tag { m with scope } borders := ⟨there, lit.located, lit.marks, lit.moments⟩

theorem swap (lit : Lit here tag m borders) {slot : Located η} (located : m.located = some slot) (there : here other)
    (means : other = slot.element ∨ tag slot.element ∈ deputies) :
    Lit here tag { m with located := some ⟨other, slot.query⟩ } borders where
  scope := lit.scope
  located := fun _ same => Option.some.inj same ▸ there
  marks := by
    have marks := lit.marks
    rw [located] at marks
    exact marks.swapped means
  moments := lit.moments

theorem clear (lit : Lit here tag m borders) : Marks tag none (cleared m.located ++ borders) := by
  have marks := lit.marks
  cases located : m.located with
  | none =>
    rw [located] at marks
    exact marks
  | some previous =>
    rw [located] at marks
    exact Marks.cleared marks

theorem draw (lit : Lit here tag m borders) (there : here element) (query : String) :
    Lit here tag { m with located := some ⟨element, query⟩ }
      ((element, Setup.highlightBorder) :: (cleared m.located ++ borders)) where
  scope := lit.scope
  located := fun _ same => Option.some.inj same ▸ there
  marks := Marks.drawn lit.clear
  moments past old := by
    rcases List.suffix_cons_iff.mp old with rfl | old
    · exact ⟨some element, Marks.drawn lit.clear⟩
    · cases located : m.located with
      | none =>
        rw [located] at old
        exact lit.moments past old
      | some previous =>
        have clear := lit.clear
        rw [located] at old clear
        rcases List.suffix_cons_iff.mp old with rfl | old
        · exact ⟨none, clear⟩
        · exact lit.moments past old

end Lit
end Marks

end Walkthrough
