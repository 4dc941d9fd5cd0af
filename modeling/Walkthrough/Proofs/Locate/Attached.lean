import Walkthrough.Proofs.Locate.FirstHit

/-!
Elements that belong to the document that is shown. Whatever a search finds in the page, or in an element that
belongs to the document, belongs to it too; so the element that is located does, as long as the search is not
confined to one that was left behind (`Locator.resolve_attached`).
-/
namespace Walkthrough

open Walkthrough.Action

variable {σ η ν ω : Type} {page : Page σ η ν}

/-- Which elements belong to the document that is shown in a view. The page is always told, and asking changes no
view. What is found in the page or in such an element belongs to the document, and so do the ancestors of such an
element, which come to an end. -/
structure Attachment (display : Display page ω) where
  attached : ω → η → Bool
  view_isAttached (element : η) (answer : Answer) (s : σ) :
    display.view (page.perform (.isAttached element) answer s).state = display.view s
  attached_answer (element : η) (answer : Answer) (s : σ) :
    (page.perform (.isAttached element) answer s).result = .ok (attached (display.view s) element)
  found_inside {v : ω} {within : Option η} {xpath : String} (belongs : ∀ w ∈ within, attached v w = true) :
    ∀ element ∈ (display.document v).found within xpath, attached v element = true
  parent_attached {v : ω} {element : η} (belongs : attached v element = true) :
    ∀ above ∈ (display.document v).parent element, attached v above = true
  ancestry {v : ω} {element : η} (belongs : attached v element = true) :
    ∃ chain, Ancestry (display.document v) (some element) chain

namespace Attachment

variable {display : Display page ω} (attachment : Attachment display) {v : ω} {within : Option η} {element : η}

theorem candidates (belongs : ∀ w ∈ within, attachment.attached v w = true) (strategy : Strategy) (value : String) :
    ∀ e ∈ (display.document v).candidates strategy value within, attachment.attached v e = true := by
  intro e among
  have matched := (List.mem_filter.mp among).1
  unfold Document.matching at matched
  split at matched
  · cases matched
  · cases matched
  · exact attachment.found_inside belongs e matched

theorem inside (belongs : attachment.attached v element = true) :
    ∀ e ∈ (display.document v).inside element, attachment.attached v e = true :=
  attachment.candidates (by simpa using belongs) .controlInside ""

theorem behind (belongs : attachment.attached v element = true) :
    ∀ e ∈ (display.document v).behind element, attachment.attached v e = true :=
  attachment.candidates (by simpa using belongs) .controlAfter ""

theorem named (name : String) : ∀ e ∈ (display.document v).named name, attachment.attached v e = true := by
  intro e among
  unfold Document.named at among
  split at among
  · cases among
  · rcases List.mem_append.mp among with first | second
    · exact attachment.candidates (by simp) .id name e first
    · exact attachment.candidates (by simp) .name name e second

theorem containers (belongs : attachment.attached v element = true) (depth : Nat) :
    ∀ e ∈ (display.document v).containers element depth, attachment.attached v e = true := by
  induction depth generalizing element with
  | zero => exact List.forall_mem_nil _
  | succ depth ih =>
    intro e among
    unfold Document.containers at among
    split at among
    · cases among
    · next container above =>
      have outer := attachment.parent_attached belongs container above
      rcases List.mem_cons.mp among with rfl | further
      · exact outer
      · exact ih outer e further

theorem controls (belongs : attachment.attached v element = true) :
    ∀ e ∈ (display.document v).controls element, attachment.attached v e = true := by
  have around : ∀ e ∈ (display.document v).around element Session.containerDepth, attachment.attached v e = true := by
    intro e among
    obtain ⟨container, outer, within⟩ := List.mem_flatMap.mp among
    exact attachment.inside (attachment.containers belongs _ container outer) e within
  intro e among
  unfold Document.controls at among
  split at among
  · rcases List.mem_append.mp among with wrapped | among
    · exact attachment.inside belongs e wrapped
    rcases List.mem_append.mp among with pointed | among
    · exact attachment.named _ e pointed
    rcases List.mem_append.mp among with following | outer
    · exact attachment.behind belongs e following
    · exact around e outer
  · split at among
    · rcases List.mem_append.mp among with wrapped | following
      · exact attachment.inside belongs e wrapped
      · exact attachment.behind belongs e following
    · cases among

theorem hits (belongs : ∀ w ∈ within, attachment.attached v w = true) (query : String) :
    ∀ e ∈ (display.document v).hits query within, attachment.attached v e = true := by
  intro e among
  obtain ⟨strategy, -, among⟩ := List.mem_flatMap.mp among
  unfold Document.hitsBy at among
  split at among
  · obtain ⟨label, candidate, control⟩ := List.mem_filterMap.mp among
    exact attachment.controls (attachment.candidates belongs strategy query label candidate) e
      (List.mem_of_head? control)
  · exact attachment.candidates belongs strategy query e among

theorem chain {scope : Option η} {chain : List η} (ancestry : Ancestry (display.document v) scope chain)
    (belongs : ∀ anchor ∈ scope, attachment.attached v anchor = true) :
    ∀ e ∈ chain, attachment.attached v e = true := by
  induction ancestry with
  | root => exact List.forall_mem_nil _
  | step element chain above ih =>
    have own : attachment.attached v element = true := belongs element rfl
    exact List.forall_mem_cons.mpr ⟨own, ih (attachment.parent_attached own)⟩

theorem exists_ancestry {scope : Option η} (belongs : ∀ anchor ∈ scope, attachment.attached v anchor = true) :
    ∃ chain, Ancestry (display.document v) scope chain := by
  cases scope with
  | none => exact ⟨[], .root⟩
  | some anchor => exact attachment.ancestry (belongs anchor rfl)

theorem isAttached_tells (element : η) (s : Session σ ν) :
    ∃ t, Session.isAttached page element s = .ok (attachment.attached (display.view s.page) element) t ∧
      display.view t.page = display.view s.page := by
  let reply := page.perform (.isAttached element) s.dialogs.answer s.page
  have kept := (Display.absorbAll_kept reply.happenings { s with page := reply.state }).1
  refine ⟨({ s with page := reply.state } : Session σ ν).absorbAll reply.happenings, ?_, ?_⟩
  · have asked : Session.ask page (.isAttached element) s = .ok reply.result _ := rfl
    unfold Session.isAttached
    rw [bind_of_ok asked, attachment.attached_answer]
    rfl
  · rw [kept]
    exact attachment.view_isAttached element s.dialogs.answer s.page

/-- The hit of a search after a delay belongs to what is shown when the search ends. -/
theorem hitsInTime (query : String) (answer : Answer) (delays : List Float) (v : ω) :
    ∀ e ∈ (display.hitsInTime query answer delays v).head?,
      attachment.attached ((display.spent query answer delays v).foldl (display.after answer) v) e = true := by
  induction delays generalizing v with
  | nil =>
    intro e first
    cases first
  | cons delay later ih =>
    intro e first
    have unfolded : display.hitsInTime query answer (delay :: later) v =
        (display.document (display.after answer v delay)).hits query none ++
          display.hitsInTime query answer later (display.after answer v delay) := by
      simp [Display.hitsInTime, Display.tries]
    rw [unfolded] at first
    cases hit : (display.document (display.after answer v delay)).hits query none with
    | nil =>
      rw [hit, List.nil_append] at first
      rw [display.spent_of_no_hit hit]
      exact ih _ e first
    | cons found more =>
      rw [hit] at first
      obtain rfl : found = e := Option.some.inj first
      rw [display.spent_of_hit hit]
      exact attachment.hits (by simp) query found (hit ▸ List.mem_cons_self)

end Attachment

/-- The element that is located belongs to the document that is then shown, unless the search was confined to one
that did not. -/
theorem Locator.resolve_attached {locator : Locator σ η ν} {display : Display locator.page ω}
    (attachment : Attachment display) {query : String} {scope : Option η} {s t : Session σ ν} {element : η}
    (belongs : ∀ anchor ∈ scope, attachment.attached (display.view s.page) anchor = true)
    (located : locator.resolve query scope s = .ok element t) :
    attachment.attached (display.view t.page) element = true := by
  cases blank : Text.allBlank query.toList with
  | true =>
    rw [locator.resolve_of_blank blank] at located
    cases located
  | false =>
    obtain ⟨chain, ancestry⟩ := attachment.exists_ancestry belongs
    obtain ⟨u, resolved, shown⟩ := locator.resolve_of_filled blank ancestry
    rw [resolved] at located
    have allowed := Locator.made_of_first located
    rw [allowed.1] at located
    rw [allowed.2] at shown
    unfold Display.meanings at located
    cases along : display.hitsAlong query chain (display.view s.page) with
    | cons first more =>
      rw [along] at located
      cases located
      obtain ⟨anchor, outer, hit⟩ := List.mem_flatMap.mp (along ▸ List.mem_cons_self :
        element ∈ display.hitsAlong query chain (display.view s.page))
      -- A hit on the way up is found before any delay, so what is shown is still the same.
      have own := attachment.chain ancestry belongs anchor outer
      rw [shown, Display.delaysSpent, along]
      exact attachment.hits (by simpa using own) query element hit
    | nil =>
      rw [along, List.nil_append] at located
      have delayed : display.delaysSpent query chain s.dialogs.answer locator.attempts (display.view s.page) =
          display.spent query s.dialogs.answer locator.attempts (display.view s.page) := by
        rw [Display.delaysSpent, along]
        rfl
      rw [delayed] at shown
      have belonging := attachment.hitsInTime query s.dialogs.answer locator.attempts (display.view s.page)
      cases inTime : display.hitsInTime query s.dialogs.answer locator.attempts (display.view s.page) with
      | nil =>
        rw [inTime] at located
        cases located
      | cons first more =>
        rw [inTime] at located belonging
        cases located
        rw [shown]
        exact belonging element rfl

end Walkthrough
