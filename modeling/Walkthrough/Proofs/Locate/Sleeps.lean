import Walkthrough.Proofs.Locate.FirstHit
import Walkthrough.Proofs.Session.Extended

/-!
When a page sleeps while an element is located. Over a page that also keeps a list, each sleep is written
down. This changes nothing else (`resolve_mirrors`), and the list is in the view of such a page, so what
becomes of the view tells the sleeps: they are the positive delays of the searches made.
-/
namespace Walkthrough

open Walkthrough.Action

variable {σ η ν ω : Type}

/-- The page, with a list of the times for which it has slept. -/
def Page.timed (page : Page σ η ν) : Page (σ × List Float) η ν where
  perform r answer s :=
    let reply := page.perform r answer s.1
    ⟨reply.result, reply.happenings, (reply.state, s.2)⟩
  sleep seconds answer s :=
    let (happenings, state) := page.sleep seconds answer s.1
    (happenings, (state, s.2 ++ [seconds]))
  refuses := page.refuses
  levels s := page.levels s.1

def Locator.timed (locator : Locator σ η ν) : Locator (σ × List Float) η ν :=
  { locator with page := locator.page.timed }

theorem Page.timed_extends (page : Page σ η ν) : page.timed.Extends page where
  perform _ _ s := ⟨s.2, rfl⟩
  sleep _ _ _ := ⟨_, rfl⟩
  refuses _ := rfl
  levels _ := rfl

theorem Locator.resolve_mirrors (locator : Locator σ η ν) (query : String) (scope : Option η) :
    Mirrors Session.bare (locator.timed.resolve query scope) (locator.resolve query scope) :=
  mirrors_of_alike Iff.rfl (resolve_alike (Session.tied_bares locator.page.timed_extends) query scope)

namespace Display

def timed {page : Page σ η ν} (display : Display page ω) : Display page.timed (ω × List Float) where
  view s := (display.view s.1, s.2)
  document v := display.document v.1
  rest seconds answer v := (display.rest seconds answer v.1, v.2 ++ [seconds])
  levels_suffice s := display.levels_suffice s.1
  view_perform r answer s looks := congrArg (·, s.2) (display.view_perform r answer s.1 looks)
  view_sleep seconds answer s :=
    congrArg (·, s.2 ++ [seconds]) (display.view_sleep seconds answer s.1)
  query_answer within xpath answer s := display.query_answer within xpath answer s.1
  visible_answer element answer s := display.visible_answer element answer s.1
  parent_answer element answer s := display.parent_answer element answer s.1
  tag_answer element answer s := display.tag_answer element answer s.1
  attribute_answer element name answer s := display.attribute_answer element name answer s.1

variable {page : Page σ η ν} (display : Display page ω)

theorem after_timed (answer : Answer) (v : ω) (log : List Float) (delay : Float) :
    display.timed.after answer (v, log) delay =
      (display.after answer v delay, log ++ [delay].filter (0 < ·)) := by
  unfold after
  by_cases positive : 0 < delay
  · simp [positive, timed]
  · simp [positive]

theorem tries_timed (answer : Answer) (delays : List Float) (v : ω) (log : List Float) :
    (display.timed.tries answer delays (v, log)).map Prod.fst = display.tries answer delays v := by
  induction delays generalizing v log with
  | nil => rfl
  | cons delay later ih =>
    unfold tries
    rw [after_timed, List.map_cons, ih]

theorem hitsInTime_timed (query : String) (answer : Answer) (delays : List Float) (v : ω)
    (log : List Float) :
    display.timed.hitsInTime query answer delays (v, log) =
      display.hitsInTime query answer delays v := by
  unfold hitsInTime
  rw [← display.tries_timed answer delays v log, List.flatMap_map]
  rfl

theorem spent_timed (query : String) (answer : Answer) (delays : List Float) (v : ω) (log : List Float) :
    display.timed.spent query answer delays (v, log) = display.spent query answer delays v := by
  unfold spent
  rw [← display.tries_timed answer delays v log]
  simp only [List.takeWhile_map, List.length_map]
  rfl

theorem meanings_timed (query : String) (chain : List η) (answer : Answer) (delays : List Float) (v : ω)
    (log : List Float) :
    display.timed.meanings query chain answer delays (v, log) =
      display.meanings query chain answer delays v := by
  unfold meanings
  rw [hitsInTime_timed]
  rfl

theorem delaysSpent_timed (query : String) (chain : List η) (answer : Answer) (delays : List Float) (v : ω)
    (log : List Float) :
    display.timed.delaysSpent query chain answer delays (v, log) =
      display.delaysSpent query chain answer delays v := by
  unfold delaysSpent
  rw [spent_timed]
  rfl

theorem foldl_timed (answer : Answer) (delays : List Float) (v : ω) (log : List Float) :
    delays.foldl (display.timed.after answer) (v, log) =
      (delays.foldl (display.after answer) v, log ++ delays.filter (0 < ·)) := by
  induction delays generalizing v log with
  | nil => simp
  | cons delay later ih =>
    rw [List.foldl_cons, after_timed, ih, List.foldl_cons, List.append_assoc, ← List.filter_append]
    rfl

end Display

theorem Locator.mapState_first (query : String) (refused : Option PauseFault) (hits : List η)
    (t : Session (σ × List Float) ν) :
    mapState Session.bare (first query refused hits t) = first query refused hits t.bare := by
  cases refused with
  | some refusal => rfl
  | none => cases hits <;> rfl

/-- A blank description means nothing, and the page is not even looked at. Any other means the first of
its hits in the scope, then in one ancestor after the other, then in the whole page after each delay,
and nothing if there is none; the page sleeps for those delays alone that a search is made after. Where it
refuses one of them, that is the end, and it has slept for those before. -/
theorem Locator.resolve_eq_first (locator : Locator σ η ν) (display : Display locator.page ω)
    (query : String) (scope : Option η) (chain : List η) (s : Session σ ν)
    (ancestry : Ancestry (display.document (display.view s.page)) scope chain) :
    let v := display.view s.page
    let meanings := display.meanings query chain s.dialogs.answer locator.attempts v
    let delays := display.delaysSpent query chain s.dialogs.answer locator.attempts v
    let refused := locator.refused delays
    if Text.allBlank query.toList then locator.resolve query scope s = .error (.failure (.notLocated query)) s
    else ∃ t : Session (σ × List Float) ν,
      locator.resolve query scope s = first query refused meanings t.bare ∧
      locator.timed.resolve query scope (s.keeping []) = first query refused meanings t ∧
      display.view t.bare.page = (locator.made delays).foldl (display.after s.dialogs.answer) v ∧
      t.page.2 = (locator.made delays).filter (0 < ·) := by
  intro v meanings delays refused
  cases blank : Text.allBlank query.toList with
  | true => exact locator.resolve_of_blank blank scope s
  | false =>
    have shown : Ancestry (display.timed.document (display.timed.view (s.keeping []).page)) scope chain := ancestry
    obtain ⟨t, resolved, view⟩ := locator.timed.resolve_of_filled blank shown
    have told := display.meanings_timed query chain s.dialogs.answer locator.attempts v []
    have waited := display.delaysSpent_timed query chain s.dialogs.answer locator.attempts v []
    have timed : locator.timed.resolve query scope (s.keeping []) = first query refused meanings t :=
      resolved.trans (congr (congrArg (first query ·) (congrArg locator.refused waited)) told ▸ rfl)
    have plain : locator.resolve query scope s = first query refused meanings t.bare := by
      rw [← mapState_first, ← timed]
      exact (locator.resolve_mirrors query scope (s.keeping [])).symm
    have slept : display.timed.view t.page =
        (locator.made delays).foldl (display.timed.after s.dialogs.answer) (v, []) :=
      view.trans (congrArg (fun delays => List.foldl _ _ (locator.made delays)) waited)
    rw [display.foldl_timed, List.nil_append] at slept
    exact ⟨t, plain, timed, congrArg Prod.fst slept, congrArg Prod.snd slept⟩

/-- A root and one element in it, which any search of the whole page finds. -/
def twoElements : Document Bool where
  found within _ := if within.isSome then [] else [true]
  visible _ := true
  parent
    | true => some false
    | false => none
  tag _ := "div"
  attributeValue _ _ := none

def stillPage : Page Unit Bool Unit where
  perform r _ s :=
    match r with
    | .query within xpath => ⟨.ok (twoElements.found within xpath), [], s⟩
    | .isVisible element => ⟨.ok (twoElements.visible element), [], s⟩
    | .parent element => ⟨.ok (twoElements.parent element), [], s⟩
    | .tagName element => ⟨.ok (twoElements.tag element), [], s⟩
    | .attributeValue element name => ⟨.ok (twoElements.attributeValue element name), [], s⟩
    | _ => ⟨.error "not to be touched", [], s⟩
  sleep _ _ s := ([], s)
  refuses _ := none
  levels _ := 2

theorem twoElements_levels {element : Option Bool} {chain : List Bool}
    (ancestry : Ancestry twoElements element chain) : chain.length ≤ 2 := by
  have root : ∀ {chain}, Ancestry twoElements none chain → chain = [] := fun h => by cases h; rfl
  cases ancestry with
  | root => exact Nat.zero_le 2
  | step element chain above =>
    cases element with
    | false =>
      rw [root above]
      exact Nat.le_succ 1
    | true =>
      cases above with
      | step _ chain above =>
        rw [root above]
        exact Nat.le_refl 2

def stillDisplay : Display stillPage Unit where
  view s := s
  document _ := twoElements
  rest _ _ s := s
  levels_suffice _ _ _ := twoElements_levels
  view_perform _ _ _ _ := rfl
  view_sleep _ _ _ := rfl
  query_answer _ _ _ _ := rfl
  visible_answer _ _ _ := rfl
  parent_answer _ _ _ := rfl
  tag_answer _ _ _ := rfl
  attribute_answer _ _ _ _ := rfl

theorem twoElements_hits_inside (query : String) (element : Bool) :
    twoElements.hits query (some element) = [] := by
  have none_matches (strategy : Strategy) :
      twoElements.matching strategy query (some element) = [] := by
    unfold Document.matching
    split <;> rfl
  simp [Document.hits, Document.hitsBy, Document.candidates, none_matches]

theorem resolve_eq_first_still :
    Ancestry twoElements (some true) [true, false] ∧
      ∃ t : Session (Unit × List Float) Unit,
        Locator.resolve ⟨stillPage, [2]⟩ "x" (some true) { page := () } = .ok true t.bare ∧
        (Locator.timed ⟨stillPage, [2]⟩).resolve "x" (some true) (Session.keeping { page := () } []) =
          .ok true t ∧ t.page.2 = [2].filter (0 < ·) := by
  have ancestry : Ancestry twoElements (some true) [true, false] := .step true [false] (.step false [] .root)
  have first := Locator.resolve_eq_first ⟨stillPage, [2]⟩ stillDisplay "x" (some true) [true, false]
    { page := () } ancestry
  have filled : Text.allBlank "x".toList = false := by decide
  have along : stillDisplay.hitsAlong "x" [true, false] () = [] := by
    simp [Display.hitsAlong, stillDisplay, twoElements_hits_inside]
  obtain ⟨later, hit⟩ : ∃ later, twoElements.hits "x" none = true :: later := ⟨_, rfl⟩
  have meanings : stillDisplay.meanings "x" [true, false] .accept [2] () = true :: later := by
    rw [Display.meanings, along, List.nil_append, ← List.append_nil (true :: later), ← hit]
    rfl
  have delays : stillDisplay.delaysSpent "x" [true, false] .accept [2] () = [2] := by
    rw [Display.delaysSpent, along]
    have awake : (stillDisplay.document (stillDisplay.after .accept () 2)).hits "x" none =
      true :: later := hit
    exact stillDisplay.spent_of_hit awake
  simp only [filled, Bool.false_eq_true, if_false] at first
  obtain ⟨t, plain, timed, -, slept⟩ := first
  have willing : Locator.refusal? ⟨stillPage, [2]⟩ 2 = none := ite_self none
  obtain ⟨made, refused⟩ := Locator.cut_of_made willing []
  refine ⟨ancestry, t, plain.trans ?_, timed.trans ?_, slept.trans ?_⟩
  · exact congr (congrArg (Locator.first "x") ((congrArg _ delays).trans refused)) meanings ▸ rfl
  · exact congr (congrArg (Locator.first "x") ((congrArg _ delays).trans refused)) meanings ▸ rfl
  · exact congrArg (List.filter _) ((congrArg _ delays).trans made)

end Walkthrough
