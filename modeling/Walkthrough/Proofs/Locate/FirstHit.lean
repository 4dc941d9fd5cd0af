import Walkthrough.Proofs.Locate.Display

/-!
Locating an element comes to the first hit of its description. Each search is shown to read the first
of a list of elements, and these lists are appended in the order in which the searches are made: the
controls of a label, the strategies of a level, the elements of a chain, and the whole page after each
delay.
-/
namespace Walkthrough

open Walkthrough.Action

namespace Display

variable {σ η ν ω α : Type} {page : Page σ η ν} {display : Display page ω} {v : ω}

theorem reads_first {x : SessionM σ ν (Option α)} {f : Option α → SessionM σ ν (Option α)} {l m : List α}
    (first : display.Reads v x l.head?) (taken : ∀ a, f (some a) = pure (some a))
    (otherwise : display.Reads v (f none) m.head?) : display.Reads v (x >>= f) (l ++ m).head? := by
  refine reads_bind first ?_
  cases l with
  | nil => exact otherwise
  | cons a _ =>
    rw [List.head?_cons, taken]
    exact reads_pure (some a)

theorem namedControl_reads (name : String) :
    display.Reads v (Session.namedControl page name) ((display.document v).named name).head? := by
  unfold Session.namedControl Document.named
  cases name.isEmpty with
  | true => exact reads_pure none
  | false => exact reads_first (find_reads .id name none) (fun _ => rfl) (find_reads .name name none)

theorem controlAround_reads (element : η) (depth : Nat) :
    display.Reads v (Session.controlAround page element depth)
      ((display.document v).around element depth).head? := by
  induction depth generalizing element with
  | zero => exact reads_pure none
  | succ depth ih =>
    refine reads_bind (parent_reads element) ?_
    unfold Document.around Document.containers
    cases (display.document v).parent element with
    | none => exact reads_pure none
    | some container =>
      rw [List.flatMap_cons]
      exact reads_first (find_reads .controlInside "" (some container)) (fun _ => rfl) (ih container)

theorem associatedControl_reads (element : η) :
    display.Reads v (Session.associatedControl page element) ((display.document v).control element) := by
  have wrapped : display.Reads v (Session.find page .controlInside "" (some element))
      ((display.document v).inside element).head? := find_reads .controlInside "" (some element)
  have following : display.Reads v (Session.find page .controlAfter "" (some element))
      ((display.document v).behind element).head? := find_reads .controlAfter "" (some element)
  unfold Session.associatedControl Document.control Document.controls
  refine reads_bind (tagName_reads element) ?_
  by_cases label : (display.document v).tag element = "label"
  · rw [if_pos label]
    simp only [label, beq_self_eq_true, Bool.not_true, Bool.false_and, Bool.false_eq_true, if_false, if_true]
    refine reads_first wrapped (fun _ => rfl) (reads_bind (attributeValue_reads element "for") ?_)
    refine reads_first (namedControl_reads _) (fun _ => rfl) ?_
    exact reads_first following (fun _ => rfl) (controlAround_reads element Session.containerDepth)
  · have other : ((display.document v).tag element == "label") = false := beq_eq_false_iff_ne.mpr label
    rw [if_neg label]
    simp only [other, Bool.not_false, Bool.true_and, Bool.false_eq_true, if_false]
    by_cases span : (display.document v).tag element = "span"
    · rw [if_pos span]
      simp only [span, bne_self_eq_false, Bool.false_eq_true, if_false]
      refine reads_first wrapped (fun _ => rfl) ?_
      rw [← List.append_nil (Document.behind _ _)]
      exact reads_first following (fun _ => rfl) (reads_pure none)
    · rw [if_neg span, if_pos (bne_iff_ne.mpr span)]
      exact reads_pure none

end Display

namespace Locator

variable {σ η ν : Type}

/-- What a search comes to: the first hit is the element that is meant, and without a hit there is none. Before
that, the search ends with the first pause that is refused. -/
def first (query : String) :
    (refused : Option PauseFault) → (hits : List η) → Session σ ν → EStateM.Result Stop (Session σ ν) η
  | some refusal, _, s => .error (.fault refusal.fault) s
  | none, [], s => .error (.failure (.notLocated query)) s
  | none, element :: _, s => .ok element s

/-- What keeps the pause before a search of the whole page from being made. -/
def refusal? (locator : Locator σ η ν) (delay : Float) : Option PauseFault :=
  if 0 < delay then locator.page.refuses delay else none

/-- The delays before the first that is refused. -/
def made (locator : Locator σ η ν) (delays : List Float) : List Float :=
  delays.takeWhile fun delay => (locator.refusal? delay).isNone

def refused (locator : Locator σ η ν) (delays : List Float) : Option PauseFault :=
  delays.findSome? locator.refusal?

variable {locator : Locator σ η ν} {delay : Float}

theorem cut_of_refused {refusal : PauseFault} (stopped : locator.refusal? delay = some refusal) (later : List Float) :
    locator.made (delay :: later) = [] ∧ locator.refused (delay :: later) = some refusal := by
  simp [made, refused, stopped]

theorem cut_of_made (allowed : locator.refusal? delay = none) (later : List Float) :
    locator.made (delay :: later) = delay :: locator.made later ∧
      locator.refused (delay :: later) = locator.refused later := by
  simp [made, refused, allowed]

theorem made_of_not_refused {delays : List Float} (allowed : locator.refused delays = none) :
    locator.made delays = delays := by
  induction delays with
  | nil => rfl
  | cons delay later ih =>
    cases stopped : locator.refusal? delay with
    | some refusal => cases (cut_of_refused stopped later).2.symm.trans allowed
    | none =>
      obtain ⟨made, refused⟩ := cut_of_made stopped later
      rw [made, ih (refused.symm.trans allowed)]

/-- Where an element is found, every pause before was made. -/
theorem made_of_first {query : String} {delays : List Float} {hits : List η} {element : η} {s t : Session σ ν}
    (found : first query (locator.refused delays) hits s = .ok element t) :
    locator.refused delays = none ∧ locator.made delays = delays := by
  cases stopped : locator.refused delays with
  | some refusal =>
    rw [stopped] at found
    cases found
  | none => exact ⟨rfl, made_of_not_refused stopped⟩

end Locator

section Search

variable {σ η ν ω : Type} {locator : Locator σ η ν} {display : Display locator.page ω} {v : ω}

open Display

theorem firstControl_reads (labels : List η) :
    display.Reads v (locator.firstControl labels)
      (labels.filterMap (display.document v).control).head? := by
  induction labels with
  | nil => exact reads_pure none
  | cons label later ih =>
    refine reads_bind (associatedControl_reads label) ?_
    cases own : (display.document v).control label with
    | none =>
      rw [List.filterMap_cons_none own]
      exact ih
    | some control =>
      rw [List.filterMap_cons_some own]
      exact reads_pure (some control)

theorem candidates_of_no_xpath {document : Document η} {strategy : Strategy} {query : String}
    {within : Option η} (inapplicable : XPath.of? strategy query within.isSome = none) :
    document.candidates strategy query within = [] := by
  unfold Document.candidates Document.matching
  rw [inapplicable]
  rfl

theorem hit_reads (strategy : Strategy) (query : String) (within : Option η) :
    display.Reads v (locator.hit strategy query within)
      ((display.document v).hitsBy query within strategy).head? := by
  unfold Locator.hit Document.hitsBy
  cases applicable : XPath.of? strategy query within.isSome with
  | none =>
    rw [candidates_of_no_xpath applicable]
    simp only [Option.isNone_none, if_true, List.filterMap_nil, ite_self]
    exact reads_pure none
  | some xpath =>
    simp only [Option.isNone_some, Bool.false_eq_true, if_false]
    cases strategy.isLabel with
    | true => exact reads_bind (findAll_reads strategy query within) (firstControl_reads _)
    | false => exact find_reads strategy query within

theorem firstHit_reads (query : String) (within : Option η) (strategies : List Strategy) :
    display.Reads v (locator.firstHit query within strategies)
      (strategies.flatMap ((display.document v).hitsBy query within)).head? := by
  induction strategies with
  | nil => exact reads_pure none
  | cons strategy later ih =>
    refine reads_bind (hit_reads strategy query within) ?_
    rw [List.flatMap_cons]
    cases (display.document v).hitsBy query within strategy with
    | nil => exact ih
    | cons element _ => exact reads_bind (reads_note _) (reads_pure (some element))

theorem search_reads (query : String) (within : Option η) :
    display.Reads v (locator.search query within) ((display.document v).hits query within).head? :=
  firstHit_reads query within Strategy.precedence

theorem searchUp_reads (query : String) {scope : Option η} {chain : List η} {levels : Nat}
    (ancestry : Ancestry (display.document v) scope chain) (bounded : chain.length ≤ levels) :
    display.Reads v (locator.searchUp query scope levels) (display.hitsAlong query chain v).head? := by
  induction ancestry generalizing levels with
  | root =>
    unfold Locator.searchUp
    exact reads_pure none
  | step element chain above ih =>
    cases levels with
    | zero => cases bounded
    | succ levels =>
      have later := ih (Nat.le_of_succ_le_succ bounded)
      unfold Locator.searchUp hitsAlong
      rw [List.flatMap_cons]
      exact reads_first (search_reads query (some element)) (fun _ => rfl)
        (reads_bind (parent_reads element) later)

theorem pause_rests (display : Display locator.page ω) {seconds : Float}
    (made : locator.page.refuses seconds = none) (s : Session σ ν) :
    ∃ t, Session.pause locator.page seconds s = .ok () t ∧
      display.view t.page = display.rest seconds s.dialogs.answer (display.view s.page) ∧
        t.dialogs.answer = s.dialogs.answer := by
  have kept := absorbAll_kept (locator.page.sleep seconds s.dialogs.answer s.page).1
    { s with page := (locator.page.sleep seconds s.dialogs.answer s.page).2 }
  refine ⟨_, Session.pause_of_made made s, ?_, kept.2⟩
  rw [kept.1]
  exact display.view_sleep seconds s.dialogs.answer s.page

theorem searchPage_of_refused {delay : Float} {refusal : PauseFault} (refused : locator.refusal? delay = some refusal)
    (query : String) (later : List Float) (s : Session σ ν) :
    locator.searchPage query (delay :: later) s =
      .error (.fault refusal.fault) (s.record (.waiting delay query)) := by
  unfold Locator.refusal? at refused
  split at refused
  · next waits =>
    rw [Locator.searchPage, if_pos waits]
    have noted : Session.note (.waiting delay query) s = .ok () (s.record (.waiting delay query)) := rfl
    exact (bind_of_ok noted).trans (bind_eq_error.mpr (Or.inl (Session.pause_of_refused refused _)))
  · cases refused

theorem searchPage_of_made (display : Display locator.page ω) {delay : Float}
    (made : locator.refusal? delay = none) (query : String) (later : List Float) (s : Session σ ν) :
    ∃ r, locator.searchPage query (delay :: later) s =
        (locator.search query none >>= fun found => match found with
          | some element => pure (some element)
          | none => locator.searchPage query later) r ∧
      display.view r.page = display.after s.dialogs.answer (display.view s.page) delay ∧
        r.dialogs.answer = s.dialogs.answer := by
  rw [Locator.searchPage, after]
  unfold Locator.refusal? at made
  split
  · next waits =>
    rw [if_pos waits] at made
    obtain ⟨r, rested, seen, same⟩ := pause_rests display made (s.record (.waiting delay query))
    refine ⟨r, ?_, seen, same⟩
    have noted : Session.note (.waiting delay query) s = .ok () (s.record (.waiting delay query)) := rfl
    exact (bind_of_ok noted).trans (bind_of_ok rested)
  · exact ⟨s, rfl, rfl, rfl⟩

/-- What the searches of the whole page yield, unless a pause before one of them is refused. -/
def yielded (refused : Option PauseFault) (found : Option η) (s : Session σ ν) :
    EStateM.Result Stop (Session σ ν) (Option η) :=
  match refused with
  | some refusal => .error (.fault refusal.fault) s
  | none => .ok found s

theorem searchPage_finds (display : Display locator.page ω) (query : String) (delays : List Float)
    (s : Session σ ν) :
    ∃ t, locator.searchPage query delays s =
        yielded (locator.refused (display.spent query s.dialogs.answer delays (display.view s.page)))
          (display.hitsInTime query s.dialogs.answer delays (display.view s.page)).head? t ∧
      display.view t.page =
        (locator.made (display.spent query s.dialogs.answer delays (display.view s.page))).foldl
          (display.after s.dialogs.answer) (display.view s.page) := by
  induction delays generalizing s with
  | nil => exact ⟨s, rfl, rfl⟩
  | cons delay later ih =>
    let w := display.after s.dialogs.answer (display.view s.page) delay
    cases allowed : locator.refusal? delay with
    | some refusal =>
      obtain ⟨rest, spent⟩ : ∃ rest, display.spent query s.dialogs.answer (delay :: later) (display.view s.page) =
        delay :: rest := ⟨_, rfl⟩
      obtain ⟨made, refused⟩ := Locator.cut_of_refused allowed rest
      rw [spent, made, refused]
      exact ⟨_, searchPage_of_refused allowed query later s, rfl⟩
    | none =>
      obtain ⟨r, waited, seen, same⟩ := searchPage_of_made display allowed query later s
      obtain ⟨t, searched, seen', same'⟩ := search_reads query none r seen
      rw [waited]
      cases hit : (display.document w).hits query none with
      | nil =>
        obtain ⟨u, found, view⟩ := ih t
        rw [seen', same', same] at found view
        rw [hit] at searched
        have all : display.hitsInTime query s.dialogs.answer (delay :: later) (display.view s.page) =
            display.hitsInTime query s.dialogs.answer later w := by
          simp [hitsInTime, tries, w, hit]
        obtain ⟨made, refused⟩ :=
          Locator.cut_of_made allowed (display.spent query s.dialogs.answer later w)
        rw [display.spent_of_no_hit hit, refused, made, all]
        exact ⟨u, (bind_of_ok searched).trans found, view⟩
      | cons element more =>
        rw [hit] at searched
        obtain ⟨made, refused⟩ := Locator.cut_of_made allowed []
        rw [display.spent_of_hit hit, refused, made]
        refine ⟨t, (bind_of_ok searched).trans ?_, seen'⟩
        simp [hitsInTime, tries, w, hit, pure, EStateM.pure, Locator.refused, yielded]

theorem Locator.resolve_of_blank (locator : Locator σ η ν) {query : String}
    (blank : Text.allBlank query.toList = true) (scope : Option η) (s : Session σ ν) :
    locator.resolve query scope s = .error (.failure (.notLocated query)) s := by
  unfold Locator.resolve
  rw [(Text.compact_eq_nil query.toList).mpr blank]
  rfl

theorem Locator.resolve_of_filled (locator : Locator σ η ν) {display : Display locator.page ω}
    {query : String} (filled : Text.allBlank query.toList = false) {scope : Option η} {chain : List η}
    {s : Session σ ν}
    (ancestry : Ancestry (display.document (display.view s.page)) scope chain) :
    let v := display.view s.page
    let delays := display.delaysSpent query chain s.dialogs.answer locator.attempts v
    ∃ t, locator.resolve query scope s = Locator.first query (locator.refused delays)
        (display.meanings query chain s.dialogs.answer locator.attempts v) t ∧
      display.view t.page = (locator.made delays).foldl (display.after s.dialogs.answer) v := by
  have nonempty : (Text.compact query.toList).isEmpty = false := by
    rw [List.isEmpty_eq_false_iff, Ne, Text.compact_eq_nil, filled]
    exact Bool.false_ne_true
  have bounded := display.levels_suffice s.page ancestry
  have climbing : display.Reads (display.view s.page)
      (locator.searchUp query scope (locator.page.levels s.page))
      (display.hitsAlong query chain (display.view s.page)).head? := searchUp_reads query ancestry bounded
  obtain ⟨r, climbed, seen, same⟩ := climbing s rfl
  unfold Locator.resolve meanings delaysSpent
  simp only [nonempty, Bool.false_eq_true, if_false]
  have got : (get : SessionM σ ν (Session σ ν)) s = .ok s s := rfl
  cases along : display.hitsAlong query chain (display.view s.page) with
  | cons element more =>
    rw [along] at climbed
    exact ⟨r, (bind_of_ok got).trans (bind_of_ok climbed), seen⟩
  | nil =>
    rw [along] at climbed
    obtain ⟨t, searched, view⟩ := searchPage_finds display query locator.attempts r
    rw [seen, same] at searched view
    refine ⟨t, (bind_of_ok got).trans ((bind_of_ok climbed).trans ?_), view⟩
    rw [List.nil_append]
    simp only [List.isEmpty_nil, if_true]
    cases refused : locator.refused (display.spent query s.dialogs.answer locator.attempts (display.view s.page)) with
    | some refusal =>
      rw [refused] at searched
      exact bind_eq_error.mpr (Or.inl searched)
    | none =>
      rw [refused] at searched
      cases inTime : display.hitsInTime query s.dialogs.answer locator.attempts (display.view s.page) with
      | cons element more =>
        rw [inTime] at searched
        exact bind_of_ok searched
      | nil =>
        rw [inTime] at searched
        exact bind_of_ok searched

end Search

end Walkthrough
