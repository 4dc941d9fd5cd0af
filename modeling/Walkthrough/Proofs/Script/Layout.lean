import Mathlib.Logic.Relation
import Walkthrough.Proofs.Script.Seams

/-!
The layout of a script. Blanks at the ends of lines, blank lines, and the blanks and line breaks after a connective make
no difference to what a script is read as, but for the numbers of lines (`parse_relaid`). Stretches of physical lines
are the same if they yield the same forms whatever stands before and after them: a blank line is the same as none
(`same_blank`), and a line that goes on after a connective is the same as the two lines that it can be broken into
(`Connects.same_broken`). Each change of the layout leaves physical lines that are the same (`Relaid.same`); a carriage
return that comes to stand before a line feed takes away no line but a blank one (`same_break`).
-/
namespace Walkthrough

open Text Grammar

namespace Lexeme

variable {begun : List Lexeme} {later : List (List Char)} {forms : List Form}

/-! ### Stretches of physical lines -/

/-- No surroundings tell the physical lines apart. -/
def Same (s t : List (List Char)) : Prop :=
  ∀ begun later forms, Yields begun (s ++ later) forms ↔ Yields begun (t ++ later) forms

variable {s t u : List (List Char)}

theorem Same.refl (s : List (List Char)) : Same s s := fun _ _ _ => Iff.rfl

theorem Same.symm (same : Same s t) : Same t s := fun begun later forms => (same begun later forms).symm

theorem Same.trans (first : Same s t) (second : Same t u) : Same s u :=
  fun begun later forms => (first begun later forms).trans (second begun later forms)

instance : Trans Same Same Same := ⟨Same.trans⟩

theorem Same.cons (same : Same s t) (source : List Char) : Same (source :: s) (source :: t) := by
  have behind {s t : List (List Char)} (same : Same s t) (begun : List Lexeme) (later : List (List Char))
      (forms : List Form) (yields : Yields begun (source :: (s ++ later)) forms) :
      Yields begun (source :: (t ++ later)) forms := by
    cases yields with
    | goesOn read fits isOpen more => exact .goesOn read fits isOpen ((same _ _ _).mp more)
    | closes read fits closed derived more => exact .closes read fits closed derived ((same _ _ _).mp more)
  exact fun begun later forms => ⟨behind same begun later forms, behind same.symm begun later forms⟩

theorem Same.append_right (same : Same s t) (more : List (List Char)) : Same (s ++ more) (t ++ more) := by
  intro begun later forms
  rw [List.append_assoc, List.append_assoc]
  exact same begun (more ++ later) forms

theorem Same.append_left (same : Same s t) (front : List (List Char)) : Same (front ++ s) (front ++ t) := by
  induction front with
  | nil => exact same
  | cons source front ih => exact ih.cons source

theorem same_of_ofLine {l l' : List Char} (same : ofLine l = ofLine l') : Same [l] [l'] := by
  have each {l l' : List Char} (same : ofLine l = ofLine l') (begun : List Lexeme) (later : List (List Char))
      (forms : List Form) (yields : Yields begun (l :: later) forms) : Yields begun (l' :: later) forms := by
    obtain ⟨row, read⟩ := yields.read
    exact (yields_cons (same ▸ read)).mpr ((yields_cons read).mp yields)
  exact fun begun later forms => ⟨each same begun later forms, each same.symm begun later forms⟩

theorem ofLine_of_blank {l : List Char} (blank : allBlank l = true) : ofLine l = .ok [] := by
  unfold ofLine
  rw [trim, trimStart_of_blank blank]
  rfl

theorem same_blank {l : List Char} (blank : allBlank l = true) : Same [l] [] := by
  intro begun later forms
  rw [List.singleton_append, List.nil_append, yields_cons (ofLine_of_blank blank), List.append_nil]
  constructor
  · rintro ⟨-, ⟨-, more⟩ | ⟨closed, -⟩⟩
    · exact more
    · exact absurd leavesOpen_nil closed
  · exact fun more => ⟨fits_nil begun, Or.inl ⟨leavesOpen_nil, more⟩⟩

theorem same_blanks {v w : List Char} (before : allBlank v = true) (after : allBlank w = true) (l : List Char) :
    Same [v ++ (l ++ w)] [l] :=
  same_of_ofLine (ofLine_blanks before after l)

/-! ### Lines that are broken after a connective -/

/-- The lexemes of a line fall into two rows, the first of which leaves the logical line open. -/
theorem yields_joined {whole first second : List Char} {row more : List Lexeme}
    (read : ofLine whole = .ok (row ++ more)) (before : ofLine first = .ok row) (after : ofLine second = .ok more)
    (plain : ∀ l ∈ row ++ more, l.Plain) (isOpen : LeavesOpen row) :
    Yields begun (whole :: later) forms ↔ Yields begun (first :: second :: later) forms := by
  have fits := fits_of_plain plain begun
  have fitsBefore := fits_of_plain (fun l listed => plain l (List.mem_append_left more listed)) begun
  have fitsAfter := fits_of_plain (fun l listed => plain l (List.mem_append_right row listed)) (begun ++ row)
  rw [yields_cons read, yields_cons before, yields_cons after, leavesOpen_append isOpen, List.append_assoc]
  simp only [fits, fitsBefore, fitsAfter, isOpen, true_and, not_true_eq_false, false_and, or_false]

variable {line v r : List Char}

theorem Connects.split_row (connects : Connects line) :
    ∃ row k, split .gap line = .ok row ∧ .keyword k ∈ row ∧ LeavesOpen row := by
  obtain ⟨row, k, read, connective⟩ := connects.splits
  refine ⟨row ++ [.keyword k], k, read, List.mem_append_right row List.mem_cons_self, fun l last => ?_⟩
  rw [List.getLast?_concat] at last
  exact Option.some.inj last ▸ connective

theorem Connects.followed_eq_ok (connects : Connects line) (blank : allBlank v = true) (gap : v ≠ [])
    {row whole : List Lexeme} (read : split .gap line = .ok row) :
    ofLine (line ++ v ++ r) = .ok whole ↔ ∃ more, split .gap r = .ok more ∧ row ++ more = whole := by
  have plain : ¬ Marked (line ++ v ++ r) := by
    rw [List.append_assoc]
    exact connects.plain_followed (v ++ r)
  rw [ofLine_eq_ok plain, split_followed blank gap read, Except.map_eq_ok]

theorem named_of_keyword {spelling : List Lexeme} {f : Form} (derived : FormOf spelling f) {k : Keyword}
    (listed : .keyword k ∈ spelling) : ∀ l ∈ spelling, l.Named := by
  by_cases silent : ∀ text, f ≠ .comment text
  · exact (derived.complete silent).named
  · push Not at silent
    obtain ⟨text, rfl⟩ := silent
    cases derived with
    | comment text => cases List.mem_singleton.mp listed

/-- What would be a comment on a line of its own has no place in a statement. -/
theorem Connects.not_yields_followed (connects : Connects line) (blank : allBlank v = true) (gap : v ≠ [])
    (marked : Marked r) : ¬ Yields begun ((line ++ v ++ r) :: later) forms := by
  intro yields
  obtain ⟨row, k, read, listed, -⟩ := connects.split_row
  obtain ⟨whole, read'⟩ := yields.read
  obtain ⟨more, others, rfl⟩ := (connects.followed_eq_ok blank gap read).mp read'
  obtain ⟨l, among, unnamed⟩ := unnamed_of_marked marked others
  have some := List.append_ne_nil_of_left_ne_nil (List.ne_nil_of_mem listed) more
  obtain ⟨rest, f, derived⟩ := yields.row_completed read' some
  exact unnamed (named_of_keyword derived (k := k) (by simp [listed]) l (by simp [among]))

theorem Connects.not_yields_broken (connects : Connects line) (marked : Marked r) :
    ¬ Yields begun (line :: r :: later) forms := by
  intro yields
  obtain ⟨row, k, read, listed, isOpen⟩ := connects.split_row
  obtain ⟨-, ⟨-, more⟩ | ⟨closed, -⟩⟩ := (yields_cons ((ofLine_eq_ok connects.plain).mpr read)).mp yields
  · obtain ⟨text, comment⟩ := ofLine_marked marked
    obtain ⟨fits, -⟩ := (yields_cons comment).mp more
    exact List.ne_nil_of_mem listed (List.append_eq_nil_iff.mp (fits text rfl)).2
  · exact closed isOpen

/-- A line that goes on after a connective and some blanks can be broken there. -/
theorem Connects.same_broken (connects : Connects line) (blank : allBlank v = true) (gap : v ≠ []) (r : List Char) :
    Same [line ++ v ++ r] [line, r] := by
  intro begun later forms
  by_cases marked : Marked r
  · exact ⟨fun yields => absurd yields (connects.not_yields_followed blank gap marked),
      fun yields => absurd yields (connects.not_yields_broken marked)⟩
  · obtain ⟨row, k, read, listed, isOpen⟩ := connects.split_row
    have before : ofLine line = .ok row := (ofLine_eq_ok connects.plain).mpr read
    have joined {more : List Lexeme} (others : split .gap r = .ok more) :
        Yields begun ((line ++ v ++ r) :: later) forms ↔ Yields begun (line :: r :: later) forms := by
      have whole := (connects.followed_eq_ok blank gap read).mpr ⟨more, others, rfl⟩
      have plain : ∀ l ∈ row ++ more, l.Plain :=
        List.forall_mem_append.mpr ⟨plain_split read, plain_split others⟩
      exact yields_joined whole before ((ofLine_eq_ok marked).mpr others) plain isOpen
    constructor
    · intro yields
      obtain ⟨whole, read'⟩ := yields.read
      obtain ⟨more, others, -⟩ := (connects.followed_eq_ok blank gap read).mp read'
      exact (joined others).mp yields
    · intro yields
      obtain ⟨-, ⟨-, behind⟩ | ⟨closed, -⟩⟩ := (yields_cons before).mp yields
      · obtain ⟨more, after⟩ := behind.read
        exact (joined ((ofLine_eq_ok marked).mp after)).mpr yields
      · exact absurd isOpen closed

/-! ### Blanks between lines -/

variable {front rest w : List Char}

theorem same_blank_cons (blank : allBlank line = true) (later : List (List Char)) : Same (line :: later) later :=
  (same_blank blank).append_right later

theorem same_unfinished (line : List Char) : Same (linesAfter line []) [line.reverse] := by
  cases line with
  | nil => exact (same_blank allBlank_nil).symm
  | cons c line => exact Same.refl _

theorem same_break {c : Char} (breaks : isLineBreak c = true) (line s : List Char) :
    Same (linesAfter line (c :: s)) (line.reverse :: lines s) := by
  obtain ⟨rest, rfl | rfl, broken⟩ := linesAfter_break breaks s
  · rw [broken]
    exact Same.refl _
  · rw [broken]
    have feed : Same (lines ('\n' :: rest)) (lines rest) := same_blank_cons allBlank_nil (lines rest)
    exact feed.symm.cons line.reverse

theorem same_indented (blank : allBlank line = true) (rest : List Char) :
    Same (linesAfter line rest) (lines rest) := by
  by_cases ended : rest = []
  · subst ended
    exact (same_unfinished line).trans (same_blank (allBlank_reverse blank))
  · obtain ⟨first, later, begins⟩ := linesAfter_filled ended
    have trimmed := same_blanks (allBlank_reverse blank) allBlank_nil first
    rw [List.append_nil] at trimmed
    rw [lines, begins, begins []]
    exact trimmed.append_right later

theorem same_leading (before : allBlank line = true) (blank : allBlank w = true) (rest : List Char) :
    Same (linesAfter line (w ++ rest)) (lines rest) := by
  induction w generalizing line with
  | nil => exact same_indented before rest
  | cons c w ih =>
    obtain ⟨here, others⟩ := Bool.and_eq_true_iff.mp blank
    cases breaks : isLineBreak c with
    | true =>
      calc Same (linesAfter line (c :: (w ++ rest))) (line.reverse :: lines (w ++ rest)) := same_break breaks line _
        Same _ (lines (w ++ rest)) := same_blank_cons (allBlank_reverse before) _
        Same _ (lines rest) := ih rfl others
    | false =>
      rw [List.cons_append, linesAfter_goesOn breaks]
      exact ih (Bool.and_eq_true_iff.mpr ⟨here, before⟩) others

theorem same_trailing (line : List Char) (blank : allBlank v = true) : Same [line ++ v] [line] :=
  same_blanks allBlank_nil blank line

/-! ### Where lines start and end -/

/-- A line starts after the text. -/
def AtStart (front : List Char) : Prop := ∀ c ∈ front.getLast?, isLineBreak c = true

/-- A line ends before the text. -/
def AtEnd (rest : List Char) : Prop := ∀ c ∈ rest.head?, isLineBreak c = true

theorem atEnd_lineFeed (rest : List Char) : AtEnd (['\n'] ++ rest) := fun _ first => Option.some.inj first ▸ rfl

theorem atStart_lineFeed (front : List Char) : AtStart (front ++ ['\n']) := by
  intro c last
  rw [List.getLast?_concat] at last
  exact Option.some.inj last ▸ rfl

theorem same_started (start : AtStart front) (begun : front = [] → line = []) (s : List Char) :
    Same (linesAfter line (front ++ s)) (linesAfter line front ++ lines s) := by
  induction front generalizing line with
  | nil =>
    rw [begun rfl]
    exact Same.refl _
  | cons c front ih =>
    have below : AtStart front := by
      intro d last
      exact start d (by simp [List.getLast?_cons, Option.mem_def.mp last])
    cases breaks : isLineBreak c with
    | true =>
      calc Same (linesAfter line (c :: (front ++ s))) (line.reverse :: lines (front ++ s)) := same_break breaks line _
        Same _ (line.reverse :: (lines front ++ lines s)) := (ih below fun _ => rfl).cons _
        Same _ (linesAfter line (c :: front) ++ lines s) := (same_break breaks line front).symm.append_right (lines s)
    | false =>
      rw [List.cons_append, linesAfter_goesOn breaks, linesAfter_goesOn breaks]
      refine ih below fun last => ?_
      subst last
      rw [start c rfl] at breaks
      cases breaks

theorem same_ending (blank : allBlank w = true) (stop : AtEnd rest) (line : List Char) :
    Same (linesAfter line (w ++ rest)) (linesAfter line [] ++ lines rest) := by
  induction w generalizing line with
  | nil =>
    cases rest with
    | nil => exact (List.append_nil (linesAfter line [])).symm ▸ Same.refl _
    | cons c rest =>
      have breaks := stop c rfl
      have feed : Same (lines (c :: rest)) (lines rest) :=
        (same_break breaks [] rest).trans (same_blank_cons allBlank_nil _)
      calc Same (linesAfter line (c :: rest)) (line.reverse :: lines rest) := same_break breaks line rest
        Same _ (line.reverse :: lines (c :: rest)) := feed.symm.cons _
        Same _ (linesAfter line [] ++ lines (c :: rest)) := (same_unfinished line).symm.append_right _
  | cons c w ih =>
    obtain ⟨here, others⟩ := Bool.and_eq_true_iff.mp blank
    cases breaks : isLineBreak c with
    | true =>
      calc Same (linesAfter line (c :: (w ++ rest))) (line.reverse :: lines (w ++ rest)) := same_break breaks line _
        Same _ (line.reverse :: lines rest) := (same_leading allBlank_nil others rest).cons _
        Same _ (linesAfter line [] ++ lines rest) := (same_unfinished line).symm.append_right _
    | false =>
      rw [List.cons_append, linesAfter_goesOn breaks]
      refine (ih others (c :: line)).trans (Same.append_right ?_ (lines rest))
      have last : Same [(c :: line).reverse] [line.reverse] := by
        rw [List.reverse_cons]
        exact same_trailing line.reverse (List.all_eq_true.mpr (List.forall_mem_singleton.mpr here))
      exact (same_unfinished (c :: line)).trans (last.trans (same_unfinished line).symm)

theorem same_ended (blank : allBlank w = true) (stop : AtEnd rest) (front line : List Char) :
    Same (linesAfter line (front ++ (w ++ rest))) (linesAfter line front ++ lines rest) := by
  induction front generalizing line with
  | nil => exact same_ending blank stop line
  | cons c front ih =>
    cases breaks : isLineBreak c with
    | true =>
      calc Same (linesAfter line (c :: (front ++ (w ++ rest)))) (line.reverse :: lines (front ++ (w ++ rest))) :=
            same_break breaks line _
        Same _ (line.reverse :: (lines front ++ lines rest)) := (ih []).cons _
        Same _ (linesAfter line (c :: front) ++ lines rest) := (same_break breaks line front).symm.append_right _
    | false =>
      rw [List.cons_append, linesAfter_goesOn breaks, linesAfter_goesOn breaks]
      exact ih (c :: line)

/-- Where there is a line break among the blanks after a connective, and where there is none. -/
theorem Connects.same_gap (connects : Connects line) (before : allBlank v = true) (blank : allBlank w = true)
    (gap : v ++ w ≠ []) (rest : List Char) :
    Same (linesAfter (v ++ line.reverse) (w ++ rest)) (line :: lines rest) := by
  have whole (v : List Char) : (v ++ line.reverse).reverse = line ++ v.reverse := by
    rw [List.reverse_append, List.reverse_reverse]
  induction w generalizing v with
  | nil =>
    rw [List.nil_append]
    by_cases ended : rest = []
    · subst ended
      refine (same_unfinished _).trans ?_
      rw [whole]
      exact same_trailing line (allBlank_reverse before)
    · obtain ⟨first, later, begins⟩ := linesAfter_filled ended
      have some : v.reverse ≠ [] := by simpa using gap
      rw [lines, begins, begins [], whole]
      exact (connects.same_broken (allBlank_reverse before) some first).append_right later
  | cons c w ih =>
    obtain ⟨here, others⟩ := Bool.and_eq_true_iff.mp blank
    cases breaks : isLineBreak c with
    | true =>
      calc Same (linesAfter (v ++ line.reverse) (c :: (w ++ rest))) ((line ++ v.reverse) :: lines (w ++ rest)) :=
            whole v ▸ same_break breaks _ _
        Same _ (line :: lines (w ++ rest)) := (same_trailing line (allBlank_reverse before)).append_right _
        Same _ (line :: lines rest) := (same_leading allBlank_nil others rest).cons _
    | false =>
      rw [List.cons_append, linesAfter_goesOn breaks]
      have all : allBlank (c :: v) = true := Bool.and_eq_true_iff.mpr ⟨here, before⟩
      exact ih all others (List.cons_ne_nil _ _)

/-! ### Changes of the layout -/

/-- One change of the layout of a text: of the blanks after a connective, of those where a line starts, or of those
where a line ends. All blanks may hold line breaks, and so whole blank lines. -/
inductive Relaid : List Char → List Char → Prop where
  | gap {front line gap gap' : List Char} (start : AtStart front) (connects : Connects line)
      (blank : allBlank gap = true) (blank' : allBlank gap' = true) (some : gap ≠ []) (some' : gap' ≠ [])
      (rest : List Char) : Relaid (front ++ (line ++ (gap ++ rest))) (front ++ (line ++ (gap' ++ rest)))
  | start {front w w' : List Char} (start : AtStart front) (blank : allBlank w = true) (blank' : allBlank w' = true)
      (rest : List Char) : Relaid (front ++ (w ++ rest)) (front ++ (w' ++ rest))
  | ending {w w' rest : List Char} (stop : AtEnd rest) (blank : allBlank w = true) (blank' : allBlank w' = true)
      (front : List Char) : Relaid (front ++ (w ++ rest)) (front ++ (w' ++ rest))

theorem same_of_gap {gap : List Char} (start : AtStart front) (connects : Connects line)
    (blank : allBlank gap = true) (some : gap ≠ []) (rest : List Char) :
    Same (lines (front ++ (line ++ (gap ++ rest)))) (lines front ++ line :: lines rest) := by
  refine (same_started start (fun _ => rfl) _).trans (Same.append_left ?_ (lines front))
  rw [lines, linesAfter_oneLine connects.one, List.append_nil]
  exact connects.same_gap allBlank_nil blank some rest

theorem same_of_start (start : AtStart front) (blank : allBlank w = true) (rest : List Char) :
    Same (lines (front ++ (w ++ rest))) (lines front ++ lines rest) :=
  (same_started start (fun _ => rfl) _).trans ((same_leading allBlank_nil blank rest).append_left (lines front))

theorem Relaid.same {s t : List Char} (relaid : Relaid s t) : Same (lines s) (lines t) := by
  cases relaid with
  | gap start connects blank blank' some some' rest =>
    exact (same_of_gap start connects blank some rest).trans (same_of_gap start connects blank' some' rest).symm
  | start start blank blank' rest => exact (same_of_start start blank rest).trans (same_of_start start blank' rest).symm
  | ending stop blank blank' front =>
    exact (same_ended blank stop front []).trans (same_ended blank' stop front []).symm

end Lexeme

namespace Script

open Lexeme

/-- However the layout of a script that can be read is changed, it is read as the same statements but for the numbers
of their lines. -/
theorem parse_relaid {source source' : String} {script : Script} (read : parse source = .ok script)
    (relaid : Relation.ReflTransGen Relaid source.toList source'.toList) :
    ∃ script', parse source' = .ok script' ∧ script'.statements.map (·.form) = script.statements.map (·.form) := by
  have same : Same (Text.lines source.toList) (Text.lines source'.toList) := by
    generalize source'.toList = text at relaid
    induction relaid with
    | refl => exact Same.refl _
    | tail changes change ih => exact ih.trans change.same
  have yields := parse_iff_yields.mp ⟨script, read, rfl⟩
  have unchanged := same [] [] (script.statements.map (·.form))
  rw [List.append_nil, List.append_nil] at unchanged
  exact parse_iff_yields.mpr (unchanged.mp yields)

/-- A script with blanks after its comment, after a connective, and before its last line. -/
def cats (ending gap start : List Char) : List Char :=
  "# cats and".toList ++ (ending ++ (['\n'] ++ ("locate \"cats and dogs\" and".toList ++ (gap ++ ("click".toList ++
    (['\n'] ++ (start ++ "save \"a\" as b".toList)))))))

theorem connects_cats : Connects "locate \"cats and dogs\" and".toList where
  one := by
    have all : ("locate \"cats and dogs\" and".toList.all fun c => isLineBreak c == false) = true := by decide
    exact fun c listed => by simpa using List.all_eq_true.mp all c listed
  plain := by
    unfold Marked
    decide
  ends := by
    refine ⟨"locate \"cats and dogs\" ".toList, .and, by decide, rfl, ?_, solid_keyword .and, ?_, ?_⟩
    · unfold Segment.Outside
      decide
    · exact fun c last => Option.some.inj last ▸ Or.inl (by decide)
    · exact fun c first => by cases first

theorem relaid_cats {ending gap start : List Char} (blank : allBlank ending = true) (blank' : allBlank gap = true)
    (some : gap ≠ []) (blank'' : allBlank start = true) :
    Relation.ReflTransGen Relaid (cats [] [' '] []) (cats ending gap start) := by
  have first : Relaid (cats [] [' '] []) (cats ending [' '] []) := .ending (atEnd_lineFeed _) allBlank_nil blank _
  have second : Relaid (cats ending [' '] []) (cats ending gap []) := by
    have lined := atStart_lineFeed ("# cats and".toList ++ ending)
    have space : allBlank [' '] = true := rfl
    have relaid := Relaid.gap lined connects_cats space blank' (List.cons_ne_nil _ _) some
      ("click".toList ++ (['\n'] ++ ([] ++ "save \"a\" as b".toList)))
    simp only [List.append_assoc] at relaid
    exact relaid
  have third : Relaid (cats ending gap []) (cats ending gap start) := by
    have lined := atStart_lineFeed ("# cats and".toList ++ ending ++ ['\n'] ++ "locate \"cats and dogs\" and".toList ++
      gap ++ "click".toList)
    have relaid := Relaid.start lined allBlank_nil blank'' "save \"a\" as b".toList
    simp only [List.append_assoc] at relaid
    exact relaid
  exact ((Relation.ReflTransGen.single first).tail second).tail third

theorem parse_relaid_cats :
    Relation.ReflTransGen Relaid (cats [] [' '] []) (cats " \t".toList "\n \r\n\n  ".toList "\n  \n".toList) ∧
    ∃ script, parse (String.ofList (cats " \t".toList "\n \r\n\n  ".toList "\n  \n".toList)) = .ok script ∧
      script.statements.map (·.form) = [.comment "# cats and",
        .run [{ verb := .locate, param := some (.quoted "cats and dogs") }, { verb := .click }], .save "a" "b"] := by
  have relaid : Relation.ReflTransGen Relaid (cats [] [' '] [])
      (cats " \t".toList "\n \r\n\n  ".toList "\n  \n".toList) :=
    relaid_cats (by decide) (by decide) (by decide) (by decide)
  have read : parse (String.ofList (cats [] [' '] [])) = .ok (.ofStatements [⟨.comment "# cats and", 1⟩,
      ⟨.run [{ verb := .locate, param := some (.quoted "cats and dogs") }, { verb := .click }], 2⟩,
      ⟨.save "a" "b", 3⟩]) := parse_eq_ok.mpr (by decide +kernel)
  refine ⟨relaid, parse_relaid read ?_⟩
  rw [String.toList_ofList, String.toList_ofList]
  exact relaid

end Script
end Walkthrough
