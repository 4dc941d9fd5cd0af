import Mathlib.Data.List.Forall2
import Walkthrough.Proofs.Script.Derivation
import Walkthrough.Script.Reader

/-!
What a whole script is read as. The lexemes of a line that has been scanned hold no keyword as a word,
and a comment is alone, so the readers agree with the grammar on every line; the statements of a script
are then those that its logical lines derive, in order. Both facts about scanning, and that each line
begins on the physical line with its number, go by induction over the physical lines (`ofLines_cons`).
-/
namespace Walkthrough

open Grammar

def Lexeme.Plain (l : Lexeme) : Prop := l.Free ∧ ∀ text, l ≠ .comment text

namespace Lexeme

theorem plain_ofStretch (stretch : List Char) (closed : Bool) : (ofStretch stretch closed).Plain := by
  unfold ofStretch
  split
  · exact ⟨trivial, fun text => by simp⟩
  · split
    · exact ⟨trivial, fun text => by simp⟩
    · rename_i unknown
      refine ⟨fun k same => ?_, fun text => by simp⟩
      rw [← same, Keyword.ofText?_text] at unknown
      cases unknown

theorem plain_quoted (content : String) : (quoted content).Plain := ⟨trivial, fun text => by simp⟩

theorem plain_cons {l : Lexeme} {lexemes : List Lexeme} (first : l.Plain) (others : ∀ m ∈ lexemes, m.Plain) :
    ∀ m ∈ l :: lexemes, m.Plain := by
  intro m listed
  rcases List.mem_cons.mp listed with rfl | later
  · exact first
  · exact others m later

theorem plain_split {pending : Pending} {source : List Char} {lexemes : List Lexeme}
    (read : split pending source = .ok lexemes) : ∀ l ∈ lexemes, l.Plain := by
  fun_induction split pending source generalizing lexemes with
  | case1 =>
    cases read
    intro l listed
    cases listed
  | case2 c rest blank ih => exact ih read
  | case3 rest gap ih => exact ih read
  | case4 c rest filled letter ih => exact ih read
  | case5 => cases read
  | case6 content rest ih =>
    obtain ⟨later, others, rfl⟩ := Except.map_eq_ok.mp read
    exact plain_cons (plain_quoted _) (ih others)
  | case7 content c rest open_ ih => exact ih read
  | case8 stretch =>
    cases read
    exact plain_cons (plain_ofStretch _ _) fun l listed => by cases listed
  | case9 stretch c rest blank ih =>
    obtain ⟨later, others, rfl⟩ := Except.map_eq_ok.mp read
    exact plain_cons (plain_ofStretch _ _) (ih others)
  | case10 stretch rest filled ih =>
    obtain ⟨later, others, rfl⟩ := Except.map_eq_ok.mp read
    exact plain_cons (plain_ofStretch _ _) (ih others)
  | case11 stretch c rest filled letter ih => exact ih read

theorem plain_ofLine {source : List Char} {lexemes : List Lexeme} (read : ofLine source = .ok lexemes) :
    (∀ l ∈ lexemes, l.Plain) ∨ ∃ text, lexemes = [.comment text] := by
  unfold ofLine at read
  split at read
  · cases read
    exact Or.inr ⟨_, rfl⟩
  · exact Or.inl (plain_split read)

end Lexeme

namespace LogicalLine

/-- What scanning promises of a line. -/
structure Proper (l : LogicalLine) : Prop where
  free : Free l.tokens
  alone : l.first.isComment = true → l.rest = []

theorem proper_of_plain {l : LogicalLine} (plain : ∀ t ∈ l.tokens, t.lexeme.Plain) : l.Proper where
  free t listed := (plain t listed).1
  alone isComment := by
    have first := (plain l.first List.mem_cons_self).2
    unfold Token.isComment at isComment
    split at isComment
    · rename_i text leading
      exact absurd leading (first text)
    · cases isComment

theorem tokens_ofLine {line : Int} {source : List Char} {tokens : List Token}
    (read : Token.ofLine line source = .ok tokens) :
    (∀ t ∈ tokens, t.lexeme.Plain) ∨ ∃ text, tokens = [⟨.comment text, line⟩] := by
  unfold Token.ofLine at read
  cases spelled : Lexeme.ofLine source with
  | error unclosed => simp [spelled] at read
  | ok lexemes =>
    simp only [spelled, Except.ok.injEq] at read
    rw [← read]
    rcases Lexeme.plain_ofLine spelled with plain | ⟨text, rfl⟩
    · left
      intro t listed
      obtain ⟨l, mem, rfl⟩ := List.mem_map.mp listed
      exact plain l mem
    · exact Or.inr ⟨text, rfl⟩

theorem tokens_extend (begun : Option Begun) (first : Token) (rest : List Token) :
    (extend begun first rest).line.tokens = (begun.elim [] fun b => b.line.tokens) ++ first :: rest := by
  cases begun with
  | none => exact Begun.tokens_append _ _
  | some b => exact Begun.tokens_append _ _

theorem proper_comment (text : String) (line : Int) : Proper ⟨⟨.comment text, line⟩, []⟩ where
  free t listed := by
    cases List.mem_singleton.mp listed
    exact trivial
  alone _ := rfl

/-- What scanning one more physical line comes to: it is blank, or its tokens leave the logical line
open, or they close it. -/
theorem ofLines_cons {begun : Option Begun} {line : Int} {source : List Char} {later : List (List Char)}
    {lines : List LogicalLine} (read : ofLines begun line (source :: later) = .ok lines) :
    (Token.ofLine line source = .ok [] ∧ ofLines begun (line + 1) later = .ok lines) ∨
      ∃ first rest, Token.ofLine line source = .ok (first :: rest) ∧
        (first.isComment = true → begun = none) ∧
        (((extend begun first rest).isOpen = true ∧
            ofLines (some (extend begun first rest)) (line + 1) later = .ok lines) ∨
          ((extend begun first rest).isOpen = false ∧
            ∃ others, ofLines none (line + 1) later = .ok others ∧
              lines = (extend begun first rest).line :: others)) := by
  obtain ⟨tokens, split, goesOn⟩ := Except.bind_eq_ok.mp read
  cases tokens with
  | nil => exact Or.inl ⟨split, goesOn⟩
  | cons first rest =>
    simp only at goesOn
    split at goesOn
    · cases goesOn
    · rename_i fits
      refine Or.inr ⟨first, rest, split, fun comment => ?_, ?_⟩
      · cases begun with
        | none => rfl
        | some b => exact absurd comment (by simpa using fits)
      · split at goesOn
        · rename_i isOpen
          exact Or.inl ⟨isOpen, goesOn⟩
        · rename_i closed
          obtain ⟨others, more, same⟩ := Except.bind_eq_ok.mp goesOn
          cases same
          exact Or.inr ⟨by simpa using closed, others, more, rfl⟩

theorem plain_extend {begun : Option Begun} {first : Token} {rest : List Token}
    (before : ∀ b ∈ begun, ∀ t ∈ b.line.tokens, t.lexeme.Plain)
    (now : ∀ t ∈ first :: rest, t.lexeme.Plain) :
    ∀ t ∈ (extend begun first rest).line.tokens, t.lexeme.Plain := by
  intro t listed
  rw [tokens_extend] at listed
  rcases List.mem_append.mp listed with old | new
  · cases begun with
    | none => cases old
    | some b => exact before b rfl t old
  · exact now t new

theorem proper_ofLines {begun : Option Begun} {line : Int} {sources : List (List Char)}
    {lines : List LogicalLine} (plain : ∀ b ∈ begun, ∀ t ∈ b.line.tokens, t.lexeme.Plain)
    (read : ofLines begun line sources = .ok lines) : ∀ l ∈ lines, l.Proper := by
  have nothing : ∀ b ∈ (none : Option Begun), ∀ t ∈ b.line.tokens, t.lexeme.Plain :=
    fun b same => by cases same
  induction sources generalizing begun line lines with
  | nil =>
    cases begun with
    | none =>
      cases read
      exact fun l listed => by cases listed
    | some b => cases read
  | cons source later ih =>
    rcases ofLines_cons read with ⟨-, goesOn⟩ | ⟨first, rest, split, fits, goesOn⟩
    · exact ih plain goesOn
    · rcases tokens_ofLine split with now | ⟨text, lone⟩
      · have joined := plain_extend plain now
        rcases goesOn with ⟨-, goesOn⟩ | ⟨-, others, more, rfl⟩
        · exact ih (fun b same => by cases same; exact joined) goesOn
        · exact List.forall_mem_cons.mpr ⟨proper_of_plain joined, ih nothing more⟩
      · -- A comment opens no line: it neither joins one that was begun nor leaves its own open.
        cases lone
        cases fits rfl
        rcases goesOn with ⟨isOpen, -⟩ | ⟨-, others, more, rfl⟩
        · cases isOpen
        · exact List.forall_mem_cons.mpr ⟨proper_comment text line, ih nothing more⟩

theorem proper_scan {source : String} {lines : List LogicalLine} (scanned : scan source = .ok lines) :
    ∀ l ∈ lines, l.Proper :=
  proper_ofLines (fun b same => by cases same) scanned

/-- The first token is the first of the physical line that has its number, the first line of
`sources` having the number `line`. -/
def BeginsIn (sources : List (List Char)) (line : Int) (first : Token) : Prop :=
  ∃ (i : Nat) (source : List Char) (more : List Lexeme), sources[i]? = some source ∧
    Lexeme.ofLine source = .ok (first.lexeme :: more) ∧ first.line = line + i

theorem beginsIn_head {line : Int} {source : List Char} {later : List (List Char)} {first : Token}
    {rest : List Token} (split : Token.ofLine line source = .ok (first :: rest)) :
    BeginsIn (source :: later) line first := by
  unfold Token.ofLine at split
  cases spelled : Lexeme.ofLine source with
  | error unclosed => simp [spelled] at split
  | ok lexemes =>
    simp only [spelled, Except.ok.injEq] at split
    obtain ⟨l, more, rfl, rfl, -⟩ := List.map_eq_cons_iff.mp split
    exact ⟨0, source, more, rfl, spelled, (Int.add_zero line).symm⟩

theorem beginsIn_cons {line : Int} {source : List Char} {later : List (List Char)} {first : Token}
    (begins : BeginsIn later (line + 1) first) : BeginsIn (source :: later) line first := by
  obtain ⟨i, text, more, place, spelled, number⟩ := begins
  exact ⟨i + 1, text, more, place, spelled, by omega⟩

theorem first_extend (begun : Option Begun) (first : Token) (rest : List Token) :
    (extend begun first rest).first = (begun.map (·.first)).getD first := by
  cases begun <;> rfl

theorem beginsIn_ofLines {begun : Option Begun} {line : Int} {sources : List (List Char)}
    {lines : List LogicalLine} (read : ofLines begun line sources = .ok lines) :
    ∀ l ∈ lines, BeginsIn sources line l.first ∨ ∃ b ∈ begun, l.first = b.first := by
  induction sources generalizing begun line lines with
  | nil =>
    cases begun with
    | none =>
      cases read
      exact fun l listed => by cases listed
    | some b => cases read
  | cons source later ih =>
    intro l listed
    rcases ofLines_cons read with ⟨-, goesOn⟩ | ⟨first, rest, split, -, goesOn⟩
    · exact (ih goesOn l listed).imp_left beginsIn_cons
    · have joined : ∀ l : LogicalLine, l.first = (extend begun first rest).first →
          BeginsIn (source :: later) line l.first ∨ ∃ b ∈ begun, l.first = b.first := by
        intro l same
        rw [same, first_extend]
        cases begun with
        | none => exact Or.inl (beginsIn_head split)
        | some b => exact Or.inr ⟨b, rfl, rfl⟩
      rcases goesOn with ⟨-, goesOn⟩ | ⟨-, others, more, rfl⟩
      · rcases ih goesOn l listed with below | ⟨b, same, first⟩
        · exact Or.inl (beginsIn_cons below)
        · cases same
          exact joined l first
      · rcases List.mem_cons.mp listed with rfl | after
        · exact joined _ rfl
        · rcases ih more l after with below | ⟨b, same, -⟩
          · exact Or.inl (beginsIn_cons below)
          · cases same

theorem beginsIn_scan {source : String} {lines : List LogicalLine} (scanned : scan source = .ok lines) :
    ∀ l ∈ lines, BeginsIn (Text.lines source.toList) 1 l.first := by
  intro l listed
  rcases beginsIn_ofLines scanned l listed with begins | ⟨b, same, -⟩
  · exact begins
  · cases same

end LogicalLine

/-- The statement is the tree of its line, and begins where the line does. -/
structure Derives (l : LogicalLine) (st : Statement) : Prop where
  form : FormOf (lexemes l.tokens) st.form
  line : st.line = l.first.line

theorem statement_eq_ok {l : LogicalLine} {st : Statement} (proper : l.Proper) :
    statement l = .ok st ↔ Derives l st := by
  unfold statement
  rw [Except.bind_eq_ok]
  constructor
  · intro given
    obtain ⟨f, read, same⟩ := given
    cases same
    exact ⟨form_sound proper.free proper.alone read, rfl⟩
  · intro given
    obtain ⟨derived, begins⟩ := given
    refine ⟨st.form, form_complete derived, ?_⟩
    rw [← begins]
    rfl

theorem derives_unique {l : LogicalLine} {st st' : Statement} (left : Derives l st) (right : Derives l st') :
    st = st' := by
  have forms := form_unique left.form right.form
  have lines := left.line.trans right.line.symm
  cases st
  cases st'
  cases forms
  cases lines
  rfl

theorem statements_eq_ok {lines : List LogicalLine} {sts : List Statement} (proper : ∀ l ∈ lines, l.Proper) :
    lines.mapM statement = .ok sts ↔ List.Forall₂ Derives lines sts := by
  induction lines generalizing sts with
  | nil =>
    rw [List.mapM_nil, List.forall₂_nil_left_iff]
    constructor
    · intro same
      cases same
      rfl
    · intro same
      subst same
      rfl
  | cons l later ih =>
    have first := proper l List.mem_cons_self
    have others : ∀ m ∈ later, m.Proper := fun m listed => proper m (List.mem_cons_of_mem l listed)
    rw [List.mapM_cons, List.forall₂_cons_left_iff, Except.bind_eq_ok]
    constructor
    · intro given
      obtain ⟨st, read, goesOn⟩ := given
      obtain ⟨more, read', same⟩ := Except.bind_eq_ok.mp goesOn
      cases same
      exact ⟨st, more, (statement_eq_ok first).mp read, (ih others).mp read', rfl⟩
    · intro given
      obtain ⟨st, more, derived, rest, rfl⟩ := given
      have read : later.mapM statement = .ok more := (ih others).mpr rest
      exact ⟨st, (statement_eq_ok first).mpr derived, Except.bind_eq_ok.mpr ⟨more, read, rfl⟩⟩

theorem exists_forall₂_derives {lines : List LogicalLine} :
    (∃ sts, List.Forall₂ Derives lines sts) ↔ ∀ l ∈ lines, ∃ f, FormOf (lexemes l.tokens) f := by
  induction lines with
  | nil => simp
  | cons l later ih =>
    rw [List.forall_mem_cons, ← ih]
    constructor
    · intro given
      obtain ⟨sts, derived⟩ := given
      cases derived with
      | cons first rest => exact ⟨⟨_, first.form⟩, _, rest⟩
    · intro given
      obtain ⟨⟨f, derived⟩, sts, rest⟩ := given
      exact ⟨⟨f, l.first.line⟩ :: sts, .cons ⟨derived, rfl⟩ rest⟩

namespace Script

theorem parse_eq_ok {source : String} {script : Script} :
    parse source = .ok script ↔ readStatements source = .ok script.statements := by
  unfold parse
  rw [Except.map_eq_ok]
  constructor
  · intro given
    obtain ⟨statements, read, rfl⟩ := given
    exact read
  · intro read
    refine ⟨script.statements, read, ?_⟩
    obtain ⟨statements, handlers, regions, handlers_eq, regions_eq⟩ := script
    cases handlers_eq
    cases regions_eq
    rfl

/-- A script can be read exactly if its text splits into logical lines all of which can be derived. Its
statements are then those of its lines, in order; no line derives two, and each begins on the physical
line that its number tells. -/
theorem parse_iff_derives (source : String) :
    ((∃ script, parse source = .ok script) ↔
      ∃ lines, LogicalLine.scan source = .ok lines ∧ ∀ l ∈ lines, ∃ f, FormOf (lexemes l.tokens) f) ∧
    (∀ script, parse source = .ok script ↔
      ∃ lines, LogicalLine.scan source = .ok lines ∧ List.Forall₂ Derives lines script.statements) ∧
    (∀ (l : LogicalLine) (st st' : Statement), Derives l st → Derives l st' → st = st') ∧
    ∀ lines, LogicalLine.scan source = .ok lines →
      ∀ l ∈ lines, LogicalLine.BeginsIn (Text.lines source.toList) 1 l.first := by
  have read (script : Script) : parse source = .ok script ↔
      ∃ lines, LogicalLine.scan source = .ok lines ∧ List.Forall₂ Derives lines script.statements := by
    rw [parse_eq_ok]
    unfold readStatements
    rw [Except.bind_eq_ok]
    constructor
    · intro given
      obtain ⟨lines, scanned, statements⟩ := given
      exact ⟨lines, scanned, (statements_eq_ok (LogicalLine.proper_scan scanned)).mp statements⟩
    · intro given
      obtain ⟨lines, scanned, derived⟩ := given
      exact ⟨lines, scanned, (statements_eq_ok (LogicalLine.proper_scan scanned)).mpr derived⟩
  refine ⟨⟨?_, ?_⟩, read, fun l st st' => derives_unique, fun lines => LogicalLine.beginsIn_scan⟩
  · intro given
    obtain ⟨script, parsed⟩ := given
    obtain ⟨lines, scanned, derived⟩ := (read script).mp parsed
    exact ⟨lines, scanned, exists_forall₂_derives.mp ⟨script.statements, derived⟩⟩
  · intro given
    obtain ⟨lines, scanned, derivable⟩ := given
    obtain ⟨sts, derived⟩ := exists_forall₂_derives.mpr derivable
    exact ⟨.ofStatements sts, (read _).mpr ⟨lines, scanned, derived⟩⟩

end Script
end Walkthrough
