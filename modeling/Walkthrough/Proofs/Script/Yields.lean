import Walkthrough.Proofs.Script.Parsing
import Walkthrough.Proofs.Script.Spelling

/-!
Physical lines as the grammar sees them. The lexemes of a physical line close the logical line or leave it open, and
each logical line that is closed yields a form (`Yields`). A script is read as the forms that its physical lines yield
(`parse_iff_yields`); the numbers of the lines have no part in that.
-/
namespace Walkthrough

open Grammar

namespace Lexeme

/-- The logical line goes on after these lexemes of a physical line, which may be none. -/
def LeavesOpen (row : List Lexeme) : Prop := ∀ l ∈ row.getLast?, l.isConnective = true

/-- A comment stands only where no logical line has begun. -/
def Fits (begun row : List Lexeme) : Prop := ∀ text, row.head? = some (.comment text) → begun = []

/-- The physical lines, after the lexemes of a logical line that has begun, are read as the forms. -/
inductive Yields : List Lexeme → List (List Char) → List Form → Prop where
  | done : Yields [] [] []
  | goesOn {begun row : List Lexeme} {source : List Char} {later : List (List Char)} {forms : List Form}
      (read : ofLine source = .ok row) (fits : Fits begun row) (isOpen : LeavesOpen row)
      (more : Yields (begun ++ row) later forms) : Yields begun (source :: later) forms
  | closes {begun row : List Lexeme} {source : List Char} {later : List (List Char)} {f : Form} {forms : List Form}
      (read : ofLine source = .ok row) (fits : Fits begun row) (closed : ¬ LeavesOpen row)
      (derived : FormOf (begun ++ row) f) (more : Yields [] later forms) : Yields begun (source :: later) (f :: forms)

theorem leavesOpen_nil : LeavesOpen [] := fun l last => by cases last

theorem fits_nil (begun : List Lexeme) : Fits begun [] := fun text first => by cases first

theorem leavesOpen_append {row more : List Lexeme} (isOpen : LeavesOpen row) :
    LeavesOpen (row ++ more) ↔ LeavesOpen more := by
  cases more with
  | nil =>
    rw [List.append_nil]
    exact ⟨fun _ => leavesOpen_nil, fun _ => isOpen⟩
  | cons l later => rw [LeavesOpen, LeavesOpen, List.getLast?_append_of_ne_nil _ (List.cons_ne_nil l later)]

theorem fits_of_plain {row : List Lexeme} (plain : ∀ l ∈ row, l.Plain) (begun : List Lexeme) : Fits begun row :=
  fun text first => absurd rfl ((plain _ (List.mem_of_mem_head? first)).2 text)

variable {begun row : List Lexeme} {source : List Char} {later : List (List Char)} {forms : List Form}

theorem yields_cons (read : ofLine source = .ok row) :
    Yields begun (source :: later) forms ↔ Fits begun row ∧
      ((LeavesOpen row ∧ Yields (begun ++ row) later forms) ∨
        ¬ LeavesOpen row ∧ ∃ f others, forms = f :: others ∧ FormOf (begun ++ row) f ∧ Yields [] later others) := by
  constructor
  · intro yields
    cases yields with
    | goesOn read' fits isOpen more =>
      obtain rfl := Except.ok.inj (read.symm.trans read')
      exact ⟨fits, Or.inl ⟨isOpen, more⟩⟩
    | closes read' fits closed derived more =>
      obtain rfl := Except.ok.inj (read.symm.trans read')
      exact ⟨fits, Or.inr ⟨closed, _, _, rfl, derived, more⟩⟩
  · rintro ⟨fits, ⟨isOpen, more⟩ | ⟨closed, f, others, rfl, derived, more⟩⟩
    · exact .goesOn read fits isOpen more
    · exact .closes read fits closed derived more

theorem Yields.read (yields : Yields begun (source :: later) forms) : ∃ row, ofLine source = .ok row := by
  cases yields with
  | goesOn read fits isOpen more => exact ⟨_, read⟩
  | closes read fits closed derived more => exact ⟨_, read⟩

/-- A logical line that has begun is completed to a statement. -/
theorem Yields.completed {sources : List (List Char)} (yields : Yields begun sources forms) (some : begun ≠ []) :
    ∃ more f, FormOf (begun ++ more) f := by
  induction yields with
  | done => exact absurd rfl some
  | @goesOn begun row source later forms read fits isOpen more ih =>
    obtain ⟨rest, f, derived⟩ := ih (List.append_ne_nil_of_left_ne_nil some row)
    exact ⟨row ++ rest, f, List.append_assoc _ _ _ ▸ derived⟩
  | closes read fits closed derived more => exact ⟨_, _, derived⟩

theorem Yields.row_completed (yields : Yields begun (source :: later) forms) (read : ofLine source = .ok row)
    (some : row ≠ []) : ∃ more f, FormOf (begun ++ row ++ more) f := by
  obtain ⟨-, ⟨-, more⟩ | ⟨-, f, others, -, derived, -⟩⟩ := (yields_cons read).mp yields
  · exact more.completed (List.append_ne_nil_of_right_ne_nil begun some)
  · exact ⟨[], f, by rwa [List.append_nil]⟩

end Lexeme

namespace LogicalLine

open Lexeme

theorem token_ofLine_eq_ok {line : Int} {source : List Char} {tokens : List Token} :
    Token.ofLine line source = .ok tokens ↔
      ∃ spelling, Lexeme.ofLine source = .ok spelling ∧ tokens = spelling.map (⟨·, line⟩) := by
  unfold Token.ofLine
  cases Lexeme.ofLine source with
  | error unclosed => simp
  | ok spelling => simp [eq_comm]

theorem getLast?_extend (begun : Option Begun) (first : Token) (rest : List Token) :
    (first :: rest).getLast? = some (extend begun first rest).last := by
  cases begun with
  | none => simp [extend, Begun.append, Begun.last, List.getLast?_cons]
  | some b => simp [extend, Begun.append, Begun.last, List.getLast?_cons]

/-- The lexemes of a line as far as it has been read. -/
def spelled (begun : Option Begun) : List Lexeme := lexemes (begun.elim [] fun b => b.line.tokens)

theorem spelled_eq_nil {begun : Option Begun} : spelled begun = [] ↔ begun = none := by
  cases begun with
  | none => exact ⟨fun _ => rfl, fun _ => rfl⟩
  | some b => simp [spelled, lexemes, Begun.line, LogicalLine.tokens]

theorem spelled_extend (begun : Option Begun) (first : Token) (rest : List Token) :
    lexemes (extend begun first rest).line.tokens = spelled begun ++ lexemes (first :: rest) := by
  rw [tokens_extend, lexemes, List.map_append]
  rfl

theorem leavesOpen_extend (begun : Option Begun) (first : Token) (rest : List Token) :
    LeavesOpen (lexemes (first :: rest)) ↔ (extend begun first rest).isOpen = true := by
  unfold LeavesOpen lexemes
  rw [List.getLast?_map, getLast?_extend begun, Option.map_some]
  exact ⟨fun connective => connective _ rfl, fun isOpen l last => Option.some.inj last ▸ isOpen⟩

theorem yields_of_ofLines {begun : Option Begun} {line : Int} {sources : List (List Char)} {lines : List LogicalLine}
    {forms : List Form} (read : ofLines begun line sources = .ok lines)
    (derived : List.Forall₂ (fun l f => FormOf (lexemes l.tokens) f) lines forms) :
    Yields (spelled begun) sources forms := by
  induction sources generalizing begun line lines forms with
  | nil =>
    cases begun with
    | none =>
      cases read
      cases derived
      exact .done
    | some b => cases read
  | cons source later ih =>
    rcases ofLines_cons read with ⟨blank, goesOn⟩ | ⟨first, rest, split, fits, goesOn⟩
    · obtain ⟨row, here, same⟩ := token_ofLine_eq_ok.mp blank
      obtain rfl : row = [] := List.map_eq_nil_iff.mp same.symm
      have more := ih goesOn derived
      exact .goesOn here (fits_nil _) leavesOpen_nil (by rwa [List.append_nil])
    · obtain ⟨row, here, same⟩ := token_ofLine_eq_ok.mp split
      obtain rfl : lexemes (first :: rest) = row := by rw [same, lexemes_map]
      have alone : Fits (spelled begun) (lexemes (first :: rest)) := by
        intro text comment
        have isComment : first.isComment = true := by
          have leading : first.lexeme = .comment text := Option.some.inj comment
          simp [Token.isComment, leading]
        exact spelled_eq_nil.mpr (fits isComment)
      rcases goesOn with ⟨isOpen, goesOn⟩ | ⟨closed, others, goesOn, rfl⟩
      · have more := ih goesOn derived
        rw [spelled, Option.elim_some, spelled_extend] at more
        exact .goesOn here alone ((leavesOpen_extend begun first rest).mpr isOpen) more
      · obtain ⟨f, forms, formOf, behind, rfl⟩ := List.forall₂_cons_left_iff.mp derived
        rw [spelled_extend] at formOf
        have ended : ¬ LeavesOpen (lexemes (first :: rest)) := by
          rw [leavesOpen_extend begun, closed]
          exact Bool.false_ne_true
        exact .closes here alone ended formOf (ih goesOn behind)

/-- What scanning a line that is not blank goes on with, where no comment is out of place. -/
theorem ofLines_filled {begun : Option Begun} {source : List Char} {l : Lexeme} {row : List Lexeme}
    (read : Lexeme.ofLine source = .ok (l :: row)) (fits : Fits (spelled begun) (l :: row)) (line : Int)
    (later : List (List Char)) :
    ∃ joined : Begun, lexemes joined.line.tokens = spelled begun ++ l :: row ∧
      (LeavesOpen (l :: row) ↔ joined.isOpen = true) ∧
      ofLines begun line (source :: later) =
        if joined.isOpen then ofLines (some joined) (line + 1) later
        else (ofLines none (line + 1) later).map (joined.line :: ·) := by
  have split : Token.ofLine line source = .ok (⟨l, line⟩ :: row.map (⟨·, line⟩)) :=
    token_ofLine_eq_ok.mpr ⟨l :: row, read, rfl⟩
  have same : lexemes (⟨l, line⟩ :: row.map (⟨·, line⟩)) = l :: row := lexemes_map line (l :: row)
  have placed : (begun.isSome && Token.isComment ⟨l, line⟩) = false := by
    cases l with
    | comment text =>
      rw [spelled_eq_nil.mp (fits text rfl)]
      rfl
    | _ => simp [Token.isComment]
  refine ⟨extend begun ⟨l, line⟩ (row.map (⟨·, line⟩)), ?_, ?_, ?_⟩
  · rw [spelled_extend, same]
  · rw [← leavesOpen_extend, same]
  · rw [ofLines, split]
    simp only [bind, Except.bind, placed, Bool.false_eq_true, if_false]
    split
    · rfl
    · cases ofLines none (line + 1) later <;> rfl

theorem ofLines_of_yields {before : List Lexeme} {sources : List (List Char)} {forms : List Form}
    (yields : Yields before sources forms) (begun : Option Begun) (same : spelled begun = before) (line : Int) :
    ∃ lines, ofLines begun line sources = .ok lines ∧
      List.Forall₂ (fun l f => FormOf (lexemes l.tokens) f) lines forms := by
  induction yields generalizing begun line with
  | done =>
    obtain rfl := spelled_eq_nil.mp same
    exact ⟨[], rfl, .nil⟩
  | @goesOn before row source later forms read fits isOpen more ih =>
    subst same
    cases row with
    | nil =>
      have split : Token.ofLine line source = .ok [] := token_ofLine_eq_ok.mpr ⟨[], read, rfl⟩
      obtain ⟨lines, goesOn, derived⟩ := ih begun (List.append_nil _).symm (line + 1)
      exact ⟨lines, Except.bind_eq_ok.mpr ⟨[], split, goesOn⟩, derived⟩
    | cons l row =>
      obtain ⟨joined, spelling, opens, goesOn⟩ := ofLines_filled read fits line later
      obtain ⟨lines, behind, derived⟩ := ih (some joined) spelling (line + 1)
      rw [if_pos (opens.mp isOpen)] at goesOn
      exact ⟨lines, goesOn.trans behind, derived⟩
  | @closes before row source later f forms read fits closed formOf more ih =>
    subst same
    cases row with
    | nil => exact absurd leavesOpen_nil closed
    | cons l row =>
      obtain ⟨joined, spelling, opens, goesOn⟩ := ofLines_filled read fits line later
      obtain ⟨lines, behind, derived⟩ := ih none rfl (line + 1)
      rw [if_neg (opens.not.mp closed), behind] at goesOn
      exact ⟨joined.line :: lines, goesOn, .cons (spelling ▸ formOf) derived⟩

end LogicalLine

namespace Grammar

theorem statements_of_lines {lines : List LogicalLine} {forms : List Form}
    (derived : List.Forall₂ (fun l f => FormOf (lexemes l.tokens) f) lines forms) :
    ∃ sts : List Statement, List.Forall₂ Derives lines sts ∧ sts.map (·.form) = forms := by
  induction derived with
  | nil => exact ⟨[], .nil, rfl⟩
  | @cons l f lines forms first others ih =>
    obtain ⟨sts, below, rfl⟩ := ih
    exact ⟨⟨f, l.first.line⟩ :: sts, .cons ⟨first, rfl⟩ below, rfl⟩

end Grammar

namespace Script

open LogicalLine

theorem parse_iff_yields {source : String} {forms : List Form} :
    (∃ script, parse source = .ok script ∧ script.statements.map (·.form) = forms) ↔
      Lexeme.Yields [] (Text.lines source.toList) forms := by
  constructor
  · rintro ⟨script, read, rfl⟩
    obtain ⟨lines, scanned, statements⟩ := Except.bind_eq_ok.mp (parse_eq_ok.mp read)
    have derived := (statements_eq_ok (proper_scan scanned)).mp statements
    exact yields_of_ofLines scanned (List.forall₂_map_right_iff.mpr (derived.imp fun l st tree => tree.form))
  · intro yields
    obtain ⟨lines, scanned, derived⟩ := ofLines_of_yields yields none rfl 1
    obtain ⟨statements, trees, forms⟩ := statements_of_lines derived
    have read := (statements_eq_ok (proper_scan scanned)).mpr trees
    exact ⟨ofStatements statements, parse_eq_ok.mpr (Except.bind_eq_ok.mpr ⟨lines, scanned, read⟩), forms⟩

end Script
end Walkthrough
