import Walkthrough.Proofs.Script.Lexing
import Walkthrough.Proofs.Script.Yields

/-!
Reading displays again. The display of a statement that was read is one logical line, with the lexemes
that the statement was read from (`reads_of_derived`), so a text with one display on each line is read as
the same forms (`parse_displays`).
-/
namespace Walkthrough

open Text Grammar

namespace LogicalLine

/-- Each lexeme of the line is one of a physical line among `sources`. -/
def From (sources : List (List Char)) (l : LogicalLine) : Prop :=
  ∀ t ∈ l.tokens, ∃ source ∈ sources, ∃ spelling, Lexeme.ofLine source = .ok spelling ∧ t.lexeme ∈ spelling

theorem from_extend {sources : List (List Char)} {begun : Option Begun} {line : Int} {source : List Char}
    {first : Token} {rest : List Token} (before : ∀ b ∈ begun, From sources b.line)
    (listed : source ∈ sources) (split : Token.ofLine line source = .ok (first :: rest)) :
    From sources (extend begun first rest).line := by
  intro t here
  rw [tokens_extend] at here
  rcases List.mem_append.mp here with old | new
  · cases begun with
    | none => cases old
    | some b => exact before b rfl t old
  · obtain ⟨spelling, read, same⟩ := token_ofLine_eq_ok.mp split
    rw [same] at new
    obtain ⟨l, spelled, rfl⟩ := List.mem_map.mp new
    exact ⟨source, listed, spelling, read, spelled⟩

theorem from_ofLines {all sources : List (List Char)} {begun : Option Begun} {line : Int}
    {lines : List LogicalLine} (before : ∀ b ∈ begun, From all b.line) (within : sources ⊆ all)
    (read : ofLines begun line sources = .ok lines) : ∀ l ∈ lines, From all l := by
  have nothing : ∀ b ∈ (none : Option Begun), From all b.line := fun b same => by cases same
  induction sources generalizing begun line lines with
  | nil =>
    cases begun with
    | none =>
      cases read
      exact fun l listed => by cases listed
    | some b => cases read
  | cons source later ih =>
    obtain ⟨here, others⟩ := List.cons_subset.mp within
    rcases ofLines_cons read with ⟨-, goesOn⟩ | ⟨first, rest, split, -, goesOn⟩
    · exact ih before others goesOn
    · have joined := from_extend before here split
      rcases goesOn with ⟨-, goesOn⟩ | ⟨-, more, goesOn, rfl⟩
      · exact ih (fun b same => by cases same; exact joined) others goesOn
      · exact List.forall_mem_cons.mpr ⟨joined, ih nothing others goesOn⟩

theorem written_scan {source : String} {lines : List LogicalLine} (scanned : scan source = .ok lines) :
    ∀ l ∈ lines, ∀ lexeme ∈ lexemes l.tokens, lexeme.Written := by
  intro l listed lexeme spelled
  obtain ⟨t, here, rfl⟩ := List.mem_map.mp spelled
  have origin : From (Text.lines source.toList) l :=
    from_ofLines (fun b same => by cases same) (List.Subset.refl _) scanned l listed
  obtain ⟨physical, one, spelling, read, among⟩ := origin t here
  exact Lexeme.written_ofLine (oneLine_lines physical one) read _ among

end LogicalLine

namespace Grammar

open Lexeme LogicalLine

/-- The display of the form is a line of its own, which is split into lexemes that derive the form. -/
structure Reads (f : Form) (spelling : List Lexeme) : Prop where
  derived : FormOf spelling f
  read : Lexeme.ofLine f.display.toList = .ok spelling
  neat : Neat f.display.toList
  closed : ∃ before last, spelling = before ++ [last] ∧ last.isConnective = false

theorem mark_not_mem_keyword (k : Keyword) : '#' ∉ k.text.toList := by
  cases k with
  | verb v => cases v <;> decide
  | _ => decide

theorem ofLine_spaced {k : Keyword} {later : List Lexeme} (trimmed : Trimmed (spaced (.keyword k :: later)))
    (split : Lexeme.split .gap (spaced (.keyword k :: later)) = .ok (.keyword k :: later)) :
    Lexeme.ofLine (spaced (.keyword k :: later)) = .ok (.keyword k :: later) := by
  obtain ⟨rest, begins⟩ : ∃ rest, spaced (.keyword k :: later) = k.text.toList ++ rest := by
    cases later with
    | nil => exact ⟨[], (List.append_nil _).symm⟩
    | cons next later => exact ⟨' ' :: spaced (next :: later), rfl⟩
  unfold Lexeme.ofLine
  rw [trim_of_trimmed trimmed]
  split
  · rename_i after marked
    have same : k.text.toList ++ rest = '#' :: after := begins.symm.trans marked
    cases spelled : k.text.toList with
    | nil => exact absurd spelled (solid_keyword k).filled
    | cons c others =>
      rw [spelled, List.cons_append] at same
      have mark : '#' ∈ k.text.toList := by
        rw [spelled, (List.cons.inj same).1]
        exact List.mem_cons_self
      exact absurd mark (mark_not_mem_keyword k)
  · exact split

theorem reads_comment {text : String} (written : (Lexeme.comment text).Written) :
    Reads (.comment text) [.comment text] := by
  obtain ⟨rest, marked, trimmed, one⟩ := written
  refine ⟨.comment text, ?_, ⟨?_, trimmed, one⟩, [], .comment text, rfl, rfl⟩
  · change Lexeme.ofLine text.toList = _
    unfold Lexeme.ofLine
    rw [trim_of_trimmed trimmed, marked]
    change Except.ok [Lexeme.comment (String.ofList ('#' :: rest))] = _
    rw [← marked, String.ofList_toList]
  · change text.toList ≠ []
    rw [marked]
    exact List.cons_ne_nil _ _

theorem reads_of_derived {spelling : List Lexeme} {f : Form} (derived : FormOf spelling f)
    (written : ∀ l ∈ spelling, l.Written) : Reads f spelling := by
  by_cases silent : ∀ text, f ≠ .comment text
  · have complete := derived.complete silent
    have neat := neat_spaced complete.ne_nil written complete.named
    have split := split_spaced written complete.named
    have display := derived.display_eq
    obtain ⟨k, later, rfl⟩ := derived.begins silent
    exact ⟨derived, display ▸ ofLine_spaced neat.trimmed split, display ▸ neat, complete.closed⟩
  · push Not at silent
    obtain ⟨text, rfl⟩ := silent
    cases derived with
    | comment text => exact reads_comment (written _ List.mem_cons_self)

/-- Each display is a logical line, since its last lexeme is no connective. -/
theorem yields_displays {forms : List Form} (reads : ∀ f ∈ forms, ∃ spelling, Reads f spelling) :
    Yields [] (forms.map fun f => f.display.toList) forms := by
  induction forms with
  | nil => exact .done
  | cons f later ih =>
    obtain ⟨⟨spelling, first⟩, others⟩ := List.forall_mem_cons.mp reads
    have fits : Fits [] spelling := fun text comment => rfl
    have closed : ¬ LeavesOpen spelling := by
      obtain ⟨before, last, rfl, connective⟩ := first.closed
      intro isOpen
      rw [isOpen last List.getLast?_concat] at connective
      cases connective
    exact .closes first.read fits closed first.derived (ih others)

theorem exists_derives_of_mem {lines : List LogicalLine} {sts : List Statement} {st : Statement}
    (derived : List.Forall₂ Derives lines sts) (listed : st ∈ sts) : ∃ l ∈ lines, Derives l st := by
  induction derived with
  | nil => cases listed
  | @cons l tree lines sts first others ih =>
    rcases List.mem_cons.mp listed with rfl | later
    · exact ⟨l, List.mem_cons_self, first⟩
    · obtain ⟨m, below, derives⟩ := ih later
      exact ⟨m, List.mem_cons_of_mem l below, derives⟩

end Grammar

namespace Script

/-- The statement is one of a script that could be read. -/
def Parsed (st : Statement) : Prop :=
  ∃ source script, parse source = .ok script ∧ st ∈ script.statements

theorem reads_of_parsed {st : Statement} (parsed : Parsed st) : ∃ spelling, Reads st.form spelling := by
  obtain ⟨source, script, read, listed⟩ := parsed
  obtain ⟨lines, scanned, statements⟩ := Except.bind_eq_ok.mp (parse_eq_ok.mp read)
  have derived := (statements_eq_ok (LogicalLine.proper_scan scanned)).mp statements
  obtain ⟨l, line, tree⟩ := exists_derives_of_mem derived listed
  exact ⟨_, reads_of_derived tree.form (LogicalLine.written_scan scanned l line)⟩

theorem parse_of_lines {text : String} {sts : List Statement} (parsed : ∀ st ∈ sts, Parsed st)
    (lined : Text.lines text.toList = sts.map fun st => st.display.toList) :
    ∃ script, parse text = .ok script ∧ script.statements.map (·.form) = sts.map (·.form) := by
  have reads : ∀ f ∈ sts.map (·.form), ∃ spelling, Reads f spelling := by
    intro f listed
    obtain ⟨st, here, rfl⟩ := List.mem_map.mp listed
    exact reads_of_parsed (parsed st here)
  have yields := yields_displays reads
  rw [List.map_map] at yields
  exact parse_iff_yields.mpr (lined ▸ yields)

/-- Statements are read again from their displays, one on each line, but for the numbers of their lines. The
last line may be ended by a line feed. -/
theorem parse_displays {sts : List Statement} (ending : String) (parsed : ∀ st ∈ sts, Parsed st)
    (ended : ending = "" ∨ sts ≠ [] ∧ ending = "\n") :
    ∃ script, parse ("\n".intercalate (sts.map Statement.display) ++ ending) = .ok script ∧
      script.statements.map (·.form) = sts.map (·.form) := by
  have filled : ∀ s ∈ sts.map (fun st => st.display.toList), s ≠ [] ∧ OneLine s := by
    intro s listed
    obtain ⟨st, here, rfl⟩ := List.mem_map.mp listed
    obtain ⟨spelling, reads⟩ := reads_of_parsed (parsed st here)
    exact ⟨reads.neat.filled, reads.neat.one⟩
  have joined : ("\n".intercalate (sts.map Statement.display)).toList =
      List.intercalate ['\n'] (sts.map fun st => st.display.toList) := by
    rw [String.toList_intercalate, List.map_map]
    rfl
  obtain ⟨plain, closed⟩ := lines_joined filled
  apply parse_of_lines parsed
  rw [String.toList_append, joined]
  rcases ended with rfl | ⟨some, rfl⟩
  · simpa using plain
  · exact closed (by simpa using some)

end Script
end Walkthrough
