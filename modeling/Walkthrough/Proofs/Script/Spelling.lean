import Walkthrough.Proofs.Script.Derivation

/-!
How statements are spelled. The display of a statement is the texts of the lexemes that derive it, with
one space between each two of them (`FormOf.display_eq`). No statement but a comment has a comment among
its lexemes, none ends with a connective, and every word in it is an identifier.
-/
namespace Walkthrough

namespace Lexeme

/-- The texts of lexemes, with one space between each two. -/
def spaced : List Lexeme → List Char
  | [] => []
  | [l] => l.text.toList
  | l :: next :: later => l.text.toList ++ ' ' :: spaced (next :: later)

theorem spaced_cons (l : Lexeme) {later : List Lexeme} (more : later ≠ []) :
    spaced (l :: later) = l.text.toList ++ ' ' :: spaced later := by
  cases later with
  | nil => exact absurd rfl more
  | cons next later => rfl

theorem spaced_append {first later : List Lexeme} (some : first ≠ []) (more : later ≠ []) :
    spaced (first ++ later) = spaced first ++ ' ' :: spaced later := by
  induction first with
  | nil => exact absurd rfl some
  | cons l others ih =>
    cases others with
    | nil => exact spaced_cons l more
    | cons next others =>
      have rest := ih (List.cons_ne_nil next others)
      rw [List.cons_append, spaced_cons l (List.append_ne_nil_of_right_ne_nil _ more), rest,
        spaced_cons l (List.cons_ne_nil next others), List.append_assoc, List.cons_append]

/-- What a word in a statement is. -/
def Named : Lexeme → Prop
  | word letters => Name.isName letters.toList = true ∧ ∀ k : Keyword, k.text ≠ letters
  | comment _ => False
  | _ => True

/-- Does the line go on in the next one after this lexeme? -/
def isConnective : Lexeme → Bool
  | keyword k => k.isConnective
  | _ => false

end Lexeme

theorem Command.displayAll_cons (c : Command) {later : List Command} (more : later ≠ []) :
    (Command.displayAll (c :: later)).toList =
      c.display.toList ++ " and ".toList ++ (Command.displayAll later).toList := by
  cases later with
  | nil => exact absurd rfl more
  | cons next later =>
    simp only [Command.displayAll, String.toList_intercalate, List.map_cons, List.intercalate_cons_cons]

namespace Grammar

open Lexeme

/-- What derivable lexemes have in common: there are some, no comment is among them and every word is an
identifier, and they do not end with a connective. -/
structure Complete (spelling : List Lexeme) : Prop where
  named : ∀ l ∈ spelling, l.Named
  closed : ∃ before last, spelling = before ++ [last] ∧ last.isConnective = false

theorem Complete.ne_nil {spelling : List Lexeme} (complete : Complete spelling) : spelling ≠ [] := by
  obtain ⟨before, last, rfl, -⟩ := complete.closed
  exact List.append_ne_nil_of_right_ne_nil _ (List.cons_ne_nil last [])

theorem Complete.append {first later : List Lexeme} (named : ∀ l ∈ first, l.Named)
    (complete : Complete later) : Complete (first ++ later) := by
  obtain ⟨before, last, rfl, closed⟩ := complete.closed
  refine ⟨fun l listed => ?_, first ++ before, last, (List.append_assoc _ _ _).symm, closed⟩
  rcases List.mem_append.mp listed with inFirst | inLater
  · exact named l inFirst
  · exact complete.named l inLater

theorem Complete.cons {l : Lexeme} {later : List Lexeme} (named : l.Named) (complete : Complete later) :
    Complete (l :: later) :=
  Complete.append (List.forall_mem_singleton.mpr named) complete

theorem complete_singleton {l : Lexeme} (named : l.Named) (closed : l.isConnective = false) :
    Complete [l] :=
  ⟨List.forall_mem_singleton.mpr named, [], l, rfl, closed⟩

theorem Identifier.complete {lexeme : Lexeme} {name : String} (identifier : Identifier lexeme name) :
    Complete [lexeme] ∧ lexeme.text = name := by
  cases identifier with
  | word name shape free => exact ⟨complete_singleton ⟨shape, free⟩ rfl, rfl⟩

theorem Argument.complete {lexeme : Lexeme} {p : Param} (argument : Argument lexeme p) :
    Complete [lexeme] ∧ lexeme.text = p.display := by
  cases argument with
  | quoted content => exact ⟨complete_singleton trivial rfl, rfl⟩
  | number digits => exact ⟨complete_singleton trivial rfl, rfl⟩
  | named identifier => exact identifier.complete

theorem CommandOf.complete {handling : Bool} {spelling : List Lexeme} {c : Command}
    (derivation : CommandOf handling spelling c) : Complete spelling := by
  cases derivation with
  | bare v shape allowed => exact complete_singleton trivial rfl
  | argument v shape argument => exact Complete.cons trivial argument.complete.1
  | target v shape identifier => exact Complete.cons trivial identifier.complete.1

theorem SequenceOf.complete {handling : Bool} {spelling : List Lexeme} {cs : List Command}
    (derivation : SequenceOf handling spelling cs) : Complete spelling := by
  induction derivation with
  | last command => exact command.complete
  | joined command more ih => exact Complete.append command.complete.named (Complete.cons trivial ih)

theorem FormOf.complete {spelling : List Lexeme} {f : Form} (derivation : FormOf spelling f)
    (silent : ∀ text, f ≠ .comment text) : Complete spelling := by
  cases derivation with
  | comment text => exact absurd rfl (silent text)
  | save value identifier =>
    exact Complete.cons trivial (Complete.cons trivial (Complete.cons trivial identifier.complete.1))
  | conditional predicate body =>
    exact Complete.cons trivial (Complete.append predicate.complete.named (Complete.cons trivial body.complete))
  | handler body => exact Complete.cons trivial body.complete
  | under anchor body => exact Complete.append anchor.complete.1.named body.complete |>.cons trivial
  | underActive body => exact Complete.cons trivial body.complete
  | run body => exact body.complete

/-- All statements but comments begin with a keyword. -/
theorem FormOf.begins {spelling : List Lexeme} {f : Form} (derivation : FormOf spelling f)
    (silent : ∀ text, f ≠ .comment text) : ∃ k later, spelling = .keyword k :: later := by
  cases derivation with
  | comment text => exact absurd rfl (silent text)
  | run body =>
    obtain ⟨v, later, begins⟩ := sequence_begins body
    exact ⟨.verb v, later, begins⟩
  | _ => exact ⟨_, _, rfl⟩

theorem CommandOf.display_eq {handling : Bool} {spelling : List Lexeme} {c : Command}
    (derivation : CommandOf handling spelling c) : c.display.toList = spaced spelling := by
  cases derivation with
  | bare v shape allowed => cases v <;> first | rfl | cases shape
  | @argument lexeme p v shape argument =>
    have written : ({ verb := v, param := some p } : Command).display = v.text ++ " " ++ p.display := by
      cases v <;> first | rfl | cases shape
    rw [written, ← argument.complete.2]
    simp [spaced, Lexeme.text, Keyword.text]
  | @target lexeme name v shape identifier =>
    have reading : v = .readTo := by cases v <;> first | rfl | cases shape
    subst reading
    change ("read-to " ++ name).toList = _
    rw [← identifier.complete.2]
    simp [spaced, Lexeme.text, Keyword.text, Verb.text]

theorem SequenceOf.display_eq {handling : Bool} {spelling : List Lexeme} {cs : List Command}
    (derivation : SequenceOf handling spelling cs) :
    (Command.displayAll cs).toList = spaced spelling ∧ cs ≠ [] := by
  induction derivation with
  | @last lexemes c command =>
    refine ⟨?_, List.cons_ne_nil c []⟩
    have alone : Command.displayAll [c] = c.display := rfl
    rw [alone, command.display_eq]
  | @joined lexemes later c cs command more ih =>
    refine ⟨?_, List.cons_ne_nil c cs⟩
    rw [Command.displayAll_cons c ih.2, ih.1, command.display_eq,
      spaced_append command.complete.ne_nil (List.cons_ne_nil _ _), spaced_cons _ more.complete.ne_nil]
    simp [Lexeme.text, Keyword.text]

theorem FormOf.display_eq {spelling : List Lexeme} {f : Form} (derivation : FormOf spelling f) :
    f.display.toList = spaced spelling := by
  cases derivation with
  | comment text => rfl
  | save value identifier =>
    change ("save \"" ++ value ++ "\" as " ++ _).toList = _
    rw [← identifier.complete.2]
    simp [spaced, Lexeme.text, Keyword.text]
  | conditional predicate body =>
    change ("if " ++ Command.display _ ++ " then " ++ Command.displayAll _).toList = _
    rw [spaced_cons _ (List.append_ne_nil_of_right_ne_nil _ (List.cons_ne_nil _ _)),
      spaced_append predicate.complete.ne_nil (List.cons_ne_nil _ _), spaced_cons _ body.complete.ne_nil,
      ← predicate.display_eq, ← body.display_eq.1]
    simp [Lexeme.text, Keyword.text]
  | handler body =>
    change ("catch-error: " ++ Command.displayAll _).toList = _
    rw [spaced_cons _ body.complete.ne_nil, ← body.display_eq.1]
    simp [Lexeme.text, Keyword.text]
  | under anchor body =>
    change ("under " ++ Param.display _ ++ " " ++ Command.displayAll _).toList = _
    rw [spaced_cons _ (List.cons_ne_nil _ _), spaced_cons _ body.complete.ne_nil, ← body.display_eq.1,
      anchor.complete.2]
    simp [Lexeme.text, Keyword.text]
  | underActive body =>
    change ("under-active-element " ++ Command.displayAll _).toList = _
    rw [spaced_cons _ body.complete.ne_nil, ← body.display_eq.1]
    simp [Lexeme.text, Keyword.text]
  | run body => exact body.display_eq.1

end Grammar
end Walkthrough
