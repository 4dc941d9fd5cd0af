import Mathlib.Data.List.Chain
import Mathlib.Data.List.Forall2
import Mathlib.Logic.IsEmpty.Basic
import Walkthrough.Proofs.Run.Rows
import Walkthrough.Proofs.Text.Numbered

/-!
Placeholders in a text. No two of them overlap (`Occurrence.apart`), so a text splits in exactly one way into
placeholders and literal pieces that hold none (`exists_splits`, `eq_split`). Filling in a text shows its pieces
one after the other, with values in the place of placeholders, and looks at the values no further
(`placeholders_filled_in_place`).
-/
namespace Walkthrough

namespace Piece

/-- A placeholder in the text, with what stands before it and after it. -/
@[ext]
structure Occurrence (text : List Char) where
  before : List Char
  name : List Char
  after : List Char
  named : Name.isName name = true
  whole : before ++ source (placeholder name) ++ after = text

/-- The text holds no placeholder. -/
def Literal (text : List Char) : Prop := IsEmpty (Occurrence text)

theorem not_mem_of_isName {name : List Char} (named : Name.isName name = true) {c : Char}
    (other : Name.isRest c = false) : c ∉ name := by
  intro listed
  cases name with
  | nil => cases named
  | cons first rest =>
    obtain ⟨start, others⟩ := Bool.and_eq_true_iff.mp named
    rcases List.mem_cons.mp listed with rfl | later
    · exact isRest_ne (isRest_of_isStart start) other rfl
    · exact isRest_ne (List.all_eq_true.mp others c later) other rfl

namespace Occurrence

variable {text : List Char}

theorem length_eq (o : Occurrence text) :
    text.length = o.before.length + (o.name.length + 2) + o.after.length := by
  have whole := congrArg List.length o.whole
  simp only [source, List.length_append, List.length_cons, List.length_nil] at whole
  omega

/-- How much of the text there is up to the end of the placeholder. -/
def stop (o : Occurrence text) : Nat := o.before.length + (source (placeholder o.name)).length

theorem eq_of_before {o o' : Occurrence text} (before : o.before = o'.before) : o = o' := by
  have same := o.whole.trans o'.whole.symm
  rw [before, List.append_assoc, List.append_assoc] at same
  have bracketed : o.name ++ '>' :: o.after = o'.name ++ '>' :: o'.after := by
    simpa [source] using List.append_cancel_left same
  have free (o : Occurrence text) : '>' ∉ o.name := not_mem_of_isName o.named (by decide)
  obtain ⟨names, after⟩ := Text.append_cons_inj bracketed (free o) (free o')
  exact Occurrence.ext before names after

/-- Of two placeholders the one that begins later begins after the end of the other. -/
theorem stop_le {o o' : Occurrence text} (later : o.before.length ≤ o'.before.length) :
    o = o' ∨ o.stop ≤ o'.before.length := by
  have same := o.whole.trans o'.whole.symm
  rw [List.append_assoc, List.append_assoc] at same
  obtain ⟨between, front⟩ : ∃ between, o'.before = o.before ++ between := by
    rcases List.append_eq_append_iff.mp same with ⟨between, front, -⟩ | ⟨between, front, -⟩
    · exact ⟨between, front⟩
    · have : between = [] := by
        rw [front, List.length_append] at later
        exact List.length_eq_zero_iff.mp (by omega)
      exact ⟨[], by simpa [this] using front.symm⟩
  rw [front, List.append_assoc] at same
  have rest := List.append_cancel_left same
  cases between with
  | nil => exact Or.inl (eq_of_before (by simpa using front.symm))
  | cons c between =>
    right
    -- If it began earlier, its bracket would be a letter of the name or the closing bracket.
    have inside : o.name ++ ['>'] ++ o.after = between ++ (source (placeholder o'.name) ++ o'.after) := by
      simpa [source] using (List.cons.inj rest).2
    rcases List.append_eq_append_iff.mp inside with ⟨further, rfl, -⟩ | ⟨further, split, behind⟩
    · simp [stop, front, source]
    · cases further with
      | nil => simp [stop, front, source, ← (List.append_nil between ▸ split)]
      | cons d further =>
        have bracket : '<' = d := by simpa [source] using (List.cons.inj behind).1
        have among : '<' ∈ o.name ++ ['>'] := by
          rw [split, bracket]
          simp
        have free : '<' ∉ o.name := not_mem_of_isName o.named (by decide)
        simp [free] at among

theorem apart (o o' : Occurrence text) : o = o' ∨ o.stop ≤ o'.before.length ∨ o'.stop ≤ o.before.length := by
  rcases Nat.le_total o.before.length o'.before.length with later | later
  · exact (stop_le later).imp_right Or.inl
  · exact (stop_le later).imp Eq.symm Or.inr

/-- A placeholder with no other before it. -/
theorem exists_first (o : Occurrence text) : ∃ first : Occurrence text, Literal first.before := by
  by_cases plain : Literal o.before
  · exact ⟨o, plain⟩
  · obtain ⟨earlier⟩ := not_isEmpty_iff.mp plain
    have shorter : earlier.before.length < o.before.length := by
      have := earlier.length_eq
      omega
    have whole : earlier.before ++ source (placeholder earlier.name) ++
        (earlier.after ++ (source (placeholder o.name) ++ o.after)) = text := by
      rw [← List.append_assoc, earlier.whole, ← List.append_assoc, o.whole]
    exact exists_first ⟨earlier.before, earlier.name, _, earlier.named, whole⟩
termination_by o.before.length

end Occurrence

/-! ### The one way to split a text -/

def isLiteral : Piece → Bool
  | literal _ => true
  | placeholder _ => false

/-- Placeholders, and literal pieces that hold none. No literal piece is empty, and no two stand side by side. -/
structure Splits (text : List Char) (pieces : List Piece) : Prop where
  whole : pieces.flatMap source = text
  named : ∀ name, placeholder name ∈ pieces → Name.isName name = true
  literals : ∀ s, literal s ∈ pieces → s ≠ [] ∧ Literal s
  apart : pieces.IsChain fun p q => ¬ (p.isLiteral = true ∧ q.isLiteral = true)

theorem Splits.tail {text : List Char} {p : Piece} {later : List Piece} (splits : Splits text (p :: later)) :
    Splits (later.flatMap source) later where
  whole := rfl
  named name among := splits.named name (List.mem_cons_of_mem p among)
  literals s among := splits.literals s (List.mem_cons_of_mem p among)
  apart := splits.apart.tail

theorem Splits.cons_placeholder {text name : List Char} {later : List Piece} (splits : Splits text later)
    (named : Name.isName name = true) : Splits (source (placeholder name) ++ text) (placeholder name :: later) where
  whole := by rw [List.flatMap_cons, splits.whole]
  named other among := by
    rcases List.mem_cons.mp among with same | behind
    · cases same
      exact named
    · exact splits.named other behind
  literals s among := splits.literals s ((List.mem_cons.mp among).resolve_left (by simp))
  apart := splits.apart.cons (by simp [isLiteral])

theorem Splits.cons_literal {text name s : List Char} {later : List Piece}
    (splits : Splits text (placeholder name :: later)) (filled : s ≠ []) (plain : Literal s) :
    Splits (s ++ text) (literal s :: placeholder name :: later) where
  whole := by rw [List.flatMap_cons, splits.whole, source]
  named other among := splits.named other ((List.mem_cons.mp among).resolve_left (by simp))
  literals t among := by
    rcases List.mem_cons.mp among with same | behind
    · cases same
      exact ⟨filled, plain⟩
    · exact splits.literals t behind
  apart := splits.apart.cons (by simp [isLiteral])

theorem splits_literal {s : List Char} (plain : Literal s) : Splits s (putLiteral s.reverse []) := by
  cases s with
  | nil => exact ⟨rfl, by simp [putLiteral], by simp [putLiteral], by simp [putLiteral]⟩
  | cons c rest => exact ⟨by simp [putLiteral, source], by simp [putLiteral], by simp [putLiteral, plain],
      by simp [putLiteral]⟩

theorem exists_splits (text : List Char) : ∃ pieces, Splits text pieces := by
  by_cases plain : Literal text
  · exact ⟨_, splits_literal plain⟩
  · obtain ⟨o⟩ := not_isEmpty_iff.mp plain
    obtain ⟨first, before⟩ := o.exists_first
    have shorter : first.after.length < text.length := by
      have := first.length_eq
      omega
    obtain ⟨pieces, splits⟩ := exists_splits first.after
    have placed := splits.cons_placeholder first.named
    rw [← first.whole, List.append_assoc]
    by_cases empty : first.before = []
    · exact ⟨_, by simpa [empty] using placed⟩
    · exact ⟨_, placed.cons_literal empty before⟩
termination_by text.length

/-! ### How a text is split -/

/-- What has been read since the last placeholder. -/
def held (read : List Char) (begun : Option (List Char)) : List Char :=
  read.reverse ++ begun.elim [] fun name => '<' :: name.reverse

theorem splitAfter_end (read : List Char) (begun : Option (List Char)) :
    splitAfter read begun [] = putLiteral (held read begun).reverse [] := by
  cases begun <;> simp [splitAfter, held]

/-- Reading a literal piece ends no placeholder. -/
theorem splitAfter_literal (read : List Char) (begun : Option (List Char)) {s : List Char}
    (begins : ∀ name ∈ begun, Begins name) (plain : Literal (held read begun ++ s)) :
    ∃ read' begun', held read' begun' = held read begun ++ s ∧
      ∀ rest, splitAfter read begun (s ++ rest) = splitAfter read' begun' rest := by
  induction s generalizing read begun with
  | nil => exact ⟨read, begun, by simp, fun rest => rfl⟩
  | cons c s ih =>
    have goesOn (read₁ : List Char) (begun₁ : Option (List Char)) (begins₁ : ∀ name ∈ begun₁, Begins name)
        (holds : held read₁ begun₁ = held read begun ++ [c])
        (step : ∀ rest, splitAfter read begun (c :: rest) = splitAfter read₁ begun₁ rest) :
        ∃ read' begun', held read' begun' = held read begun ++ c :: s ∧
          ∀ rest, splitAfter read begun (c :: s ++ rest) = splitAfter read' begun' rest := by
      have whole : held read₁ begun₁ ++ s = held read begun ++ c :: s := by simp [holds]
      obtain ⟨read', begun', same, later⟩ := ih read₁ begun₁ begins₁ (whole ▸ plain)
      exact ⟨read', begun', same.trans whole, fun rest => (step (s ++ rest)).trans (later rest)⟩
    cases begun with
    | none =>
      by_cases opens : c = '<'
      · exact goesOn read (some []) (by simp [Begins]) (by simp [held, opens])
          (by simp [splitAfter, opens])
      · exact goesOn (c :: read) none (by simp) (by simp [held])
          (by simp [splitAfter, opens])
    | some name =>
      have open_ : ¬ (c = '>' ∧ name ≠ []) := by
        rintro ⟨rfl, filled⟩
        have named := (begins name rfl).resolve_left filled
        exact plain.false ⟨read.reverse, name.reverse, s, named, by simp [held, source]⟩
      have kept : ¬ (decide (c = '>') && !name.isEmpty) = true := by simpa using open_
      by_cases opens : c = '<'
      · exact goesOn (name ++ '<' :: read) (some []) (by simp [Begins])
          (by simp [held, opens]) (by simp [splitAfter, opens])
      · by_cases fitting : fits name c = true
        · exact goesOn read (some (c :: name))
            (by simpa using begins_cons (begins name rfl) fitting) (by simp [held])
            (fun rest => by rw [splitAfter, if_neg kept, if_neg opens, if_pos fitting])
        · exact goesOn (c :: name ++ '<' :: read) none (by simp) (by simp [held])
            (fun rest => by rw [splitAfter, if_neg kept, if_neg opens, if_neg fitting])

theorem splitAfter_placeholder (read : List Char) (begun : Option (List Char)) {name : List Char}
    (named : Name.isName name = true) (rest : List Char) :
    splitAfter read begun (source (placeholder name) ++ rest) =
      putLiteral (held read begun).reverse (placeholder name :: split rest) := by
  have opened : splitAfter read begun (source (placeholder name) ++ rest) =
      splitAfter (held read begun).reverse (some []) (name ++ '>' :: rest) := by
    cases begun <;> simp [splitAfter, source, held]
  rw [opened, splitAfter_name _ named]

/-- What splits a text in the one way is found. -/
theorem eq_split {text : List Char} {pieces : List Piece} (splits : Splits text pieces) : pieces = split text := by
  induction pieces generalizing text with
  | nil =>
    rw [← splits.whole]
    rfl
  | cons p later ih =>
    have behind := ih splits.tail
    rw [← splits.whole, List.flatMap_cons]
    cases p with
    | placeholder name =>
      have named := splits.named name List.mem_cons_self
      have read := splitAfter_placeholder [] none named (later.flatMap source)
      rw [split, read, ← behind]
      rfl
    | literal s =>
      obtain ⟨filled, plain⟩ := splits.literals s List.mem_cons_self
      obtain ⟨read, begun, holds, step⟩ := splitAfter_literal [] none (by simp) (by simpa [held] using plain)
      have putting (others : List Piece) : putLiteral s.reverse others = literal s :: others := by
        simp [putLiteral, filled]
      replace holds : held read begun = s := holds
      rw [source, split, step]
      cases later with
      | nil => rw [List.flatMap_nil, splitAfter_end, holds, putting]
      | cons q others =>
        cases q with
        | literal t => exact absurd ⟨rfl, rfl⟩ splits.apart.rel
        | placeholder name =>
          have named := splits.named name (by simp)
          have here := splitAfter_placeholder read begun named (others.flatMap source)
          have there := splitAfter_placeholder [] none named (others.flatMap source)
          rw [List.flatMap_cons, split, there] at behind
          rw [List.flatMap_cons, here, holds, putting, behind]
          rfl

/-- What is shown for a piece: a placeholder shows the value of a variable, or else of the row, or else itself. -/
inductive FilledBy {η : Type} (m : Memory η) : Piece → List Char → Prop where
  | literal (s : List Char) : FilledBy m (literal s) s
  | bound {name : List Char} {value : String} (found : m.bindings.lookup (String.ofList name) = some value) :
    FilledBy m (placeholder name) value.toList
  | given {name : List Char} {value : String} (free : m.bindings.lookup (String.ofList name) = none)
      (found : m.row.lookup (String.ofList name) = some value) : FilledBy m (placeholder name) value.toList
  | unknown {name : List Char} (free : m.bindings.lookup (String.ofList name) = none)
      (absent : m.row.lookup (String.ofList name) = none) :
    FilledBy m (placeholder name) (source (placeholder name))

theorem filledBy_fill {η : Type} (m : Memory η) (p : Piece) : FilledBy m p (fill m.lookup p) := by
  cases p with
  | literal s => exact .literal s
  | placeholder name =>
    cases bound : m.bindings.lookup (String.ofList name) with
    | some value => simpa [fill, Memory.lookup, bound] using FilledBy.bound bound
    | none =>
      cases given : m.row.lookup (String.ofList name) with
      | some value => simpa [fill, Memory.lookup, bound, given] using FilledBy.given bound given
      | none => simpa [fill, Memory.lookup, bound, given] using FilledBy.unknown bound given

end Piece

open Piece

/-- The placeholders of a text do not overlap, so it splits in one way, whatever the memory. Filled in, it shows its
pieces in order: a literal piece as it is, and for a placeholder the variable's value, the row's, or itself. -/
theorem placeholders_filled_in_place (text : String) :
    (∀ o o' : Occurrence text.toList, o = o' ∨ o.stop ≤ o'.before.length ∨ o'.stop ≤ o.before.length) ∧
    ∃ pieces, Splits text.toList pieces ∧ (∀ pieces', Splits text.toList pieces' → pieces' = pieces) ∧
      ∀ {η : Type} (m : Memory η), ∃ shown, List.Forall₂ (FilledBy m) pieces shown ∧
        m.fillIn text = String.ofList shown.flatten := by
  obtain ⟨pieces, splits⟩ := exists_splits text.toList
  obtain rfl := eq_split splits
  refine ⟨Occurrence.apart, _, splits, fun pieces' other => eq_split other, fun m => ?_⟩
  refine ⟨(split text.toList).map (fill m.lookup), ?_, ?_⟩
  · exact List.forall₂_map_right_iff.mpr (List.forall₂_same.mpr fun p _ => filledBy_fill m p)
  · rw [← List.flatMap_def]
    rfl

/-- Values that are placeholders, or that become one with the text around them, stay as they are. -/
example : ({ bindings := [("a", "<b>"), ("b", "a")], row := [("a", "x"), ("c", "<")] } : Memory Unit).fillIn
    "<<b>> <a> <c>a> <d>" = "<a> <b> <a> <d>" := by
  decide +kernel

end Walkthrough
