import Mathlib.Data.List.Pairwise
import Walkthrough.Proofs.Script.Refusals

/-!
Where mistakes are reported. A token that is found carries the number of the physical line on which it stands. Where the
tokens run out, the number of the first one's line is told, and this is the last one's only if the logical line lies on
one physical line (`mistakes_are_placed`).
-/
namespace Walkthrough

open Grammar

namespace LogicalLine

variable {first : Nat} {sources : List (List Char)} {rows : List (List Token)}

/-- The token is one of physical line `i`, the lines being counted from zero. -/
def StandsOn (sources : List (List Char)) (i : Nat) (t : Token) : Prop :=
  ∃ row, rowAt sources i = some (.ok row) ∧ t ∈ row

theorem RowsOf.source (rowsOf : RowsOf first sources rows) :
    ∀ row ∈ rows, ∃ i source, sources[i]? = some source ∧ Token.ofLine ((first + i : Nat) : Int) source = .ok row := by
  induction sources generalizing first rows with
  | nil =>
    cases rowsOf
    exact List.forall_mem_nil _
  | cons source later ih =>
    cases rowsOf with
    | cons here below =>
      refine List.forall_mem_cons.mpr ⟨⟨0, source, rfl, here⟩, fun row listed => ?_⟩
      obtain ⟨i, other, place, read⟩ := ih below row listed
      exact ⟨i + 1, other, place, by rwa [Nat.add_right_comm] at read⟩

theorem RowsOf.standsOn (rowsOf : RowsOf 1 sources rows) {t : Token} (listed : t ∈ rows.flatten) :
    ∃ i, StandsOn sources i t := by
  obtain ⟨row, among, inside⟩ := List.mem_flatten.mp listed
  obtain ⟨i, source, place, read⟩ := rowsOf.source row among
  refine ⟨i, row, ?_, inside⟩
  rw [rowAt, place, Option.map_some, ← read]
  push_cast
  rw [Int.add_comm]

theorem StandsOn.line_eq {i : Nat} {t : Token} (stands : StandsOn sources i t) : t.line = i + 1 := by
  obtain ⟨row, read, inside⟩ := stands
  exact line_of_rowAt read t inside

/-- The numbers do not go back from a token to the next. -/
theorem RowsOf.ordered (rowsOf : RowsOf first sources rows) :
    (∀ t ∈ rows.flatten, (first : Int) ≤ t.line) ∧ rows.flatten.Pairwise fun t u => t.line ≤ u.line := by
  induction sources generalizing first rows with
  | nil =>
    cases rowsOf
    exact ⟨List.forall_mem_nil _, .nil⟩
  | cons source later ih =>
    cases rowsOf with
    | @cons _ row _ rows here below =>
      obtain ⟨lower, ordered⟩ := ih below
      have numbers : ∀ t ∈ row, t.line = first := line_of_ofLine here
      have behind : ∀ t ∈ rows.flatten, (first : Int) ≤ t.line := by
        intro t listed
        have := lower t listed
        omega
      rw [List.flatten_cons]
      refine ⟨List.forall_mem_append.mpr ⟨fun t listed => Int.le_of_eq (numbers t listed).symm, behind⟩, ?_⟩
      refine List.pairwise_append.mpr ⟨?_, ordered, fun t listed u below => ?_⟩
      · refine List.pairwise_of_forall_mem_list fun t listed u listed' => ?_
        exact Int.le_of_eq ((numbers t listed).trans (numbers u listed').symm)
      · rw [numbers t listed]
        exact behind u below

/-- The tokens of a logical line stand on physical lines, in their order. -/
structure Placed (sources : List (List Char)) (l : LogicalLine) : Prop where
  stands : ∀ t ∈ l.tokens, ∃ i, StandsOn sources i t
  ordered : l.tokens.Pairwise fun t u => t.line ≤ u.line

theorem placed_of_scan {source : String} {lines : List LogicalLine} (scanned : scan source = .ok lines) :
    ∀ l ∈ lines, Placed (Text.lines source.toList) l := by
  have read : ofLines none (1 : Nat) (Text.lines source.toList) = .ok lines := scanned
  obtain ⟨rows, groups, rowsOf, grouped, together⟩ := groups_ofLines joins_none read
  have whole : lines.flatMap tokens = rows.flatten := by
    rw [flatMap_tokens grouped, together, List.nil_append, flatten_filled]
  intro l listed
  have part : l.tokens.Sublist rows.flatten := by
    rw [← whole, List.flatMap]
    exact List.sublist_flatten_of_mem (List.mem_map_of_mem listed)
  exact ⟨fun t inside => rowsOf.standsOn (part.subset inside), rowsOf.ordered.2.sublist part⟩

/-- The last token stands on the line of the first one or below it, and on the same line only if all of them do. -/
theorem Placed.span {l : LogicalLine} {last : Token} (placed : Placed sources l)
    (lastly : l.tokens.getLast? = some last) :
    ∃ i j, StandsOn sources i l.first ∧ StandsOn sources j last ∧ i ≤ j ∧
      (i = j ↔ ∀ t ∈ l.tokens, StandsOn sources j t) := by
  obtain ⟨i, begins⟩ := placed.stands l.first List.mem_cons_self
  obtain ⟨j, ends⟩ := placed.stands last (List.mem_of_getLast? lastly)
  have first := begins.line_eq
  have final := ends.line_eq
  have above : ∀ t ∈ l.tokens, l.first.line ≤ t.line :=
    List.forall_mem_cons.mpr ⟨Int.le_refl _, (List.pairwise_cons.mp placed.ordered).1⟩
  have below : ∀ t ∈ l.tokens, t.line ≤ last.line := by
    obtain ⟨before, split⟩ := List.getLast?_eq_some_iff.mp lastly
    have ordered := placed.ordered
    rw [split] at ordered ⊢
    refine List.forall_mem_append.mpr ⟨fun t earlier => ?_, List.forall_mem_singleton.mpr (Int.le_refl _)⟩
    exact (List.pairwise_append.mp ordered).2.2 t earlier last List.mem_cons_self
  have upward := above last (List.mem_of_getLast? lastly)
  refine ⟨i, j, begins, ends, by omega, fun same t inside => ?_, fun all => ?_⟩
  · obtain ⟨k, stands⟩ := placed.stands t inside
    have between := And.intro (above t inside) (below t inside)
    have number := stands.line_eq
    obtain rfl : k = j := by omega
    exact stands
  · have number := (all l.first List.mem_cons_self).line_eq
    omega

end LogicalLine

namespace Grammar

open LogicalLine

/-- The tokens before this one can be continued to a statement, and together with it they cannot. -/
def StopsAt (l : LogicalLine) (t : Token) : Prop :=
  ∃ before after, l.tokens = before ++ t :: after ∧ Viable Stated (lexemes before) ∧
    ¬ Viable Stated (lexemes (before ++ [t]))

/-- Where a script is refused that can be split into logical lines, the first of them that is no statement is told by a
number. If some token of it cannot go on, that is the number of the physical line on which this token stands. Where the
tokens run out, it is the number of the first token's line; the last token stands on the same line or below it, and on
the same one if and only if all of them do. -/
theorem mistakes_are_placed {source : String} {lines : List LogicalLine} {e : SyntaxError}
    (scanned : scan source = .ok lines) (stopped : Script.parse source = .error e) :
    ∃ before l after, lines = before ++ l :: after ∧ (∀ m ∈ before, Stated (lexemes m.tokens)) ∧
      ¬ Stated (lexemes l.tokens) ∧
      ((∃ t i, StopsAt l t ∧ e.found = .text t.text ∧ StandsOn (Text.lines source.toList) i t ∧ e.line = i + 1) ∨
        ∃ last i j, Viable Stated (lexemes l.tokens) ∧ e.found = .endOfLine ∧ l.tokens.getLast? = some last ∧
          StandsOn (Text.lines source.toList) i l.first ∧ e.line = i + 1 ∧
          StandsOn (Text.lines source.toList) j last ∧ i ≤ j ∧
          (i = j ↔ ∀ t ∈ l.tokens, StandsOn (Text.lines source.toList) j t)) := by
  obtain ⟨before, l, after, rfl, stated, underivable, refuses⟩ := refuses_of_parse scanned stopped
  have placed := placed_of_scan scanned l (by simp)
  refine ⟨before, l, after, rfl, stated, underivable, ?_⟩
  cases refuses with
  | token read t rest split place found viable stuck =>
    obtain ⟨i, stands⟩ := placed.stands t (split ▸ List.mem_append_right read List.mem_cons_self)
    exact Or.inl ⟨t, i, ⟨read, rest, split, viable, stuck⟩, found, stands, place.trans stands.line_eq⟩
  | short place found viable =>
    obtain ⟨last, lastly⟩ : ∃ last, l.tokens.getLast? = some last := by
      rw [tokens, List.getLast?_cons]
      exact ⟨_, rfl⟩
    obtain ⟨i, j, begins, ends, span⟩ := placed.span lastly
    exact Or.inr ⟨last, i, j, viable, found, lastly, begins, place.trans begins.line_eq, ends, span⟩

theorem mistakes_are_placed_misplaced : ∃ lines, scan misplaced = .ok lines ∧
    Script.parse misplaced = .error ⟨4, .handlerForTryAgain, .text "try-again"⟩ ∧
    ∃ before l after, lines = before ++ l :: after ∧ (∀ m ∈ before, Stated (lexemes m.tokens)) ∧
      ¬ Stated (lexemes l.tokens) ∧ ∃ t, StopsAt l t ∧ t.text = "try-again" ∧
        StandsOn (Text.lines misplaced.toList) 3 t := by
  obtain ⟨before, l, after, split, stated, underivable, told⟩ := mistakes_are_placed scan_misplaced parse_misplaced
  refine ⟨_, scan_misplaced, parse_misplaced, before, l, after, split, stated, underivable, ?_⟩
  rcases told with ⟨t, i, stops, found, stands, place⟩ | ⟨last, i, j, viable, found, -⟩
  · have number : (4 : Int) = i + 1 := place
    obtain rfl : i = 3 := by omega
    exact ⟨t, stops, (Found.text.inj found).symm, stands⟩
  · cases found

/-- An argument is left out at the end of a line that goes over two physical ones. -/
def unfinished : String := "locate \"x\" and\nlocate"

/-- The tokens run out on the second physical line, and the first one is told. -/
theorem end_of_joined_line_misreported : ∃ l last e, scan unfinished = .ok [l] ∧
    Script.parse unfinished = .error e ∧ e.found = .endOfLine ∧ l.tokens.getLast? = some last ∧
    StandsOn (Text.lines unfinished.toList) 1 last ∧ last.line = 2 ∧ e.line = 1 := by
  have scanned : scan unfinished = .ok [⟨⟨.keyword (.verb .locate), 1⟩,
      [⟨.quoted "x", 1⟩, ⟨.keyword .and, 1⟩, ⟨.keyword (.verb .locate), 2⟩]⟩] := by decide +kernel
  have stopped : Script.parse unfinished = .error ⟨1, .argument, .endOfLine⟩ := Except.map_eq_error.mpr (by decide +kernel)
  have row : rowAt (Text.lines unfinished.toList) 1 = some (.ok [⟨.keyword (.verb .locate), 2⟩]) := by
    decide +kernel
  exact ⟨_, _, _, scanned, stopped, rfl, rfl, ⟨_, row, List.mem_cons_self⟩, rfl, rfl⟩

end Grammar
end Walkthrough
