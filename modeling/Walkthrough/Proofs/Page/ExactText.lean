import Walkthrough.Proofs.Page.Quoting

/-!
Looking for an element by its whole text. The page normalizes the text of the element, the program the description;
a text that has a blank which is none for XPath is normalized differently, and is then not found by itself
(`own_text_matches_iff`).
-/
namespace Walkthrough.XPath

open Text

/-- The text as XPath normalizes it: one space for every stretch of white space, and none at the ends. -/
def normalizeSpace (s : List Char) : List Char :=
  List.intercalate [' '] ((s.splitOnP isSpace).filter fun piece => !piece.isEmpty)

theorem isBlank_of_isSpace {c : Char} (space : isSpace c = true) : isBlank c = true := by
  simp only [isSpace, Bool.or_eq_true, decide_eq_true_eq] at space
  rcases space with ((rfl | rfl) | rfl) | rfl <;> decide

theorem mem_normalizeSpace {s : List Char} {c : Char} (listed : c ∈ s) (other : isSpace c = false) :
    c ∈ normalizeSpace s := by
  obtain ⟨piece, among, inside⟩ := exists_mem_splitOnP listed other
  have filled : piece ≠ [] := List.ne_nil_of_mem inside
  exact mem_intercalate_of_mem [' '] (List.mem_filter.mpr ⟨among, by simpa using filled⟩) inside

theorem compact_eq_normalizeSpace {s : List Char} (spaces : ∀ c ∈ s, isBlank c = true → isSpace c = true) :
    compact s = normalizeSpace s := by
  have same : ∀ c ∈ s, isBlank c = isSpace c := fun c listed =>
    Bool.eq_iff_iff.mpr ⟨spaces c listed, isBlank_of_isSpace⟩
  rw [compact, words_eq_splitOnP, splitOnP_congr same, normalizeSpace]

/-- The two ways to normalize a text agree if and only if it has no blank but those of XPath and is not cut. -/
theorem cut_compact_eq_iff (limit : Nat) (s : List Char) :
    cut limit (compact s) = normalizeSpace s ↔
      (∀ c ∈ s, isBlank c = true → isSpace c = true) ∧ (compact s).length ≤ limit := by
  constructor
  · intro same
    have spaces : ∀ c ∈ s, isBlank c = true → isSpace c = true := by
      intro c listed blank
      cases space : isSpace c with
      | true => rfl
      | false =>
        -- The page keeps the character, and the program does not.
        have kept : c ∈ compact s := cut_subset limit _ (same ▸ mem_normalizeSpace listed space)
        obtain rfl := eq_space_of_mem_compact kept blank
        cases space
    refine ⟨spaces, ?_⟩
    have uncut := length_cut_le limit (compact s)
    rwa [same, ← compact_eq_normalizeSpace spaces] at uncut
  · intro agrees
    obtain ⟨spaces, short⟩ := agrees
    rw [cut_of_length_le short, compact_eq_normalizeSpace spaces]

/-- Elements with a text whose normalized form is the operand. -/
def exactTextTest (within : Bool) (operand : List Token) : List Token :=
  (if within then [.sign ['.'], .sign ['/', '/']] else [.sign ['/', '/']]) ++
    [.sign ['*'], .sign ['['], .name "text".toList, .sign ['('], .sign [')'], .sign ['['],
      .name "normalize-space".toList, .sign ['('], .sign ['.'], .sign [')'], .sign ['=']] ++
    operand ++ [.sign [']'], .sign [']']]

theorem operand_text (value : String) : operand .text value = cut 10000 (compact value.toList) := by
  unfold operand operandLimit
  rw [if_neg (by decide)]

theorem reads_exactText (value : String) (within : Bool) :
    ∃ xpath hole, of? .text value within = some xpath ∧ Reads xpath.toList (exactTextTest within hole) ∧
      Token.text? hole = some (operand .text value) := by
  obtain ⟨hole, quoted, text⟩ := reads_literal (operand .text value)
  have onAxis : Reads (axis within).toList
      (if within then [.sign ['.'], .sign ['/', '/']] else [.sign ['/', '/']]) := by
    cases within <;> exact ⟨_, _, _, rfl, rfl, rfl, rfl⟩
  have inFront : Reads "*[text()[normalize-space(.)=".toList
      [.sign ['*'], .sign ['['], .name "text".toList, .sign ['('], .sign [')'], .sign ['['],
        .name "normalize-space".toList, .sign ['('], .sign ['.'], .sign [')'], .sign ['=']] :=
    ⟨_, _, _, rfl, rfl, rfl, rfl⟩
  have behind : Reads "]]".toList [.sign [']'], .sign [']']] := ⟨_, _, _, rfl, rfl, rfl, rfl⟩
  refine ⟨_, hole, rfl, ?_, text⟩
  simp only [String.toList_append, String.toList_ofList]
  exact ((onAxis.append inFront).append quoted).append behind

/-- The expression that looks for a text by the whole of it tests whether the normalized text of an element is what its
operand stands for. The text itself passes that test if and only if it has no blank but space, tab, carriage return
and line feed, and is compacted to ten thousand characters at most. -/
theorem own_text_matches_iff (t : String) (within : Bool) :
    ∃ xpath hole, of? .text t within = some xpath ∧ tokens? xpath.toList = some (exactTextTest within hole) ∧
      Token.text? hole = some (cut 10000 (compact t.toList)) ∧
      (cut 10000 (compact t.toList) = normalizeSpace t.toList ↔
        (∀ c ∈ t.toList, isBlank c = true → isSpace c = true) ∧ (compact t.toList).length ≤ 10000) := by
  obtain ⟨xpath, hole, expression, reads, text⟩ := reads_exactText t within
  have agrees := cut_compact_eq_iff 10000 t.toList
  rw [Int.cast_ofNat_Int] at agrees
  rw [operand_text] at text
  exact ⟨xpath, hole, expression, reads.tokens, text, agrees⟩

/-- Two words with a no-break space between them. -/
def noBreak : String := "a\u00a0b"

/-- A text with a no-break space is not found by itself, short as it is. -/
theorem own_text_missed :
    (compact noBreak.toList).length ≤ 10000 ∧ (normalizeSpace noBreak.toList).length ≤ 10000 ∧
      operand .text noBreak ≠ normalizeSpace noBreak.toList := by
  decide

end Walkthrough.XPath
