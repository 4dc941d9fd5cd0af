import Walkthrough.Proofs.Page.Tokens
import Walkthrough.Proofs.Text.Words

/-!
Texts in XPath expressions. Whatever a text is, its literal is read as an operand that stands for that text
(`reads_literal`). A description therefore changes nothing in the expression of a strategy that quotes it but the one
operand (`operands_stay_apart`).
-/
namespace Walkthrough.XPath

/-! ### A text that is put together from pieces -/

theorem pieces_ne_nil (mark : Char) (s : List Char) : pieces mark s ≠ [] := by
  cases s with
  | nil => simp [pieces]
  | cons c rest =>
    unfold pieces
    split
    · simp
    · split <;> simp

theorem pieces_eq_splitOn (mark : Char) (s : List Char) : pieces mark s = s.splitOn mark := by
  induction s with
  | nil => rfl
  | cons c rest ih =>
    unfold pieces
    rw [List.splitOn, List.splitOnP_cons_eq_if_modifyHead, ← List.splitOn, ih]
    by_cases same : c = mark
    · simp [same]
    · have filled := pieces_ne_nil mark rest
      rw [ih] at filled
      obtain ⟨piece, later, split⟩ := List.exists_cons_of_ne_nil filled
      simp [same, split]

theorem not_mem_pieces {mark : Char} {s : List Char} : ∀ piece ∈ pieces mark s, mark ∉ piece := by
  intro piece among inside
  rw [pieces_eq_splitOn] at among
  simpa using Text.not_of_mem_splitOnP among mark inside

theorem pieces_of_mem {mark : Char} {s : List Char} (marked : mark ∈ s) :
    ∃ first second more, pieces mark s = first :: second :: more := by
  cases split : pieces mark s with
  | nil => exact absurd split (pieces_ne_nil mark s)
  | cons first later =>
    cases later with
    | cons second more => exact ⟨first, second, more, rfl⟩
    | nil =>
      -- One piece alone is the whole text, which has the mark in it.
      have joined : [mark].intercalate (s.splitOn mark) = s := List.intercalate_splitOn mark
      rw [← pieces_eq_splitOn, split, List.intercalate_singleton] at joined
      subst joined
      exact absurd marked (not_mem_pieces first (split ▸ List.mem_cons_self))

/-! ### What a literal is read as -/

theorem advance_quoted {quote : Char} {s : List Char} (free : quote ∉ s) (read : List Char) :
    advance (.quoted quote read) (s ++ [quote]) = some ([], .whole (.literal (read.reverse ++ s))) := by
  induction s generalizing read with
  | nil =>
    have closes : Pending.next? (.quoted quote read) quote = some ([], .whole (.literal read.reverse)) := by
      simp [Pending.next?, Pending.extend?]
    have ends : advance (.whole (.literal read.reverse)) [] = some ([], .whole (.literal read.reverse)) := rfl
    simpa using advance_cons closes ends
  | cons c rest ih =>
    obtain ⟨other, free⟩ := List.ne_and_not_mem_of_not_mem_cons free
    have goes : Pending.next? (.quoted quote read) c = some ([], .quoted quote (c :: read)) := by
      simp [Pending.next?, Pending.extend?, Ne.symm other]
    simpa using advance_cons goes (ih free (c :: read))

theorem reads_quoted {quote : Char} (isQuote : quote = '\x27' ∨ quote = '"') {s : List Char} (free : quote ∉ s) :
    Reads (quote :: s ++ [quote]) [.literal s] := by
  have opens : Pending.nothing.next? quote = some ([], .quoted quote []) := by
    simp [Pending.next?, Pending.extend?, Pending.ended?, Pending.begun?, isQuote]
  have through := advance_cons opens (advance_quoted free [])
  exact ⟨[], _, [.literal s], through, rfl, rfl, rfl⟩

/-- The tokens of literals with a comma between each two. -/
def argumentTokens : List (List Char) → List Token
  | [] => []
  | [text] => [.literal text]
  | text :: next :: later => .literal text :: .sign [','] :: argumentTokens (next :: later)

theorem argumentTokens_cons (text : List Char) {later : List (List Char)} (more : later ≠ []) :
    argumentTokens (text :: later) = .literal text :: .sign [','] :: argumentTokens later := by
  cases later with
  | nil => exact absurd rfl more
  | cons next later => rfl

theorem arguments?_argumentTokens (text : List Char) (later : List (List Char)) :
    Token.arguments? (argumentTokens (text :: later) ++ [.sign [')']]) = some (text :: later) := by
  induction later generalizing text with
  | nil => rfl
  | cons next later ih =>
    simp only [argumentTokens, List.cons_append, Token.arguments?, ih next, Option.map_some]

theorem intersperse_ne_nil {α : Type} (sep first : α) (later : List α) : (first :: later).intersperse sep ≠ [] := by
  cases later <;> simp

theorem reads_pieces {first : List Char} {later : List (List Char)} (free : ∀ piece ∈ first :: later, '\x27' ∉ piece) :
    Reads (List.intercalate ", \"'\", ".toList ((first :: later).map fun piece => '\x27' :: piece ++ ['\x27']))
      (argumentTokens ((first :: later).intersperse ['\x27'])) := by
  have quoted : Reads ('\x27' :: first ++ ['\x27']) [.literal first] :=
    reads_quoted (Or.inl rfl) (free first List.mem_cons_self)
  induction later generalizing first with
  | nil =>
    rw [List.map_singleton, List.intercalate_singleton, List.intersperse_singleton]
    exact quoted
  | cons second more ih =>
    have others := (List.forall_mem_cons.mp free).2
    have rest := ih others (reads_quoted (Or.inl rfl) (others second List.mem_cons_self))
    have comma : Reads ", \"'\", ".toList [.sign [','], .literal ['\x27'], .sign [',']] :=
      ⟨_, _, _, rfl, rfl, rfl, rfl⟩
    rw [List.map_cons, List.map_cons, List.intercalate_cons_cons, List.intersperse_cons_cons,
      argumentTokens_cons _ (List.cons_ne_nil _ _), argumentTokens_cons _ (intersperse_ne_nil _ _ _)]
    exact (quoted.append comma).append rest

theorem text?_concat (first second : List Char) (more : List (List Char)) :
    Token.text? ([.concat, .sign ['(']] ++ argumentTokens ((first :: second :: more).intersperse ['\x27']) ++
      [.sign [')']]) = some (List.intercalate ['\x27'] (first :: second :: more)) := by
  have listed := arguments?_argumentTokens first (['\x27'] :: (second :: more).intersperse ['\x27'])
  rw [List.intercalate, List.intersperse_cons_cons]
  simp only [List.cons_append, List.nil_append, Token.concat, Token.text?, listed, List.flatten_cons]

/-- The literal of a text is read as an operand that stands for the text. -/
theorem reads_literal (s : List Char) : ∃ hole, Reads (literal s) hole ∧ Token.text? hole = some s := by
  unfold literal
  by_cases single : '\x27' ∈ s
  · rw [if_neg (by simpa using single)]
    by_cases double : '"' ∈ s
    · rw [if_neg (by simpa using double)]
      obtain ⟨first, second, more, split⟩ := pieces_of_mem single
      have joined : List.intercalate ['\x27'] (first :: second :: more) = s := by
        rw [← split, pieces_eq_splitOn]
        exact List.intercalate_splitOn _
      have free : ∀ piece ∈ first :: second :: more, '\x27' ∉ piece := split ▸ not_mem_pieces
      have opening : Reads "concat(".toList [.concat, .sign ['(']] := ⟨_, _, _, rfl, rfl, rfl, rfl⟩
      have closing : Reads [')'] [.sign [')']] := ⟨_, _, _, rfl, rfl, rfl, rfl⟩
      rw [split]
      exact ⟨_, (opening.append (reads_pieces free)).append closing, joined ▸ text?_concat first second more⟩
    · rw [if_pos (by simpa using double)]
      exact ⟨_, reads_quoted (Or.inr rfl) double, rfl⟩
  · rw [if_pos (by simpa using single)]
    exact ⟨_, reads_quoted (Or.inl rfl) single, rfl⟩

/-! ### The expressions of strategies -/

theorem reads_axis (within : Bool) : ∃ ts, Reads (axis within).toList ts := by
  cases within <;> exact exists_reads (by decide +kernel)

theorem reads_frame {strategy : Strategy} {before after : String} (frame : frame? strategy = some (before, after)) :
    (∃ bs, Reads before.toList bs) ∧ ∃ as, Reads after.toList as := by
  cases strategy <;> cases frame <;> exact ⟨exists_reads (by decide +kernel), exists_reads (by decide +kernel)⟩

/-- A strategy with a frame has an expression for every value, which is read as tokens that do not depend on the value,
with the operand between them. -/
theorem of?_reads {strategy : Strategy} (framed : (frame? strategy).isSome = true) (within : Bool) :
    ∃ before after, ∀ value, ∃ xpath hole, of? strategy value within = some xpath ∧
      Reads xpath.toList (before ++ hole ++ after) ∧ Token.text? hole = some (operand strategy value) := by
  obtain ⟨⟨before, after⟩, frame⟩ := Option.isSome_iff_exists.mp framed
  obtain ⟨axes, onAxis⟩ := reads_axis within
  obtain ⟨⟨bs, inFront⟩, as, behind⟩ := reads_frame frame
  refine ⟨axes ++ bs, as, fun value => ?_⟩
  obtain ⟨hole, quoted, text⟩ := reads_literal (operand strategy value)
  refine ⟨axis within ++ before ++ String.ofList (literal (operand strategy value)) ++ after, hole, ?_, ?_, text⟩
  · simp only [of?, frame]
  · simp only [String.toList_append, String.toList_ofList]
    exact ((onAxis.append inFront).append quoted).append behind

/-- The literal of any text stands for that text. The expression of any of the twelve strategies that quote the
description is read as fixed tokens around one operand, which stands for the description with its blanks compacted, cut
to ten thousand characters and, for a class name, set off by spaces. -/
theorem operands_stay_apart :
    (∀ s, ∃ hole, tokens? (literal s) = some hole ∧ Token.text? hole = some s) ∧
    ∀ strategy ∈ Strategy.precedence.take 12, ∀ within, ∃ before after, ∀ value,
      let text := Text.cut 10000 (Text.compact value.toList)
      ∃ xpath hole, of? strategy value within = some xpath ∧
        tokens? xpath.toList = some (before ++ hole ++ after) ∧
        Token.text? hole = some (if strategy = .className then ' ' :: text ++ [' '] else text) := by
  constructor
  · intro s
    obtain ⟨hole, reads, text⟩ := reads_literal s
    exact ⟨hole, reads.tokens, text⟩
  · intro strategy quoting within
    have framed : (frame? strategy).isSome = true := by
      revert strategy
      decide
    obtain ⟨before, after, frames⟩ := of?_reads framed within
    refine ⟨before, after, fun value => ?_⟩
    obtain ⟨xpath, hole, expression, reads, text⟩ := frames value
    exact ⟨xpath, hole, expression, reads.tokens, text⟩

/-- A class name with both kinds of quotes, which tries to close the operand, looked for inside an element. -/
theorem operands_stay_apart_breakout :
    .className ∈ Strategy.precedence.take 12 ∧ ∃ before after xpath hole,
      of? .className "it's \"x\")] | //*[('" true = some xpath ∧
      tokens? xpath.toList = some (before ++ hole ++ after) ∧
      Token.text? hole = some " it's \"x\")] | //*[(' ".toList := by
  have quoting : Strategy.className ∈ Strategy.precedence.take 12 := by decide
  obtain ⟨before, after, frames⟩ := operands_stay_apart.2 .className quoting true
  obtain ⟨xpath, hole, expression, tokens, text⟩ := frames "it's \"x\")] | //*[('"
  exact ⟨quoting, before, after, xpath, hole, expression, tokens, text⟩

end Walkthrough.XPath
