import Mathlib.Algebra.Ring.Parity
import Walkthrough.Proofs.Script.Rereading

/-!
Where the tokens of a line stand. A trimmed line that is no comment is a sequence of segments with nothing but blanks
between them: quoted ones, and the longest runs of characters that are neither blanks nor quotes. Each segment is one
token, and each token one segment; the only thing that can be wrong is a quote that is never closed
(`tokens_are_segments`).
-/
namespace Walkthrough

open Text Grammar

namespace Lexeme

/-! ### The form of numbers -/

def Digits (s : List Char) : Prop := s ≠ [] ∧ ∀ c ∈ s, isDigit c = true

/-- Digits, and a point with further digits or none. -/
def UnsignedForm (s : List Char) : Prop :=
  ∃ whole fraction, s = whole ++ fraction ∧ Digits whole ∧
    (fraction = [] ∨ ∃ digits, fraction = '.' :: digits ∧ Digits digits)

def NumberForm (s : List Char) : Prop := UnsignedForm s ∨ ∃ unsigned, s = '-' :: unsigned ∧ UnsignedForm unsigned

theorem isDigits_iff {s : List Char} : isDigits s = true ↔ Digits s := by
  simp [isDigits, Digits]

theorem isDigit_minus : isDigit '-' = false := by decide

theorem isDigit_point : isDigit '.' = false := by decide

theorem unsignedForm_iff {s : List Char} :
    UnsignedForm s ↔ (isDigits (s.takeWhile isDigit) &&
      match s.dropWhile isDigit with
      | [] => true
      | c :: digits => c == '.' && isDigits digits) = true := by
  rw [Bool.and_eq_true, isDigits_iff]
  constructor
  · rintro ⟨whole, fraction, rfl, digits, form⟩
    have ends : fraction.takeWhile isDigit = [] ∧ fraction.dropWhile isDigit = fraction := by
      rcases form with rfl | ⟨more, rfl, -⟩
      · exact ⟨rfl, rfl⟩
      · simp [isDigit_point]
    rw [List.takeWhile_append_of_pos digits.2, List.dropWhile_append_of_pos digits.2, ends.1, ends.2,
      List.append_nil]
    refine ⟨digits, ?_⟩
    rcases form with rfl | ⟨more, rfl, shape⟩
    · rfl
    · simpa using isDigits_iff.mpr shape
  · intro given
    obtain ⟨whole, fraction⟩ := given
    refine ⟨_, _, List.takeWhile_append_dropWhile.symm, whole, ?_⟩
    split at fraction
    · next none => exact Or.inl none
    · next c digits some =>
      obtain ⟨point, digits⟩ := Bool.and_eq_true_iff.mp fraction
      rw [beq_iff_eq.mp point] at some
      exact Or.inr ⟨_, some, isDigits_iff.mp digits⟩

theorem isNumeral_minus {unsigned : List Char} : isNumeral ('-' :: unsigned) = true ↔ UnsignedForm unsigned :=
  unsignedForm_iff.symm

theorem isNumeral_of_unsigned {s : List Char} (unsigned : ∀ rest, s ≠ '-' :: rest) :
    isNumeral s = true ↔ UnsignedForm s := by
  rw [unsignedForm_iff]
  unfold isNumeral
  split
  · next rest => exact absurd rfl (unsigned rest)
  · rfl

theorem isNumeral_iff {s : List Char} : isNumeral s = true ↔ NumberForm s := by
  by_cases signed : ∃ rest, s = '-' :: rest
  · obtain ⟨rest, rfl⟩ := signed
    -- No digits begin with the minus.
    have other : ¬ UnsignedForm ('-' :: rest) := by
      rintro ⟨whole, fraction, split, ⟨filled, digits⟩, -⟩
      cases whole with
      | nil => exact filled rfl
      | cons c rest =>
        have digit := digits c List.mem_cons_self
        rw [← (List.cons.inj split).1, isDigit_minus] at digit
        cases digit
    simp [isNumeral_minus, NumberForm, other]
  · rw [isNumeral_of_unsigned (not_exists.mp signed)]
    refine ⟨Or.inl, fun form => form.resolve_right ?_⟩
    rintro ⟨rest, same, -⟩
    exact signed ⟨rest, same⟩

/-! ### Segments of a text -/

/-- A piece of a text, with what stands before it and after it. -/
structure Segment where
  before : List Char
  piece : List Char
  after : List Char

namespace Segment

def whole (s : Segment) : List Char := s.before ++ s.piece ++ s.after

/-- No quote is open where the segment begins. -/
def Outside (s : Segment) : Prop := Even (s.before.count '"')

/-- A quoted text with its quotes. -/
structure IsQuoted (s : Segment) (content : List Char) : Prop where
  outside : s.Outside
  piece : s.piece = '"' :: content ++ ['"']
  plain : '"' ∉ content

/-- What ends a run, in both directions. -/
def Bound (c : Char) : Prop := isBlank c = true ∨ c = '"'

/-- A run outside of quotes that cannot be made longer. -/
structure IsRun (s : Segment) : Prop where
  outside : s.Outside
  solid : Solid s.piece
  begins : ∀ c ∈ s.before.getLast?, Bound c
  ends : ∀ c ∈ s.after.head?, Bound c

def IsSegment (s : Segment) : Prop := (∃ content, s.IsQuoted content) ∨ s.IsRun

/-- The lexeme of a segment: of a quoted one its content, of a run what its whole text is. -/
inductive ReadAs (s : Segment) : Lexeme → Prop where
  | quoted {content : List Char} (isQuoted : s.IsQuoted content) : ReadAs s (.quoted (String.ofList content))
  | keyword (k : Keyword) (isRun : s.IsRun) (spelled : k.text.toList = s.piece) : ReadAs s (.keyword k)
  | number (isRun : s.IsRun) (form : NumberForm s.piece) (free : s.after.head? ≠ some '"') :
    ReadAs s (.number (String.ofList s.piece))
  | word (isRun : s.IsRun) (unknown : ∀ k : Keyword, k.text.toList ≠ s.piece)
      (other : NumberForm s.piece → s.after.head? = some '"') : ReadAs s (.word (String.ofList s.piece))

variable {s : Segment} {l : Lexeme}

theorem ReadAs.isSegment (read : s.ReadAs l) : s.IsSegment := by
  cases read with
  | quoted isQuoted => exact Or.inl ⟨_, isQuoted⟩
  | keyword k isRun spelled => exact Or.inr isRun
  | number isRun form free => exact Or.inr isRun
  | word isRun unknown other => exact Or.inr isRun

theorem ReadAs.text_eq (read : s.ReadAs l) : l.text.toList = s.piece := by
  cases read with
  | quoted isQuoted => simp [Lexeme.text, isQuoted.piece]
  | keyword k isRun spelled => exact spelled
  | number isRun form free => exact String.toList_ofList
  | word isRun unknown other => exact String.toList_ofList

theorem IsRun.readAs {closed : Bool} (isRun : s.IsRun) (quote : closed = true ↔ s.after.head? = some '"') :
    s.ReadAs (ofStretch s.piece closed) := by
  unfold ofStretch
  split
  · next numeral =>
    obtain ⟨open_, form⟩ := Bool.and_eq_true_iff.mp numeral
    have free : ¬ closed = true := by simpa using open_
    exact .number isRun (isNumeral_iff.mp form) fun follows => free (quote.mpr follows)
  · next other =>
    have closes : NumberForm s.piece → s.after.head? = some '"' := by
      intro form
      rw [isNumeral_iff.mpr form] at other
      exact quote.mp (by simpa using other)
    split
    · next k known =>
      refine .keyword k isRun ?_
      rw [Keyword.text_of_ofText? known, String.toList_ofList]
    · next unknown =>
      refine .word isRun (fun k same => ?_) closes
      rw [← same, String.ofList_toList, Keyword.ofText?_text] at unknown
      cases unknown

/-- The segments stand in `rest`, which comes after `read`, one after the other and with nothing but blanks around
them. -/
inductive Follow : List Char → List Char → List Segment → Prop where
  | done (read : List Char) : Follow read [] []
  | blank {read rest : List Char} {c : Char} {segments : List Segment} (blank : isBlank c = true)
      (later : Follow (read ++ [c]) rest segments) : Follow read (c :: rest) segments
  | segment {read piece rest : List Char} {segments : List Segment}
      (later : Follow (read ++ piece) rest segments) :
    Follow read (piece ++ rest) (⟨read, piece, rest⟩ :: segments)

end Segment

/-! ### Splitting into segments -/

/-- What has been read of a pending lexeme. -/
def Pending.text : Pending → List Char
  | .gap => []
  | .quote read => '"' :: read.reverse
  | .stretch read => read.reverse

/-- What is pending can become a segment after `before`. -/
def Pending.Fits (before : List Char) : Pending → Prop
  | .gap => ∀ c ∈ before.getLast?, Segment.Bound c
  | .quote read => '"' ∉ read
  | .stretch read => Solid read ∧ ∀ c ∈ before.getLast?, Segment.Bound c

theorem even_of_unquoted {s : List Char} (unquoted : '"' ∉ s) : Even (s.count '"') := by
  rw [List.count_eq_zero.mpr unquoted]
  exact Even.zero

theorem even_of_solid {s : List Char} (solid : Solid s) : Even (s.count '"') :=
  even_of_unquoted fun listed => (solid.chars '"' listed).2 rfl

theorem even_of_blank {c : Char} (blank : isBlank c = true) : Even ([c].count '"') := by
  refine even_of_unquoted fun listed => ?_
  obtain rfl := List.mem_singleton.mp listed
  cases blank

theorem even_of_quoted {content : List Char} (plain : '"' ∉ content) :
    Even (('"' :: content ++ ['"']).count '"') := by
  rw [List.count_append, List.count_cons_self, List.count_eq_zero.mpr plain, List.count_singleton_self]
  exact ⟨1, rfl⟩

theorem even_append {s t : List Char} (first : Even (s.count '"')) (second : Even (t.count '"')) :
    Even ((s ++ t).count '"') := by
  rw [List.count_append]
  exact first.add second

theorem fits_gap (before : List Char) {c : Char} (bound : Segment.Bound c) : Pending.gap.Fits (before ++ [c]) := by
  intro d last
  rw [List.getLast?_concat] at last
  exact Option.some.inj last ▸ bound

theorem follow_split {pending : Pending} {source : List Char} {lexemes : List Lexeme} {before : List Char}
    (outside : Even (before.count '"')) (fits : pending.Fits before) (read : split pending source = .ok lexemes) :
    ∃ segments, Segment.Follow before (pending.text ++ source) segments ∧
      List.Forall₂ (fun l s => s.ReadAs l) lexemes segments := by
  fun_induction split pending source generalizing lexemes before with
  | case1 =>
    cases read
    exact ⟨[], .done before, .nil⟩
  | case2 c rest blank ih =>
    obtain ⟨segments, follow, reads⟩ :=
      ih (even_append outside (even_of_blank blank)) (fits_gap before (Or.inl blank)) read
    exact ⟨segments, .blank blank follow, reads⟩
  | case3 rest gap ih => exact ih outside List.not_mem_nil read
  | case4 c rest filled letter ih =>
    have solid : Solid [c] := Solid.cons filled letter (List.forall_mem_nil _)
    exact ih outside ⟨solid, fits⟩ read
  | case5 => cases read
  | case6 content rest ih =>
    obtain ⟨later, others, rfl⟩ := Except.map_eq_ok.mp read
    have plain : '"' ∉ content.reverse := List.mem_reverse.not.mpr fits
    have after : Pending.gap.Fits (before ++ ('"' :: content.reverse ++ ['"'])) := by
      rw [← List.append_assoc]
      exact fits_gap _ (Or.inr rfl)
    obtain ⟨segments, follow, reads⟩ := ih (even_append outside (even_of_quoted plain)) after others
    have here : Segment.ReadAs ⟨before, '"' :: content.reverse ++ ['"'], rest⟩
        (.quoted (String.ofList content.reverse)) := .quoted ⟨outside, rfl, plain⟩
    refine ⟨_, ?_, .cons here reads⟩
    simpa [Pending.text] using Segment.Follow.segment follow
  | case7 content c rest letter ih =>
    have plain : '"' ∉ c :: content := List.not_mem_cons_of_ne_of_not_mem (Ne.symm letter) fits
    simpa [Pending.text] using ih outside plain read
  | case8 stretch =>
    cases read
    obtain ⟨solid, begins⟩ := fits
    have isRun : Segment.IsRun ⟨before, stretch.reverse, []⟩ :=
      ⟨outside, solid.reverse, begins, fun c first => by cases first⟩
    exact ⟨_, .segment (.done _), .cons (isRun.readAs (by simp)) .nil⟩
  | case9 stretch c rest blank ih =>
    obtain ⟨later, others, rfl⟩ := Except.map_eq_ok.mp read
    obtain ⟨solid, begins⟩ := fits
    have isRun : Segment.IsRun ⟨before, stretch.reverse, c :: rest⟩ :=
      ⟨outside, solid.reverse, begins, fun d first => Or.inl (Option.some.inj first ▸ blank)⟩
    have open_ : false = true ↔ (c :: rest).head? = some '"' := by
      simp only [Bool.false_eq_true, List.head?_cons, Option.some.injEq, false_iff]
      rintro rfl
      cases blank
    have even := even_append (even_append outside (even_of_solid solid.reverse)) (even_of_blank blank)
    obtain ⟨segments, follow, reads⟩ := ih even (fits_gap _ (Or.inl blank)) others
    exact ⟨_, .segment (.blank blank follow), .cons (isRun.readAs open_) reads⟩
  | case10 stretch rest filled ih =>
    obtain ⟨later, others, rfl⟩ := Except.map_eq_ok.mp read
    obtain ⟨solid, begins⟩ := fits
    have isRun : Segment.IsRun ⟨before, stretch.reverse, '"' :: rest⟩ :=
      ⟨outside, solid.reverse, begins, fun d first => Or.inr (Option.some.inj first).symm⟩
    have even := even_append outside (even_of_solid solid.reverse)
    obtain ⟨segments, follow, reads⟩ := ih even List.not_mem_nil others
    exact ⟨_, .segment follow, .cons (isRun.readAs (by simp)) reads⟩
  | case11 stretch c rest filled letter ih =>
    obtain ⟨solid, begins⟩ := fits
    simpa [Pending.text] using ih outside ⟨Solid.cons filled letter solid.chars, begins⟩ read

/-! ### A quote that is never closed -/

/-- Nothing pending holds a quote but the one that opens it. -/
def Pending.Plain : Pending → Prop
  | .gap => True
  | .quote read => '"' ∉ read
  | .stretch read => '"' ∉ read

theorem split_unclosed {pending : Pending} {source : List Char} {unclosed : String} (plain : pending.Plain)
    (stopped : split pending source = .error unclosed) :
    ∃ front rest, pending.text ++ source = front ++ '"' :: rest ∧ Even (front.count '"') ∧ '"' ∉ rest ∧
      unclosed = String.ofList ('"' :: rest) := by
  fun_induction split pending source with
  | case1 => cases stopped
  | case2 c rest blank ih =>
    obtain ⟨front, unclosed, split, even, last, same⟩ := ih trivial stopped
    exact ⟨c :: front, unclosed, congrArg (c :: ·) split, even_append (even_of_blank blank) even, last, same⟩
  | case3 rest gap ih => exact ih List.not_mem_nil stopped
  | case4 c rest filled letter ih => exact ih (by simpa [Pending.Plain] using Ne.symm letter) stopped
  | case5 read =>
    cases stopped
    exact ⟨[], read.reverse, by simp [Pending.text], Even.zero, List.mem_reverse.not.mpr plain, rfl⟩
  | case6 content rest ih =>
    obtain ⟨front, unclosed, split, even, last, same⟩ := ih trivial (Except.map_eq_error.mp stopped)
    have before := even_of_quoted (List.mem_reverse.not.mpr plain)
    refine ⟨_, unclosed, ?_, even_append before even, last, same⟩
    rw [List.append_assoc, ← split]
    simp [Pending.text]
  | case7 content c rest letter ih =>
    have closed : '"' ∉ c :: content := List.not_mem_cons_of_ne_of_not_mem (Ne.symm letter) plain
    simpa [Pending.text] using ih closed stopped
  | case8 stretch => cases stopped
  | case9 stretch c rest blank ih =>
    obtain ⟨front, unclosed, split, even, last, same⟩ := ih trivial (Except.map_eq_error.mp stopped)
    have before := even_append (even_of_unquoted (List.mem_reverse.not.mpr plain)) (even_of_blank blank)
    refine ⟨_, unclosed, ?_, even_append before even, last, same⟩
    rw [List.append_assoc, ← split]
    simp [Pending.text]
  | case10 stretch rest filled ih =>
    obtain ⟨front, unclosed, split, even, last, same⟩ := ih List.not_mem_nil (Except.map_eq_error.mp stopped)
    have before := even_of_unquoted (List.mem_reverse.not.mpr plain)
    refine ⟨_, unclosed, ?_, even_append before even, last, same⟩
    rw [List.append_assoc, ← split]
    rfl
  | case11 stretch c rest filled letter ih =>
    have closed : '"' ∉ c :: stretch := List.not_mem_cons_of_ne_of_not_mem (Ne.symm letter) plain
    simpa [Pending.text] using ih closed stopped

/-! ### All segments -/

namespace Segment

variable {s t : Segment}

theorem IsSegment.outside (segment : s.IsSegment) : s.Outside := by
  rcases segment with ⟨content, isQuoted⟩ | isRun
  · exact isQuoted.outside
  · exact isRun.outside

theorem IsSegment.filled (segment : s.IsSegment) : ∃ c rest, s.piece = c :: rest ∧ isBlank c = false := by
  rcases segment with ⟨content, isQuoted⟩ | isRun
  · exact ⟨_, _, isQuoted.piece, by decide⟩
  · obtain ⟨c, rest, split⟩ := List.exists_cons_of_ne_nil isRun.solid.filled
    exact ⟨c, rest, split, (isRun.solid.chars c (split ▸ List.mem_cons_self)).1⟩

theorem IsSegment.even (segment : s.IsSegment) : Even (s.piece.count '"') := by
  rcases segment with ⟨content, isQuoted⟩ | isRun
  · rw [isQuoted.piece]
    exact even_of_quoted isQuoted.plain
  · exact even_of_solid isRun.solid

theorem takeWhile_append {p : Char → Bool} {front rest : List Char} (all : ∀ c ∈ front, p c = true)
    (stop : ∀ c ∈ rest.head?, p c = false) : (front ++ rest).takeWhile p = front := by
  rw [List.takeWhile_append_of_pos all]
  cases rest with
  | nil => simp
  | cons c rest => simp [stop c rfl]

theorem IsQuoted.piece_eq {content content' : List Char} (left : s.IsQuoted content) (right : t.IsQuoted content')
    (same : s.piece ++ s.after = t.piece ++ t.after) : s.piece = t.piece := by
  have opened : content ++ '"' :: s.after = content' ++ '"' :: t.after := by
    simpa [left.piece, right.piece] using same
  have taken {content : List Char} (plain : '"' ∉ content) (rest : List Char) :
      (content ++ '"' :: rest).takeWhile (· != '"') = content := by
    refine takeWhile_append (fun c listed => ?_) fun c first => ?_
    · rw [bne_iff_ne]
      rintro rfl
      exact plain listed
    · simpa using (Option.some.inj first).symm
  rw [left.piece, right.piece, ← taken left.plain s.after, opened, taken right.plain]

theorem IsRun.piece_eq (left : s.IsRun) (right : t.IsRun) (same : s.piece ++ s.after = t.piece ++ t.after) :
    s.piece = t.piece := by
  have taken {s : Segment} (isRun : s.IsRun) :
      (s.piece ++ s.after).takeWhile (fun c => !isBlank c && c != '"') = s.piece := by
    refine takeWhile_append (fun c listed => ?_) fun c first => ?_
    · simpa using isRun.solid.chars c listed
    · rcases isRun.ends c first with blank | rfl
      · simp [blank]
      · simp
  rw [← taken left, same, taken right]

/-- No segment begins with the opening quote of a quoted one and a letter of a run. -/
theorem IsQuoted.ne_run {content : List Char} (left : s.IsQuoted content) (right : t.IsRun) :
    s.piece ++ s.after ≠ t.piece ++ t.after := by
  intro same
  obtain ⟨c, rest, split⟩ := List.exists_cons_of_ne_nil right.solid.filled
  rw [left.piece, split] at same
  have quote : '"' = c := (List.cons.inj same).1
  exact (right.solid.chars c (split ▸ List.mem_cons_self)).2 quote.symm

theorem IsSegment.eq_of_before (left : s.IsSegment) (right : t.IsSegment) (before : s.before = t.before)
    (same : s.piece ++ s.after = t.piece ++ t.after) : s = t := by
  have pieces : s.piece = t.piece := by
    rcases left with ⟨content, quoted⟩ | run
    · rcases right with ⟨content', quoted'⟩ | run'
      · exact quoted.piece_eq quoted' same
      · exact absurd same (quoted.ne_run run')
    · rcases right with ⟨content', quoted'⟩ | run'
      · exact absurd same.symm (quoted'.ne_run run)
      · exact run.piece_eq run' same
  rw [pieces] at same
  cases s
  cases t
  cases before
  cases pieces
  cases List.append_cancel_left same
  rfl

/-- No segment begins within another. -/
theorem IsSegment.not_within (left : s.IsSegment) (right : t.IsSegment) {front rest : List Char}
    (piece : s.piece = front ++ rest) (before : t.before = s.before ++ front)
    (same : t.piece ++ t.after = rest ++ s.after) : front = [] ∨ rest = [] := by
  by_contra inside
  obtain ⟨begun, open_⟩ := not_or.mp inside
  rcases left with ⟨content, quoted⟩ | run
  · -- Where it would begin, the opening quote is the one quote more.
    obtain ⟨c, front', rfl⟩ := List.exists_cons_of_ne_nil begun
    obtain ⟨rest', d, rfl⟩ := (List.eq_nil_or_concat' rest).resolve_left open_
    rw [quoted.piece, ← List.append_assoc] at piece
    obtain ⟨opens, split⟩ := List.cons.inj (List.append_inj' piece rfl).1
    have plain : '"' ∉ front' := fun listed => quoted.plain (split ▸ List.mem_append_left rest' listed)
    have even : Even (t.before.count '"') := right.outside
    rw [before, ← opens, List.count_append, List.count_cons_self, List.count_eq_zero.mpr plain, zero_add,
      Nat.even_add_one] at even
    exact even quoted.outside
  · -- A letter stands before it, and where its quote would be.
    have letters : ∀ c ∈ front ++ rest, isBlank c = false ∧ c ≠ '"' := piece ▸ run.solid.chars
    rcases right with ⟨content, quoted⟩ | run'
    · obtain ⟨c, rest', rfl⟩ := List.exists_cons_of_ne_nil open_
      rw [quoted.piece] at same
      have quote : '"' = c := (List.cons.inj same).1
      exact (letters c (by simp)).2 quote.symm
    · obtain ⟨front', c, rfl⟩ := (List.eq_nil_or_concat' front).resolve_left begun
      obtain ⟨filled, letter⟩ := letters c (by simp)
      have bound := run'.begins c (by simp [before])
      rcases bound with blank | quote
      · rw [filled] at blank
        cases blank
      · exact letter quote

theorem isSegment_of_readAs {lexemes : List Lexeme} {segments : List Segment}
    (reads : List.Forall₂ (fun l s => s.ReadAs l) lexemes segments) : ∀ s ∈ segments, s.IsSegment := by
  induction reads with
  | nil => exact List.forall_mem_nil _
  | cons here later ih => exact List.forall_mem_cons.mpr ⟨here.isSegment, ih⟩

theorem exists_readAs {lexemes : List Lexeme} {segments : List Segment}
    (reads : List.Forall₂ (fun l s => s.ReadAs l) lexemes segments) : ∀ l ∈ lexemes, ∃ s : Segment, s.ReadAs l := by
  induction reads with
  | nil => exact List.forall_mem_nil _
  | cons here later ih => exact List.forall_mem_cons.mpr ⟨⟨_, here⟩, ih⟩

theorem mem_of_follow {read rest : List Char} {segments : List Segment} (follow : Follow read rest segments)
    (each : ∀ s ∈ segments, s.IsSegment) {front : List Char} (segment : t.IsSegment)
    (before : t.before = read ++ front) (whole : front ++ (t.piece ++ t.after) = rest) : t ∈ segments := by
  induction follow generalizing front with
  | done read =>
    obtain ⟨c, more, split, -⟩ := segment.filled
    simp [split] at whole
  | @blank read rest c segments blank later ih =>
    cases front with
    | nil =>
      obtain ⟨d, more, split, filled⟩ := segment.filled
      rw [split] at whole
      obtain rfl : d = c := (List.cons.inj whole).1
      rw [blank] at filled
      cases filled
    | cons d front =>
      obtain ⟨same, behind⟩ := List.cons.inj whole
      subst same
      exact ih each (by simpa using before) behind
  | @segment read piece rest segments later ih =>
    obtain ⟨here, others⟩ := List.forall_mem_cons.mp each
    have behind (front : List Char) (before : t.before = read ++ piece ++ front)
        (whole : front ++ (t.piece ++ t.after) = rest) : t ∈ ⟨read, piece, rest⟩ :: segments :=
      List.mem_cons_of_mem _ (ih others before whole)
    rcases List.append_eq_append_iff.mp whole with ⟨tail, inside, same⟩ | ⟨front', rfl, same⟩
    · rcases here.not_within segment inside before same with rfl | rfl
      · rw [List.append_nil] at before
        rw [List.nil_append] at inside
        rw [← inside] at same
        exact List.mem_cons.mpr (Or.inl (segment.eq_of_before here before same))
      · rw [List.append_nil] at inside
        subst inside
        exact behind [] (by simpa using before) same
    · exact behind front' (by rw [before, List.append_assoc]) same.symm

theorem Follow.even {read rest : List Char} {segments : List Segment} (follow : Follow read rest segments)
    (each : ∀ s ∈ segments, s.IsSegment) : Even (rest.count '"') := by
  induction follow with
  | done read => exact Even.zero
  | blank blank later ih => exact even_append (even_of_blank blank) (ih each)
  | segment later ih =>
    obtain ⟨here, others⟩ := List.forall_mem_cons.mp each
    exact even_append here.even (ih others)

theorem Follow.behind {read rest : List Char} {segments : List Segment} (follow : Follow read rest segments) :
    ∀ s ∈ segments, read.length ≤ s.before.length := by
  induction follow with
  | done read => exact List.forall_mem_nil _
  | @blank read rest c segments blank later ih =>
    intro s listed
    have := ih s listed
    simp only [List.length_append, List.length_singleton] at this
    omega
  | @segment read piece rest segments later ih =>
    refine List.forall_mem_cons.mpr ⟨Nat.le_refl _, fun s listed => ?_⟩
    have := ih s listed
    simp only [List.length_append] at this
    omega

theorem Follow.nodup {read rest : List Char} {segments : List Segment} (follow : Follow read rest segments)
    (each : ∀ s ∈ segments, s.IsSegment) : segments.Nodup := by
  induction follow with
  | done read => exact List.nodup_nil
  | blank blank later ih => exact ih each
  | @segment read piece rest segments later ih =>
    obtain ⟨here, others⟩ := List.forall_mem_cons.mp each
    refine List.nodup_cons.mpr ⟨fun again => ?_, ih others⟩
    -- What comes later begins behind the piece, which is not empty.
    obtain ⟨c, more, split, -⟩ := here.filled
    have behind : (read ++ piece).length ≤ read.length := later.behind _ again
    rw [List.length_append, show piece = c :: more from split, List.length_cons] at behind
    omega

end Segment

theorem ofLine_of_plain {source : List Char} (plain : ∀ rest, trim source ≠ '#' :: rest) :
    ofLine source = split .gap (trim source) := by
  unfold ofLine
  split
  · next rest marked => exact absurd marked (plain rest)
  · rfl

end Lexeme

namespace Token

open Lexeme

theorem ofLine_eq_error {line : Int} {source : List Char} {e : SyntaxError} :
    ofLine line source = .error e ↔
      ∃ unclosed, Lexeme.ofLine source = .error unclosed ∧ e = ⟨line, .closingQuote, .text unclosed⟩ := by
  unfold ofLine
  cases Lexeme.ofLine source with
  | ok spelling => simp
  | error unclosed => simp [eq_comm]

/-- The tokens of a line that is no comment, trimmed, are its segments. They stand in it one after the other with
nothing but blanks around them; each token is read as its segment tells, and no segment is left out or read twice. The
line is refused if and only if the number of its quotes is odd, with all that stands from the last quote on. -/
theorem tokens_are_segments (line : Int) {source : List Char} (plain : ∀ rest, trim source ≠ '#' :: rest) :
    ((∃ e, ofLine line source = .error e) ↔ Odd ((trim source).count '"')) ∧
    (∀ e, ofLine line source = .error e → ∃ front rest, trim source = front ++ '"' :: rest ∧ '"' ∉ rest ∧
      e = ⟨line, .closingQuote, .text (String.ofList ('"' :: rest))⟩) ∧
    ∀ tokens, ofLine line source = .ok tokens → ∃ segments, Segment.Follow [] (trim source) segments ∧
      List.Forall₂ (fun t s => t.line = line ∧ t.text.toList = s.piece ∧ s.ReadAs t.lexeme) tokens segments ∧
      segments.Nodup ∧ ∀ s : Segment, s.whole = trim source → s.IsSegment → s ∈ segments := by
  have refused {e : SyntaxError} (stopped : ofLine line source = .error e) : ∃ front rest,
      trim source = front ++ '"' :: rest ∧ Even (front.count '"') ∧ '"' ∉ rest ∧
        e = ⟨line, .closingQuote, .text (String.ofList ('"' :: rest))⟩ := by
    obtain ⟨unclosed, unread, rfl⟩ := ofLine_eq_error.mp stopped
    rw [ofLine_of_plain plain] at unread
    have nothing : Pending.gap.Plain := trivial
    obtain ⟨front, rest, split, even, last, rfl⟩ := split_unclosed nothing unread
    exact ⟨front, rest, split, even, last, rfl⟩
  have accepted {tokens : List Token} (read : ofLine line source = .ok tokens) : ∃ spelling segments,
      tokens = spelling.map (⟨·, line⟩) ∧ Segment.Follow [] (trim source) segments ∧
        List.Forall₂ (fun l s => s.ReadAs l) spelling segments := by
    obtain ⟨spelling, spelled, rfl⟩ := LogicalLine.token_ofLine_eq_ok.mp read
    rw [ofLine_of_plain plain] at spelled
    have nothing : Pending.gap.Fits [] := fun c last => by cases last
    obtain ⟨segments, follow, reads⟩ := follow_split Even.zero nothing spelled
    exact ⟨spelling, segments, rfl, follow, reads⟩
  refine ⟨⟨?_, fun odd => ?_⟩, fun e stopped => ?_, fun tokens read => ?_⟩
  · rintro ⟨e, stopped⟩
    obtain ⟨front, rest, split, even, last, -⟩ := refused stopped
    rw [split, List.count_append, List.count_cons_self, List.count_eq_zero.mpr last]
    exact even.add_one
  · cases read : ofLine line source with
    | error e => exact ⟨e, rfl⟩
    | ok tokens =>
      obtain ⟨spelling, segments, -, follow, reads⟩ := accepted read
      exact absurd (follow.even (Segment.isSegment_of_readAs reads)) (Nat.not_even_iff_odd.mpr odd)
  · obtain ⟨front, rest, split, -, last, same⟩ := refused stopped
    exact ⟨front, rest, split, last, same⟩
  · obtain ⟨spelling, segments, rfl, follow, reads⟩ := accepted read
    have each := Segment.isSegment_of_readAs reads
    refine ⟨segments, follow, ?_, follow.nodup each, fun s whole segment => ?_⟩
    · refine List.forall₂_map_left_iff.mpr (reads.imp fun l s here => ?_)
      exact ⟨rfl, here.text_eq, here⟩
    · refine Segment.mem_of_follow follow each segment (List.nil_append s.before).symm ?_
      rw [← List.append_assoc]
      exact whole

/-- A line with a mark of comments and a sign of numbers within quotes, and with quotes that stand close to other
characters. -/
def glued : List Char := " save\"a # -1\"as -1.5 2\"x\" go ".toList

theorem tokens_are_segments_glued :
    (∀ rest, trim glued ≠ '#' :: rest) ∧
    ofLine 3 glued = .ok ([.keyword .save, .quoted "a # -1", .keyword .as, .number "-1.5", .word "2", .quoted "x",
      .word "go"].map (⟨·, 3⟩)) ∧
    ¬ Odd ((trim glued).count '"') ∧
    ∃ segments, Segment.Follow [] (trim glued) segments ∧ segments.length = 7 ∧
      ∀ s : Segment, s.whole = trim glued → s.IsSegment → s ∈ segments := by
  have trimmed : trim glued = "save\"a # -1\"as -1.5 2\"x\" go".toList := by decide
  have plain : ∀ rest, trim glued ≠ '#' :: rest := by
    intro rest marked
    rw [trimmed] at marked
    cases (List.cons.inj marked).1
  have read : ofLine 3 glued = .ok ([.keyword .save, .quoted "a # -1", .keyword .as, .number "-1.5", .word "2",
      .quoted "x", .word "go"].map (⟨·, 3⟩)) := by decide
  obtain ⟨odd, -, accepted⟩ := tokens_are_segments 3 plain
  obtain ⟨segments, follow, reads, -, all⟩ := accepted _ read
  refine ⟨plain, read, fun wrong => ?_, segments, follow, reads.length_eq.symm, all⟩
  obtain ⟨e, stopped⟩ := odd.mpr wrong
  rw [read] at stopped
  cases stopped

end Token
end Walkthrough
