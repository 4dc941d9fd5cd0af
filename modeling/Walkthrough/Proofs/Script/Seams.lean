import Walkthrough.Proofs.Script.Segments

/-!
Texts that are put together on one line. Blanks around a line do not matter to its lexemes (`ofLine_blanks`), and where
no stretch goes over the seam each of the two texts is split as it is alone (`split_append`). So a line that ends with a
connective can be followed by blanks and any other text (`split_followed`), unless that text would be a comment on a
line of its own: then it begins with a word that no statement has in it (`unnamed_of_marked`).
-/
namespace Walkthrough

open Text Grammar

namespace Lexeme

/-- The line would be a comment. -/
def Marked (s : List Char) : Prop := (trimStart s).head? = some '#'

theorem plain_of_unmarked {s : List Char} (plain : ¬ Marked s) (rest : List Char) : trim s ≠ '#' :: rest := by
  intro marked
  exact plain (head?_trimEnd (by rw [← trim, marked]; rfl))

theorem ofLine_blanks {v w : List Char} (before : allBlank v = true) (after : allBlank w = true) (s : List Char) :
    ofLine (v ++ (s ++ w)) = ofLine s := by
  unfold ofLine
  rw [trim_blanks before after]

/-! ### Splitting at a seam -/

/-- A text that ends within a stretch. -/
def Ragged (pending : Pending) (s : List Char) : Prop :=
  (s = [] ∧ ∃ read, pending = .stretch read) ∨ ∃ c ∈ s.getLast?, ¬ Segment.Bound c

/-- No stretch goes over from the first text into the second. -/
def Seam (pending : Pending) (s t : List Char) : Prop := Ragged pending s → ∀ c ∈ t.head?, isBlank c = true

theorem Seam.of_blank (pending : Pending) (s : List Char) {t : List Char} (blank : ∀ c ∈ t.head?, isBlank c = true) :
    Seam pending s t := fun _ => blank

theorem Seam.behind {pending pending' : Pending} {c : Char} {s t : List Char} (seam : Seam pending (c :: s) t)
    (letter : ∀ read, pending' = .stretch read → ¬ Segment.Bound c) : Seam pending' s t := by
  rintro (⟨rfl, read, stretch⟩ | ⟨d, last, unbound⟩)
  · exact seam (Or.inr ⟨c, rfl, letter read stretch⟩)
  · exact seam (Or.inr ⟨d, by simp [List.getLast?_cons, Option.mem_def.mp last], unbound⟩)

section

variable {pending : Pending} {c : Char} {s t : List Char}

theorem Seam.gap (seam : Seam pending (c :: s) t) : Seam .gap s t :=
  seam.behind fun read stretch => by cases stretch

theorem Seam.quote (seam : Seam pending (c :: s) t) (read : List Char) : Seam (.quote read) s t :=
  seam.behind fun read stretch => by cases stretch

theorem Seam.stretch (seam : Seam pending (c :: s) t) (filled : ¬ isBlank c = true) (letter : ¬ c = '"')
    (read : List Char) : Seam (.stretch read) s t :=
  seam.behind fun _ _ => not_or.mpr ⟨filled, letter⟩

end

theorem split_append {pending : Pending} {s t : List Char} {lexemes : List Lexeme} (seam : Seam pending s t)
    (read : split pending s = .ok lexemes) : split pending (s ++ t) = (split .gap t).map (lexemes ++ ·) := by
  have joined (l : Lexeme) (later : List Lexeme) :
      ((split .gap t).map (later ++ ·)).map (l :: ·) = (split .gap t).map (l :: later ++ ·) := by
    cases split .gap t <;> rfl
  fun_induction split pending s generalizing lexemes with
  | case1 =>
    cases read
    rw [List.nil_append]
    cases split .gap t <;> rfl
  | case2 c rest blank ih =>
    rw [List.cons_append, split, if_pos blank]
    exact ih seam.gap read
  | case3 rest gap ih =>
    rw [List.cons_append, split, if_neg gap, if_pos rfl]
    exact ih (seam.quote []) read
  | case4 c rest filled letter ih =>
    rw [List.cons_append, split, if_neg filled, if_neg letter]
    exact ih (seam.stretch filled letter [c]) read
  | case5 => cases read
  | case6 content rest ih =>
    obtain ⟨later, others, rfl⟩ := Except.map_eq_ok.mp read
    rw [List.cons_append, split, if_pos rfl, ih seam.gap others, joined]
  | case7 content c rest letter ih =>
    rw [List.cons_append, split, if_neg letter]
    exact ih (seam.quote (c :: content)) read
  | case8 stretch =>
    -- The blank at the seam ends the stretch, as the end of the text does.
    cases read
    have blank := seam (Or.inl ⟨rfl, stretch, rfl⟩)
    cases t with
    | nil => rfl
    | cons c t =>
      rw [List.nil_append, split, if_pos (blank c rfl), split, if_pos (blank c rfl)]
      rfl
  | case9 stretch c rest blank ih =>
    obtain ⟨later, others, rfl⟩ := Except.map_eq_ok.mp read
    rw [List.cons_append, split, if_pos blank, ih seam.gap others, joined]
  | case10 stretch rest filled ih =>
    obtain ⟨later, others, rfl⟩ := Except.map_eq_ok.mp read
    rw [List.cons_append, split, if_neg filled, if_pos rfl, ih (seam.quote []) others, joined]
  | case11 stretch c rest filled letter ih =>
    rw [List.cons_append, split, if_neg filled, if_neg letter]
    exact ih (seam.stretch filled letter (c :: stretch)) read

theorem split_blanks {v : List Char} (blank : allBlank v = true) (s : List Char) :
    split .gap (v ++ s) = split .gap s := by
  induction v with
  | nil => rfl
  | cons c v ih =>
    obtain ⟨here, others⟩ := List.forall_mem_cons.mp (List.all_eq_true.mp blank)
    rw [List.cons_append, split, if_pos here]
    exact ih (List.all_eq_true.mpr others)

theorem exists_split_iff {s : List Char} : (∃ lexemes, split .gap s = .ok lexemes) ↔ Even (s.count '"') := by
  constructor
  · rintro ⟨lexemes, read⟩
    have nothing : Pending.gap.Fits [] := fun c last => by cases last
    obtain ⟨segments, follow, reads⟩ := follow_split Even.zero nothing read
    exact follow.even (Segment.isSegment_of_readAs reads)
  · intro even
    cases read : split .gap s with
    | ok lexemes => exact ⟨lexemes, rfl⟩
    | error unclosed =>
      have nothing : Pending.gap.Plain := trivial
      obtain ⟨front, rest, whole, before, last, -⟩ := split_unclosed nothing read
      rw [show s = front ++ '"' :: rest from whole, List.count_append, List.count_cons_self,
        List.count_eq_zero.mpr last, zero_add, Nat.even_add_one] at even
      exact absurd before even

theorem count_of_blank {w : List Char} (blank : allBlank w = true) : w.count '"' = 0 :=
  List.count_eq_zero.mpr fun listed => by cases List.all_eq_true.mp blank '"' listed

theorem split_eq_ok_blanks {s w : List Char} (blank : allBlank w = true) {lexemes : List Lexeme} :
    split .gap (s ++ w) = .ok lexemes ↔ split .gap s = .ok lexemes := by
  have nothing : split .gap w = .ok [] := by
    have gone := split_blanks blank []
    rw [List.append_nil] at gone
    exact gone
  have goesOn {lexemes : List Lexeme} (read : split .gap s = .ok lexemes) : split .gap (s ++ w) = .ok lexemes := by
    have seam : Seam .gap s w :=
      .of_blank _ _ fun c first => List.all_eq_true.mp blank c (List.mem_of_mem_head? first)
    rw [split_append seam read, nothing]
    exact congrArg Except.ok (List.append_nil lexemes)
  refine ⟨fun read => ?_, goesOn⟩
  -- A quote that the blanks do not close was closed before them.
  have even : Even ((s ++ w).count '"') := exists_split_iff.mp ⟨lexemes, read⟩
  rw [List.count_append, count_of_blank blank, Nat.add_zero] at even
  obtain ⟨lexemes', read'⟩ := exists_split_iff.mpr even
  rw [goesOn read'] at read
  rw [read', read]

theorem ofLine_eq_ok {s : List Char} (plain : ¬ Marked s) {lexemes : List Lexeme} :
    ofLine s = .ok lexemes ↔ split .gap s = .ok lexemes := by
  obtain ⟨v, w, before, after, whole⟩ := exists_trim_eq s
  have trimmed : split .gap s = .ok lexemes ↔ split .gap (trim s) = .ok lexemes := by
    conv_lhs => rw [whole, split_blanks before]
    exact split_eq_ok_blanks after
  rw [ofLine_of_plain (plain_of_unmarked plain), trimmed]

/-! ### Lines that end with a connective -/

/-- A line that is no comment and ends with a connective, which is a token of its own. -/
structure Connects (line : List Char) : Prop where
  one : OneLine line
  plain : ¬ Marked line
  ends : ∃ (before : List Char) (k : Keyword), line = before ++ k.text.toList ∧ k.isConnective = true ∧
    Segment.IsRun ⟨before, k.text.toList, []⟩

theorem Marked.append {s : List Char} (marked : Marked s) (t : List Char) : Marked (s ++ t) := by
  have filled : trimStart s ≠ [] := by
    intro blank
    rw [Marked, blank] at marked
    cases marked
  rw [Marked, trimStart_append filled, List.head?_append_of_ne_nil _ filled]
  exact marked

/-- Each segment of a line that is read as a connective ends such a beginning of the line. -/
theorem Segment.ReadAs.connects {s : Segment} {k : Keyword} (read : s.ReadAs (.keyword k))
    (connective : k.isConnective = true) (one : OneLine s.whole) (plain : ¬ Marked s.whole) :
    Connects (s.before ++ s.piece) := by
  cases read with
  | keyword k isRun spelled =>
    have alone : Segment.IsRun ⟨s.before, k.text.toList, []⟩ :=
      ⟨isRun.outside, solid_keyword k, isRun.begins, fun c first => by cases first⟩
    exact ⟨(oneLine_append.mp one).1, fun marked => plain (marked.append s.after),
      s.before, k, by rw [spelled], connective, alone⟩

theorem split_keyword (k : Keyword) : split .gap k.text.toList = .ok [keyword k] := by
  have separate : Separate [] := fun c first => by cases first
  have read := split_of_stretch (stretch_keyword k) separate
  rw [List.append_nil] at read
  exact read

variable {line v r : List Char}

theorem Connects.splits (connects : Connects line) :
    ∃ row k, split .gap line = .ok (row ++ [keyword k]) ∧ k.isConnective = true := by
  obtain ⟨before, k, rfl, connective, isRun⟩ := connects.ends
  obtain ⟨row, read⟩ := exists_split_iff.mpr isRun.outside
  have seam : Seam .gap before k.text.toList := by
    rintro (⟨-, read, gap⟩ | ⟨c, last, unbound⟩)
    · cases gap
    · exact absurd (isRun.begins c last) unbound
  refine ⟨row, k, ?_, connective⟩
  rw [split_append seam read, split_keyword]
  rfl

theorem Connects.trimStart_ne_nil (connects : Connects line) : trimStart line ≠ [] := by
  obtain ⟨before, k, rfl, -, isRun⟩ := connects.ends
  obtain ⟨c, rest, spelled⟩ := List.exists_cons_of_ne_nil isRun.solid.filled
  have first : c ∈ k.text.toList := by
    rw [show k.text.toList = c :: rest from spelled]
    exact List.mem_cons_self
  intro blank
  have blanks := List.dropWhile_eq_nil_iff.mp blank c (List.mem_append_right before first)
  rw [(isRun.solid.chars c first).1] at blanks
  cases blanks

theorem Connects.plain_followed (connects : Connects line) (t : List Char) : ¬ Marked (line ++ t) := by
  have filled := connects.trimStart_ne_nil
  unfold Marked
  rw [trimStart_append filled, List.head?_append_of_ne_nil _ filled]
  exact connects.plain

/-- What follows some blanks is split as it is alone. -/
theorem split_followed (blank : allBlank v = true) (gap : v ≠ [])
    {row : List Lexeme} (read : split .gap line = .ok row) :
    split .gap (line ++ v ++ r) = (split .gap r).map (row ++ ·) := by
  have seam : Seam .gap line (v ++ r) := by
    refine .of_blank _ _ fun c first => ?_
    rw [List.head?_append_of_ne_nil _ gap] at first
    exact List.all_eq_true.mp blank c (List.mem_of_mem_head? first)
  rw [List.append_assoc, split_append seam read, split_blanks blank]

/-! ### Marks within a line -/

theorem split_begun {read s : List Char} {lexemes : List Lexeme} (split_ : split (.stretch read) s = .ok lexemes) :
    ∃ more closed later, lexemes = ofStretch (read.reverse ++ more) closed :: later := by
  induction s generalizing read with
  | nil =>
    cases split_
    exact ⟨[], false, [], by rw [List.append_nil]⟩
  | cons c rest ih =>
    rw [split] at split_
    split at split_
    · obtain ⟨later, -, rfl⟩ := Except.map_eq_ok.mp split_
      exact ⟨[], false, later, by rw [List.append_nil]⟩
    · split at split_
      · obtain ⟨later, -, rfl⟩ := Except.map_eq_ok.mp split_
        exact ⟨[], true, later, by rw [List.append_nil]⟩
      · obtain ⟨more, closed, later, rfl⟩ := ih split_
        exact ⟨c :: more, closed, later, by simp⟩

theorem not_named_mark (s : List Char) (closed : Bool) : ¬ (ofStretch ('#' :: s) closed).Named := by
  have numeral : isNumeral ('#' :: s) = false := by simp [isNumeral, isDigits, isDigit, digitValue?]
  unfold ofStretch
  rw [numeral, Bool.and_false, if_neg Bool.false_ne_true]
  split
  · next k known =>
    have spelled : k.text.toList = '#' :: s := by rw [Keyword.text_of_ofText? known, String.toList_ofList]
    exact absurd (spelled ▸ List.mem_cons_self) (mark_not_mem_keyword k)
  · rintro ⟨name, -⟩
    rw [String.toList_ofList] at name
    cases name

theorem Marked.exists_eq {s : List Char} (marked : Marked s) :
    ∃ v rest, allBlank v = true ∧ trimStart s = '#' :: rest ∧ s = v ++ '#' :: rest := by
  obtain ⟨rest, begins⟩ := List.head?_eq_some_iff.mp marked
  refine ⟨s.takeWhile isBlank, rest, List.all_takeWhile, begins, ?_⟩
  rw [← begins]
  exact List.takeWhile_append_dropWhile.symm

theorem unnamed_of_marked {s : List Char} (marked : Marked s) {lexemes : List Lexeme}
    (read : split .gap s = .ok lexemes) : ∃ l ∈ lexemes, ¬ l.Named := by
  obtain ⟨v, rest, blank, -, rfl⟩ := marked.exists_eq
  rw [split_blanks blank, split, if_neg (by decide), if_neg (by decide)] at read
  obtain ⟨more, closed, later, rfl⟩ := split_begun read
  exact ⟨_, List.mem_cons_self, not_named_mark more closed⟩

theorem ofLine_marked {s : List Char} (marked : Marked s) : ∃ text, ofLine s = .ok [.comment text] := by
  obtain ⟨v, rest, -, begins, -⟩ := marked.exists_eq
  have filled : trimEnd ('#' :: rest) ≠ [] := by
    intro blank
    cases List.rdropWhile_eq_nil_iff.mp blank '#' List.mem_cons_self
  obtain ⟨c, more, same⟩ := List.exists_cons_of_ne_nil filled
  have first := head?_trimEnd (c := c) (s := '#' :: rest) (by rw [same]; rfl)
  obtain rfl : '#' = c := Option.some.inj first
  refine ⟨String.ofList ('#' :: more), ?_⟩
  unfold ofLine
  rw [trim, begins, same]
  rfl

end Lexeme
end Walkthrough
