import Walkthrough.Proofs.Script.Parsing
import Walkthrough.Proofs.Script.Spelling
import Walkthrough.Proofs.Text.Lines

/-!
The texts of lexemes. A lexeme that has been scanned is `Written`: a quoted text has no quote in it, a
number looks like one, and none of them goes over the end of a line. Written lexemes that have a space
between each two are split as they were (`split_spaced`), and a text of them is neat.
-/
namespace Walkthrough

open Text Grammar

namespace Lexeme

/-- A stretch: filled, without a blank or a quote. -/
structure Solid (s : List Char) : Prop where
  filled : s ≠ []
  chars : ∀ c ∈ s, isBlank c = false ∧ c ≠ '"'

/-- What scanning promises of the text of a lexeme. -/
def Written : Lexeme → Prop
  | quoted content => OneLine content.toList ∧ ∀ c ∈ content.toList, c ≠ '"'
  | number digits => isNumeral digits.toList = true ∧ Solid digits.toList
  | comment text => ∃ rest, text.toList = '#' :: rest ∧ Trimmed text.toList ∧ OneLine text.toList
  | _ => True

theorem written_ofStretch {stretch : List Char} {closed : Bool} (solid : Solid stretch) :
    (ofStretch stretch closed).Written := by
  unfold ofStretch
  split
  · rename_i numeral
    have shape : isNumeral stretch = true := by simpa using (Bool.and_eq_true_iff.mp numeral).2
    simpa [Written] using And.intro shape solid
  · split <;> trivial

/-- What has been read of a pending lexeme fits a written one. -/
def Pending.Sound : Pending → Prop
  | .gap => True
  | .quote read => OneLine read ∧ ∀ c ∈ read, c ≠ '"'
  | .stretch read => Solid read

theorem Solid.cons {c : Char} {read : List Char} (blank : ¬ isBlank c = true) (quote : ¬ c = '"')
    (others : ∀ d ∈ read, isBlank d = false ∧ d ≠ '"') : Solid (c :: read) :=
  ⟨List.cons_ne_nil c read, List.forall_mem_cons.mpr ⟨⟨by simpa using blank, quote⟩, others⟩⟩

theorem Solid.reverse {read : List Char} (solid : Solid read) : Solid read.reverse :=
  ⟨by simpa using solid.filled, fun c listed => solid.chars c (List.mem_reverse.mp listed)⟩

theorem written_split {pending : Pending} {source : List Char} {lexemes : List Lexeme}
    (sound : pending.Sound) (one : OneLine source) (read : split pending source = .ok lexemes) :
    ∀ l ∈ lexemes, l.Written := by
  have nothing : ∀ c ∈ ([] : List Char), isBlank c = false ∧ c ≠ '"' := fun c listed => by cases listed
  have opened : (Pending.quote []).Sound := by simp [Pending.Sound, OneLine]
  fun_induction split pending source generalizing lexemes with
  | case1 =>
    cases read
    exact fun l listed => by cases listed
  | case2 c rest blank ih => exact ih trivial (List.forall_mem_cons.mp one).2 read
  | case3 rest gap ih => exact ih opened (List.forall_mem_cons.mp one).2 read
  | case4 c rest filled letter ih =>
    exact ih (Solid.cons filled letter nothing) (List.forall_mem_cons.mp one).2 read
  | case5 => cases read
  | case6 content rest ih =>
    obtain ⟨later, others, rfl⟩ := Except.map_eq_ok.mp read
    refine List.forall_mem_cons.mpr ⟨?_, ih trivial (List.forall_mem_cons.mp one).2 others⟩
    simpa [Written, OneLine, Pending.Sound] using sound
  | case7 content c rest letter ih =>
    obtain ⟨here, below⟩ := List.forall_mem_cons.mp one
    exact ih ⟨List.forall_mem_cons.mpr ⟨here, sound.1⟩, List.forall_mem_cons.mpr ⟨letter, sound.2⟩⟩ below read
  | case8 stretch =>
    cases read
    exact List.forall_mem_singleton.mpr (written_ofStretch sound.reverse)
  | case9 stretch c rest blank ih =>
    obtain ⟨later, others, rfl⟩ := Except.map_eq_ok.mp read
    exact List.forall_mem_cons.mpr
      ⟨written_ofStretch sound.reverse, ih trivial (List.forall_mem_cons.mp one).2 others⟩
  | case10 stretch rest filled ih =>
    obtain ⟨later, others, rfl⟩ := Except.map_eq_ok.mp read
    exact List.forall_mem_cons.mpr
      ⟨written_ofStretch sound.reverse, ih opened (List.forall_mem_cons.mp one).2 others⟩
  | case11 stretch c rest filled letter ih =>
    exact ih (Solid.cons filled letter sound.chars) (List.forall_mem_cons.mp one).2 read

theorem written_ofLine {source : List Char} {lexemes : List Lexeme} (one : OneLine source)
    (read : ofLine source = .ok lexemes) : ∀ l ∈ lexemes, l.Written := by
  have stripped : OneLine (trim source) := fun c listed => one c (trim_subset source listed)
  unfold ofLine at read
  split at read
  · rename_i rest marked
    cases read
    refine List.forall_mem_singleton.mpr ⟨rest, by simp, ?_⟩
    rw [String.toList_ofList, ← marked]
    exact ⟨trimmed_trim source, stripped⟩
  · have nothing : Pending.gap.Sound := trivial
    exact written_split nothing stripped read

theorem solid_keyword (k : Keyword) : Solid k.text.toList := by
  have solid : k.text.toList.isEmpty = false ∧
      (k.text.toList.all fun c => isBlank c == false && c != '"') = true := by
    cases k with
    | verb v => cases v <;> decide
    | _ => decide
  obtain ⟨filled, chars⟩ := solid
  refine ⟨List.isEmpty_eq_false_iff.mp filled, fun c listed => ?_⟩
  simpa using List.all_eq_true.mp chars c listed

theorem isNumeral_keyword (k : Keyword) : isNumeral k.text.toList = false := by
  cases k with
  | verb v => cases v <;> decide
  | _ => decide

theorem toNat_of_isStart {c : Char} (start : Name.isStart c = true) : 65 ≤ c.toNat ∧ c.toNat ≤ 122 := by
  change (decide (c.val ≥ 'A'.val ∧ c.val ≤ 'Z'.val) || (decide (c.val ≥ 'a'.val) && decide (c.val ≤ 'z'.val)) ||
    decide (c = '_')) = true at start
  simp only [Bool.or_eq_true, Bool.and_eq_true, decide_eq_true_eq, ge_iff_le, UInt32.le_iff_toNat_le] at start
  rcases start with (⟨low, high⟩ | ⟨low, high⟩) | rfl
  · simp at low high
    omega
  · simp at low high
    omega
  · decide

theorem toNat_of_isDigit {c : Char} (digit : c.isDigit = true) : 48 ≤ c.toNat ∧ c.toNat ≤ 57 := by
  simp only [Char.isDigit, Bool.and_eq_true, decide_eq_true_eq, UInt32.le_iff_toNat_le] at digit
  simpa using digit

theorem toNat_of_isRest {c : Char} (rest : Name.isRest c = true) : 48 ≤ c.toNat ∧ c.toNat ≤ 122 := by
  have start : Name.isStart c = true → 48 ≤ c.toNat ∧ c.toNat ≤ 122 := by
    intro start
    have := toNat_of_isStart start
    omega
  simp only [Name.isRest, Char.isAlphanum, Bool.or_eq_true] at rest
  rcases rest with (letter | digit) | underline
  · exact start (by simp [Name.isStart, letter])
  · have := toNat_of_isDigit digit
    omega
  · exact start (by simp [Name.isStart, underline])

theorem filled_of_isRest {c : Char} (rest : Name.isRest c = true) : isBlank c = false ∧ c ≠ '"' := by
  have range := toNat_of_isRest rest
  constructor
  · simp only [isBlank, Bool.or_eq_false_iff, Bool.and_eq_false_iff, decide_eq_false_iff_not,
      beq_eq_false_iff_ne]
    omega
  · rintro rfl
    revert range
    decide

theorem solid_of_isName {s : List Char} (name : Name.isName s = true) : Solid s := by
  cases s with
  | nil => cases name
  | cons c rest =>
    obtain ⟨start, others⟩ := Bool.and_eq_true_iff.mp name
    have first : Name.isRest c = true := by
      simp only [Name.isStart, Name.isRest, Char.isAlphanum, Bool.or_eq_true] at start ⊢
      exact start.imp_left Or.inl
    refine ⟨List.cons_ne_nil c rest, List.forall_mem_cons.mpr ⟨filled_of_isRest first, ?_⟩⟩
    exact fun d listed => filled_of_isRest (List.all_eq_true.mp others d listed)

theorem isDigit_of_isStart {c : Char} (start : Name.isStart c = true) : isDigit c = false := by
  have range := toNat_of_isStart start
  have ascii : c.toNat < 128 := by omega
  have letter : c.isDigit = false := by
    by_contra digit
    have := toNat_of_isDigit (Bool.not_eq_false _ ▸ digit)
    omega
  simp [isDigit, digitValue?, ascii, letter]

theorem isNumeral_of_isName {s : List Char} (name : Name.isName s = true) : isNumeral s = false := by
  cases s with
  | nil => cases name
  | cons c rest =>
    have start : Name.isStart c = true := (Bool.and_eq_true_iff.mp name).1
    unfold isNumeral
    split
    · rename_i negative
      cases negative
      exact absurd start (by decide)
    · simp [isDigits, isDigit_of_isStart start]

/-- An unquoted text that is read as the lexeme. -/
structure Stretch (l : Lexeme) : Prop where
  solid : Solid l.text.toList
  read : ofStretch l.text.toList false = l

theorem stretch_keyword (k : Keyword) : Stretch (keyword k) where
  solid := solid_keyword k
  read := by
    have spelled : String.ofList (keyword k).text.toList = k.text := String.ofList_toList
    have shape : isNumeral (keyword k).text.toList = false := isNumeral_keyword k
    simp [ofStretch, shape, spelled]

theorem stretch_number {digits : String} (written : (number digits).Written) : Stretch (number digits) where
  solid := written.2
  read := by
    have shape : isNumeral digits.toList = true := written.1
    simp [ofStretch, shape, text]

theorem stretch_word {letters : String} (named : (word letters).Named) : Stretch (word letters) where
  solid := solid_of_isName named.1
  read := by
    have shape : isNumeral letters.toList = false := isNumeral_of_isName named.1
    have unknown : Keyword.ofText? letters = none := by
      cases known : Keyword.ofText? letters with
      | none => rfl
      | some k => exact absurd (Keyword.text_of_ofText? known) (named.2 k)
    simp [ofStretch, shape, text, unknown]

/-- What follows a lexeme in a display: nothing, or a space. -/
def Separate (rest : List Char) : Prop := ∀ c ∈ rest.head?, c = ' '

theorem split_stretch (read : List Char) {s rest : List Char} (chars : ∀ c ∈ s, isBlank c = false ∧ c ≠ '"')
    (separate : Separate rest) : split (.stretch read) (s ++ rest) =
      (split .gap rest).map (ofStretch (read.reverse ++ s) false :: ·) := by
  induction s generalizing read with
  | nil =>
    rw [List.nil_append, List.append_nil]
    cases rest with
    | nil => rfl
    | cons c more =>
      cases separate c rfl
      rfl
  | cons c later ih =>
    obtain ⟨⟨filled, letter⟩, others⟩ := List.forall_mem_cons.mp chars
    have goesOn := ih (c :: read) others
    rw [List.reverse_cons, List.append_assoc, List.singleton_append] at goesOn
    rw [List.cons_append, ← goesOn, split]
    simp [filled, letter]

theorem split_quote (read : List Char) {s rest : List Char} (chars : ∀ c ∈ s, c ≠ '"') :
    split (.quote read) (s ++ '"' :: rest) =
      (split .gap rest).map (quoted (String.ofList (read.reverse ++ s)) :: ·) := by
  induction s generalizing read with
  | nil => simp [split]
  | cons c later ih =>
    obtain ⟨letter, others⟩ := List.forall_mem_cons.mp chars
    have goesOn := ih (c :: read) others
    rw [List.reverse_cons, List.append_assoc, List.singleton_append] at goesOn
    rw [List.cons_append, ← goesOn, split]
    simp [letter]

theorem split_of_stretch {l : Lexeme} {rest : List Char} (stretch : Stretch l) (separate : Separate rest) :
    split .gap (l.text.toList ++ rest) = (split .gap rest).map (l :: ·) := by
  obtain ⟨filled, chars⟩ := stretch.solid
  have read := stretch.read
  cases spelled : l.text.toList with
  | nil => exact absurd spelled filled
  | cons c later =>
    rw [spelled] at chars read
    obtain ⟨⟨blank, quote⟩, others⟩ := List.forall_mem_cons.mp chars
    have goesOn := split_stretch [c] others separate
    rw [List.reverse_singleton, List.singleton_append, read] at goesOn
    rw [← goesOn, List.cons_append, split]
    simp [blank, quote]

/-- A lexeme of a display is read again, and what follows it is read as before. -/
theorem split_text {l : Lexeme} (rest : List Char) (written : l.Written) (named : l.Named)
    (separate : Separate rest) : split .gap (l.text.toList ++ rest) = (split .gap rest).map (l :: ·) := by
  cases l with
  | keyword k => exact split_of_stretch (stretch_keyword k) separate
  | quoted content =>
    have opened : (quoted content).text.toList ++ rest = '"' :: (content.toList ++ '"' :: rest) := by
      simp [text]
    rw [opened, split, if_neg (by decide), if_pos rfl, split_quote [] written.2]
    simp
  | number digits => exact split_of_stretch (stretch_number written) separate
  | word letters => exact split_of_stretch (stretch_word named) separate
  | comment text => exact named.elim

theorem split_spaced {spelling : List Lexeme} (written : ∀ l ∈ spelling, l.Written)
    (named : ∀ l ∈ spelling, l.Named) : split .gap (spaced spelling) = .ok spelling := by
  induction spelling with
  | nil => rfl
  | cons l later ih =>
    obtain ⟨here, below⟩ := List.forall_mem_cons.mp written
    obtain ⟨name, names⟩ := List.forall_mem_cons.mp named
    cases later with
    | nil =>
      have read := split_text [] here name fun c none => by cases none
      rw [List.append_nil] at read
      exact read
    | cons next later =>
      have separate : Separate (' ' :: spaced (next :: later)) := fun c first => (Option.some.inj first).symm
      have gap : split .gap (' ' :: spaced (next :: later)) = .ok (next :: later) := ih below names
      rw [spaced_cons l (List.cons_ne_nil next later), split_text _ here name separate, gap]
      rfl

/-- What a display is made of: texts without blank ends that stay on one line. -/
structure Neat (s : List Char) : Prop where
  filled : s ≠ []
  trimmed : Trimmed s
  one : OneLine s

theorem Solid.neat {s : List Char} (solid : Solid s) : Neat s := by
  have filled : ∀ c ∈ s, isBlank c = false := fun c listed => (solid.chars c listed).1
  exact ⟨solid.filled, trimmed_of_filled filled, oneLine_of_filled filled⟩

theorem Neat.append {s t between : List Char} (before : Neat s) (after : Neat t) (one : OneLine between) :
    Neat (s ++ between ++ t) where
  filled := List.append_ne_nil_of_right_ne_nil _ after.filled
  trimmed := before.trimmed.append after.trimmed before.filled after.filled between
  one := oneLine_append.mpr ⟨oneLine_append.mpr ⟨before.one, one⟩, after.one⟩

theorem neat_text {l : Lexeme} (written : l.Written) (named : l.Named) : Neat l.text.toList := by
  cases l with
  | keyword k => exact (solid_keyword k).neat
  | quoted content =>
    have filled : ∀ c ∈ ['"'], isBlank c = false := List.forall_mem_singleton.mpr (by decide)
    have quote : Neat ['"'] := ⟨List.cons_ne_nil _ _, trimmed_of_filled filled, oneLine_of_filled filled⟩
    have quotes := quote.append quote written.1
    simpa [text] using quotes
  | number digits => exact written.2.neat
  | word letters => exact (solid_of_isName named.1).neat
  | comment text => exact named.elim

theorem neat_spaced {spelling : List Lexeme} (some : spelling ≠ []) (written : ∀ l ∈ spelling, l.Written)
    (named : ∀ l ∈ spelling, l.Named) : Neat (spaced spelling) := by
  induction spelling with
  | nil => exact absurd rfl some
  | cons l later ih =>
    obtain ⟨here, below⟩ := List.forall_mem_cons.mp written
    obtain ⟨name, names⟩ := List.forall_mem_cons.mp named
    have first := neat_text here name
    cases later with
    | nil => exact first
    | cons next later =>
      have others := ih (List.cons_ne_nil next later) below names
      rw [spaced_cons l (List.cons_ne_nil next later)]
      have space : OneLine [' '] := List.forall_mem_singleton.mpr rfl
      simpa using first.append others space

end Lexeme
end Walkthrough
