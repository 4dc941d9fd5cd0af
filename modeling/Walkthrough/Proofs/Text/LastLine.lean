import Walkthrough.Proofs.Text.Lines

/-!
The last line of a text that is not blank. The text that ends with it, once the blanks behind it are shed, ends as the
line does (`trimEnd_of_lastFilled`), and there is one unless all is blank (`exists_lastFilled`).
-/
namespace Walkthrough.Text

/-- A line that is not blank, with blank lines at most behind it. -/
def LastFilled (s line : List Char) : Prop :=
  ∃ before after, lines s = before ++ line :: after ∧ allBlank line = false ∧ ∀ l ∈ after, allBlank l = true

/-- The first line of a text, what ends it, and the text behind. -/
theorem linesAfter_eq_cons {line s l : List Char} {later : List (List Char)} (split : linesAfter line s = l :: later) :
    ∃ more ending rest, l = line.reverse ++ more ∧ s = more ++ (ending ++ rest) ∧
      (∀ c ∈ ending, isLineBreak c = true) ∧ (ending = [] → rest = []) ∧ lines rest = later := by
  fun_induction linesAfter line s with
  | case1 line empty => cases split
  | case2 line filled =>
    cases split
    exact ⟨[], [], [], (List.append_nil _).symm, rfl, List.forall_mem_nil _, fun _ => rfl, rfl⟩
  | case3 line rest ih =>
    cases split
    have breaks : ∀ c ∈ ['\r', '\n'], isLineBreak c = true := List.all_eq_true.mp rfl
    exact ⟨[], ['\r', '\n'], rest, (List.append_nil _).symm, rfl, breaks, fun none => absurd none (List.cons_ne_nil _ _), rfl⟩
  | case4 line c rest single breaks ih =>
    cases split
    exact ⟨[], [c], rest, (List.append_nil _).symm, rfl, List.forall_mem_singleton.mpr breaks,
      fun none => absurd none (List.cons_ne_nil _ _), rfl⟩
  | case5 line c rest single goesOn ih =>
    obtain ⟨more, ending, rest', rfl, rfl, breaks, ended, others⟩ := ih split
    exact ⟨c :: more, ending, rest', by simp, rfl, breaks, ended, others⟩

theorem allBlank_append {s t : List Char} : allBlank (s ++ t) = true ↔ allBlank s = true ∧ allBlank t = true := by
  simp [allBlank]

theorem allBlank_of_breaks {s : List Char} (breaks : ∀ c ∈ s, isLineBreak c = true) : allBlank s = true :=
  List.all_eq_true.mpr fun c listed => isBlank_of_isLineBreak (breaks c listed)

/-- A text of blank lines is blank. -/
theorem allBlank_of_lines {s : List Char} (blank : ∀ l ∈ lines s, allBlank l = true) : allBlank s = true := by
  cases split : lines s with
  | nil =>
    cases s with
    | nil => rfl
    | cons c rest =>
      obtain ⟨first, later, filled⟩ := linesAfter_filled (List.cons_ne_nil c rest)
      rw [lines, filled] at split
      cases split
  | cons l later =>
    obtain ⟨more, ending, rest, rfl, same, breaks, ended, others⟩ := linesAfter_eq_cons split
    rw [split] at blank
    obtain ⟨first, behind⟩ := List.forall_mem_cons.mp blank
    rw [same, allBlank_append, allBlank_append]
    refine ⟨first, allBlank_of_breaks breaks, ?_⟩
    by_cases none : ending = []
    · rw [ended none]
      rfl
    · have shorter : rest.length < s.length := by
        have := List.length_pos_iff.mpr none
        rw [same, List.length_append, List.length_append]
        omega
      exact allBlank_of_lines (others ▸ behind)
termination_by s.length

/-- What stands before a line ends with a boundary. -/
theorem exists_of_lines {s line : List Char} {before after : List (List Char)} (split : lines s = before ++ line :: after) :
    ∃ front ending rest, s = front ++ (line ++ (ending ++ rest)) ∧ (∀ c ∈ front.getLast?, isLineBreak c = true) ∧
      (∀ c ∈ ending, isLineBreak c = true) ∧ lines rest = after := by
  induction before generalizing s with
  | nil =>
    obtain ⟨more, ending, rest, rfl, same, breaks, -, others⟩ := linesAfter_eq_cons split
    exact ⟨[], ending, rest, same, nofun, breaks, others⟩
  | cons first before ih =>
    obtain ⟨more, ending, rest, rfl, same, breaks, ended, others⟩ := linesAfter_eq_cons split
    obtain ⟨front, ending', rest', same', broken, breaks', others'⟩ := ih others
    refine ⟨first ++ ending ++ front, ending', rest', ?_, ?_, breaks', others'⟩
    · rw [same, same']
      simp
    · intro c last
      by_cases none : front = []
      · have some : ending ≠ [] := by
          intro nothing
          have empty := ended nothing
          rw [empty] at others
          cases before <;> cases others
        rw [none, List.append_nil, List.getLast?_append_of_ne_nil _ some] at last
        exact breaks c (List.mem_of_getLast? last)
      · rw [List.getLast?_append_of_ne_nil _ none] at last
        exact broken c last

theorem trimEnd_append {s : List Char} (filled : trimEnd s ≠ []) (front : List Char) :
    trimEnd (front ++ s) = front ++ trimEnd s := by
  have some : s.reverse.dropWhile isBlank ≠ [] := fun none => filled (by rw [trimEnd, none]; rfl)
  unfold trimEnd
  rw [List.reverse_append, List.dropWhile_append, if_neg (by simpa using some), List.reverse_append,
    List.reverse_reverse]

theorem trimEnd_ne_nil {s : List Char} (filled : allBlank s = false) : trimEnd s ≠ [] := by
  intro none
  have blank : allBlank s = true := List.all_eq_true.mpr (List.rdropWhile_eq_nil_iff.mp none)
  rw [filled] at blank
  cases blank

/-- A text ends as its last filled line does. -/
theorem trimEnd_of_lastFilled {s line : List Char} (last : LastFilled s line) :
    ∃ front, trimEnd s = front ++ trimEnd line ∧ ∀ c ∈ front.getLast?, isLineBreak c = true := by
  obtain ⟨before, after, split, filled, blank⟩ := last
  obtain ⟨front, ending, rest, same, broken, breaks, others⟩ := exists_of_lines split
  have behind : allBlank (ending ++ rest) = true :=
    allBlank_append.mpr ⟨allBlank_of_breaks breaks, allBlank_of_lines (others ▸ blank)⟩
  refine ⟨front, ?_, broken⟩
  rw [same, ← List.append_assoc, trimEnd_blanks behind, trimEnd_append (trimEnd_ne_nil filled)]

theorem exists_last_filled (sources : List (List Char)) : (∀ l ∈ sources, allBlank l = true) ∨
    ∃ before line after, sources = before ++ line :: after ∧ allBlank line = false ∧ ∀ l ∈ after, allBlank l = true := by
  induction sources with
  | nil => exact Or.inl nofun
  | cons first later ih =>
    obtain blank | ⟨before, line, after, rfl, filled, blank⟩ := ih
    · cases own : allBlank first with
      | true => exact Or.inl (List.forall_mem_cons.mpr ⟨own, blank⟩)
      | false => exact Or.inr ⟨[], first, later, rfl, own, blank⟩
    · exact Or.inr ⟨first :: before, line, after, rfl, filled, blank⟩

theorem exists_lastFilled {s : List Char} (filled : allBlank s = false) : ∃ line, LastFilled s line := by
  obtain blank | ⟨before, line, after, split, some, blank⟩ := exists_last_filled (lines s)
  · rw [allBlank_of_lines blank] at filled
    cases filled
  · exact ⟨line, before, after, split, some, blank⟩

/-- Of two lines that are not blank, the first one has the other behind it. -/
theorem eq_of_last_filled {before before' after after' : List (List Char)} {line line' : List Char}
    (same : before ++ line :: after = before' ++ line' :: after') (filled : allBlank line = false)
    (filled' : allBlank line' = false) (blank : ∀ l ∈ after, allBlank l = true)
    (blank' : ∀ l ∈ after', allBlank l = true) : line = line' := by
  have behind {between : List (List Char)} {first second : List Char} {rest rest' : List (List Char)}
      (split : first :: rest = between ++ second :: rest') (filled : allBlank second = false)
      (blank : ∀ l ∈ rest, allBlank l = true) : first = second := by
    cases between with
    | nil => exact (List.cons.inj split).1
    | cons l between =>
      have listed : second ∈ rest := by
        rw [(List.cons.inj split).2]
        simp
      rw [blank second listed] at filled
      cases filled
  rcases List.append_eq_append_iff.mp same with ⟨between, -, split⟩ | ⟨between, -, split⟩
  · exact behind split filled' blank
  · exact (behind split filled blank').symm

theorem LastFilled.unique {s line line' : List Char} (one : LastFilled s line) (other : LastFilled s line') :
    line = line' := by
  obtain ⟨before, after, split, filled, blank⟩ := one
  obtain ⟨before', after', split', filled', blank'⟩ := other
  exact eq_of_last_filled (split.symm.trans split') filled filled' blank blank'

theorem LastFilled.oneLine {s line : List Char} (last : LastFilled s line) : OneLine line := by
  obtain ⟨before, after, split, -, -⟩ := last
  exact oneLine_lines line (by rw [split]; simp)

theorem last_trimEnd (s : List Char) : ∀ c ∈ (trimEnd s).getLast?, isBlank c = false :=
  trimEnd_eq_self_iff.mp (List.rdropWhile_idempotent isBlank s)

/-- A text is its beginning up to the last character that is not blank, and blanks. -/
theorem exists_trimEnd_eq (s : List Char) : ∃ w, allBlank w = true ∧ s = trimEnd s ++ w := by
  refine ⟨s.rtakeWhile isBlank, ?_, List.rdropWhile_append_rtakeWhile.symm⟩
  exact List.all_eq_true.mpr fun c listed => List.mem_rtakeWhile_imp listed

end Walkthrough.Text
