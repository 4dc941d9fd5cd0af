import Mathlib.Data.List.DropRight
import Walkthrough.Text.Blank
import Walkthrough.Text.Line

/-!
Trimmed texts and texts of several lines. A text neither end of which is blank stays as it is when it is
trimmed (`trim_of_trimmed`), every text that has been trimmed is such a one (`trimmed_trim`), and blanks
around a text make no difference to it (`trim_blanks`). No physical line holds a line boundary, and filled lines that are joined by line feeds are
read as they were (`lines_joined`).
-/
namespace Walkthrough.Text

theorem isBlank_of_isLineBreak {c : Char} (breaks : isLineBreak c = true) : isBlank c = true := by
  simp only [isLineBreak, Bool.or_eq_true, Bool.and_eq_true, decide_eq_true_eq, beq_iff_eq] at breaks
  simp only [isBlank, Bool.or_eq_true, Bool.and_eq_true, decide_eq_true_eq, beq_iff_eq]
  omega

theorem trimStart_eq_self_iff {s : List Char} :
    trimStart s = s ↔ ∀ c ∈ s.head?, isBlank c = false := by
  unfold trimStart
  cases s with
  | nil => simp
  | cons c rest =>
    rw [List.dropWhile_eq_self_iff]
    simp

theorem trimEnd_eq_self_iff {s : List Char} :
    trimEnd s = s ↔ ∀ c ∈ s.getLast?, isBlank c = false := by
  have turned : trimEnd s = s ↔ trimStart s.reverse = s.reverse := by
    unfold trimEnd trimStart
    rw [List.reverse_eq_iff]
  rw [turned, trimStart_eq_self_iff, List.head?_reverse]

theorem trimEnd_begins (s : List Char) : trimEnd s <+: s := List.rdropWhile_prefix isBlank s

theorem trim_subset (s : List Char) : trim s ⊆ s :=
  List.Subset.trans (trimEnd_begins _).subset (List.dropWhile_suffix isBlank).subset

theorem head?_trimEnd {s : List Char} {c : Char} (first : c ∈ (trimEnd s).head?) : c ∈ s.head? := by
  obtain ⟨after, split⟩ := trimEnd_begins s
  cases ends : trimEnd s with
  | nil => simp [ends] at first
  | cons d rest =>
    rw [ends] at split first
    rw [← split]
    exact first

/-- Neither end of the text is blank. -/
structure Trimmed (s : List Char) : Prop where
  first : ∀ c ∈ s.head?, isBlank c = false
  last : ∀ c ∈ s.getLast?, isBlank c = false

theorem trim_of_trimmed {s : List Char} (trimmed : Trimmed s) : trim s = s := by
  rw [trim, trimStart_eq_self_iff.mpr trimmed.first, trimEnd_eq_self_iff.mpr trimmed.last]

theorem trimmed_trim (s : List Char) : Trimmed (trim s) where
  first c first := by
    have start : c ∈ (s.dropWhile isBlank).head? := head?_trimEnd first
    have filled := List.head?_dropWhile_not isBlank s
    rw [Option.mem_def.mp start] at filled
    simpa using filled
  last := by
    apply trimEnd_eq_self_iff.mp
    exact List.rdropWhile_idempotent isBlank _

theorem trimmed_of_filled {s : List Char} (filled : ∀ c ∈ s, isBlank c = false) : Trimmed s where
  first c first := filled c (List.mem_of_mem_head? first)
  last c last := filled c (List.mem_of_mem_getLast? last)

theorem Trimmed.append {s t : List Char} (before : Trimmed s) (after : Trimmed t) (some : s ≠ [])
    (more : t ≠ []) (between : List Char) : Trimmed (s ++ between ++ t) where
  first c first := by
    cases s with
    | nil => exact absurd rfl some
    | cons d rest => exact before.first c first
  last c last := by
    rw [List.getLast?_append_of_ne_nil _ more] at last
    exact after.last c last

theorem allBlank_nil : allBlank [] = true := rfl

theorem allBlank_reverse {v : List Char} (blank : allBlank v = true) : allBlank v.reverse = true :=
  List.all_reverse.trans blank

theorem trimStart_blanks {v : List Char} (blank : allBlank v = true) (s : List Char) :
    trimStart (v ++ s) = trimStart s :=
  List.dropWhile_append_of_pos (List.all_eq_true.mp blank)

theorem trimStart_of_blank {s : List Char} (blank : allBlank s = true) : trimStart s = [] :=
  List.dropWhile_eq_nil_iff.mpr (List.all_eq_true.mp blank)

theorem trimStart_append {s : List Char} (filled : trimStart s ≠ []) (t : List Char) :
    trimStart (s ++ t) = trimStart s ++ t := by
  unfold trimStart at filled ⊢
  rw [List.dropWhile_append, if_neg (by simpa using filled)]

theorem trimEnd_blanks {w : List Char} (blank : allBlank w = true) (s : List Char) :
    trimEnd (s ++ w) = trimEnd s := by
  unfold trimEnd
  rw [List.reverse_append, List.dropWhile_append_of_pos (List.all_eq_true.mp (allBlank_reverse blank))]

theorem trim_blanks {v w : List Char} (before : allBlank v = true) (after : allBlank w = true) (s : List Char) :
    trim (v ++ (s ++ w)) = trim s := by
  rw [trim, trimStart_blanks before]
  by_cases filled : trimStart s = []
  · have blank : allBlank (s ++ w) = true := by
      have all : allBlank s = true := List.all_eq_true.mpr (List.dropWhile_eq_nil_iff.mp filled)
      simpa [allBlank] using And.intro all after
    rw [trimStart_of_blank blank, trim, filled]
  · rw [trimStart_append filled, trimEnd_blanks after, trim]

theorem exists_trim_eq (s : List Char) :
    ∃ v w, allBlank v = true ∧ allBlank w = true ∧ s = v ++ (trim s ++ w) := by
  refine ⟨s.takeWhile isBlank, (trimStart s).rtakeWhile isBlank, ?_, ?_, ?_⟩
  · exact List.all_takeWhile
  · exact List.all_eq_true.mpr fun c listed => List.mem_rtakeWhile_imp listed
  · have ends : trim s ++ (trimStart s).rtakeWhile isBlank = trimStart s := List.rdropWhile_append_rtakeWhile
    rw [ends]
    exact List.takeWhile_append_dropWhile.symm

/-- The text holds no line boundary. -/
def OneLine (s : List Char) : Prop := ∀ c ∈ s, isLineBreak c = false

theorem oneLine_append {s t : List Char} : OneLine (s ++ t) ↔ OneLine s ∧ OneLine t :=
  List.forall_mem_append

theorem oneLine_of_filled {s : List Char} (filled : ∀ c ∈ s, isBlank c = false) : OneLine s := by
  intro c listed
  by_contra breaks
  have blank := isBlank_of_isLineBreak (Bool.not_eq_false _ ▸ breaks)
  rw [filled c listed] at blank
  cases blank

theorem linesAfter_nil (line : List Char) : linesAfter line [] = if line.isEmpty then [] else [line.reverse] := rfl

theorem linesAfter_cons (line : List Char) {c : Char} {rest : List Char} (single : ∀ later, c = '\r' → rest ≠ '\n' :: later) :
    linesAfter line (c :: rest) =
      if isLineBreak c then line.reverse :: linesAfter [] rest else linesAfter (c :: line) rest := by
  rw [linesAfter.eq_3]
  exact fun later first => single later first

theorem oneLine_linesAfter {line s : List Char} (begun : OneLine line) :
    ∀ l ∈ linesAfter line s, OneLine l := by
  have nothing : OneLine [] := fun c listed => by cases listed
  have whole : ∀ {line : List Char}, OneLine line → OneLine line.reverse :=
    fun one c listed => one c (List.mem_reverse.mp listed)
  fun_induction linesAfter line s with
  | case1 line empty => exact fun l listed => by cases listed
  | case2 line filled => exact List.forall_mem_singleton.mpr (whole begun)
  | case3 line rest ih => exact List.forall_mem_cons.mpr ⟨whole begun, ih nothing⟩
  | case4 line c rest single breaks ih => exact List.forall_mem_cons.mpr ⟨whole begun, ih nothing⟩
  | case5 line c rest single goesOn ih =>
    exact ih (List.forall_mem_cons.mpr ⟨by simpa using goesOn, begun⟩)

theorem oneLine_lines {s : List Char} : ∀ l ∈ lines s, OneLine l :=
  oneLine_linesAfter fun c listed => by cases listed

theorem linesAfter_oneLine {line s rest : List Char} (one : OneLine s) :
    linesAfter line (s ++ rest) = linesAfter (s.reverse ++ line) rest := by
  induction s generalizing line with
  | nil => rfl
  | cons c later ih =>
    obtain ⟨goesOn, others⟩ := List.forall_mem_cons.mp one
    have single : linesAfter line (c :: (later ++ rest)) = linesAfter (c :: line) (later ++ rest) := by
      rw [linesAfter_cons, if_neg (by simp [goesOn])]
      rintro rest' rfl
      cases goesOn
    rw [List.cons_append, single, ih others, List.reverse_cons, List.append_assoc, List.singleton_append]

theorem linesAfter_lineFeed (line rest : List Char) :
    linesAfter line ('\n' :: rest) = line.reverse :: linesAfter [] rest := rfl

/-- A boundary ends the line; the line feed after a carriage return belongs to the same boundary. -/
theorem linesAfter_break {c : Char} (breaks : isLineBreak c = true) (s : List Char) :
    ∃ rest, (s = rest ∨ s = '\n' :: rest) ∧ ∀ line, linesAfter line (c :: s) = line.reverse :: lines rest := by
  by_cases pair : c = '\r' ∧ ∃ rest, s = '\n' :: rest
  · obtain ⟨rfl, rest, rfl⟩ := pair
    exact ⟨rest, Or.inr rfl, fun line => rfl⟩
  · refine ⟨s, Or.inl rfl, fun line => ?_⟩
    rw [linesAfter_cons, if_pos breaks, lines]
    rintro rest rfl rfl
    exact pair ⟨rfl, rest, rfl⟩

theorem linesAfter_goesOn {c : Char} (goesOn : isLineBreak c = false) (line s : List Char) :
    linesAfter line (c :: s) = linesAfter (c :: line) s :=
  linesAfter_oneLine (List.forall_mem_singleton.mpr goesOn)

/-- What has been read of a line is the beginning of the first one. -/
theorem linesAfter_filled {s : List Char} (some : s ≠ []) :
    ∃ first later, ∀ line, linesAfter line s = (line.reverse ++ first) :: later := by
  induction s with
  | nil => exact absurd rfl some
  | cons c s ih =>
    cases breaks : isLineBreak c with
    | true =>
      obtain ⟨rest, -, broken⟩ := linesAfter_break breaks s
      exact ⟨[], lines rest, fun line => by rw [broken, List.append_nil]⟩
    | false =>
      by_cases ended : s = []
      · subst ended
        refine ⟨[c], [], fun line => ?_⟩
        rw [linesAfter_goesOn breaks, linesAfter_nil]
        simp
      · obtain ⟨first, later, goesOn⟩ := ih ended
        refine ⟨c :: first, later, fun line => ?_⟩
        rw [linesAfter_goesOn breaks, goesOn, List.reverse_cons, List.append_assoc, List.singleton_append]

/-- Filled lines are read as they were joined, whether or not a line feed follows the last of them. -/
theorem lines_joined {sources : List (List Char)} (filled : ∀ s ∈ sources, s ≠ [] ∧ OneLine s) :
    lines (List.intercalate ['\n'] sources) = sources ∧
      (sources ≠ [] → lines (List.intercalate ['\n'] sources ++ ['\n']) = sources) := by
  induction sources with
  | nil => exact ⟨rfl, fun some => absurd rfl some⟩
  | cons s later ih =>
    obtain ⟨⟨some, one⟩, others⟩ := List.forall_mem_cons.mp filled
    have alone : ∀ ending ∈ [[], ['\n']], lines (s ++ ending) = [s] := by
      intro ending listed
      rw [lines, linesAfter_oneLine one, List.append_nil]
      rcases List.mem_cons.mp listed with rfl | listed
      · rw [linesAfter_nil]
        simp [some]
      · cases List.mem_singleton.mp listed
        rw [linesAfter_lineFeed, linesAfter_nil]
        simp
    cases later with
    | nil =>
      rw [List.intercalate_singleton]
      refine ⟨?_, fun _ => alone ['\n'] (by simp)⟩
      simpa using alone [] (by simp)
    | cons next later =>
      have split : ∀ ending, lines (s ++ '\n' :: ending) = s :: lines ending := by
        intro ending
        rw [lines, linesAfter_oneLine one, List.append_nil, linesAfter_lineFeed, List.reverse_reverse, lines]
      obtain ⟨plain, ended⟩ := ih others
      rw [List.intercalate_cons_cons, List.append_assoc, List.singleton_append]
      refine ⟨by rw [split, plain], fun _ => ?_⟩
      rw [List.append_assoc, List.cons_append, split, ended (List.cons_ne_nil _ _)]

end Walkthrough.Text
