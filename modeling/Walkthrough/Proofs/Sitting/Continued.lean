import Walkthrough.Proofs.Script.Grouping
import Walkthrough.Proofs.Script.Layout
import Walkthrough.Proofs.Sitting.Kept
import Walkthrough.Proofs.Text.LastLine

/-!
When the user is asked to go on. A sitting asks for another line by what the last line that is not blank ends with, a
space and a connective; a script cannot end with a connective that is its last token. The two come to the same unless
the line is a comment, a quote is open in it, or something other than a space stands before the connective
(`asks_and_dangles`).
-/
namespace Walkthrough

open Text Grammar

namespace Lexeme

/-! ### Lines whose last token is a connective -/

theorem Segment.Follow.blank_of_nil {read rest : List Char} {segments : List Segment}
    (follow : Segment.Follow read rest segments) (none : segments = []) : allBlank rest = true := by
  induction follow with
  | done read => rfl
  | blank blank later ih => exact List.all_eq_true.mpr (List.forall_mem_cons.mpr ⟨blank, List.all_eq_true.mp (ih none)⟩)
  | segment later ih => cases none

/-- Behind the last segment there are only blanks. -/
theorem Segment.Follow.last {read rest : List Char} {segments : List Segment} {s : Segment}
    (follow : Segment.Follow read rest segments) (last : segments.getLast? = some s) :
    s.whole = read ++ rest ∧ allBlank s.after = true := by
  induction follow with
  | done read => cases last
  | blank blank later ih =>
    obtain ⟨whole, behind⟩ := ih last
    exact ⟨by rw [whole]; simp, behind⟩
  | @segment read piece rest segments later ih =>
    cases segments with
    | nil =>
      cases last
      exact ⟨List.append_assoc .., later.blank_of_nil rfl⟩
    | cons next segments =>
      obtain ⟨whole, behind⟩ := ih last
      exact ⟨by rw [whole]; simp, behind⟩

theorem exists_readAs_last {lexemes : List Lexeme} {segments : List Segment} {l : Lexeme}
    (reads : List.Forall₂ (fun l s => Segment.ReadAs s l) lexemes segments) (last : lexemes.getLast? = some l) :
    ∃ s, segments.getLast? = some s ∧ Segment.ReadAs s l := by
  induction reads with
  | nil => cases last
  | @cons first s lexemes segments here later ih =>
    cases later with
    | nil =>
      cases last
      exact ⟨s, rfl, here⟩
    | cons => exact ih last

/-- The last token of the line is a connective. -/
def EndsOn (line : List Char) (k : Keyword) : Prop :=
  k.isConnective = true ∧ ∃ lexemes, ofLine line = .ok lexemes ∧ lexemes.getLast? = some (.keyword k)

theorem connects_of_endsOn {line : List Char} {k : Keyword} (one : OneLine line) (ends : EndsOn line k) :
    Connects (trimEnd line) := by
  obtain ⟨connective, lexemes, read, last⟩ := ends
  have plain : ¬Marked line := by
    intro marked
    obtain ⟨text, comment⟩ := ofLine_marked marked
    cases comment.symm.trans read
    cases last
  obtain ⟨w, blank, whole⟩ := exists_trimEnd_eq line
  have bare : ¬Marked (trimEnd line) := fun marked => plain (whole ▸ marked.append w)
  rw [ofLine_eq_ok plain, whole, split_eq_ok_blanks blank] at read
  have nothing : Pending.gap.Fits [] := nofun
  obtain ⟨segments, follow, reads⟩ := follow_split Even.zero nothing read
  obtain ⟨s, final, readAs⟩ := exists_readAs_last reads last
  obtain ⟨all, behind⟩ := follow.last final
  have all : s.whole = trimEnd line := all
  -- Blanks behind the connective would have been shed.
  have ended : s.after = [] := by
    by_contra more
    obtain ⟨c, final⟩ := Option.ne_none_iff_exists'.mp (List.getLast?_eq_none_iff.not.mpr more)
    have filled := last_trimEnd line c
    rw [← all, Segment.whole, List.getLast?_append_of_ne_nil _ more] at filled
    have gap := List.all_eq_true.mp behind c (List.mem_of_getLast? final)
    rw [filled final] at gap
    cases gap
  have connects := readAs.connects connective (all ▸ (oneLine_append.mp (whole ▸ one)).1) (all ▸ bare)
  rw [Segment.whole, ended, List.append_nil] at all
  rwa [all] at connects

theorem endsOn_of_connects {line : List Char} (connects : Connects (trimEnd line)) : ∃ k, EndsOn line k := by
  obtain ⟨row, k, read, connective⟩ := connects.splits
  obtain ⟨w, blank, whole⟩ := exists_trimEnd_eq line
  have plain : ¬Marked line := whole ▸ connects.plain_followed w
  refine ⟨k, connective, row ++ [.keyword k], (ofLine_eq_ok plain).mpr ?_, List.getLast?_concat⟩
  rw [whole]
  exact (split_eq_ok_blanks blank).mpr read

/-- The line ends with a connective behind a space, whatever stands before that. -/
def Spaced (line : List Char) : Prop :=
  ∃ (before : List Char) (k : Keyword), trimEnd line = before ++ ' ' :: k.text.toList ∧ k.isConnective = true

theorem even_count_trimEnd (line : List Char) : Even ((trimEnd line).count '"') ↔ Even (line.count '"') := by
  obtain ⟨w, blank, whole⟩ := exists_trimEnd_eq line
  conv_rhs => rw [whole, List.count_append, count_of_blank blank, Nat.add_zero]

/-- A connective behind a space is the last token, unless it is a comment or a quote that holds it. -/
theorem connects_iff_of_spaced {line : List Char} (one : OneLine line) (spaced : Spaced line) :
    Connects (trimEnd line) ↔ ¬Marked line ∧ Even (line.count '"') := by
  obtain ⟨w, blank, whole⟩ := exists_trimEnd_eq line
  rw [← even_count_trimEnd]
  constructor
  · intro connects
    obtain ⟨row, k, read, -⟩ := connects.splits
    exact ⟨whole ▸ connects.plain_followed w, exists_split_iff.mp ⟨_, read⟩⟩
  · rintro ⟨plain, even⟩
    obtain ⟨before, k, ends, connective⟩ := spaced
    have solid := solid_keyword k
    refine ⟨(oneLine_append.mp (whole ▸ one)).1, fun marked => plain (whole ▸ marked.append w),
      before ++ [' '], k, by rw [ends]; simp, connective, ?_, solid, fun c last => ?_, nofun⟩
    · have silent : k.text.toList.count '"' = 0 :=
        List.count_eq_zero.mpr fun listed => (solid.chars '"' listed).2 rfl
      rw [ends, ← List.singleton_append, ← List.append_assoc, List.count_append, silent] at even
      exact even
    · rw [List.getLast?_concat] at last
      cases last
      exact Or.inl rfl

end Lexeme

namespace LogicalLine

/-- The last row of tokens that is not empty ends with a connective. -/
def EndsOpen (text : String) : Prop :=
  ∃ j t, HangsOver (Text.lines text.toList) j (Text.lines text.toList).length t

/-- Scanning fails because the script ends on a connective. -/
def Dangles (text : String) : Prop :=
  ∃ line k, scan text = .error ⟨line, .commandAfter k, .endOfScript⟩

theorem ofLine_eq_nil {line : Int} {source : List Char} : Token.ofLine line source = .ok [] ↔ allBlank source = true := by
  rw [token_ofLine_eq_ok]
  constructor
  · rintro ⟨lexemes, read, same⟩
    obtain rfl : lexemes = [] := List.map_eq_nil_iff.mp same.symm
    have plain : ¬Lexeme.Marked source := by
      intro marked
      obtain ⟨text, comment⟩ := Lexeme.ofLine_marked marked
      cases comment.symm.trans read
    have nothing : Lexeme.Pending.gap.Fits [] := nofun
    obtain ⟨segments, follow, reads⟩ := Lexeme.follow_split Even.zero nothing ((Lexeme.ofLine_eq_ok plain).mp read)
    cases reads
    exact follow.blank_of_nil rfl
  · exact fun blank => ⟨[], Lexeme.ofLine_of_blank blank, rfl⟩

theorem endsOn_of_hangsOn {line : Int} {source : List Char} {row : List Token} {t : Token}
    (read : Token.ofLine line source = .ok row) (hangs : HangsOn row t) : ∃ k, Lexeme.EndsOn source k := by
  obtain ⟨lexemes, split, rfl⟩ := token_ofLine_eq_ok.mp read
  obtain ⟨last, connective⟩ := hangs
  rw [List.getLast?_map] at last
  obtain ⟨l, final, rfl⟩ := Option.map_eq_some_iff.mp last
  cases l with
  | keyword k => exact ⟨k, connective, lexemes, split, final⟩
  | _ => cases connective

theorem hangsOn_of_endsOn {source : List Char} {k : Keyword} (ends : Lexeme.EndsOn source k) (line : Int) :
    ∃ row t, Token.ofLine line source = .ok row ∧ HangsOn row t := by
  obtain ⟨connective, lexemes, split, last⟩ := ends
  refine ⟨_, ⟨.keyword k, line⟩, token_ofLine_eq_ok.mpr ⟨lexemes, split, rfl⟩, ?_, connective⟩
  rw [List.getLast?_map, last]
  rfl

theorem rowAt_blank {sources : List (List Char)} {i : Nat} :
    rowAt sources i = some (.ok []) ↔ ∃ source, sources[i]? = some source ∧ allBlank source = true := by
  rw [rowAt, Option.map_eq_some_iff]
  simp only [ofLine_eq_nil]

/-- What a script ends on is the last token of its last line that is not blank. -/
theorem endsOpen_iff {text : String} :
    EndsOpen text ↔ ∃ line, LastFilled text.toList line ∧ Lexeme.Connects (trimEnd line) := by
  constructor
  · rintro ⟨j, t, before, ⟨row, read, hangs⟩, blank⟩
    obtain ⟨line, here, read⟩ := Option.map_eq_some_iff.mp read
    obtain ⟨within, same⟩ := List.getElem?_eq_some_iff.mp here
    have last : LastFilled text.toList line := by
      refine ⟨(lines text.toList).take j, (lines text.toList).drop (j + 1), ?_, ?_, fun l listed => ?_⟩
      · rw [← same, List.getElem_cons_drop, List.take_append_drop]
      · by_contra empty
        rw [ofLine_eq_nil.mpr ((Bool.not_eq_false _).mp empty)] at read
        cases read
        exact ne_nil_of_hangs ⟨t, hangs⟩ rfl
      · obtain ⟨i, there⟩ := List.mem_iff_getElem?.mp listed
        rw [List.getElem?_drop] at there
        have inside := (List.getElem?_eq_some_iff.mp there).1
        obtain ⟨source, there', gap⟩ := rowAt_blank.mp (blank (j + 1 + i) (by omega) inside)
        cases there.symm.trans there'
        exact gap
    obtain ⟨k, ends⟩ := endsOn_of_hangsOn read hangs
    exact ⟨line, last, Lexeme.connects_of_endsOn last.oneLine ends⟩
  · rintro ⟨line, ⟨before, after, split, filled, blank⟩, connects⟩
    obtain ⟨k, ends⟩ := Lexeme.endsOn_of_connects connects
    obtain ⟨row, t, read, hangs⟩ := hangsOn_of_endsOn ends ((before.length : Int) + 1)
    refine ⟨before.length, t, by simp [split], ⟨row, ?_, hangs⟩, fun i behind inside => ?_⟩
    · rw [rowAt, split, List.getElem?_append_right (Nat.le_refl _), Nat.sub_self]
      exact congrArg some read
    · obtain ⟨distance, rfl⟩ := Nat.exists_eq_add_of_lt behind
      have there : (lines text.toList)[before.length + distance + 1]? = after[distance]? := by
        rw [split, List.getElem?_append_right (by omega)]
        have here : before.length + distance + 1 - before.length = distance + 1 := by omega
        rw [here, List.getElem?_cons_succ]
      have short : distance < after.length := by
        rw [split, List.length_append, List.length_cons] at inside
        omega
      refine rowAt_blank.mpr ⟨after[distance], ?_, blank _ (List.getElem_mem short)⟩
      rw [there, List.getElem?_eq_getElem short]

/-- Scanning tells that the script ends on a connective if it does, and nothing before is wrong. -/
theorem dangles_iff {text : String} : Dangles text ↔ ∃ j t,
    HangsOver (lines text.toList) j (lines text.toList).length t ∧ ∀ i < j, ∀ e, ¬Flaw (lines text.toList) i e := by
  have settles : Settles (lines text.toList) (scan text) := settles_ofLines (reached_zero _) (Nat.zero_le _) rfl
  constructor
  · rintro ⟨line, k, stopped⟩
    rw [stopped] at settles
    obtain ⟨i, flaw, first⟩ := settles
    generalize found : (⟨line, .commandAfter k, .endOfScript⟩ : SyntaxError) = e at flaw
    cases flaw with
    | unclosed read =>
      obtain ⟨source, -, refused⟩ := Option.map_eq_some_iff.mp read
      obtain ⟨unclosed, -, same⟩ := Token.ofLine_eq_error.mp refused
      rw [same] at found
      cases found
    | comment read isComment hangs => cases found
    | ended hangs => exact ⟨i, _, hangs, first⟩
  · rintro ⟨j, t, hangs, sound⟩
    cases stopped : scan text with
    | ok _ =>
      rw [stopped] at settles
      exact absurd (.ended hangs) (settles j _)
    | error e =>
      rw [stopped] at settles
      obtain ⟨i, flaw, first⟩ := settles
      -- No line before has a flaw, and this one has.
      obtain rfl : i = j := by
        rcases Nat.lt_trichotomy i j with earlier | same | later
        · exact absurd flaw (sound i earlier e)
        · exact same
        · exact absurd (.ended hangs) (first j later _)
      obtain ⟨row, here, open_⟩ := hangs.row
      cases flaw with
      | unclosed read => cases here.symm.trans read
      | @comment u v rest j read isComment hangs' =>
        cases here.symm.trans read
        obtain ⟨line, -, split⟩ := Option.map_eq_some_iff.mp read
        rcases silent_or_comment split with silent | ⟨w, lone, comment⟩
        · rw [silent u List.mem_cons_self] at isComment
          cases isComment
        · rw [lone] at open_
          exact absurd ⟨t, open_⟩ (not_hangs_of_comment comment)
      | ended hangs' => exact ⟨_, _, stopped⟩

end LogicalLine

namespace Sitting

open LogicalLine (EndsOpen Dangles HangsOver Flaw)

variable {σ η ν : Type} (host : Host σ η ν) (settings : Settings) (savePath : Path)

/-- Having heard the text, a sitting asks how it goes on. -/
def Asks (text : String) (s : Sitting σ η ν) : Prop :=
  ∃ t, consider host settings savePath text s = .ok (.continuation text) t

theorem commentsOf_ne_continuation (sts : List Statement) (text : String) : (commentsOf sts).2 ≠ .continuation text := by
  induction sts with
  | nil => exact Awaiting.noConfusion
  | cons s later ih =>
    rw [commentsOf]
    split
    · exact ih
    · exact Awaiting.noConfusion

theorem asks_iff (text : String) (s : Sitting σ η ν) : Asks host settings savePath text s ↔ isUnfinished text = true := by
  constructor
  · rintro ⟨t, asked⟩
    obtain ⟨-, same⟩ := adds_consider text s _ t asked
    by_contra finished
    rw [keptOf, if_neg finished] at same
    split at same
    · cases same
    · split at same
      · cases same
      · split at same
        · cases same
        · exact commentsOf_ne_continuation _ text same.symm
  · intro unfinished
    unfold Asks consider
    rw [if_pos unfinished]
    exact ⟨_, rfl⟩

variable {text : String}

theorem isUnfinished_suffix : isUnfinished text = true ↔
    ∃ k : Keyword, k.isConnective = true ∧ ' ' :: k.text.toList <:+ trimEnd text.toList := by
  unfold isUnfinished
  simp only [Bool.or_eq_true, List.isPrefixOf_iff_prefix, List.reverse_prefix]
  constructor
  · rintro (and | thereupon)
    · exact ⟨.and, rfl, and⟩
    · exact ⟨.thereupon, rfl, thereupon⟩
  · rintro ⟨k, connective, ends⟩
    cases k with
    | and => exact Or.inl ends
    | thereupon => exact Or.inr ends
    | _ => cases connective

/-- Only the last line that is not blank decides whether a text is unfinished. -/
theorem isUnfinished_iff : isUnfinished text = true ↔ ∃ line, LastFilled text.toList line ∧ Lexeme.Spaced line := by
  rw [isUnfinished_suffix]
  constructor
  · rintro ⟨k, connective, ends⟩
    have filled : allBlank text.toList = false := by
      by_contra blank
      have none : trimEnd text.toList = [] := List.rdropWhile_eq_nil_iff.mpr
        (List.all_eq_true.mp ((Bool.not_eq_false _).mp blank))
      rw [none, List.suffix_nil] at ends
      cases ends
    obtain ⟨line, last⟩ := exists_lastFilled filled
    obtain ⟨front, same, broken⟩ := trimEnd_of_lastFilled last
    rw [same] at ends
    refine ⟨line, last, ?_⟩
    rcases List.suffix_or_suffix_of_suffix ends (List.suffix_append front _) with ⟨before, whole⟩ | ⟨x, whole⟩
    · exact ⟨before, k, whole.symm, connective⟩
    · -- Else the boundary before the line would stand in the connective or be the space.
      rcases List.eq_nil_or_concat x with rfl | ⟨x, c, rfl⟩
      · exact ⟨[], k, whole, connective⟩
      · rw [List.concat_eq_append] at whole
        obtain ⟨y, split⟩ := ends
        rw [← whole, ← List.append_assoc, List.append_cancel_right_eq, ← List.append_assoc] at split
        have breaks := broken c (by rw [← split, List.getLast?_concat]; rfl)
        have listed : c ∈ ' ' :: k.text.toList := by
          rw [← whole]
          simp
        rcases List.mem_cons.mp listed with rfl | inside
        · cases breaks
        · have blank := isBlank_of_isLineBreak breaks
          rw [((Lexeme.solid_keyword k).chars c inside).1] at blank
          cases blank
  · rintro ⟨line, last, before, k, ends, connective⟩
    obtain ⟨front, same, -⟩ := trimEnd_of_lastFilled last
    refine ⟨k, connective, front ++ before, ?_⟩
    rw [same, ends, List.append_assoc]

/-- A sitting asks for another line if the last line that is not blank ends with a space and a connective, and scanning
fails at the end of the script if that line's last token is a connective and nothing is wrong before. A line for which
the sitting asks without need is a comment, or a quote is open in it; a line for which it fails to ask has something
other than a space before the connective. -/
theorem asks_and_dangles (s : Sitting σ η ν) (text : String) :
    (Asks host settings savePath text s ↔ ∃ line, LastFilled text.toList line ∧ Lexeme.Spaced line) ∧
    (EndsOpen text ↔ ∃ line, LastFilled text.toList line ∧ Lexeme.Connects (trimEnd line)) ∧
    (Dangles text ↔ ∃ j t, HangsOver (lines text.toList) j (lines text.toList).length t ∧
      ∀ i < j, ∀ e, ¬Flaw (lines text.toList) i e) ∧
    (Asks host settings savePath text s ∧ ¬EndsOpen text ↔ ∃ line, LastFilled text.toList line ∧ Lexeme.Spaced line ∧
      (Lexeme.Marked line ∨ ¬Even (line.count '"'))) ∧
    (EndsOpen text ∧ ¬Asks host settings savePath text s ↔ ∃ line, LastFilled text.toList line ∧
      Lexeme.Connects (trimEnd line) ∧ ¬Lexeme.Spaced line) := by
  have asked : Asks host settings savePath text s ↔ ∃ line, LastFilled text.toList line ∧ Lexeme.Spaced line :=
    (asks_iff host settings savePath text s).trans isUnfinished_iff
  have opened : EndsOpen text ↔ ∃ line, LastFilled text.toList line ∧ Lexeme.Connects (trimEnd line) :=
    LogicalLine.endsOpen_iff
  refine ⟨asked, opened, LogicalLine.dangles_iff, ?_, ?_⟩
  · rw [asked, opened]
    constructor
    · rintro ⟨⟨line, last, spaced⟩, closed⟩
      refine ⟨line, last, spaced, ?_⟩
      rw [← not_not (a := Lexeme.Marked line), ← not_and_or, ← Lexeme.connects_iff_of_spaced last.oneLine spaced]
      exact fun connects => closed ⟨line, last, connects⟩
    · rintro ⟨line, last, spaced, unlike⟩
      refine ⟨⟨line, last, spaced⟩, ?_⟩
      rintro ⟨line', last', connects⟩
      obtain ⟨plain, even⟩ := (Lexeme.connects_iff_of_spaced last.oneLine spaced).mp (last'.unique last ▸ connects)
      exact unlike.elim plain fun odd => odd even
  · rw [asked, opened]
    constructor
    · rintro ⟨⟨line, last, connects⟩, silent⟩
      exact ⟨line, last, connects, fun spaced => silent ⟨line, last, spaced⟩⟩
    · rintro ⟨line, last, connects, tight⟩
      refine ⟨⟨line, last, connects⟩, ?_⟩
      rintro ⟨line', last', spaced⟩
      exact tight (last'.unique last ▸ spaced)

/-- A tab before the connective keeps the sitting from asking; a comment that ends with a connective makes it ask. -/
theorem not_always_asked :
    let s : Sitting Unit Unit Unit := { world := { disk := {} }, run := { session := { page := () } } }
    (Dangles "refresh\tand" ∧ ¬Asks deafHost {} (Path.ofString "s.txt") "refresh\tand" s) ∧
      Asks deafHost {} (Path.ofString "s.txt") "# you and" s ∧ ¬Dangles "# you and" := by
  refine ⟨⟨⟨1, "and", by decide +kernel⟩, ?_⟩, ?_, ?_⟩
  · rw [asks_iff]
    decide +kernel
  · rw [asks_iff]
    decide +kernel
  · rintro ⟨line, k, stopped⟩
    have read : LogicalLine.scan "# you and" = .ok [⟨⟨.comment "# you and", 1⟩, []⟩] := by decide +kernel
    cases read.symm.trans stopped

end Sitting
end Walkthrough
