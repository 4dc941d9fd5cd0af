import Walkthrough.Proofs.Script.Segments

/-!
How physical lines are joined. The rows of tokens that are not blank fall into groups, one for each logical line: all
rows of a group but the last hang, that is, end with a connective. What cannot be joined so has a flaw, and the first
of them is reported (`lines_group_rows`).
-/
namespace Walkthrough.LogicalLine

open Grammar

/-! ### Groups of rows -/

/-- The tokens of the physical lines, which are numbered from `first` on. -/
def RowsOf (first : Nat) (sources : List (List Char)) (rows : List (List Token)) : Prop :=
  List.Forall₂ (fun numbered row => Token.ofLine numbered.2 numbered.1 = .ok row) (sources.zipIdx first) rows

/-- The row ends with this connective. -/
def HangsOn (row : List Token) (t : Token) : Prop := row.getLast? = some t ∧ t.isConnective = true

def Hangs (row : List Token) : Prop := ∃ t, HangsOn row t

/-- The rows of one logical line. -/
structure Group (rows : List (List Token)) : Prop where
  filled : [] ∉ rows
  joined : ∃ before last, rows = before ++ [last] ∧ (∀ row ∈ before, Hangs row) ∧ ¬ Hangs last
  alone : ∀ row ∈ rows, ∀ t ∈ row, t.isComment = true → rows = [[t]]

theorem hangsOn_extend (begun : Option Begun) {first t : Token} {rest : List Token} :
    HangsOn (first :: rest) t ↔
      (extend begun first rest).isOpen = true ∧ t = (extend begun first rest).last := by
  unfold HangsOn Begun.isOpen
  rw [getLast?_extend begun, Option.some.injEq]
  constructor
  · rintro ⟨rfl, connective⟩
    exact ⟨connective, rfl⟩
  · rintro ⟨connective, rfl⟩
    exact ⟨rfl, connective⟩

theorem hangs_extend (begun : Option Begun) {first : Token} {rest : List Token} :
    Hangs (first :: rest) ↔ (extend begun first rest).isOpen = true := by
  unfold Hangs
  simp [hangsOn_extend begun]

theorem ne_nil_of_hangs {row : List Token} (hangs : Hangs row) : row ≠ [] := by
  rintro rfl
  obtain ⟨t, last, -⟩ := hangs
  cases last

/-- The rows that a line begun before goes on from. -/
structure Joins (begun : Option Begun) (before : List (List Token)) : Prop where
  tokens : (begun.elim [] fun b => b.line.tokens) = before.flatten
  unbegun : begun = none → before = []
  hang : ∀ row ∈ before, Hangs row
  silent : ∀ row ∈ before, ∀ t ∈ row, t.isComment = false

theorem joins_none : Joins none [] where
  tokens := rfl
  unbegun _ := rfl
  hang := List.forall_mem_nil _
  silent := List.forall_mem_nil _

/-- A row has no comment, or is a comment alone. -/
theorem silent_or_comment {line : Int} {source : List Char} {row : List Token}
    (read : Token.ofLine line source = .ok row) :
    (∀ t ∈ row, t.isComment = false) ∨ ∃ t, row = [t] ∧ t.isComment = true := by
  rcases tokens_ofLine read with plain | ⟨text, rfl⟩
  · left
    intro t listed
    have other := (plain t listed).2
    unfold Token.isComment
    split
    · next text same => exact absurd same (other text)
    · rfl
  · exact Or.inr ⟨_, rfl, rfl⟩

theorem not_hangs_of_comment {t : Token} (comment : t.isComment = true) : ¬ Hangs [t] := by
  rintro ⟨u, last, connective⟩
  cases last
  unfold Token.isComment at comment
  unfold Token.isConnective at connective
  split at comment <;> simp_all

theorem joins_extend {begun : Option Begun} {before : List (List Token)} {line : Int} {source : List Char}
    {first : Token} {rest : List Token} (joins : Joins begun before)
    (read : Token.ofLine line source = .ok (first :: rest)) (isOpen : (extend begun first rest).isOpen = true) :
    Joins (some (extend begun first rest)) (before ++ [first :: rest]) where
  tokens := by
    rw [Option.elim_some, tokens_extend, joins.tokens]
    simp
  unbegun none := by cases none
  hang := List.forall_mem_append.mpr ⟨joins.hang, List.forall_mem_singleton.mpr ((hangs_extend begun).mpr isOpen)⟩
  silent := by
    refine List.forall_mem_append.mpr ⟨joins.silent, List.forall_mem_singleton.mpr ?_⟩
    rcases silent_or_comment read with silent | ⟨t, lone, comment⟩
    · exact silent
    · rw [← hangs_extend, lone] at isOpen
      exact absurd isOpen (not_hangs_of_comment comment)

theorem group_extend {begun : Option Begun} {before : List (List Token)} {line : Int} {source : List Char}
    {first : Token} {rest : List Token} (joins : Joins begun before)
    (read : Token.ofLine line source = .ok (first :: rest)) (fits : first.isComment = true → begun = none)
    (closed : (extend begun first rest).isOpen = false) :
    (extend begun first rest).line.tokens = (before ++ [first :: rest]).flatten ∧ Group (before ++ [first :: rest]) := by
  refine ⟨?_, ?_, ?_, ?_⟩
  · rw [tokens_extend, joins.tokens]
    simp
  · intro empty
    rcases List.mem_append.mp empty with old | new
    · exact ne_nil_of_hangs (joins.hang _ old) rfl
    · cases List.mem_singleton.mp new
  · refine ⟨before, _, rfl, joins.hang, ?_⟩
    rw [hangs_extend begun, closed]
    exact Bool.false_ne_true
  · intro row listed t inside comment
    rcases List.mem_append.mp listed with old | new
    · rw [joins.silent row old t inside] at comment
      cases comment
    · obtain rfl := List.mem_singleton.mp new
      rcases silent_or_comment read with silent | ⟨u, lone, -⟩
      · rw [silent t inside] at comment
        cases comment
      · -- A comment that was joined with something would have been refused.
        obtain ⟨rfl, rfl⟩ := List.cons.inj lone
        obtain rfl := List.mem_singleton.mp inside
        rw [joins.unbegun (fits comment), List.nil_append]

theorem groups_ofLines {begun : Option Begun} {before : List (List Token)} {first : Nat}
    {sources : List (List Char)} {lines : List LogicalLine} (joins : Joins begun before)
    (read : ofLines begun first sources = .ok lines) :
    ∃ rows groups, RowsOf first sources rows ∧
      List.Forall₂ (fun l group => l.tokens = group.flatten ∧ Group group) lines groups ∧
      groups.flatten = before ++ rows.filter fun row => !row.isEmpty := by
  induction sources generalizing begun before first lines with
  | nil =>
    cases begun with
    | none =>
      cases read
      exact ⟨[], [], .nil, .nil, by simp [joins.unbegun rfl]⟩
    | some b => cases read
  | cons source later ih =>
    have number : ((first + 1 : Nat) : Int) = (first : Int) + 1 := Int.natCast_succ first
    rcases ofLines_cons read with ⟨blank, goesOn⟩ | ⟨t, rest, split, fits, goesOn⟩
    · rw [← number] at goesOn
      obtain ⟨rows, groups, rowsOf, grouped, together⟩ := ih joins goesOn
      exact ⟨[] :: rows, groups, .cons blank rowsOf, grouped, by simpa using together⟩
    · rcases goesOn with ⟨isOpen, goesOn⟩ | ⟨closed, others, goesOn, rfl⟩
      · rw [← number] at goesOn
        obtain ⟨rows, groups, rowsOf, grouped, together⟩ := ih (joins_extend joins split isOpen) goesOn
        exact ⟨(t :: rest) :: rows, groups, .cons split rowsOf, grouped, by simpa using together⟩
      · rw [← number] at goesOn
        obtain ⟨rows, groups, rowsOf, grouped, together⟩ := ih joins_none goesOn
        have here := group_extend joins split fits closed
        refine ⟨(t :: rest) :: rows, _ :: groups, .cons split rowsOf, .cons here grouped, ?_⟩
        simp [together]

/-! ### Flaws of physical lines -/

/-- What the physical line is split into, the lines being counted from zero and numbered from one on. -/
def rowAt (sources : List (List Char)) (i : Nat) : Option (Except SyntaxError (List Token)) :=
  sources[i]?.map (Token.ofLine ((i : Int) + 1))

/-- Line `j` ends with the connective, and between it and line `i` all lines are blank. -/
structure HangsOver (sources : List (List Char)) (j i : Nat) (t : Token) : Prop where
  before : j < i
  row : ∃ row, rowAt sources j = some (.ok row) ∧ HangsOn row t
  blank : ∀ k, j < k → k < i → rowAt sources k = some (.ok [])

/-- What can be wrong with a physical line, and how it is reported. -/
inductive Flaw (sources : List (List Char)) (i : Nat) : SyntaxError → Prop where
  | unclosed {e : SyntaxError} (read : rowAt sources i = some (.error e)) : Flaw sources i e
  | comment {t u : Token} {rest : List Token} {j : Nat} (read : rowAt sources i = some (.ok (t :: rest)))
      (isComment : t.isComment = true) (hangs : HangsOver sources j i u) :
    Flaw sources i ⟨i + 1, .commandAfterConnective, .text t.text⟩
  | ended {t : Token} (hangs : HangsOver sources i sources.length t) :
    Flaw sources i ⟨i + 1, .commandAfter t.text, .endOfScript⟩

theorem line_of_ofLine {line : Int} {source : List Char} {row : List Token}
    (read : Token.ofLine line source = .ok row) : ∀ t ∈ row, t.line = line := by
  obtain ⟨spelling, -, rfl⟩ := token_ofLine_eq_ok.mp read
  intro t listed
  obtain ⟨l, -, rfl⟩ := List.mem_map.mp listed
  rfl

theorem line_of_rowAt {sources : List (List Char)} {i : Nat} {row : List Token}
    (read : rowAt sources i = some (.ok row)) : ∀ t ∈ row, t.line = i + 1 := by
  obtain ⟨source, -, split⟩ := Option.map_eq_some_iff.mp read
  exact line_of_ofLine split

theorem Flaw.line_eq {sources : List (List Char)} {i : Nat} {e : SyntaxError} (flaw : Flaw sources i e) :
    e.line = i + 1 := by
  cases flaw with
  | unclosed read =>
    obtain ⟨source, -, stopped⟩ := Option.map_eq_some_iff.mp read
    obtain ⟨unclosed, -, rfl⟩ := Token.ofLine_eq_error.mp stopped
    rfl
  | comment read isComment hangs => rfl
  | ended hangs => rfl

variable {sources : List (List Char)} {i j k : Nat} {t u : Token}

/-- What hangs over a line hangs over the next one if that line is blank, or else it is the line itself. -/
theorem hangsOver_succ :
    HangsOver sources j (i + 1) t ↔
      (HangsOver sources j i t ∧ rowAt sources i = some (.ok [])) ∨
        (j = i ∧ ∃ row, rowAt sources i = some (.ok row) ∧ HangsOn row t) := by
  constructor
  · intro hangs
    rcases Nat.lt_succ_iff_lt_or_eq.mp hangs.before with earlier | rfl
    · left
      refine ⟨⟨earlier, hangs.row, fun k after before => ?_⟩, hangs.blank i earlier (Nat.lt_succ_self i)⟩
      exact hangs.blank k after (Nat.lt_succ_of_lt before)
    · exact Or.inr ⟨rfl, hangs.row⟩
  · rintro (⟨hangs, blank⟩ | ⟨rfl, row⟩)
    · refine ⟨Nat.lt_succ_of_lt hangs.before, hangs.row, fun k after before => ?_⟩
      rcases Nat.lt_succ_iff_lt_or_eq.mp before with earlier | rfl
      · exact hangs.blank k after earlier
      · exact blank
    · exact ⟨Nat.lt_succ_self j, row, fun k after before => absurd after (by omega)⟩

/-- Scanning has come to line `i` with nothing wrong before it, unless the script ends there. -/
structure Reached (sources : List (List Char)) (i : Nat) (begun : Option Begun) : Prop where
  hangs : ∀ j t, HangsOver sources j i t → ∃ b, begun = some b ∧ b.last = t
  begun : ∀ b ∈ begun, ∃ j, HangsOver sources j i b.last
  sound : ∀ j < i, ∀ e, Flaw sources j e → ∃ t, HangsOver sources j sources.length t

theorem reached_zero (sources : List (List Char)) : Reached sources 0 none where
  hangs j t hangs := absurd hangs.before (Nat.not_lt_zero j)
  begun b same := by cases same
  sound j before := absurd before (Nat.not_lt_zero j)

/-- Line `i` has no flaw but perhaps that the script ends on it. -/
theorem Reached.sound_succ {begun : Option Begun} {row : List Token} (reached : Reached sources i begun)
    (read : rowAt sources i = some (.ok row)) (fits : ∀ t ∈ row.head?, t.isComment = true → begun = none) :
    ∀ j < i + 1, ∀ e, Flaw sources j e → ∃ t, HangsOver sources j sources.length t := by
  intro j before e flaw
  rcases Nat.lt_succ_iff_lt_or_eq.mp before with earlier | rfl
  · exact reached.sound j earlier e flaw
  · cases flaw with
    | unclosed stopped =>
      rw [read] at stopped
      cases stopped
    | comment read' isComment hangs =>
      obtain rfl := Except.ok.inj (Option.some.inj (read.symm.trans read'))
      obtain ⟨b, begun, -⟩ := reached.hangs _ _ hangs
      rw [fits _ rfl isComment] at begun
      cases begun
    | ended hangs => exact ⟨_, hangs⟩

theorem Reached.blank {begun : Option Begun} (reached : Reached sources i begun)
    (read : rowAt sources i = some (.ok [])) : Reached sources (i + 1) begun where
  hangs j t hangs := by
    rcases hangsOver_succ.mp hangs with ⟨hangs, -⟩ | ⟨rfl, row, read', last, -⟩
    · exact reached.hangs j t hangs
    · obtain rfl := Except.ok.inj (Option.some.inj (read.symm.trans read'))
      cases last
  begun b same := by
    obtain ⟨j, hangs⟩ := reached.begun b same
    exact ⟨j, hangsOver_succ.mpr (Or.inl ⟨hangs, read⟩)⟩
  sound := reached.sound_succ read fun t none => by cases none

theorem Reached.extend {begun : Option Begun} {rest : List Token} (reached : Reached sources i begun)
    (read : rowAt sources i = some (.ok (t :: rest))) (fits : t.isComment = true → begun = none) :
    Reached sources (i + 1)
      (if (extend begun t rest).isOpen = true then some (LogicalLine.extend begun t rest) else none) where
  hangs j u hangs := by
    rcases hangsOver_succ.mp hangs with ⟨-, blank⟩ | ⟨rfl, row, read', hangs⟩
    · rw [read] at blank
      cases blank
    · obtain rfl := Except.ok.inj (Option.some.inj (read.symm.trans read'))
      obtain ⟨isOpen, rfl⟩ := (hangsOn_extend begun).mp hangs
      exact ⟨_, if_pos isOpen, rfl⟩
  begun b same := by
    split at same
    · next isOpen =>
      obtain rfl := Option.some.inj same
      exact ⟨i, hangsOver_succ.mpr (Or.inr ⟨rfl, _, read, (hangsOn_extend begun).mpr ⟨isOpen, rfl⟩⟩)⟩
    · cases same
  sound := reached.sound_succ read fun u first => Option.some.inj first ▸ fits

theorem Flaw.lt {e : SyntaxError} (flaw : Flaw sources i e) : i < sources.length := by
  have within {row : Except SyntaxError (List Token)} (read : rowAt sources i = some row) : i < sources.length := by
    obtain ⟨source, here, -⟩ := Option.map_eq_some_iff.mp read
    exact (List.getElem?_eq_some_iff.mp here).1
  cases flaw with
  | unclosed read => exact within read
  | comment read isComment hangs => exact within read
  | ended hangs => exact hangs.before

/-- The flaw of a line, and none of a line before it. -/
def FirstFlaw (sources : List (List Char)) (e : SyntaxError) : Prop :=
  ∃ i, Flaw sources i e ∧ ∀ j < i, ∀ e', ¬ Flaw sources j e'

/-- A line that is not blank keeps those before it from ending the script. -/
theorem Reached.first {begun : Option Begun} {row : Except SyntaxError (List Token)} {e : SyntaxError}
    (reached : Reached sources i begun) (flaw : Flaw sources i e) (read : rowAt sources i = some row)
    (filled : row ≠ .ok []) : FirstFlaw sources e := by
  refine ⟨i, flaw, fun j before e' flaw' => ?_⟩
  obtain ⟨t, hangs⟩ := reached.sound j before e' flaw'
  exact filled (Option.some.inj (read.symm.trans (hangs.blank i before flaw.lt)))

/-- There are lines if no physical line has a flaw, and else the first flaw is told. -/
def Settles (sources : List (List Char)) : Except SyntaxError (List LogicalLine) → Prop
  | .ok _ => ∀ i e, ¬ Flaw sources i e
  | .error e => FirstFlaw sources e

theorem Reached.ended {begun : Option Begun} (reached : Reached sources sources.length begun) (line : Int) :
    Settles sources (ofLines begun line []) := by
  cases begun with
  | none =>
    intro j e flaw
    obtain ⟨t, hangs⟩ := reached.sound j flaw.lt e flaw
    obtain ⟨b, none, -⟩ := reached.hangs j t hangs
    cases none
  | some b =>
    obtain ⟨j, hangs⟩ := reached.begun b rfl
    obtain ⟨row, read, last, connective⟩ := hangs.row
    have flaw : Flaw sources j ⟨b.last.line, .commandAfter b.last.text, .endOfScript⟩ := by
      rw [line_of_rowAt read _ (List.mem_of_getLast? last)]
      exact .ended hangs
    refine ⟨j, flaw, fun k before e' flaw' => ?_⟩
    obtain ⟨u, hangs'⟩ := reached.sound k (Nat.lt_trans before hangs.before) e' flaw'
    rw [hangs'.blank j before hangs.before] at read
    cases Except.ok.inj (Option.some.inj read)
    cases last

theorem settles_ofLines {begun : Option Begun} {later : List (List Char)} (reached : Reached sources i begun)
    (within : i ≤ sources.length) (rest : sources.drop i = later) :
    Settles sources (ofLines begun (i + 1) later) := by
  induction later generalizing i begun with
  | nil =>
    obtain rfl := Nat.le_antisymm within (List.drop_eq_nil_iff.mp rest)
    exact reached.ended _
  | cons source later ih =>
    have here : sources[i]? = some source := by
      rw [← Nat.add_zero i, ← List.getElem?_drop, rest]
      rfl
    have below : i + 1 ≤ sources.length := (List.getElem?_eq_some_iff.mp here).1
    have behind : sources.drop (i + 1) = later := by
      rw [← List.drop_drop, rest]
      rfl
    have number : ((i + 1 : Nat) : Int) = (i : Int) + 1 := Int.natCast_succ i
    have row : rowAt sources i = some (Token.ofLine ((i : Int) + 1) source) := by rw [rowAt, here, Option.map_some]
    unfold ofLines
    cases split : Token.ofLine ((i : Int) + 1) source with
    | error e =>
      rw [split] at row
      exact reached.first (.unclosed row) row (by simp)
    | ok tokens =>
      rw [split] at row
      cases tokens with
      | nil =>
        have goesOn := ih (reached.blank row) below behind
        rw [number] at goesOn
        exact goesOn
      | cons t rest =>
        simp only [bind, Except.bind]
        split
        · next refused =>
          obtain ⟨some, comment⟩ := Bool.and_eq_true_iff.mp refused
          obtain ⟨b, rfl⟩ := Option.isSome_iff_exists.mp some
          obtain ⟨j, hangs⟩ := reached.begun b rfl
          exact reached.first (.comment row comment hangs) row (by simp)
        · next fits =>
          have fits : t.isComment = true → begun = none := by
            intro comment
            simpa [comment] using fits
          have goesOn := ih (reached.extend row fits) below behind
          rw [number] at goesOn
          split
          · next isOpen =>
            rw [if_pos isOpen] at goesOn
            exact goesOn
          · next closed =>
            rw [if_neg closed] at goesOn
            cases others : ofLines none ((i : Int) + 1 + 1) later with
            | error e =>
              rw [others] at goesOn
              exact goesOn
            | ok lines =>
              rw [others] at goesOn
              exact goesOn

theorem flatten_filled (rows : List (List Token)) : (rows.filter fun row => !row.isEmpty).flatten = rows.flatten := by
  induction rows with
  | nil => rfl
  | cons row later ih => cases row <;> simp [ih]

theorem flatMap_tokens {lines : List LogicalLine} {groups : List (List (List Token))}
    (grouped : List.Forall₂ (fun l group => l.tokens = group.flatten ∧ Group group) lines groups) :
    lines.flatMap tokens = groups.flatten.flatten := by
  induction grouped with
  | nil => rfl
  | cons here later ih => simp [here.1, ih]

theorem comment_alone {lines : List LogicalLine} {groups : List (List (List Token))}
    (grouped : List.Forall₂ (fun l group => l.tokens = group.flatten ∧ Group group) lines groups) :
    ∀ l ∈ lines, ∀ t ∈ l.tokens, t.isComment = true → l.tokens = [t] := by
  induction grouped with
  | nil => exact List.forall_mem_nil _
  | @cons l group lines groups here later ih =>
    refine List.forall_mem_cons.mpr ⟨fun t listed comment => ?_, ih⟩
    rw [here.1] at listed ⊢
    obtain ⟨row, among, inside⟩ := List.mem_flatten.mp listed
    rw [here.2.alone row among t inside comment]
    rfl

/-- The rows of tokens of the physical lines, without the blank ones, fall into groups whose rows are joined to the
logical lines: every row of a group but the last ends with a connective, and the last does not. No token is lost,
moved or doubled, and a comment is a logical line of its own. Scanning fails if and only if some physical line has a
flaw, and then it tells the flaw of the first line that has one, with the number of that line. -/
theorem lines_group_rows (source : String) :
    (∀ lines, scan source = .ok lines → ∃ rows groups, RowsOf 1 (Text.lines source.toList) rows ∧
      lines.flatMap tokens = rows.flatten ∧ groups.flatten = (rows.filter fun row => !row.isEmpty) ∧
      List.Forall₂ (fun l group => l.tokens = group.flatten ∧ Group group) lines groups ∧
      ∀ l ∈ lines, ∀ t ∈ l.tokens, t.isComment = true → l.tokens = [t]) ∧
    ((∃ e, scan source = .error e) ↔ ∃ i e, Flaw (Text.lines source.toList) i e) ∧
    ∀ e, scan source = .error e → ∃ i, Flaw (Text.lines source.toList) i e ∧ e.line = i + 1 ∧
      ∀ j < i, ∀ e', ¬ Flaw (Text.lines source.toList) j e' := by
  have settles : Settles (Text.lines source.toList) (scan source) :=
    settles_ofLines (reached_zero _) (Nat.zero_le _) rfl
  refine ⟨fun lines scanned => ?_, ⟨?_, ?_⟩, fun e stopped => ?_⟩
  · have read : ofLines none (1 : Nat) (Text.lines source.toList) = .ok lines := scanned
    obtain ⟨rows, groups, rowsOf, grouped, together⟩ := groups_ofLines joins_none read
    rw [List.nil_append] at together
    refine ⟨rows, groups, rowsOf, ?_, together, grouped, comment_alone grouped⟩
    rw [flatMap_tokens grouped, together, flatten_filled]
  · rintro ⟨e, stopped⟩
    rw [stopped] at settles
    obtain ⟨i, flaw, -⟩ := settles
    exact ⟨i, e, flaw⟩
  · rintro ⟨i, e, flaw⟩
    cases scanned : scan source with
    | error e' => exact ⟨e', rfl⟩
    | ok lines =>
      rw [scanned] at settles
      exact absurd flaw (settles i e)
  · rw [stopped] at settles
    obtain ⟨i, flaw, first⟩ := settles
    exact ⟨i, flaw, flaw.line_eq, first⟩

end Walkthrough.LogicalLine
