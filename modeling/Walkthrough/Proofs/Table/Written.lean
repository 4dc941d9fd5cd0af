import Walkthrough.Proofs.Table.Cells

/-!
Tables that are written and read again. A row is written with all its cells in quotation marks, and between rows there
may be blank ones. Such a text has the rows that were written (`rows_of_writes`), whatever commas, quotation marks
and line ends the cells hold, so a table that was written is loaded with all its cells (`load_of_written`).
-/
namespace Walkthrough

open Text

namespace Csv

def doubled (cell : List Char) : List Char := cell.flatMap fun c => if c = '"' then ['"', '"'] else [c]

/-- A cell between quotation marks. -/
def quote (cell : List Char) : List Char := '"' :: doubled cell ++ ['"']

def line (fields : List (List Char)) : List Char := List.intercalate [','] fields

inductive LineEnd : List Char → Prop where
  | lineFeed : LineEnd ['\n']
  | both : LineEnd ['\r', '\n']

/-- How a cell can be written: in quotation marks, or, if it is blank and on one line, as it is. -/
inductive Field : List Char → List Char → Prop where
  | quoted {cell : List Char} (short : cell.length ≤ fieldLimit) : Field (quote cell) cell
  | bare {cell : List Char} (short : cell.length ≤ fieldLimit) (blank : allBlank cell = true)
      (one : ∀ c ∈ cell, isLineEnd c = false) : Field cell cell

/-- The text has the rows, each with all its cells in quotation marks, and any blank rows between them. -/
inductive Writes : List Row → List Char → Prop where
  | done : Writes [] []
  | row {cells : Row} {rows : List Row} {ending text : List Char} (ended : LineEnd ending)
      (later : Writes rows text) : Writes (cells :: rows) (line (cells.map quote) ++ ending ++ text)
  | blank {cells : Row} {fields : List (List Char)} {rows : List Row} {ending text : List Char}
      (blank : Datatable.isBlankRow cells = true) (written : List.Forall₂ Field fields cells)
      (ended : LineEnd ending) (later : Writes rows text) : Writes rows (line fields ++ ending ++ text)

theorem rowsAfter_cons {p p' : Partial} {position position' : Position} {c : Char} (rest : List Char)
    (inside : (isLineEnd c && position != .quoted) = false) (goes : step p c position = .ok (p', position')) :
    rowsAfter p position (c :: rest) = rowsAfter p' position' rest := by
  rw [rowsAfter.eq_def]
  simp only [inside, goes]
  rfl

theorem rowsAfter_lineEnd (p : Partial) {position : Position} (ends : position ≠ .quoted) {ending : List Char}
    (ended : LineEnd ending) (rest : List Char) :
    rowsAfter p position (ending ++ rest) = (rowsAfter {} .rowStart rest).map (endRow p position :: ·) := by
  cases ended with
  | lineFeed =>
    rw [List.singleton_append, rowsAfter.eq_def]
    simp only [isLineEnd, decide_true, Bool.true_or, Bool.true_and, bne_iff_ne.mpr ends, if_true]
    split
    · next feed => cases feed
    · next later other =>
      cases rowsAfter {} .rowStart later <;> rfl
  | both =>
    rw [List.cons_append, List.singleton_append, rowsAfter.eq_def]
    simp only [isLineEnd, decide_true, Bool.or_true, Bool.true_and, bne_iff_ne.mpr ends, if_true]
    cases rowsAfter {} .rowStart rest <;> rfl

/-- A partial row whose last field goes on with the text. -/
def Partial.grown (p : Partial) (s : List Char) : Partial :=
  { p with field := s.reverse ++ p.field, length := p.length + s.length }

theorem Partial.grown_append (p : Partial) (s t : List Char) : (p.grown s).grown t = p.grown (s ++ t) := by
  simp [grown, Nat.add_assoc]

theorem add_eq_ok {p : Partial} (short : p.length < fieldLimit) (c : Char) : p.add c = .ok (p.grown [c]) := by
  rw [Partial.add, if_neg (by omega)]
  rfl

theorem rowsAfter_doubled (p : Partial) {cell : List Char} (short : p.length + cell.length ≤ fieldLimit)
    (rest : List Char) : rowsAfter p .quoted (doubled cell ++ rest) = rowsAfter (p.grown cell) .quoted rest := by
  induction cell generalizing p with
  | nil => rfl
  | cons c later ih =>
    rw [List.length_cons] at short
    have added := add_eq_ok (p := p) (by omega) c
    have first : rowsAfter p .quoted (doubled (c :: later) ++ rest) =
        rowsAfter (p.grown [c]) .quoted (doubled later ++ rest) := by
      by_cases mark : c = '"'
      · subst mark
        have closing : step p '"' .quoted = .ok (p, .closing) := rfl
        have again : step p '"' .closing = .ok (p.grown ['"'], .quoted) := by
          simp only [step, added]
          rfl
        exact (rowsAfter_cons _ rfl closing).trans (rowsAfter_cons _ (by decide) again)
      · have kept : step p c .quoted = .ok (p.grown [c], .quoted) := by
          simp only [step, if_neg mark, added]
          rfl
        have spelled : doubled (c :: later) = c :: doubled later := by simp [doubled, mark]
        rw [spelled]
        exact rowsAfter_cons _ (by simp) kept
    have goesOn := ih (p.grown [c]) (by simp only [Partial.grown, List.length_singleton]; omega)
    rw [first, goesOn, Partial.grown_append, List.singleton_append]

theorem ne_of_blank {c d : Char} (blank : isBlank c = true) (filled : isBlank d = false) : c ≠ d := by
  rintro rfl
  rw [filled] at blank
  cases blank

theorem rowsAfter_bare (p : Partial) {cell : List Char} (short : p.length + cell.length ≤ fieldLimit)
    (blank : allBlank cell = true) (one : ∀ c ∈ cell, isLineEnd c = false) (rest : List Char) :
    rowsAfter p .bare (cell ++ rest) = rowsAfter (p.grown cell) .bare rest := by
  induction cell generalizing p with
  | nil => rfl
  | cons c later ih =>
    rw [List.length_cons] at short
    obtain ⟨blankHere, blankLater⟩ := Bool.and_eq_true_iff.mp blank
    obtain ⟨inside, others⟩ := List.forall_mem_cons.mp one
    have kept : step p c .bare = .ok (p.grown [c], .bare) := by
      simp only [step, if_neg (ne_of_blank (d := ',') blankHere (by decide)), add_eq_ok (p := p) (by omega) c]
      rfl
    have goesOn := ih (p.grown [c]) (by simp only [Partial.grown, List.length_singleton]; omega) blankLater others
    rw [List.cons_append, rowsAfter_cons _ (by simp [inside]) kept, goesOn, Partial.grown_append,
      List.singleton_append]

/-- A field is read to its end, and then it is the cell that was written. -/
theorem rowsAfter_field {field cell : List Char} (written : Field field cell) (fields : Row) {position : Position}
    (starts : position = .rowStart ∨ position = .fieldStart) : ∃ n position', position' ≠ .quoted ∧
      (position' = .rowStart → position = .rowStart ∧ cell = []) ∧
      ∀ rest, rowsAfter ⟨fields, [], 0⟩ position (field ++ rest) =
        rowsAfter ⟨fields, cell.reverse, n⟩ position' rest := by
  cases written with
  | quoted short =>
    refine ⟨cell.length, .closing, by simp, by simp, fun rest => ?_⟩
    have opened : step ⟨fields, [], 0⟩ '"' position = .ok (⟨fields, [], 0⟩, .quoted) := by
      rcases starts with rfl | rfl <;> rfl
    have closed : step ⟨fields, cell.reverse, cell.length⟩ '"' .quoted =
        .ok (⟨fields, cell.reverse, cell.length⟩, .closing) := rfl
    have fits : 0 + cell.length ≤ fieldLimit := by simpa using short
    have content := rowsAfter_doubled ⟨fields, [], 0⟩ fits ('"' :: rest)
    simp only [Partial.grown, Nat.zero_add, List.append_nil] at content
    rw [quote, List.cons_append, List.cons_append, List.append_assoc, List.singleton_append,
      rowsAfter_cons _ (by simp [isLineEnd]) opened, content, rowsAfter_cons _ (by decide) closed]
  | bare short blank one =>
    cases field with
    | nil => exact ⟨0, position, by rcases starts with rfl | rfl <;> simp, by simp, fun rest => rfl⟩
    | cons c later =>
      refine ⟨later.length + 1, .bare, by simp, by simp, fun rest => ?_⟩
      rw [List.length_cons] at short
      obtain ⟨blankHere, blankLater⟩ := Bool.and_eq_true_iff.mp blank
      obtain ⟨inside, others⟩ := List.forall_mem_cons.mp one
      have begun : step ⟨fields, [], 0⟩ c position = .ok (⟨fields, [c], 1⟩, .bare) := by
        have added : Partial.add ⟨fields, [], 0⟩ c = .ok ⟨fields, [c], 1⟩ := rfl
        rcases starts with rfl | rfl <;>
          simp only [step, if_neg (ne_of_blank (d := ',') blankHere (by decide)),
            if_neg (ne_of_blank (d := '"') blankHere (by decide)), added] <;> rfl
      have content := rowsAfter_bare ⟨fields, [c], 1⟩ (by simp only; omega) blankLater others rest
      rw [List.cons_append, rowsAfter_cons _ (by simp [inside]) begun, content]
      simp [Partial.grown, Nat.add_comm 1]

/-- The fields of a row are its cells, but one empty field makes a row without cells. -/
theorem rowsAfter_fields {fields cells : List (List Char)} (written : List.Forall₂ Field fields cells)
    (some : fields ≠ []) (before : Row) {position : Position}
    (starts : position = .rowStart ∨ position = .fieldStart) {ending : List Char} (ended : LineEnd ending)
    (rest : List Char) : ∃ row, (row = before.reverse ++ cells ∨ row = [] ∧ position = .rowStart ∧ cells = [[]]) ∧
      rowsAfter ⟨before, [], 0⟩ position (line fields ++ ending ++ rest) =
        (rowsAfter {} .rowStart rest).map (row :: ·) := by
  induction written generalizing before position with
  | nil => exact absurd rfl some
  | @cons field cell fields cells first others ih =>
    obtain ⟨n, position', ends, atStart, read⟩ := rowsAfter_field first before starts
    cases others with
    | nil =>
      refine ⟨endRow ⟨before, cell.reverse, n⟩ position', ?_, ?_⟩
      · cases position' with
        | rowStart => exact Or.inr ⟨rfl, (atStart rfl).1, by rw [(atStart rfl).2]⟩
        | quoted => exact absurd rfl ends
        | _ => exact Or.inl (by simp [endRow, Partial.row, Partial.endField])
      · rw [line, List.intercalate_singleton, List.append_assoc, read, rowsAfter_lineEnd _ ends ended]
    | @cons field' cell' fields' cells' second others =>
      obtain ⟨row, same, goesOn⟩ := ih (List.cons_ne_nil field' fields') (cell :: before) (Or.inr rfl)
      refine ⟨row, Or.inl ?_, ?_⟩
      · rcases same with rfl | ⟨-, start, -⟩
        · simp
        · cases start
      · have comma : step ⟨before, cell.reverse, n⟩ ',' position' = .ok (⟨cell :: before, [], 0⟩, .fieldStart) := by
          cases position' with
          | quoted => exact absurd rfl ends
          | _ => simp [step, Partial.endField]
        have spelled : line (field :: field' :: fields') ++ ending ++ rest =
            field ++ ',' :: (line (field' :: fields') ++ ending ++ rest) := by
          simp [line, List.intercalate_cons_cons]
        rw [spelled, read, rowsAfter_cons _ (by simp [isLineEnd]) comma, goesOn]

theorem rowsAfter_line {fields : List (List Char)} {cells : Row} (written : List.Forall₂ Field fields cells)
    {ending : List Char} (ended : LineEnd ending) (rest : List Char) :
    ∃ row, (row = cells ∨ row = [] ∧ cells = [[]]) ∧
      rowsAfter {} .rowStart (line fields ++ ending ++ rest) = (rowsAfter {} .rowStart rest).map (row :: ·) := by
  by_cases empty : fields = []
  · subst empty
    cases written
    exact ⟨[], Or.inl rfl, rowsAfter_lineEnd {} (by simp) ended rest⟩
  · obtain ⟨row, same, read⟩ := rowsAfter_fields written empty [] (Or.inl rfl) ended rest
    exact ⟨row, same.imp_right fun ⟨unread, _, single⟩ => ⟨unread, single⟩, read⟩

theorem field_quote {cells : Row} (short : ∀ cell ∈ cells, cell.length ≤ fieldLimit) :
    List.Forall₂ Field (cells.map quote) cells :=
  List.forall₂_map_left_iff.mpr (List.forall₂_same.mpr fun cell among => .quoted (short cell among))

theorem rows_of_line {text later : List Char} {row : Row} {all : List Row} (read : Csv.rows later = .ok all)
    (first : rowsAfter {} .rowStart text = (rowsAfter {} .rowStart later).map (row :: ·)) :
    Csv.rows text = .ok (row :: all) := by
  rw [Csv.rows, first]
  exact congrArg (Except.map (row :: ·)) read

/-- A text has the rows that were written, apart from blank ones. -/
theorem rows_of_writes {rows : List Row} {text : List Char} (written : Writes rows text)
    (short : ∀ cells ∈ rows, ∀ cell ∈ cells, cell.length ≤ fieldLimit) :
    ∃ all, Csv.rows text = .ok all ∧
      all.filter (!Datatable.isBlankRow ·) = rows.filter (!Datatable.isBlankRow ·) := by
  induction written with
  | done => exact ⟨[], rfl, rfl⟩
  | @row cells rows ending text ended later ih =>
    obtain ⟨here, others⟩ := List.forall_mem_cons.mp short
    obtain ⟨all, read, same⟩ := ih others
    obtain ⟨row, kept, first⟩ := rowsAfter_line (field_quote here) ended text
    refine ⟨row :: all, rows_of_line read first, ?_⟩
    rcases kept with rfl | ⟨rfl, rfl⟩
    · rw [List.filter_cons, List.filter_cons, same]
    · exact same
  | @blank cells fields rows ending text blank fieldsOf ended later ih =>
    obtain ⟨all, read, same⟩ := ih short
    obtain ⟨row, kept, first⟩ := rowsAfter_line fieldsOf ended text
    have passed : Datatable.isBlankRow row = true := by
      rcases kept with rfl | ⟨rfl, -⟩
      · exact blank
      · rfl
    exact ⟨row :: all, rows_of_line read first, by rw [List.filter_cons_of_neg (by simp [passed]), same]⟩

theorem Field.head {field cell : List Char} (written : Field field cell) :
    ∀ c ∈ field.head?, c = '"' ∨ isBlank c = true := by
  intro c first
  cases written with
  | quoted short => exact Or.inl (Option.some.inj first).symm
  | bare short blank one => exact Or.inr (List.all_eq_true.mp blank c (List.mem_of_mem_head? first))

theorem LineEnd.head {ending rest : List Char} (ended : LineEnd ending) :
    ∀ c ∈ (ending ++ rest).head?, isBlank c = true := by
  intro c first
  cases ended with
  | lineFeed => exact Option.some.inj first ▸ by decide
  | both => exact Option.some.inj first ▸ by decide

theorem head_line {fields : List (List Char)} {cells : Row} (written : List.Forall₂ Field fields cells)
    {ending rest : List Char} (ended : LineEnd ending) :
    ∀ c ∈ (line fields ++ ending ++ rest).head?, c = '"' ∨ c = ',' ∨ isBlank c = true := by
  intro c first
  cases written with
  | nil => exact Or.inr (Or.inr (ended.head c first))
  | @cons field cell fields cells here others =>
    cases field with
    | cons d more =>
      have begins : c ∈ (d :: more).head? := by
        cases others <;> simpa [line, List.intercalate_cons_cons] using first
      exact (here.head c begins).imp id Or.inr
    | nil =>
      cases others with
      | nil => exact Or.inr (Or.inr (ended.head c (by simpa [line] using first)))
      | cons second others =>
        refine Or.inr (Or.inl ?_)
        simpa [line, List.intercalate_cons_cons, eq_comm] using first

/-- What was written does not begin with a byte order mark. -/
theorem afterMark_of_writes {rows : List Row} {text : List Char} (written : Writes rows text)
    (short : ∀ cells ∈ rows, ∀ cell ∈ cells, cell.length ≤ fieldLimit) :
    Datatable.Content.afterMark text = text := by
  have unmarked : ∀ c ∈ text.head?, c = '"' ∨ c = ',' ∨ isBlank c = true := by
    cases written with
    | done => simp
    | row ended later => exact head_line (field_quote (short _ List.mem_cons_self)) ended
    | blank blank fieldsOf ended later => exact head_line fieldsOf ended
  unfold Datatable.Content.afterMark
  split
  · rcases unmarked '\uFEFF' rfl with mark | mark | blank
    · cases mark
    · cases mark
    · cases blank
  · rfl

end Csv

namespace Datatable

/-- A table that can be written: the columns have names of their own, and each row is filled and as wide as the
header. -/
structure Tabular (headers : Csv.Row) (body : List Csv.Row) : Prop where
  distinct : (names headers).Nodup
  named : ∀ header ∈ headers, allBlank header = false
  some : body ≠ []
  wide : ∀ cells ∈ body, cells.length = headers.length
  filled : ∀ cells ∈ body, isBlankRow cells = false
  short : ∀ cells ∈ headers :: body, ∀ cell ∈ cells, cell.length ≤ Csv.fieldLimit

theorem bindAll_of_wide (path : Path) {headers : Csv.Row} (number : Nat) {body : List Csv.Row}
    (wide : ∀ cells ∈ body, cells.length = headers.length) :
    bindAll path headers number body = .ok (body.map (bind headers)) := by
  induction body generalizing number with
  | nil => rfl
  | cons cells later ih =>
    obtain ⟨here, others⟩ := List.forall_mem_cons.mp wide
    rw [bindAll, if_pos here, ih (number + 1) others]
    rfl

/-- The entries of a row with all its cells. -/
def entries (headers cells : Csv.Row) : Bindings :=
  (headers.zip cells).map fun pair => (nameOf pair.1, valueOf pair.2)

theorem keys_entries {headers cells : Csv.Row} (wide : cells.length = headers.length) :
    keys (entries headers cells) = names headers := by
  have columns : (headers.zip cells).map Prod.fst = headers := List.map_fst_zip (by omega)
  rw [names, ← columns, keys, entries, List.map_map, List.map_map, columns]
  rfl

theorem set_of_not_mem {b : Bindings} {name : String} (value : String) (absent : name ∉ keys b) :
    b.set name value = (name, value) :: b := by
  rw [Bindings.set, List.filter_eq_self.mpr]
  intro entry among
  rw [bne_iff_ne]
  rintro rfl
  exact absent (List.mem_map_of_mem among)

theorem foldl_distinct {pairs : List (List Char × List Char)} {b : Bindings}
    (distinct : (keys (pairs.map fun pair => (nameOf pair.1, valueOf pair.2)) ++ keys b).Nodup) :
    pairs.foldl (fun b (name, value) => b.set (nameOf name) (valueOf value)) b =
      (pairs.map fun pair => (nameOf pair.1, valueOf pair.2)).reverse ++ b := by
  induction pairs generalizing b with
  | nil => rfl
  | cons pair later ih =>
    obtain ⟨header, cell⟩ := pair
    have apart : (keys (later.map fun pair => (nameOf pair.1, valueOf pair.2)) ++
        keys ((nameOf header, valueOf cell) :: b)).Nodup :=
      (List.perm_middle.nodup_iff).mpr distinct
    have absent : nameOf header ∉ keys b := by
      have fresh := (List.nodup_cons.mp distinct).1
      exact fun among => fresh (List.mem_append_right _ among)
    have first : b.set (nameOf header) (valueOf cell) = (nameOf header, valueOf cell) :: b :=
      set_of_not_mem _ absent
    simp only [List.foldl_cons, first]
    rw [ih apart]
    simp

theorem bind_perm {headers cells : Csv.Row} (wide : cells.length = headers.length)
    (distinct : (names headers).Nodup) : (bind headers cells).Perm (entries headers cells) := by
  have fresh : (keys (entries headers cells) ++ keys []).Nodup := by
    rw [keys_entries wide]
    simpa [keys] using distinct
  have turned : bind headers cells = (entries headers cells).reverse ++ [] := foldl_distinct fresh
  rw [turned, List.append_nil]
  exact List.reverse_perm _

theorem Tabular.headed {headers : Csv.Row} {body : List Csv.Row} (tabular : Tabular headers body) :
    isBlankRow headers = false := by
  obtain ⟨cells, later, rfl⟩ := List.exists_cons_of_ne_nil tabular.some
  cases headers with
  | nil =>
    obtain rfl := List.length_eq_zero_iff.mp (tabular.wide cells List.mem_cons_self)
    exact tabular.filled [] List.mem_cons_self
  | cons header others => simp [isBlankRow, tabular.named header List.mem_cons_self]

/-- A table that was written is loaded with one row for each of its rows, in order, and each row has the trimmed
cells under the trimmed names of their columns, and nothing else. -/
theorem load_of_written {d : Disk} {path : Path} {headers : Csv.Row} {body : List Csv.Row} {text : List Char}
    (tabular : Tabular headers body) (written : Csv.Writes (headers :: body) text)
    (stored : d.read path = .ok (String.ofList text).toUTF8) :
    ∃ rows, load d path = .ok (.ok rows) ∧
      List.Forall₂ (fun row cells => row.Perm (entries headers cells)) rows body := by
  obtain ⟨all, read, kept⟩ := Csv.rows_of_writes written tabular.short
  have filled : all.filter (!isBlankRow ·) = headers :: body := by
    rw [kept, List.filter_eq_self]
    intro cells among
    rcases List.mem_cons.mp among with rfl | among
    · simp [tabular.headed]
    · simp [tabular.filled cells among]
  have decoded : Content.ofOctets (String.ofList text).toUTF8 = .text text := by
    rw [ofOctets_toUTF8, String.toList_ofList, Csv.afterMark_of_writes written tabular.short]
  have named : headers.any allBlank = false := by simpa using tabular.named
  have accepted : ofText path text = .ok (body.map (bind headers)) := by
    simp only [ofText, read, ofRows, filled, named, List.isEmpty_eq_false_iff.mpr tabular.some,
      bindAll_of_wide path 2 tabular.wide]
    rfl
  refine ⟨body.map (bind headers), ?_, ?_⟩
  · simp only [load, stored, decoded, accepted]
  · refine List.forall₂_map_left_iff.mpr (List.forall₂_same.mpr fun cells among => ?_)
    exact bind_perm (tabular.wide cells among) tabular.distinct

def guestHeaders : Csv.Row := ["first, \"last\"".toList, " town\n".toList]

def guestBody : List Csv.Row := [["\"A\",\r\n\"B\"".toList, []], [[' '], "Ulm\r".toList]]

/-- An empty line, the header, a row, two blank rows of which one is bare, and a row. -/
def guestText : List Char :=
  ("\n\"first, \"\"last\"\"\",\" town\n\"\r\n\"\"\"A\"\",\r\n\"\"B\"\"\",\"\"\n" ++
    "\"\n\"\r\n , ,\n\" \",\"Ulm\r\"\n").toList

theorem tabular_guests : Tabular guestHeaders guestBody where
  distinct := by decide
  named := by decide
  some := by decide
  wide := by decide
  filled := by decide
  short := by decide

theorem writes_guests : Csv.Writes (guestHeaders :: guestBody) guestText := by
  have lone : Csv.Field (Csv.quote ['\n']) ['\n'] := .quoted (by decide)
  have space : Csv.Field [' '] [' '] := .bare (by decide) (by decide) (List.forall_mem_singleton.mpr rfl)
  have empty : Csv.Field [] [] := .bare (by decide) (by decide) (List.forall_mem_nil _)
  have nothing : List.Forall₂ Csv.Field [] [] := .nil
  exact .blank (by decide) nothing .lineFeed <| .row .both <| .row .lineFeed <|
    .blank (by decide) (.cons lone .nil) .both <|
      .blank (by decide) (.cons space (.cons space (.cons empty .nil))) .lineFeed <| .row .lineFeed .done

theorem load_of_written_guests : Tabular guestHeaders guestBody ∧ Csv.Writes (guestHeaders :: guestBody) guestText ∧
    (diskWith (String.ofList guestText).toUTF8).read townPath = .ok (String.ofList guestText).toUTF8 ∧
    ∃ rows, load (diskWith (String.ofList guestText).toUTF8) townPath = .ok (.ok rows) ∧
      List.Forall₂ (fun row cells => row.Perm (entries guestHeaders cells)) rows guestBody :=
  ⟨tabular_guests, writes_guests, read_diskWith _, load_of_written tabular_guests writes_guests (read_diskWith _)⟩

end Datatable
end Walkthrough
