import Walkthrough.Proofs.File.Written
import Walkthrough.Proofs.Run.Rows
import Walkthrough.Table.Datatable

/-!
The columns of a table, as scripts use them. Every row of a table that is accepted becomes a row to run for, which
has the trimmed cell of the last column with a name under that name. In the run for that row, the name of a
column between angle brackets stands for the cell (`columns_fill`), if the header is a name at all: no
placeholder refers to any other header, and of columns with one name only the last one can be used
(`not_columns_fill`).
-/
namespace Walkthrough.Datatable

open Text

/-- What the file at a path holds as a table: a header and rows. Blank rows do not count. -/
structure Holds (d : Disk) (path : Path) (headers : Csv.Row) (body : List Csv.Row) : Prop where
  rows : ∃ content s all, d.read path = .ok content ∧ Content.ofOctets content = .text s ∧
    Csv.rows s = .ok all ∧ all.filter (!isBlankRow ·) = headers :: body
  named : ∀ header ∈ headers, allBlank header = false
  wide : ∀ cells ∈ body, cells.length = headers.length

theorem bindAll_eq_ok {path : Path} {headers : Csv.Row} {number : Nat} {body : List Csv.Row}
    {rows : List Bindings} (bound : bindAll path headers number body = .ok rows) :
    rows = body.map (bind headers) ∧ ∀ cells ∈ body, cells.length = headers.length := by
  induction body generalizing number rows with
  | nil =>
    cases bound
    exact ⟨rfl, List.forall_mem_nil _⟩
  | cons cells later ih =>
    unfold bindAll at bound
    split at bound
    · rename_i wide
      cases others : bindAll path headers (number + 1) later with
      | error e => simp [others, Bind.bind, Except.bind] at bound
      | ok found =>
        simp only [others, Bind.bind, Except.bind, pure, Except.pure, Except.ok.injEq] at bound
        obtain ⟨rfl, wide'⟩ := ih others
        exact ⟨bound.symm, List.forall_mem_cons.mpr ⟨wide, wide'⟩⟩
    · cases bound

theorem load_eq_ok {d : Disk} {path : Path} {rows : List Bindings} (loaded : load d path = .ok (.ok rows)) :
    ∃ headers body, Holds d path headers body ∧ rows = body.map (bind headers) := by
  unfold load at loaded
  split at loaded
  · cases loaded
  · cases loaded
  · rename_i content found
    split at loaded
    · rename_i s decoded
      have accepted : ofText path s = .ok rows := by simpa using loaded
      unfold ofText at accepted
      split at accepted
      · rename_i all split
        unfold ofRows at accepted
        split at accepted
        · cases accepted
        · rename_i headers body filtered
          split at accepted
          · cases accepted
          · rename_i named
            split at accepted
            · cases accepted
            · obtain ⟨same, wide⟩ := bindAll_eq_ok accepted
              refine ⟨headers, body, ⟨⟨content, s, all, found, decoded, split, filtered⟩, ?_, wide⟩, same⟩
              simpa using named
      · cases accepted
    · split at loaded <;> cases loaded

theorem lookup_foldl_of_ne {pairs : List (List Char × List Char)} {name : String} (b : Bindings)
    (apart : ∀ pair ∈ pairs, String.ofList (trim pair.1) ≠ name) :
    (pairs.foldl (fun b (name, value) => b.set (String.ofList (trim name)) (String.ofList (trim value))) b).lookup
      name = b.lookup name := by
  induction pairs generalizing b with
  | nil => rfl
  | cons pair later ih =>
    obtain ⟨first, others⟩ := List.forall_mem_cons.mp apart
    rw [List.foldl_cons, ih _ others]
    exact Bindings.lookup_set_of_ne _ first.symm

/-- A row has the cell of the last column of a name under that name. -/
theorem lookup_bind {headers cells : Csv.Row} {k : Nat} {header cell : List Char}
    (named : headers[k]? = some header) (given : cells[k]? = some cell)
    (last : ∀ (i : Nat) (other : List Char), k < i → headers[i]? = some other → trim other ≠ trim header) :
    (bind headers cells).lookup (String.ofList (trim header)) = some (String.ofList (trim cell)) := by
  have pair : (headers.zip cells)[k]? = some (header, cell) := by
    rw [List.getElem?_zip_eq_some]
    exact ⟨named, given⟩
  obtain ⟨inside, same⟩ := List.getElem?_eq_some_iff.mp pair
  -- Columns before it are overwritten, and none after it has the name.
  have parts : headers.zip cells =
      (headers.zip cells).take k ++ (header, cell) :: (headers.zip cells).drop (k + 1) := by
    rw [← same, List.getElem_cons_drop, List.take_append_drop]
  have apart : ∀ pair ∈ (headers.zip cells).drop (k + 1),
      String.ofList (trim pair.1) ≠ String.ofList (trim header) := by
    intro pair among
    obtain ⟨i, found⟩ := List.getElem?_of_mem among
    rw [List.getElem?_drop, List.getElem?_zip_eq_some] at found
    intro equal
    exact last (k + 1 + i) pair.1 (by omega) found.1 (String.ofList_inj.mp equal)
  unfold bind
  rw [parts, List.foldl_append, List.foldl_cons, lookup_foldl_of_ne _ apart]
  exact Bindings.lookup_set_self _ _ _

/-- With no variable of that name, the name between angle brackets stands for the value. -/
def Shows {η : Type} (m : Memory η) (name value : List Char) : Prop :=
  m.bindings.lookup (String.ofList name) = none →
    m.fillIn (String.ofList ('<' :: name ++ ['>'])) = String.ofList value

theorem shows_of_lookup {η : Type} {m : Memory η} {name value : List Char} (named : Name.isName name = true)
    (found : m.row.lookup (String.ofList name) = some (String.ofList value)) : Shows m name value := by
  intro free
  apply Memory.fillIn_bracketed named
  rw [Memory.lookup, free, found]
  rfl

/-- Let a table be accepted. In the run for a row, the trimmed header of a column stands for the row's trimmed cell,
if it is a name and no later column has it; a header that is no name stands in no placeholder. -/
theorem columns_fill {d : Disk} {path : Path} {rows : List Bindings} (loaded : load d path = .ok (.ok rows)) :
    ∃ headers body, Holds d path headers body ∧ rows.length = body.length ∧
      (∀ (i : Nat) row cells, rows[i]? = some row → body[i]? = some cells →
        ∀ (k : Nat) header cell, headers[k]? = some header → cells[k]? = some cell →
          Name.isName (trim header) = true →
          (∀ (j : Nat) (other : List Char), k < j → headers[j]? = some other → trim other ≠ trim header) →
          (∀ {η : Type} (m : Memory η), m.row = row → Shows m (trim header) (trim cell)) ∧
          ∀ {σ η ν : Type} (setup : Setup σ η ν) (script : Script) (startedAt : Moment) (session : Session σ ν)
            (record : RunRecord) (t : RunState σ η ν), setup.run script row startedAt session = .ok record t →
            ∃ u visits, setup.observedRun script row startedAt session = .ok record u ∧ u.inner = t ∧
              u.kept = visits.flatMap Visit.sightings ∧
              Run.Filed setup.conduct script visits record.entries ∧
              ∀ v ∈ visits, ∀ m, setup.AtWork v m → Shows m (trim header) (trim cell)) ∧
      ∀ header ∈ headers, Name.isName (trim header) = false →
        ∀ text, Piece.placeholder (trim header) ∉ Piece.split text := by
  obtain ⟨headers, body, holds, rfl⟩ := load_eq_ok loaded
  refine ⟨headers, body, holds, List.length_map _, ?_, ?_⟩
  · intro i row cells bound read k header cell headed given named last
    have same : row = bind headers cells := by
      rw [List.getElem?_map, read, Option.map_some, Option.some.injEq] at bound
      exact bound.symm
    have found : row.lookup (String.ofList (trim header)) = some (String.ofList (trim cell)) := by
      rw [same]
      exact lookup_bind headed given last
    have shows {η : Type} (m : Memory η) (own : m.row = row) : Shows m (trim header) (trim cell) :=
      shows_of_lookup named (own ▸ found)
    refine ⟨shows, fun setup script startedAt session record t returned => ?_⟩
    obtain ⟨u, visits, observed, inner, seen, filed, rows⟩ := Setup.row_at_work returned
    exact ⟨u, visits, observed, inner, seen, filed, fun v among m work => shows m (rows v among m work)⟩
  · intro header among unnamed text referred
    have named := Piece.isName_of_mem_split referred
    rw [unnamed] at named
    cases named

theorem Holds.unique {d : Disk} {path : Path} {headers headers' : Csv.Row} {body body' : List Csv.Row}
    (one : Holds d path headers body) (other : Holds d path headers' body') : headers = headers' ∧ body = body' := by
  obtain ⟨content, s, all, found, decoded, split, filtered⟩ := one.rows
  obtain ⟨content', s', all', found', decoded', split', filtered'⟩ := other.rows
  cases found.symm.trans found'
  cases decoded.symm.trans decoded'
  cases split.symm.trans split'
  cases filtered.symm.trans filtered'
  exact ⟨rfl, rfl⟩

theorem ofOctets_toUTF8 (s : String) : Content.ofOctets s.toUTF8 = .text (Content.afterMark s.toList) := by
  unfold Content.ofOctets
  rw [Disk.fromUTF8?_toUTF8]

/-- A table with a header that is no name, and two columns of one name. -/
def townText : String := "first name,town,town\nAda,Bonn, Ulm \n"

def townPath : Path := Path.ofString "towns.csv"

def diskWith (content : ByteArray) : Disk where
  items := [(#[.ofString "towns.csv"], .file content)]

def townHeaders : Csv.Row := ["first name".toList, "town".toList, "town".toList]

def townCells : Csv.Row := ["Ada".toList, "Bonn".toList, " Ulm ".toList]

theorem read_diskWith (content : ByteArray) : (diskWith content).read townPath = .ok content := by
  rfl

def splitsInto (s : List Char) (rows : List Csv.Row) : Bool :=
  match Csv.rows s with
  | .ok found => found == rows
  | .error _ => false

theorem rows_of_splitsInto {s : List Char} {rows : List Csv.Row} (splits : splitsInto s rows = true) :
    Csv.rows s = .ok rows := by
  unfold splitsInto at splits
  split at splits
  · rename_i found read
    rw [read, eq_of_beq splits]
  · cases splits

theorem rows_townText : Csv.rows (Content.afterMark townText.toList) = .ok [townHeaders, townCells] :=
  rows_of_splitsInto (by decide +kernel)

theorem holds_town : Holds (diskWith townText.toUTF8) townPath townHeaders [townCells] where
  rows := ⟨_, _, _, read_diskWith _, ofOctets_toUTF8 townText, rows_townText, by decide⟩
  named := by decide
  wide := by decide

theorem load_town : load (diskWith townText.toUTF8) townPath = .ok (.ok [bind townHeaders townCells]) := by
  simp only [load, read_diskWith, ofOctets_toUTF8, ofText, rows_townText]
  rfl

def townRow : Bindings := bind townHeaders townCells

/-- The last town is what a text can name. -/
theorem columns_fill_town :
    load (diskWith townText.toUTF8) townPath = .ok (.ok [townRow]) ∧ Name.isName "town".toList = true ∧
    ∀ m : Memory Unit, m.row = townRow → Shows m "town".toList "Ulm".toList := by
  obtain ⟨headers, body, holds, -, fills, -⟩ := columns_fill load_town
  obtain ⟨rfl, rfl⟩ := holds.unique holds_town
  have last (j : Nat) (other : List Char) (after : 2 < j) (found : townHeaders[j]? = some other) :
      trim other ≠ trim "town".toList := by
    have none : townHeaders[j]? = .none := List.getElem?_eq_none after
    rw [none] at found
    cases found
  obtain ⟨shows, -⟩ := fills 0 townRow townCells rfl rfl 2 "town".toList " Ulm ".toList rfl rfl (by decide) last
  refine ⟨load_town, by decide, fun m own => ?_⟩
  have trimmed : trim " Ulm ".toList = "Ulm".toList := by decide
  exact trimmed ▸ shows m own

/-- A text can name neither the first name nor the first of the two towns. -/
theorem not_columns_fill :
    load (diskWith townText.toUTF8) townPath = .ok (.ok [townRow]) ∧
    Holds (diskWith townText.toUTF8) townPath townHeaders [townCells] ∧
    townHeaders[0]? = some "first name".toList ∧ townCells[0]? = some "Ada".toList ∧
    ¬Shows ({ row := townRow } : Memory Unit) (trim "first name".toList) (trim "Ada".toList) ∧
    townHeaders[1]? = some "town".toList ∧ townCells[1]? = some "Bonn".toList ∧
    ¬Shows ({ row := townRow } : Memory Unit) (trim "town".toList) (trim "Bonn".toList) := by
  refine ⟨load_town, holds_town, rfl, rfl, fun shows => ?_, rfl, rfl, fun shows => ?_⟩
  · have filled := shows rfl
    revert filled
    decide +kernel
  · have filled := shows rfl
    revert filled
    decide +kernel

end Walkthrough.Datatable
