import Mathlib.Data.List.Dedup
import Walkthrough.Proofs.Table.Columns

/-!
The cells of a table that rows keep. A row has one entry for each name that a column has, with the trimmed cell of
the last such column (`cells_kept`). So it has all its cells if no two columns have one name; the cells of a column
whose name a later one has are lost (`cell_lost`).
-/
namespace Walkthrough.Datatable

open Text

def nameOf (header : List Char) : String := String.ofList (trim header)

def valueOf (cell : List Char) : String := String.ofList (trim cell)

/-- The names of the columns. -/
def names (headers : Csv.Row) : List String := headers.map nameOf

/-- The names that a row has entries for. -/
def keys (b : Bindings) : List String := b.map (·.1)

theorem keys_set (b : Bindings) (name value : String) :
    keys (b.set name value) = name :: (keys b).filter (· != name) := by
  simp [keys, Bindings.set, List.filter_map, Function.comp_def]

theorem nodup_set {b : Bindings} (distinct : (keys b).Nodup) (name value : String) :
    (keys (b.set name value)).Nodup := by
  rw [keys_set, List.nodup_cons]
  exact ⟨by simp, distinct.filter _⟩

theorem mem_keys_set {b : Bindings} {name value other : String} :
    other ∈ keys (b.set name value) ↔ other = name ∨ other ∈ keys b := by
  rw [keys_set, List.mem_cons, List.mem_filter, bne_iff_ne]
  by_cases same : other = name <;> simp [same]

theorem keys_foldl (pairs : List (List Char × List Char)) {b : Bindings} (distinct : (keys b).Nodup) :
    (keys (pairs.foldl (fun b (name, value) => b.set (nameOf name) (valueOf value)) b)).Nodup ∧
    ∀ name, name ∈ keys (pairs.foldl (fun b (name, value) => b.set (nameOf name) (valueOf value)) b) ↔
      name ∈ keys b ∨ ∃ pair ∈ pairs, name = nameOf pair.1 := by
  induction pairs generalizing b with
  | nil => exact ⟨distinct, by simp⟩
  | cons pair later ih =>
    obtain ⟨nodup, listed⟩ := ih (nodup_set distinct (nameOf pair.1) (valueOf pair.2))
    refine ⟨nodup, fun name => ?_⟩
    rw [List.foldl_cons, listed, mem_keys_set, List.exists_mem_cons_iff]
    tauto

/-- A row has one entry for each name. -/
theorem keys_bind {headers cells : Csv.Row} (wide : cells.length = headers.length) :
    (keys (bind headers cells)).Perm (names headers).dedup := by
  obtain ⟨nodup, listed⟩ := keys_foldl (headers.zip cells) (b := []) List.nodup_nil
  refine (List.perm_ext_iff_of_nodup nodup (List.nodup_dedup _)).mpr fun name => ?_
  have columns : (headers.zip cells).map Prod.fst = headers := List.map_fst_zip (by omega)
  have named : names headers = (headers.zip cells).map fun pair => nameOf pair.1 := by
    rw [names, ← columns, List.map_map, columns]
    rfl
  rw [listed, List.mem_dedup, named]
  simp [keys, eq_comm]

/-! ### The last column of a name -/

/-- Column `j` is the last one with the name of column `k`. -/
structure LastOf (headers : Csv.Row) (k j : Nat) : Prop where
  le : k ≤ j
  same : (names headers)[j]? = (names headers)[k]?
  last : ∀ i, j < i → i < headers.length → (names headers)[i]? ≠ (names headers)[k]?

theorem exists_lastOf (headers : Csv.Row) (k : Nat) : ∃ j, LastOf headers k j := by
  by_cases again : ∃ i, k < i ∧ i < headers.length ∧ (names headers)[i]? = (names headers)[k]?
  · obtain ⟨i, later, inside, same⟩ := again
    obtain ⟨j, lastOf⟩ := exists_lastOf headers i
    refine ⟨j, by have := lastOf.le; omega, lastOf.same.trans same, fun n after within => ?_⟩
    exact same ▸ lastOf.last n after within
  · exact ⟨k, Nat.le_refl k, rfl, fun i after inside same => again ⟨i, after, inside, same⟩⟩
termination_by headers.length - k

theorem LastOf.eq_self {headers : Csv.Row} {k j : Nat} (lastOf : LastOf headers k j) (inside : k < headers.length)
    (distinct : (names headers).Nodup) : j = k := by
  have within : k < (names headers).length := by simpa [names] using inside
  exact ((List.getElem?_inj within distinct).mp lastOf.same.symm).symm

/-- The entry of a column's name is the cell of the last column with that name. -/
theorem lookup_lastOf {headers cells : Csv.Row} (wide : cells.length = headers.length) {k j : Nat}
    {header : List Char} (named : headers[k]? = some header) (lastOf : LastOf headers k j) :
    ∃ cell, cells[j]? = some cell ∧ (bind headers cells).lookup (nameOf header) = some (valueOf cell) := by
  have name : (names headers)[k]? = some (nameOf header) := by simp [names, named]
  obtain ⟨other, found, same⟩ : ∃ other, headers[j]? = some other ∧ nameOf other = nameOf header := by
    simpa [names] using lastOf.same.trans name
  have inside : j < cells.length := wide ▸ (List.getElem?_eq_some_iff.mp found).1
  refine ⟨cells[j], List.getElem?_eq_getElem inside, ?_⟩
  rw [← same]
  refine lookup_bind found (List.getElem?_eq_getElem inside) fun i third after listed equal => ?_
  refine lastOf.last i after (List.getElem?_eq_some_iff.mp listed).1 ?_
  rw [name, ← same, names, List.getElem?_map, listed, Option.map_some, nameOf, equal]
  rfl

/-! ### Rows of a table that is accepted -/

/-- Each row of a table that is accepted has one entry for each name of a column, and for each column the trimmed
cell of the last column with the same name. If the columns have different names, it has one entry for each
column, with that column's trimmed cell. -/
theorem cells_kept {d : Disk} {path : Path} {rows : List Bindings} (loaded : load d path = .ok (.ok rows)) :
    ∃ headers body, Holds d path headers body ∧
      List.Forall₂ (fun row cells => cells.length = headers.length ∧ (keys row).Perm (names headers).dedup ∧
        ∀ k header, headers[k]? = some header → ∃ j cell, LastOf headers k j ∧ cells[j]? = some cell ∧
          row.lookup (nameOf header) = some (valueOf cell)) rows body ∧
      ((names headers).Nodup → List.Forall₂ (fun row cells => row.length = headers.length ∧
        ∀ (k : Nat) header cell, headers[k]? = some header → cells[k]? = some cell →
          row.lookup (nameOf header) = some (valueOf cell)) rows body) := by
  obtain ⟨headers, body, holds, rfl⟩ := load_eq_ok loaded
  refine ⟨headers, body, holds, ?_, fun distinct => ?_⟩
  · refine List.forall₂_map_left_iff.mpr (List.forall₂_same.mpr fun cells among => ?_)
    have wide := holds.wide cells among
    refine ⟨wide, keys_bind wide, fun k header named => ?_⟩
    obtain ⟨j, lastOf⟩ := exists_lastOf headers k
    obtain ⟨cell, given, found⟩ := lookup_lastOf wide named lastOf
    exact ⟨j, cell, lastOf, given, found⟩
  · refine List.forall₂_map_left_iff.mpr (List.forall₂_same.mpr fun cells among => ?_)
    have wide := holds.wide cells among
    refine ⟨?_, fun k header cell named given => ?_⟩
    · have entries := (keys_bind wide).length_eq
      rw [distinct.dedup] at entries
      simpa [keys, names] using entries
    · obtain ⟨j, lastOf⟩ := exists_lastOf headers k
      obtain ⟨other, found, same⟩ := lookup_lastOf wide named lastOf
      have inside := (List.getElem?_eq_some_iff.mp named).1
      rw [lastOf.eq_self inside distinct, given] at found
      cases found
      exact same

theorem cells_kept_town : load (diskWith townText.toUTF8) townPath = .ok (.ok [townRow]) ∧
    (keys townRow).Perm ["first name", "town"] ∧ townRow.lookup "town" = some "Ulm" := by
  obtain ⟨headers, body, holds, rows, -⟩ := cells_kept load_town
  obtain ⟨rfl, rfl⟩ := holds.unique holds_town
  obtain ⟨-, entries, found⟩ := (List.forall₂_cons.mp rows).1
  refine ⟨load_town, entries.trans (by decide), ?_⟩
  obtain ⟨j, cell, lastOf, given, same⟩ := found 1 "town".toList rfl
  obtain rfl : j = 2 := by
    have town : (names townHeaders)[j]? = some "town" := lastOf.same
    have inside : j < 3 := (List.getElem?_eq_some_iff.mp town).1
    by_contra other
    exact lastOf.last 2 (by omega) (by decide) rfl
  cases given
  exact same

/-- The first of two towns is in no entry. -/
theorem cell_lost : load (diskWith townText.toUTF8) townPath = .ok (.ok [townRow]) ∧
    Holds (diskWith townText.toUTF8) townPath townHeaders [townCells] ∧
    townHeaders.length = 3 ∧ townRow.length = 2 ∧
    townHeaders[1]? = some "town".toList ∧ townCells[1]? = some "Bonn".toList ∧
    townRow.lookup (nameOf "town".toList) ≠ some (valueOf "Bonn".toList) := by
  exact ⟨load_town, holds_town, rfl, by decide, rfl, rfl, by decide⟩

end Walkthrough.Datatable
