import Walkthrough.Proofs.Report.Markup
import Walkthrough.Proofs.Text.Numbered

/-!
What a page tells of a run. The page of a record is its texts in the same tags always, row by row (`page`), and so the
record can be told from it (`html_recovered`): no text stands for a tag, and a failed statement has a row of its kind
with its error, however it reads.
-/
namespace Walkthrough.Report

open Markup

/-! ### The record in a page -/

structure ShownRow where
  text : String
  error : Option String
  screenshots : List String
  deriving DecidableEq, Repr

/-- What a page tells of a record. -/
structure Shown where
  name : String
  exitedEarly : Bool
  rows : List ShownRow
  deriving DecidableEq, Repr

def shownRow (entry : RecordEntry) : ShownRow :=
  ⟨entry.text, entry.error, entry.screenshots.map (·.identifier)⟩

def shown (r : RunRecord) : Shown where
  name := r.name
  exitedEarly := r.exitedEarly
  rows := r.entries.map shownRow

/-- What stands behind the start of a row. -/
structure Cells where
  cells : List String := []
  code : String := ""
  links : List String := []

def Cells.row (c : Cells) (start : Tag) : ShownRow where
  text := c.code
  error := if ("class", "failed") ∈ start.attributes then c.cells[2]? else none
  screenshots := c.links

/-- Adds a fragment in front of those behind it. -/
def gather (p : Fragment) : Cells × List ShownRow → Cells × List ShownRow
  | (c, rows) =>
    match p.tag.name with
    | "tr" => ({}, c.row p.tag :: rows)
    | "td" => ({ c with cells := p.text :: c.cells }, rows)
    | "code" => ({ c with code := p.text }, rows)
    | "a" => ({ c with links := p.text :: c.links }, rows)
    | _ => (c, rows)

/-- The first row of the table holds the names of the columns. -/
def recordOf (ps : List Fragment) : Shown where
  name := ((ps.find? (·.tag.name = "title")).map (·.text)).getD ""
  exitedEarly := (ps.find? (·.tag.attributes = [("class", "status")])).map (·.text) = some "Exited early"
  rows := (ps.foldr gather ({}, [])).2.drop 1

/-! ### The page of a record -/

def tagged (name : String) (text : String) : Fragment := ⟨⟨name, []⟩, text⟩

def headFragments (r : RunRecord) : List Fragment :=
  [tagged "html" "", tagged "head" "", ⟨⟨"meta", [("charset", "utf-8")]⟩, "\n"⟩,
    tagged "title" r.name, tagged "/title" "\n",
    tagged "style" style, tagged "/style" "\n",
    tagged "/head" "", tagged "body" "\n",
    tagged "h1" r.name, tagged "/h1" "\n",
    tagged "p" ("Date: " ++ date r.startedAt), tagged "/p" "\n",
    ⟨⟨"p", [("class", "status")]⟩, if r.exitedEarly then "Exited early" else "Completed"⟩, tagged "/p" "\n",
    tagged "table" "\n",
    tagged "tr" "", tagged "th" "#", tagged "/th" "", tagged "th" "Statement", tagged "/th" "",
    tagged "th" "Result", tagged "/th" "", tagged "th" "Screenshots", tagged "/th" "", tagged "/tr" "\n"]

def linkFragments (shot : Screenshot) : List Fragment :=
  [⟨⟨"a", [("href", "screenshots/" ++ shot.identifier)]⟩, shot.identifier⟩, tagged "/a" ""]

def linksFragments (shots : List Screenshot) : List Fragment := [tagged "br" ""].intercalate (shots.map linkFragments)

def rowFragments (number : Nat) (entry : RecordEntry) : List Fragment :=
  [⟨⟨"tr", if entry.error.isSome then [("class", "failed")] else []⟩, ""⟩,
    tagged "td" (toString number), tagged "/td" "",
    tagged "td" "", tagged "code" entry.text, tagged "/code" "", tagged "/td" "",
    tagged "td" (entry.error.getD "OK"), tagged "/td" "", tagged "td" ""] ++
  linksFragments entry.screenshots ++ [tagged "/td" "", tagged "/tr" "\n"]

/-- The rows of the entries, the first of which has this number. -/
def rowsFragments (number : Nat) : List RecordEntry → List Fragment
  | [] => []
  | entry :: later => rowFragments number entry ++ rowsFragments (number + 1) later

def closingFragments : List Fragment := [tagged "/table" "\n", tagged "/body" "", tagged "/html" ""]

/-- What the page of a record consists of. -/
def page (r : RunRecord) : List Fragment := headFragments r ++ (rowsFragments 1 r.entries ++ closingFragments)

/-! ### What is gathered from the page -/

theorem gather_links (shots : List Screenshot) (c : Cells) (rows : List ShownRow) :
    (linksFragments shots).foldr gather (c, rows) =
      ({ c with links := shots.map (·.identifier) ++ c.links }, rows) := by
  unfold linksFragments
  induction shots with
  | nil => rfl
  | cons shot later ih =>
    cases later with
    | nil => rfl
    | cons next later =>
      rw [List.map_cons, List.map_cons, List.intercalate_cons_cons, ← List.map_cons, List.foldr_append,
        List.foldr_append, ih]
      rfl

theorem gather_row (number : Nat) (entry : RecordEntry) (rows : List ShownRow) :
    (rowFragments number entry).foldr gather ({}, rows) = ({}, shownRow entry :: rows) := by
  have ending : [tagged "/td" "", tagged "/tr" "\n"].foldr gather ({}, rows) = ({}, rows) := rfl
  unfold rowFragments shownRow
  rw [List.foldr_append, List.foldr_append, ending, gather_links, List.append_nil]
  cases entry.error <;> rfl

theorem gather_rows (number : Nat) (entries : List RecordEntry) (rows : List ShownRow) :
    (rowsFragments number entries).foldr gather ({}, rows) = ({}, entries.map shownRow ++ rows) := by
  induction entries generalizing number with
  | nil => rfl
  | cons entry later ih => rw [rowsFragments, List.foldr_append, ih, gather_row]; rfl

theorem recordOf_page (r : RunRecord) : recordOf (page r) = shown r := by
  have name : ((page r).find? (·.tag.name = "title")).map (·.text) = some r.name := rfl
  have status : ((page r).find? (·.tag.attributes = [("class", "status")])).map (·.text) =
      some (if r.exitedEarly then "Exited early" else "Completed") := rfl
  have early : some (if r.exitedEarly then "Exited early" else "Completed") = some "Exited early" ↔
      r.exitedEarly = true := by cases r.exitedEarly <;> decide
  have ending : closingFragments.foldr gather ({}, []) = ({}, []) := rfl
  have start (rows : List ShownRow) : ((headFragments r).foldr gather ({}, rows)).2.drop 1 = rows := rfl
  have rows : ((page r).foldr gather ({}, [])).2.drop 1 = (shown r).rows := by
    rw [page, List.foldr_append, List.foldr_append, ending, gather_rows, List.append_nil, start]
    rfl
  unfold recordOf
  rw [name, status, rows]
  simp only [early, Bool.decide_eq_true]
  rfl

/-! ### Texts that are written as they are -/

theorem escaped_append (s t : String) : escaped (s ++ t) = escaped s ++ escaped t := by
  rw [← String.toList_inj, String.toList_append, toList_escaped, toList_escaped, toList_escaped, String.toList_append,
    List.flatMap_append]

/-- A text in which nothing is escaped. -/
def Bare (s : String) : Prop := ∀ c ∈ s.toList, c ∉ ['&', '<', '>', '"', '\x27']

-- The characters of the text are gone through, not all that there are.
instance (s : String) : Decidable (Bare s) :=
  List.decidableBAll (fun c => c ∉ ['&', '<', '>', '"', '\x27']) s.toList

theorem escaped_of_bare {s : String} (bare : Bare s) : escaped s = s := by
  have each (chars : List Char) (plain : ∀ c ∈ chars, c ∉ ['&', '<', '>', '"', '\x27']) :
      chars.flatMap (fun c => (escapedChar c).toList) = chars := by
    induction chars with
    | nil => rfl
    | cons c chars ih =>
      obtain ⟨here, others⟩ := List.forall_mem_cons.mp plain
      rw [List.flatMap_cons, ih others]
      obtain special | ⟨-, itself⟩ := escapedChar_cases c
      · exact absurd special here
      · rw [itself, List.singleton_append]
  rw [← String.toList_inj, toList_escaped, each _ bare]

theorem escaped_empty : escaped "" = "" := escaped_of_bare (by decide)

theorem escaped_feed : escaped "\n" = "\n" := escaped_of_bare (by decide)

theorem Bare.append {s t : String} (first : Bare s) (second : Bare t) : Bare (s ++ t) := by
  unfold Bare
  rw [String.toList_append]
  exact List.forall_mem_append.mpr ⟨first, second⟩

theorem bare_of_digits {s : String} (digits : ∀ c ∈ s.toList, c.isDigit = true) : Bare s := by
  intro c listed special
  have digit := digits c listed
  simp only [List.mem_cons, List.not_mem_nil, or_false] at special
  rcases special with rfl | rfl | rfl | rfl | rfl <;> cases digit

theorem bare_number (n : Nat) : Bare (toString n) := bare_of_digits Text.isDigit_toString

theorem bare_padded (width n : Nat) : Bare (padded width n) := by
  refine bare_of_digits fun c listed => ?_
  rw [padded, Decimal.Layout.padded, String.toList_append, String.toList_ofList] at listed
  rcases List.mem_append.mp listed with zero | digit
  · rw [List.eq_of_mem_replicate zero]
    rfl
  · exact Text.isDigit_toString c digit

theorem bare_date (m : Moment) : Bare (date m) := by
  have dash : Bare "-" := by decide
  have colon : Bare ":" := by decide
  have day : Bare (monthDay m) := ((bare_padded _ _).append dash).append (bare_padded _ _)
  have time : Bare (clock m) :=
    ((((bare_padded _ _).append colon).append (bare_padded _ _)).append colon).append (bare_padded _ _)
  have space : Bare " " := by decide
  have zone : Bare " UTC" := by decide
  exact (((((bare_number _).append dash).append day).append space).append time).append zone

theorem bare_style : Bare style :=
  (((Bare.append (by decide) (by decide)).append (by decide)).append (by decide)).append (by decide)

/-! ### How the page is written -/

theorem written_append (ps qs : List Fragment) : written (ps ++ qs) = written ps ++ written qs := by
  induction ps with
  | nil => exact String.empty_append.symm
  | cons p ps ih => simp only [List.cons_append, written, ih, String.append_assoc]

theorem written_link (shot : Screenshot) : screenshotLink shot = written (linkFragments shot) := by
  have start : "<a href=\"" = "<" ++ "a" ++ " " ++ "href" ++ "=\"" := rfl
  have stop : "\">" = "\"" ++ ">" := rfl
  have ending : "</a>" = "<" ++ "/a" ++ ">" := rfl
  have place : escaped ("screenshots/" ++ shot.identifier) = screenshotDir ++ "/" ++ escaped shot.identifier := by
    rw [escaped_append, escaped_of_bare (by decide)]
    rfl
  simp only [screenshotLink, linkFragments, tagged, written, attributesText, start, stop, ending, place, escaped_empty,
    String.append_assoc, String.append_empty]

theorem written_links (shots : List Screenshot) :
    "<br>".intercalate (shots.map screenshotLink) = written (linksFragments shots) := by
  have line : written [tagged "br" ""] = "<br>" := by
    simp only [tagged, written, attributesText, escaped_empty]
    rfl
  unfold linksFragments
  induction shots with
  | nil => rfl
  | cons shot later ih =>
    cases later with
    | nil => simpa using written_link shot
    | cons next later =>
      simp only [List.map_cons] at ih ⊢
      rw [String.intercalate_cons_cons, ih, List.intercalate_cons_cons, written_append, written_append, line,
        written_link]

theorem written_row (number : Nat) (entry : RecordEntry) :
    tableRow number entry ++ "\n" = written (rowFragments number entry) := by
  have failed : "<tr class=\"failed\">" = "<" ++ "tr" ++ " " ++ "class" ++ "=\"" ++ "failed" ++ "\"" ++ ">" := rfl
  have row : "<tr>" = "<" ++ "tr" ++ ">" := rfl
  have cell : "<td>" = "<" ++ "td" ++ ">" := rfl
  have code : "</td><td><code>" = "<" ++ "/td" ++ ">" ++ "<" ++ "td" ++ ">" ++ "<" ++ "code" ++ ">" := rfl
  have coded : "</code></td>" = "<" ++ "/code" ++ ">" ++ "<" ++ "/td" ++ ">" := rfl
  have next : "</td><td>" = "<" ++ "/td" ++ ">" ++ "<" ++ "td" ++ ">" := rfl
  have ending : "</td></tr>" = "<" ++ "/td" ++ ">" ++ "<" ++ "/tr" ++ ">" := rfl
  have word : escaped "failed" = "failed" := escaped_of_bare (by decide)
  have fine : escaped "OK" = "OK" := escaped_of_bare (by decide)
  have count : escaped (toString number) = toString number := escaped_of_bare (bare_number number)
  cases error : entry.error <;>
    simp only [-String.reduceAppend, tableRow, rowFragments, written_append, written_links, error, tagged, written,
      attributesText, failed, row, cell, code, coded, next, ending, escaped_empty, escaped_feed, word, fine, count,
      String.append_assoc, String.append_empty, Option.isSome_none, Option.isSome_some, Option.map_none,
      Option.map_some, Option.getD_none, Option.getD_some, Bool.false_eq_true, if_true, if_false]

theorem intercalate_rows (number : Nat) (entries : List RecordEntry) {rest : List String} (more : rest ≠ []) :
    "\n".intercalate (tableRows number entries ++ rest) =
      written (rowsFragments number entries) ++ "\n".intercalate rest := by
  induction entries generalizing number with
  | nil => exact String.empty_append.symm
  | cons entry later ih =>
    rw [tableRows, List.cons_append, String.intercalate_cons_of_ne_nil (by simp [more]), written_row, ih, rowsFragments,
      written_append, String.append_assoc]

theorem written_closing : "\n".intercalate ["</table>", "</body></html>"] = written closingFragments := by
  simp only [closingFragments, tagged, written, attributesText, escaped_empty, escaped_feed]
  rfl

theorem html_eq (r : RunRecord) : html r = opening ++ written (page r) := by
  have more : tableRows 1 r.entries ++ ["</table>", "</body></html>"] ≠ [] := by simp
  have status : escaped (if r.exitedEarly then "Exited early" else "Completed") =
      if r.exitedEarly then "Exited early" else "Completed" := by
    cases r.exitedEarly <;> exact escaped_of_bare (by decide)
  have dated : escaped ("Date: " ++ date r.startedAt) = "Date: " ++ date r.startedAt :=
    escaped_of_bare (Bare.append (by decide) (bare_date _))
  have plain : escaped style = style := escaped_of_bare bare_style
  have charset : escaped "utf-8" = "utf-8" := escaped_of_bare (by decide)
  have kind : escaped "status" = "status" := escaped_of_bare (by decide)
  have columns : escaped "#" = "#" ∧ escaped "Statement" = "Statement" ∧ escaped "Result" = "Result" ∧
      escaped "Screenshots" = "Screenshots" := by
    refine ⟨?_, ?_, ?_, ?_⟩ <;> exact escaped_of_bare (by decide)
  have doctype : opening = "<!DOCTYPE html>" ++ "\n" := rfl
  have head : "<html><head><meta charset=\"utf-8\">" = "<" ++ "html" ++ ">" ++ "<" ++ "head" ++ ">" ++ "<" ++
      "meta" ++ " " ++ "charset" ++ "=\"" ++ "utf-8" ++ "\"" ++ ">" := rfl
  have title : "<title>" = "<" ++ "title" ++ ">" ∧ "</title>" = "<" ++ "/title" ++ ">" := ⟨rfl, rfl⟩
  have rules : "<style>" = "<" ++ "style" ++ ">" ∧ "</style>" = "<" ++ "/style" ++ ">" := ⟨rfl, rfl⟩
  have body : "</head><body>" = "<" ++ "/head" ++ ">" ++ "<" ++ "body" ++ ">" := rfl
  have heading : "<h1>" = "<" ++ "h1" ++ ">" ∧ "</h1>" = "<" ++ "/h1" ++ ">" := ⟨rfl, rfl⟩
  have day : "<p>Date: " = "<" ++ "p" ++ ">" ++ "Date: " ∧ "</p>" = "<" ++ "/p" ++ ">" := ⟨rfl, rfl⟩
  have outcome : "<p class=\"status\">" = "<" ++ "p" ++ " " ++ "class" ++ "=\"" ++ "status" ++ "\"" ++ ">" := rfl
  have table : "<table>" = "<" ++ "table" ++ ">" := rfl
  have names : "<tr><th>#</th><th>Statement</th><th>Result</th><th>Screenshots</th></tr>" = "<" ++ "tr" ++ ">" ++ "<" ++
      "th" ++ ">" ++ "#" ++ "<" ++ "/th" ++ ">" ++ "<" ++ "th" ++ ">" ++ "Statement" ++ "<" ++ "/th" ++ ">" ++ "<" ++
      "th" ++ ">" ++ "Result" ++ "<" ++ "/th" ++ ">" ++ "<" ++ "th" ++ ">" ++ "Screenshots" ++ "<" ++ "/th" ++ ">" ++
      "<" ++ "/tr" ++ ">" := rfl
  have split : html r = "\n".intercalate (htmlLines r) := rfl
  rw [split, htmlLines, List.append_assoc]
  simp only [List.cons_append, List.nil_append, String.intercalate_cons_cons, String.intercalate_cons_of_ne_nil more]
  rw [intercalate_rows 1 r.entries (by simp), written_closing, page, written_append, written_append]
  simp only [-String.reduceAppend, headFragments, tagged, written, attributesText, doctype, head, title, rules, body,
    heading, day, outcome, table, names, escaped_empty, escaped_feed, charset, kind, columns, status, dated, plain,
    String.append_assoc, String.append_empty]

/-! ### What is read from it -/

theorem proper_head (r : RunRecord) : ∀ p ∈ headFragments r, p.tag.Proper := by
  simp only [headFragments, tagged, List.forall_mem_cons, List.not_mem_nil, false_imp_iff, implies_true]
  decide

theorem proper_link (shot : Screenshot) : ∀ p ∈ linkFragments shot, p.tag.Proper := by
  have place : Tag.Proper ⟨"a", [("href", "screenshots/" ++ shot.identifier)]⟩ :=
    ⟨show IsName "a" by decide, List.forall_mem_singleton.mpr (show IsName "href" by decide)⟩
  exact List.forall_mem_cons.mpr ⟨place, List.forall_mem_singleton.mpr (by decide)⟩

theorem proper_links (shots : List Screenshot) : ∀ p ∈ linksFragments shots, p.tag.Proper := by
  unfold linksFragments
  induction shots with
  | nil => exact fun p listed => nomatch listed
  | cons shot later ih =>
    cases later with
    | nil => exact proper_link shot
    | cons next later =>
      rw [List.map_cons, List.map_cons, List.intercalate_cons_cons, ← List.map_cons]
      have line : ∀ p ∈ [tagged "br" ""], p.tag.Proper := List.forall_mem_singleton.mpr (by decide)
      exact List.forall_mem_append.mpr ⟨List.forall_mem_append.mpr ⟨proper_link shot, line⟩, ih⟩

theorem proper_row (number : Nat) (entry : RecordEntry) : ∀ p ∈ rowFragments number entry, p.tag.Proper := by
  have ending : ∀ p ∈ [tagged "/td" "", tagged "/tr" "\n"], p.tag.Proper := by decide
  have start : Tag.Proper ⟨"tr", if entry.error.isSome then [("class", "failed")] else []⟩ := by
    cases entry.error.isSome <;> decide
  refine List.forall_mem_append.mpr ⟨List.forall_mem_append.mpr ⟨?_, proper_links entry.screenshots⟩, ending⟩
  simp only [tagged, List.forall_mem_cons, start, true_and, List.not_mem_nil, false_imp_iff, implies_true]
  decide

theorem proper_rows (number : Nat) (entries : List RecordEntry) :
    ∀ p ∈ rowsFragments number entries, p.tag.Proper := by
  induction entries generalizing number with
  | nil => exact fun p listed => nomatch listed
  | cons entry later ih => exact List.forall_mem_append.mpr ⟨proper_row number entry, ih (number + 1)⟩

theorem proper_page (r : RunRecord) : ∀ p ∈ page r, p.tag.Proper := by
  have ending : ∀ p ∈ closingFragments, p.tag.Proper := by decide
  exact List.forall_mem_append.mpr ⟨proper_head r, List.forall_mem_append.mpr ⟨proper_rows 1 r.entries, ending⟩⟩

/-- A page holds the texts of its record and no tag that is not its own, and what it tells can be told from it. -/
theorem html_recovered (r : RunRecord) :
    read (html r) = some (page r) ∧ (read (html r)).map recordOf = some (shown r) := by
  have whole : read (html r) = some (page r) := by
    rw [html_eq]
    exact read_written (proper_page r) (by simp [page, headFragments])
  rw [whole, Option.map_some, recordOf_page]
  exact ⟨rfl, rfl⟩

end Walkthrough.Report
