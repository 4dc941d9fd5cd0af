import Walkthrough.Run.Record
import Walkthrough.Decimal.Layout

/-!
The record of a run as a page: its name, date and outcome, and a table with a row for each entry. All
texts of the record are escaped, so none of them can end the element or the attribute it stands in.
-/
namespace Walkthrough.Report

def escapedChar (c : Char) : String :=
  if c = '&' then "&amp;"
  else if c = '<' then "&lt;"
  else if c = '>' then "&gt;"
  else if c = '"' then "&quot;"
  else if c = '\x27' then "&#x27;"
  else String.singleton c

def escaped (s : String) : String := s.foldl (fun out c => out ++ escapedChar c) ""

def style : String :=
  "\nbody \x7b font-family: sans-serif; margin: 24px; \x7d" ++
  "\ntable \x7b border-collapse: collapse; width: 100%; \x7d" ++
  "\nth, td \x7b border: 1px solid #ccc; padding: 6px; text-align: left; vertical-align: top; \x7d" ++
  "\ntr.failed \x7b background: #fde2e2; \x7d" ++
  "\n.status \x7b font-weight: bold; \x7d\n"

def padded (width n : Nat) : String := Decimal.Layout.padded width n

def clock (m : Moment) : String :=
  padded 2 m.hour ++ ":" ++ padded 2 m.minute ++ ":" ++ padded 2 m.second

def monthDay (m : Moment) : String := padded 2 m.month ++ "-" ++ padded 2 m.day

def date (m : Moment) : String := toString m.year ++ "-" ++ monthDay m ++ " " ++ clock m ++ " UTC"

def screenshotDir : String := "screenshots"

def screenshotLink (shot : Screenshot) : String :=
  let identifier := escaped shot.identifier
  "<a href=\"" ++ screenshotDir ++ "/" ++ identifier ++ "\">" ++ identifier ++ "</a>"

def tableRow (number : Nat) (entry : RecordEntry) : String :=
  let start := if entry.error.isSome then "<tr class=\"failed\">" else "<tr>"
  let result := (entry.error.map escaped).getD "OK"
  start ++ "<td>" ++ toString number ++ "</td><td><code>" ++ escaped entry.text ++ "</code></td>" ++
    "<td>" ++ result ++ "</td><td>" ++
    "<br>".intercalate (entry.screenshots.map screenshotLink) ++ "</td></tr>"

/-- The rows of the entries, the first of which has this number. -/
def tableRows (number : Nat) : List RecordEntry → List String
  | [] => []
  | entry :: later => tableRow number entry :: tableRows (number + 1) later

def htmlLines (r : RunRecord) : List String :=
  ["<!DOCTYPE html>",
    "<html><head><meta charset=\"utf-8\">",
    "<title>" ++ escaped r.name ++ "</title>",
    "<style>" ++ style ++ "</style>",
    "</head><body>",
    "<h1>" ++ escaped r.name ++ "</h1>",
    "<p>Date: " ++ date r.startedAt ++ "</p>",
    "<p class=\"status\">" ++ (if r.exitedEarly then "Exited early" else "Completed") ++ "</p>",
    "<table>",
    "<tr><th>#</th><th>Statement</th><th>Result</th><th>Screenshots</th></tr>"] ++
  tableRows 1 r.entries ++ ["</table>", "</body></html>"]

def html (r : RunRecord) : String := "\n".intercalate (htmlLines r)

end Walkthrough.Report
