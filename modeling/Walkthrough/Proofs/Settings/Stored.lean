import Walkthrough.Proofs.Decimal.Whole
import Walkthrough.Proofs.Json.Reading
import Walkthrough.Proofs.Settings.Loading
import Walkthrough.Settings.Saving

/-!
Settings that are read back as they were written (`ofText_text`). Whatever is loaded from a file is of this kind
(`storable_of_load`): a supported browser, a window of positive size whose numbers are not too long, and delays of
which none is below zero.
-/
namespace Walkthrough

open Text (Units)

namespace Settings

/-- A number in a file, or one that a numeral in it stands for, is not too long. -/
theorem short_of_meansWhole {j : Json} {depth : ℕ} {n : ℤ} (writable : j.Writable depth) (whole : MeansWhole j n) :
    (Nat.toDigits 10 n.natAbs).length ≤ Decimal.Numeral.maxDigits := by
  cases whole with
  | integer n =>
    cases writable with
    | integer short => exact short
  | bool b => cases b <;> decide
  | numeral spelt read => exact Json.short_of_lt (Decimal.Numeral.int?_lt read)
  | real finite => exact Json.short_of_lt (Decimal.Binary.truncate_lt (Decimal.Binary.canonical_of finite).1)

/-- Settings that stand in a file as they are. -/
structure Storable (s : Settings) : Prop where
  browser : ∃ b ∈ supportedBrowsers, s.browser = some b
  positive : 0 < s.viewport.1 ∧ 0 < s.viewport.2
  short : (Nat.toDigits 10 s.viewport.1.natAbs).length ≤ Decimal.Numeral.maxDigits ∧
    (Nat.toDigits 10 s.viewport.2.natAbs).length ≤ Decimal.Numeral.maxDigits
  some : s.retryDelays ≠ []
  retryDelays : ∀ delay ∈ s.retryDelays, ¬delay < 0
  commandDelay : 0 ≤ s.commandDelay

theorem storable_default : Storable {} where
  browser := ⟨"chromium", by decide, rfl⟩
  positive := by decide
  short := by decide
  some := nofun
  retryDelays := by decide
  commandDelay := by decide

theorem FallsBack.cases {entry : Option Json} {means : Json → α → Prop} {standard value : α}
    (back : FallsBack entry means standard value) : value = standard ∨ ∃ j, entry = some j ∧ means j value := by
  by_cases meant : ∃ j a, entry = some j ∧ means j a
  · obtain ⟨j, a, given, meaning⟩ := meant
    rw [back.meant j a given meaning]
    exact Or.inr ⟨j, given, meaning⟩
  · exact Or.inl (back.otherwise fun j a given meaning => meant ⟨j, a, given, meaning⟩)

theorem writable_field {j item : Json} {depth : ℕ} {name : String} (writable : j.Writable depth)
    (found : j.field? name = some item) : item.Writable (depth + 1) := by
  cases writable with
  | @object _ fields shallow distinct members =>
    obtain ⟨before, after, same⟩ := List.lookup_eq_some_iff.mp found
    exact members (.ofString name, item) (by rw [same.1]; simp)
  | _ => cases found

theorem means_delays_above {items : List Json} {delays : List Float} (meant : MeansDelays items delays) :
    ∀ delay ∈ delays, ¬delay < 0 := by
  induction meant with
  | nil => nofun
  | cons first _ ih =>
    intro delay member
    rcases List.mem_cons.mp member with rfl | later
    · exact first.2
    · exact ih delay later

theorem storable_of_readFrom {j : Json} {s : Settings} (writable : j.Writable 0) (read : ReadFrom j s) : Storable s := by
  have standard := storable_default
  have window : (0 < s.viewport.1 ∧ 0 < s.viewport.2) ∧
      (Nat.toDigits 10 s.viewport.1.natAbs).length ≤ Decimal.Numeral.maxDigits ∧
        (Nat.toDigits 10 s.viewport.2.natAbs).length ≤ Decimal.Numeral.maxDigits := by
    obtain same | ⟨item, given, width, height, rfl, wide, high, positive⟩ := read.viewport.cases
    · rw [same]
      exact ⟨standard.positive, standard.short⟩
    · cases writable_field writable given with
      | list shallow members =>
        exact ⟨positive, short_of_meansWhole (members width (by simp)) wide,
          short_of_meansWhole (members height (by simp)) high⟩
  have delays : s.retryDelays ≠ [] ∧ ∀ delay ∈ s.retryDelays, ¬delay < 0 := by
    obtain same | ⟨item, given, items, rfl, some, meant⟩ := read.retryDelays.cases
    · rw [same]
      exact ⟨standard.some, standard.retryDelays⟩
    · refine ⟨fun none => some ?_, means_delays_above meant⟩
      rw [none] at meant
      cases meant
      rfl
  refine ⟨?_, window.1, window.2, delays.1, delays.2, ?_⟩
  · obtain same | ⟨item, given, name, -, -, supported, same⟩ := read.browser.cases
    · rw [same]
      exact standard.browser
    · exact ⟨_, supported, same⟩
  · obtain same | ⟨item, given, meant⟩ := read.commandDelay.cases
    · rw [same]
      exact standard.commandDelay
    · exact meant.2

theorem storable_of_load {refusal : Option SystemError} {d : Disk} {p : Path} {s : Settings}
    (loaded : load refusal d p = .ok s) : Storable s := by
  cases loads_of_load loaded with
  | absent | refused | malformed | foreign => exact storable_default
  | stored found granted decoded read bounded given => exact storable_of_readFrom (Json.writable_of_parse read) given

theorem writable_toJson {s : Settings} (storable : Storable s) : s.toJson.Writable 0 := by
  obtain ⟨name, supported, browser⟩ := storable.browser
  unfold toJson Json.ofFields
  refine .object (by decide) (by simp) ?_
  simp only [browser, List.map_cons, List.map_nil, List.forall_mem_cons, List.not_mem_nil, false_implies, implies_true,
    and_true]
  refine ⟨.string _, .real _, .string _, .bool _, .bool _, .list (by decide) ?_, .string _, .list (by decide) ?_⟩
  · intro item member
    obtain ⟨delay, -, rfl⟩ := List.mem_map.mp member
    exact .real delay
  · intro item member
    rcases List.mem_cons.mp member with rfl | later
    · exact .integer storable.short.1
    · rw [List.mem_singleton.mp later]
      exact .integer storable.short.2

theorem readViewport_integers {width height : ℤ} (wide : 0 < width) (high : 0 < height) :
    readViewport (some (.list [.integer width, .integer height])) = .ok (some (width, height)) := by
  have positive : (width ≤ 0 || height ≤ 0) = false := by
    simp [wide, high]
  change Except.ok (if (width ≤ 0 || height ≤ 0) = true then none else some (width, height)) = _
  rw [positive]
  rfl

theorem readDelays_reals {delays : List Float} (above : ∀ delay ∈ delays, ¬delay < 0) :
    readDelays (delays.map .real) = .ok (some delays) := by
  induction delays with
  | nil => rfl
  | cons delay delays ih =>
    have later := ih fun delay' member => above delay' (List.mem_cons_of_mem _ member)
    change (if delay < 0 then .ok none else do return (← readDelays (delays.map .real)).map (delay :: ·)) = _
    rw [if_neg (above delay (List.mem_cons_self ..)), later]
    rfl

theorem readText_string (text : Units) : (readText (some (.string text))).getD (.ofString "") = text := by
  obtain ⟨units⟩ := text
  cases units with
  | nil => rfl
  | cons unit units => rfl

theorem readBrowser_text : ∀ name ∈ supportedBrowsers, readBrowser (some (.text name)) = some name := by
  decide

theorem ofJson_toJson {s : Settings} (storable : Storable s) : ofJson s.toJson = .ok s := by
  obtain ⟨name, supported, browser⟩ := storable.browser
  have browser' : readBrowser (s.toJson.field? "browser") = s.browser := by
    have given : s.toJson.field? "browser" = some (.text name) := by
      change some ((s.browser.map Json.text).getD (.list [])) = _
      rw [browser]
      rfl
    rw [given, browser, readBrowser_text name supported]
  have headless : (s.toJson.field? "headless").map Json.isGiven = some s.headless := rfl
  have outputDir : (readText (s.toJson.field? "output_dir")).getD (.ofString "") = s.outputDir :=
    readText_string s.outputDir
  have datatable : (readText (s.toJson.field? "datatable")).getD (.ofString "") = s.datatable :=
    readText_string s.datatable
  have viewport : readViewport (s.toJson.field? "viewport") = .ok (some s.viewport) :=
    readViewport_integers storable.positive.1 storable.positive.2
  have retryDelays : readRetryDelays (s.toJson.field? "locate_retry_delays") = .ok (some s.retryDelays) := by
    have some := storable.some
    have read := readDelays_reals storable.retryDelays
    change readRetryDelays (.some (.list (s.retryDelays.map .real))) = _
    generalize s.retryDelays = delays at *
    cases delays with
    | nil => exact absurd rfl some
    | cons delay delays => exact read
  have commandDelay : readDelay (s.toJson.field? "command_delay") = .ok (some s.commandDelay) := by
    change Except.ok ((some s.commandDelay).filter (0 ≤ ·)) = _
    rw [Option.filter_some, if_pos (decide_eq_true storable.commandDelay)]
  have demo : (s.toJson.field? "demo").map Json.isGiven = some s.demo := rfl
  obtain ⟨fields, object⟩ : ∃ fields, s.toJson = .object fields := ⟨_, rfl⟩
  generalize s.toJson = j at *
  subst object
  simp only [ofJson, browser', headless, outputDir, datatable, viewport, retryDelays, commandDelay, demo, bind,
    Except.bind, pure, Except.pure, Option.getD_some]
  have kept : (s.browser <|> some "chromium") = s.browser := by rw [browser]; rfl
  rw [kept]

theorem ofText_text {s : Settings} (storable : Storable s) : ofText s.text = .ok s := by
  have newline : Json.Blank "\n".toList := by
    intro c member
    rw [List.mem_singleton.mp member]
    rfl
  have read := Json.parse_put (writable_toJson storable) (some 2) newline
  rw [← String.toList_append] at read
  exact (ofText_of_read read).trans (ofJson_toJson storable)

end Settings
end Walkthrough
