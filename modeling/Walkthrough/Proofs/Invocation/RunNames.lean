import Walkthrough.Invocation.Basic
import Walkthrough.Proofs.File.Slashless
import Walkthrough.Proofs.Run.Screenshots
import Walkthrough.Proofs.Text.Numbered
import Walkthrough.Proofs.Text.Symbols

/-!
The names of runs. A number stands behind the last underscore of the name of a run for a row, and of the identifier
of a screenshot, so scripts, rows and screenshots can be told from these texts, whatever underscores and numbers the
names of the scripts have (`identifier_inj`). Scripts of one directory have the same ending, hence
different stems (`ScriptIn.eq_of_stem`), so no two runs have the same name (`Batch.runNames_nodup`).
-/
namespace Walkthrough

open Text (not_mem_append not_mem_toString numbered_inj)

theorem identifier_inj {s t : String} {i j : Nat}
    (same : s ++ "_screenshot_" ++ toString i ++ ".png" = t ++ "_screenshot_" ++ toString j ++ ".png") : s = t ∧ i = j := by
  have parts (u : String) : u ++ "_screenshot_" = u ++ "_screenshot" ++ "_" := by
    rw [String.append_assoc]
    rfl
  have fronts := (String.append_left_inj ".png").mp same
  rw [parts, parts] at fronts
  obtain ⟨front, number⟩ := numbered_inj fronts
  exact ⟨(String.append_left_inj "_screenshot").mp front, number⟩

namespace Path

theorem splitName_append (name : List UInt16) : (splitName name).1 ++ (splitName name).2 = name := by
  unfold splitName
  dsimp only
  split
  · exact List.append_nil _
  · next filled =>
    simp only [Bool.or_eq_true, List.isEmpty_iff, not_or] at filled
    obtain ⟨front, -⟩ := filled
    have whole : (name.reverse.dropWhile (· != dot)).reverse ++ (name.reverse.takeWhile (· != dot)).reverse = name := by
      rw [← List.reverse_append, List.takeWhile_append_dropWhile, List.reverse_reverse]
    -- What is left of the name without its ending is empty or ends with the last dot.
    have first := List.head?_dropWhile_not (· != dot) name.reverse
    generalize (name.reverse.takeWhile (· != dot)).reverse = ending at front whole ⊢
    cases behind : name.reverse.dropWhile (· != dot) with
    | nil =>
      rw [behind] at whole
      exact absurd (by rw [← whole]; simp) front
    | cons d rest =>
      rw [behind] at whole first
      obtain rfl : d = dot := by simpa using first
      have shape : name = rest.reverse ++ dot :: ending := by
        rw [← whole, List.reverse_cons, List.append_assoc]
        rfl
      have size : name.length - ending.length - 1 = rest.reverse.length := by
        rw [shape, List.length_append, List.length_cons]
        omega
      rw [size, shape, List.take_left]

theorem eq_of_stem {p q : Path} (stem : p.stem = q.stem) (ending : p.ending = q.ending) : p.name = q.name := by
  have front := congrArg Text.Units.toList stem
  have back := congrArg Text.Units.toList ending
  have whole : p.name.toList = q.name.toList := by
    rw [← splitName_append p.name.toList, ← splitName_append q.name.toList]
    exact congrArg₂ (· ++ ·) front back
  exact congrArg Text.Units.mk whole

end Path

namespace Invocation

/-- The path of a script in a directory. -/
structure ScriptIn (dir p : Path) : Prop where
  inside : ∃ name, Path.slash ∉ name.toList ∧ p = dir.join ⟨.relative, [name]⟩
  ending : p.ending = ".txt"

namespace ScriptIn

variable {dir p q : Path}

theorem name_join (dir : Path) (name : Text.Units) : (dir.join ⟨.relative, [name]⟩).name = name := by
  change (dir.steps ++ [name]).getLast?.getD _ = name
  rw [List.getLast?_concat]
  rfl

theorem eq_of_stem (first : ScriptIn dir p) (second : ScriptIn dir q) (same : p.stem = q.stem) : p = q := by
  have names := Path.eq_of_stem same (first.ending.trans second.ending.symm)
  obtain ⟨m, -, rfl⟩ := first.inside
  obtain ⟨n, -, rfl⟩ := second.inside
  rw [name_join, name_join] at names
  rw [names]

theorem parent (script : ScriptIn dir p) : p.parent = dir := by
  obtain ⟨name, -, rfl⟩ := script.inside
  change { dir with steps := (dir.steps ++ [name]).dropLast } = dir
  rw [List.dropLast_concat]

theorem stem_plain (script : ScriptIn dir p) {s : String} (stem : p.stem = .ofString s) : '/' ∉ s.toList := by
  intro listed
  have inside := Text.mem_ofString listed
  rw [← stem] at inside
  obtain ⟨name, plain, rfl⟩ := script.inside
  refine plain ?_
  rw [← Path.splitName_append name.toList, ← congrArg Text.Units.toList (name_join dir name)]
  exact List.mem_append_left _ inside

end ScriptIn

theorem mem_of_filterAuxM {α ε : Type} {f : α → Except ε Bool} {items done kept : List α}
    (filtered : items.filterAuxM f done = .ok kept) {a : α} (among : a ∈ kept) :
    a ∈ done ∨ a ∈ items ∧ f a = .ok true := by
  induction items generalizing done with
  | nil =>
    cases filtered
    exact Or.inl among
  | cons item later ih =>
    obtain ⟨keeps, told, rest⟩ := Except.bind_eq_ok.mp filtered
    rcases ih rest with before | ⟨listed, keeping⟩
    · cases keeps with
      | true =>
        rcases List.mem_cons.mp before with rfl | earlier
        · exact Or.inr ⟨List.mem_cons_self, told⟩
        · exact Or.inl earlier
      | false => exact Or.inl before
    · exact Or.inr ⟨List.mem_cons_of_mem _ listed, keeping⟩

theorem scriptIn_of_scriptsIn {d : Disk} {dir : Path} {paths : List Path} (slashless : d.Slashless)
    (found : scriptsIn d dir = .ok paths) : ∀ p ∈ paths, ScriptIn dir p := by
  intro p among
  obtain ⟨names, named, found⟩ := Except.bind_eq_ok.mp found
  obtain ⟨kept, filtered, same⟩ := Except.bind_eq_ok.mp found
  cases same
  rcases mem_of_filterAuxM filtered (List.mem_reverse.mp among) with nothing | ⟨listed, told⟩
  · cases nothing
  · obtain ⟨name, member, rfl⟩ := List.mem_map.mp listed
    obtain ⟨there, -, told⟩ := Except.bind_eq_ok.mp told
    refine ⟨⟨name, slashless.names named name member, rfl⟩, ?_⟩
    cases there with
    | true => exact of_decide_eq_true (Except.ok.inj told)
    | false => cases told

end Invocation

namespace Datatable

theorem runNames_nodup (script : String) (count : Nat) : (runNames script count).Nodup := by
  refine List.pairwise_map.mpr (List.nodup_range.imp fun apart same => apart ?_)
  exact Nat.succ.inj (numbered_inj same).2

end Datatable

namespace Batch

open Invocation

/-- The names of the runs of a script; there are none if its name cannot be written. -/
def runNames (rows : Option (List Bindings)) (path : Path) : List String :=
  match jobs path rows with
  | .ok jobs => jobs.map (·.1)
  | .error _ => []

variable {rows : Option (List Bindings)} {dir p q : Path} {name : String}

theorem runNames_of_jobs {all : List (String × Bindings)} (named : jobs p rows = .ok all) :
    runNames rows p = all.map (·.1) := by
  unfold runNames
  rw [named]

theorem runNames_of_stem {script : String} (rows : Option (List Bindings)) (stem : p.stem = .ofString script) :
    runNames rows p = (rows.map fun rows => Datatable.runNames script rows.length).getD [script] := by
  unfold runNames jobs scriptName
  rw [Text.Units.string?_eq_some_iff.mpr stem]
  cases rows with
  | none => rfl
  | some rows => exact List.map_fst_zip (by simp [Datatable.runNames])

/-- There is one run, or one for each row. -/
theorem length_runNames {script : String} (rows : Option (List Bindings)) (stem : p.stem = .ofString script) :
    (runNames rows p).length = (rows.map List.length).getD 1 := by
  rw [runNames_of_stem rows stem]
  cases rows with
  | none => rfl
  | some rows => simp [Datatable.runNames]

theorem runNames_eq (rows : Option (List Bindings)) (p : Path) : runNames rows p = [] ∨
    ∃ script, p.stem = .ofString script ∧
      runNames rows p = (rows.map fun rows => Datatable.runNames script rows.length).getD [script] := by
  cases written : p.stem.string? with
  | none =>
    refine Or.inl ?_
    unfold runNames jobs scriptName
    rw [written]
    rfl
  | some script =>
    have stem := Text.Units.string?_eq_some_iff.mp written
    exact Or.inr ⟨script, stem, runNames_of_stem rows stem⟩

/-- A run is called after its script, which is followed by the number of the row if there is one. -/
theorem mem_runNames (listed : name ∈ runNames rows p) :
    ∃ script, p.stem = .ofString script ∧ (rows = none ∧ name = script ∨
      rows ≠ none ∧ ∃ number : Nat, name = script ++ "_" ++ toString number) := by
  rcases runNames_eq rows p with none | ⟨script, stem, names⟩
  · rw [none] at listed
    cases listed
  · refine ⟨script, stem, ?_⟩
    rw [names] at listed
    cases rows with
    | none => exact Or.inl ⟨rfl, List.mem_singleton.mp listed⟩
    | some rows =>
      obtain ⟨i, -, rfl⟩ := List.mem_map.mp listed
      exact Or.inr ⟨Option.some_ne_none _, i + 1, rfl⟩

theorem stem_of_mem_runNames (first : name ∈ runNames rows p) (second : name ∈ runNames rows q) : p.stem = q.stem := by
  obtain ⟨script, stem, shape⟩ := mem_runNames first
  obtain ⟨script', stem', shape'⟩ := mem_runNames second
  suffices same : script = script' by rw [stem, stem', same]
  rcases shape with ⟨none, rfl⟩ | ⟨some, i, rfl⟩
  · rcases shape' with ⟨-, same⟩ | ⟨some, -⟩
    · exact same
    · exact absurd none some
  · rcases shape' with ⟨none, -⟩ | ⟨-, j, same⟩
    · exact absurd none some
    · exact (numbered_inj same).1

theorem plain_of_mem_runNames (script : ScriptIn dir p) (listed : name ∈ runNames rows p) : '/' ∉ name.toList := by
  obtain ⟨stem, same, shape⟩ := mem_runNames listed
  have plain := script.stem_plain same
  rcases shape with ⟨-, rfl⟩ | ⟨-, i, rfl⟩
  · exact plain
  · exact not_mem_append (not_mem_append plain (by decide)) (not_mem_toString (by decide) i)

/-- No two runs of scripts in one directory have the same name. -/
theorem runNames_nodup {paths : List Path} (scripts : ∀ p ∈ paths, ScriptIn dir p) (distinct : paths.Nodup)
    (rows : Option (List Bindings)) : (paths.flatMap (runNames rows)).Nodup := by
  refine List.pairwise_flatMap.mpr ⟨fun p _ => ?_, ?_⟩
  · rcases runNames_eq rows p with none | ⟨script, -, names⟩
    · rw [none]
      exact List.nodup_nil
    · rw [names]
      cases rows with
      | none => exact List.pairwise_singleton _ _
      | some rows => exact Datatable.runNames_nodup script rows.length
  · refine distinct.imp_of_mem fun {p q} first second apart name here name' there same => apart ?_
    subst same
    exact (scripts p first).eq_of_stem (scripts q second) (stem_of_mem_runNames here there)

end Batch

open Walkthrough.Action

variable {σ η ν : Type}

/-- The screenshots on the record of a run are numbered, behind its name. -/
theorem Setup.screenshots_numbered {setup : Setup σ η ν} {script : Script} {row : Bindings} {startedAt : Moment}
    {session : Session σ ν} {record : RunRecord} {t : RunState σ η ν}
    (returned : setup.run script row startedAt session = .ok record t) :
    ∃ pngs, record.screenshots = numbered setup.runName 0 pngs := by
  have filmed : mapState RunState.inner (setup.filmed.run script row startedAt (session.keeping [])) = .ok record t :=
    (Run.run_extends (setup.conduct_extends setup.page.filmed_extends) script setup.runName startedAt _).trans returned
  cases ran : setup.filmed.run script row startedAt (session.keeping []) with
  | error fault u =>
    rw [ran] at filmed
    cases filmed
  | ok record' u =>
    rw [ran] at filmed
    cases filmed
    obtain ⟨v, observed, -⟩ := observedRun_returns ran
    obtain ⟨visits, -, filed, accounted⟩ :=
      (upholds_accounted setup script).run rfl ⟨rfl, rfl, List.forall_mem_nil _, rfl⟩ observed
    exact ⟨_, filed.screenshots.trans accounted.all⟩

theorem mem_numbered {name : String} {before : Nat} {pngs : List ByteArray} {shot : Screenshot}
    (among : shot ∈ numbered name before pngs) :
    ∃ number : Nat, shot.identifier = name ++ "_screenshot_" ++ toString number ++ ".png" := by
  obtain ⟨i, bound, rfl⟩ := List.mem_mapIdx.mp among
  exact ⟨_, rfl⟩

theorem identifiers_numbered_nodup (name : String) (before : Nat) (pngs : List ByteArray) :
    ((numbered name before pngs).map (·.identifier)).Nodup := by
  unfold numbered
  refine List.pairwise_map.mpr (List.pairwise_iff_getElem.mpr fun i j first second apart same => ?_)
  rw [List.getElem_mapIdx, List.getElem_mapIdx] at same
  obtain ⟨-, number⟩ := identifier_inj same
  omega

/-- No two screenshots of runs with different names have the same identifier. -/
theorem identifiers_nodup {records : List RunRecord} (distinct : (records.map (·.name)).Nodup)
    (each : ∀ r ∈ records, ∃ pngs, r.screenshots = numbered r.name 0 pngs) :
    ((records.flatMap (·.screenshots)).map (·.identifier)).Nodup := by
  rw [List.map_flatMap]
  refine List.pairwise_flatMap.mpr ⟨fun r among => ?_, ?_⟩
  · obtain ⟨pngs, same⟩ := each r among
    rw [same]
    exact identifiers_numbered_nodup r.name 0 pngs
  · refine (List.pairwise_map.mp distinct).imp_of_mem fun {r u} first second apart id here id' there same => apart ?_
    subst same
    obtain ⟨shot, among, rfl⟩ := List.mem_map.mp here
    obtain ⟨shot', among', same⟩ := List.mem_map.mp there
    obtain ⟨pngs, shots⟩ := each r first
    obtain ⟨pngs', shots'⟩ := each u second
    obtain ⟨i, id⟩ := mem_numbered (shots ▸ among)
    obtain ⟨j, id'⟩ := mem_numbered (shots' ▸ among')
    exact (identifier_inj (id.symm.trans (same.symm.trans id'))).1

end Walkthrough
