import Walkthrough.Proofs.File.Directories

/-!
A file that is there for a while. It is created where there was nothing, so as long as it alone is written and removed,
everything else on the disk stays as it was and all paths lead where they led (`Beside`). A path whose last step is
another name does not lead to it (`apart_of_names`).
-/
namespace Walkthrough

open Text (Symbol Units spell alone)

namespace Text.Units

theorem foldr_spell_append (units : List UInt16) (c : Char) (later : List Symbol) :
    units.foldr spell (.char c :: later) = units.foldr spell [] ++ .char c :: later := by
  induction units with
  | nil => rfl
  | cons unit rest ih =>
    rw [List.foldr_cons, List.foldr_cons, ih]
    cases rest.foldr spell [] with
    | nil => rfl
    | cons symbol symbols =>
      cases symbol with
      | char c => rfl
      | surrogate low =>
        rw [List.cons_append]
        simp only [spell]
        split <;> rfl

/-- A text that begins with a character spells the same behind any text. -/
theorem symbols_append (u : Units) {v : Units} {c : Char} {later : List Symbol} (begins : v.symbols = .char c :: later) :
    (u ++ v).symbols = u.symbols ++ v.symbols := by
  have whole : (u ++ v).symbols = u.toList.foldr spell v.symbols := List.foldr_append ..
  rw [whole, begins, foldr_spell_append]
  rfl

end Text.Units

namespace FileName

theorem ofUnits?_eq_some {u : Units} {name : FileName} :
    ofUnits? u = some name ↔ ∃ octets, u.symbols.mapM octetsOf? = some octets ∧ name.octets = octets.flatten := by
  unfold ofUnits?
  rw [Option.map_eq_some_iff]
  refine exists_congr fun octets => and_congr_right fun _ => ?_
  constructor
  · rintro rfl
    rfl
  · intro same
    rw [← same]

/-- The octets of a text are those of its parts one after the other. -/
theorem octets_append {u v : Units} {name : FileName} {c : Char} {later : List Symbol}
    (begins : v.symbols = .char c :: later) (named : ofUnits? (u ++ v) = some name) :
    ∃ front back, ofUnits? u = some front ∧ ofUnits? v = some back ∧ name.octets = front.octets ++ back.octets := by
  obtain ⟨octets, spelt, joined⟩ := ofUnits?_eq_some.mp named
  rw [Units.symbols_append u begins, List.mapM_append] at spelt
  obtain ⟨front, first, spelt⟩ := Option.bind_eq_some_iff.mp spelt
  obtain ⟨back, second, done⟩ := Option.bind_eq_some_iff.mp spelt
  cases done
  refine ⟨⟨front.flatten⟩, ⟨back.flatten⟩, ofUnits?_eq_some.mpr ⟨front, first, rfl⟩,
    ofUnits?_eq_some.mpr ⟨back, second, rfl⟩, ?_⟩
  rw [joined, List.flatten_append]

end FileName

namespace Disk

variable {d e : Disk} {spot : Place} {item : Option Item}

/-- A disk that is another one but for what is at one place. -/
structure Beside (d : Disk) (spot : Place) (item : Option Item) (e : Disk) : Prop where
  here : e.here = d.here
  own : e.item? spot = item
  others : ∀ place, place ≠ spot → e.item? place = d.item? place

theorem Beside.put (beside : Beside d spot item e) (below : spot.isEmpty = false) (new : Item) :
    Beside d spot (some new) (e.put spot new) where
  here := beside.here
  own := item?_put_self below new
  others place apart := (item?_put_of_ne apart new).trans (beside.others place apart)

theorem Beside.erase (beside : Beside d spot item e) (below : spot.isEmpty = false) : Beside d spot none (e.erase spot) where
  here := beside.here
  own := item?_erase_self below
  others place apart := (item?_erase_of_ne apart).trans (beside.others place apart)

theorem Beside.keeps (beside : Beside d spot item e) (free : d.item? spot ≠ some .directory) : Keeps d e where
  here := beside.here
  directories place there := by
    rw [beside.others place, there]
    rintro rfl
    exact free there

theorem Beside.keeps_back (beside : Beside d spot item e) (file : item ≠ some .directory) : Keeps e d where
  here := beside.here.symm
  directories place there := by
    by_cases own : place = spot
    · rw [own, beside.own] at there
      exact absurd there file
    · rw [← beside.others place own, there]

/-- Nothing is left of the file once it is removed. -/
theorem Beside.file?_of_none (beside : Beside d spot none e) (free : d.item? spot = none) (place : Place) :
    e.file? place = d.file? place := by
  refine file?_congr ?_
  by_cases own : place = spot
  · rw [own, beside.own, free]
  · exact beside.others place own

theorem create_eq_ok {p : Path} (created : d.create p = .ok e) :
    ∃ place, d.place p = .ok place ∧ d.item? place = none ∧ e = d.put place (.file .empty) := by
  obtain ⟨place, placed, created⟩ := Except.bind_eq_ok.mp created
  split at created
  · rename_i free
    cases created
    exact ⟨place, placed, free, rfl⟩
  · cases created

theorem write_eq_ok {p : Path} {content : ByteArray} (written : d.write p content = .ok e) :
    ∃ place, d.place p = .ok place ∧ d.item? place ≠ some .directory ∧ e = d.put place (.file content) := by
  obtain ⟨⟨place, before⟩, found, same⟩ := Except.bind_eq_ok.mp written
  cases same
  obtain ⟨placed, file⟩ := target_eq_ok found
  exact ⟨place, placed, file, rfl⟩

theorem beside_of_create {p : Path} (created : d.create p = .ok e) :
    ∃ spot, d.place p = .ok spot ∧ d.item? spot = none ∧ Beside d spot (some (.file .empty)) e := by
  obtain ⟨spot, placed, free, rfl⟩ := create_eq_ok created
  exact ⟨spot, placed, free, rfl, item?_put_self (below_of_free free) _, fun _ apart => item?_put_of_ne apart _⟩

theorem beside_of_write {p : Path} {f : Disk} {content : ByteArray} (placed : d.place p = .ok spot)
    (free : d.item? spot = none) (beside : Beside d spot item e) (written : e.write p content = .ok f) :
    Beside d spot (some (.file content)) f := by
  obtain ⟨place, placed', -, rfl⟩ := write_eq_ok written
  cases ((beside.keeps (by simp [free])).place placed).symm.trans placed'
  exact beside.put (below_of_free free) _

theorem beside_of_remove {p : Path} (placed : d.place p = .ok spot) (free : d.item? spot = none)
    (beside : Beside d spot item e) : Beside d spot none (e.remove p) := by
  unfold remove
  rw [(beside.keeps (by simp [free])).place placed]
  exact beside.erase (below_of_free free)

/-- Once the file has been moved, its content is where it was moved to, and everywhere else is what was there before it. -/
theorem moved_of_replace {p q : Path} {f : Disk} {content : ByteArray} (placed : d.place p = .ok spot)
    (free : d.item? spot = none) (beside : Beside d spot (some (.file content)) e) (replaced : e.replace p q = .ok f) :
    Keeps d f ∧ ∃ place, f.place q = .ok place ∧ f.file? place = some content ∧
      ∀ other, other ≠ place → f.file? other = d.file? other := by
  obtain ⟨origin, place, moved, names, placed', file, named, walked, notDirectory, rfl⟩ := replace_eq_ok replaced
  cases ((beside.keeps (by simp [free])).place placed).symm.trans placed'
  cases beside.own.symm.trans file
  have erased := beside.erase (below_of_free free)
  have target : (e.erase spot).item? place ≠ some .directory := by
    by_cases own : place = spot
    · rw [own, erased.own]
      exact (Option.some_ne_none _).symm
    · rw [erased.others place own, ← beside.others place own]
      exact notDirectory
  have below : place.isEmpty = false := by
    cases root : place.isEmpty with
    | false => rfl
    | true => exact absurd (by simp [item?, root]) target
  have put : Beside (e.erase spot) place (some (.file content)) ((e.erase spot).put place (.file content)) :=
    ⟨rfl, item?_put_self below _, fun _ apart => item?_put_of_ne apart _⟩
  have keeps := (erased.keeps (by simp [free])).trans (put.keeps target)
  refine ⟨keeps, place, ?_, file?_of_item put.own, fun other apart => ?_⟩
  · exact place_eq_ok.mpr ⟨names, named, walk_put _ target (walk_erase (by simp [file]) walked)⟩
  · rw [file?_congr (put.others other apart), erased.file?_of_none free]

theorem names_eq_ok {p : Path} {names : List FileName} :
    p.names = .ok names ↔ p.steps.mapM FileName.ofUnits? = some names ∧ ∀ name ∈ names, 0 ∉ name.octets := by
  unfold Path.names
  cases p.steps.mapM FileName.ofUnits? with
  | none => simp
  | some spelt =>
    dsimp only
    split
    · rename_i null
      refine iff_of_false nofun ?_
      rintro ⟨same, clean⟩
      cases same
      obtain ⟨name, member, null⟩ := List.any_eq_true.mp null
      exact clean name member (List.contains_iff_mem.mp null)
    · rename_i null
      constructor
      · intro same
        cases same
        exact ⟨rfl, fun name member null' =>
          null (List.any_eq_true.mpr ⟨name, member, List.contains_iff_mem.mpr null'⟩)⟩
      · rintro ⟨same, -⟩
        cases same
        rfl

/-- The last step of a path spells its last name, and those before it spell those before. -/
theorem names_of_concat {p : Path} {front : List Units} {step : Units} {names : List FileName}
    (steps : p.steps = front ++ [step]) : p.names = .ok names ↔ ∃ before name, names = before ++ [name] ∧
      (Path.mk p.root front).names = .ok before ∧ FileName.ofUnits? step = some name ∧ 0 ∉ name.octets := by
  rw [names_eq_ok, steps, List.mapM_append, List.mapM_cons, List.mapM_nil]
  constructor
  · rintro ⟨spelt, clean⟩
    obtain ⟨before, first, spelt⟩ := Option.bind_eq_some_iff.mp spelt
    obtain ⟨back, ending, same⟩ := Option.bind_eq_some_iff.mp spelt
    obtain ⟨name, last, done⟩ := Option.bind_eq_some_iff.mp ending
    cases done
    cases same
    refine ⟨before, name, rfl, names_eq_ok.mpr ⟨first, fun other member => ?_⟩, last, ?_⟩
    · exact clean other (List.mem_append_left _ member)
    · exact clean name (List.mem_append_right _ (List.mem_singleton_self name))
  · rintro ⟨before, name, rfl, first, last, clean⟩
    obtain ⟨first, rest⟩ := names_eq_ok.mp first
    refine ⟨?_, fun other member => ?_⟩
    · rw [first, last]
      rfl
    · rcases List.mem_append.mp member with earlier | own
      · exact rest other earlier
      · rwa [List.mem_singleton.mp own]

theorem name_of_names {p : Path} {before : List FileName} {name : FileName}
    (named : p.names = .ok (before ++ [name])) : FileName.ofUnits? p.name = some name := by
  obtain none | ⟨front, step, last⟩ := List.eq_nil_or_concat p.steps
  · obtain ⟨spelt, -⟩ := names_eq_ok.mp named
    rw [none] at spelt
    cases before <;> cases spelt
  · rw [List.concat_eq_append] at last
    obtain ⟨before', name', same, -, spelt, -⟩ := (names_of_concat last).mp named
    cases (List.append_inj' same rfl).2
    rwa [Path.name, last, List.getLast?_concat]

theorem names_of_parent {p : Path} {before : List FileName} {name : FileName} (parent : p.parent.names = .ok before)
    (spelt : FileName.ofUnits? p.name = some name) (clean : 0 ∉ name.octets) : ∃ names, p.names = .ok names := by
  obtain none | ⟨front, step, last⟩ := List.eq_nil_or_concat p.steps
  · refine ⟨[], names_eq_ok.mpr ⟨?_, nofun⟩⟩
    rw [none]
    rfl
  · rw [List.concat_eq_append] at last
    rw [Path.name, last, List.getLast?_concat] at spelt
    rw [Path.parent, last, List.dropLast_concat] at parent
    exact ⟨_, (names_of_concat last).mpr ⟨before, name, rfl, parent, spelt, clean⟩⟩

/-- Paths with different last names lead to different places, if there is nothing yet where one of them leads. -/
theorem apart_of_names {p q : Path} {reached : Place} (sound : d.Sound) (placed : d.place q = .ok spot)
    (free : d.item? spot = none) (reaches : d.place p = .ok reached)
    (differ : ∀ name, FileName.ofUnits? q.name = some name →
      name ≠ .ofString ".." ∧ FileName.ofUnits? p.name ≠ some name) : reached ≠ spot := by
  rintro rfl
  have directory (there : d.item? reached = some .directory) : False := by cases free.symm.trans there
  obtain ⟨names, named, walked⟩ := place_eq_ok.mp placed
  obtain ⟨names', named', walked'⟩ := place_eq_ok.mp reaches
  obtain ⟨-, rfl⟩ | ⟨before, name, place, rfl, stepped⟩ := walk_eq_ok walked
  · exact directory (sound.start _)
  · obtain ⟨onward, other⟩ := differ name (name_of_names named)
    obtain ⟨-, ⟨back, -⟩ | ⟨-, rfl⟩⟩ := step_eq_ok stepped
    · exact onward back
    · obtain ⟨-, same⟩ | ⟨before', name', place', rfl, stepped'⟩ := walk_eq_ok walked'
      · rw [same] at directory
        exact directory (sound.start _)
      · obtain ⟨inside, ⟨-, same⟩ | ⟨-, same⟩⟩ := step_eq_ok stepped'
        · rw [same] at directory
          exact directory (sound.inside _ _ inside)
        · rw [(Array.push_eq_push.mp same).1] at other
          exact other (name_of_names named')

end Disk
end Walkthrough
