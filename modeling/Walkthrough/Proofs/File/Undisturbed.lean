import Walkthrough.Proofs.File.Temporary

/-!
What a path reads while the disk changes elsewhere. Directories are only made where there is nothing (`Extends`), and
a file is written under its own name only. So a path that leads to another name reads what it read before
(`read_of_makeDirectories`, `read_of_write_apart`, `read_of_append_apart`).
-/
namespace Walkthrough

theorem FileName.ofString_inj {s t : String} (same : ofString s = ofString t) : s = t := by
  have octets : s.toList.flatMap String.utf8EncodeChar = t.toList.flatMap String.utf8EncodeChar :=
    congrArg FileName.octets same
  refine String.toByteArray_inj.mp ?_
  rw [← String.utf8Encode_toList, ← String.utf8Encode_toList]
  exact congrArg List.toByteArray octets

/-- The path leads to something of this name, in a directory. -/
structure Path.Called (p : Path) (s : String) : Prop where
  last : p.steps.getLast? = some (.ofString s)
  onward : s ≠ ".."

namespace Disk

variable {d e : Disk} {p q : Path} {s t : String} {content : ByteArray}

theorem back_of_called {place : Place} (called : p.Called s) (placed : d.place p = .ok place) :
    place.back? = some (.ofString s) := by
  obtain ⟨names, named, walked⟩ := place_eq_ok.mp placed
  obtain ⟨front, steps⟩ := List.getLast?_eq_some_iff.mp called.last
  obtain ⟨before, name, rfl, -, spelt, -⟩ := (names_of_concat steps).mp named
  rw [FileName.ofUnits?_ofString] at spelt
  cases spelt
  obtain ⟨none, -⟩ | ⟨before', name, above, same, stepped⟩ := walk_eq_ok walked
  · simp at none
  · obtain ⟨-, last⟩ := List.append_inj' same rfl
    cases last
    obtain ⟨-, ⟨back, -⟩ | ⟨-, rfl⟩⟩ := step_eq_ok stepped
    · exact absurd (FileName.ofString_inj back) called.onward
    · exact Array.back?_push

theorem read_eq_ok : d.read p = .ok content ↔ ∃ place, d.place p = .ok place ∧ d.item? place = some (.file content) := by
  unfold Disk.read
  rw [Except.bind_eq_ok]
  refine exists_congr fun place => and_congr_right fun _ => ?_
  split
  · next nothing => simp [nothing, throw, throwThe, MonadExceptOf.throw]
  · next directory => simp [directory, throw, throwThe, MonadExceptOf.throw]
  · next other file => simp [file, pure, Except.pure]

/-- A disk that has all that another one has. -/
structure Extends (d e : Disk) : Prop where
  here : e.here = d.here
  items : ∀ {place item}, d.item? place = some item → e.item? place = some item

namespace Extends

theorem refl (d : Disk) : Extends d d := ⟨rfl, id⟩

theorem trans {f : Disk} (one : Extends d e) (other : Extends e f) : Extends d f :=
  ⟨other.here.trans one.here, fun found => other.items (one.items found)⟩

theorem put {place : Place} (free : d.item? place = none) (item : Item) : Extends d (d.put place item) :=
  ⟨rfl, fun found => item?_put_of_free free found⟩

theorem read (wider : Extends d e) (read : d.read p = .ok content) : e.read p = .ok content := by
  obtain ⟨place, placed, there⟩ := read_eq_ok.mp read
  have keeps : Keeps d e := ⟨wider.here, fun _ => wider.items⟩
  exact read_eq_ok.mpr ⟨place, keeps.place placed, wider.items there⟩

end Extends

theorem extends_of_settle {found : Except ErrorNumber Place} {reached : Place}
    (settled : d.settle p found = .ok (e, reached)) : Extends d e := by
  obtain ⟨place, -, settled⟩ := Except.bind_eq_ok.mp settled
  split at settled
  · next free =>
    cases settled
    exact .put free _
  · cases settled
    exact .refl d
  · cases settled

theorem extends_of_makeUpTo {missing : Nat} {names : List FileName} {reached : Place}
    (made : d.makeUpTo p missing names = .ok (e, reached)) : Extends d e := by
  induction names generalizing p missing e reached with
  | nil =>
    unfold makeUpTo at made
    cases made
    exact .refl d
  | cons name before ih =>
    unfold makeUpTo at made
    split at made
    · cases made
    · obtain ⟨⟨above, place⟩, begun, settled⟩ := Except.bind_eq_ok.mp made
      exact (ih begun).trans (extends_of_settle settled)
    · exact extends_of_settle made

theorem read_of_makeDirectories (made : d.makeDirectories q = .ok e) (read : d.read p = .ok content) :
    e.read p = .ok content := by
  obtain ⟨names, -, made⟩ := Except.bind_eq_ok.mp made
  obtain ⟨⟨wider, place⟩, made, same⟩ := Except.bind_eq_ok.mp made
  cases same
  exact (extends_of_makeUpTo made).read read

/-- Something is put where another path leads to. -/
theorem read_of_put {place : Place} {before : ByteArray} (called : p.Called s) (other : q.Called t) (apart : s ≠ t)
    (found : d.target q = .ok (place, before)) (item : Item) (read : d.read p = .ok content) :
    (d.put place item).read p = .ok content := by
  obtain ⟨placed, file⟩ := target_eq_ok found
  obtain ⟨reached, placed', there⟩ := read_eq_ok.mp read
  have differ : reached ≠ place := by
    rintro rfl
    have same := (back_of_called called placed').symm.trans (back_of_called other placed)
    exact apart (FileName.ofString_inj (Option.some.inj same))
  obtain ⟨names, named, walked⟩ := place_eq_ok.mp placed'
  refine read_eq_ok.mpr ⟨reached, place_eq_ok.mpr ⟨names, named, walk_put item file walked⟩, ?_⟩
  rw [item?_put_of_ne differ, there]

theorem read_of_write_apart {octets : ByteArray} (called : p.Called s) (other : q.Called t) (apart : s ≠ t)
    (written : d.write q octets = .ok e) (read : d.read p = .ok content) : e.read p = .ok content := by
  obtain ⟨⟨place, before⟩, found, same⟩ := Except.bind_eq_ok.mp written
  cases same
  exact read_of_put called other apart found _ read

theorem read_of_append_apart {octets : ByteArray} (called : p.Called s) (other : q.Called t) (apart : s ≠ t)
    (written : d.append q octets = .ok e) (read : d.read p = .ok content) : e.read p = .ok content := by
  obtain ⟨⟨place, before⟩, found, same⟩ := Except.bind_eq_ok.mp written
  cases same
  exact read_of_put called other apart found _ read

end Disk
end Walkthrough
