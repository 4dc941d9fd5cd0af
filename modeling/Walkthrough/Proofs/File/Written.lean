import Walkthrough.File.Disk
import Walkthrough.Proofs.Except

/-!
What has been written is read again. A file that is written changes the disk at its own place only, and
no place on the way to it is that of a file, so its path still leads there (`read_of_write`). The same goes for
a file that is moved (`find?_of_replace`).
-/
namespace Walkthrough

theorem DiskM.change_eq_ok {f : Disk → Except Fault Disk} {d e : Disk} :
    DiskM.change f d = .ok () e ↔ f d = .ok e := by
  unfold DiskM.change
  cases f d with
  | ok changed =>
    constructor
    · rintro ⟨⟩
      rfl
    · rintro ⟨⟩
      rfl
  | error fault => exact ⟨nofun, nofun⟩

theorem DiskM.change_eq_error {f : Disk → Except Fault Disk} {d e : Disk} {fault : Fault} :
    DiskM.change f d = .error fault e ↔ f d = .error fault ∧ e = d := by
  unfold DiskM.change
  cases f d with
  | ok changed => exact ⟨nofun, nofun⟩
  | error other =>
    constructor
    · rintro ⟨⟩
      exact ⟨rfl, rfl⟩
    · rintro ⟨⟨⟩, rfl⟩
      rfl

namespace Disk

theorem item?_put_self {d : Disk} {place : Place} (below : place.isEmpty = false) (item : Item) :
    (d.put place item).item? place = some item := by
  simp [item?, put, below]

theorem lookup_filter_of_ne {items : List (Place × Item)} {place other : Place} (apart : other ≠ place) :
    (items.filter (·.1 != place)).lookup other = items.lookup other := by
  induction items with
  | nil => rfl
  | cons known later ih =>
    by_cases same : known.1 = place
    · have missed : (other == known.1) = false := by simpa [same] using apart
      rw [List.filter_cons_of_neg (by simp [same]), ih, List.lookup_cons, missed]
    · rw [List.filter_cons_of_pos (by simpa using same), List.lookup_cons, List.lookup_cons, ih]

theorem item?_put_of_ne {d : Disk} {place other : Place} (apart : other ≠ place) (item : Item) :
    (d.put place item).item? other = d.item? other := by
  have missed : (other == place) = false := by simpa using apart
  simp only [item?, put, List.lookup_cons, missed, lookup_filter_of_ne apart]

/-- Steps lead on from directories only. -/
theorem item?_of_step {d : Disk} {place next : Place} {name : FileName}
    (stepped : d.step place name = .ok next) : d.item? place = some .directory := by
  unfold step at stepped
  split at stepped
  · cases stepped
  · cases stepped
  · assumption

theorem step_congr {d e : Disk} {place : Place} (same : d.item? place = e.item? place) (name : FileName) :
    d.step place name = e.step place name := by
  unfold step
  rw [same]

theorem item?_erase_of_ne {d : Disk} {place other : Place} (apart : other ≠ place) :
    (d.erase place).item? other = d.item? other := by
  simp only [item?, erase, lookup_filter_of_ne apart]

theorem item?_erase_self {d : Disk} {place : Place} (below : place.isEmpty = false) : (d.erase place).item? place = none := by
  unfold item? erase
  rw [below, if_neg Bool.false_ne_true, List.lookup_eq_none_iff]
  intro known member
  have apart := bne_iff_ne.mp (List.mem_filter.mp member).2
  exact bne_iff_ne.mpr apart.symm

/-- A place that is no directory is not on the way to another one, so it does not matter to the way what else
is there. -/
theorem foldlM_step_of_apart {d e : Disk} {names : List FileName} {target place reached : Place}
    (same : ∀ other, other ≠ target → e.item? other = d.item? other) (file : d.item? target ≠ some .directory)
    (walked : names.foldlM d.step place = .ok reached) : names.foldlM e.step place = .ok reached := by
  induction names generalizing place with
  | nil => exact walked
  | cons name later ih =>
    rw [List.foldlM_cons] at walked ⊢
    cases stepped : d.step place name with
    | error number => simp [stepped, bind, Except.bind] at walked
    | ok next =>
      have apart : place ≠ target := by
        rintro rfl
        exact file (item?_of_step stepped)
      rw [stepped] at walked
      rw [step_congr (same place apart), stepped]
      exact ih walked

theorem walk_of_apart {d e : Disk} {root : Root} {names : List FileName} {target reached : Place} (here : e.here = d.here)
    (same : ∀ other, other ≠ target → e.item? other = d.item? other) (file : d.item? target ≠ some .directory)
    (walked : d.walk root names = .ok reached) : e.walk root names = .ok reached := by
  unfold walk at walked ⊢
  split
  · rename_i long
    rw [if_pos long] at walked
    cases walked
  · rename_i short
    rw [if_neg short] at walked
    unfold start at walked ⊢
    rw [here]
    exact foldlM_step_of_apart same file walked

theorem walk_put {d : Disk} {root : Root} {names : List FileName} {target reached : Place} (item : Item)
    (file : d.item? target ≠ some .directory) (walked : d.walk root names = .ok reached) :
    (d.put target item).walk root names = .ok reached :=
  walk_of_apart (d := d) rfl (fun _ apart => item?_put_of_ne apart item) file walked

theorem walk_erase {d : Disk} {root : Root} {names : List FileName} {target reached : Place}
    (file : d.item? target ≠ some .directory) (walked : d.walk root names = .ok reached) :
    (d.erase target).walk root names = .ok reached :=
  walk_of_apart (d := d) rfl (fun _ apart => item?_erase_of_ne apart) file walked

theorem place_eq_ok {d : Disk} {p : Path} {place : Place} :
    d.place p = .ok place ↔ ∃ names, p.names = .ok names ∧ d.walk p.root names = .ok place := by
  unfold Disk.place
  simp only [Except.bind_eq_ok, Except.mapError_eq_ok]

theorem target_eq_ok {d : Disk} {p : Path} {place : Place} {before : ByteArray}
    (found : d.target p = .ok (place, before)) : d.place p = .ok place ∧ d.item? place ≠ some .directory := by
  obtain ⟨reached, placed, looked⟩ := Except.bind_eq_ok.mp found
  split at looked
  · rename_i nothing
    cases looked
    exact ⟨placed, by simp [nothing]⟩
  · cases looked
  · rename_i content file
    cases looked
    exact ⟨placed, by simp [file]⟩

theorem fromUTF8?_toUTF8 (s : String) : String.fromUTF8? s.toUTF8 = some s := by
  unfold String.fromUTF8?
  simp only [Option.dite_none_right_eq_some]
  exact ⟨s.isValidUTF8, rfl⟩

theorem read_of_write {d e : Disk} {p : Path} {content : ByteArray} (written : d.write p content = .ok e) :
    e.read p = .ok content := by
  obtain ⟨⟨place, before⟩, found, same⟩ := Except.bind_eq_ok.mp written
  cases same
  obtain ⟨placed, file⟩ := target_eq_ok found
  obtain ⟨names, named, walked⟩ := place_eq_ok.mp placed
  have below : place.isEmpty = false := by
    cases root : place.isEmpty with
    | false => rfl
    | true => exact absurd (by simp [item?, root]) file
  refine Except.bind_eq_ok.mpr ⟨place, place_eq_ok.mpr ⟨names, named, walk_put _ file walked⟩, ?_⟩
  rw [item?_put_self below]
  rfl

theorem replace_eq_ok {d e : Disk} {source target : Path} (replaced : d.replace source target = .ok e) :
    ∃ origin place content names, d.place source = .ok origin ∧ d.item? origin = some (.file content) ∧
      target.names = .ok names ∧ d.walk target.root names = .ok place ∧ d.item? place ≠ some .directory ∧
      e = (d.erase origin).put place (.file content) := by
  obtain ⟨names, named, replaced⟩ := Except.bind_eq_ok.mp replaced
  obtain ⟨origin, walked, replaced⟩ := Except.bind_eq_ok.mp replaced
  obtain ⟨names', named', replaced⟩ := Except.bind_eq_ok.mp replaced
  obtain ⟨place, walked', replaced⟩ := Except.bind_eq_ok.mp replaced
  split at replaced
  · cases replaced
  · split at replaced
    · cases replaced
    · cases replaced
    · cases replaced
    · rename_i content file notDirectory
      cases replaced
      exact ⟨origin, place, content, names', place_eq_ok.mpr ⟨names, named, Except.mapError_eq_ok.mp walked⟩, file, named',
        Except.mapError_eq_ok.mp walked', notDirectory, rfl⟩

/-- A file that was moved is found at its new path. -/
theorem find?_of_replace {d e : Disk} {source target : Path} {content : ByteArray}
    (written : d.read source = .ok content) (replaced : d.replace source target = .ok e) :
    e.find? target = .ok (some (.file content)) := by
  obtain ⟨origin, place, moved, names, placed, file, named, walked, free, rfl⟩ := replace_eq_ok replaced
  have same : moved = content := by
    obtain ⟨origin', placed', found⟩ := Except.bind_eq_ok.mp written
    rw [placed] at placed'
    cases placed'
    rw [file] at found
    cases found
    rfl
  have below : place.isEmpty = false := by
    cases root : place.isEmpty with
    | false => rfl
    | true => exact absurd (by simp [item?, root]) free
  have erased : (d.erase origin).item? place ≠ some .directory := by
    by_cases own : place = origin
    · rw [own, item?_erase_self (own ▸ below)]
      exact (Option.some_ne_none _).symm
    · rw [item?_erase_of_ne own]
      exact free
  have reached : ((d.erase origin).put place (.file moved)).place target = .ok place :=
    place_eq_ok.mpr ⟨names, named, walk_put _ erased (walk_erase (by simp [file]) walked)⟩
  unfold find?
  rw [reached, ← same]
  exact congrArg Except.ok (item?_put_self below _)

end Disk
end Walkthrough
